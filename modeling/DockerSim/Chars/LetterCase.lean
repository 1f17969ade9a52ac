import DockerSim.Chars.UppercaseTable

/-!
# Letter case

Uppercase text follows the full Unicode mapping, since it is shown. Lowercase text is only ever
compared with ASCII words, so lowercasing spells out the characters that have an ASCII letter in
their lowercase form and leaves all others alone.
-/

namespace DockerSim.Chars

def upperAscii (c : Char) : Char :=
  if 'a' ≤ c && c ≤ 'z' then Char.ofNat (c.toNat - 32) else c

def lowerAscii (c : Char) : Char :=
  if 'A' ≤ c && c ≤ 'Z' then Char.ofNat (c.toNat + 32) else c

/-- The full uppercase mapping of a character. -/
def upperChar (c : Char) : List Char :=
  let n := c.toNat
  if n < 0x80 then [upperAscii c]
  else
    match uppercaseExpansions.lookup n with
    | some ns => ns.map Char.ofNat
    | none =>
      match uppercaseRuns.find? fun (first, last, step, _) =>
          first ≤ n && n ≤ last && (n - first) % step == 0 with
      | some (first, _, _, form) => [Char.ofNat (form + (n - first))]
      | none => [c]

def upper (cs : List Char) : List Char := cs.flatMap upperChar

/-- The lowercase form of a character, as far as ASCII letters occur in it: the ASCII capitals, the
Kelvin sign and the dotted capital I. -/
def lowerChar (c : Char) : List Char :=
  if c == '\u212A' then ['k']
  else if c == '\u0130' then ['i', '\u0307']
  else [lowerAscii c]

def lower (cs : List Char) : List Char := cs.flatMap lowerChar

/-- The representative of a character under simple case folding, as far as an ASCII letter is its
equal: the ASCII capitals, the Kelvin sign and the long s. -/
def foldChar (c : Char) : Char :=
  if c == '\u212A' then 'k'
  else if c == '\u017F' then 's'
  else lowerAscii c

def fold (cs : List Char) : List Char := cs.map foldChar

end DockerSim.Chars

/-!
# Blank characters

Text is taken apart as a list of characters. A character is blank when it has the Unicode property
`White_Space`; trimming removes blanks at an end and words are the maximal runs without one.
-/

namespace DockerSim.Chars

/-- The characters with the Unicode property `White_Space`. -/
def isBlank (c : Char) : Bool :=
  let n := c.toNat
  (9 ≤ n && n ≤ 13) || n == 0x20 || n == 0x85 || n == 0xA0 || n == 0x1680 ||
    (0x2000 ≤ n && n ≤ 0x200A) || n == 0x2028 || n == 0x2029 || n == 0x202F || n == 0x205F ||
    n == 0x3000

/-- The blanks among the ASCII characters that end a field: tab, line feed, form feed, carriage
return and space. The vertical tab is not one of them. -/
def isAsciiBlank (c : Char) : Bool :=
  c == '\t' || c == '\n' || c == '\x0c' || c == '\r' || c == ' '

def trimStart (cs : List Char) : List Char := cs.dropWhile isBlank

def trimEnd (cs : List Char) : List Char := (cs.reverse.dropWhile isBlank).reverse

def trim (cs : List Char) : List Char := trimEnd (trimStart cs)

/-- The text without the trailing characters that satisfy `p`. -/
def dropEndWhile (p : Char → Bool) (cs : List Char) : List Char :=
  (cs.reverse.dropWhile p).reverse

/-- The pieces between the characters that satisfy `p`; always at least one piece. -/
def splitBy (p : Char → Bool) : List Char → List (List Char)
  | [] => [[]]
  | c :: cs =>
    match splitBy p cs with
    | [] => [[]]
    | piece :: pieces => if p c then [] :: piece :: pieces else (c :: piece) :: pieces

/-- The pieces between the occurrences of `sep`. -/
def split (sep : Char) (cs : List Char) : List (List Char) := splitBy (· == sep) cs

/-- The maximal runs of characters that are not blank. -/
def words (cs : List Char) : List (List Char) := (splitBy isBlank cs).filter (!·.isEmpty)

theorem splitBy_ne_nil (p : Char → Bool) : ∀ cs : List Char, splitBy p cs ≠ []
  | [] => by simp [splitBy]
  | c :: cs => by
    have := splitBy_ne_nil p cs
    unfold splitBy
    split
    · simp
    · split <;> simp

end DockerSim.Chars

import DockerSim.Proofs.ByteOffsets
import DockerSim.Proofs.Yaml.Reading

/-!
# The reader cuts its lines inside them

The reader of stack files with its cuts written out: the byte offsets at which it cuts a line, where
a cut can fail (`Indexed.parse`). No cut fails, on any text, and what is read is the same
(`Indexed.parse_eq`). The offsets come from searches, for a quote, a comment or a colon, and a text
that is cut behind its first byte begins with a quote or a dash.
-/

namespace DockerSim.Yaml

open Chars

/-! ## Colons -/

def isBlankByte (b : UInt8) : Bool := b = 9 || b = 10 || b = 12 || b = 13 || b = 32

/-- The offset of the first colon with a blank or nothing behind it, among the bytes of a text. -/
def colonOffset : List UInt8 → Option Nat
  | [] => none
  | b :: bs =>
    if b = 58 && bs.head?.all isBlankByte then some 0 else (colonOffset bs).map (1 + ·)

variable {c q : Char} {cs text before after : List Char}

theorem ofNat_toNat_eq_iff (h : c.toNat < 128) {n : Nat} (hn : n < 128) :
    UInt8.ofNat c.toNat = .ofNat n ↔ c.toNat = n := by
  rw [← UInt8.toNat_inj, UInt8.toNat_ofNat', UInt8.toNat_ofNat', Nat.mod_eq_of_lt (by omega),
    Nat.mod_eq_of_lt (by omega)]

theorem isBlankByte_ascii (h : c.toNat < 128) : isBlankByte (.ofNat c.toNat) = isAsciiBlank c := by
  have hchar : ∀ d : Char, d.toNat < 128 →
      (decide (UInt8.ofNat c.toNat = .ofNat d.toNat)) = (c == d) := by
    intro d hd
    rw [Bool.eq_iff_iff, decide_eq_true_iff, ofNat_toNat_eq_iff h hd, Char.toNat_inj, beq_iff_eq]
  have h9 := hchar '\t' (by decide)
  have h10 := hchar '\n' (by decide)
  have h12 := hchar '\x0c' (by decide)
  have h13 := hchar '\r' (by decide)
  have h32 := hchar ' ' (by decide)
  unfold isBlankByte isAsciiBlank
  rw [← h9, ← h10, ← h12, ← h13, ← h32]
  rfl

theorem isBlankByte_of_le {b : UInt8} (h : 128 ≤ b.toNat) : isBlankByte b = false := by
  have hne : ∀ n : Nat, n < 128 → b ≠ .ofNat n := by
    rintro n hn rfl
    rw [UInt8.toNat_ofNat', Nat.mod_eq_of_lt (by omega)] at h
    omega
  have h9 := hne 9 (by decide)
  have h10 := hne 10 (by decide)
  have h12 := hne 12 (by decide)
  have h13 := hne 13 (by decide)
  have h32 := hne 32 (by decide)
  simp only [isBlankByte, Bool.or_eq_false_iff, decide_eq_false_iff_not]
  exact ⟨⟨⟨⟨h9, h10⟩, h12⟩, h13⟩, h32⟩

theorem isAsciiBlank_of_le (h : ¬c.toNat < 128) : isAsciiBlank c = false := by
  have hne : ∀ d : Char, d.toNat < 128 → (c == d) = false := by
    intro d hd
    rw [beq_eq_false_iff_ne]
    rintro rfl
    exact h hd
  simp [isAsciiBlank, hne '\t' (by decide), hne '\n' (by decide), hne '\x0c' (by decide),
    hne '\r' (by decide), hne ' ' (by decide)]

/-- Whether a blank comes first can be seen from the first byte. -/
theorem head_bytes : ∀ cs : List Char,
    (bytes cs).head?.all isBlankByte = cs.head?.all isAsciiBlank
  | [] => rfl
  | c :: cs => by
    rw [bytes, List.flatMap_cons]
    by_cases h : c.toNat < 128
    · rw [bytes_ascii h]
      exact isBlankByte_ascii h
    · obtain ⟨b, bs, hb⟩ := List.exists_cons_of_ne_nil (String.utf8EncodeChar_ne_nil (c := c))
      have hle : 128 ≤ b.toNat := le_of_mem_bytes h (hb ▸ List.mem_cons_self)
      rw [hb]
      show isBlankByte b = isAsciiBlank c
      rw [isBlankByte_of_le hle, isAsciiBlank_of_le h]

/-- No colon is found inside a character outside ASCII. -/
theorem colonOffset_append {bs : List UInt8} (rest : List UInt8) (h : ∀ b ∈ bs, 128 ≤ b.toNat) :
    colonOffset (bs ++ rest) = (colonOffset rest).map (bs.length + ·) := by
  induction bs with
  | nil => simp
  | cons b bs ih =>
    obtain ⟨hb, hbs⟩ := List.forall_mem_cons.1 h
    have hcolon : b ≠ 58 := by
      rintro rfl
      exact absurd hb (by decide)
    rw [List.cons_append, colonOffset, decide_eq_false hcolon, Bool.false_and,
      if_neg Bool.false_ne_true, ih hbs, Option.map_map]
    congr 1
    funext i
    show 1 + (bs.length + i) = bs.length + 1 + i
    omega

/-- **The colon is found where the text can be cut at it.** -/
theorem colonOffset_bytes : ∀ cs : List Char,
    colonOffset (bytes cs) = (cutColon cs).map fun (before, _) => byteSize before
  | [] => rfl
  | c :: cs => by
    have ih := colonOffset_bytes cs
    have hskip : ((cutColon cs).map fun (before, after) => (c :: before, after)).map
        (fun (before, _) => byteSize before) =
          (colonOffset (bytes cs)).map (c.utf8Size + ·) := by
      rw [ih, Option.map_map, Option.map_map]
      congr 1
      funext parts
      exact byteSize_cons c parts.1
    have hbytes : bytes (c :: cs) = String.utf8EncodeChar c ++ bytes cs := List.flatMap_cons ..
    rw [hbytes, cutColon]
    by_cases h : c.toNat < 128
    · have hcolon : decide (UInt8.ofNat c.toNat = 58) = decide (c = ':') := by
        rw [decide_eq_decide]
        exact (ofNat_toNat_eq_iff h (by decide : (58 : Nat) < 128)).trans
          (Char.toNat_inj (d := ':'))
      rw [bytes_ascii h, List.singleton_append, colonOffset, hcolon, head_bytes]
      split
      · rfl
      · rw [hskip, utf8Size_ascii h]
    · have hcolon : c ≠ ':' := by
        rintro rfl
        exact h (by decide)
      rw [colonOffset_append _ fun b hb => le_of_mem_bytes h hb, decide_eq_false hcolon,
        Bool.false_and, if_neg Bool.false_ne_true, hskip, String.length_utf8EncodeChar]

/-! ## Cuts written out -/

namespace Indexed

def dropComment (value : List Char) : Option (List Char) :=
  if isQuoted value then some value
  else
    match offsetWhere (fun rest => (after? [' ', '#'] rest).isSome) value with
    | some i => (upToByte? value i).map trimEnd
    | none => some (if value.head? = some '#' then [] else value)

def splitEntry (text : List Char) : Option (Option (String × List Char)) :=
  if isQuoted text then
    match text.head? with
    | none => some none
    | some quote => do
      let behind ← fromByte? text 1
      match offsetWhere (fun rest => decide (rest.head? = some quote)) behind with
      | none => some none
      | some i =>
        let close := i + 1
        let after ← fromByte? text (close + 1)
        match after with
        | ':' :: after =>
          if after.head?.all isBlank then do
            let key ← betweenBytes? text 1 close
            let value ← dropComment (trim after)
            some (some (.ofList key, value))
          else some none
        | _ => some none
  else
    match colonOffset (bytes text) with
    | none => some none
    | some i => do
      let before ← upToByte? text i
      let key := trim before
      if key.isEmpty then some none
      else do
        let after ← fromByte? text (i + 1)
        let value ← dropComment (trim after)
        some (some (.ofList key, value))

def isEntryItem (item : List Char) : Option Bool :=
  if !isQuoted item && item.head? ≠ some '\x7b' && item.head? ≠ some '[' then
    (splitEntry item).map Option.isSome
  else some false

def unquoted? (cs : List Char) : Option (Option (List Char)) :=
  if ['"', '\''].any fun q => 2 ≤ byteSize cs && cs.head? = some q && cs.getLast? = some q then
    (betweenBytes? cs 1 (byteSize cs - 1)).map some
  else some none

def ofScalar (cs : List Char) : Option Yaml :=
  let text : Yaml := .str (.ofList cs)
  match String.ofList cs with
  | "true" => some (.bool true)
  | "false" => some (.bool false)
  | "null" | "~" => some .null
  | _ => (unquoted? cs).map fun
    | some inside => .str (.ofList inside)
    | none =>
      match Chars.signed? (Nat.pow 2 63) cs with
      | some n => .int n
      | none => if looksNumeric cs then ((float? cs).map .float).getD text else text

/-! ### Descent -/

mutual

def readEntries : (fuel : Nat) → (column : Nat) → YamlMap → List Line →
    ExceptT Halt Option (YamlMap × List Line)
  | 0, _, _, _ => throw .exhausted
  | _ + 1, _, entries, [] => pure (entries, [])
  | fuel + 1, column, entries, line :: rest =>
    if line.column < column then pure (entries, line :: rest)
    else if column < line.column then .mk (some (line.refuse .unexpectedIndentation))
    else if isItem line.text then .mk (some (line.refuse .itemInMapping))
    else do
      let (entries, rest) ← readEntry fuel column entries line.text rest
      readEntries fuel column entries rest
termination_by structural fuel => fuel

def readEntry : (fuel : Nat) → (column : Nat) → YamlMap → (text : List Char) → List Line →
    ExceptT Halt Option (YamlMap × List Line)
  | 0, _, _, _, _ => throw .exhausted
  | fuel + 1, column, entries, text, lines => do
    match ← splitEntry text with
    | none => return (entries, skipDeeper column lines)
    | some (key, value) =>
      if value.isEmpty then
        let (v, rest) ← readNested fuel column lines
        return (entries.insert key v, rest)
      else if isTextBlock value then
        return (entries.insert key (.map []), skipDeeper column lines)
      else
        let v ← ofScalar value
        return (entries.insert key v, lines)
termination_by structural fuel => fuel

def readNested : (fuel : Nat) → (column : Nat) → List Line → ExceptT Halt Option (Yaml × List Line)
  | 0, _, _ => throw .exhausted
  | _ + 1, _, [] => pure (.map [], [])
  | fuel + 1, column, next :: rest =>
    if column < next.column then
      if isItem next.text then do
        let (items, rest) ← readItems fuel next.column [] (next :: rest)
        return (.seq items, rest)
      else do
        let (entries, rest) ← readEntries fuel next.column [] (next :: rest)
        return (.map entries, rest)
    else if next.column = column && isItem next.text then do
      let (items, rest) ← readItems fuel column [] (next :: rest)
      return (.seq items, rest)
    else pure (.map [], next :: rest)
termination_by structural fuel => fuel

def readItems : (fuel : Nat) → (column : Nat) → List Yaml → List Line →
    ExceptT Halt Option (List Yaml × List Line)
  | 0, _, _, _ => throw .exhausted
  | _ + 1, _, items, [] => pure (items, [])
  | fuel + 1, column, items, line :: rest =>
    if line.column < column || line.column = column && !isItem line.text then
      pure (items, line :: rest)
    else if column < line.column then .mk (some (line.refuse .unexpectedIndentation))
    else do
      let behind ← fromByte? line.text 1
      let item := trimStart behind
      if item.isEmpty then
        let (v, rest) ←
          if rest.head?.any (column < ·.column) then readNested fuel column rest
          else pure (.null, rest)
        readItems fuel column (items ++ [v]) rest
      else if ← isEntryItem item then
        let inside := column + 1 + byteSize (behind.takeWhile isBlank)
        let (entries, rest) ← readEntry fuel inside [] item rest
        let (entries, rest) ← readEntries fuel inside entries rest
        readItems fuel column (items ++ [.map entries]) rest
      else
        let v ← ofScalar item
        readItems fuel column (items ++ [v]) rest
termination_by structural fuel => fuel

end

/-- The mapping that a document holds, read with cuts that can fail. There is none when a cut fails,
or when the fuel is used up. -/
def parse (content : String) : Option (Except YamlError YamlMap) :=
  match linesOf content with
  | [] => some (.ok [])
  | first :: lines =>
    if isItem first.text then
      some (.error { line := first.number, fault := .sequenceAtTop })
    else
      let fuel := 3 * (first :: lines).length + 1
      match (readEntries fuel first.column [] (first :: lines)).run with
      | none => none
      | some (.error .exhausted) => none
      | some (.error (.refused e)) => some (.error e)
      | some (.ok (entries, [])) => some (.ok entries)
      | some (.ok (_, line :: _)) =>
        some (.error { line := line.number, fault := .unexpectedIndentation })

/-! ## No cut fails -/

theorem offsetWhere_comment (cs : List Char) :
    offsetWhere (fun rest => (after? [' ', '#'] rest).isSome) cs =
      (Yaml.dropComment.upTo cs).map byteSize := by
  induction cs using dropComment.upTo.induct with
  | case1 tail => rfl
  | case2 c cs hne ih =>
    have hskip : (after? [' ', '#'] (c :: cs)).isSome = false := by
      rw [Bool.eq_false_iff, ne_eq, Option.isSome_iff_exists]
      rintro ⟨rest, hrest⟩
      obtain ⟨rfl, rfl⟩ := List.cons.inj (after?_eq_some_iff.1 hrest)
      exact hne rest rfl rfl
    rw [offsetWhere, hskip, if_neg Bool.false_ne_true, ih, dropComment.upTo, Option.map_map,
      Option.map_map]
    · congr 1
      funext before
      exact (byteSize_cons c before).symm
    · exact hne
  | case3 => rfl

theorem eq_append_of_upTo : ∀ {cs before : List Char}, Yaml.dropComment.upTo cs = some before →
    ∃ after, cs = before ++ after := by
  intro cs
  induction cs using dropComment.upTo.induct with
  | case1 tail => exact fun h => ⟨_, by cases h; rfl⟩
  | case2 c cs hne ih =>
    intro before h
    rw [dropComment.upTo] at h
    · obtain ⟨rest, hrest, rfl⟩ := Option.map_eq_some_iff.1 h
      obtain ⟨after, rfl⟩ := ih hrest
      exact ⟨after, rfl⟩
    · exact hne
  | case3 => exact fun h => nomatch h

theorem dropComment_eq (value : List Char) : dropComment value = some (Yaml.dropComment value) := by
  unfold dropComment Yaml.dropComment
  split
  · rfl
  · rw [offsetWhere_comment]
    cases h : Yaml.dropComment.upTo value with
    | none => rfl
    | some before =>
      obtain ⟨after, rfl⟩ := eq_append_of_upTo h
      rw [Option.map_some]
      dsimp only
      rw [upToByte?_append, Option.map_some]

theorem eq_append_of_cutColon : ∀ {cs before after : List Char},
    cutColon cs = some (before, after) → cs = before ++ ':' :: after
  | [], _, _, h => nomatch h
  | c :: cs, before, after, h => by
    unfold cutColon at h
    split at h
    · next hc =>
      cases h
      rw [Bool.and_eq_true, decide_eq_true_iff] at hc
      rw [hc.1, List.nil_append]
    · obtain ⟨⟨b, a⟩, hcut, he⟩ := Option.map_eq_some_iff.1 h
      cases he
      rw [eq_append_of_cutColon hcut, List.cons_append]

theorem utf8Size_of_isQuoteMark (h : isQuoteMark c = true) : c.utf8Size = 1 := by
  have hc : c = '"' ∨ c = '\'' := by simpa [isQuoteMark] using h
  rcases hc with rfl | rfl <;> rfl

theorem fromByte?_one (h : c.utf8Size = 1) (cs : List Char) :
    fromByte? (c :: cs) 1 = some cs := by
  have hsize : byteSize [c] = 1 := by rw [byteSize_cons, h, byteSize_nil]
  have hcut := fromByte?_append [c] cs
  rwa [hsize] at hcut

/-- Behind the first quote the text is cut at the second one, and behind that at the colon. -/
theorem splitEntry_eq_of_quote (hc : isQuoteMark c = true) :
    splitEntry (c :: cs) = some (Yaml.splitEntry (c :: cs)) := by
  have hsize := utf8Size_of_isQuoteMark hc
  have hone : byteSize [c] = 1 := by rw [byteSize_cons, hsize, byteSize_nil]
  have hquoted : isQuoted (c :: cs) = true := hc
  unfold splitEntry Yaml.splitEntry
  dsimp only
  simp only [hquoted, hc, if_true, List.head?_cons, fromByte?_one hsize, Option.bind_eq_bind,
    Option.bind_some, offsetWhere_head]
  cases hcut : cut c cs with
  | none => rfl
  | some parts =>
    obtain ⟨key, after⟩ := parts
    obtain ⟨-, rfl⟩ := cut_eq_some_iff.1 hcut
    have hafter : fromByte? (c :: (key ++ c :: after)) (byteSize key + 1 + 1) = some after := by
      have hcut := fromByte?_append (c :: (key ++ [c])) after
      rw [byteSize_cons, byteSize_append, hone, hsize] at hcut
      rw [← Nat.add_comm 1 (byteSize key + 1)]
      simpa using hcut
    have hkey : betweenBytes? (c :: (key ++ c :: after)) 1 (byteSize key + 1) = some key := by
      have hcut := betweenBytes?_append [c] key (c :: after)
      rw [hone] at hcut
      rw [Nat.add_comm]
      exact hcut
    simp only [Option.map_some, hafter, hkey, Option.bind_some, dropComment_eq]
    split
    · exact (apply_ite some _ _ _).symm
    · next hcolon =>
      split
      · next he =>
        cases he
        exact absurd rfl (hcolon _)
      · rfl

/-- A text without a quote in front is cut at its colon. -/
theorem splitEntry_eq_of_bare (hc : isQuoteMark c = false) :
    splitEntry (c :: cs) = some (Yaml.splitEntry (c :: cs)) := by
  have hquoted : isQuoted (c :: cs) = false := hc
  unfold splitEntry Yaml.splitEntry
  dsimp only
  rw [hquoted, hc, if_neg Bool.false_ne_true, if_neg Bool.false_ne_true, colonOffset_bytes]
  cases hcut : cutColon (c :: cs) with
  | none => rfl
  | some parts =>
    obtain ⟨before, after⟩ := parts
    have htext := eq_append_of_cutColon hcut
    have hbefore : upToByte? (c :: cs) (byteSize before) = some before := by
      rw [htext, upToByte?_append]
    have hafter : fromByte? (c :: cs) (byteSize before + 1) = some after := by
      have hcut := fromByte?_append (before ++ [':']) after
      have hcolon : byteSize [':'] = 1 := rfl
      rw [byteSize_append, hcolon] at hcut
      rw [htext]
      simpa using hcut
    simp only [Option.map_some, hbefore, hafter, Option.bind_eq_bind, Option.bind_some,
      dropComment_eq]
    split <;> rfl

theorem splitEntry_eq (text : List Char) : splitEntry text = some (Yaml.splitEntry text) := by
  cases text with
  | nil => rfl
  | cons c cs =>
    cases hc : isQuoteMark c with
    | true => exact splitEntry_eq_of_quote hc
    | false => exact splitEntry_eq_of_bare hc

theorem isEntryItem_eq (item : List Char) : isEntryItem item = some (Yaml.isEntryItem item) := by
  unfold isEntryItem Yaml.isEntryItem
  rw [splitEntry_eq, Option.map_some]
  split
  · next h => rw [h, Bool.true_and]
  · next h => rw [Bool.not_eq_true] at h; rw [h, Bool.false_and]

/-- A single character is not the first quote and the last one. -/
theorem any_quote_singleton (q : Char) :
    (['"', '\''].any fun p => decide (2 ≤ byteSize [q]) && decide ([q].head? = some p) &&
      decide ([q].getLast? = some p)) = false := by
  rw [List.any_eq_false]
  intro p hmem hp
  simp only [Bool.and_eq_true, decide_eq_true_iff, List.head?_cons, Option.some.injEq] at hp
  obtain ⟨⟨hsize, rfl⟩, -⟩ := hp
  have hq : isQuoteMark q = true := by simpa [isQuoteMark] using hmem
  rw [byteSize_cons, utf8Size_of_isQuoteMark hq] at hsize
  exact absurd hsize (by decide)

/-- Two characters or more are long enough to be two quotes. -/
theorem any_quote_concat (q l : Char) (init : List Char) :
    (['"', '\''].any fun p => decide (2 ≤ byteSize (q :: (init ++ [l]))) &&
      decide ((q :: (init ++ [l])).head? = some p) &&
        decide ((q :: (init ++ [l])).getLast? = some p)) =
      (isQuoteMark q && decide (some l = some q)) := by
  have hlong : 2 ≤ byteSize (q :: (init ++ [l])) := by
    have hq := q.utf8Size_pos
    have hl := l.utf8Size_pos
    rw [byteSize_cons, byteSize_append, byteSize_cons, byteSize_nil]
    omega
  have hend : (q :: (init ++ [l])).getLast? = some l := by
    rw [← List.cons_append, List.getLast?_concat]
  rw [hend, decide_eq_true hlong, Bool.eq_iff_iff]
  simp only [List.any_cons, List.any_nil, List.head?_cons, isQuoteMark, Bool.true_and,
    Bool.or_false, Bool.or_eq_true, Bool.and_eq_true, decide_eq_true_iff, beq_iff_eq,
    Option.some.injEq]
  constructor
  · rintro (⟨rfl, rfl⟩ | ⟨rfl, rfl⟩)
    · exact ⟨.inl rfl, rfl⟩
    · exact ⟨.inr rfl, rfl⟩
  · rintro ⟨rfl | rfl, rfl⟩
    · exact .inl ⟨rfl, rfl⟩
    · exact .inr ⟨rfl, rfl⟩

theorem betweenBytes?_quotes (hq : isQuoteMark q = true) (inside : List Char) :
    betweenBytes? (q :: (inside ++ [q])) 1 (byteSize (q :: (inside ++ [q])) - 1) =
      some inside := by
  have hone : byteSize [q] = 1 := by
    rw [byteSize_cons, utf8Size_of_isQuoteMark hq, byteSize_nil]
  have hcut := betweenBytes?_append [q] inside [q]
  have hstop : byteSize (q :: (inside ++ [q])) - 1 = 1 + byteSize inside := by
    rw [byteSize_cons, byteSize_append, hone, utf8Size_of_isQuoteMark hq]
    omega
  rw [hone] at hcut
  rw [hstop]
  exact hcut

theorem unquoted?_eq (cs : List Char) : unquoted? cs = some (Yaml.unquoted? cs) := by
  cases cs with
  | nil => rfl
  | cons q rest =>
    unfold unquoted? Yaml.unquoted?
    dsimp only
    cases hlast : rest.getLast? with
    | none =>
      rw [List.getLast?_eq_none_iff] at hlast
      subst hlast
      rw [any_quote_singleton, if_neg Bool.false_ne_true, if_neg (by simp)]
    | some l =>
      obtain ⟨init, rfl⟩ := List.getLast?_eq_some_iff.1 hlast
      rw [any_quote_concat]
      split
      · next hquotes =>
        simp only [Bool.and_eq_true, decide_eq_true_iff, Option.some.injEq] at hquotes
        obtain ⟨hq, rfl⟩ := hquotes
        rw [betweenBytes?_quotes hq, List.dropLast_concat]
        rfl
      · rfl

theorem ofScalar_eq (cs : List Char) : ofScalar cs = some (Yaml.ofScalar cs) := by
  unfold ofScalar Yaml.ofScalar
  rw [unquoted?_eq]
  dsimp only
  split
  case h_5 =>
    cases Yaml.unquoted? cs with
    | some inside => simp_all
    | none => cases Chars.signed? (Nat.pow 2 63) cs <;> simp_all
  all_goals simp_all

/-! ### No cut of the descent fails -/

variable {α β : Type}

/-- A computation is not cut short where neither of its parts is. -/
theorem bind_eq {x : Except Halt α} {m : ExceptT Halt Option α} {f : α → ExceptT Halt Option β}
    {g : α → Except Halt β} (hm : m = some x) (hf : ∀ a, f a = some (g a)) :
    (m >>= f) = some (x >>= g) := by
  subst hm
  cases x with
  | error halt => rfl
  | ok a => exact hf a

variable {fuel column : Nat} {entries : YamlMap} {items : List Yaml} {lines : List Line}

/-- With some fuel, no cut of the descent fails, and it reads the same. -/
structure Cuts (fuel : Nat) : Prop where
  entries : ∀ column entries lines,
    readEntries fuel column entries lines = some (Yaml.readEntries fuel column entries lines)
  entry : ∀ column entries text lines,
    readEntry fuel column entries text lines = some (Yaml.readEntry fuel column entries text lines)
  nested : ∀ column lines, readNested fuel column lines = some (Yaml.readNested fuel column lines)
  items : ∀ column items lines,
    readItems fuel column items lines = some (Yaml.readItems fuel column items lines)

theorem exists_dash {text : List Char} (h : isItem text = true) : ∃ rest, text = '-' :: rest := by
  unfold isItem at h
  split at h
  · exact ⟨_, rfl⟩
  · exact ⟨_, rfl⟩
  · cases h

theorem Cuts.entries_succ (h : Cuts fuel) : readEntries (fuel + 1) column entries lines =
    some (Yaml.readEntries (fuel + 1) column entries lines) := by
  cases lines with
  | nil => rfl
  | cons line rest =>
    unfold readEntries Yaml.readEntries
    split
    · rfl
    · split
      · rfl
      · split
        · rfl
        · exact bind_eq (h.entry _ _ _ _) fun x => h.entries _ _ _

theorem Cuts.entry_succ (h : Cuts fuel) : readEntry (fuel + 1) column entries text lines =
    some (Yaml.readEntry (fuel + 1) column entries text lines) := by
  unfold readEntry Yaml.readEntry
  rw [splitEntry_eq]
  cases Yaml.splitEntry text with
  | none => rfl
  | some parts =>
    obtain ⟨key, value⟩ := parts
    show (if value.isEmpty then _ else _ : ExceptT Halt Option _) =
      some (if value.isEmpty then _ else _)
    split
    · exact bind_eq (h.nested _ _) fun x => rfl
    · split
      · rfl
      · rw [ofScalar_eq]
        rfl

theorem Cuts.nested_succ (h : Cuts fuel) : readNested (fuel + 1) column lines =
    some (Yaml.readNested (fuel + 1) column lines) := by
  cases lines with
  | nil => rfl
  | cons next rest =>
    unfold readNested Yaml.readNested
    split
    · split
      · exact bind_eq (h.items _ _ _) fun x => rfl
      · exact bind_eq (h.entries _ _ _) fun x => rfl
    · split
      · exact bind_eq (h.items _ _ _) fun x => rfl
      · rfl

/-- The first byte of an item is its dash. -/
theorem Cuts.items_succ (h : Cuts fuel) : readItems (fuel + 1) column items lines =
    some (Yaml.readItems (fuel + 1) column items lines) := by
  cases lines with
  | nil => rfl
  | cons line rest =>
    unfold readItems Yaml.readItems
    split
    · rfl
    · next hstays =>
      split
      · rfl
      · next hdeeper =>
        have hitem : isItem line.text = true := by
          simp only [Bool.or_eq_true, Bool.and_eq_true, decide_eq_true_iff, not_or,
            Bool.not_eq_true', not_and, Bool.not_eq_false] at hstays
          exact hstays.2 (by omega)
        obtain ⟨behind, htext⟩ := exists_dash hitem
        have hbehind : fromByte? line.text 1 = some (line.text.drop 1) := by
          rw [htext]
          exact fromByte?_one rfl behind
        rw [hbehind]
        show (if (trimStart (line.text.drop 1)).isEmpty then _ else _ :
          ExceptT Halt Option (List Yaml × List Line)) = some (if _ then _ else _)
        split
        · split
          · exact bind_eq (h.nested _ _) fun x => h.items _ _ _
          · exact h.items _ _ _
        · rw [isEntryItem_eq]
          show (if Yaml.isEntryItem (trimStart (line.text.drop 1)) then _ else _ :
            ExceptT Halt Option (List Yaml × List Line)) = some (if _ then _ else _)
          split
          · refine bind_eq (h.entry _ _ _ _) fun x => ?_
            exact bind_eq (h.entries _ _ _) fun x => h.items _ _ _
          · rw [ofScalar_eq]
            exact h.items _ _ _

theorem cuts : ∀ fuel, Cuts fuel
  | 0 => ⟨fun _ _ _ => rfl, fun _ _ _ _ => rfl, fun _ _ => rfl, fun _ _ _ => rfl⟩
  | fuel + 1 =>
    have h := cuts fuel
    ⟨fun _ _ _ => h.entries_succ, fun _ _ _ _ => h.entry_succ, fun _ _ => h.nested_succ,
      fun _ _ _ => h.items_succ⟩

/-- **No cut of the reader fails**, whatever it reads. -/
theorem parse_eq (content : String) : parse content = some (Yaml.parse content) := by
  unfold parse Yaml.parse ofLines
  cases linesOf content with
  | nil => rfl
  | cons first lines =>
    dsimp only
    split
    · rfl
    · rw [(cuts _).entries]
      dsimp only [ExceptT.run]
      split
      · next h => cases h
      · next h =>
        have hends := ((enough _).entries first.column [] (first :: lines) (Nat.lt_succ_self _))
        exact absurd (Option.some.inj h) hends.ne_exhausted
      · next e h => rw [result_eq_error (Option.some.inj h)]; rfl
      · next entries h => rw [result_eq_ok (Option.some.inj h)]; rfl
      · next entries line rest h => rw [result_eq_ok (Option.some.inj h)]; rfl

end Indexed

end DockerSim.Yaml

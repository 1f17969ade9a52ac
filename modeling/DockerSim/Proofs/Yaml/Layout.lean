import DockerSim.Proofs.ByteOffsets
import DockerSim.Proofs.InstantText
import DockerSim.Proofs.Yaml.Reading

/-!
# The block layout of a document

How a tree of mappings, sequences and scalars is laid out over lines: keys and strings stand between
double quotes, a scalar stands behind its key or dash, and a collection on the lines below, some
columns deeper (`document`). The trees that have a layout are `Layable`: a string has no quote and
no line feed inside, and an empty collection can only be an empty mapping behind a key.

A row of a layout is found again as a line of the text, and a scalar in it is neither taken for an
entry nor shortened by a comment, whatever its string looks like.
-/

namespace DockerSim.Yaml

/-! ## Layout -/

/-- A string between double quotes. -/
def quoted (s : String) : List Char := '"' :: (s.toList ++ ['"'])

/-- The text of a scalar. Collections have none. -/
def scalarText : Yaml → List Char
  | .null => ['n', 'u', 'l', 'l']
  | .bool true => ['t', 'r', 'u', 'e']
  | .bool false => ['f', 'a', 'l', 's', 'e']
  | .int n => (if n < 0 then ['-'] else []) ++ Chars.digits 10 n.natAbs
  | .float x => x.text
  | .str s => quoted s
  | .seq _ | .map _ => []

/-- A line of a layout: the size of its indentation, and what stands behind it. -/
structure Row where
  column : Nat
  text : List Char

mutual

/-- The rows of a value in a column, behind a key or a dash. What is inside a collection stands `k`
columns deeper. -/
def valueRows (k column : Nat) (lead : List Char) : Yaml → List Row
  | .seq items => ⟨column, lead⟩ :: itemRows k (column + k) items
  | .map entries => ⟨column, lead⟩ :: entryRows k (column + k) entries
  | v => [⟨column, lead ++ ' ' :: scalarText v⟩]

def itemRows (k column : Nat) : List Yaml → List Row
  | [] => []
  | v :: vs => valueRows k column ['-'] v ++ itemRows k column vs

def entryRows (k column : Nat) : List (String × Yaml) → List Row
  | [] => []
  | (key, v) :: es => valueRows k column (quoted key ++ [':']) v ++ entryRows k column es

end

/-- The line of a row, with the line feed that ends it. -/
def Row.written (r : Row) : List Char := List.replicate r.column ' ' ++ r.text ++ ['\n']

/-- The document of a mapping, every level `k` columns deeper than the one around it. -/
def document (k : Nat) (m : YamlMap) : String := .ofList ((entryRows k 0 m).flatMap Row.written)

/-! ## What has a layout -/

/-- The string can stand between double quotes on one line. -/
def Quotable (s : String) : Prop := '"' ∉ s.toList ∧ '\n' ∉ s.toList

instance (s : String) : Decidable (Quotable s) := by unfold Quotable; infer_instance

/-- Scalars that stand behind a key or a dash. -/
inductive Scalar : Yaml → Prop
  | null : Scalar .null
  | bool (b : Bool) : Scalar (.bool b)
  | int {n : Int} (low : -9223372036854775808 ≤ n) (high : n < 9223372036854775808) :
      Scalar (.int n)
  | str {s : String} (quotable : Quotable s) : Scalar (.str s)

/-- Trees with a layout: sequences have items, none of them an empty mapping, and mappings have each
key once. -/
inductive Layable : Yaml → Prop
  | scalar {v : Yaml} (scalar : Scalar v) : Layable v
  | seq {items : List Yaml} (nonempty : items ≠ []) (full : Yaml.map [] ∉ items)
      (layable : ∀ v ∈ items, Layable v) : Layable (.seq items)
  | map {entries : YamlMap} (distinct : entries.keys.Nodup)
      (quotable : ∀ e ∈ entries, Quotable e.1) (layable : ∀ e ∈ entries, Layable e.2) :
      Layable (.map entries)

/-! ## Texts of scalars -/

/-- A text that fills a line from its column to its end, and is no comment. -/
structure Solid (text : List Char) : Prop where
  begins : ∃ c cs, text = c :: cs ∧ Chars.isBlank c = false ∧ c ≠ '#'
  ends : ∃ cs c, text = cs ++ [c] ∧ Chars.isBlank c = false
  unbroken : '\n' ∉ text

/-- The text reads as the value, and as nothing else. -/
structure Reads (text : List Char) (v : Yaml) : Prop extends Solid text where
  value : ofScalar text = v
  comment : dropComment text = text
  block : isTextBlock text = false
  item : isEntryItem text = false

variable {text t : List Char} {v : Yaml} {c : Char} {cs : List Char}

theorem Solid.ne_nil (h : Solid text) : text ≠ [] := by
  obtain ⟨c, cs, rfl, -⟩ := h.begins
  exact List.cons_ne_nil _ _

/-! ### Texts without marks -/

/-- The characters of truth values, null and numbers. -/
def isPlain (c : Char) : Bool :=
  !Chars.isBlank c && !isQuoteMark c && !(['#', ':', '|', '>'].contains c)

theorem upTo_eq_none : ∀ {cs : List Char}, '#' ∉ cs → dropComment.upTo cs = none := by
  intro cs
  induction cs using dropComment.upTo.induct with
  | case1 tail => exact fun h => absurd (by simp) h
  | case2 c cs hne ih =>
    intro h
    rw [dropComment.upTo, ih fun hmem => h (List.mem_cons_of_mem _ hmem)]
    · rfl
    · exact hne
  | case3 => exact fun _ => rfl

theorem cutColon_eq_none : ∀ {cs : List Char}, ':' ∉ cs → cutColon cs = none
  | [], _ => rfl
  | c :: cs, h => by
    obtain ⟨hc, hcs⟩ := not_or.1 (fun hmem => h (List.mem_cons.2 hmem))
    rw [cutColon, cutColon_eq_none hcs, decide_eq_false (Ne.symm hc)]
    rfl

theorem reads_of_plain (hne : text ≠ []) (h : text.all isPlain = true)
    (value : ofScalar text = v) : Reads text v := by
  have hplain : ∀ c ∈ text, Chars.isBlank c = false ∧ isQuoteMark c = false ∧
      c ∉ ['#', ':', '|', '>'] := by
    intro c hc
    simpa [isPlain, and_assoc] using List.all_eq_true.1 h c hc
  have hmark : ∀ c ∈ ['#', ':', '|', '>'], c ∉ text :=
    fun c hc hmem => (hplain c hmem).2.2 hc
  have hsharp : '#' ∉ text := hmark _ (by decide)
  obtain ⟨c, cs, rfl⟩ := List.exists_cons_of_ne_nil hne
  obtain ⟨hblank, hquote, hc⟩ := hplain c List.mem_cons_self
  have hquoted : isQuoted (c :: cs) = false := hquote
  refine ⟨⟨⟨c, cs, rfl, hblank, ?_⟩, ?_, ?_⟩, value, ?_, ?_, ?_⟩
  · rintro rfl
    exact hsharp List.mem_cons_self
  · refine ⟨(c :: cs).dropLast, _, (List.dropLast_append_getLast hne).symm, ?_⟩
    exact (hplain _ (List.getLast_mem hne)).1
  · intro hmem
    exact absurd (hplain _ hmem).1 (by decide)
  · have hhead : (c :: cs).head? ≠ some '#' := fun he => hsharp (List.mem_of_head? he)
    unfold dropComment
    rw [hquoted, upTo_eq_none hsharp, if_neg hhead]
    rfl
  · have hbar : ∀ rest, c :: cs ≠ '|' :: rest := fun rest he =>
      hmark '|' (by decide) (he ▸ List.mem_cons_self)
    have hangle : ∀ rest, c :: cs ≠ '>' :: rest := fun rest he =>
      hmark '>' (by decide) (he ▸ List.mem_cons_self)
    simp only [isTextBlock, Bool.or_eq_false_iff, decide_eq_false_iff_not]
    exact ⟨⟨⟨⟨⟨hbar _, hangle _⟩, hbar _⟩, hangle _⟩, hbar _⟩, hangle _⟩
  · have hentry : splitEntry (c :: cs) = none := by
      unfold splitEntry
      dsimp only
      rw [hquote, cutColon_eq_none (hmark ':' (by decide))]
      rfl
    unfold isEntryItem
    rw [hentry]
    exact Bool.and_false _

/-! ### Numbers -/

/-- A text that begins with none of these letters is no word for a truth value or null. -/
theorem ofScalar_of_head (h : ∀ c ∈ text.head?, c ∉ ['t', 'f', 'n', '~']) :
    ofScalar text = match unquoted? text with
      | some inside => .str (.ofList inside)
      | none => match Chars.signed? (Nat.pow 2 63) text with
        | some n => .int n
        | none => if looksNumeric text then
            ((float? text).map .float).getD (.str (.ofList text)) else .str (.ofList text) := by
  have hword : ∀ w : String, (∃ c ∈ w.toList.head?, c ∈ ['t', 'f', 'n', '~']) →
      String.ofList text ≠ w := by
    rintro w ⟨c, hc, hmem⟩ rfl
    rw [String.toList_ofList] at hc
    exact h c hc hmem
  unfold ofScalar
  dsimp only
  split
  · next he => exact absurd he (hword _ ⟨'t', rfl, by simp⟩)
  · next he => exact absurd he (hword _ ⟨'f', rfl, by simp⟩)
  · next he => exact absurd he (hword _ ⟨'n', rfl, by simp⟩)
  · next he => exact absurd he (hword _ ⟨'~', rfl, by simp⟩)
  · rfl

theorem natural?_digits (n : Nat) : Chars.natural? (Chars.digits 10 n) = some n := by
  have hall : (Chars.digits 10 n).all Chars.isDigit = true :=
    List.all_eq_true.2 fun _ => Chars.isDigit_of_mem_digits
  unfold Chars.natural?
  rw [hall, List.isEmpty_eq_false_iff.2 (Chars.digits_ne_nil n), Chars.digitsValue_digits]
  rfl

theorem digits_head (n : Nat) : ∃ d ds, Chars.digits 10 n = d :: ds ∧ Chars.isDigit d = true := by
  obtain ⟨d, ds, hd⟩ := List.exists_cons_of_ne_nil (Chars.digits_ne_nil n)
  exact ⟨d, ds, hd, Chars.isDigit_of_mem_digits (n := n) (hd ▸ List.mem_cons_self)⟩

/-- A whole number of 64 bits is read from its text. -/
theorem signed?_intText {n : Int} (low : -9223372036854775808 ≤ n)
    (high : n < 9223372036854775808) :
    Chars.signed? (Nat.pow 2 63) (scalarText (.int n)) = some n := by
  have hbound : Nat.pow 2 63 = 9223372036854775808 := by decide
  rw [hbound, scalarText]
  by_cases hneg : n < 0
  · rw [if_pos hneg]
    have hle : n.natAbs ≤ 9223372036854775808 := by omega
    rw [List.singleton_append, Chars.signed?, natural?_digits, Option.filter_some,
      if_pos (decide_eq_true hle)]
    show some (-(n.natAbs : Int)) = some n
    congr 1
    omega
  · rw [if_neg hneg, List.nil_append]
    obtain ⟨d, ds, hd, hdigit⟩ := digits_head n.natAbs
    have hminus : d ≠ '-' := fun he => absurd hdigit (by subst he; decide)
    have hplus : (d :: ds).head? ≠ some '+' := fun he =>
      absurd hdigit (by cases he; decide)
    have hread : Chars.unsigned? 9223372036854775808 (d :: ds) = some n.natAbs := by
      rw [Chars.unsigned?_eq_some_iff hplus, ← hd, natural?_digits]
      exact ⟨rfl, by omega⟩
    rw [hd]
    unfold Chars.signed?
    split
    · next he =>
      cases he
      exact absurd rfl hminus
    · rw [hread, Option.map_some]
      congr 1
      show (n.natAbs : Int) = n
      omega

theorem isPlain_of_isDigit (h : Chars.isDigit c = true) : isPlain c = true := by
  have hblank := Chars.isBlank_of_isDigit h
  have hne : ∀ d, Chars.isDigit d = false → c ≠ d := by
    rintro d hd rfl
    rw [h] at hd
    cases hd
  simp [isPlain, hblank, isQuoteMark, hne '"' (by decide), hne '\'' (by decide),
    hne '#' (by decide), hne ':' (by decide), hne '|' (by decide), hne '>' (by decide)]

theorem isDigit_or_minus {n : Int} (h : c ∈ scalarText (.int n)) :
    Chars.isDigit c = true ∨ c = '-' := by
  unfold scalarText at h
  rcases List.mem_append.1 h with h | h
  · split at h
    · exact .inr (List.mem_singleton.1 h)
    · cases h
  · exact .inl (Chars.isDigit_of_mem_digits h)

theorem reads_int {n : Int} (low : -9223372036854775808 ≤ n) (high : n < 9223372036854775808) :
    Reads (scalarText (.int n)) (.int n) := by
  refine reads_of_plain ?_ ?_ ?_
  · exact fun he => Chars.digits_ne_nil _ (List.append_eq_nil_iff.1 he).2
  · refine List.all_eq_true.2 fun c hc => ?_
    rcases isDigit_or_minus hc with hc | rfl
    · exact isPlain_of_isDigit hc
    · decide
  · have hhead : ∀ l : List Char, (l.all fun d => !Chars.isDigit d && d != '-') = true →
        ∀ c ∈ (scalarText (.int n)).head?, c ∉ l := by
      intro l hl c hc hmem
      have hother : (!Chars.isDigit c && c != '-') = true := List.all_eq_true.1 hl c hmem
      rcases isDigit_or_minus (List.mem_of_head? hc) with hc | rfl
      · rw [hc] at hother
        cases hother
      · cases hother
    have hquote : unquoted? (scalarText (.int n)) = none := by
      have hmark : ∀ c ∈ (scalarText (.int n)).head?, c ∉ ['"', '\''] := hhead _ rfl
      cases ht : scalarText (.int n) with
      | nil => rfl
      | cons c cs =>
        rw [ht] at hmark
        have hc : isQuoteMark c = false := by
          simpa [isQuoteMark] using hmark c rfl
        simp [unquoted?, hc]
    rw [ofScalar_of_head (hhead _ rfl), hquote]
    dsimp only
    rw [signed?_intText low high]

/-! ### Strings -/

theorem reads_str {s : String} (h : Quotable s) : Reads (quoted s) (.str s) := by
  obtain ⟨-, hfeed⟩ := h
  refine ⟨⟨⟨'"', _, rfl, by decide, by decide⟩, ⟨'"' :: s.toList, '"', rfl, by decide⟩, ?_⟩, ?_,
    rfl, ?_, rfl⟩
  · simpa [quoted] using hfeed
  · have hinside : unquoted? (quoted s) = some s.toList := by
      simp [unquoted?, quoted, isQuoteMark]
    rw [ofScalar_of_head, hinside]
    · dsimp only
      rw [String.ofList_toList]
    · intro c hc
      cases hc
      decide
  · simp [isTextBlock, quoted]

/-- **The text of a scalar reads as the scalar**, and as nothing else. -/
theorem Scalar.reads (h : Scalar v) : Reads (scalarText v) v := by
  cases h with
  | null => exact reads_of_plain (List.cons_ne_nil _ _) rfl rfl
  | bool b => cases b <;> exact reads_of_plain (List.cons_ne_nil _ _) rfl rfl
  | int low high => exact reads_int low high
  | str quotable => exact reads_str quotable

/-! ## Entries -/

theorem Solid.trimEnd_eq (h : Solid text) : Chars.trimEnd text = text := by
  obtain ⟨cs, c, rfl, hc⟩ := h.ends
  unfold Chars.trimEnd
  rw [List.reverse_append, List.reverse_singleton, List.singleton_append, List.dropWhile_cons, hc,
    if_neg Bool.false_ne_true, ← List.singleton_append, List.reverse_append, List.reverse_reverse,
    List.reverse_singleton]

theorem Solid.trim_blank (h : Solid text) : Chars.trim (' ' :: text) = text := by
  have hstart : Chars.trimStart (' ' :: text) = text := by
    obtain ⟨c, cs, rfl, hc, -⟩ := h.begins
    exact Chars.trimStart_cons hc
  rw [Chars.trim, hstart, h.trimEnd_eq]

section Entry

variable {key : String} (hkey : Quotable key)

include hkey

theorem splitEntry_quoted (after : List Char) (h : after.head?.all Chars.isBlank = true) :
    splitEntry (quoted key ++ ':' :: after) = some (key, dropComment (Chars.trim after)) := by
  have hcut : Chars.cut '"' (key.toList ++ '"' :: ':' :: after) =
      some (key.toList, ':' :: after) := Chars.cut_eq_some_iff.2 ⟨hkey.1, rfl⟩
  have htext : quoted key ++ ':' :: after = '"' :: (key.toList ++ '"' :: ':' :: after) := by
    simp [quoted]
  rw [htext]
  unfold splitEntry
  dsimp only
  rw [if_pos (by decide), hcut]
  show (if after.head?.all Chars.isBlank = true then _ else _) = _
  rw [if_pos h, String.ofList_toList]

theorem splitEntry_scalar (h : Reads t v) :
    splitEntry (quoted key ++ [':'] ++ ' ' :: t) = some (key, t) := by
  rw [List.append_assoc, List.singleton_append, splitEntry_quoted hkey _ rfl,
    h.toSolid.trim_blank, h.comment]

theorem splitEntry_lead : splitEntry (quoted key ++ [':']) = some (key, []) :=
  splitEntry_quoted hkey [] rfl

theorem solid_lead : Solid (quoted key ++ [':']) where
  begins := ⟨'"', _, rfl, by decide, by decide⟩
  ends := ⟨quoted key, ':', rfl, by decide⟩
  unbroken := by simpa [quoted] using hkey.2

end Entry

theorem solid_dash : Solid ['-'] where
  begins := ⟨'-', [], rfl, by decide, by decide⟩
  ends := ⟨[], '-', rfl, by decide⟩
  unbroken := by decide

/-- A scalar can follow on the same line. -/
theorem Solid.append (h : Solid text) (ht : Solid t) : Solid (text ++ ' ' :: t) where
  begins := by
    obtain ⟨c, cs, rfl, hc⟩ := h.begins
    exact ⟨c, _, rfl, hc⟩
  ends := by
    obtain ⟨cs, c, rfl, hc⟩ := ht.ends
    exact ⟨text ++ ' ' :: cs, c, by simp, hc⟩
  unbroken := by simp [h.unbroken, ht.unbroken]

/-! ## Lines -/

/-- A line without a line feed, and without a carriage return at its end, is found again. -/
theorem lines_append {line : List Char} (hfeed : '\n' ∉ line) (hend : line.getLast? ≠ some '\r')
    (rest : List Char) : Chars.lines (line ++ '\n' :: rest) = line :: Chars.lines rest := by
  rw [Chars.lines_append_feed hfeed, Chars.dropReturn, if_neg hend]

namespace Row

/-- The row as a line with a number. -/
def line (number : Nat) (r : Row) : Line := { number, column := r.column, text := r.text }

/-- The row is read as a line of its own: its text is solid and no document marker. -/
structure Visible (r : Row) : Prop extends Solid r.text where
  unmarked : r.text ≠ ['-', '-', '-']

/-- The line of a row without its line feed. -/
def raw (r : Row) : List Char := List.replicate r.column ' ' ++ r.text

variable {r : Row}

theorem dropWhile_indentation (n : Nat) (hc : Chars.isBlank c = false) :
    (List.replicate n ' ' ++ c :: cs).dropWhile Chars.isBlank = c :: cs := by
  induction n with
  | zero => exact Chars.trimStart_cons hc
  | succ n ih => exact ih

theorem takeWhile_indentation (n : Nat) (hc : Chars.isBlank c = false) :
    (List.replicate n ' ' ++ c :: cs).takeWhile Chars.isBlank = List.replicate n ' ' := by
  induction n with
  | zero =>
    rw [List.replicate_zero, List.nil_append, List.takeWhile_cons, hc]
    rfl
  | succ n ih => rw [List.replicate_succ, List.cons_append, List.takeWhile_cons, ih]; rfl

theorem byteSize_indentation (n : Nat) : byteSize (List.replicate n ' ') = n := by
  rw [byteSize_ascii, List.length_replicate]
  intro c hc
  rw [List.eq_of_mem_replicate hc]
  rfl

theorem Visible.trimStart_raw (h : r.Visible) : Chars.trimStart r.raw = r.text := by
  obtain ⟨c, cs, htext, hc, -⟩ := h.begins
  unfold raw
  rw [htext]
  exact dropWhile_indentation _ hc

theorem Visible.ofChars?_raw (h : r.Visible) (n : Nat) :
    Line.ofChars? n r.raw = some (r.line n) := by
  obtain ⟨c, cs, htext, hc, hsharp⟩ := h.begins
  have hcolumn : byteSize (r.raw.takeWhile Chars.isBlank) = r.column := by
    unfold raw
    rw [htext, takeWhile_indentation _ hc, byteSize_indentation]
  unfold Line.ofChars?
  dsimp only
  rw [h.trimStart_raw, hcolumn, h.toSolid.trimEnd_eq, if_neg]
  · rfl
  · simpa [htext] using hsharp

theorem Visible.lines_written (h : r.Visible) (rest : List Char) :
    Chars.lines (r.written ++ rest) = r.raw :: Chars.lines rest := by
  have hfeed : '\n' ∉ r.raw := by
    intro hmem
    rcases List.mem_append.1 hmem with hmem | hmem
    · exact absurd (List.eq_of_mem_replicate hmem) (by decide)
    · exact h.unbroken hmem
  have hend : r.raw.getLast? ≠ some '\r' := by
    obtain ⟨cs, c, htext, hc⟩ := h.ends
    unfold raw
    rw [htext, ← List.append_assoc, List.getLast?_concat]
    intro he
    cases he
    exact absurd hc (by decide)
  unfold written
  rw [← raw, List.append_assoc, List.singleton_append, lines_append hfeed hend]

end Row

/-- The rows as lines, numbered from `n` on. -/
def numbered (n : Nat) : List Row → List Line
  | [] => []
  | r :: rows => r.line n :: numbered (n + 1) rows

theorem linesFrom_raw : ∀ {rows : List Row} (n : Nat) (started : Bool),
    (∀ r ∈ rows, r.Visible) → linesFrom n started (rows.map Row.raw) = numbered n rows
  | [], _, _, _ => rfl
  | r :: rows, n, started, h => by
    obtain ⟨hr, hrows⟩ := List.forall_mem_cons.1 h
    have hmark : Chars.trimStart r.raw ≠ ['-', '-', '-'] := hr.trimStart_raw ▸ hr.unmarked
    rw [List.map_cons, linesFrom_cons (hr.ofChars?_raw n) (.inr hmark),
      linesFrom_raw (n + 1) true hrows]
    rfl

theorem lines_flatMap_written : ∀ {rows : List Row}, (∀ r ∈ rows, r.Visible) →
    Chars.lines (rows.flatMap Row.written) = rows.map Row.raw
  | [], _ => rfl
  | r :: rows, h => by
    obtain ⟨hr, hrows⟩ := List.forall_mem_cons.1 h
    rw [List.flatMap_cons, hr.lines_written, lines_flatMap_written hrows]
    rfl

/-! ### Rows of a layout -/

/-- What is laid out behind a value, on rows of their own. -/
def insideRows (k column : Nat) : Yaml → List Row
  | .seq items => itemRows k column items
  | .map entries => entryRows k column entries
  | _ => []

variable {k column : Nat} {lead : List Char}

theorem valueRows_scalar (h : Scalar v) :
    valueRows k column lead v = [⟨column, lead ++ ' ' :: scalarText v⟩] := by
  cases h <;> rw [valueRows] <;> simp

theorem insideRows_scalar (h : Scalar v) : insideRows k column v = [] := by cases h <;> rfl

/-- Every row of what is laid out is seen by the reader. -/
theorem visible_valueRows (hlead : Solid lead) (hmark : lead ≠ ['-', '-', '-']) (hv : Layable v)
    (hinside : ∀ r ∈ insideRows k (column + k) v, r.Visible) :
    ∀ r ∈ valueRows k column lead v, r.Visible := by
  have hfirst : Row.Visible ⟨column, lead⟩ := ⟨hlead, hmark⟩
  cases hv with
  | scalar h =>
    rw [valueRows_scalar h]
    refine List.forall_mem_singleton.2 ⟨hlead.append h.reads.toSolid, fun he => ?_⟩
    have hblank : ' ' ∈ ['-', '-', '-'] := he ▸ by simp
    exact absurd hblank (by decide)
  | seq =>
    rw [valueRows]
    exact List.forall_mem_cons.2 ⟨hfirst, hinside⟩
  | map =>
    rw [valueRows]
    exact List.forall_mem_cons.2 ⟨hfirst, hinside⟩

theorem Layable.visible (h : Layable v) :
    ∀ column, ∀ r ∈ insideRows k column v, r.Visible := by
  induction h with
  | scalar h =>
    intro column r hr
    rw [insideRows_scalar h] at hr
    cases hr
  | @seq items _ _ layable ih =>
    intro column
    show ∀ r ∈ itemRows k column items, r.Visible
    clear * - layable ih
    induction items with
    | nil => simp [itemRows]
    | cons v items ihItems =>
      obtain ⟨hv, hitems⟩ := List.forall_mem_cons.1 layable
      rw [itemRows]
      refine List.forall_mem_append.2 ⟨?_, ihItems hitems fun w hw => ih w (.tail _ hw)⟩
      exact visible_valueRows solid_dash (by decide) hv (ih v (.head _) _)
  | @map entries _ quotable layable ih =>
    intro column
    show ∀ r ∈ entryRows k column entries, r.Visible
    clear * - quotable layable ih
    induction entries with
    | nil => simp [entryRows]
    | cons e entries ihEntries =>
      obtain ⟨hkey, hkeys⟩ := List.forall_mem_cons.1 quotable
      obtain ⟨hv, hentries⟩ := List.forall_mem_cons.1 layable
      rw [entryRows]
      refine List.forall_mem_append.2 ⟨?_, ihEntries hkeys hentries fun w hw => ih w (.tail _ hw)⟩
      exact visible_valueRows (solid_lead hkey) (by simp [quoted]) hv (ih e (.head _) _)

/-- **The lines of a document are the rows of its layout.** -/
theorem linesOf_document {m : YamlMap} (h : Layable (.map m)) :
    linesOf (document k m) = numbered 1 (entryRows k 0 m) := by
  have hvisible : ∀ r ∈ entryRows k 0 m, r.Visible := h.visible 0
  unfold linesOf document
  rw [String.toList_ofList, lines_flatMap_written hvisible, linesFrom_raw _ _ hvisible]

end DockerSim.Yaml

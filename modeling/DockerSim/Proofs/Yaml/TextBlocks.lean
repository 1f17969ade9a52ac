import DockerSim.Proofs.Yaml.EntryLines
import DockerSim.Proofs.YamlKeys

/-!
# Blocks of text

An entry whose value announces a block of text is read as an empty mapping, and the lines of the
block might as well not be there: whatever they hold, the document comes to the same without them,
and only the lines of errors behind them are numbered on (`EntryLine.parse_block`). This is so
wherever the entry stands, since the mapping that it goes into is innermost from then on and passes
over what is deeper (`Outline.SkipsBelow`).

An announcement that is itself an item has no such block. It is read as a string, and the first line
below it that is deeper is refused (`IndicatorItem.parse_block`).
-/

namespace DockerSim

/-! ## Line numbers -/

/-- The error of a document that has `d` more lines behind its line `n`. -/
def YamlError.moved (n d : Nat) (e : YamlError) : YamlError :=
  if n < e.line then { e with line := e.line + d } else e

namespace Yaml

open Chars

variable {raw text after : List Char} {name : String} {column n d : Nat} {line : Line} {o : Outline}

/-- The line, `d` lines further down. -/
def Line.moved (d : Nat) (line : Line) : Line := { line with number := line.number + d }

theorem linesFrom_add : ∀ (raws : List (List Char)) (n : Nat) (started : Bool),
    linesFrom (n + d) started raws = (linesFrom n started raws).map (Line.moved d)
  | [], _, _ => rfl
  | raw :: raws, n, started => by
    have hraw : Line.ofChars? (n + d) raw = (Line.ofChars? n raw).map (Line.moved d) := by
      unfold Line.ofChars?
      dsimp only
      split <;> rfl
    have hnext : n + d + 1 = n + 1 + d := Nat.add_right_comm n d 1
    rw [linesFrom, linesFrom, hraw, hnext]
    cases Line.ofChars? n raw with
    | none => exact linesFrom_add raws (n + 1) started
    | some line =>
      dsimp only [Option.map_some]
      split
      · exact linesFrom_add raws (n + 1) false
      · rw [linesFrom_add raws (n + 1) true, List.map_cons]

/-- The number of a line matters to its error only. -/
theorem Outline.step_moved (o : Outline) : o.step (line.moved d) =
    (o.step line).mapError fun e => { e with line := e.line + d } := by
  induction o using Outline.induction with
  | top m =>
    have hplace : m.place (line.moved d) = m.place line := rfl
    rw [Seat.step_top, Seat.step_top, hplace]
    split <;> rfl
  | push o b ih =>
    have hplace : b.place (line.moved d) = b.place line := by cases b <;> rfl
    rw [step_push, step_push, hplace]
    split
    · rfl
    · rfl
    · rfl
    · exact ih _
    · rfl

theorem Outline.foldlM_moved : ∀ (lines : List Line) (o : Outline),
    (lines.map (Line.moved d)).foldlM step o =
      (lines.foldlM step o).mapError fun e => { e with line := e.line + d }
  | [], _ => rfl
  | line :: lines, o => by
    rw [List.map_cons, List.foldlM_cons, List.foldlM_cons, step_moved]
    cases o.step line with
    | error e => rfl
    | ok o' => exact foldlM_moved lines o'

/-! ## Text that is passed over -/

/-- What is deeper than the column is passed over. -/
def Outline.SkipsBelow (o : Outline) (column : Nat) : Prop :=
  ∃ m, o.innermost = .mapping m ∧ m.gap = .skipped ∧ m.column ≤ column

namespace Outline.SkipsBelow

theorem step_eq (h : o.SkipsBelow column) (hline : column < line.column) :
    o.step line = .ok o := by
  obtain ⟨m, hm, hgap, hcolumn⟩ := h
  have hplace : m.place line = .skip := by
    unfold OpenMapping.place
    dsimp only
    rw [if_pos]
    simpa [hgap] using hcolumn.trans_lt hline
  obtain ⟨seat, rfl⟩ := exists_put hm
  exact Seat.step_skip hplace

theorem foldlM_eq (h : o.SkipsBelow column) : ∀ {lines : List Line},
    (∀ l ∈ lines, column < l.column) → lines.foldlM step o = .ok o
  | [], _ => rfl
  | line :: lines, hall => by
    obtain ⟨hline, hlines⟩ := List.forall_mem_cons.1 hall
    rw [List.foldlM_cons, h.step_eq hline]
    exact foldlM_eq h hlines

end Outline.SkipsBelow

/-! ## Announcements behind a key -/

theorem Line.Enters.column_le {item : List Char} (h : line.Enters column item) :
    line.column ≤ column := by
  cases h with
  | own => exact Nat.le_refl _
  | item => omega

/-- An outline that has just passed over the line, as text below another entry. -/
def Outline.PassesOver (o : Outline) (line : Line) : Prop :=
  ∃ m, o.innermost = .mapping m ∧ m.place line = .skip

theorem OpenMapping.add_block {value : List Char} (m : OpenMapping)
    (hsplit : splitEntry text = some (name, value)) (hblock : isTextBlock value = true) :
    m.add text = { m with entries := m.close.insert name (.map []), gap := .skipped } := by
  have hfull : value.isEmpty = false := by
    cases value with
    | nil => cases hblock
    | cons c cs => rfl
  unfold add
  rw [hsplit]
  dsimp only
  rw [hfull, hblock]
  rfl

section Entry

variable (h : EntryLine raw column text) (he : Entry text name after)
  (hblock : isTextBlock (dropComment (trim after)) = true)

include h he hblock

/-- **An entry that announces a block holds an empty mapping**, unless it is text itself, and from
then on what is deeper is passed over. -/
theorem EntryLine.skipsBelow (ho : o.Takes (lineOf n raw)) : o.SkipsBelow column ∧
    (o.PassesOver (lineOf n raw) ∨
      ∃ m, o.innermost = .mapping m ∧ m.entries.get? name = some (.map [])) := by
  have henters := h.enters he n
  cases ho with
  | skip hplace hinside =>
    obtain ⟨hgap, hcolumn⟩ := OpenMapping.of_place_skip hplace
    have hle := henters.column_le
    exact ⟨⟨_, hinside, hgap, by omega⟩, .inl ⟨_, hinside, hplace⟩⟩
  | add hplace hinside =>
    obtain ⟨m, hcolumn, hm⟩ := henters.head?_add hplace
    have hsplit := he.trimEnd.splitEntry_eq
    rw [trim_trimEnd] at hsplit
    rw [hm, m.add_block hsplit hblock] at hinside
    have hinner := (Option.some.inj hinside).symm
    exact ⟨⟨_, hinner, rfl, hcolumn.le⟩, .inr ⟨_, hinner, YamlMap.get?_insert ..⟩⟩

end Entry

/-- A blank line, or a comment. -/
def Silent (raw : List Char) : Prop := ∀ c ∈ (trimStart raw).head?, c = '#'

/-- The raw line stands deeper than a column, unless it is blank or a comment. -/
def Below (column : Nat) (raw : List Char) : Prop :=
  ¬Silent raw → column < byteSize (raw.takeWhile isBlank)

theorem Silent.ofChars?_eq (h : Silent raw) (n : Nat) : Line.ofChars? n raw = none := by
  unfold Line.ofChars?
  dsimp only
  rw [if_pos]
  cases hraw : trimStart raw with
  | nil => rfl
  | cons c cs =>
    have hc : c = '#' := h c (by rw [hraw]; rfl)
    simp [hc]

theorem ofChars?_of_not_silent (h : ¬Silent raw) (n : Nat) :
    Line.ofChars? n raw = some (lineOf n raw) := by
  cases hraw : trimStart raw with
  | nil => exact absurd (by simp [Silent, hraw]) h
  | cons c cs => exact ofChars?_eq n ⟨c, cs, hraw, fun hc => h (by simp [Silent, hraw, hc])⟩

theorem lt_of_mem_linesFrom : ∀ {block : List (List Char)} {n : Nat} {started : Bool},
    (∀ raw ∈ block, Below column raw) → ∀ l ∈ linesFrom n started block, column < l.column
  | [], _, _, _, l, hl => nomatch hl
  | raw :: block, n, started, hbelow, l, hl => by
    obtain ⟨hraw, hblock⟩ := List.forall_mem_cons.1 hbelow
    rw [linesFrom] at hl
    by_cases hsilent : Silent raw
    · rw [hsilent.ofChars?_eq] at hl
      exact lt_of_mem_linesFrom hblock l hl
    · rw [ofChars?_of_not_silent hsilent] at hl
      dsimp only at hl
      split at hl
      · exact lt_of_mem_linesFrom hblock l hl
      · rcases List.mem_cons.1 hl with rfl | hl
        · exact hraw hsilent
        · exact lt_of_mem_linesFrom hblock l hl

/-! ## Documents -/

/-- Deeper lines behind the first ones leave the rest as it is, but for the numbers in errors. -/
theorem ofLines_skip {front block behind : List Line} (hne : front ≠ [])
    (hskips : ∀ o, outlineOf front = .ok o → o.SkipsBelow column)
    (hfront : ∀ l ∈ front, l.number ≤ n) (hblock : ∀ l ∈ block, column < l.column)
    (hbehind : ∀ l ∈ behind, n < l.number) :
    ofLines (front ++ (block ++ behind.map (Line.moved d))) =
      (ofLines (front ++ behind)).mapError (.moved n d) := by
  rw [ofLines_eq, ofLines_eq, outlineOf_append hne, outlineOf_append hne]
  cases ho : outlineOf front with
  | error e =>
    -- The line that is refused is one of the first ones, and keeps its number.
    obtain ⟨l, hl, he⟩ := exists_of_outlineOf_error ho
    have hle := hfront l hl
    have hsame : e.moved n d = e := if_neg (by omega)
    show Except.error e = Except.error (e.moved n d)
    rw [hsame]
  | ok o =>
    show Except.map _ ((block ++ _).foldlM Outline.step o) =
      (Except.map _ (behind.foldlM Outline.step o)).mapError _
    rw [List.foldlM_append, (hskips o ho).foldlM_eq hblock]
    show Except.map _ ((behind.map (Line.moved d)).foldlM Outline.step o) = _
    rw [Outline.foldlM_moved]
    cases hrest : behind.foldlM Outline.step o with
    | ok o' => rfl
    | error e =>
      obtain ⟨l, hl, he⟩ := Outline.line_of_foldlM_error hrest
      have hlt := hbehind l hl
      have hmoved : e.moved n d = { e with line := e.line + d } := if_pos (by omega)
      show Except.error _ = Except.error (e.moved n d)
      rw [hmoved]

/-- The outline after some raw lines, the first of a document. -/
def Reaches (raws : List (List Char)) (o : Outline) : Prop :=
  outlineOf (linesFrom 1 false raws) = .ok o

/-- The raw line counts where it stands in a document, at a number. -/
structure Counts (n : Nat) (raw : List Char) : Prop where
  line_eq : Line.ofChars? n raw = some (lineOf n raw)
  not_marker : trimStart raw ≠ ['-', '-', '-']

variable {before block behind : List (List Char)} {content content' : String}

namespace Counts

theorem linesFrom_eq (h : Counts (before.length + 1) raw) (rest : List (List Char)) :
    linesFrom 1 false (before ++ raw :: rest) =
      (linesFrom 1 false before ++ [lineOf (before.length + 1) raw]) ++
        linesFrom (before.length + 2) true rest := by
  obtain ⟨started, -, happend⟩ := linesFrom_append before 1 false
  rw [happend, Nat.add_comm 1, linesFrom_cons h.line_eq (.inr h.not_marker), List.append_assoc]
  rfl

theorem linesFrom_last (h : Counts (before.length + 1) raw) : linesFrom 1 false (before ++ [raw]) =
    linesFrom 1 false before ++ [lineOf (before.length + 1) raw] := by
  rw [h.linesFrom_eq, linesFrom, List.append_nil]

theorem takes (h : Counts (before.length + 1) raw) (ho : Reaches (before ++ [raw]) o) :
    o.Takes (lineOf (before.length + 1) raw) := by
  unfold Reaches at ho
  rw [h.linesFrom_last] at ho
  obtain ⟨o', hstep⟩ := exists_step_of_outlineOf ho
  exact Outline.takes_of_step hstep

end Counts

theorem EntryLine.counts (h : EntryLine raw column text) (he : Entry text name after) :
    Counts n raw :=
  ⟨h.ofChars?_eq n, h.not_marker he⟩

/-- **The text of a block might as well not be there**, whatever it holds. -/
theorem EntryLine.parse_block (h : EntryLine raw column text) (he : Entry text name after)
    (hblock : isTextBlock (dropComment (trim after)) = true)
    (hbelow : ∀ line ∈ block, Below column line)
    (hlines : lines content.toList = before ++ raw :: (block ++ behind))
    (hlines' : lines content'.toList = before ++ raw :: behind) :
    parse content = (parse content').mapError (.moved (before.length + 1) block.length) := by
  have hcounts : Counts (before.length + 1) raw := h.counts he
  obtain ⟨started, hstarted, happend⟩ := linesFrom_append block (before.length + 2) true
  cases hstarted rfl
  unfold parse linesOf
  have hmoved : linesFrom (before.length + 2 + block.length) true behind =
      (linesFrom (before.length + 2) true behind).map (Line.moved block.length) :=
    linesFrom_add behind _ true
  rw [hlines, hlines', hcounts.linesFrom_eq, hcounts.linesFrom_eq, happend, hmoved]
  refine ofLines_skip (List.concat_ne_nil _ _) (fun o ho => ?_) (fun l hl => ?_)
    (lt_of_mem_linesFrom hbelow) fun l hl => ?_
  · rw [← hcounts.linesFrom_last] at ho
    exact (h.skipsBelow he hblock (hcounts.takes ho)).1
  · rw [← hcounts.linesFrom_last] at hl
    have := number_bounds hl
    rw [List.length_append, List.length_singleton] at this
    omega
  · exact (number_bounds hl).1

/-! ## Announcements behind a dash -/

/-- An item that is an announcement, whose dash stands in a column. -/
inductive IndicatorItem : List Char → Nat → List Char → Prop
  | intro {margin gap indicator blank : List Char} (margin_blank : ∀ c ∈ margin, isBlank c = true)
      (gap_blank : ∀ c ∈ gap, isBlank c = true) (apart : gap.head? = some ' ')
      (announces : isTextBlock indicator = true) (blank_blank : ∀ c ∈ blank, isBlank c = true) :
    IndicatorItem (margin ++ '-' :: (gap ++ (indicator ++ blank))) (byteSize margin) indicator

variable {indicator : List Char}

/-- The texts that announce a block are scalars, and are read as they stand. -/
theorem ofScalar_indicator (h : isTextBlock indicator = true) :
    (∃ c cs, indicator = c :: cs ∧ isBlank c = false) ∧ trimEnd indicator = indicator ∧
      isEntryItem indicator = false ∧ ofScalar indicator = .str (.ofList indicator) := by
  simp only [isTextBlock, Bool.or_eq_true, decide_eq_true_iff] at h
  rcases h with ((((rfl | rfl) | rfl) | rfl) | rfl) | rfl <;>
    exact ⟨⟨_, _, rfl, rfl⟩, rfl, rfl, rfl⟩

theorem IndicatorItem.counts (h : IndicatorItem raw column indicator) : Counts n raw := by
  obtain ⟨margin_blank, gap_blank, apart, -, -⟩ := h
  refine ⟨ofChars?_dash margin_blank n, ?_⟩
  rw [trimStart_append margin_blank, trimStart_cons (by decide)]
  intro hmark
  obtain ⟨gap, rfl⟩ := List.head?_eq_some_iff.1 apart
  cases hmark

/-- **An item that announces a block is a string**, unless it is text itself. -/
theorem IndicatorItem.innermost (h : IndicatorItem raw column indicator)
    (ho : o.Takes (lineOf n raw)) : o.PassesOver (lineOf n raw) ∨
      ∃ s, o.innermost = .sequence s ∧ s.column = column ∧ s.gap = false ∧
        s.items.getLast? = some (.str (.ofList indicator)) := by
  cases h with
  | @intro margin gap _ blank margin_blank gap_blank apart announces blank_blank =>
    obtain ⟨⟨c, cs, hind, hc⟩, hend, hentry, hvalue⟩ := ofScalar_indicator announces
    have hline : lineOf n (margin ++ '-' :: (gap ++ (indicator ++ blank))) =
        ⟨n, byteSize margin, '-' :: (gap ++ indicator)⟩ := by
      rw [lineOf_dash margin_blank ⟨c, cs ++ blank, by rw [hind]; rfl, hc⟩,
        trimEnd_append_blank blank_blank, hend]
    rw [hline] at ho ⊢
    cases ho with
    | skip hplace hinside => exact .inl ⟨_, hinside, hplace⟩
    | @add b hplace hinside =>
      right
      cases b with
      | mapping m =>
        have hitem := (OpenMapping.of_place_add hplace).2
        rw [isItem_dash apart] at hitem
        cases hitem
      | sequence s =>
        have hcolumn := (OpenSequence.of_place_add hplace).1
        unfold OpenBlock.add at hinside
        dsimp only at hinside
        rw [OpenSequence.add_dash gap_blank ⟨c, cs, hind, hc⟩, hentry,
          if_neg Bool.false_ne_true, hvalue] at hinside
        exact ⟨_, (Option.some.inj hinside).symm, hcolumn.symm, rfl, List.getLast?_concat⟩

theorem Outline.step_of_deeper {s : OpenSequence} (h : o.innermost = .sequence s)
    (hgap : s.gap = false) (hline : s.column < line.column) :
    o.step line = .error ⟨line.number, .unexpectedIndentation⟩ := by
  have hplace : s.place line = .refuse .unexpectedIndentation := by
    simp [OpenSequence.place, hgap, hline]
  obtain ⟨inner, root⟩ := o
  cases inner with
  | nil => cases h
  | cons block outer =>
    cases h
    exact step_push_refuse (o := ⟨outer, root⟩) (b := .sequence s) hplace

theorem linesFrom_silent : ∀ {quiet : List (List Char)} (n : Nat) (started : Bool),
    (∀ raw ∈ quiet, Silent raw) → linesFrom n started quiet = []
  | [], _, _, _ => rfl
  | raw :: quiet, n, started, h => by
    obtain ⟨hraw, hquiet⟩ := List.forall_mem_cons.1 h
    rw [linesFrom, hraw.ofChars?_eq]
    exact linesFrom_silent _ _ hquiet

/-- **Below an item that announces a block the first deeper line is refused.** -/
theorem IndicatorItem.parse_block {s : OpenSequence} {quiet : List (List Char)}
    {deeper : List Char} (h : IndicatorItem raw column indicator)
    (ho : Reaches (before ++ [raw]) o) (hs : o.innermost = .sequence s)
    (hcolumn : s.column = column) (hgap : s.gap = false) (hquiet : ∀ line ∈ quiet, Silent line)
    (hdeeper : ¬Silent deeper) (hbelow : Below column deeper)
    (hlines : lines content.toList = before ++ raw :: (quiet ++ deeper :: behind)) :
    parse content = .error ⟨before.length + quiet.length + 2, .unexpectedIndentation⟩ := by
  have hcounts : Counts (before.length + 1) raw := h.counts
  obtain ⟨started, hstarted, happend⟩ := linesFrom_append quiet (before.length + 2) true
  cases hstarted rfl
  have hline := ofChars?_of_not_silent hdeeper (before.length + 2 + quiet.length)
  unfold parse linesOf
  unfold Reaches at ho
  rw [hcounts.linesFrom_last] at ho
  rw [hlines, hcounts.linesFrom_eq, happend, linesFrom_silent _ _ hquiet, List.nil_append,
    linesFrom_cons hline (.inl rfl), ofLines_eq, outlineOf_append (List.concat_ne_nil _ _), ho]
  show Except.map _ ((_ :: _).foldlM Outline.step o) = _
  rw [List.foldlM_cons, Outline.step_of_deeper hs hgap (hcolumn ▸ hbelow hdeeper),
    Nat.add_right_comm before.length]
  rfl

/-! ## Announcements of text -/

/-- **Blocks of text are passed over below an entry, and refused below an item.** Where an entry
announces a block, its value is an empty mapping and the document comes to what it comes to without
the lines of the block, up to the numbers of the lines behind them. Where an item does, it is a
string, and the first line below it that stands deeper is refused. Both go for lines that are not
text themselves. -/
theorem parse_textBlock (before : List (List Char)) (raw : List Char) (column : Nat) :
    (∀ text name after, EntryLine raw column text → Entry text name after →
      isTextBlock (dropComment (trim after)) = true →
      (∀ o, Reaches (before ++ [raw]) o → o.PassesOver (lineOf (before.length + 1) raw) ∨
        ∃ m, o.innermost = .mapping m ∧ m.entries.get? name = some (.map [])) ∧
      ∀ (block behind : List (List Char)) (content content' : String),
        (∀ line ∈ block, Below column line) →
        lines content.toList = before ++ raw :: (block ++ behind) →
        lines content'.toList = before ++ raw :: behind →
        parse content = (parse content').mapError (.moved (before.length + 1) block.length)) ∧
    ∀ indicator, IndicatorItem raw column indicator → ∀ o, Reaches (before ++ [raw]) o →
      o.PassesOver (lineOf (before.length + 1) raw) ∨
        (∃ s, o.innermost = .sequence s ∧ s.items.getLast? = some (.str (.ofList indicator))) ∧
        ∀ (quiet : List (List Char)) (deeper : List Char) (behind : List (List Char))
          (content : String), (∀ line ∈ quiet, Silent line) → ¬Silent deeper →
          Below column deeper →
          lines content.toList = before ++ raw :: (quiet ++ deeper :: behind) →
          parse content = .error ⟨before.length + quiet.length + 2, .unexpectedIndentation⟩ := by
  constructor
  · intro text name after h he hblock
    refine ⟨fun o ho => ?_, fun block behind content content' hbelow hlines hlines' => ?_⟩
    · exact (h.skipsBelow he hblock ((h.counts he).takes ho)).2
    · exact h.parse_block he hblock hbelow hlines hlines'
  · intro indicator h o ho
    refine (h.innermost (h.counts.takes ho)).imp id fun ⟨s, hs, hcolumn, hgap, hlast⟩ => ?_
    refine ⟨⟨s, hs, hlast⟩, fun quiet deeper behind content hquiet hdeeper hbelow hlines => ?_⟩
    exact h.parse_block ho hs hcolumn hgap hquiet hdeeper hbelow hlines

/-- Text that looks like an item, below an entry with an error behind it and below an item. -/
theorem parse_textBlock_dash :
    parse "a:\n  b: |\n    - x\n c: 1\n" = .error ⟨4, .unexpectedIndentation⟩ ∧
    parse "a:\n  - |\n    - x\n" = .error ⟨3, .unexpectedIndentation⟩ := by
  have hbelow : Below 2 "    - x".toList := fun _ => by decide
  constructor
  · have hcut : cutColon "b: |".toList = some (['b'], [' ', '|']) := rfl
    obtain ⟨-, -, hfree⟩ := of_cutColon hcut
    have hentry : Entry "b: |".toList "b" [' ', '|'] := .plain rfl (by decide) hfree rfl
    have hline : EntryLine "  b: |".toList 2 "b: |".toList :=
      .own (List.all_eq_true.1 (rfl : [' ', ' '].all isBlank = true))
        ⟨'b', _, rfl, by decide, by decide⟩ nofun
    have hskip := ((parse_textBlock ["a:".toList] "  b: |".toList 2).1 _ _ _ hline hentry rfl).2
      ["    - x".toList] [" c: 1".toList] "a:\n  b: |\n    - x\n c: 1\n" "a:\n  b: |\n c: 1\n"
      (List.forall_mem_singleton.2 hbelow) rfl rfl
    rw [hskip, parse_eq]
    rfl
  · have hitem : IndicatorItem "  - |".toList 2 ['|'] :=
      @IndicatorItem.intro [' ', ' '] [' '] ['|'] [] (List.all_eq_true.1 rfl)
        (List.all_eq_true.1 rfl) rfl rfl (List.forall_mem_nil _)
    have hreaches : Reaches (["a:".toList] ++ ["  - |".toList])
        ⟨[.sequence ⟨2, [.str "|"], false⟩], ⟨0, [], .value "a"⟩⟩ := rfl
    rcases (parse_textBlock ["a:".toList] "  - |".toList 2).2 _ hitem _ hreaches with h | ⟨-, h⟩
    · obtain ⟨m, hm, -⟩ := h
      cases hm
    · have hdeeper : ¬Silent "    - x".toList := fun hs => absurd (hs '-' rfl) (by decide)
      exact h [] "    - x".toList [] _ (List.forall_mem_nil _) hdeeper hbelow rfl

/-- The announcement behind a dash is no empty mapping, and its text is refused; behind a key inside
the item it is one, and its text is passed over. -/
theorem textItem_refused :
    parse "a:\n  - |\nb: 1\n" = .ok [("a", .seq [.str "|"]), ("b", .int 1)] ∧
    parse "a:\n  - |\n    text\nb: 1\n" = .error ⟨3, .unexpectedIndentation⟩ ∧
    parse "a:\n  - c: |\n      text\nb: 1\n" =
      .ok [("a", .seq [.map [("c", .map [])]]), ("b", .int 1)] := by
  simp only [parse_eq]
  exact ⟨rfl, rfl, rfl⟩

end Yaml

end DockerSim

import DockerSim.Proofs.Yaml.Reading
import DockerSim.Proofs.YamlKeys

/-!
# Where keys are written

A key of the mapping that some lines form is written in the column of the first line, on a line that
names it; a key deeper in the document is written in the block of such a line, which are the lines
below it that stand deeper (`written`). Whatever is read stands there: every key of a mapping in a
document is written at its path (`written_ne_nil`).

The block of a line is a document of its own. While its lines are read, the outline of that document
lies under the mapping that the line belongs to, and is not touched by it (`step_under`); when a
line ends the block, the mapping takes what the document has come to (`Outline.Tracks`).
-/

namespace DockerSim

namespace YamlMap

/-- The mapping at a path of keys. -/
def mapAt? : (path : List String) → YamlMap → Option YamlMap
  | [], m => some m
  | name :: path, m =>
    match m.get? name with
    | some (.map inside) => mapAt? path inside
    | _ => none

/-- There is nothing inside a mapping without keys. -/
theorem contains_of_mapAt?_nil {path : List String} {inside : YamlMap} {key : String}
    (h : mapAt? path [] = some inside) : ¬inside.contains key = true := by
  cases path with
  | nil => cases h; exact Bool.false_ne_true
  | cons name path => cases h

end YamlMap

namespace Yaml

/-! ## Lines and their blocks -/

/-- The line is an entry of a mapping, under the key. -/
def Line.names (key : String) (l : Line) : Bool :=
  !isItem l.text && decide ((splitEntry l.text).map (·.1) = some key)

/-- The line is an entry under the key, whose value stands on the lines below. -/
def Line.opens (key : String) (l : Line) : Bool :=
  !isItem l.text && decide (splitEntry l.text = some (key, []))

/-- The lines that satisfy `p`, each with its block: the deeper lines below it. -/
def blocks (p : Line → Bool) : List Line → List (Line × List Line)
  | [] => []
  | l :: rest =>
    if p l then (l, rest.takeWhile (l.column < ·.column)) :: blocks p rest else blocks p rest

/-- The column of the entries of a mapping, that of its first line. -/
def firstColumn (lines : List Line) : Nat := (lines.head?.map (·.column)).getD 0

/-- The line stands in the column of the entries, and satisfies `p`. -/
def atEntry (lines : List Line) (p : Line → Bool) (l : Line) : Bool :=
  l.column = firstColumn lines && p l

/-- The lines on which a key is written, as an entry of the mapping at a path. -/
def written : (path : List String) → (key : String) → List Line → List Line
  | [], key, lines => lines.filter (atEntry lines (·.names key))
  | name :: path, key, lines =>
    (blocks (atEntry lines (·.opens name)) lines).flatMap fun e => written path key e.2

variable {p : Line → Bool} {l line : Line} {lines front block rest : List Line} {c : Nat}

theorem mem_blocks_iff : (l, block) ∈ blocks p lines ↔
    ∃ front rest, lines = front ++ l :: rest ∧ p l = true ∧
      block = rest.takeWhile (l.column < ·.column) := by
  induction lines with
  | nil => simp [blocks]
  | cons a lines ih =>
    have hcons : (∃ front rest, a :: lines = front ++ l :: rest ∧ p l = true ∧
        block = rest.takeWhile (l.column < ·.column)) ↔
          (a = l ∧ p l = true ∧ block = lines.takeWhile (l.column < ·.column)) ∨
            (l, block) ∈ blocks p lines := by
      rw [ih]
      constructor
      · rintro ⟨front, rest, he, hp, hb⟩
        cases front with
        | nil => cases he; exact .inl ⟨rfl, hp, hb⟩
        | cons a' front => cases he; exact .inr ⟨front, rest, rfl, hp, hb⟩
      · rintro (⟨rfl, hp, hb⟩ | ⟨front, rest, rfl, hp, hb⟩)
        · exact ⟨[], lines, rfl, hp, hb⟩
        · exact ⟨a :: front, rest, rfl, hp, hb⟩
    rw [hcons, blocks]
    by_cases ha : p a = true
    · rw [if_pos ha, List.mem_cons, Prod.mk.injEq]
      refine or_congr_left ⟨?_, ?_⟩
      · rintro ⟨rfl, rfl⟩; exact ⟨rfl, ha, rfl⟩
      · rintro ⟨rfl, -, rfl⟩; exact ⟨rfl, rfl⟩
    · rw [if_neg ha]
      refine (or_iff_right ?_).symm
      rintro ⟨rfl, hp, -⟩
      exact ha hp

/-- What stands behind a block does not belong to a block in it. -/
theorem takeWhile_append_of_stops {α : Type} {p : α → Bool} {ys : List α}
    (h : ys.takeWhile p = []) (xs : List α) : (xs ++ ys).takeWhile p = xs.takeWhile p := by
  rw [List.takeWhile_append, h]
  split
  · next hall =>
    rw [List.append_nil]
    exact ((List.takeWhile_sublist p).eq_of_length hall).symm
  · rfl

/-- The block of a line ends where a line is not deeper. -/
theorem mem_blocks_of_stops (hp : p l = true) (hblock : ∀ b ∈ block, l.column < b.column)
    (hstops : rest.takeWhile (l.column < ·.column) = []) :
    (l, block) ∈ blocks p (front ++ l :: (block ++ rest)) := by
  refine mem_blocks_iff.2 ⟨front, _, rfl, hp, ?_⟩
  rw [takeWhile_append_of_stops hstops]
  exact (List.takeWhile_eq_self_iff.2 (by simpa using hblock)).symm

theorem column_of_atEntry {lines : List Line} {p : Line → Bool} {l : Line}
    (h : atEntry lines p l = true) : l.column = firstColumn lines ∧ p l = true := by
  rwa [atEntry, Bool.and_eq_true, decide_eq_true_iff] at h

theorem mem_of_mem_blocks {p : Line → Bool} {lines block : List Line} {a l : Line}
    (h : (a, block) ∈ blocks p lines) (hl : l ∈ block) : l ∈ lines := by
  obtain ⟨front, rest, rfl, -, rfl⟩ := mem_blocks_iff.1 h
  exact List.mem_append_right _ (.tail _ ((List.takeWhile_sublist _).mem hl))

/-- The first of some lines in a column stops the block of another one. -/
theorem not_mem_behind {c : Nat} {inside behind : List Line} {b l : Line} (hb : b.column = c)
    (hnodup : (inside ++ b :: behind).Nodup)
    (hl : l ∈ (inside ++ b :: behind).takeWhile (c < ·.column)) : l ∉ behind := by
  have hstops : (b :: behind).takeWhile (c < ·.column) = [] :=
    List.takeWhile_cons_of_neg (by simp [hb])
  rw [takeWhile_append_of_stops hstops] at hl
  have hinside := (List.takeWhile_sublist _).mem hl
  intro hbehind
  exact (List.nodup_append.1 hnodup).2.2 l hinside l (.tail _ hbehind) rfl

/-- **A line is in one block** of those that begin in a column. -/
theorem block_unique {p q : Line → Bool} {c : Nat} {lines s t : List Line} {a b l : Line}
    (hp : ∀ l, p l = true → l.column = c) (hq : ∀ l, q l = true → l.column = c)
    (hnodup : lines.Nodup) (ha : (a, s) ∈ blocks p lines) (hb : (b, t) ∈ blocks q lines)
    (hs : l ∈ s) (ht : l ∈ t) : a = b ∧ s = t := by
  obtain ⟨front, rest, rfl, hpa, rfl⟩ := mem_blocks_iff.1 ha
  obtain ⟨front', rest', hlines, hqb, rfl⟩ := mem_blocks_iff.1 hb
  have hrest : (a :: rest).Nodup := (List.nodup_append.1 hnodup).2.1
  have hrest' : (b :: rest').Nodup := by
    rw [hlines] at hnodup
    exact (List.nodup_append.1 hnodup).2.1
  rw [hp a hpa] at hs ⊢
  rw [hq b hqb] at ht ⊢
  -- The one that comes later ends the block of the other.
  rcases List.append_eq_append_iff.1 hlines with ⟨between, -, he⟩ | ⟨between, -, he⟩
  · cases between with
    | nil => cases he; exact ⟨rfl, rfl⟩
    | cons _ between =>
      obtain ⟨rfl, rfl⟩ := List.cons.inj he
      exact absurd ((List.takeWhile_sublist _).mem ht)
        (not_mem_behind (hq b hqb) hrest.of_cons hs)
  · cases between with
    | nil => cases he; exact ⟨rfl, rfl⟩
    | cons _ between =>
      obtain ⟨rfl, rfl⟩ := List.cons.inj he
      exact absurd ((List.takeWhile_sublist _).mem hs)
        (not_mem_behind (hp a hpa) hrest'.of_cons ht)

theorem mem_of_mem_written {key : String} : ∀ {path : List String} {lines : List Line} {l : Line},
    l ∈ written path key lines → l ∈ lines
  | [], lines, l, hl => (List.mem_filter.1 hl).1
  | name :: path, lines, l, hl => by
    obtain ⟨⟨header, block⟩, hblock, hl⟩ := List.mem_flatMap.1 hl
    exact mem_of_mem_blocks hblock (mem_of_mem_written hl)

/-- The lines of a document are numbered in their order. -/
theorem increasing_linesFrom : ∀ (raws : List (List Char)) (n : Nat) (started : Bool),
    ((linesFrom n started raws).map (·.number)).Pairwise (· < ·)
  | [], _, _ => List.Pairwise.nil
  | raw :: raws, n, started => by
    rw [linesFrom]
    cases hline : Line.ofChars? n raw with
    | none => exact increasing_linesFrom raws (n + 1) started
    | some line =>
      dsimp only
      split
      · exact increasing_linesFrom raws (n + 1) false
      · rw [List.map_cons, List.pairwise_cons]
        refine ⟨fun k hk => ?_, increasing_linesFrom raws (n + 1) true⟩
        obtain ⟨l, hl, rfl⟩ := List.mem_map.1 hk
        have hn : line.number = n := by
          unfold Line.ofChars? at hline
          dsimp only at hline
          split at hline
          · cases hline
          · cases hline; rfl
        have := (number_bounds hl).1
        omega

variable {o o' : Outline} {root sub : OpenMapping}

/-- Lines form what their outline comes to. -/
theorem ofLines_of_outlineOf (h : outlineOf lines = .ok o) : ofLines lines = .ok o.close := by
  rw [ofLines_eq, h]
  rfl

/-! ## Columns -/

theorem OpenMapping.add_column (m : OpenMapping) (text : List Char) :
    (m.add text).column = m.column := by
  unfold add
  dsimp only
  split
  · rfl
  · split
    · rfl
    · split <;> rfl

theorem OpenMapping.give_column (m : OpenMapping) (v : Yaml) : (m.give v).column = m.column := by
  unfold give
  split <;> rfl

theorem OpenMapping.of_place_nest {m : OpenMapping} (h : m.place line = .nest) :
    (∃ key, m.gap = .value key) ∧ m.column ≤ line.column ∧
      (isItem line.text = false → m.column < line.column) := by
  unfold place at h
  dsimp only at h
  split at h
  · cases h
  · split at h
    · next hnest =>
      simp only [ne_eq, decide_not, Bool.and_eq_true, Bool.not_eq_true', decide_eq_false_iff_not,
        Bool.or_eq_true, decide_eq_true_eq] at hnest
      obtain ⟨⟨hnone, hskipped⟩, hwhere⟩ := hnest
      refine ⟨?_, by omega, fun hitem => ?_⟩
      · cases hgap : m.gap with
        | none => exact absurd hgap hnone
        | skipped => exact absurd hgap hskipped
        | value key => exact ⟨key, rfl⟩
      · rw [hitem] at hwhere
        simpa using hwhere
    · split at h
      · cases h
      · split at h
        · cases h
        · split at h <;> cases h

namespace OpenBlock

def column : OpenBlock → Nat
  | mapping m => m.column
  | sequence s => s.column

variable {b : OpenBlock}

theorem give_column (b : OpenBlock) (v : Yaml) : (b.give v).column = b.column := by
  cases b with
  | mapping m => exact m.give_column v
  | sequence s => rfl

/-- A sequence that takes a line is still there, around the block that the line opens. -/
theorem exists_add_sequence (s : OpenSequence) (line : Line) :
    ∃ inner s', add line (.sequence s) = inner ++ [.sequence s'] := by
  unfold add
  dsimp only
  split
  · next s' m _ => exact ⟨[.mapping m], s', rfl⟩
  · next s' _ => exact ⟨[], s', rfl⟩

theorem nested_column (b : OpenBlock) : b.nested.column = b.column := by cases b <;> rfl

/-- A line that stands to the left of a block leaves it. -/
theorem place_of_lt (h : line.column < b.column) : b.place line = .leave := by
  have hdeeper : ¬b.column < line.column := Nat.not_lt.2 h.le
  cases b with
  | mapping m =>
    have hne : line.column ≠ m.column := h.ne
    simp only [column] at h hdeeper
    simp [place, OpenMapping.place, h, hdeeper, hne]
  | sequence s =>
    simp only [column] at h hdeeper
    simp [place, OpenSequence.place, h, hdeeper]

theorem column_of_place_add (h : b.place line = .add) : line.column = b.column := by
  cases b with
  | mapping m => exact (OpenMapping.of_place_add h).1
  | sequence s => exact (OpenSequence.of_place_add h).1

theorem column_le_of_mem_add {b' : OpenBlock} (h : b' ∈ b.add line) : b.column ≤ b'.column := by
  cases b with
  | mapping m =>
    rw [List.mem_singleton.1 h]
    exact (m.add_column line.text).ge
  | sequence s =>
    unfold add OpenSequence.add at h
    dsimp only at h
    split at h
    · next s' m he =>
      split at he
      · cases he
      · split at he
        · cases he
          rcases List.mem_cons.1 h with rfl | h
          · show s.column ≤ (OpenMapping.add _ _).column
            rw [OpenMapping.add_column]
            exact Nat.le_add_right_of_le (Nat.le_succ _)
          · rw [List.mem_singleton.1 h]
            exact Nat.le_refl _
        · cases he
    · next s' he =>
      rw [List.mem_singleton.1 h]
      split at he
      · cases he; exact Nat.le_refl _
      · split at he
        · cases he
        · cases he; exact Nat.le_refl _

theorem column_le_of_mem_ofLine (h : b ∈ ofLine line) : line.column ≤ b.column := by
  obtain ⟨b', hplace, heq⟩ := exists_ofLine line
  rw [heq] at h
  exact (column_of_place_add hplace).trans_le (column_le_of_mem_add h)

end OpenBlock

/-- The root stands in a column, and no block stands to the left of it. -/
structure Outline.Above (c : Nat) (o : Outline) : Prop where
  root : o.root.column = c
  inner : ∀ b ∈ o.inner, c ≤ b.column

namespace Outline.Above

theorem give (h : o.Above c) (v : Yaml) : (o.give v).Above c := by
  obtain ⟨inner, root⟩ := o
  obtain ⟨hroot, hinner⟩ := h
  cases inner with
  | nil => exact ⟨(root.give_column v).trans hroot, List.forall_mem_nil _⟩
  | cons b outer =>
    obtain ⟨hb, houter⟩ := List.forall_mem_cons.1 hinner
    exact ⟨hroot, List.forall_mem_cons.2 ⟨hb.trans_eq (b.give_column v).symm, houter⟩⟩

theorem push {b : OpenBlock} (h : o.Above c) (hb : c ≤ b.column) : (o.push b).Above c :=
  ⟨h.root, List.forall_mem_cons.2 ⟨hb, h.inner⟩⟩

theorem opened (h : o.Above c) (hline : c ≤ line.column) : (o.opened line).Above c :=
  ⟨h.root, List.forall_mem_append.2
    ⟨fun _ hd => hline.trans (OpenBlock.column_le_of_mem_ofLine hd), h.inner⟩⟩

/-- No line that is read stands to the left of the root. -/
theorem step (h : o.Above c) (hs : o.step line = .ok o') : c ≤ line.column ∧ o'.Above c := by
  induction o using Outline.induction with
  | top m =>
    have hroot : m.column = c := h.root
    rw [Seat.step_top] at hs
    by_cases hlt : line.column < c
    · have hleave : m.place line = .leave :=
        OpenBlock.place_of_lt (b := .mapping m) (hlt.trans_eq hroot.symm)
      rw [hleave] at hs
      cases hs
    · have hle := Nat.not_lt.1 hlt
      refine ⟨hle, ?_⟩
      split at hs
      · cases hs; exact h
      · cases hs; exact h.opened hle
      · cases hs; exact ⟨(m.add_column line.text).trans hroot, List.forall_mem_nil _⟩
      · cases hs
      · cases hs
  | push o b ih =>
    obtain ⟨hb, houter⟩ := List.forall_mem_cons.1 h.inner
    have ho : o.Above c := ⟨h.root, houter⟩
    rw [step_push] at hs
    by_cases hlt : line.column < b.column
    · rw [OpenBlock.place_of_lt hlt] at hs
      exact ih _ (ho.give _) hs
    · have hle := hb.trans (Nat.not_lt.1 hlt)
      split at hs
      · cases hs; exact ⟨hle, h⟩
      · cases hs
        exact ⟨hle, (ho.push (hb.trans_eq b.nested_column.symm)).opened hle⟩
      · cases hs
        refine ⟨hle, h.root, List.forall_mem_append.2 ⟨fun d hd => ?_, houter⟩⟩
        exact hb.trans (OpenBlock.column_le_of_mem_add hd)
      · exact ih _ (ho.give _) hs
      · cases hs

theorem foldlM : ∀ {lines : List Line} {o o' : Outline}, o.Above c →
    lines.foldlM Outline.step o = .ok o' → (∀ l ∈ lines, c ≤ l.column) ∧ o'.Above c
  | [], o, o', habove, h => by cases h; exact ⟨List.forall_mem_nil _, habove⟩
  | line :: lines, o, o', habove, h => by
    rw [List.foldlM_cons] at h
    cases hs : o.step line with
    | error e => rw [hs] at h; cases h
    | ok o₁ =>
      rw [hs] at h
      obtain ⟨hline, h₁⟩ := habove.step hs
      obtain ⟨hlines, h'⟩ := foldlM h₁ h
      exact ⟨List.forall_mem_cons.2 ⟨hline, hlines⟩, h'⟩

end Outline.Above

/-- **The lines of a document that is read stand below its first line or deeper.** -/
theorem above_of_outlineOf (h : outlineOf lines = .ok o) :
    (∀ l ∈ lines, firstColumn lines ≤ l.column) ∧ o.Above (firstColumn lines) := by
  cases lines with
  | nil => cases h; exact ⟨List.forall_mem_nil _, rfl, List.forall_mem_nil _⟩
  | cons first rest =>
    unfold outlineOf at h
    dsimp only at h
    split at h
    · cases h
    · exact Outline.Above.foldlM ⟨rfl, List.forall_mem_nil _⟩ h

/-! ## Documents under a mapping -/

/-- The outline of a document that lies in the mapping of another one. -/
def Outline.under (root : OpenMapping) (o : Outline) : Outline :=
  { inner := o.inner ++ [.mapping o.root], root }

namespace Outline

theorem push_under (o : Outline) (b : OpenBlock) : (o.push b).under root = (o.under root).push b :=
  rfl

theorem give_under (o : Outline) (v : Yaml) : (o.under root).give v = (o.give v).under root := by
  obtain ⟨inner, sub⟩ := o
  cases inner <;> rfl

theorem opened_under (o : Outline) (line : Line) :
    (o.under root).opened line = (o.opened line).under root := by
  simp [opened, under]

/-- The mapping takes what the document under it comes to. -/
theorem close_under (o : Outline) : (o.under root).close = (root.give (.map o.close)).close := by
  induction o using Outline.induction with
  | top m => rfl
  | push o b ih => rw [push_under, close_push, give_under, ih, close_push]

/-- **A document under a mapping is read by itself**, up to the line that leaves it. That line finds
the mapping with the value that the document has come to. -/
theorem step_under (h : (o.under root).step line = .ok o') :
    (∃ o₁, o.step line = .ok o₁ ∧ o' = o₁.under root) ∨
      (Seat.top.put (root.give (.map o.close))).step line = .ok o' := by
  induction o using Outline.induction with
  | top m =>
    have hunder : (Seat.top.put m).under root = (Seat.top.put root).push (.mapping m) := rfl
    rw [hunder, step_push] at h
    rw [Seat.step_top]
    dsimp only [OpenBlock.place] at h
    cases hplace : m.place line with
    | skip => rw [hplace] at h; cases h; exact .inl ⟨_, rfl, rfl⟩
    | nest =>
      rw [hplace] at h
      cases h
      exact .inl ⟨_, rfl, opened_under (Seat.top.put m) line⟩
    | add => rw [hplace] at h; cases h; exact .inl ⟨_, rfl, rfl⟩
    | leave =>
      rw [hplace] at h
      exact .inr h
    | refuse fault => rw [hplace] at h; cases h
  | push o b ih =>
    rw [push_under, step_push] at h
    rw [step_push, close_push]
    cases hplace : b.place line with
    | skip => rw [hplace] at h; cases h; exact .inl ⟨_, rfl, rfl⟩
    | nest =>
      rw [hplace] at h
      cases h
      exact .inl ⟨_, rfl, opened_under (o.push b.nested) line⟩
    | add =>
      rw [hplace] at h
      cases h
      exact .inl ⟨_, rfl, by simp [under]⟩
    | leave =>
      rw [hplace] at h
      dsimp only at h
      rw [give_under] at h
      exact ih _ h
    | refuse fault => rw [hplace] at h; cases h

/-- The blocks stand in a sequence that is the value of the last key. -/
def OnItems (root : OpenMapping) (o : Outline) : Prop :=
  ∃ inner s, o = ⟨inner ++ [.sequence s], root⟩

namespace OnItems

theorem put (root : OpenMapping) (s : OpenSequence) :
    ((Seat.top.put root).push (.sequence s)).OnItems root := ⟨[], s, rfl⟩

theorem append (h : o.OnItems root) (blocks : List OpenBlock) :
    OnItems root { o with inner := blocks ++ o.inner } := by
  obtain ⟨inner, s, rfl⟩ := h
  exact ⟨blocks ++ inner, s, by simp⟩

theorem give (h : o.OnItems root) (v : Yaml) : (o.give v).OnItems root := by
  obtain ⟨inner, s, rfl⟩ := h
  cases inner with
  | nil => exact put root (s.give v)
  | cons b inner => exact ⟨b.give v :: inner, s, rfl⟩

theorem not_top {m : OpenMapping} : ¬(Seat.top.put m).OnItems root := by
  rintro ⟨inner, s, h⟩
  have hinner := congrArg Outline.inner h
  cases inner <;> cases hinner

/-- The innermost block is the sequence, or stands in it. -/
theorem of_push {b : OpenBlock} (h : (o.push b).OnItems root) :
    (∃ s, b = .sequence s ∧ o = Seat.top.put root) ∨ o.OnItems root := by
  obtain ⟨inner, s, h⟩ := h
  obtain ⟨outer, root'⟩ := o
  cases inner with
  | nil => cases h; exact .inl ⟨s, rfl, rfl⟩
  | cons b' inner => cases h; exact .inr ⟨inner, s, rfl⟩

/-- The key takes the sequence when the blocks are closed. -/
theorem close_eq (h : o.OnItems root) : ∃ items, o.close = (root.give (.seq items)).close := by
  induction o using Outline.induction with
  | top m => exact absurd h not_top
  | push o b ih =>
    rw [close_push]
    rcases h.of_push with ⟨s, rfl, rfl⟩ | ho
    · exact ⟨s.close, rfl⟩
    · exact ih _ (ho.give _)

/-- A sequence under a mapping stays there, up to the line that leaves it. -/
theorem step (h : o.OnItems root) (hs : o.step line = .ok o') :
    o'.OnItems root ∨ ∃ items, (Seat.top.put (root.give (.seq items))).step line = .ok o' := by
  induction o using Outline.induction with
  | top m => exact absurd h not_top
  | push o b ih =>
    rw [step_push] at hs
    rcases h.of_push with ⟨s, rfl, rfl⟩ | ho
    · split at hs
      · cases hs; exact .inl (put root s)
      · cases hs; exact .inl ((put root _).append _)
      · cases hs
        obtain ⟨inner, s', hadd⟩ := OpenBlock.exists_add_sequence s line
        rw [hadd]
        exact .inl ⟨inner, s', by simp [Seat.put]⟩
      · exact .inr ⟨_, hs⟩
      · cases hs
    · split at hs
      · cases hs; exact .inl (ho.append [b])
      · cases hs; exact .inl ((ho.append [b.nested]).append _)
      · cases hs; exact .inl (ho.append _)
      · exact ih _ (ho.give _) hs
      · cases hs

end OnItems

end Outline

/-- A mapping whose entries are complete takes a line as another entry. -/
theorem Seat.of_step_complete (hgap : root.gap = .none)
    (h : (Seat.top.put root).step line = .ok o) :
    line.column = root.column ∧ isItem line.text = false ∧
      o = Seat.top.put (root.add line.text) := by
  rw [Seat.step_top] at h
  split at h
  · next hplace =>
    have hskipped := (OpenMapping.of_place_skip hplace).1
    rw [hgap] at hskipped
    cases hskipped
  · next hplace =>
    obtain ⟨key, hkey⟩ := (OpenMapping.of_place_nest hplace).1
    rw [hgap] at hkey
    cases hkey
  · next hplace =>
    cases h
    obtain ⟨hcolumn, hitem⟩ := OpenMapping.of_place_add hplace
    exact ⟨hcolumn, hitem, rfl⟩
  · cases h
  · cases h

/-! ## Entries of a mapping -/

namespace OpenMapping

variable {m : OpenMapping} {key name : String} {text : List Char} {inside : YamlMap} {v : Yaml}

theorem close_of_gap (h : m.gap = .value name) : m.close = m.entries.insert name (.map []) := by
  unfold close
  rw [h]

theorem give_of_gap (h : m.gap = .value name) (v : Yaml) :
    m.give v = { m with entries := m.entries.insert name v, gap := .none } := by
  unfold give
  rw [h]

theorem close_give (h : m.gap = .value name) (v : Yaml) :
    (m.give v).close = m.entries.insert name v := by
  rw [give_of_gap h]
  rfl

/-- A value that is given to the last key brings no other key. -/
theorem contains_of_give (h : m.gap = .value name) (hkey : (m.give v).close.contains key = true) :
    m.close.contains key = true := by
  rw [close_give h] at hkey
  rw [close_of_gap h]
  exact (YamlMap.contains_insert _ _ _ _).2 ((YamlMap.contains_insert _ _ _ _).1 hkey)

/-- What is filled in for a value that never came says nothing. -/
theorem get?_of_close (h : m.close.get? name = some (.map inside)) (hne : inside ≠ []) :
    m.entries.get? name = some (.map inside) := by
  cases hgap : m.gap with
  | value key =>
    rw [close_of_gap hgap] at h
    refine (YamlMap.of_get?_insert h).resolve_left ?_
    rintro ⟨-, he⟩
    cases he
    exact hne rfl
  | _ => simpa [close, hgap] using h

/-- A line adds no mapping that says something. -/
theorem get?_of_add (h : (m.add text).entries.get? name = some (.map inside)) (hne : inside ≠ []) :
    m.entries.get? name = some (.map inside) := by
  have hinsert : ∀ {key : String} {v : Yaml}, v.map? ≠ some inside →
      (m.close.insert key v).get? name = some (.map inside) →
        m.close.get? name = some (.map inside) := by
    intro key v hv h
    refine (YamlMap.of_get?_insert h).resolve_left ?_
    rintro ⟨-, rfl⟩
    exact hv rfl
  refine get?_of_close ?_ hne
  unfold add at h
  dsimp only at h
  split at h
  · exact h
  · split at h
    · exact h
    · split at h
      · refine hinsert (fun he => ?_) h
        cases he
        exact hne rfl
      · exact hinsert (by rw [map?_ofScalar]; exact nofun) h

/-- A line adds the key that it names, and no other. -/
theorem contains_of_add (h : (m.add text).close.contains key = true) :
    m.close.contains key = true ∨ (splitEntry text).map (·.1) = some key := by
  unfold add at h
  dsimp only at h
  split at h
  · exact .inl h
  · next key' value hsplit =>
    have hinsert : ∀ v, (m.close.insert key' v).contains key = true →
        m.close.contains key = true ∨ (splitEntry text).map (·.1) = some key := by
      intro v hv
      rcases (YamlMap.contains_insert _ _ _ _).1 hv with rfl | hv
      · exact .inr (by rw [hsplit]; rfl)
      · exact .inl hv
    split at h
    · exact hinsert _ h
    · split at h
      · exact hinsert _ h
      · exact hinsert _ h

/-- The value that stands below is that of the key that the line opens. -/
theorem opens_of_add (h : (m.add text).gap = .value name) :
    splitEntry text = some (name, []) := by
  unfold add at h
  dsimp only at h
  split at h
  · cases h
  · next key value hsplit =>
    split at h
    · next hempty =>
      cases h
      rw [hsplit, List.isEmpty_iff.1 hempty]
    · split at h <;> cases h

end OpenMapping

/-! ## Lines behind an outline -/

variable {name key : String}

/-- The last line in the column opens the key, and what is below it is its block. -/
def Opened (c : Nat) (lines : List Line) (name : String) (block : List Line) : Prop :=
  ∃ front l, lines = front ++ l :: block ∧ l.column = c ∧ l.opens name = true ∧
    ∀ b ∈ block, c < b.column

/-- A line in the column opens the key, and its block, which another line ends, comes to the
mapping. -/
def Defined (c : Nat) (lines : List Line) (name : String) (m : YamlMap) : Prop :=
  ∃ front block next rest, lines = front ++ next :: rest ∧ next.column ≤ c ∧
    Opened c front name block ∧ ofLines block = .ok m

theorem Defined.append {m : YamlMap} (h : Defined c lines name m) (more : List Line) :
    Defined c (lines ++ more) name m := by
  obtain ⟨front, block, next, rest, rfl, h⟩ := h
  exact ⟨front, block, next, rest ++ more, by simp, h⟩

/-- The entries of the root are written in its column: their keys are named there, and mappings
stand in the blocks of lines that open their keys. -/
structure OpenMapping.Written (c : Nat) (lines : List Line) (root : OpenMapping) : Prop where
  column : root.column = c
  keys : ∀ key, root.close.contains key = true →
    ∃ l ∈ lines, l.column = c ∧ l.names key = true
  maps : ∀ name m, root.entries.get? name = some (.map m) → m ≠ [] → Defined c lines name m

/-- How the blocks inside the root come from the lines: there are none, or they are those of a
document that lies in the block of the last key, or of a sequence there. -/
inductive Outline.Inside (c : Nat) (lines : List Line) : Outline → Prop
  | root {root : OpenMapping}
    (opened : ∀ name, root.gap = .value name → Opened c lines name []) : Inside c lines ⟨[], root⟩
  | mapping {root : OpenMapping} {name : String} {block : List Line} {sub : Outline}
    (gap : root.gap = .value name) (opened : Opened c lines name block)
    (read : outlineOf block = .ok sub) (some : block ≠ []) : Inside c lines (sub.under root)
  | sequence {root : OpenMapping} {name : String} {inner : List OpenBlock} {s : OpenSequence}
    (gap : root.gap = .value name) : Inside c lines ⟨inner ++ [.sequence s], root⟩

/-- How an outline comes from the lines that were read. -/
structure Outline.Tracks (c : Nat) (lines : List Line) (o : Outline) : Prop where
  root : o.root.Written c lines
  inside : o.Inside c lines

namespace OpenMapping.Written

theorem append (h : root.Written c lines) (more : List Line) : root.Written c (lines ++ more) where
  column := h.column
  keys key hkey := by
    obtain ⟨l, hl, hl'⟩ := h.keys key hkey
    exact ⟨l, List.mem_append_left _ hl, hl'⟩
  maps name m hm hne := (h.maps name m hm hne).append more

/-- The value of the last key is written where it stands. -/
theorem give (h : root.Written c lines) (hgap : root.gap = .value name) {v : Yaml}
    (hv : ∀ m, v = .map m → m ≠ [] → Defined c lines name m) : (root.give v).Written c lines := by
  refine ⟨by rw [give_of_gap hgap]; exact h.column,
    fun key hkey => h.keys key (contains_of_give hgap hkey), fun name' m hm hne => ?_⟩
  rw [give_of_gap hgap] at hm
  rcases YamlMap.of_get?_insert hm with ⟨rfl, he⟩ | hm
  · exact hv m he hne
  · exact h.maps name' m hm hne

/-- A line in the column is another entry. -/
theorem add (h : root.Written c (lines ++ [line])) (hcolumn : line.column = c)
    (hitem : isItem line.text = false) :
    Outline.Tracks c (lines ++ [line]) ⟨[], root.add line.text⟩ where
  root :=
    { column := (root.add_column _).trans h.column
      keys := fun key hkey => by
        rcases contains_of_add hkey with hkey | hkey
        · exact h.keys key hkey
        · exact ⟨line, by simp, hcolumn, by simp [Line.names, hitem, hkey]⟩
      maps := fun name m hm hne => h.maps name m (get?_of_add hm hne) hne }
  inside := .root fun name hname => ⟨lines, line, rfl, hcolumn,
    by simp [Line.opens, hitem, opens_of_add hname], List.forall_mem_nil _⟩

end OpenMapping.Written

namespace Outline.Tracks

theorem give_complete (h : root.gap = .value name) (v : Yaml) : (root.give v).gap = .none := by
  rw [OpenMapping.give_of_gap h]

/-- A line below the root opens a block for the value of its last key. -/
theorem nest (h : root.Written c lines) (hgap : root.gap = .value name)
    (hopened : Opened c lines name []) (hdeeper : isItem line.text = false → c < line.column) :
    Tracks c (lines ++ [line]) ((Seat.top.put root).opened line) := by
  refine ⟨h.append _, ?_⟩
  rw [Outline.opened, Seat.put, List.append_nil]
  cases hitem : isItem line.text with
  | true =>
    obtain ⟨inner, s, hs⟩ := OpenBlock.exists_add_sequence ⟨line.column, [], false⟩ line
    rw [OpenBlock.ofLine, if_pos hitem, hs]
    exact .sequence hgap
  | false =>
    obtain ⟨front, l, rfl, hl⟩ := hopened
    have hline : OpenBlock.ofLine line =
        [.mapping (OpenMapping.add ⟨line.column, [], .none⟩ line.text)] := by
      unfold OpenBlock.ofLine
      rw [if_neg (by rw [hitem]; exact Bool.false_ne_true)]
      rfl
    rw [hline]
    exact .mapping hgap ⟨front, l, by simp, hl.1, hl.2.1,
      List.forall_mem_singleton.2 (hdeeper hitem)⟩ (outlineOf_singleton hitem)
      (List.cons_ne_nil _ _)

/-- **Reading on**, an outline still comes from the lines that were read. -/
theorem step (h : o.Tracks c lines) (hs : o.step line = .ok o') :
    o'.Tracks c (lines ++ [line]) := by
  obtain ⟨hroot, hinside⟩ := h
  cases hinside with
  | @root root hopened =>
    replace hs : (Seat.top.put root).step line = .ok o' := hs
    dsimp only at hroot
    rw [Seat.step_top] at hs
    split at hs
    · next hplace =>
      cases hs
      have hskipped := (OpenMapping.of_place_skip hplace).1
      refine ⟨hroot.append _, .root fun name hname => ?_⟩
      rw [hskipped] at hname
      cases hname
    · next hplace =>
      cases hs
      obtain ⟨⟨name, hgap⟩, -, hdeeper⟩ := OpenMapping.of_place_nest hplace
      refine nest hroot hgap (hopened name hgap) fun hitem => ?_
      rw [← hroot.column]
      exact hdeeper hitem
    · next hplace =>
      cases hs
      obtain ⟨hcolumn, hitem⟩ := OpenMapping.of_place_add hplace
      exact (hroot.append [line]).add (hcolumn.trans hroot.column) hitem
    · cases hs
    · cases hs
  | @mapping root name block sub hgap hopened hread hne =>
    dsimp only [under] at hroot
    rcases step_under hs with ⟨sub', hsub', rfl⟩ | hs
    · have hread' : outlineOf (block ++ [line]) = .ok sub' := by
        rw [outlineOf_append hne, hread]
        show (do let o ← sub.step line; [].foldlM Outline.step o) = _
        rw [hsub']
        rfl
      obtain ⟨front, l, rfl, hcolumn, hopens, hblock⟩ := hopened
      -- The line stands below the first one of the block or deeper.
      obtain ⟨first, rest, rfl⟩ := List.exists_cons_of_ne_nil hne
      have hline := (above_of_outlineOf hread').1 line (by simp)
      have hfirst := hblock first List.mem_cons_self
      refine ⟨hroot.append _, .mapping hgap ⟨front, l, by simp, hcolumn, hopens, ?_⟩ hread'
        (by simp)⟩
      refine List.forall_mem_append.2 ⟨hblock, List.forall_mem_singleton.2 ?_⟩
      exact hfirst.trans_le hline
    · have hread' := ofLines_of_outlineOf hread
      obtain ⟨hcolumn, hitem, rfl⟩ := Seat.of_step_complete (give_complete hgap _) hs
      rw [OpenMapping.give_of_gap hgap] at hcolumn
      have hcolumn : line.column = c := hcolumn.trans hroot.column
      refine OpenMapping.Written.add ?_ hcolumn hitem
      refine (hroot.append [line]).give hgap fun m hm _ => ?_
      cases hm
      exact ⟨lines, block, line, [], rfl, hcolumn.le, hopened, hread'⟩
  | @sequence root name inner s hgap =>
    dsimp only at hroot
    rcases OnItems.step ⟨inner, s, rfl⟩ hs with ⟨inner', s', rfl⟩ | ⟨items, hs⟩
    · exact ⟨hroot.append _, .sequence hgap⟩
    · obtain ⟨hcolumn, hitem, rfl⟩ := Seat.of_step_complete (give_complete hgap _) hs
      rw [OpenMapping.give_of_gap hgap] at hcolumn
      have hgiven : (root.give (.seq items)).Written c (lines ++ [line]) :=
        (hroot.append [line]).give hgap fun m hm _ => by cases hm
      exact hgiven.add (hcolumn.trans hroot.column) hitem

theorem foldlM : ∀ {more lines : List Line} {o o' : Outline}, o.Tracks c lines →
    more.foldlM Outline.step o = .ok o' → o'.Tracks c (lines ++ more)
  | [], lines, o, o', h, hs => by
    cases hs
    rwa [List.append_nil]
  | line :: more, lines, o, o', h, hs => by
    rw [List.foldlM_cons] at hs
    cases h1 : o.step line with
    | error e => rw [h1] at hs; cases hs
    | ok o₁ =>
      rw [h1] at hs
      rw [← List.singleton_append, ← List.append_assoc]
      exact foldlM (h.step h1) hs

theorem start (c : Nat) : Tracks c [] (Outline.start c) where
  root := ⟨rfl, nofun, nofun⟩
  inside := .root nofun

end Outline.Tracks

/-- An outline comes from the lines that were read. -/
theorem tracks_of_outlineOf (h : outlineOf lines = .ok o) : o.Tracks (firstColumn lines) lines := by
  cases lines with
  | nil => cases h; exact .start 0
  | cons first rest =>
    unfold outlineOf at h
    dsimp only at h
    split at h
    · cases h
    · exact (Outline.Tracks.start first.column).foldlM h

/-! ## Mappings of a document -/

/-- In the lines, the block of an entry under the key comes to the mapping. -/
def Held (lines : List Line) (name : String) (m : YamlMap) : Prop :=
  ∃ l block, (l, block) ∈ blocks (atEntry lines (·.opens name)) lines ∧ ofLines block = .ok m

theorem Opened.held {m : YamlMap} (h : Opened (firstColumn lines) front name block)
    (hread : ofLines block = .ok m) (hlines : lines = front ++ rest)
    (hstops : rest.takeWhile (firstColumn lines < ·.column) = []) : Held lines name m := by
  obtain ⟨before, l, rfl, hcolumn, hopens, hblock⟩ := h
  refine ⟨l, block, ?_, hread⟩
  rw [← hcolumn] at hstops hblock
  have hmem : (l, block) ∈ blocks (atEntry lines (·.opens name)) (before ++ l :: (block ++ rest)) :=
    mem_blocks_of_stops (by simp [atEntry, hcolumn, hopens]) hblock hstops
  rwa [← List.cons_append, ← List.append_assoc, ← hlines] at hmem

theorem Defined.held {m : YamlMap} (h : Defined (firstColumn lines) lines name m) :
    Held lines name m := by
  obtain ⟨front, block, next, rest, hlines, hnext, hopened, hread⟩ := h
  exact hopened.held hread hlines (List.takeWhile_cons_of_neg (by simpa using hnext))

/-- The keys of a mapping are named by its lines, and its mappings stand in their blocks. -/
structure Places (lines : List Line) (m : YamlMap) : Prop where
  keys : ∀ key, m.contains key = true → ∃ l ∈ lines, atEntry lines (·.names key) l = true
  maps : ∀ name inside, m.get? name = some (.map inside) → inside ≠ [] → Held lines name inside

theorem OpenMapping.Written.places_give (h : root.Written (firstColumn lines) lines)
    (hgap : root.gap = .value name) {v : Yaml}
    (hv : ∀ m, v = .map m → m ≠ [] → Held lines name m) : Places lines (root.give v).close := by
  refine ⟨fun key hkey => ?_, fun name' m hm hne => ?_⟩
  · obtain ⟨l, hl, hcolumn, hnames⟩ := h.keys key (contains_of_give hgap hkey)
    exact ⟨l, hl, by simp [atEntry, hcolumn, hnames]⟩
  · rw [close_give hgap] at hm
    rcases YamlMap.of_get?_insert hm with ⟨rfl, he⟩ | hm
    · exact hv m he hne
    · exact (h.maps name' m hm hne).held

theorem Outline.Tracks.places (h : o.Tracks (firstColumn lines) lines) : Places lines o.close := by
  obtain ⟨hroot, hinside⟩ := h
  cases hinside with
  | @root root hopened =>
    refine ⟨fun key hkey => ?_, fun name m hm hne => ?_⟩
    · obtain ⟨l, hl, hcolumn, hnames⟩ := hroot.keys key hkey
      exact ⟨l, hl, by simp [atEntry, hcolumn, hnames]⟩
    · exact (hroot.maps name m (OpenMapping.get?_of_close hm hne) hne).held
  | @mapping root name block sub hgap hopened hread =>
    have hread' := ofLines_of_outlineOf hread
    rw [close_under]
    refine hroot.places_give hgap fun m hm _ => ?_
    cases hm
    exact hopened.held hread' (List.append_nil _).symm rfl
  | @sequence root name inner s hgap =>
    obtain ⟨items, hitems⟩ := OnItems.close_eq ⟨inner, s, rfl⟩
    rw [hitems]
    exact hroot.places_give hgap fun _ hm _ => nomatch hm

/-- **What lines form stands in them**: each key on a line that names it, each mapping in the block
of a line that opens its key. -/
theorem places_of_ofLines {m : YamlMap} (h : ofLines lines = .ok m) : Places lines m := by
  rw [ofLines_eq] at h
  cases ho : outlineOf lines with
  | error e => rw [ho] at h; cases h
  | ok o =>
    rw [ho] at h
    cases h
    exact (tracks_of_outlineOf ho).places

/-- **A key that is read at a path is written there.** -/
theorem written_ne_nil : ∀ {path : List String} {lines : List Line} {m inside : YamlMap},
    ofLines lines = .ok m → m.mapAt? path = some inside → inside.contains key = true →
      written path key lines ≠ []
  | [], lines, m, inside, h, hat, hkey => by
    cases hat
    obtain ⟨l, hl, hnames⟩ := (places_of_ofLines h).keys key hkey
    exact List.ne_nil_of_mem (List.mem_filter.2 ⟨hl, hnames⟩)
  | name :: path, lines, m, inside, h, hat, hkey => by
    unfold YamlMap.mapAt? at hat
    split at hat
    · next outer hname =>
      have hne : outer ≠ [] := by
        rintro rfl
        exact YamlMap.contains_of_mapAt?_nil hat hkey
      obtain ⟨l, block, hblock, hread⟩ := (places_of_ofLines h).maps name outer hname hne
      obtain ⟨l', hl'⟩ := List.exists_mem_of_ne_nil _ (written_ne_nil hread hat hkey)
      exact List.ne_nil_of_mem (List.mem_flatMap.2 ⟨_, hblock, hl'⟩)
    · cases hat

end Yaml

end DockerSim

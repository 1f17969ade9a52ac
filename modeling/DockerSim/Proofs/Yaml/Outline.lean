import DockerSim.Yaml.Reader

/-!
# Reading line by line

A document can also be read one line after the other. What is kept between lines is the outline: the
mappings and sequences that are still open, each with the column of its entries or items. A line
closes the blocks it stands to the left of and is added to the innermost block that is left; it is
refused when it fits none. Lines that are no entry, and blocks of text, are passed over with
everything that stands deeper.

Each block has one equation for what a line does to an outline with it (`Outline.step_push`, and
`Seat.step_top` for the mapping of the document). What a line does to any outline is proved from
them by induction over the open blocks (`Outline.induction`).
-/

namespace DockerSim.Yaml

/-! ## Open blocks -/

/-- What the lines below an entry mean to it. -/
inductive Gap where
  /-- The entry is complete. -/
  | none
  /-- Its value stands below. -/
  | value (key : String)
  /-- Deeper lines are passed over. -/
  | skipped
deriving DecidableEq

/-- A mapping whose entries stand in a column. -/
structure OpenMapping where
  column : Nat
  entries : YamlMap
  gap : Gap

/-- A sequence whose dashes stand in a column; `gap` says that the last dash has its item below. -/
structure OpenSequence where
  column : Nat
  items : List Yaml
  gap : Bool

inductive OpenBlock where
  | mapping (m : OpenMapping)
  | sequence (s : OpenSequence)

/-- The blocks that are open, the innermost first, inside the mapping of the whole document. -/
structure Outline where
  inner : List OpenBlock
  root : OpenMapping

/-- What a block does with the next line. -/
inductive Placement where
  /-- Pass it over. -/
  | skip
  /-- Open a new block for it below the last entry or item. -/
  | nest
  /-- Take it as an entry or item of its own. -/
  | add
  /-- Leave it to the block around this one. -/
  | leave
  | refuse (fault : YamlFault)

namespace OpenMapping

/-- The entries, with an empty mapping for a key whose value never came. -/
def close (m : OpenMapping) : YamlMap :=
  match m.gap with
  | .value key => m.entries.insert key (.map [])
  | _ => m.entries

/-- The mapping with the value that its last key was waiting for. -/
def give (m : OpenMapping) (v : Yaml) : OpenMapping :=
  match m.gap with
  | .value key => { m with entries := m.entries.insert key v, gap := .none }
  | _ => m

def place (m : OpenMapping) (line : Line) : Placement :=
  let deeper := m.column < line.column
  let aligned := line.column = m.column && isItem line.text
  if m.gap = .skipped && deeper then .skip
  else if m.gap ≠ .none && m.gap ≠ .skipped && (deeper || aligned) then .nest
  else if deeper then .refuse .unexpectedIndentation
  else if line.column < m.column then .leave
  else if isItem line.text then .refuse .itemInMapping
  else .add

/-- The mapping with one more entry. -/
def add (m : OpenMapping) (text : List Char) : OpenMapping :=
  let entries := m.close
  match splitEntry text with
  | none => { m with entries, gap := .skipped }
  | some (key, value) =>
    if value.isEmpty then { m with entries, gap := .value key }
    else if isTextBlock value then
      { m with entries := entries.insert key (.map []), gap := .skipped }
    else { m with entries := entries.insert key (ofScalar value), gap := .none }

end OpenMapping

namespace OpenSequence

def close (s : OpenSequence) : List Yaml := if s.gap then s.items ++ [.null] else s.items

def give (s : OpenSequence) (v : Yaml) : OpenSequence :=
  { s with items := s.items ++ [v], gap := false }

def place (s : OpenSequence) (line : Line) : Placement :=
  let deeper := s.column < line.column
  if s.gap && deeper then .nest
  else if deeper then .refuse .unexpectedIndentation
  else if line.column < s.column || !isItem line.text then .leave
  else .add

/-- The sequence with one more item, and the mapping that the item opens, if it does. -/
def add (s : OpenSequence) (text : List Char) : OpenSequence × Option OpenMapping :=
  let items := s.close
  let behind := text.drop 1
  let item := Chars.trimStart behind
  if item.isEmpty then ({ s with items, gap := true }, none)
  else if isEntryItem item then
    let column := s.column + 1 + byteSize (behind.takeWhile Chars.isBlank)
    let opened : OpenMapping := { column, entries := [], gap := .none }
    ({ s with items, gap := false }, some (opened.add item))
  else ({ s with items := items ++ [ofScalar item], gap := false }, none)

end OpenSequence

namespace OpenBlock

def close : OpenBlock → Yaml
  | .mapping m => .map m.close
  | .sequence s => .seq s.close

def give (v : Yaml) : OpenBlock → OpenBlock
  | .mapping m => .mapping (m.give v)
  | .sequence s => .sequence (s.give v)

def place (line : Line) : OpenBlock → Placement
  | .mapping m => m.place line
  | .sequence s => s.place line

/-- The block with the line added, after the block that the line opens, if it does. -/
def add (line : Line) : OpenBlock → List OpenBlock
  | .mapping m => [.mapping (m.add line.text)]
  | .sequence s =>
    match s.add line.text with
    | (s, some m) => [.mapping m, .sequence s]
    | (s, none) => [.sequence s]

/-- The block knows that a block is open for its last item. A mapping keeps the key that the block
is the value of. -/
def nested : OpenBlock → OpenBlock
  | .mapping m => .mapping m
  | .sequence s => .sequence { s with gap := false }

/-- The blocks that a line opens where a new block may stand. -/
def ofLine (line : Line) : List OpenBlock :=
  if isItem line.text then
    add line (.sequence { column := line.column, items := [], gap := false })
  else add line (.mapping { column := line.column, entries := [], gap := .none })

end OpenBlock

/-! ## The outline -/

namespace Outline

/-- The outline after a line, `closed` being the value of the block that was closed last. -/
def settle (line : Line) (closed : Option Yaml) :
    List OpenBlock → OpenMapping → Except YamlError Outline
  | [], root =>
    let root := match closed with
      | some v => root.give v
      | none => root
    match root.place line with
    | .skip => .ok { inner := [], root }
    | .nest => .ok { inner := OpenBlock.ofLine line, root }
    | .add => .ok { inner := [], root := root.add line.text }
    | .leave => .error { line := line.number, fault := .unexpectedIndentation }
    | .refuse fault => .error { line := line.number, fault }
  | block :: outer, root =>
    let block := match closed with
      | some v => block.give v
      | none => block
    match block.place line with
    | .skip => .ok { inner := block :: outer, root }
    | .nest => .ok { inner := OpenBlock.ofLine line ++ block.nested :: outer, root }
    | .add => .ok { inner := block.add line ++ outer, root }
    | .leave => settle line (some block.close) outer root
    | .refuse fault => .error { line := line.number, fault }

def step (o : Outline) (line : Line) : Except YamlError Outline := settle line none o.inner o.root

/-- The mapping of the whole document, when no more lines follow. -/
def close (o : Outline) : YamlMap :=
  let inside := o.inner.foldl (fun (v : Option Yaml) block =>
    some (match v with
      | some v => (block.give v).close
      | none => block.close)) none
  match inside with
  | some v => (o.root.give v).close
  | none => o.root.close

end Outline

/-- The outline with which the first line is met, which stands in a column. -/
def Outline.start (column : Nat) : Outline :=
  { inner := [], root := { column, entries := [], gap := .none } }

/-- The outline after some lines, the first of which fixes the column of the top level. -/
def outlineOf (lines : List Line) : Except YamlError Outline :=
  match lines with
  | [] => .ok (.start 0)
  | first :: _ =>
    if isItem first.text then .error { line := first.number, fault := .sequenceAtTop }
    else lines.foldlM Outline.step (.start first.column)

/-! ## Steps of the outline -/

namespace Outline

variable {o : Outline} {b : OpenBlock} {line : Line} {v : Yaml}

/-- The outline with one more open block. -/
def push (o : Outline) (b : OpenBlock) : Outline := { o with inner := b :: o.inner }

/-- The outline in which a line has opened a new block. -/
def opened (o : Outline) (line : Line) : Outline :=
  { o with inner := OpenBlock.ofLine line ++ o.inner }

/-- The outline whose innermost block has got its value. -/
def give (o : Outline) (v : Yaml) : Outline :=
  match o.inner with
  | [] => { o with root := o.root.give v }
  | b :: outer => { o with inner := b.give v :: outer }

/-- A line is placed in the innermost block. What that block leaves is for the outline in which it
is closed. -/
theorem step_push : (o.push b).step line =
    match b.place line with
    | .skip => .ok (o.push b)
    | .nest => .ok ((o.push b.nested).opened line)
    | .add => .ok { o with inner := b.add line ++ o.inner }
    | .leave => (o.give b.close).step line
    | .refuse fault => .error { line := line.number, fault } := by
  show settle line none (b :: o.inner) o.root = _
  unfold settle
  dsimp only
  cases b.place line with
  | leave =>
    obtain ⟨inner, root⟩ := o
    cases inner <;> rfl
  | _ => rfl

theorem step_push_skip (h : b.place line = .skip) : (o.push b).step line = .ok (o.push b) := by
  rw [step_push, h]

theorem step_push_nest (h : b.place line = .nest) :
    (o.push b).step line = .ok ((o.push b.nested).opened line) := by
  rw [step_push, h]

theorem step_push_add (h : b.place line = .add) :
    (o.push b).step line = .ok { o with inner := b.add line ++ o.inner } := by
  rw [step_push, h]

theorem step_push_leave (h : b.place line = .leave) :
    (o.push b).step line = (o.give b.close).step line := by
  rw [step_push, h]

theorem step_push_refuse {fault : YamlFault} (h : b.place line = .refuse fault) :
    (o.push b).step line = .error { line := line.number, fault } := by
  rw [step_push, h]

/-- A line adds an item that opens no block. -/
theorem step_push_item {s s' : OpenSequence} (h : s.place line = .add)
    (hadd : s.add line.text = (s', none)) :
    (o.push (.sequence s)).step line = .ok (o.push (.sequence s')) := by
  rw [step_push_add (b := .sequence s) h, OpenBlock.add, hadd]
  rfl

/-- A line adds an item that is the first entry of a mapping. -/
theorem step_push_entryItem {s s' : OpenSequence} {m : OpenMapping} (h : s.place line = .add)
    (hadd : s.add line.text = (s', some m)) :
    (o.push (.sequence s)).step line = .ok ((o.push (.sequence s')).push (.mapping m)) := by
  rw [step_push_add (b := .sequence s) h, OpenBlock.add, hadd]
  rfl

theorem close_push : (o.push b).close = (o.give b.close).close := by
  obtain ⟨inner, root⟩ := o
  cases inner <;> rfl

end Outline

/-! ## Places for lines -/

namespace OpenMapping

variable {m : OpenMapping} {line : Line} {key : String}

theorem place_left (h : line.column < m.column) : m.place line = .leave := by
  have hdeeper : ¬m.column < line.column := by omega
  have haligned : ¬line.column = m.column := by omega
  simp [place, h, hdeeper, haligned]

theorem place_beside (h : line.column = m.column) (hitem : isItem line.text = false) :
    m.place line = .add := by
  simp [place, h, hitem]

theorem place_below (hgap : m.gap = .value key) (h : m.column < line.column) :
    m.place line = .nest := by
  simp [place, h, hgap]

/-- A line that is not deeper, and no item of the last key, ends the mapping or is an entry. -/
theorem place_of_not_lt (hdeeper : ¬m.column < line.column) (h : m.gap = .none ∨ m.gap = .skipped ∨
    ¬(line.column = m.column ∧ isItem line.text = true)) :
    m.place line = if line.column < m.column then .leave
      else if isItem line.text then .refuse .itemInMapping else .add := by
  have hnest : ¬(m.gap ≠ .none && m.gap ≠ .skipped &&
      (m.column < line.column || (line.column = m.column && isItem line.text : Bool))) = true := by
    rcases h with h | h | h
    · simp [h]
    · simp [h]
    · simp only [Bool.and_eq_true, decide_eq_true_iff, Bool.or_eq_true]
      rintro ⟨-, hlt | haligned⟩
      · exact hdeeper hlt
      · exact h haligned
  unfold place
  dsimp only
  rw [if_neg (by simp [hdeeper]), if_neg hnest, if_neg (by simpa using hdeeper)]

end OpenMapping

namespace OpenSequence

variable {s : OpenSequence} {line : Line}

theorem place_left (h : line.column < s.column) : s.place line = .leave := by
  have hdeeper : ¬s.column < line.column := by omega
  simp [place, h, hdeeper]

theorem place_beside (h : line.column = s.column) (hitem : isItem line.text = true) :
    s.place line = .add := by
  simp [place, h, hitem]

theorem place_below (hgap : s.gap = true) (h : s.column < line.column) : s.place line = .nest := by
  simp [place, h, hgap]

/-- A line that is not deeper ends the sequence or is an item. -/
theorem place_of_not_lt (hdeeper : ¬s.column < line.column) :
    s.place line = if line.column < s.column || !isItem line.text then .leave else .add := by
  simp [place, hdeeper]

variable {column : Nat} {items : List Yaml} {text : List Char}

/-- The item of a dash with nothing behind it stands below. -/
theorem add_bareDash (h : (Chars.trimStart (text.drop 1)).isEmpty = true) :
    (⟨column, items, false⟩ : OpenSequence).add text = (⟨column, items, true⟩, none) := by
  unfold add
  dsimp only
  rw [if_pos h]
  rfl

theorem add_entry (hempty : ¬(Chars.trimStart (text.drop 1)).isEmpty = true)
    (h : isEntryItem (Chars.trimStart (text.drop 1)) = true) :
    (⟨column, items, false⟩ : OpenSequence).add text = (⟨column, items, false⟩,
      some (OpenMapping.add
        ⟨column + 1 + byteSize ((text.drop 1).takeWhile Chars.isBlank), [], .none⟩
        (Chars.trimStart (text.drop 1)))) := by
  unfold add
  dsimp only
  rw [if_neg hempty, if_pos h]
  rfl

theorem add_scalar (hempty : ¬(Chars.trimStart (text.drop 1)).isEmpty = true)
    (h : ¬isEntryItem (Chars.trimStart (text.drop 1)) = true) :
    (⟨column, items, false⟩ : OpenSequence).add text =
      (⟨column, items ++ [ofScalar (Chars.trimStart (text.drop 1))], false⟩, none) := by
  unfold add
  dsimp only
  rw [if_neg hempty, if_neg h]
  rfl

end OpenSequence

namespace Outline

variable {o : Outline} {line : Line}

/-- An entry that opens a block is the first of an empty mapping in its column. -/
theorem step_push_firstEntry (h : isItem line.text = false) :
    (o.push (.mapping ⟨line.column, [], .none⟩)).step line = .ok (o.opened line) := by
  have hplace : OpenBlock.place line (.mapping ⟨line.column, [], .none⟩) = .add :=
    OpenMapping.place_beside (m := ⟨line.column, [], .none⟩) rfl h
  rw [step_push_add hplace, opened, OpenBlock.ofLine, h]
  rfl

/-- An item that opens a block is the first of an empty sequence in its column. -/
theorem step_push_firstItem (h : isItem line.text = true) :
    (o.push (.sequence ⟨line.column, [], false⟩)).step line = .ok (o.opened line) := by
  have hplace : OpenBlock.place line (.sequence ⟨line.column, [], false⟩) = .add :=
    OpenSequence.place_beside (s := ⟨line.column, [], false⟩) rfl h
  rw [step_push_add hplace, opened, OpenBlock.ofLine, h]
  rfl

end Outline

/-! ## Mappings and where they stand -/

/-- Where an open mapping stands: it is the document, or inside another block. -/
inductive Seat where
  | top
  | inside (o : Outline)

def Seat.put (m : OpenMapping) : Seat → Outline
  | top => { inner := [], root := m }
  | inside o => o.push (.mapping m)

namespace Seat

variable {seat : Seat} {m : OpenMapping} {line : Line} {v : Yaml}

/-- Nothing stands around the mapping of the document, so a line that it leaves is refused. -/
theorem step_top : (top.put m).step line =
    match m.place line with
    | .skip => .ok (top.put m)
    | .nest => .ok ((top.put m).opened line)
    | .add => .ok (top.put (m.add line.text))
    | .leave => .error { line := line.number, fault := .unexpectedIndentation }
    | .refuse fault => .error { line := line.number, fault } := by
  show Outline.settle line none [] m = _
  unfold Outline.settle
  dsimp only
  cases m.place line with
  | nest => simp only [Outline.opened, put, List.append_nil]
  | _ => rfl

theorem step_skip (h : m.place line = .skip) : (seat.put m).step line = .ok (seat.put m) := by
  cases seat with
  | top => rw [step_top, h]
  | inside o => exact Outline.step_push_skip h

theorem step_nest (h : m.place line = .nest) :
    (seat.put m).step line = .ok ((seat.put m).opened line) := by
  cases seat with
  | top => rw [step_top, h]
  | inside o => exact Outline.step_push_nest h

theorem step_add (h : m.place line = .add) :
    (seat.put m).step line = .ok (seat.put (m.add line.text)) := by
  cases seat with
  | top => rw [step_top, h]
  | inside o => exact Outline.step_push_add h

theorem step_refuse {fault : YamlFault} (h : m.place line = .refuse fault) :
    (seat.put m).step line = .error { line := line.number, fault } := by
  cases seat with
  | top => rw [step_top, h]
  | inside o => exact Outline.step_push_refuse h

theorem step_top_leave (h : m.place line = .leave) :
    (top.put m).step line = .error { line := line.number, fault := .unexpectedIndentation } := by
  rw [step_top, h]

/-- A mapping that leaves a line to the blocks around it is looked at no further. -/
theorem step_leave {m' : OpenMapping} (h : m.place line = .leave) (h' : m'.place line = .leave)
    (hclose : m.close = m'.close) : (seat.put m).step line = (seat.put m').step line := by
  cases seat with
  | top => rw [step_top_leave h, step_top_leave h']
  | inside o =>
    show (o.push (.mapping m)).step line = (o.push (.mapping m')).step line
    have hblock : (OpenBlock.mapping m).close = (OpenBlock.mapping m').close :=
      congrArg Yaml.map hclose
    rw [Outline.step_push_leave (b := .mapping m) h, Outline.step_push_leave (b := .mapping m') h',
      hblock]

theorem close_put {m' : OpenMapping} (h : m.close = m'.close) :
    (seat.put m).close = (seat.put m').close := by
  cases seat with
  | top => exact h
  | inside o =>
    show (o.push (.mapping m)).close = (o.push (.mapping m')).close
    have hblock : (OpenBlock.mapping m).close = (OpenBlock.mapping m').close := congrArg Yaml.map h
    rw [Outline.close_push, Outline.close_push, hblock]

/-- A mapping whose gap does not take the line treats it like a complete one that comes to the
same. -/
theorem step_settled {m' : OpenMapping} (hgap : m'.gap = .none) (hcolumn : m.column = m'.column)
    (hclose : m.close = m'.close) (hdeeper : ¬m.column < line.column)
    (htakes : m.gap = .skipped ∨ ¬(line.column = m.column ∧ isItem line.text = true)) :
    (seat.put m).step line = (seat.put m').step line := by
  have hm := OpenMapping.place_of_not_lt hdeeper (.inr htakes)
  have hm' := OpenMapping.place_of_not_lt (m := m') (hcolumn ▸ hdeeper) (.inl hgap)
  rw [← hcolumn] at hm'
  by_cases hleft : line.column < m.column
  · rw [if_pos hleft] at hm hm'
    exact step_leave hm hm' hclose
  · rw [if_neg hleft] at hm hm'
    by_cases hitem : isItem line.text = true
    · rw [if_pos hitem] at hm hm'
      rw [step_refuse hm, step_refuse hm']
    · rw [if_neg hitem] at hm hm'
      have hadd : m.add line.text = m'.add line.text := by
        unfold OpenMapping.add
        rw [hcolumn, hclose]
      rw [step_add hm, step_add hm', hadd]

theorem give_put : (seat.put m).give v = seat.put (m.give v) := by cases seat <;> rfl

end Seat

/-- The outline of a single entry. -/
theorem outlineOf_singleton {line : Line} (h : isItem line.text = false) :
    outlineOf [line] = .ok (Seat.top.put (OpenMapping.add ⟨line.column, [], .none⟩ line.text)) := by
  have hplace : (⟨line.column, [], .none⟩ : OpenMapping).place line = .add :=
    OpenMapping.place_beside rfl h
  have hstep : (Outline.start line.column).step line =
      .ok (Seat.top.put (OpenMapping.add ⟨line.column, [], .none⟩ line.text)) := by
    show (Seat.top.put ⟨line.column, [], .none⟩).step line = _
    exact Seat.step_add hplace
  unfold outlineOf
  dsimp only
  rw [h, if_neg Bool.false_ne_true, List.foldlM_cons, hstep]
  rfl

/-! ## Induction over the open blocks -/

theorem Outline.length_give (o : Outline) (v : Yaml) :
    (o.give v).inner.length = o.inner.length := by
  obtain ⟨inner, root⟩ := o
  cases inner <;> rfl

/-- What holds of outlines without open blocks, and of an outline with one more open block if it
does whatever value that block gives, holds of every outline. A block is changed by the value it is
given, so this is not the recursion on the list of blocks. -/
@[elab_as_elim]
theorem Outline.induction {P : Outline → Prop} (top : ∀ m, P (Seat.top.put m))
    (push : ∀ (o : Outline) (b : OpenBlock), (∀ v, P (o.give v)) → P (o.push b)) : ∀ o, P o
  | ⟨[], root⟩ => top root
  | ⟨b :: outer, root⟩ => push ⟨outer, root⟩ b fun v => induction top push (give ⟨outer, root⟩ v)
termination_by o => o.inner.length
decreasing_by
  rw [length_give]
  exact Nat.lt_succ_self _

/-! ## Lines that are refused -/

/-- The outline is given up at the line that it comes to. -/
theorem Outline.line_of_step_error {o : Outline} {line : Line} {e : YamlError}
    (h : o.step line = .error e) : e.line = line.number := by
  induction o using Outline.induction with
  | top m =>
    rw [Seat.step_top] at h
    split at h <;> cases h <;> rfl
  | push o b ih =>
    rw [step_push] at h
    split at h
    · cases h
    · cases h
    · cases h
    · exact ih _ h
    · cases h
      rfl

theorem Outline.line_of_foldlM_error {e : YamlError} :
    ∀ {lines : List Line} {o : Outline}, lines.foldlM Outline.step o = .error e →
      ∃ l ∈ lines, e.line = l.number
  | [], o, h => by cases h
  | l :: lines, o, h => by
    rw [List.foldlM_cons] at h
    cases hs : o.step l with
    | error e' =>
      rw [hs] at h
      cases h
      exact ⟨l, List.mem_cons_self, line_of_step_error hs⟩
    | ok o' =>
      rw [hs] at h
      obtain ⟨l', hl', he⟩ := line_of_foldlM_error h
      exact ⟨l', List.mem_cons_of_mem _ hl', he⟩

/-- **The error names the line that is refused**: one of the lines that were read. -/
theorem exists_of_outlineOf_error {lines : List Line} {e : YamlError}
    (h : outlineOf lines = .error e) : ∃ l ∈ lines, e.line = l.number := by
  cases lines with
  | nil => cases h
  | cons first lines =>
    unfold outlineOf at h
    dsimp only at h
    split at h
    · cases h
      exact ⟨first, List.mem_cons_self, rfl⟩
    · exact Outline.line_of_foldlM_error h

end DockerSim.Yaml

import DockerSim.Yaml.Line

/-!
# Reading YAML

A document is read by recursive descent. The functions for entries, items and the values below them
read from the lines that are left, look at the first of them, and hand on those they do not take: a
line to the left of a block ends it, and a line that stands deeper is refused unless a key or a dash
waits for its value. Lines that are no entry, and blocks of text, are passed over with everything
that stands deeper.

The functions call each other, so they recurse on fuel. Three calls for each line are enough
(`Enough`), and a reading that is given as much never runs out of it.
-/

namespace DockerSim

/-- Why a line is refused. -/
inductive YamlFault where
  | sequenceAtTop
  | unexpectedIndentation
  | itemInMapping
deriving DecidableEq, Repr

def YamlFault.message : YamlFault → String
  | .sequenceAtTop => "expected a mapping at the top level, found a sequence"
  | .unexpectedIndentation => "unexpected indentation"
  | .itemInMapping => "sequence item where a mapping key was expected"

structure YamlError where
  line : Nat
  fault : YamlFault
deriving DecidableEq, Repr

def YamlError.message (e : YamlError) : String := e.fault.message

namespace Yaml

variable {α β : Type}

/-! ## Descent -/

/-- Why a reading stops short. -/
inductive Halt where
  | refused (e : YamlError)
  /-- The fuel is used up. -/
  | exhausted

/-- The reading stops at the line. -/
def Line.refuse (line : Line) (fault : YamlFault) : Except Halt α :=
  .error (.refused { line := line.number, fault })

/-- The lines without those at the front that stand deeper than a column. -/
def skipDeeper (column : Nat) (lines : List Line) : List Line :=
  lines.dropWhile (column < ·.column)

mutual

/-- The mapping with the entries that follow in a column, and the lines behind them. -/
def readEntries : (fuel : Nat) → (column : Nat) → YamlMap → List Line →
    Except Halt (YamlMap × List Line)
  | 0, _, _, _ => .error .exhausted
  | _ + 1, _, entries, [] => .ok (entries, [])
  | fuel + 1, column, entries, line :: rest =>
    if line.column < column then .ok (entries, line :: rest)
    else if column < line.column then line.refuse .unexpectedIndentation
    else if isItem line.text then line.refuse .itemInMapping
    else do
      let (entries, rest) ← readEntry fuel column entries line.text rest
      readEntries fuel column entries rest
termination_by structural fuel => fuel

/-- The mapping with an entry that stands in a column, of which the lines below it may be a part. -/
def readEntry : (fuel : Nat) → (column : Nat) → YamlMap → (text : List Char) → List Line →
    Except Halt (YamlMap × List Line)
  | 0, _, _, _, _ => .error .exhausted
  | fuel + 1, column, entries, text, lines =>
    match splitEntry text with
    | none => .ok (entries, skipDeeper column lines)
    | some (key, value) =>
      if value.isEmpty then do
        let (v, rest) ← readNested fuel column lines
        .ok (entries.insert key v, rest)
      else if isTextBlock value then .ok (entries.insert key (.map []), skipDeeper column lines)
      else .ok (entries.insert key (ofScalar value), lines)
termination_by structural fuel => fuel

/-- The value below a key that stands in a column. The items of a sequence may stand in the column
of the key. -/
def readNested : (fuel : Nat) → (column : Nat) → List Line → Except Halt (Yaml × List Line)
  | 0, _, _ => .error .exhausted
  | _ + 1, _, [] => .ok (.map [], [])
  | fuel + 1, column, next :: rest =>
    if column < next.column then
      if isItem next.text then do
        let (items, rest) ← readItems fuel next.column [] (next :: rest)
        .ok (.seq items, rest)
      else do
        let (entries, rest) ← readEntries fuel next.column [] (next :: rest)
        .ok (.map entries, rest)
    else if next.column = column && isItem next.text then do
      let (items, rest) ← readItems fuel column [] (next :: rest)
      .ok (.seq items, rest)
    else .ok (.map [], next :: rest)
termination_by structural fuel => fuel

/-- The items that follow in a column, behind those that were read before. -/
def readItems : (fuel : Nat) → (column : Nat) → List Yaml → List Line →
    Except Halt (List Yaml × List Line)
  | 0, _, _, _ => .error .exhausted
  | _ + 1, _, items, [] => .ok (items, [])
  | fuel + 1, column, items, line :: rest =>
    if line.column < column || line.column = column && !isItem line.text then
      .ok (items, line :: rest)
    else if column < line.column then line.refuse .unexpectedIndentation
    else
      let behind := line.text.drop 1
      let item := Chars.trimStart behind
      if item.isEmpty then do
        let (v, rest) ←
          if rest.head?.any (column < ·.column) then readNested fuel column rest
          else .ok (.null, rest)
        readItems fuel column (items ++ [v]) rest
      else if isEntryItem item then do
        -- The entries of the item stand where its first key does.
        let inside := column + 1 + byteSize (behind.takeWhile Chars.isBlank)
        let (entries, rest) ← readEntry fuel inside [] item rest
        let (entries, rest) ← readEntries fuel inside entries rest
        readItems fuel column (items ++ [.map entries]) rest
      else readItems fuel column (items ++ [ofScalar item]) rest
termination_by structural fuel => fuel

end

/-! ## Fuel -/

/-- `P` holds of what is read and of the lines behind it, or `E` of what stops the reading. -/
def Meets (P : α → List Line → Prop) (E : Halt → Prop) : Except Halt (α × List Line) → Prop
  | .ok (v, rest) => P v rest
  | .error h => E h

theorem Meets.bind {P : α → List Line → Prop} {Q : β → List Line → Prop} {E : Halt → Prop}
    {r : Except Halt (α × List Line)} {f : α × List Line → Except Halt (β × List Line)}
    (h : Meets P E r) (hf : ∀ v rest, P v rest → Meets Q E (f (v, rest))) :
    Meets Q E (r >>= f) := by
  cases r with
  | ok x => exact hf x.1 x.2 h
  | error halt => exact h

theorem Meets.mono {P Q : α → List Line → Prop} {E : Halt → Prop}
    {r : Except Halt (α × List Line)} (h : Meets P E r) (hP : ∀ v rest, P v rest → Q v rest) :
    Meets Q E r := by
  cases r with
  | ok x => exact hP x.1 x.2 h
  | error halt => exact h

/-- The fuel lasts, and at most `n` lines are left. -/
abbrev Ends (n : Nat) : Except Halt (α × List Line) → Prop :=
  Meets (fun _ rest => rest.length ≤ n) (· ≠ .exhausted)

variable {n fuel column : Nat} {entries : YamlMap} {items : List Yaml} {text : List Char}
  {lines : List Line}

theorem Ends.mono {m : Nat} {r : Except Halt (α × List Line)} (h : Ends n r) (hle : n ≤ m) :
    Ends m r :=
  Meets.mono h fun _ _ hn => Nat.le_trans hn hle

theorem length_skipDeeper (column : Nat) (lines : List Line) :
    (skipDeeper column lines).length ≤ lines.length :=
  (List.dropWhile_sublist _).length_le

/-- The fuel is enough for as many lines as it has three calls for each. An entry costs two calls
before the next line is taken, and a value below a key costs one. -/
structure Enough (fuel : Nat) : Prop where
  entries : ∀ column entries lines, 3 * lines.length < fuel →
    Ends lines.length (readEntries fuel column entries lines)
  entry : ∀ column entries text lines, 3 * lines.length + 2 < fuel →
    Ends lines.length (readEntry fuel column entries text lines)
  nested : ∀ column lines, 3 * lines.length + 1 < fuel →
    Ends lines.length (readNested fuel column lines)
  items : ∀ column items lines, 3 * lines.length < fuel →
    Ends lines.length (readItems fuel column items lines)

namespace Enough

theorem entries_succ (h : Enough fuel) (hfuel : 3 * lines.length < fuel + 1) :
    Ends lines.length (readEntries (fuel + 1) column entries lines) := by
  cases lines with
  | nil => exact Nat.le_refl 0
  | cons line rest =>
    rw [List.length_cons] at hfuel ⊢
    unfold readEntries
    split
    · exact Nat.le_refl _
    · split
      · nofun
      · split
        · nofun
        · refine Meets.bind (h.entry column entries line.text rest (by omega)) fun _ left hle => ?_
          exact Ends.mono (h.entries column _ left (by omega)) (by omega)

theorem entry_succ (h : Enough fuel) (hfuel : 3 * lines.length + 2 < fuel + 1) :
    Ends lines.length (readEntry (fuel + 1) column entries text lines) := by
  have hskip := length_skipDeeper column lines
  unfold readEntry
  split
  · exact hskip
  · split
    · exact Meets.bind (h.nested column lines (by omega)) fun _ _ hle => hle
    · split
      · exact hskip
      · exact Nat.le_refl _

theorem nested_succ (h : Enough fuel) (hfuel : 3 * lines.length + 1 < fuel + 1) :
    Ends lines.length (readNested (fuel + 1) column lines) := by
  cases lines with
  | nil => exact Nat.le_refl 0
  | cons next rest =>
    have hfuel := Nat.lt_of_succ_lt_succ hfuel
    unfold readNested
    split
    · split
      · exact Meets.bind (h.items _ _ _ hfuel) fun _ _ hle => hle
      · exact Meets.bind (h.entries _ _ _ hfuel) fun _ _ hle => hle
    · split
      · exact Meets.bind (h.items _ _ _ hfuel) fun _ _ hle => hle
      · exact Nat.le_refl _

theorem items_succ (h : Enough fuel) (hfuel : 3 * lines.length < fuel + 1) :
    Ends lines.length (readItems (fuel + 1) column items lines) := by
  cases lines with
  | nil => exact Nat.le_refl 0
  | cons line rest =>
    rw [List.length_cons] at hfuel ⊢
    -- The line is taken, so what is left for the next call is shorter by one.
    have hnext : ∀ items left, left.length ≤ rest.length →
        Ends (rest.length + 1) (readItems fuel column items left) := fun items left hle =>
      Ends.mono (h.items column items left (by omega)) (by omega)
    unfold readItems
    split
    · exact Nat.le_refl _
    · split
      · nofun
      · dsimp only
        split
        · split
          · exact Meets.bind (h.nested column rest (by omega)) fun _ left hle => hnext _ left hle
          · exact hnext _ rest (Nat.le_refl _)
        · split
          · refine Meets.bind (h.entry _ [] _ rest (by omega)) fun _ left hle => ?_
            refine Meets.bind (h.entries _ _ left (by omega)) fun _ left' hle' => ?_
            exact hnext _ left' (Nat.le_trans hle' hle)
          · exact hnext _ rest (Nat.le_refl _)

end Enough

theorem enough : ∀ fuel, Enough fuel
  | 0 => ⟨fun _ _ _ h => by omega, fun _ _ _ _ h => by omega, fun _ _ h => by omega,
      fun _ _ _ h => by omega⟩
  | fuel + 1 =>
    have h := enough fuel
    ⟨fun _ _ _ => h.entries_succ, fun _ _ _ _ => h.entry_succ, fun _ _ => h.nested_succ,
      fun _ _ _ => h.items_succ⟩

/-! ## Documents -/

/-- What a reading comes to whose fuel lasts. -/
def result : (r : Except Halt α) → r ≠ .error .exhausted → Except YamlError α
  | .ok v, _ => .ok v
  | .error (.refused e), _ => .error e
  | .error .exhausted, h => absurd rfl h

theorem result_eq_ok {r : Except Halt α} {hr : r ≠ .error .exhausted} {v : α} (h : r = .ok v) :
    result r hr = .ok v := by
  subst h
  rfl

theorem result_eq_error {r : Except Halt α} {hr : r ≠ .error .exhausted} {e : YamlError}
    (h : r = .error (.refused e)) : result r hr = .error e := by
  subst h
  rfl

theorem Ends.ne_exhausted {r : Except Halt (α × List Line)} (h : Ends n r) :
    r ≠ .error .exhausted := by
  rintro rfl
  exact h rfl

/-- The mapping that lines form. The first line fixes the column of the top level. -/
def ofLines (lines : List Line) : Except YamlError YamlMap :=
  match lines with
  | [] => .ok []
  | first :: _ =>
    if isItem first.text then .error { line := first.number, fault := .sequenceAtTop }
    else do
      let (entries, rest) ← result (readEntries (3 * lines.length + 1) first.column [] lines)
        ((enough _).entries _ _ _ (Nat.lt_succ_self _)).ne_exhausted
      match rest with
      | [] => .ok entries
      | line :: _ => .error { line := line.number, fault := .unexpectedIndentation }

/-- The mapping that a document holds. -/
def parse (content : String) : Except YamlError YamlMap := ofLines (linesOf content)

end Yaml

end DockerSim

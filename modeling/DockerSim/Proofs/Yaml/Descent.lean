import DockerSim.Proofs.Yaml.Outline

/-!
# The descent and the outline

Reading by recursive descent and reading line by line come to the same (`ofLines_eq`). What the
functions of the descent were called for and have not done yet is what the outline holds: the blocks
that are open. So each call is compared with what the outline comes to over all the lines that are
left (`Outline.readOn`), whatever stands around the block that the call is for. They agree
(`Agrees`) when the outline with the value that the call gives comes to the same over the lines that
the call hands on, and when both refuse a line, it is the same one. The proof is by induction on the
fuel, for the four functions together (`Follows`).
-/

namespace DockerSim.Yaml

variable {α β : Type} {o o' : Outline} {line next : Line} {lines rest : List Line} {e : YamlError}

/-! ## Reading on -/

namespace Outline

/-- What the outline comes to over the lines that are left. -/
def readOn (o : Outline) (lines : List Line) : Except YamlError YamlMap :=
  (lines.foldlM step o).map close

theorem readOn_cons (h : o.step line = .ok o') : o.readOn (line :: rest) = o'.readOn rest := by
  unfold readOn
  rw [List.foldlM_cons, h]
  rfl

theorem readOn_refused (h : o.step line = .error e) : o.readOn (line :: rest) = .error e := by
  unfold readOn
  rw [List.foldlM_cons, h]
  rfl

/-- Reading goes on in the same way from outlines between which the next line makes no
difference. -/
theorem readOn_congr (hstep : ∀ line ∈ lines.head?, o.step line = o'.step line)
    (hclose : o.close = o'.close) : o.readOn lines = o'.readOn lines := by
  cases lines with
  | nil => exact congrArg Except.ok hclose
  | cons line rest =>
    unfold readOn
    rw [List.foldlM_cons, List.foldlM_cons, hstep line rfl]

/-- A block that the next line leaves, or that no line follows, is a value from then on. -/
theorem readOn_push {b : OpenBlock} (h : ∀ line ∈ lines.head?, b.place line = .leave) :
    (o.push b).readOn lines = (o.give b.close).readOn lines :=
  readOn_congr (fun line hline => step_push_leave (h line hline)) close_push

end Outline

namespace Seat

/-- What the document comes to when the entries of a mapping end: it has no more lines, or the
mapping is the value that the block around it waits for. -/
def leave (entries : YamlMap) (rest : List Line) : Seat → Except YamlError YamlMap
  | top =>
    match rest with
    | [] => .ok entries
    | line :: _ => .error { line := line.number, fault := .unexpectedIndentation }
  | inside o => (o.give (.map entries)).readOn rest

end Seat

/-! ## Agreement -/

/-- What is left to read comes to `x`, and over the lines behind the value that is read, to `k`. -/
abbrev Agrees (x : Except YamlError YamlMap) (k : α → List Line → Except YamlError YamlMap) :
    Except Halt (α × List Line) → Prop :=
  Meets (fun v rest => x = k v rest) fun
    | .refused e => x = .error e
    | .exhausted => True

theorem Agrees.bind {x : Except YamlError YamlMap} {k : α → List Line → Except YamlError YamlMap}
    {k' : β → List Line → Except YamlError YamlMap} {r : Except Halt (α × List Line)}
    {f : α × List Line → Except Halt (β × List Line)} (h : Agrees x k r)
    (hf : ∀ v rest, Agrees (k v rest) k' (f (v, rest))) : Agrees x k' (r >>= f) :=
  Meets.bind h fun v rest hx => hx ▸ hf v rest

/-- The line belongs to the value of a key in the column. -/
def Line.IsBelow (line : Line) (column : Nat) : Prop :=
  column < line.column ∨ line.column = column ∧ isItem line.text = true

/-- The last entry or item waits for a value: a line below it opens a block for the value inside
`o'`, and without such a line the value is an empty mapping. -/
structure Awaits (column : Nat) (lines : List Line) (o o' : Outline) : Prop where
  opens : ∀ line ∈ lines.head?, line.IsBelow column → o.step line = .ok (o'.opened line)
  empty : (∀ line ∈ lines.head?, ¬line.IsBelow column) →
    o.readOn lines = (o'.give (.map [])).readOn lines

/-- The calls of the descent with some fuel agree with the outline, each with the block that it is
for as the innermost one. -/
structure Follows (fuel : Nat) : Prop where
  entries : ∀ column entries lines (seat : Seat),
    Agrees ((seat.put ⟨column, entries, .none⟩).readOn lines)
      (fun entries rest => seat.leave entries rest) (readEntries fuel column entries lines)
  entry : ∀ column entries text lines (seat : Seat),
    Agrees ((seat.put (OpenMapping.add ⟨column, entries, .none⟩ text)).readOn lines)
      (fun entries rest => (seat.put ⟨column, entries, .none⟩).readOn rest)
      (readEntry fuel column entries text lines)
  nested : ∀ column lines o o', Awaits column lines o o' →
    Agrees (o.readOn lines) (fun v rest => (o'.give v).readOn rest) (readNested fuel column lines)
  items : ∀ column items lines (o : Outline),
    Agrees ((o.push (.sequence ⟨column, items, false⟩)).readOn lines)
      (fun items rest => (o.give (.seq items)).readOn rest) (readItems fuel column items lines)

namespace Follows

variable {fuel column : Nat} {entries : YamlMap} {items : List Yaml} {text : List Char}
  {seat : Seat}

/-! ### Lines that are passed over, values that are waited for -/

/-- Lines that are passed over make no difference. -/
theorem readOn_skipped (column : Nat) (entries : YamlMap) (seat : Seat) : ∀ lines : List Line,
    (seat.put ⟨column, entries, .skipped⟩).readOn lines =
      (seat.put ⟨column, entries, .none⟩).readOn (skipDeeper column lines)
  | [] => Outline.readOn_congr nofun (Seat.close_put rfl)
  | line :: rest => by
    by_cases hdeeper : column < line.column
    · have hplace : (⟨column, entries, .skipped⟩ : OpenMapping).place line = .skip := by
        simp [OpenMapping.place, hdeeper]
      rw [Outline.readOn_cons (Seat.step_skip hplace), readOn_skipped column entries seat rest,
        skipDeeper, skipDeeper, List.dropWhile_cons_of_pos (by simpa using hdeeper)]
    · rw [skipDeeper, List.dropWhile_cons_of_neg (by simpa using hdeeper)]
      refine Outline.readOn_congr ?_ (Seat.close_put rfl)
      rintro _ ⟨⟩
      exact Seat.step_settled rfl rfl rfl hdeeper (.inl rfl)

/-- A key waits for the value below it. -/
theorem awaits_key (column : Nat) (entries : YamlMap) (key : String) (seat : Seat)
    (lines : List Line) : Awaits column lines (seat.put ⟨column, entries, .value key⟩)
      (seat.put ⟨column, entries, .value key⟩) where
  opens line _ hbelow := by
    refine Seat.step_nest ?_
    rcases hbelow with hdeeper | ⟨hcolumn, hitem⟩
    · exact OpenMapping.place_below rfl hdeeper
    · simp [OpenMapping.place, hcolumn, hitem]
  empty hstays := by
    rw [Seat.give_put]
    refine Outline.readOn_congr (fun line hline => ?_) (Seat.close_put rfl)
    obtain ⟨hdeeper, haligned⟩ := not_or.1 (hstays line hline)
    exact Seat.step_settled rfl rfl rfl hdeeper (.inr haligned)

/-- A dash waits for the value below it, where a deeper line follows. -/
theorem awaits_dash (items : List Yaml) (o : Outline) (rest : List Line)
    (h : column < next.column) :
    Awaits column (next :: rest) (o.push (.sequence ⟨column, items, true⟩))
      (o.push (.sequence ⟨column, items, false⟩)) where
  opens := by
    rintro _ ⟨⟩ -
    exact Outline.step_push_nest (b := .sequence _) (OpenSequence.place_below rfl h)
  empty hstays := absurd (.inl h) (hstays next rfl)

/-- Without a deeper line, the item of a dash is null. -/
theorem readOn_dash {items : List Yaml} {o : Outline}
    (h : ¬rest.head?.any (column < ·.column) = true) :
    (o.push (.sequence ⟨column, items, true⟩)).readOn rest =
      (o.push (.sequence ⟨column, items ++ [.null], false⟩)).readOn rest := by
  refine Outline.readOn_congr (fun line hline => ?_) ?_
  · have hdeeper : ¬column < line.column := by
      rw [Option.mem_def.1 hline] at h
      simpa using h
    have hplace (items gap) := OpenSequence.place_of_not_lt (s := ⟨column, items, gap⟩) hdeeper
    by_cases hleave : (line.column < column || !isItem line.text) = true
    · simp only [if_pos hleave] at hplace
      rw [Outline.step_push_leave (b := .sequence _) (hplace _ _),
        Outline.step_push_leave (b := .sequence _) (hplace _ _)]
      rfl
    · simp only [if_neg hleave] at hplace
      rw [Outline.step_push_add (b := .sequence _) (hplace _ _),
        Outline.step_push_add (b := .sequence _) (hplace _ _)]
      rfl
  · rw [Outline.close_push, Outline.close_push]
    rfl

/-! ### One call more -/

/-- A line that the entries do not take, or the end, is left to what stands around them. -/
theorem readOn_left (h : ∀ line ∈ lines.head?, line.column < column) :
    (seat.put ⟨column, entries, .none⟩).readOn lines = seat.leave entries lines := by
  have hplace (line) (hline : line ∈ lines.head?) :
      (⟨column, entries, .none⟩ : OpenMapping).place line = .leave :=
    OpenMapping.place_left (h line hline)
  cases seat with
  | inside o => exact Outline.readOn_push (b := .mapping _) hplace
  | top =>
    cases lines with
    | nil => rfl
    | cons line rest => exact Outline.readOn_refused (Seat.step_top_leave (hplace line rfl))

theorem entries_succ (h : Follows fuel) :
    Agrees ((seat.put ⟨column, entries, .none⟩).readOn lines)
      (fun entries rest => seat.leave entries rest)
      (readEntries (fuel + 1) column entries lines) := by
  cases lines with
  | nil => exact readOn_left nofun
  | cons line rest =>
    unfold readEntries
    split
    · next hleft =>
      refine readOn_left ?_
      rintro _ ⟨⟩
      exact hleft
    · next hleft =>
      split
      · next hdeeper =>
        refine Outline.readOn_refused (Seat.step_refuse ?_)
        simp [OpenMapping.place, hdeeper]
      · next hdeeper =>
        split
        · next hitem =>
          refine Outline.readOn_refused (Seat.step_refuse ?_)
          simp [OpenMapping.place, hdeeper, hleft, hitem]
        · next hitem =>
          have hplace : (⟨column, entries, .none⟩ : OpenMapping).place line = .add :=
            OpenMapping.place_beside (by show line.column = column; omega) (by simpa using hitem)
          rw [Outline.readOn_cons (Seat.step_add hplace)]
          exact Agrees.bind (h.entry column entries line.text rest seat) fun entries rest =>
            h.entries column entries rest seat

theorem entry_succ (h : Follows fuel) :
    Agrees ((seat.put (OpenMapping.add ⟨column, entries, .none⟩ text)).readOn lines)
      (fun entries rest => (seat.put ⟨column, entries, .none⟩).readOn rest)
      (readEntry (fuel + 1) column entries text lines) := by
  have hclose : (⟨column, entries, .none⟩ : OpenMapping).close = entries := rfl
  unfold readEntry OpenMapping.add
  rw [hclose]
  dsimp only
  cases splitEntry text with
  | none => exact readOn_skipped column entries seat lines
  | some parts =>
    obtain ⟨key, value⟩ := parts
    dsimp only
    split
    · refine Agrees.bind (h.nested column lines _ _ (awaits_key column entries key seat lines)) ?_
      intro v rest
      rw [Seat.give_put]
      exact rfl
    · split
      · exact readOn_skipped column _ seat lines
      · exact rfl

theorem nested_succ (h : Follows fuel) (ho : Awaits column lines o o') :
    Agrees (o.readOn lines) (fun v rest => (o'.give v).readOn rest)
      (readNested (fuel + 1) column lines) := by
  cases lines with
  | nil => exact ho.empty nofun
  | cons next rest =>
    -- The outline takes the line that opens a block at once. The descent has only looked at it, and
    -- reads it as the first one of an empty block, which comes to the same.
    have items (hbelow : next.IsBelow column) (hitem : isItem next.text = true) :
        Agrees (o.readOn (next :: rest)) (fun v rest => (o'.give v).readOn rest)
          (readItems fuel next.column [] (next :: rest) >>= fun x => .ok (.seq x.1, x.2)) := by
      have hopens := ho.opens next rfl hbelow
      rw [Outline.readOn_cons hopens, ← Outline.readOn_cons (Outline.step_push_firstItem hitem)]
      exact Agrees.bind (h.items next.column [] (next :: rest) o') fun _ _ => rfl
    have entries (hbelow : next.IsBelow column) (hitem : isItem next.text = false) :
        Agrees (o.readOn (next :: rest)) (fun v rest => (o'.give v).readOn rest)
          (readEntries fuel next.column [] (next :: rest) >>= fun x => .ok (.map x.1, x.2)) := by
      have hopens := ho.opens next rfl hbelow
      rw [Outline.readOn_cons hopens, ← Outline.readOn_cons (Outline.step_push_firstEntry hitem)]
      exact Agrees.bind (h.entries next.column [] (next :: rest) (.inside o')) fun _ _ => rfl
    unfold readNested
    split
    · next hdeeper =>
      split
      · next hitem => exact items (.inl hdeeper) hitem
      · next hitem => exact entries (.inl hdeeper) (by simpa using hitem)
    · next hdeeper =>
      split
      · next haligned =>
        rw [Bool.and_eq_true, decide_eq_true_iff] at haligned
        obtain ⟨rfl, hitem⟩ := haligned
        exact items (.inr ⟨rfl, hitem⟩) hitem
      · next haligned =>
        refine ho.empty ?_
        rintro _ ⟨⟩ (hbelow | hbelow)
        · exact hdeeper hbelow
        · exact haligned (by simpa using hbelow)

/-- The item of a dash with nothing behind it is the value below, if there is one. -/
theorem dash_succ (h : Follows fuel)
    (hplace : (⟨column, items, false⟩ : OpenSequence).place line = .add)
    (hempty : (Chars.trimStart (line.text.drop 1)).isEmpty = true) :
    Agrees ((o.push (.sequence ⟨column, items, false⟩)).readOn (line :: rest))
      (fun items rest => (o.give (.seq items)).readOn rest)
      (if rest.head?.any (column < ·.column) then do
        let (v, rest) ← readNested fuel column rest
        readItems fuel column (items ++ [v]) rest
      else readItems fuel column (items ++ [.null]) rest) := by
  rw [Outline.readOn_cons (Outline.step_push_item hplace (OpenSequence.add_bareDash hempty))]
  split
  · next hnext =>
    cases rest with
    | nil => cases hnext
    | cons next rest =>
      have hdeeper : column < next.column := by simpa using hnext
      have hwaits := awaits_dash items o rest hdeeper
      exact Agrees.bind (h.nested column (next :: rest) _ _ hwaits) fun v rest =>
        h.items column (items ++ [v]) rest o
  · next hnext =>
    rw [readOn_dash hnext]
    exact h.items column (items ++ [.null]) rest o

/-- The mapping whose first entry is an item stands inside the sequence. -/
theorem entryItem_succ (h : Follows fuel)
    (hplace : (⟨column, items, false⟩ : OpenSequence).place line = .add)
    (hempty : ¬(Chars.trimStart (line.text.drop 1)).isEmpty = true)
    (hentry : isEntryItem (Chars.trimStart (line.text.drop 1)) = true) {inside : Nat}
    (hinside : inside = column + 1 + byteSize ((line.text.drop 1).takeWhile Chars.isBlank)) :
    Agrees ((o.push (.sequence ⟨column, items, false⟩)).readOn (line :: rest))
      (fun items rest => (o.give (.seq items)).readOn rest)
      (do
        let (entries, rest) ←
          readEntry fuel inside [] (Chars.trimStart (line.text.drop 1)) rest
        let (entries, rest) ← readEntries fuel inside entries rest
        readItems fuel column (items ++ [.map entries]) rest) := by
  subst hinside
  let seat := Seat.inside (o.push (.sequence ⟨column, items, false⟩))
  rw [Outline.readOn_cons
    (Outline.step_push_entryItem hplace (OpenSequence.add_entry hempty hentry))]
  refine Agrees.bind (h.entry _ [] _ rest seat) fun entries rest => ?_
  refine Agrees.bind (h.entries _ entries rest seat) fun entries rest => ?_
  exact h.items column (items ++ [.map entries]) rest o

theorem items_succ (h : Follows fuel) :
    Agrees ((o.push (.sequence ⟨column, items, false⟩)).readOn lines)
      (fun items rest => (o.give (.seq items)).readOn rest)
      (readItems (fuel + 1) column items lines) := by
  cases lines with
  | nil => exact Outline.readOn_push (b := .sequence _) nofun
  | cons line rest =>
    unfold readItems
    split
    · next hleave =>
      refine Outline.readOn_push (b := .sequence _) ?_
      rintro _ ⟨⟩
      simp only [Bool.or_eq_true, Bool.and_eq_true, decide_eq_true_iff] at hleave
      have hdeeper : ¬column < line.column := by omega
      refine (OpenSequence.place_of_not_lt (s := ⟨column, items, false⟩) hdeeper).trans (if_pos ?_)
      simp only [Bool.or_eq_true, decide_eq_true_iff]
      exact hleave.imp id And.right
    · next hstays =>
      simp only [Bool.or_eq_true, Bool.and_eq_true, decide_eq_true_iff, Bool.not_eq_true'] at hstays
      obtain ⟨hleft, hbeside⟩ := not_or.1 hstays
      split
      · next hdeeper =>
        refine Outline.readOn_refused (Outline.step_push_refuse (b := .sequence _) ?_)
        simp [OpenBlock.place, OpenSequence.place, hdeeper]
      · next hdeeper =>
        have hplace : (⟨column, items, false⟩ : OpenSequence).place line = .add := by
          have hcolumn : line.column = column := by omega
          exact OpenSequence.place_beside hcolumn (by simpa [hcolumn] using hbeside)
        dsimp only
        split
        · next hempty => exact h.dash_succ hplace hempty
        · next hempty =>
          split
          · next hentry => exact h.entryItem_succ hplace hempty hentry rfl
          · next hentry =>
            rw [Outline.readOn_cons
              (Outline.step_push_item hplace (OpenSequence.add_scalar hempty hentry))]
            exact h.items column _ rest o

end Follows

theorem follows : ∀ fuel, Follows fuel
  | 0 =>
    ⟨fun _ _ _ _ => trivial, fun _ _ _ _ _ => trivial, fun _ _ _ _ _ => trivial,
      fun _ _ _ _ => trivial⟩
  | fuel + 1 =>
    have h := follows fuel
    ⟨fun _ _ _ _ => h.entries_succ, fun _ _ _ _ _ => h.entry_succ,
      fun _ _ _ _ ho => h.nested_succ ho, fun _ _ _ _ => h.items_succ⟩

/-! ## The whole document -/

/-- What a reading gives whose fuel lasts is what it agrees with. -/
theorem Agrees.result {x : Except YamlError YamlMap}
    {k : α → List Line → Except YamlError YamlMap} {r : Except Halt (α × List Line)}
    (h : Agrees x k r) (hr : r ≠ .error .exhausted) :
    x = result r hr >>= fun (v, rest) => k v rest := by
  match r, h, hr with
  | .ok (v, rest), h, _ => exact h
  | .error (.refused e), h, _ => exact h
  | .error .exhausted, _, hr => exact absurd rfl hr

/-- **The descent reads what the outline holds in the end**, and refuses the line that is refused
there. -/
theorem ofLines_eq (lines : List Line) : ofLines lines = (outlineOf lines).map Outline.close := by
  cases lines with
  | nil => rfl
  | cons first lines =>
    unfold ofLines outlineOf
    dsimp only
    split
    · rfl
    · have h := follows (3 * (first :: lines).length + 1)
      exact ((h.entries first.column [] (first :: lines) .top).result _).symm

theorem parse_eq (content : String) :
    parse content = (outlineOf (linesOf content)).map Outline.close :=
  ofLines_eq _

theorem parse_of_outlineOf {content : String} {o : Outline}
    (h : outlineOf (linesOf content) = .ok o) : parse content = .ok o.close := by
  rw [parse_eq, h]
  rfl

end DockerSim.Yaml

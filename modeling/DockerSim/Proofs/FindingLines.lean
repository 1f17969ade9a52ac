import DockerSim.Compose.Check
import DockerSim.Dockerfile.Check
import DockerSim.Proofs.Yaml.Descent

/-!
# Findings point into the file

The line of a finding is the line of an instruction, of a key, or of the fault that stopped the
reader, and if there is none the first line. So whatever is true of the numbers of the lines of a
file is true of the line of each finding; in particular it is at most one more than the length of
the file.
-/

namespace DockerSim

theorem Chars.length_splitBy (p : Char → Bool) :
    ∀ cs : List Char, (Chars.splitBy p cs).length ≤ cs.length + 1
  | [] => Nat.le_refl 1
  | c :: cs => by
    have ih := length_splitBy p cs
    unfold splitBy
    cases h : splitBy p cs with
    | nil => exact absurd h (splitBy_ne_nil p cs)
    | cons piece pieces =>
      rw [h] at ih
      simp only [List.length_cons] at ih ⊢
      split
      · exact Nat.succ_le_succ ih
      · exact Nat.le_succ_of_le ih

theorem Chars.length_endLines : ∀ ls : List (List Char), (Chars.endLines ls).length ≤ ls.length
  | [] => Nat.le_refl 0
  | [last] => by
    unfold endLines
    split
    · exact Nat.zero_le _
    · exact Nat.le_refl _
  | line :: next :: rest => by
    unfold endLines
    exact Nat.succ_le_succ (length_endLines (next :: rest))

theorem Chars.length_lines (cs : List Char) : (Chars.lines cs).length ≤ cs.length + 1 :=
  Nat.le_trans (length_endLines _) (length_splitBy _ _)

/-- What is true of the numbers of so many lines, counted from the first. -/
def Numbers (P : Nat → Prop) (first count : Nat) : Prop := ∀ k, first ≤ k → k < first + count → P k

theorem Numbers.tail {P : Nat → Prop} {first count : Nat} (h : Numbers P first (count + 1)) :
    Numbers P (first + 1) count := fun k h1 h2 => h k (by omega) (by omega)

theorem Numbers.head {P : Nat → Prop} {first count : Nat} (h : Numbers P first (count + 1)) :
    P first := h first (Nat.le_refl _) (by omega)

variable {P : Nat → Prop}

/-- The lines of a text have numbers up to one more than its length. -/
theorem numbers_lines {content : String} (h : ∀ n, n ≤ content.length + 1 → P n) :
    Numbers P 1 (Chars.lines content.toList).length := by
  intro k _ hk
  have := Chars.length_lines content.toList
  rw [String.length_toList] at this
  exact h k (by omega)

/-! ## Dockerfiles -/

namespace Instruction

theorem line_ofText (line : Nat) (text : String) : (ofText line text).line = line := by
  unfold ofText
  dsimp only
  split <;> rfl

theorem line_of_mem_piecesFrom :
    ∀ {raws : List (List Char)} {n : Nat}, Numbers P n raws.length →
      ∀ p ∈ piecesFrom n raws, P p.line
  | [], n, _, p, hp => by
    unfold piecesFrom at hp
    cases hp
  | raw :: raws, n, h, p, hp => by
    unfold piecesFrom at hp
    rcases List.mem_append.1 hp with hp | hp
    · have hline : p.line = n := by
        have hp := Option.mem_toList.1 hp
        unfold Piece.ofLine? at hp
        dsimp only at hp
        split at hp
        · cases hp
        · split at hp
          · cases hp
            rfl
          · cases hp
            rfl
      rw [hline]
      exact h.head
    · exact line_of_mem_piecesFrom h.tail p hp

/-- An instruction stands on the line of its first piece. -/
theorem line_of_mem_group :
    ∀ {ps : List Piece} {started : Option (Nat × List Char)},
      (∀ line text, started = some (line, text) → P line) → (∀ p ∈ ps, P p.line) →
        ∀ i ∈ group started ps, P i.line
  | [], none, _, _, i, hi => by
    unfold group at hi
    cases hi
  | [], some (line, text), hs, _, i, hi => by
    unfold group at hi
    rw [List.mem_singleton.1 hi, line_ofText]
    exact hs line text rfl
  | p :: ps, started, hs, hp, i, hi => by
    have hline : P (extend started p).1 := by
      cases started with
      | none => exact hp p List.mem_cons_self
      | some s => exact hs s.1 s.2 rfl
    have hps : ∀ p ∈ ps, P p.line := fun q hq => hp q (List.mem_cons_of_mem _ hq)
    unfold group at hi
    generalize extend started p = begun at hline hi
    obtain ⟨line, text⟩ := begun
    dsimp only at hline hi
    split at hi
    · refine line_of_mem_group ?_ hps i hi
      intro line' text' he
      rw [Option.some.injEq, Prod.mk.injEq] at he
      rw [← he.1]
      exact hline
    · rcases List.mem_cons.1 hi with he | hi
      · rw [he, line_ofText]
        exact hline
      · refine line_of_mem_group ?_ hps i hi
        rintro line' text' ⟨⟩

theorem line_of_mem_ofContent {content : String}
    (h : Numbers P 1 (Chars.lines content.toList).length) :
    ∀ i ∈ ofContent content, P i.line := by
  refine line_of_mem_group ?_ (line_of_mem_piecesFrom h)
  rintro line text ⟨⟩

theorem length_piecesFrom : ∀ (raws : List (List Char)) (n : Nat),
    (piecesFrom n raws).length ≤ raws.length
  | [], n => Nat.le_refl 0
  | raw :: raws, n => by
    unfold piecesFrom
    have := length_piecesFrom raws (n + 1)
    cases Piece.ofLine? n raw with
    | none => exact Nat.le_succ_of_le this
    | some p => exact Nat.succ_le_succ this

theorem length_group : ∀ (ps : List Piece) (started : Option (Nat × List Char)),
    (group started ps).length ≤ ps.length + started.toList.length
  | [], none => Nat.le_refl 0
  | [], some s => Nat.le_refl 1
  | p :: ps, started => by
    unfold group
    generalize extend started p = begun
    obtain ⟨line, text⟩ := begun
    dsimp only
    split
    · have := length_group ps (some (line, text))
      simp only [Option.toList_some, List.length_cons, List.length_nil] at this ⊢
      omega
    · have := length_group ps none
      simp only [Option.toList_none, List.length_nil, List.length_cons] at this ⊢
      omega

/-- There are no more instructions than lines. -/
theorem length_ofContent (content : String) : (ofContent content).length ≤ content.length + 1 := by
  have h1 := length_group (piecesFrom 1 (Chars.lines content.toList)) none
  have h2 := length_piecesFrom (Chars.lines content.toList) 1
  have h3 := Chars.length_lines content.toList
  rw [String.length_toList] at h3
  unfold ofContent
  simp only [Option.toList_none, List.length_nil] at h1
  omega

end Instruction

namespace Dockerfile

variable {is : List Instruction}

theorem line_of_mem_checkEach :
    ∀ {is : List Instruction} {stages : List String}, (∀ i ∈ is, P i.line) →
      ∀ f ∈ checkEach stages is, P f.line
  | [], _, _, f, hf => by
    unfold checkEach at hf
    cases hf
  | i :: is, stages, h, f, hf => by
    unfold checkEach at hf
    rcases List.mem_append.1 hf with hf | hf
    · obtain ⟨p, -, rfl⟩ := List.mem_map.1 hf
      exact h i List.mem_cons_self
    · exact line_of_mem_checkEach (fun j hj => h j (List.mem_cons_of_mem _ hj)) f hf

theorem mem_of_getLast?_withKeyword {keyword : String} {i : Instruction}
    (h : (withKeyword keyword is).getLast? = some i) : i ∈ is :=
  (List.mem_filter.1 (List.mem_of_getLast? h)).1

theorem line_of_mem_checkFirst (h : ∀ i ∈ is, P i.line) : ∀ f ∈ checkFirst is, P f.line := by
  intro f hf
  unfold checkFirst at hf
  split at hf
  · next i hi =>
    split at hf
    · cases hf
    · rw [List.mem_singleton.1 hf]
      exact h i (List.mem_of_find?_eq_some hi)
  · cases hf

theorem line_of_mem_checkRuns (h : ∀ i ∈ is, P i.line) : ∀ f ∈ checkRuns is, P f.line := by
  intro f hf
  unfold checkRuns at hf
  dsimp only at hf
  split at hf
  · next i hi =>
    split at hf
    · rw [List.mem_singleton.1 hf]
      exact h i (mem_of_getLast?_withKeyword hi)
    · cases hf
  · cases hf

theorem line_of_mem_checkShellForms (h : ∀ i ∈ is, P i.line) :
    ∀ f ∈ checkShellForms is, P f.line := by
  intro f hf
  unfold checkShellForms at hf
  split at hf
  · next cmd entry hc he =>
    split at hf
    · cases hf
    · rw [List.mem_singleton.1 hf]
      show P (max cmd.line entry.line)
      rcases Nat.le_total cmd.line entry.line with hle | hle
      · rw [Nat.max_eq_right hle]
        exact h entry (mem_of_getLast?_withKeyword he)
      · rw [Nat.max_eq_left hle]
        exact h cmd (mem_of_getLast?_withKeyword hc)
  · cases hf

theorem line_of_mem_checkServing (h : ∀ i ∈ is, P i.line) :
    ∀ f ∈ checkServing is, P f.line := by
  intro f hf
  unfold checkServing at hf
  split at hf
  · cases hf
  · split at hf
    · next cmd hc =>
      dsimp only at hf
      split at hf
      · rw [List.mem_singleton.1 hf]
        exact h cmd (mem_of_getLast?_withKeyword hc)
      · cases hf
    · cases hf

theorem line_of_mem_checkInstructions (h : ∀ i ∈ is, P i.line) :
    ∀ f ∈ checkInstructions is, P f.line := by
  intro f hf
  unfold checkInstructions at hf
  split at hf
  · cases hf
  · next first rest =>
    split at hf
    · rw [List.mem_singleton.1 hf]
      exact h first List.mem_cons_self
    · simp only [List.mem_append] at hf
      rcases hf with (((hf | hf) | hf) | hf) | hf
      · exact line_of_mem_checkFirst h f hf
      · exact line_of_mem_checkEach h f hf
      · exact line_of_mem_checkRuns h f hf
      · exact line_of_mem_checkShellForms h f hf
      · exact line_of_mem_checkServing h f hf

/-- **A finding of a Dockerfile stands on one of its lines.** -/
theorem line_of_mem_check {content : String}
    (h : Numbers P 1 (Chars.lines content.toList).length) :
    ∀ f ∈ check content, P f.line :=
  line_of_mem_checkInstructions (Instruction.line_of_mem_ofContent h)

end Dockerfile

/-! ## Stack files -/

namespace Yaml

theorem number_of_mem_linesFrom :
    ∀ {raws : List (List Char)} {n : Nat} {started : Bool}, Numbers P n raws.length →
      ∀ l ∈ linesFrom n started raws, P l.number
  | [], n, started, _, l, hl => by
    unfold linesFrom at hl
    cases hl
  | raw :: raws, n, started, h, l, hl => by
    unfold linesFrom at hl
    split at hl
    · exact number_of_mem_linesFrom h.tail l hl
    · next line hline =>
      split at hl
      · exact number_of_mem_linesFrom h.tail l hl
      · rcases List.mem_cons.1 hl with rfl | hl
        · have hn : l.number = n := by
            unfold Line.ofChars? at hline
            dsimp only at hline
            split at hline
            · cases hline
            · cases hline
              rfl
          rw [hn]
          exact h.head
        · exact number_of_mem_linesFrom h.tail l hl

theorem line_of_ofLines_error {lines : List Line} {e : YamlError} (h : ∀ l ∈ lines, P l.number)
    (he : ofLines lines = .error e) : P e.line := by
  rw [ofLines_eq] at he
  cases ho : outlineOf lines with
  | error e' =>
    rw [ho] at he
    cases he
    obtain ⟨l, hl, hle⟩ := exists_of_outlineOf_error ho
    rw [hle]
    exact h l hl
  | ok o =>
    rw [ho] at he
    cases he

/-- A document that cannot be read is given up at one of its lines. -/
theorem line_of_parse_error {content : String} {e : YamlError}
    (h : Numbers P 1 (Chars.lines content.toList).length) (he : parse content = .error e) :
    P e.line :=
  line_of_ofLines_error (number_of_mem_linesFrom h) he

end Yaml

namespace Compose

theorem number_of_mem_scanFrom :
    ∀ {raws : List (List Char)} {n : Nat}, Numbers P n raws.length →
      ∀ l ∈ scanFrom n raws, P l.number
  | [], n, _, l, hl => by
    unfold scanFrom at hl
    cases hl
  | raw :: raws, n, h, l, hl => by
    unfold scanFrom at hl
    dsimp only at hl
    split at hl
    · exact number_of_mem_scanFrom h.tail l hl
    · rcases List.mem_cons.1 hl with rfl | hl
      · exact h.head
      · exact number_of_mem_scanFrom h.tail l hl

variable {lines : List ScanLine}

/-- The block of a service consists of lines of the file. -/
theorem mem_of_serviceBlock {service : String} {header : ScanLine} {block : List ScanLine}
    (h : serviceBlock lines service = some (header, block)) :
    ∀ l ∈ header :: block, l ∈ lines := by
  unfold serviceBlock at h
  dsimp only at h
  split at h
  · cases h
  · next first below hb =>
    split at h
    · cases h
    · split at h
      · next header' rest hd =>
        cases h
        have hsub : ∀ l ∈ header :: rest, l ∈ lines := by
          intro l hl
          rw [← hd] at hl
          have hl := (List.dropWhile_sublist _).mem hl
          exact (List.dropWhile_sublist _).mem (List.mem_of_mem_drop hl)
        intro l hl
        rcases List.mem_cons.1 hl with rfl | hl
        · exact hsub l List.mem_cons_self
        · exact hsub l (List.mem_cons_of_mem _ ((List.takeWhile_sublist _).mem hl))
      · cases h

theorem serviceLine_spec (h : ∀ l ∈ lines, P l.number) (h1 : P 1) (service : String) :
    P (serviceLine lines service) := by
  unfold serviceLine
  split
  · next header block hb => exact h _ (mem_of_serviceBlock hb _ List.mem_cons_self)
  · exact h1

theorem fieldLine_spec (h : ∀ l ∈ lines, P l.number) (h1 : P 1) (service key : String) :
    P (fieldLine lines service key) := by
  unfold fieldLine
  split
  · next header block hb =>
    split
    · next l hl =>
      exact h _ (mem_of_serviceBlock hb _ (List.mem_cons_of_mem _ (List.mem_of_find?_eq_some hl)))
    · exact h _ (mem_of_serviceBlock hb _ List.mem_cons_self)
  · exact h1

theorem line_of_mem_checkService {around : Surroundings} {name : String} {svc : YamlMap}
    (h : ∀ l ∈ lines, P l.number) (h1 : P 1) :
    ∀ f ∈ checkService around lines name svc, P f.line := by
  have atService : ∀ (ps : List ComposeProblem),
      ∀ f ∈ ps.map (·.finding (serviceLine lines name)), P f.line := by
    intro ps f hf
    obtain ⟨p, -, rfl⟩ := List.mem_map.1 hf
    exact serviceLine_spec h h1 name
  have atKey : ∀ (key : String) (ps : List ComposeProblem),
      ∀ f ∈ ps.map (·.finding (fieldLine lines name key)), P f.line := by
    intro key ps f hf
    obtain ⟨p, -, rfl⟩ := List.mem_map.1 hf
    exact fieldLine_spec h h1 name key
  intro f hf
  unfold checkService at hf
  simp only [List.mem_append] at hf
  rcases hf with (((((((hf | hf) | hf) | hf) | hf) | hf) | hf) | hf) | hf
  · exact atService _ f hf
  · exact atKey _ _ f hf
  · exact atKey _ _ f hf
  · exact atKey _ _ f hf
  · exact atKey _ _ f hf
  · exact atKey _ _ f hf
  · exact atKey _ _ f hf
  · exact atKey _ _ f hf
  · exact atService _ f hf

/-- **A finding of a stack file stands on one of its lines, or on the first.** -/
theorem line_of_mem_check {content : String} {paths : List String}
    (h : Numbers P 1 (Chars.lines content.toList).length) (h1 : P 1) :
    ∀ f ∈ check content paths, P f.line := by
  intro f hf
  unfold check at hf
  split at hf
  · next e he =>
    rw [List.mem_singleton.1 hf]
    exact Yaml.line_of_parse_error h he
  · next doc hdoc =>
    unfold checkDocument at hf
    split at hf
    · split at hf
      · cases hf
      · rw [List.mem_singleton.1 hf]
        exact h1
    · next services hs =>
      obtain ⟨⟨name, value⟩, -, hf⟩ := List.mem_flatMap.1 hf
      dsimp only at hf
      split at hf
      · exact line_of_mem_checkService (number_of_mem_scanFrom h) h1 f hf
      · cases hf
    · cases hf

end Compose

end DockerSim

import DockerSim.Proofs.Yaml.Reading
import Mathlib.Order.Bounds.Basic

/-!
# The line that a document fails at

A document that is refused is refused at a line, and what is behind that line does not matter: the
number in the error is the least number of lines, from the beginning, that are refused by themselves
(`parse_fails_iff`). So the lines in front of it make a document that is read, and every document
that begins with the lines up to it fails at it, and with the same fault.

The descent looks at lines that it does not take, and a document that ends may leave any number of
its calls open. So the proof is about reading line by line, which comes to the same (`parse_eq`):
there a line is refused before the next one is looked at, and an outline can always be closed.
-/

namespace DockerSim

/-! ## The first lines of a text -/

/-- The text up to the line feed that ends its `m`-th line, or all of it. -/
def Chars.firstLines : Nat → List Char → List Char
  | 0, _ => []
  | _ + 1, [] => []
  | m + 1, c :: cs => c :: if c = '\n' then firstLines m cs else firstLines (m + 1) cs

/-- The document made of the first `m` lines of a document. -/
def Yaml.firstLines (m : Nat) (content : String) : String :=
  .ofList (Chars.firstLines m content.toList)

namespace Chars

variable {line : List Char}

theorem firstLines_append_feed (h : '\n' ∉ line) (m : Nat) (rest : List Char) :
    firstLines (m + 1) (line ++ '\n' :: rest) = line ++ '\n' :: firstLines m rest := by
  induction line with
  | nil => rfl
  | cons c line ih =>
    obtain ⟨hc, hline⟩ := not_or.1 fun hmem => h (List.mem_cons.2 hmem)
    rw [List.cons_append, firstLines, if_neg (Ne.symm hc), ih hline, List.cons_append]

theorem firstLines_of_not_mem (h : '\n' ∉ line) (m : Nat) : firstLines (m + 1) line = line := by
  induction line with
  | nil => rfl
  | cons c line ih =>
    obtain ⟨hc, hline⟩ := not_or.1 fun hmem => h (List.mem_cons.2 hmem)
    rw [firstLines, if_neg (Ne.symm hc), ih hline]

/-- **The lines of the first lines are the first lines**, each without its line end. -/
theorem lines_firstLines (m : Nat) (cs : List Char) :
    lines (firstLines m cs) = (lines cs).take m := by
  induction m generalizing cs with
  | zero => rw [firstLines]; rfl
  | succ m ih =>
    by_cases h : '\n' ∈ cs
    · obtain ⟨line, rest, rfl, hline⟩ := List.eq_append_cons_of_mem h
      rw [firstLines_append_feed hline, lines_append_feed hline, lines_append_feed hline, ih,
        List.take_succ_cons]
    · rw [firstLines_of_not_mem h, lines_of_not_mem h]
      split <;> simp

end Chars

namespace Yaml

/-! ## Errors of the first lines -/

variable {front rest : List Line} {e : YamlError}

/-- Lines behind the one that is refused are not looked at. -/
theorem outlineOf_append_of_error (h : outlineOf front = .error e) (rest : List Line) :
    outlineOf (front ++ rest) = .error e := by
  have hne : front ≠ [] := by
    rintro rfl
    cases h
  rw [outlineOf_append hne, h]
  rfl

/-- Lines in front of the one that is refused are not to blame. -/
theorem outlineOf_error_of_append (h : outlineOf (front ++ rest) = .error e) :
    outlineOf front = .error e ∨ ∃ l ∈ rest, e.line = l.number := by
  by_cases hne : front = []
  · rw [hne] at h
    exact .inr (exists_of_outlineOf_error h)
  · rw [outlineOf_append hne] at h
    cases ho : outlineOf front with
    | error e' =>
      rw [ho] at h
      cases h
      exact .inl rfl
    | ok o =>
      rw [ho] at h
      exact .inr (Outline.line_of_foldlM_error h)

/-- What raw lines are refused for, as the lines of a document. -/
def Fails (raws : List (List Char)) (e : YamlError) : Prop :=
  outlineOf (linesFrom 1 false raws) = .error e

theorem parse_eq_error_iff {content : String} :
    parse content = .error e ↔ Fails (Chars.lines content.toList) e := by
  unfold Fails
  rw [parse_eq, linesOf]
  cases outlineOf (linesFrom 1 false (Chars.lines content.toList)) with
  | error e' => exact ⟨fun h => by cases h; rfl, fun h => by cases h; rfl⟩
  | ok o => exact ⟨nofun, nofun⟩

theorem parse_firstLines_eq_error_iff {content : String} {m : Nat} :
    parse (firstLines m content) = .error e ↔ Fails ((Chars.lines content.toList).take m) e := by
  rw [parse_eq_error_iff, firstLines, String.toList_ofList, Chars.lines_firstLines]

variable {raws raws' : List (List Char)} {m : Nat}

theorem Fails.unique {e' : YamlError} (h : Fails raws e) (h' : Fails raws e') : e = e' := by
  have := h.symm.trans h'
  cases this
  rfl

theorem Fails.append (h : Fails raws e) (raws' : List (List Char)) : Fails (raws ++ raws') e := by
  obtain ⟨started, -, happend⟩ := linesFrom_append raws 1 false
  unfold Fails
  rw [happend]
  exact outlineOf_append_of_error h _

theorem Fails.of_take (h : Fails (raws.take m) e) : Fails raws e := by
  rw [← List.take_append_drop m raws]
  exact h.append _

/-- The line of the error is one of the lines. -/
theorem Fails.line_le (h : Fails raws e) : e.line ≤ raws.length := by
  obtain ⟨l, hl, he⟩ := exists_of_outlineOf_error h
  have := number_bounds hl
  omega

/-- The lines up to that of the error fail by themselves. -/
theorem Fails.take (h : Fails raws e) : Fails (raws.take e.line) e := by
  obtain ⟨started, -, happend⟩ := linesFrom_append (raws.take e.line) 1 false
  have hall := h
  unfold Fails at hall
  rw [← List.take_append_drop e.line raws, happend] at hall
  refine (outlineOf_error_of_append hall).resolve_right fun ⟨l, hl, he⟩ => ?_
  -- The lines that are cut off have greater numbers.
  have hnumber := number_bounds hl
  rw [List.length_take, Nat.min_eq_left h.line_le] at hnumber
  omega

/-- Fewer lines do not fail. -/
theorem Fails.not_take (h : Fails raws e) (hm : m < e.line) (e' : YamlError) :
    ¬Fails (raws.take m) e' := by
  intro h'
  cases h.unique h'.of_take
  have hle := h'.line_le
  rw [List.length_take] at hle
  omega

/-- **A document fails at the least number of lines that fail.** If it does, every document that
begins with these lines fails at the same line and with the same fault, and fewer lines of it make a
document that is read. -/
theorem parse_fails_iff (content : String) (n : Nat) :
    ((∃ e, parse content = .error e ∧ e.line = n) ↔
      IsLeast {m | ∃ e, parse (firstLines m content) = .error e} n) ∧
    ∀ e, parse content = .error e → e.line = n →
      (∀ content', (Chars.lines content'.toList).take n = (Chars.lines content.toList).take n →
        parse content' = .error e) ∧
      ∀ m < n, ∃ doc, parse (firstLines m content) = .ok doc := by
  refine ⟨⟨?_, ?_⟩, ?_⟩
  · rintro ⟨e, h, rfl⟩
    rw [parse_eq_error_iff] at h
    refine ⟨⟨e, parse_firstLines_eq_error_iff.2 h.take⟩, fun m ⟨e', h'⟩ => ?_⟩
    by_contra hm
    exact h.not_take (Nat.lt_of_not_le hm) e' (parse_firstLines_eq_error_iff.1 h')
  · rintro ⟨⟨e, h⟩, hleast⟩
    rw [parse_firstLines_eq_error_iff] at h
    have hall := h.of_take
    refine ⟨e, parse_eq_error_iff.2 hall, Nat.le_antisymm ?_ ?_⟩
    · have hle := h.line_le
      rw [List.length_take] at hle
      omega
    · exact hleast ⟨e, parse_firstLines_eq_error_iff.2 hall.take⟩
  · rintro e h rfl
    rw [parse_eq_error_iff] at h
    refine ⟨fun content' hshared => ?_, fun m hm => ?_⟩
    · have hfirst := h.take
      rw [← hshared] at hfirst
      exact parse_eq_error_iff.2 hfirst.of_take
    · cases hparse : parse (firstLines m content) with
      | ok doc => exact ⟨doc, rfl⟩
      | error e' => exact (h.not_take hm e' (parse_firstLines_eq_error_iff.1 hparse)).elim

/-- An entry that stands too deep, behind a comment and a line that a carriage return ends. -/
theorem parse_fails_iff_deeper :
    parse "# web\r\na: 1\r\n   b: 2\n- c\n" = .error ⟨3, .unexpectedIndentation⟩ ∧
      IsLeast {m | ∃ e, parse (firstLines m "# web\r\na: 1\r\n   b: 2\n- c\n") = .error e} 3 ∧
      parse "# web\na: 1\n   b: 2\nd: [" = .error ⟨3, .unexpectedIndentation⟩ ∧
      ∃ doc, parse (firstLines 2 "# web\r\na: 1\r\n   b: 2\n- c\n") = .ok doc := by
  have hfails : parse "# web\r\na: 1\r\n   b: 2\n- c\n" = .error ⟨3, .unexpectedIndentation⟩ := by
    rw [parse_eq]
    rfl
  obtain ⟨hiff, hbegins⟩ := parse_fails_iff "# web\r\na: 1\r\n   b: 2\n- c\n" 3
  obtain ⟨hsame, hread⟩ := hbegins _ hfails rfl
  exact ⟨hfails, hiff.1 ⟨_, hfails, rfl⟩, hsame _ (by decide +kernel), hread 2 (by decide)⟩

end Yaml

end DockerSim

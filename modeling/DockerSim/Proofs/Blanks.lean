import Mathlib.Data.List.TakeWhile
import Mathlib.Tactic.Conv
import DockerSim.Chars.Cut

/-!
# Blanks

Blanks at an end of a text and between its words. What is trimmed off is blank, and the words of a
text are not changed by trimming; a text that is cut at a blank has the words of its two parts
(`words_append_cons`).
-/

namespace DockerSim.Chars

variable {a b cs : List Char}

/-! ## Blanks at an end -/

theorem trimStart_cons {c : Char} (h : isBlank c = false) : trimStart (c :: cs) = c :: cs := by
  unfold trimStart
  rw [List.dropWhile_cons, h]
  rfl

theorem trimStart_append (h : ∀ c ∈ a, isBlank c = true) (b : List Char) :
    trimStart (a ++ b) = trimStart b := List.dropWhile_append_of_pos h

theorem trimStart_of_head (h : ∀ c ∈ cs.head?, isBlank c = false) : trimStart cs = cs := by
  cases cs with
  | nil => rfl
  | cons c cs => exact trimStart_cons (h c rfl)

theorem trimEnd_eq_nil_iff : trimEnd cs = [] ↔ ∀ c ∈ cs, isBlank c = true := by
  unfold trimEnd
  rw [List.reverse_eq_nil_iff, List.dropWhile_eq_nil_iff]
  simp only [List.mem_reverse]

/-- Trimming at the end stops at what is not blank. -/
theorem trimEnd_append (h : trimEnd b ≠ []) (a : List Char) :
    trimEnd (a ++ b) = a ++ trimEnd b := by
  have hb : (b.reverse.dropWhile isBlank).isEmpty = false := by
    simpa [trimEnd] using h
  unfold trimEnd
  rw [List.reverse_append, List.dropWhile_append, hb, if_neg Bool.false_ne_true,
    List.reverse_append, List.reverse_reverse]

theorem trimEnd_append_blank (h : ∀ c ∈ b, isBlank c = true) (a : List Char) :
    trimEnd (a ++ b) = trimEnd a := by
  have hb : b.reverse.dropWhile isBlank = [] := by simpa using h
  unfold trimEnd
  rw [List.reverse_append, List.dropWhile_append, hb]
  rfl

theorem trimEnd_cons {c : Char} (h : isBlank c = false) (cs : List Char) :
    trimEnd (c :: cs) = c :: trimEnd cs := by
  by_cases hcs : trimEnd cs = []
  · rw [hcs, ← List.singleton_append, trimEnd_append_blank (trimEnd_eq_nil_iff.1 hcs)]
    unfold trimEnd
    simp [h]
  · rw [← List.singleton_append, trimEnd_append hcs, List.singleton_append]

/-- What is trimmed off at the end is blank. -/
theorem exists_trimEnd_append (cs : List Char) :
    ∃ blank, cs = trimEnd cs ++ blank ∧ ∀ c ∈ blank, isBlank c = true := by
  refine ⟨(cs.reverse.takeWhile isBlank).reverse, ?_, fun c hc => ?_⟩
  · unfold trimEnd
    rw [← List.reverse_append, List.takeWhile_append_dropWhile, List.reverse_reverse]
  · exact List.mem_takeWhile_imp (List.mem_reverse.1 hc)

theorem trimEnd_trimEnd (cs : List Char) : trimEnd (trimEnd cs) = trimEnd cs := by
  obtain ⟨blank, hcs, hblank⟩ := exists_trimEnd_append cs
  conv_rhs => rw [hcs]
  exact (trimEnd_append_blank hblank _).symm

theorem trimStart_trimEnd (cs : List Char) : trimStart (trimEnd cs) = trimEnd (trimStart cs) := by
  induction cs with
  | nil => rfl
  | cons c cs ih =>
    cases hc : isBlank c with
    | false => rw [trimStart_cons hc, trimEnd_cons hc, trimStart_cons hc]
    | true =>
      have hstart : trimStart (c :: cs) = trimStart cs := List.dropWhile_cons_of_pos hc
      rw [hstart, ← ih]
      by_cases hcs : trimEnd cs = []
      · have hall : ∀ d ∈ c :: cs, isBlank d = true :=
          List.forall_mem_cons.2 ⟨hc, trimEnd_eq_nil_iff.1 hcs⟩
        rw [hcs, trimEnd_eq_nil_iff.2 hall]
      · rw [← List.singleton_append, trimEnd_append hcs]
        exact List.dropWhile_cons_of_pos hc

theorem trim_trimEnd (cs : List Char) : trim (trimEnd cs) = trim cs := by
  unfold trim
  rw [trimStart_trimEnd, trimEnd_trimEnd]

theorem isBlank_of_trimStart {c : Char} {rest : List Char} (h : trimStart cs = c :: rest) :
    isBlank c = false := by
  have hhead := List.head?_dropWhile_not isBlank cs
  unfold trimStart at h
  rw [h] at hhead
  simpa using hhead

theorem trim_eq_nil_iff : trim cs = [] ↔ ∀ c ∈ cs, isBlank c = true := by
  unfold trim
  rw [← trimStart_trimEnd, ← trimEnd_eq_nil_iff]
  refine ⟨fun h => ?_, fun h => by rw [h]; rfl⟩
  have hall := trimEnd_eq_nil_iff.2 (List.dropWhile_eq_nil_iff.1 h)
  rwa [trimEnd_trimEnd] at hall

/-- What is trimmed begins where its first character that is not blank is. -/
theorem exists_of_trim {c : Char} {rest : List Char} (h : trim cs = c :: rest) :
    isBlank c = false ∧ ∃ rest, trimStart cs = c :: rest := by
  unfold trim at h
  cases hs : trimStart cs with
  | nil => rw [hs] at h; cases h
  | cons d rest =>
    have hd := isBlank_of_trimStart hs
    rw [hs, trimEnd_cons hd] at h
    obtain ⟨rfl, -⟩ := List.cons.inj h
    exact ⟨hd, rest, rfl⟩

/-! ## Words -/

theorem splitBy_eq_splitOnP (p : Char → Bool) : ∀ cs : List Char, splitBy p cs = cs.splitOnP p
  | [] => List.splitOnP_nil.symm
  | c :: cs => by
    rw [List.splitOnP_cons_eq_if_modifyHead, ← splitBy_eq_splitOnP p cs, splitBy]
    cases h : splitBy p cs with
    | nil => exact absurd h (splitBy_ne_nil p cs)
    | cons piece pieces => rfl

/-- **A text that is cut at a blank has the words of its two parts.** -/
theorem words_append_cons {c : Char} (h : isBlank c = true) (a b : List Char) :
    words (a ++ c :: b) = words a ++ words b := by
  unfold words
  rw [splitBy_eq_splitOnP, splitBy_eq_splitOnP, splitBy_eq_splitOnP,
    List.splitOnP_append_cons _ _ h, List.filter_append]

theorem words_nil : words [] = [] := rfl

theorem words_cons {c : Char} (h : isBlank c = true) (cs : List Char) :
    words (c :: cs) = words cs := words_append_cons h [] cs

theorem words_append_blank (h : ∀ c ∈ b, isBlank c = true) (a : List Char) :
    words (a ++ b) = words a := by
  induction b generalizing a with
  | nil => rw [List.append_nil]
  | cons c b ih =>
    obtain ⟨hc, hb⟩ := List.forall_mem_cons.1 h
    rw [words_append_cons hc, ← List.nil_append b, ih hb, words_nil, List.append_nil]

theorem words_trimStart (cs : List Char) : words (trimStart cs) = words cs := by
  induction cs with
  | nil => rfl
  | cons c cs ih =>
    cases hc : isBlank c with
    | false => rw [trimStart_cons hc]
    | true => rw [words_cons hc, ← ih, trimStart, List.dropWhile_cons_of_pos hc, trimStart]

theorem words_trimEnd (cs : List Char) : words (trimEnd cs) = words cs := by
  obtain ⟨blank, hcs, hblank⟩ := exists_trimEnd_append cs
  conv_rhs => rw [hcs]
  exact (words_append_blank hblank _).symm

theorem words_trim (cs : List Char) : words (trim cs) = words cs := by
  unfold trim
  rw [words_trimEnd, words_trimStart]

/-- Characters without a blank among them are one word. -/
theorem words_eq_singleton (hne : cs ≠ []) (h : ∀ c ∈ cs, isBlank c = false) :
    words cs = [cs] := by
  unfold words
  rw [splitBy_eq_splitOnP, List.splitOnP_eq_singleton h]
  simpa using hne

theorem cutWhere_eq_none_iff {p : Char → Bool} :
    cutWhere p cs = none ↔ ∀ c ∈ cs, p c = false := by
  induction cs with
  | nil => simp [cutWhere]
  | cons c cs ih =>
    unfold cutWhere
    cases hc : p c with
    | true => simp [hc]
    | false => simp [hc, ih]

end DockerSim.Chars

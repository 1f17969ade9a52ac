import DockerSim.Chars.Blank

/-!
# Cutting text

Cutting a text in two at its first or last separator, cutting off a given beginning, cutting it into
lines, and the tests for an occurrence inside it.
-/

namespace DockerSim.Chars

/-- What stands before and after the first character that satisfies `p`. -/
def cutWhere (p : Char → Bool) : List Char → Option (List Char × List Char)
  | [] => none
  | c :: cs =>
    if p c then some ([], cs)
    else (cutWhere p cs).map fun (before, after) => (c :: before, after)

/-- What stands before and after the first `sep`. -/
def cut (sep : Char) (cs : List Char) : Option (List Char × List Char) := cutWhere (· == sep) cs

/-- What stands before and after the last `sep`. -/
def cutLast (sep : Char) : List Char → Option (List Char × List Char)
  | [] => none
  | c :: cs =>
    match cutLast sep cs with
    | some (before, after) => some (c :: before, after)
    | none => if c = sep then some ([], cs) else none

/-- What follows `beginning`, when the text starts with it. -/
def after? : (beginning cs : List Char) → Option (List Char)
  | [], cs => some cs
  | _ :: _, [] => none
  | b :: bs, c :: cs => if b = c then after? bs cs else none

/-- `part` occurs in the text as a run of neighbouring characters. -/
def holds (part : List Char) : List Char → Bool
  | [] => part.isEmpty
  | c :: cs => (after? part (c :: cs)).isSome || holds part cs

/-- The line without the carriage return that ends it, if one does. -/
def dropReturn (cs : List Char) : List Char :=
  if cs.getLast? = some '\r' then cs.dropLast else cs

/-- Line feeds end lines: the piece after the last one is a line only when it holds something, and
only a line that is ended loses its carriage return. -/
def endLines : List (List Char) → List (List Char)
  | [] => []
  | [last] => if last.isEmpty then [] else [last]
  | line :: lines => dropReturn line :: endLines lines

/-- The lines of a text, without their line ends. -/
def lines (cs : List Char) : List (List Char) := endLines (split '\n' cs)

theorem after?_eq_some_iff : ∀ {b cs rest : List Char}, after? b cs = some rest ↔ cs = b ++ rest
  | [], cs, rest => by simp [after?]
  | b :: bs, [], rest => by simp [after?]
  | b :: bs, c :: cs, rest => by
    unfold after?
    split
    · next h => subst h; simp [after?_eq_some_iff]
    · next h => simp; intro hc; exact absurd hc.symm h

theorem cutWhere_eq_some {p : Char → Bool} :
    ∀ {cs before after : List Char}, cutWhere p cs = some (before, after) →
      ∃ c, p c = true ∧ (∀ x ∈ before, p x = false) ∧ cs = before ++ c :: after
  | [], _, _, h => by simp [cutWhere] at h
  | c :: cs, before, after, h => by
    unfold cutWhere at h
    split at h
    · next hc => simp at h; obtain ⟨rfl, rfl⟩ := h; exact ⟨c, hc, by simp, rfl⟩
    · next hc =>
      simp only [Option.map_eq_some_iff, Prod.exists] at h
      obtain ⟨b, a, h', he⟩ := h
      simp at he
      obtain ⟨rfl, rfl⟩ := he
      obtain ⟨d, hd, hb, rfl⟩ := cutWhere_eq_some h'
      refine ⟨d, hd, ?_, rfl⟩
      intro x hx
      rcases List.mem_cons.1 hx with rfl | hx
      · simpa using hc
      · exact hb x hx

theorem cutLast_eq_some {sep : Char} :
    ∀ {cs before after : List Char}, cutLast sep cs = some (before, after) →
      sep ∉ after ∧ cs = before ++ sep :: after
  | [], _, _, h => by simp [cutLast] at h
  | c :: cs, before, after, h => by
    unfold cutLast at h
    split at h
    · next b a h' =>
      simp at h
      obtain ⟨rfl, rfl⟩ := h
      obtain ⟨h1, rfl⟩ := cutLast_eq_some h'
      exact ⟨h1, rfl⟩
    · next h' =>
      split at h
      · next hc =>
        simp at h
        obtain ⟨rfl, rfl⟩ := h
        exact ⟨cutLast_none_not_mem h', by simp [hc]⟩
      · simp at h
where
  cutLast_none_not_mem : ∀ {cs : List Char}, cutLast sep cs = none → sep ∉ cs
    | [], _ => by simp
    | c :: cs, h => by
      unfold cutLast at h
      split at h
      · simp at h
      · next h' =>
        split at h
        · simp at h
        · next hc =>
          simp only [List.mem_cons, not_or]
          exact ⟨fun e => hc e.symm, cutLast_none_not_mem h'⟩

end DockerSim.Chars

import DockerSim.ImageName
import DockerSim.Proofs.Spellings

/-!
# Names of images

A reference is split into a repository and a tag at its last colon, unless a slash follows
(`splitTag_eq_some_iff`). The image that it names is named by its full name, too: the full name of
an image is split at the colon that it was put together with (`ofReference_key`).
-/

namespace DockerSim.ImageName

variable {reference repository tag : String}

theorem splitTag_append (hcolon : ':' ∉ tag.toList) :
    splitTag (repository ++ ":" ++ tag) =
      if Text.has '/' tag then (repository ++ ":" ++ tag, none) else (repository, some tag) := by
  have hcut : Text.cutLast ':' (repository ++ ":" ++ tag) = some (repository, tag) := by
    have hchars : Chars.cutLast ':' (repository ++ ":" ++ tag).toList =
        some (repository.toList, tag.toList) :=
      Chars.cutLast_eq_some_iff.2 ⟨hcolon, by simp⟩
    rw [Text.cutLast, hchars]
    simp
  rw [splitTag, hcut]

/-- **How a tag is written**: behind the last colon, and without a slash. -/
theorem splitTag_eq_some_iff : splitTag reference = (repository, some tag) ↔
    reference = repository ++ ":" ++ tag ∧ ':' ∉ tag.toList ∧ '/' ∉ tag.toList := by
  constructor
  · intro h
    unfold splitTag Text.cutLast at h
    cases hc : Chars.cutLast ':' reference.toList with
    | none =>
      rw [hc] at h
      cases h
    | some parts =>
      obtain ⟨before, after⟩ := parts
      obtain ⟨hcolon, hchars⟩ := Chars.cutLast_eq_some hc
      rw [hc] at h
      dsimp only [Option.map_some] at h
      split at h
      · cases h
      · next hslash =>
        cases h
        refine ⟨?_, by rwa [String.toList_ofList], by simpa [Text.has] using hslash⟩
        rw [← String.toList_inj, hchars]
        simp
  · rintro ⟨rfl, hcolon, hslash⟩
    rw [splitTag_append hcolon, if_neg]
    simpa [Text.has] using hslash

/-- A tag is not empty, and holds nothing that a reference is split at. -/
theorem tag_ofReference (reference : String) :
    (ofReference reference).tag ≠ "" ∧ ':' ∉ (ofReference reference).tag.toList ∧
      '/' ∉ (ofReference reference).tag.toList := by
  have hlatest : latest ≠ "" ∧ ':' ∉ latest.toList ∧ '/' ∉ latest.toList := by decide
  unfold ofReference
  split
  · next repository tag hs =>
    obtain ⟨-, hcolon, hslash⟩ := splitTag_eq_some_iff.1 hs
    dsimp only
    split
    · exact hlatest
    · next hne => exact ⟨hne, hcolon, hslash⟩
  · exact hlatest

/-- The full name of an image names the image, if the tag is one that can be written. -/
theorem ofReference_key_of_tag {n : ImageName} (hne : n.tag ≠ "") (hcolon : ':' ∉ n.tag.toList)
    (hslash : '/' ∉ n.tag.toList) : ofReference n.key = n := by
  have hsplit : splitTag n.key = (n.repository, some n.tag) :=
    splitTag_eq_some_iff.2 ⟨rfl, hcolon, hslash⟩
  rw [ofReference, hsplit]
  dsimp only
  rw [if_neg hne]

/-- The full name of the image that a reference names, names that image. -/
theorem ofReference_key (reference : String) :
    ofReference (ofReference reference).key = ofReference reference := by
  obtain ⟨hne, hcolon, hslash⟩ := tag_ofReference reference
  exact ofReference_key_of_tag hne hcolon hslash

/-! ## Unpinned images -/

/-- The images named `latest` are those that no tag pins. -/
theorem tag_eq_latest_iff (reference : String) :
    (ofReference reference).tag = latest ↔ isUnpinned (splitTag reference).2 = true := by
  unfold ofReference
  cases splitTag reference with
  | mk repository tag =>
    cases tag with
    | none => simp [isUnpinned]
    | some tag =>
      dsimp only [isUnpinned]
      split
      · simp [*]
      · simp [*]

/-- The tag is written and empty in the references that a colon ends. -/
theorem splitTag_eq_some_empty_iff :
    (splitTag reference).2 = some "" ↔ reference.toList.getLast? = some ':' := by
  constructor
  · intro h
    obtain ⟨hr, -, -⟩ := splitTag_eq_some_iff.1 (Prod.ext rfl h)
    rw [hr]
    simp
  · intro h
    obtain ⟨front, hfront⟩ := List.getLast?_eq_some_iff.1 h
    have hr : reference = .ofList front ++ ":" ++ "" := by
      rw [← String.toList_inj, hfront]
      simp
    have hsplit := splitTag_eq_some_iff.2 ⟨hr, by decide, by decide⟩
    rw [hsplit]

end DockerSim.ImageName

import DockerSim.Proofs.Blanks
import DockerSim.Proofs.ServiceFindings
import DockerSim.Table.Lemmas
import DockerSim.Workspace.Basic
import Mathlib.Data.List.DropRight

/-!
# Normal forms of paths

The normal form of a path is made in one pass: blanks around it are dropped first, then what stands
for the current directory in front, then the slashes at the end. The last two may bring blanks to an
end of the path, which only another pass drops. So a normal form is its own normal form if and only
if no blank is at an end of it, and just the files at such paths are found again by the paths that
they are listed under (`normal_again_iff`).
-/

namespace DockerSim

/-! ## One pass and another -/

namespace Path

variable {cs : List Char}

theorem dropHere_suffix (cs : List Char) : dropHere cs <:+ cs := by
  induction cs using dropHere.induct with
  | case1 cs ih =>
    unfold dropHere
    exact ih.trans ((List.suffix_cons '/' cs).trans (List.suffix_cons '.' _))
  | case2 cs h =>
    exact ⟨[], by rw [List.nil_append, dropHere.eq_2 _ h]⟩

/-- What is left does not stand for the current directory any more. -/
theorem dropHere_ne (cs rest : List Char) : dropHere cs ≠ '.' :: '/' :: rest := by
  induction cs using dropHere.induct with
  | case1 cs ih =>
    unfold dropHere
    exact ih
  | case2 cs h =>
    rw [dropHere.eq_2 _ h]
    exact fun he => h _ he

theorem dropEndWhile_isPrefix (p : Char → Bool) (cs : List Char) :
    Chars.dropEndWhile p cs <+: cs := List.rdropWhile_prefix p cs

theorem trim_sublist (cs : List Char) : (Chars.trim cs).Sublist cs :=
  (dropEndWhile_isPrefix Chars.isBlank (Chars.trimStart cs)).sublist.trans
    (List.dropWhile_suffix _).sublist

/-- A path is in normal form when none of the three steps takes anything from it. -/
theorem normalizeChars_eq_self_iff : normalizeChars cs = cs ↔
    Chars.trim cs = cs ∧ dropHere cs = cs ∧ Chars.dropEndWhile (· == '/') cs = cs := by
  constructor
  · intro h
    -- Each step drops something or nothing, and all of them together drop nothing.
    have hlast := (dropEndWhile_isPrefix (· == '/') (dropHere (Chars.trim cs))).length_le
    have hhere := (dropHere_suffix (Chars.trim cs)).length_le
    have htrim := (trim_sublist cs).length_le
    have hlength := congrArg List.length h
    unfold normalizeChars at hlength
    have h1 : Chars.trim cs = cs := (trim_sublist cs).eq_of_length (by omega)
    rw [h1] at hlength hlast hhere
    have h2 : dropHere cs = cs := (dropHere_suffix cs).sublist.eq_of_length (by omega)
    rw [normalizeChars, h1, h2] at h
    exact ⟨h1, h2, h⟩
  · rintro ⟨h1, h2, h3⟩
    rw [normalizeChars, h1, h2, h3]

/-- After the first pass only blanks at an end are left to drop. -/
theorem normalizeChars_again_iff (cs : List Char) :
    normalizeChars (normalizeChars cs) = normalizeChars cs ↔
      Chars.trim (normalizeChars cs) = normalizeChars cs := by
  have hhere : dropHere (normalizeChars cs) = normalizeChars cs := by
    refine dropHere.eq_2 _ fun rest he => ?_
    obtain ⟨more, hmore⟩ := dropEndWhile_isPrefix (· == '/') (dropHere (Chars.trim cs))
    rw [← normalizeChars, he] at hmore
    exact dropHere_ne _ _ hmore.symm
  have hlast : Chars.dropEndWhile (· == '/') (normalizeChars cs) = normalizeChars cs :=
    List.rdropWhile_idempotent _ _
  rw [normalizeChars_eq_self_iff]
  exact ⟨fun h => h.1, fun h => ⟨h, hhere, hlast⟩⟩

theorem normalize_again_iff {path : String} :
    normalize (normalize path) = normalize path ↔ Text.trim (normalize path) = normalize path := by
  have h := normalizeChars_again_iff path.toList
  simp only [← String.toList_inj, normalize, Text.trim, String.toList_ofList]
  exact h

end Path

/-! ## Files by their paths -/

namespace Workspace

/-- Every file is listed under its own path, which is the normal form of some path. -/
def Filed (w : Workspace) : Prop :=
  ∀ ⦃k f⦄, w.get? k = some f → f.path = k ∧ ∃ path, Path.normalize path = k

theorem filed_empty : Filed Table.empty := by
  intro k f h
  cases h

theorem Filed.write {w : Workspace} (h : w.Filed) (path content : String) :
    (w.write path content).Filed := by
  intro k f hk
  unfold Workspace.write at hk
  dsimp only at hk
  by_cases he : k = (WorkspaceFile.ofContent path content).path
  · subst he
    rw [Table.get?_insert_self] at hk
    cases hk
    exact ⟨rfl, path, rfl⟩
  · rw [Table.get?_insert_of_ne _ _ he] at hk
    exact h hk

theorem filed_ofFiles (files : List (String × String)) : (ofFiles files).Filed := by
  have hrun : ∀ w : Workspace, w.Filed →
      (files.foldl (fun w file => w.write file.1 file.2) w).Filed := by
    induction files with
    | nil => exact fun w h => h
    | cons file files ih => exact fun w h => ih _ (h.write file.1 file.2)
  exact hrun _ filed_empty

/-- A file is found by the path that it is listed under when that is its own normal form. -/
theorem Filed.file?_eq_iff {w : Workspace} (h : w.Filed) {k : String} (hk : k ∈ w.keys) :
    w.file? k = w.get? k ↔ Text.trim k = k := by
  obtain ⟨f, hf⟩ := Option.isSome_iff_exists.1 (Table.mem_keys_iff.1 hk)
  obtain ⟨hpath, path, hnormal⟩ := h hf
  rw [← hnormal, ← Path.normalize_again_iff, hnormal]
  constructor
  · intro he
    rw [hf] at he
    exact (h he).1.symm.trans hpath
  · intro he
    rw [file?, he]

end Workspace

/-! ## Build contexts -/

namespace Compose

open ComposeProblem

/-- What is said of a build context tells its path. -/
theorem path_eq_of_finding {p : ComposeProblem} {service path : String} {line line' : Nat}
    (h : (missingContext service path).finding line = p.finding line') :
    ∃ service', p = missingContext service' path := by
  have hrule : "DC-E-005" = p.rule := congrArg Finding.rule h
  cases p with
  | missingContext service' path' =>
    have hfix : some ("Create the directory '" ++ path ++ "' or correct the path.") =
        some ("Create the directory '" ++ path' ++ "' or correct the path.") :=
      congrArg Finding.fix h
    have hfront := (String.append_left_inj _).1 (Option.some.inj hfix)
    have hpath := (String.append_right_inj _).1 hfront
    exact ⟨service', by rw [hpath]⟩
  | _ => exact absurd hrule (by simp [rule])

/-- A build context that is one of the paths is not missing. -/
theorem missingContext_not_mem_check {content service path : String} {paths : List String}
    (h : path ∈ paths) (line : Nat) :
    (missingContext service path).finding line ∉ check content paths := by
  intro hf
  have hkey : ruleKey? ((missingContext service path).finding line).rule = some "build" := rfl
  obtain ⟨name, svc, doc, services, -, -, -, hf⟩ := foundIn_of_mem_check hf hkey
  obtain ⟨ps, p, hps, hp, hfinding⟩ := mem_checkService_of_key hf hkey
  obtain ⟨service', rfl⟩ := path_eq_of_finding hfinding
  have hps : ps = checkBuildContext (.ofDocument doc services paths) name svc := by
    simpa [keyedProblems] using hps
  rw [hps] at hp
  unfold checkBuildContext at hp
  split at hp
  · cases hp
  · next path' hcontext =>
    dsimp only at hp
    split at hp
    · cases hp
    · next hmissing =>
      have hpath : path = path' := by
        cases List.mem_singleton.1 hp
        rfl
      refine hmissing ?_
      have hin : Path.normalize path' ∈ paths.map Path.normalize :=
        List.mem_map.2 ⟨path, h, by rw [hpath]⟩
      simp [Surroundings.ofDocument, hin]

end Compose

/-! ## The workspace -/

/-- **When a path is canonical.** A normal form is its own normal form if and only if no blank is at
an end of it. A file of a snapshot is found by the path that it is listed under if and only if no
blank is at an end of that path. A build context that is given by a listed path is never reported as
missing. -/
theorem normal_again_iff (path : String) (files : List (String × String)) :
    (Path.normalize (Path.normalize path) = Path.normalize path ↔
      Text.trim (Path.normalize path) = Path.normalize path) ∧
    (∀ k ∈ (Workspace.ofFiles files).keys,
      ((Workspace.ofFiles files).file? k = (Workspace.ofFiles files).get? k ↔ Text.trim k = k)) ∧
    ∀ context ∈ (Workspace.ofFiles files).paths, ∀ content service line,
      (ComposeProblem.missingContext service context).finding line ∉
        Compose.check content (Workspace.ofFiles files).paths :=
  ⟨Path.normalize_again_iff, fun _ hk => (Workspace.filed_ofFiles files).file?_eq_iff hk,
    fun _ hcontext _ _ line => Compose.missingContext_not_mem_check hcontext line⟩

/-- A file is found by its path, and the directory that it is in can be built from. -/
theorem normal_again_iff_src :
    Path.normalize (Path.normalize " ./src/app.js/") = Path.normalize " ./src/app.js/" ∧
      (Workspace.ofFiles [(" ./src/app.js/", "1")]).file? "src/app.js" =
        (Workspace.ofFiles [(" ./src/app.js/", "1")]).get? "src/app.js" ∧
      (ComposeProblem.missingContext "web" "src").finding 3 ∉
        Compose.check "services:\n  web:\n    build: src\n"
          (Workspace.ofFiles [(" ./src/app.js/", "1")]).paths :=
  have hagain := normal_again_iff " ./src/app.js/" [(" ./src/app.js/", "1")]
  ⟨hagain.1.2 (by decide), (hagain.2.1 "src/app.js" (by decide)).2 (by decide),
    hagain.2.2 "src" (by decide) _ _ _⟩

/-- A blank behind the front of a path is kept in its normal form, which then names another file. -/
theorem normal_again_blank :
    Path.normalize (Path.normalize "./ app.js") ≠ Path.normalize "./ app.js" ∧
      (Workspace.ofFiles [("./ app.js", "1")]).keys = [" app.js"] ∧
      (Workspace.ofFiles [("./ app.js", "1")]).file? " app.js" = none := by
  decide

end DockerSim

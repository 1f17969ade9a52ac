import DockerSim.Proofs.Spellings
import DockerSim.Table.Lemmas
import DockerSim.Workspace.Basic

/-!
# Listed paths

What a workspace lists beside its files. The directories of a path are found by cutting the path at
its last slash, and then the directory in front of it, until there is no slash left
(`parents_of_cutLast`). So they are the texts that the path goes on from with a slash
(`mem_parents_iff`), and this holds whatever stands between the slashes: where a path begins with a
slash, or has two in a row, a directory is the empty text or ends in a slash itself.

A workspace lists every file and every directory of a file once (`paths_exact`).
-/

namespace DockerSim

/-! ## The directories of a path -/

namespace Path

variable {path p : String}

theorem parentsAfter_append (seen cs ds : List Char) :
    parentsAfter seen (cs ++ ds) =
      parentsAfter seen cs ++ parentsAfter (cs.reverse ++ seen) ds := by
  induction cs generalizing seen with
  | nil => rfl
  | cons c cs ih =>
    have hseen : cs.reverse ++ c :: seen = (c :: cs).reverse ++ seen := by simp
    rw [List.cons_append, parentsAfter, parentsAfter, ih, hseen]
    split
    · rw [List.cons_append]
    · rfl

theorem parentsAfter_of_not_mem {cs : List Char} (seen : List Char) (h : '/' ∉ cs) :
    parentsAfter seen cs = [] := by
  induction cs generalizing seen with
  | nil => rfl
  | cons c cs ih =>
    rw [List.mem_cons, not_or] at h
    rw [parentsAfter, if_neg (Ne.symm h.1), ih _ h.2]

theorem toList_join (dir name : String) :
    (dir ++ "/" ++ name).toList = dir.toList ++ '/' :: name.toList := by
  simp

theorem cutLast_eq_some_iff {dir name : String} : Text.cutLast '/' path = some (dir, name) ↔
    '/' ∉ name.toList ∧ path = dir ++ "/" ++ name := by
  rw [← String.toList_inj, toList_join, ← Chars.cutLast_eq_some_iff, Text.cutLast,
    Option.map_eq_some_iff]
  constructor
  · rintro ⟨⟨front, last⟩, hcut, he⟩
    obtain ⟨rfl, rfl⟩ := Prod.mk.inj he
    rw [hcut, String.toList_ofList, String.toList_ofList]
  · intro hcut
    exact ⟨_, hcut, Prod.ext String.ofList_toList String.ofList_toList⟩

theorem cutLast_eq_none_iff : Text.cutLast '/' path = none ↔ '/' ∉ path.toList := by
  rw [Text.cutLast, Option.map_eq_none_iff, Chars.cutLast_eq_none_iff]

/-- A path without a slash is in no directory. -/
theorem parents_of_cutLast_none (h : Text.cutLast '/' path = none) : parents path = [] := by
  rw [parents, parentsAfter_of_not_mem [] (cutLast_eq_none_iff.1 h), List.map_nil]

/-- A path is in the directory in front of its last slash, and in those that this one is in. -/
theorem parents_of_cutLast {dir name : String} (h : Text.cutLast '/' path = some (dir, name)) :
    parents path = parents dir ++ [dir] := by
  obtain ⟨hfree, rfl⟩ := cutLast_eq_some_iff.1 h
  have hlast : parentsAfter dir.toList.reverse ('/' :: name.toList) = [dir.toList] := by
    rw [parentsAfter, if_pos rfl, parentsAfter_of_not_mem _ hfree, List.reverse_reverse]
  rw [parents, toList_join, parentsAfter_append, List.append_nil, hlast, List.map_append, parents,
    List.map_singleton, String.ofList_toList]

/-- What a path goes on from with a slash ends at the last slash, or the part in front of the last
slash goes on from it. -/
theorem goesOn_iff {dir name : String} (h : '/' ∉ name.toList) :
    (∃ rest, dir ++ "/" ++ name = p ++ "/" ++ rest) ↔ p = dir ∨ ∃ rest, dir = p ++ "/" ++ rest := by
  constructor
  · rintro ⟨rest, he⟩
    -- One text is cut in two places, so one of the fronts begins with the other.
    rw [← String.toList_inj, toList_join, toList_join, List.append_eq_append_iff] at he
    rcases he with ⟨between, hp, hname⟩ | ⟨between, hdir, hrest⟩
    · cases between with
      | nil => exact .inl (String.toList_inj.1 (by rw [hp, List.append_nil]))
      | cons c between =>
        refine absurd ?_ h
        rw [(List.cons.inj hname).2]
        exact List.mem_append_right _ List.mem_cons_self
    · cases between with
      | nil => exact .inl (String.toList_inj.1 (by rw [hdir, List.append_nil]))
      | cons c between =>
        refine .inr ⟨.ofList between, String.toList_inj.1 ?_⟩
        rw [hdir, toList_join, String.toList_ofList, (List.cons.inj hrest).1]
  · rintro (rfl | ⟨rest, rfl⟩)
    · exact ⟨name, rfl⟩
    · exact ⟨rest ++ "/" ++ name, by simp only [String.append_assoc]⟩

/-- **The directories of a path** are the texts that it goes on from with a slash. -/
theorem mem_parents_iff : p ∈ parents path ↔ ∃ rest, path = p ++ "/" ++ rest := by
  -- What stands in front of the last slash is a shorter path.
  induction hn : path.length using Nat.strongRecOn generalizing path with
  | ind n ih =>
    cases hcut : Text.cutLast '/' path with
    | none =>
      rw [parents_of_cutLast_none hcut]
      refine ⟨fun h => absurd h List.not_mem_nil, ?_⟩
      rintro ⟨rest, rfl⟩
      refine absurd ?_ (cutLast_eq_none_iff.1 hcut)
      rw [toList_join]
      exact List.mem_append_right _ List.mem_cons_self
    | some parts =>
      obtain ⟨dir, name⟩ := parts
      obtain ⟨hfree, rfl⟩ := cutLast_eq_some_iff.1 hcut
      have hshorter : dir.length < n := by
        rw [← hn, String.length_append, String.length_append]
        have : "/".length = 1 := rfl
        omega
      rw [parents_of_cutLast hcut, List.mem_append, List.mem_singleton, ih _ hshorter rfl,
        goesOn_iff hfree, or_comm]

end Path

/-! ## The paths of a workspace -/

namespace Workspace

variable {w : Workspace} {p : String}

/-- The files are listed, and the directories of each. -/
theorem mem_paths_iff : p ∈ w.paths ↔ ∃ k ∈ w.keys, p = k ∨ p ∈ Path.parents k := by
  have hkeys (l : List String) : (l.map fun q => (q, ())).map (·.1) = l := by
    rw [List.map_map]
    exact List.map_id l
  rw [paths, Table.mem_keys_ofList, hkeys, List.mem_flatMap]
  simp only [List.mem_cons]

/-- **What a workspace lists.** A text is listed if and only if it is the path of a file, or the
path of a file goes on from it with a slash. The list is strictly increasing by code points, so
nothing is in it twice. -/
theorem paths_exact (w : Workspace) :
    (∀ p, p ∈ w.paths ↔ p ∈ w.keys ∨ ∃ rest, p ++ "/" ++ rest ∈ w.keys) ∧
      w.paths.Pairwise (· < ·) ∧ w.paths.Nodup := by
  refine ⟨fun p => ?_, Table.increasing_keys _, Table.nodup_keys _⟩
  rw [mem_paths_iff]
  constructor
  · rintro ⟨k, hk, rfl | hp⟩
    · exact .inl hk
    · obtain ⟨rest, rfl⟩ := Path.mem_parents_iff.1 hp
      exact .inr ⟨rest, hk⟩
  · rintro (hk | ⟨rest, hk⟩)
    · exact ⟨p, hk, .inl rfl⟩
    · exact ⟨_, hk, .inr (Path.mem_parents_iff.2 ⟨rest, rfl⟩)⟩

example : (ofFiles [("/srv//app.js", ""), ("srv/app.js", ""), ("srv/lib/a.js", "")]).paths =
    ["", "/srv", "/srv/", "/srv//app.js", "srv", "srv/app.js", "srv/lib", "srv/lib/a.js"] := by
  decide

end Workspace

end DockerSim

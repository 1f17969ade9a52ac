import DockerSim.Dockerfile.Instruction
import DockerSim.Proofs.Blanks
import Mathlib.Data.List.SplitBy

/-!
# Lines that go on into each other

A Dockerfile is read line by line, with the text of a started instruction carried along. Said
without the reader, its instructions are groups of lines: the lines that count, cut behind every one
that does not go on (`groups`). Every group makes one instruction, which stands on the first of its
lines and says the words of them all (`ofContent_joins`).

The induction is on the lines that are left. What is carried along is the text of the lines that the
open group has so far, all of which go on (`Started`).
-/

namespace DockerSim.Instruction

/-! ## Lines -/

/-- The line counts: it is not blank, and no comment. -/
def counts (raw : List Char) : Bool :=
  !((Chars.trim raw).isEmpty || (Chars.trim raw).head? = some '#')

/-- A backslash ends the line, which goes on in the next one that counts. -/
def goesOn (raw : List Char) : Bool := (Chars.trim raw).getLast? = some '\\'

/-- What a line says: all of it, but for the backslash that ends it. -/
def said (raw : List Char) : List Char :=
  if goesOn raw then (Chars.trim raw).dropLast else Chars.trim raw

/-- The lines that count, each with its number. -/
def countedLines (content : String) : List (List Char × Nat) :=
  ((Chars.lines content.toList).zipIdx 1).filter fun l => counts l.1

/-- The lines that count, cut behind every one that does not go on. -/
def groups (content : String) : List (List (List Char × Nat)) :=
  (countedLines content).splitBy fun l _ => goesOn l.1

/-- The words that the lines of a group say. -/
def groupWords (group : List (List Char × Nat)) : List (List Char) :=
  group.flatMap fun l => Chars.words (said l.1)

/-- The keyword is the first of some words, in upper case, and the rest are the others. -/
def Says (i : Instruction) : List String → Prop
  | [] => i.keyword = "" ∧ i.rest = ""
  | word :: words => i.keyword = Text.upper word ∧ Text.words i.rest = words

/-- The instruction stands on the first line of a group, and says its words. -/
structure Joins (group : List (List Char × Nat)) (i : Instruction) : Prop where
  line : group.head?.map Prod.snd = some i.line
  words : i.Says ((groupWords group).map .ofList)

/-- The piece that is read from a line that counts. -/
def pieceOf (l : List Char × Nat) : Piece where
  line := l.2
  text := if goesOn l.1 then Chars.trim (said l.1) else said l.1
  goesOn := goesOn l.1

theorem ofLine?_eq (n : Nat) (raw : List Char) :
    Piece.ofLine? n raw = if counts raw then some (pieceOf (raw, n)) else none := by
  unfold Piece.ofLine? counts pieceOf said goesOn
  dsimp only
  cases (Chars.trim raw).isEmpty || decide ((Chars.trim raw).head? = some '#') with
  | true => rfl
  | false =>
    rw [if_neg Bool.false_ne_true, if_pos Bool.not_false]
    split <;> simp [*]

theorem piecesFrom_eq (raws : List (List Char)) (n : Nat) :
    piecesFrom n raws = ((raws.zipIdx n).filter fun l => counts l.1).map pieceOf := by
  induction raws generalizing n with
  | nil => rfl
  | cons raw raws ih =>
    rw [piecesFrom, ih, ofLine?_eq, List.zipIdx_cons, List.filter_cons]
    cases counts raw <;> rfl

theorem words_pieceOf (l : List Char × Nat) :
    Chars.words (pieceOf l).text = Chars.words (said l.1) := by
  unfold pieceOf
  dsimp only
  split
  · exact Chars.words_trim _
  · rfl

/-! ## Instructions -/

/-- An instruction says the words of its text. -/
theorem says_ofText (line : Nat) (text : List Char) :
    (ofText line (.ofList text)).Says ((Chars.words text).map .ofList) := by
  rw [← Chars.words_trim]
  unfold ofText Text.cutBlank Text.trim
  simp only [String.toList_ofList]
  cases hc : Chars.cutWhere Chars.isBlank (Chars.trim text) with
  | none =>
    have hfree := Chars.cutWhere_eq_none_iff.1 hc
    by_cases hne : Chars.trim text = []
    · rw [hne]
      exact ⟨rfl, rfl⟩
    · rw [Chars.words_eq_singleton hne hfree]
      exact ⟨rfl, rfl⟩
  | some parts =>
    obtain ⟨word, rest⟩ := parts
    obtain ⟨blank, hblank, hfree, htext⟩ := Chars.cutWhere_eq_some hc
    have hne : word ≠ [] := by
      rintro rfl
      obtain ⟨hhead, -⟩ := Chars.exists_of_trim htext
      rw [hhead] at hblank
      cases hblank
    rw [htext, Chars.words_append_cons hblank, Chars.words_eq_singleton hne hfree]
    refine ⟨rfl, ?_⟩
    simp [Text.words, Chars.words_trim]

/-- The instruction that was started has the text of some lines. -/
def Started (group : List (List Char × Nat)) : Option (Nat × List Char) → Prop
  | none => group = []
  | some (line, text) =>
    group.head?.map Prod.snd = some line ∧ Chars.words text = groupWords group

variable {group : List (List Char × Nat)} {started : Option (Nat × List Char)}

theorem Started.extend (h : Started group started) (l : List Char × Nat) :
    Started (group ++ [l]) (some (extend started (pieceOf l))) := by
  cases started with
  | none =>
    obtain rfl : group = [] := h
    refine ⟨rfl, ?_⟩
    simp [groupWords, words_pieceOf]
  | some s =>
    obtain ⟨line, text⟩ := s
    obtain ⟨hline, hwords⟩ := h
    refine ⟨?_, ?_⟩
    · show (group ++ [l]).head?.map Prod.snd = some line
      rw [List.head?_append_of_ne_nil]
      · exact hline
      · rintro rfl
        cases hline
    · show Chars.words (text ++ [' '] ++ (pieceOf l).text) = groupWords (group ++ [l])
      have hblank : Chars.isBlank ' ' = true := by decide
      rw [List.append_assoc, List.singleton_append, Chars.words_append_cons hblank, hwords,
        words_pieceOf]
      simp [groupWords]

theorem Started.joins {line : Nat} {text : List Char} (h : Started group (some (line, text))) :
    Joins group (ofText line (.ofList text)) := by
  obtain ⟨hline, hwords⟩ := h
  refine ⟨?_, hwords ▸ says_ofText line text⟩
  rw [hline]
  unfold ofText
  dsimp only
  split <;> rfl

/-- Lines that all go on are one group, whether or not the last of them does. -/
theorem splitBy_snoc (h : ∀ l ∈ group, goesOn l.1 = true) (l : List Char × Nat) :
    (group ++ [l]).splitBy (fun l _ => goesOn l.1) = [group ++ [l]] := by
  refine List.splitBy_of_isChain (by simp) (List.Pairwise.isChain ?_)
  refine List.pairwise_append.2
    ⟨List.pairwise_of_forall_mem_list fun a ha _ _ => h a ha, List.pairwise_singleton _ _, ?_⟩
  exact fun a ha _ _ => h a ha

/-- **The groups that are left make the instructions that are left**, the first of them with the
lines that the open group has already. -/
theorem joins_group : ∀ {ls group : List (List Char × Nat)} {started : Option (Nat × List Char)},
    Started group started → (∀ l ∈ group, goesOn l.1 = true) →
      List.Forall₂ Joins ((group ++ ls).splitBy fun l _ => goesOn l.1)
        (Instruction.group started (ls.map pieceOf))
  | [], group, none, hs, _ => by
    obtain rfl : group = [] := hs
    exact .nil
  | [], group, some (line, text), hs, hopen => by
    obtain ⟨front, last, rfl⟩ : ∃ front last, group = front ++ [last] := by
      refine (List.eq_nil_or_concat' group).resolve_left ?_
      rintro rfl
      cases hs.1
    rw [List.append_nil, splitBy_snoc fun l hl => hopen l (List.mem_append_left _ hl)]
    exact .cons hs.joins .nil
  | l :: ls, group, started, hs, hopen => by
    have hnext := hs.extend l
    rw [List.map_cons, Instruction.group]
    generalize extend started (pieceOf l) = begun at hnext
    obtain ⟨line, text⟩ := begun
    rw [List.append_cons]
    cases hl : goesOn l.1 with
    | true =>
      have hopen' : ∀ m ∈ group ++ [l], goesOn m.1 = true :=
        List.forall_mem_append.2 ⟨hopen, List.forall_mem_singleton.2 hl⟩
      simp only [pieceOf, hl]
      exact joins_group hnext hopen'
    | false =>
      rw [List.splitBy_append, splitBy_snoc hopen]
      · simp only [pieceOf, hl]
        have hnone : Started [] none := rfl
        exact .cons hnext.joins (joins_group hnone fun _ h => nomatch h)
      · intro a ha b _
        rw [List.getLast?_concat] at ha
        exact Option.some.inj ha ▸ hl

/-! ## Numbers -/

/-- Lines that count stand in order. -/
theorem increasing_countedLines (content : String) :
    ((countedLines content).map Prod.snd).Pairwise (· < ·) := by
  have hall : (((Chars.lines content.toList).zipIdx 1).map Prod.snd).Pairwise (· < ·) := by
    rw [List.zipIdx_map_snd]
    exact List.pairwise_lt_range'
  exact hall.sublist (List.filter_sublist.map _)

/-- The numbers of the instructions are among those of the lines of their groups, in order. -/
theorem lines_sublist {gs : List (List (List Char × Nat))} {is : List Instruction}
    (h : List.Forall₂ Joins gs is) :
    (is.map Instruction.line).Sublist (gs.flatten.map Prod.snd) := by
  induction h with
  | nil => exact List.Sublist.slnil
  | @cons group i gs is hjoins _ ih =>
    have hline := hjoins.line
    cases group with
    | nil => cases hline
    | cons l group =>
      rw [List.map_cons, List.flatten_cons, List.map_append, List.map_cons, List.cons_append,
        ← Option.some.inj hline]
      exact (ih.trans (List.sublist_append_right _ _)).cons_cons _

/-- Every group of lines makes one instruction. -/
theorem forall₂_joins (content : String) :
    List.Forall₂ Joins (groups content) (ofContent content) := by
  have hstart : Started [] none := rfl
  unfold ofContent
  rw [piecesFrom_eq]
  exact joins_group hstart fun _ h => nomatch h

theorem flatten_groups (content : String) : (groups content).flatten = countedLines content :=
  List.flatten_splitBy _ _

/-- The instructions stand on different lines, in order. -/
theorem increasing_ofContent (content : String) :
    ((ofContent content).map Instruction.line).Pairwise (· < ·) := by
  refine (increasing_countedLines content).sublist ?_
  exact flatten_groups content ▸ lines_sublist (forall₂_joins content)

/-- **The instructions of a Dockerfile are its groups of lines.** The lines that count are cut
behind every one that does not go on, and each group of them makes one instruction: it stands on the
first line of the group, and its keyword and its rest are the words that the lines say, in order,
the first of them in upper case. So the instructions stand on different lines, in order. -/
theorem ofContent_joins (content : String) :
    (groups content).flatten = countedLines content ∧
      List.Forall₂ Joins (groups content) (ofContent content) ∧
      ((ofContent content).map Instruction.line).Pairwise (· < ·) :=
  ⟨flatten_groups content, forall₂_joins content, increasing_ofContent content⟩

end DockerSim.Instruction

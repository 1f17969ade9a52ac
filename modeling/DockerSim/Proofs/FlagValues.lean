import DockerSim.Proofs.Spellings
import DockerSim.Proofs.StackFlags
import Mathlib.Data.List.DropRight
import Mathlib.Data.List.ReduceOption

/-!
# The values of a flag

A flag may be given several times on a line, with a value or bare. How the words of a line give
flags is said without the reader of the line: `FlagWord.Spells` is the spelling of one word, and
`FlagSection` cuts the words behind the subcommand into flags, each with its value or none, and the
arguments behind them.

A bare flag replaces what the flag was given before, so that the values of a flag are those behind
its last bare occurrence (`CommandLine.values_since_bare`), and no value is lost if and only if all
bare occurrences come first.
-/

namespace DockerSim.CommandLine

/-! ## How flags are written -/

/-- What a word spells: a flag with its value, one flag, several flags of one letter each, or no
flag. -/
inductive FlagWord.Spells : String → FlagWord → Prop
  | assignment {name value : String} (named : name ≠ "") (free : '=' ∉ name.toList) :
    Spells ("--" ++ name ++ "=" ++ value) (.assignment name value)
  | long {name : String} (named : name ≠ "") (free : '=' ∉ name.toList) :
    Spells ("--" ++ name) (.single name)
  | short {c : Char} (letter : c ≠ '-') : Spells (.ofList ['-', c]) (.single (.ofList [c]))
  | cluster {c d : Char} {cs : List Char} (letter : c ≠ '-') :
    Spells (.ofList ('-' :: c :: d :: cs)) (.cluster ((c :: d :: cs).map fun c => .ofList [c]))
  | nameless (value : String) : Spells ("--=" ++ value) .argument
  | dashes : Spells "--" .argument
  | dash : Spells "-" .argument
  | plain {w : String} (h : startsWithDash w = false) : Spells w .argument

theorem FlagWord.Spells.ofWord_eq {w : String} {f : FlagWord} (h : Spells w f) : ofWord w = f := by
  cases h with
  | @assignment name value named free =>
    obtain ⟨c, cs, hname⟩ := List.exists_cons_of_ne_nil
      (fun h => named (String.toList_eq_nil_iff.1 h) : name.toList ≠ [])
    have hcut : Chars.cut '=' (c :: (cs ++ '=' :: value.toList)) = some (c :: cs, value.toList) :=
      Chars.cut_eq_some_iff.2 ⟨hname ▸ free, rfl⟩
    have hback : name = .ofList (c :: cs) := by rw [← hname, String.ofList_toList]
    unfold ofWord
    simp [hname, hcut, ← hback]
  | @long name named free =>
    have hcut := Chars.cut_eq_none_iff.2 free
    unfold ofWord
    simp [hcut, named]
  | short letter => simp [ofWord]
  | cluster letter => simp [ofWord, letter]
  | nameless value => simp [ofWord, Chars.cut, Chars.cutWhere]
  | dashes => rfl
  | dash => rfl
  | plain h => exact ofWord_of_startsWithDash h

theorem FlagWord.spells_ofWord (w : String) : Spells w (ofWord w) := by
  obtain ⟨cs, rfl⟩ : ∃ cs, w = .ofList cs := ⟨w.toList, String.ofList_toList.symm⟩
  unfold ofWord
  rw [String.toList_ofList]
  split
  · next long =>
    split
    · next value hcut =>
      obtain ⟨-, rfl⟩ := Chars.cut_eq_some_iff.1 hcut
      have hw : String.ofList ('-' :: '-' :: ([] ++ '=' :: value)) = "--=" ++ .ofList value :=
        String.toList_inj.1 (by simp)
      exact hw ▸ .nameless _
    · next name value hname hcut =>
      obtain ⟨hfree, rfl⟩ := Chars.cut_eq_some_iff.1 hcut
      have hw : String.ofList ('-' :: '-' :: (name ++ '=' :: value)) =
          "--" ++ .ofList name ++ "=" ++ .ofList value := String.toList_inj.1 (by simp)
      exact hw ▸ .assignment (by simpa using hname) (by simpa using hfree)
    · next hcut =>
      have hfree := Chars.cut_eq_none_iff.1 hcut
      have hw : String.ofList ('-' :: '-' :: long) = "--" ++ .ofList long :=
        String.toList_inj.1 (by simp)
      rw [hw]
      cases long with
      | nil => exact .dashes
      | cons c cs => exact .long (by simp) (by simpa using hfree)
  · exact .dash
  · next hc => exact .short hc
  · next letters h1 h2 h3 =>
    match letters, h1, h2, h3 with
    | [], _, h, _ => exact absurd rfl h
    | [c], _, _, h => exact absurd rfl (h c)
    | c :: d :: cs, h, _, _ => exact .cluster fun hc => h (d :: cs) (by rw [hc])
  · next hdash =>
    refine .plain ?_
    cases cs with
    | nil => rfl
    | cons c cs =>
      have hc : c ≠ '-' := fun hc => hdash cs (by rw [hc])
      simpa [startsWithDash] using hc

theorem FlagWord.spells_iff {w : String} {f : FlagWord} : Spells w f ↔ ofWord w = f :=
  ⟨Spells.ofWord_eq, fun h => h ▸ spells_ofWord w⟩

/-! ## The flags of a line -/

/-- The flags at the front of a list of words, each with the value it is given or bare, and the
words behind them; `takes` tells the flags that take the next word for their value. -/
inductive FlagSection (takes : String → Bool) :
    List String → List (String × Option String) → List String → Prop
  | nil : FlagSection takes [] [] []
  | argument {w : String} {ws : List String} (word : FlagWord.Spells w .argument) :
    FlagSection takes (w :: ws) [] (w :: ws)
  | assignment {w name value : String} {ws rest : List String}
      {given : List (String × Option String)} (word : FlagWord.Spells w (.assignment name value))
      (behind : FlagSection takes ws given rest) :
    FlagSection takes (w :: ws) ((name, some value) :: given) rest
  | value {w name value : String} {ws rest : List String} {given : List (String × Option String)}
      (word : FlagWord.Spells w (.single name)) (taken : takes name = true)
      (usable : startsWithDash value = false) (behind : FlagSection takes ws given rest) :
    FlagSection takes (w :: value :: ws) ((name, some value) :: given) rest
  | bare {w name : String} {ws rest : List String} {given : List (String × Option String)}
      (word : FlagWord.Spells w (.single name))
      (alone : ∀ v ∈ ws.head?, takes name = true → startsWithDash v = true)
      (behind : FlagSection takes ws given rest) :
    FlagSection takes (w :: ws) ((name, none) :: given) rest
  | cluster {w : String} {names ws rest : List String} {given : List (String × Option String)}
      (word : FlagWord.Spells w (.cluster names)) (behind : FlagSection takes ws given rest) :
    FlagSection takes (w :: ws) (names.map (·, none) ++ given) rest

variable {takes : String → Bool} {ws rest : List String} {given : List (String × Option String)}

theorem exists_flagSection (takes : String → Bool) (ws : List String) :
    ∃ given rest, FlagSection takes ws given rest := by
  fun_induction readFlags takes ∅ ws with
  | case1 => exact ⟨_, _, .nil⟩
  | case2 _ w ws hw => exact ⟨_, _, .argument (FlagWord.spells_iff.2 hw)⟩
  | case3 _ w ws name value hw ih =>
    obtain ⟨given, rest, h⟩ := ih
    exact ⟨_, _, .assignment (FlagWord.spells_iff.2 hw) h⟩
  | case4 _ w ws names hw ih =>
    obtain ⟨given, rest, h⟩ := ih
    exact ⟨_, _, .cluster (FlagWord.spells_iff.2 hw) h⟩
  | case5 _ w name hw v ws htakes ih =>
    obtain ⟨given, rest, h⟩ := ih
    rw [Bool.and_eq_true, Bool.not_eq_true'] at htakes
    exact ⟨_, _, .value (FlagWord.spells_iff.2 hw) htakes.1 htakes.2 h⟩
  | case6 _ w name hw v ws htakes ih =>
    obtain ⟨given, rest, h⟩ := ih
    refine ⟨_, _, .bare (FlagWord.spells_iff.2 hw) ?_ h⟩
    rintro _ ⟨⟩ htaken
    simpa [htaken] using htakes
  | case7 _ w name hw =>
    exact ⟨_, _, .bare (FlagWord.spells_iff.2 hw) (by simp) .nil⟩

/-- The flags of a table with one more, bare or with a value. -/
def addGiven (flags : Table Flag) (g : String × Option String) : Table Flag :=
  addFlag flags g.1 (g.2.elim (.switch true) .value)

/-- **The reader finds the flags of the words**, and leaves the rest. -/
theorem FlagSection.readFlags_eq (h : FlagSection takes ws given rest) (flags : Table Flag) :
    readFlags takes flags ws = (given.foldl addGiven flags, rest) := by
  induction h generalizing flags with
  | nil => rfl
  | argument word => rw [readFlags_argument word.ofWord_eq, List.foldl_nil]
  | assignment word _ ih => rw [readFlags_assignment word.ofWord_eq, ih, List.foldl_cons]; rfl
  | value word taken usable _ ih =>
    rw [readFlags_value word.ofWord_eq (by simp [taken, usable]), ih, List.foldl_cons]
    rfl
  | @bare w name ws rest given word alone _ ih =>
    have hswitch : ∀ v ∈ ws.head?, (takes name && !startsWithDash v) = false := by
      intro v hv
      have := alone v hv
      cases htakes : takes name <;> simp_all
    rw [readFlags_switch word.ofWord_eq hswitch, ih, List.foldl_cons]
    rfl
  | cluster word _ ih =>
    rw [readFlags_cluster word.ofWord_eq, ih, List.foldl_append, List.foldl_map]
    rfl

/-! ## The values -/

/-- What a flag is given at each of its occurrences, in order. -/
def givenTo (key : String) (given : List (String × Option String)) : List (Option String) :=
  (given.filter fun g => g.1 = key).map Prod.snd

/-- The values behind the last bare occurrence. -/
def sinceBare (given : List (Option String)) : List String :=
  (given.rtakeWhile Option.isSome).reduceOption

theorem sinceBare_concat_none (given : List (Option String)) :
    sinceBare (given ++ [none]) = [] := by
  unfold sinceBare
  rw [List.rtakeWhile_concat_neg _ _ _ (by simp), List.reduceOption_nil]

theorem sinceBare_concat_some (given : List (Option String)) (v : String) :
    sinceBare (given ++ [some v]) = sinceBare given ++ [v] := by
  unfold sinceBare
  rw [List.rtakeWhile_concat_pos _ _ _ (by simp), List.reduceOption_append]
  rfl

/-- All values are behind the last bare occurrence when none is in front of one. -/
theorem sinceBare_eq_reduceOption_iff (given : List (Option String)) :
    sinceBare given = given.reduceOption ↔
      given.Pairwise fun first later => later = none → first = none := by
  induction given using List.reverseRecOn with
  | nil => simp [sinceBare]
  | append_singleton given last ih =>
    rw [List.pairwise_append, List.reduceOption_append]
    cases last with
    | none =>
      have hnil : given.reduceOption = [] ↔ ∀ g ∈ given, g = none := List.filterMap_eq_nil_iff
      have hpair : (∀ g ∈ given, g = none) →
          given.Pairwise fun first later => later = none → first = none :=
        fun h => List.pairwise_of_forall_mem_list fun first hfirst _ _ _ => h first hfirst
      rw [sinceBare_concat_none, List.reduceOption_singleton, Option.toList_none, List.append_nil,
        eq_comm, hnil]
      simp only [List.pairwise_singleton, List.forall_mem_singleton, forall_const, true_and]
      exact ⟨fun h => ⟨hpair h, h⟩, And.right⟩
    | some v => simp [sinceBare_concat_some, ih, List.reduceOption_singleton]

/-- The values that a table has for a flag. -/
def valuesIn (flags : Table Flag) (key : String) : List String :=
  ((flags.get? key).map Flag.toList).getD []

theorem values_singleton (c : CommandLine) (key : String) : c.values [key] = valuesIn c.flags key :=
  List.flatMap_singleton _ _

theorem valuesIn_addFlag_of_ne (flags : Table Flag) {name key : String} (h : key ≠ name)
    (flag : Flag) : valuesIn (addFlag flags name flag) key = valuesIn flags key := by
  unfold valuesIn addFlag
  rw [Table.get?_insert_of_ne _ _ h]

theorem valuesIn_addFlag_switch (flags : Table Flag) (name : String) :
    valuesIn (addFlag flags name (.switch true)) name = [] := by
  unfold valuesIn addFlag
  rw [Table.get?_insert_self]
  cases flags.get? name with
  | none => rfl
  | some flag => cases flag <;> rfl

theorem valuesIn_addFlag_value (flags : Table Flag) (name v : String) :
    valuesIn (addFlag flags name (.value v)) name = valuesIn flags name ++ [v] := by
  unfold valuesIn addFlag
  rw [Table.get?_insert_self]
  cases flags.get? name with
  | none => rfl
  | some flag => cases flag <;> rfl

/-- A bare flag replaces what it was given, and a value is put behind the others. -/
theorem valuesIn_foldl_addGiven (key : String) (given : List (String × Option String)) :
    valuesIn (given.foldl addGiven ∅) key = sinceBare (givenTo key given) := by
  induction given using List.reverseRecOn with
  | nil => rfl
  | append_singleton given last ih =>
    obtain ⟨name, value⟩ := last
    rw [List.foldl_append, List.foldl_cons, List.foldl_nil]
    unfold givenTo addGiven at *
    rw [List.filter_append, List.map_append]
    by_cases h : key = name
    · subst h
      rw [List.filter_cons_of_pos (by simp), List.filter_nil, List.map_singleton]
      cases value with
      | none => exact (valuesIn_addFlag_switch _ _).trans (sinceBare_concat_none _).symm
      | some v =>
        rw [sinceBare_concat_some, ← ih]
        exact valuesIn_addFlag_value _ _ _
    · rw [List.filter_cons_of_neg (by simpa using Ne.symm h), List.filter_nil, List.map_nil,
        List.append_nil, valuesIn_addFlag_of_ne _ h, ih]

/-! ## Lines -/

/-- The flags that take the next word for their value, under a subcommand of one or two words. -/
def takesUnder (subcommand : Option String) : String → Bool :=
  takesValue ((subcommand.map (Text.before ' ')).getD "")

theorem ofWords_docker (raw : String) (ws : List String) :
    ofWords raw (docker :: ws) =
      { raw, command := docker, subcommand := (readSubcommand ws).1
        args := (readFlags (takesUnder (readSubcommand ws).1) ∅ (readSubcommand ws).2).2
        flags := (readFlags (takesUnder (readSubcommand ws).1) ∅ (readSubcommand ws).2).1 } := rfl

/-- **The values of a flag are those that it is given behind its last bare occurrence**, in the
order of the line, whatever other flags stand between. They are all values that it is given if and
only if no bare occurrence comes after one of them. -/
theorem values_since_bare {raw : String} {ws : List String}
    (hdocker : Words.ofLine raw = docker :: ws) :
    let takes := takesUnder (readSubcommand ws).1
    let words := (readSubcommand ws).2
    (∃ given rest, FlagSection takes words given rest) ∧
      ∀ given rest, FlagSection takes words given rest →
        (parse raw).args = rest ∧ ∀ key,
          (parse raw).values [key] = sinceBare (givenTo key given) ∧
            ((parse raw).values [key] = (givenTo key given).reduceOption ↔
              (givenTo key given).Pairwise fun first later => later = none → first = none) := by
  refine ⟨exists_flagSection _ _, fun given rest h => ?_⟩
  have hread := h.readFlags_eq ∅
  have hparse : parse raw = ofWords raw (docker :: ws) := by rw [parse, hdocker]
  rw [hparse, ofWords_docker, hread]
  refine ⟨rfl, fun key => ?_⟩
  rw [values_singleton, valuesIn_foldl_addGiven]
  exact ⟨rfl, sinceBare_eq_reduceOption_iff _⟩

open FlagWord (spells_iff)

/-- The flags of a line that gives four values to `p`, with a bare `p` behind the first two. -/
theorem flagSection_mixed : FlagSection (takesUnder (some "run"))
    ["-p", "80:80", "--e=A=-1", "--p", "81:81", "-dp", "--p=82:82", "--name", "--p=", "nginx", "-p"]
    [("p", some "80:80"), ("e", some "A=-1"), ("p", some "81:81"), ("d", none), ("p", none),
      ("p", some "82:82"), ("name", none), ("p", some "")] ["nginx", "-p"] := by
  refine .value (spells_iff.2 rfl) (by decide) (by decide) ?_
  refine .assignment (spells_iff.2 rfl) ?_
  refine .value (spells_iff.2 rfl) (by decide) (by decide) ?_
  refine @FlagSection.cluster _ _ ["d", "p"] _ _ _ (spells_iff.2 rfl) ?_
  refine .assignment (spells_iff.2 rfl) ?_
  refine .bare (spells_iff.2 rfl) (by decide) ?_
  refine .assignment (spells_iff.2 rfl) ?_
  exact .argument (spells_iff.2 rfl)

/-- The values behind the bare `p` are left, the empty one too, and the flag behind the image is an
argument. -/
theorem values_since_bare_mixed :
    let raw := "docker run -p 80:80 --e=A=-1 --p 81:81 -dp --p=82:82 --name --p= nginx -p"
    Words.ofLine raw = docker :: "run" :: ["-p", "80:80", "--e=A=-1", "--p", "81:81", "-dp",
        "--p=82:82", "--name", "--p=", "nginx", "-p"] ∧
      (parse raw).args = ["nginx", "-p"] ∧ (parse raw).values ["p"] = ["82:82", ""] ∧
      (parse raw).values ["e"] = ["A=-1"] := by
  intro raw
  have hwords : Words.ofLine raw = docker :: "run" :: ["-p", "80:80", "--e=A=-1", "--p", "81:81",
      "-dp", "--p=82:82", "--name", "--p=", "nginx", "-p"] := by decide +kernel
  obtain ⟨hargs, hvalues⟩ := (values_since_bare hwords).2 _ _ flagSection_mixed
  exact ⟨hwords, hargs, (hvalues "p").1, (hvalues "e").1⟩

/-- A letter in a cluster takes the value back that the flag was given before. -/
theorem values_lost_in_cluster :
    let words := ["-p", "8080:80", "-dp", "nginx"]
    let given := [("p", some "8080:80"), ("d", none), ("p", none)]
    Words.ofLine "docker run -p 8080:80 -dp nginx" = docker :: "run" :: words ∧
      FlagSection (takesUnder (some "run")) words given ["nginx"] ∧
      (givenTo "p" given).reduceOption = ["8080:80"] ∧
      (parse "docker run -p 8080:80 -dp nginx").values ["p"] = [] := by
  refine ⟨by decide +kernel, ?_, rfl, by decide +kernel⟩
  refine .value (spells_iff.2 rfl) (by decide) (by decide) ?_
  refine @FlagSection.cluster _ _ ["d", "p"] _ _ _ (spells_iff.2 rfl) ?_
  exact .argument (spells_iff.2 rfl)

end DockerSim.CommandLine

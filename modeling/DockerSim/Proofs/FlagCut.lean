import DockerSim.Proofs.FlagValues

/-!
# How the words of a line are cut

Behind `docker`, a line is cut into the words of the subcommand, the flags, each of one word or two,
and the arguments (`Cut.Fits`). There is one such cut for every list of words, and it is the one
that the reader of the line finds (`parse_cut`): the arguments are what it leaves, and the names of
the flags in front of them are all names that it knows a flag by.

The cut is unique because a word is spelled in one way only, and the word behind a flag settles
whether the flag takes it.
-/

namespace DockerSim.CommandLine

/-! ## Flags and their words -/

/-- The word is written as one flag or several. -/
def FlagShaped (w : String) : Prop := ∃ f, FlagWord.Spells w f ∧ f ≠ .argument

theorem spells_argument_iff {w : String} : FlagWord.Spells w .argument ↔ ¬FlagShaped w := by
  constructor
  · rintro h ⟨f, hf, hne⟩
    exact hne (hf.ofWord_eq.symm.trans h.ofWord_eq)
  · intro h
    by_contra hne
    exact h ⟨_, FlagWord.spells_ofWord w, fun he => hne (FlagWord.spells_iff.2 he)⟩

theorem FlagWord.Spells.unique {w : String} {f f' : FlagWord} (h : Spells w f) (h' : Spells w f') :
    f = f' :=
  h.ofWord_eq.symm.trans h'.ofWord_eq

/-- A flag in a line: its words, and the names that they give, each with its value or bare. -/
structure Occurrence where
  words : List String
  given : List (String × Option String)

/-- The words are one flag where `next` is the word behind them, if there is one. A flag that takes
a value has it in its second word, unless there is none or it begins with a dash. -/
inductive Occurrence.Before (takes : String → Bool) (next : Option String) : Occurrence → Prop
  | assignment {w name value : String} (word : FlagWord.Spells w (.assignment name value)) :
    Before takes next ⟨[w], [(name, some value)]⟩
  | value {w name v : String} (word : FlagWord.Spells w (.single name)) (taken : takes name = true)
      (usable : startsWithDash v = false) : Before takes next ⟨[w, v], [(name, some v)]⟩
  | bare {w name : String} (word : FlagWord.Spells w (.single name))
      (alone : ∀ v ∈ next, takes name = true → startsWithDash v = true) :
    Before takes next ⟨[w], [(name, none)]⟩
  | cluster {w : String} {names : List String} (word : FlagWord.Spells w (.cluster names)) :
    Before takes next ⟨[w], names.map (·, none)⟩

/-- The words of some flags. -/
def flagWords (flags : List Occurrence) : List String := flags.flatMap Occurrence.words

/-- What some flags give. -/
def flagsGiven (flags : List Occurrence) : List (String × Option String) :=
  flags.flatMap Occurrence.given

/-- The names that some flags give. -/
def flagNames (flags : List Occurrence) : List String := (flagsGiven flags).map Prod.fst

/-- Flags one behind the other, with the arguments behind the last. -/
inductive FlagsBefore (takes : String → Bool) (args : List String) : List Occurrence → Prop
  | nil : FlagsBefore takes args []
  | cons {flag : Occurrence} {flags : List Occurrence}
      (first : flag.Before takes (flagWords flags ++ args).head?)
      (behind : FlagsBefore takes args flags) : FlagsBefore takes args (flag :: flags)

variable {takes : String → Bool} {args args' : List String} {flag flag' : Occurrence}
  {flags flags' : List Occurrence}

theorem flagWords_cons (flag : Occurrence) (flags : List Occurrence) :
    flagWords (flag :: flags) = flag.words ++ flagWords flags := List.flatMap_cons

theorem flagsGiven_cons (flag : Occurrence) (flags : List Occurrence) :
    flagsGiven (flag :: flags) = flag.given ++ flagsGiven flags := List.flatMap_cons

/-! ## One cut at most -/

theorem Occurrence.Before.flagShaped {next : Option String} (h : flag.Before takes next) :
    ∃ w ∈ flag.words.head?, FlagShaped w := by
  cases h with
  | assignment word => exact ⟨_, rfl, _, word, nofun⟩
  | value word => exact ⟨_, rfl, _, word, nofun⟩
  | bare word => exact ⟨_, rfl, _, word, nofun⟩
  | cluster word => exact ⟨_, rfl, _, word, nofun⟩

/-- The first flag of a list of words can be told from the words. -/
theorem Occurrence.Before.unique {rest rest' : List String} (h : flag.Before takes rest.head?)
    (h' : flag'.Before takes rest'.head?) (heq : flag.words ++ rest = flag'.words ++ rest') :
    flag = flag' ∧ rest = rest' := by
  -- A flag is bare in front of a word that another reading takes for its value.
  have clash : ∀ {w w' name name' v : String} {l l' : List String},
      FlagWord.Spells w (.single name) → takes name = true → startsWithDash v = false →
      FlagWord.Spells w' (.single name') →
      (∀ u ∈ l.head?, takes name' = true → startsWithDash u = true) →
      w :: v :: l' = w' :: l → False := by
    intro w w' name name' v l l' hw htakes husable hw' halone he
    cases he
    cases hw.unique hw'
    rw [halone v rfl htakes] at husable
    cases husable
  cases h with
  | assignment word =>
    cases h' with
    | assignment word' =>
      cases heq
      cases word.unique word'
      exact ⟨rfl, rfl⟩
    | value word' => cases heq; cases word.unique word'
    | bare word' => cases heq; cases word.unique word'
    | cluster word' => cases heq; cases word.unique word'
  | value word taken usable =>
    cases h' with
    | assignment word' => cases heq; cases word.unique word'
    | value word' =>
      cases heq
      cases word.unique word'
      exact ⟨rfl, rfl⟩
    | bare word' alone' => exact (clash word taken usable word' alone' heq).elim
    | cluster word' => cases heq; cases word.unique word'
  | bare word alone =>
    cases h' with
    | assignment word' => cases heq; cases word.unique word'
    | value word' taken' usable' => exact (clash word' taken' usable' word alone heq.symm).elim
    | bare word' =>
      cases heq
      cases word.unique word'
      exact ⟨rfl, rfl⟩
    | cluster word' => cases heq; cases word.unique word'
  | cluster word =>
    cases h' with
    | assignment word' => cases heq; cases word.unique word'
    | value word' => cases heq; cases word.unique word'
    | bare word' => cases heq; cases word.unique word'
    | cluster word' =>
      cases heq
      cases word.unique word'
      exact ⟨rfl, rfl⟩

/-- Arguments do not begin with a flag. -/
theorem FlagsBefore.ne_of_args (h : FlagsBefore takes args' (flag :: flags))
    (hargs : ∀ w ∈ args.head?, ¬FlagShaped w) : args ≠ flagWords (flag :: flags) ++ args' := by
  rintro rfl
  cases h with
  | cons first _ =>
    obtain ⟨w, hw, hshape⟩ := first.flagShaped
    obtain ⟨rest, hwords⟩ := List.head?_eq_some_iff.1 hw
    refine hargs w ?_ hshape
    rw [flagWords_cons, hwords]
    rfl

/-- **There is only one way to cut words into flags and arguments.** -/
theorem FlagsBefore.unique (h : FlagsBefore takes args flags) (h' : FlagsBefore takes args' flags')
    (hargs : ∀ w ∈ args.head?, ¬FlagShaped w) (hargs' : ∀ w ∈ args'.head?, ¬FlagShaped w)
    (heq : flagWords flags ++ args = flagWords flags' ++ args') :
    flags = flags' ∧ args = args' := by
  induction h generalizing flags' with
  | nil =>
    cases flags' with
    | nil => exact ⟨rfl, heq⟩
    | cons flag' flags' => exact absurd heq (h'.ne_of_args hargs)
  | @cons flag flags first behind ih =>
    cases h' with
    | nil => exact absurd heq.symm ((FlagsBefore.cons first behind).ne_of_args hargs')
    | @cons flag' flags' first' behind' =>
      rw [flagWords_cons, flagWords_cons, List.append_assoc, List.append_assoc] at heq
      obtain ⟨rfl, hrest⟩ := first.unique first' heq
      obtain ⟨rfl, rfl⟩ := ih behind' hrest
      exact ⟨rfl, rfl⟩

/-! ## The cut that the reader makes -/

theorem FlagSection.exists_flagsBefore {ws : List String} {given : List (String × Option String)}
    (h : FlagSection takes ws given args) :
    ∃ flags, FlagsBefore takes args flags ∧ flagWords flags ++ args = ws ∧
      ∀ w ∈ args.head?, ¬FlagShaped w := by
  induction h with
  | nil => exact ⟨[], .nil, rfl, fun w hw => nomatch hw⟩
  | argument word =>
    refine ⟨[], .nil, rfl, fun w hw => ?_⟩
    cases hw
    exact spells_argument_iff.1 word
  | assignment word _ ih =>
    obtain ⟨flags, hflags, rfl, hargs⟩ := ih
    exact ⟨_, .cons (.assignment word) hflags, by simp [flagWords], hargs⟩
  | value word taken usable _ ih =>
    obtain ⟨flags, hflags, rfl, hargs⟩ := ih
    exact ⟨_, .cons (.value word taken usable) hflags, by simp [flagWords], hargs⟩
  | bare word alone _ ih =>
    obtain ⟨flags, hflags, rfl, hargs⟩ := ih
    exact ⟨_, .cons (.bare word alone) hflags, by simp [flagWords], hargs⟩
  | cluster word _ ih =>
    obtain ⟨flags, hflags, rfl, hargs⟩ := ih
    exact ⟨_, .cons (.cluster word) hflags, by simp [flagWords], hargs⟩

/-- A flag keeps its words when those behind it are cut off. -/
theorem Occurrence.Before.of_head? {next next' : Option String} (h : flag.Before takes next)
    (hnext : ∀ v ∈ next', v ∈ next) : flag.Before takes next' := by
  cases h with
  | assignment word => exact .assignment word
  | value word taken usable => exact .value word taken usable
  | bare word alone => exact .bare word fun v hv => alone v (hnext v hv)
  | cluster word => exact .cluster word

/-- Flags are flags without the arguments too. -/
theorem FlagsBefore.alone (h : FlagsBefore takes args flags) : FlagsBefore takes [] flags := by
  induction h with
  | nil => exact .nil
  | @cons flag flags first behind ih =>
    refine .cons (first.of_head? fun v hv => List.mem_head?_append_of_mem_head? ?_) ih
    rwa [List.append_nil] at hv

/-- The flags of a cut are those that the reader finds in its words. -/
theorem FlagsBefore.flagSection (h : FlagsBefore takes args flags)
    (hargs : ∀ w ∈ args.head?, ¬FlagShaped w) :
    FlagSection takes (flagWords flags ++ args) (flagsGiven flags) args := by
  induction h with
  | nil =>
    cases args with
    | nil => exact .nil
    | cons w args => exact .argument (spells_argument_iff.2 (hargs w rfl))
  | @cons flag flags first behind ih =>
    rw [flagsGiven_cons, flagWords_cons, List.append_assoc]
    cases first with
    | assignment word => exact .assignment word ih
    | value word taken usable => exact .value word taken usable ih
    | bare word alone => exact .bare word alone ih
    | cluster word => exact .cluster word ih

theorem Occurrence.Before.name_ne {next : Option String} (h : flag.Before takes next) :
    ∀ g ∈ flag.given, g.1 ≠ "" := by
  cases h with
  | assignment word => cases word with | assignment named => simpa using named
  | value word =>
    cases word with
    | long named => simpa using named
    | short => simp
  | bare word =>
    cases word with
    | long named => simpa using named
    | short => simp
  | cluster word => cases word with | cluster => simp

/-- No flag has the empty name. -/
theorem FlagsBefore.name_ne (h : FlagsBefore takes args flags) :
    ∀ name ∈ flagNames flags, name ≠ "" := by
  refine List.forall_mem_map.2 ?_
  induction h with
  | nil => exact fun g hg => nomatch hg
  | cons first _ ih =>
    rw [flagsGiven_cons]
    exact List.forall_mem_append.2 ⟨first.name_ne, ih⟩

theorem mem_keys_addFlag {table : Table Flag} {name key : String} {f : Flag} :
    key ∈ (addFlag table name f).keys ↔ key = name ∨ key ∈ table.keys := by
  rw [Table.mem_keys_iff, Table.mem_keys_iff, contains_addFlag, Bool.or_eq_true, decide_eq_true_iff]

theorem mem_keys_foldl_addGiven {key : String} (given : List (String × Option String)) :
    ∀ {table : Table Flag}, key ∈ (given.foldl addGiven table).keys ↔
      key ∈ given.map Prod.fst ∨ key ∈ table.keys := by
  induction given with
  | nil => simp
  | cons g given ih =>
    intro table
    rw [List.foldl_cons, ih, addGiven, mem_keys_addFlag, List.map_cons, List.mem_cons]
    tauto

/-! ## Lines -/

/-- The words name a subcommand where `next` is the word behind them, if there is one: none, if no
words are left, or one word, or two for a stack. -/
inductive Names (next : Option String) : List String → Option String → Prop
  | none (done : next = none) : Names next [] none
  | one {sub : String} (alone : sub = compose → ∀ w ∈ next, startsWithDash w = true) :
    Names next [sub] (some sub)
  | two {w : String} (word : startsWithDash w = false) :
    Names next [compose, w] (some (compose ++ " " ++ w))

/-- The words behind `docker`, cut in three. -/
structure Cut where
  head : List String
  subcommand : Option String
  flags : List Occurrence
  args : List String

/-- The parts are the words, none left out and none twice, and each part is what it says it is:
`head` names the subcommand, the flags are flags under that subcommand, and the arguments, if there
are any, do not begin with a flag. -/
structure Cut.Fits (c : Cut) (ws : List String) : Prop where
  words : c.head ++ (flagWords c.flags ++ c.args) = ws
  subcommand : Names (flagWords c.flags ++ c.args).head? c.head c.subcommand
  flags : FlagsBefore (takesUnder c.subcommand) c.args c.flags
  args : ∀ w ∈ c.args.head?, ¬FlagShaped w

theorem Names.readSubcommand_eq {head rest : List String} {sub : Option String}
    (h : Names rest.head? head sub) : readSubcommand (head ++ rest) = (sub, rest) := by
  cases h with
  | none done =>
    rw [List.head?_eq_none_iff] at done
    subst done
    rfl
  | @one sub alone =>
    cases rest with
    | nil => rfl
    | cons w rest =>
      refine if_neg fun hboth => ?_
      rw [Bool.and_eq_true, decide_eq_true_iff, Bool.not_eq_true'] at hboth
      rw [alone hboth.1 w rfl] at hboth
      cases hboth.2
  | two word => simp [readSubcommand, word]

theorem exists_names (ws : List String) :
    ∃ head, Names (readSubcommand ws).2.head? head (readSubcommand ws).1 ∧
      head ++ (readSubcommand ws).2 = ws := by
  match ws with
  | [] => exact ⟨[], .none rfl, rfl⟩
  | [sub] => exact ⟨[sub], .one fun _ w hw => (nomatch hw), rfl⟩
  | sub :: w :: rest =>
    by_cases hboth : (sub = compose && !startsWithDash w) = true
    · have hread : readSubcommand (sub :: w :: rest) = (some (compose ++ " " ++ w), rest) :=
        if_pos hboth
      rw [hread]
      rw [Bool.and_eq_true, decide_eq_true_iff, Bool.not_eq_true'] at hboth
      obtain ⟨rfl, hw⟩ := hboth
      exact ⟨[compose, w], .two hw, rfl⟩
    · have hread : readSubcommand (sub :: w :: rest) = (some sub, w :: rest) := if_neg hboth
      rw [hread]
      refine ⟨[sub], .one fun hsub v hv => ?_, rfl⟩
      cases hv
      simpa [hsub] using hboth

/-- A subcommand is named by the same words when those behind it are cut off. -/
theorem Names.of_head? {next next' : Option String} {head : List String} {sub : Option String}
    (h : Names next head sub) (hnext : ∀ v ∈ next', v ∈ next) : Names next' head sub := by
  cases h with
  | none done =>
    refine .none (Option.eq_none_iff_forall_not_mem.2 fun v hv => ?_)
    rw [done] at hnext
    exact nomatch hnext v hv
  | one alone => exact .one fun hsub v hv => alone hsub v (hnext v hv)
  | two word => exact .two word

theorem exists_fits (ws : List String) : ∃ c : Cut, c.Fits ws := by
  obtain ⟨head, hhead, hws⟩ := exists_names ws
  obtain ⟨given, args, hsection⟩ :=
    CommandLine.exists_flagSection (takesUnder (readSubcommand ws).1) (readSubcommand ws).2
  obtain ⟨flags, hflags, hwords, hargs⟩ := hsection.exists_flagsBefore
  refine ⟨⟨head, (readSubcommand ws).1, flags, args⟩, ?_, ?_, hflags, hargs⟩
  · rw [hwords, hws]
  · rwa [hwords]

namespace Cut.Fits

variable {c c' : Cut} {ws : List String}

theorem readSubcommand_eq (h : c.Fits ws) :
    readSubcommand ws = (c.subcommand, flagWords c.flags ++ c.args) :=
  h.words ▸ h.subcommand.readSubcommand_eq

/-- **There is only one way to cut the words of a line.** -/
theorem unique (h : c.Fits ws) (h' : c'.Fits ws) : c = c' := by
  have hread : (c.subcommand, flagWords c.flags ++ c.args) =
      (c'.subcommand, flagWords c'.flags ++ c'.args) :=
    h.readSubcommand_eq.symm.trans h'.readSubcommand_eq
  obtain ⟨hsub, hrest⟩ := Prod.mk.inj hread
  obtain ⟨hflags, hargs⟩ := h.flags.unique (hsub ▸ h'.flags) h.args h'.args hrest
  have hwords : c.head ++ (flagWords c.flags ++ c.args) =
      c'.head ++ (flagWords c.flags ++ c.args) := by
    rw [h.words, hrest, h'.words]
  have hhead : c.head = c'.head := List.append_cancel_right hwords
  obtain ⟨head, sub, flags, args⟩ := c
  obtain ⟨head', sub', flags', args'⟩ := c'
  simp only at hhead hsub hflags hargs
  rw [hhead, hsub, hflags, hargs]

/-- The cut without its arguments fits the words without them. -/
theorem withoutArgs (h : c.Fits ws) : ({ c with args := [] } : Cut).Fits
    (c.head ++ flagWords c.flags) where
  words := by rw [List.append_nil]
  subcommand := h.subcommand.of_head? fun v hv => by
    rw [List.append_nil] at hv
    exact List.mem_head?_append_of_mem_head? hv
  flags := h.flags.alone
  args := fun w hw => nomatch hw

/-- What is read from the words that a cut fits. -/
theorem ofWords_eq (h : c.Fits ws) (raw : String) :
    ofWords raw (docker :: ws) =
      { raw, command := docker, subcommand := c.subcommand, args := c.args
        flags := (flagsGiven c.flags).foldl addGiven ∅ } := by
  rw [ofWords_docker, h.readSubcommand_eq, (h.flags.flagSection h.args).readFlags_eq]

end Cut.Fits

/-- **Every word of a line counts once.** The words behind `docker` are cut in one way only, into
those of the subcommand, the flags and the arguments. The reader finds this cut: its arguments are
those of the cut, and its flags are what the flags of the cut give, with or without a value, added
one after the other. So they have the names that these give, none of them empty, and they are the
flags of the line without its arguments, whatever these look like. -/
theorem parse_cut {raw : String} {ws : List String} (hdocker : Words.ofLine raw = docker :: ws) :
    (∃! c : Cut, c.Fits ws) ∧ ∀ c : Cut, c.Fits ws →
      (parse raw).subcommand = c.subcommand ∧ (parse raw).args = c.args ∧
      (parse raw).flags = (flagsGiven c.flags).foldl addGiven ∅ ∧
      (∀ key, key ∈ (parse raw).flags.keys ↔ key ∈ flagNames c.flags) ∧
      (∀ key ∈ flagNames c.flags, key ≠ "") ∧
      (parse raw).flags = (ofWords raw (docker :: (c.head ++ flagWords c.flags))).flags := by
  obtain ⟨c, hc⟩ := exists_fits ws
  refine ⟨⟨c, hc, fun c' hc' => hc'.unique hc⟩, fun c hc => ?_⟩
  have hparse : parse raw = ofWords raw (docker :: ws) := by rw [parse, hdocker]
  rw [hparse, hc.ofWords_eq, hc.withoutArgs.ofWords_eq]
  refine ⟨rfl, rfl, rfl, fun key => ?_, hc.flags.name_ne, rfl⟩
  rw [mem_keys_foldl_addGiven]
  exact or_iff_left List.not_mem_nil

open FlagWord (spells_iff)

/-- The words of a line for a stack: a file, an empty value and a name that begins with a dash, and
arguments that begin with a lone dash. -/
def mixedCut : Cut where
  head := ["compose", "up"]
  subcommand := some "compose up"
  flags := [⟨["-f", ""], [("f", some "")]⟩, ⟨["---x"], [("-x", none)]⟩,
    ⟨["-dp"], [("d", none), ("p", none)]⟩, ⟨["--tail=5=6"], [("tail", some "5=6")]⟩,
    ⟨["--n"], [("n", none)]⟩]
  args := ["-", "--file", "web"]

theorem parse_cut_mixed :
    let raw := "docker compose up -f '' ---x -dp --tail=5=6 --n - --file web"
    Words.ofLine raw = docker :: ["compose", "up", "-f", "", "---x", "-dp", "--tail=5=6", "--n",
        "-", "--file", "web"] ∧
      mixedCut.Fits ["compose", "up", "-f", "", "---x", "-dp", "--tail=5=6", "--n", "-", "--file",
        "web"] ∧
      (parse raw).args = ["-", "--file", "web"] ∧ "-x" ∈ (parse raw).flags.keys ∧
      "file" ∉ (parse raw).flags.keys ∧ (parse raw).flags.get? "f" = some (.value "") ∧
      (parse raw).flags.get? "tail" = some (.value "5=6") := by
  intro raw
  have hwords : Words.ofLine raw = docker :: ["compose", "up", "-f", "", "---x", "-dp",
      "--tail=5=6", "--n", "-", "--file", "web"] := by decide +kernel
  have hfits : mixedCut.Fits ["compose", "up", "-f", "", "---x", "-dp", "--tail=5=6", "--n", "-",
      "--file", "web"] := by
    refine ⟨rfl, .two (by decide), ?_, fun w hw => ?_⟩
    · refine .cons (.value (spells_iff.2 rfl) (by decide) (by decide)) ?_
      refine .cons (.bare (spells_iff.2 rfl) (by decide)) ?_
      refine .cons (@Occurrence.Before.cluster _ _ _ ["d", "p"] (spells_iff.2 rfl)) ?_
      refine .cons (.assignment (spells_iff.2 rfl)) ?_
      exact .cons (.bare (spells_iff.2 rfl) (by decide)) .nil
    · cases hw
      exact spells_argument_iff.1 .dash
  obtain ⟨-, hargs, hflags, hkeys, -⟩ := (parse_cut hwords).2 _ hfits
  refine ⟨hwords, hfits, hargs, (hkeys _).2 (by decide), fun hmem => ?_, ?_, ?_⟩
  · exact absurd ((hkeys _).1 hmem) (by decide)
  · rw [hflags]
    decide
  · rw [hflags]
    decide

end DockerSim.CommandLine

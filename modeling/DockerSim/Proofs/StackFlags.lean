import DockerSim.Evaluate
import DockerSim.Proofs.Words
import DockerSim.Table.Lemmas
import Mathlib.Data.List.TakeWhile

/-!
# Flags in front of the subcommand of a stack

`docker compose` takes its flags in front of its subcommand or behind it. In front of it they are
read without it, and the words behind them, subcommand included, are written as a line that is read
again. Three things make the two forms mean the same: the words of the line are the same, moved
(`Words.ofLine_apart`); a flag is read as it was given last, so that it does not matter whether the
flags in front were merged first or are only added where the others leave room (`readFlags_over`);
and what carries a stack command out asks for nothing but switches and last values
(`dispatch_alike`).

The two forms part in two cases. The words of a line can come back changed from the line that is
made of them. And the names of flags are checked on the line as it was typed, where those behind the
subcommand are arguments still.
-/

namespace DockerSim

/-! ## Words of two texts -/

namespace Words

/-- The words of two texts with a blank between them are those of the first and those of the second:
no quote that is left open in the first is closed in the second. -/
def Apart (before after : String) : Prop :=
  ofLine (before ++ " " ++ after) = ofLine before ++ ofLine after

instance (before after : String) : Decidable (Apart before after) := by
  unfold Apart
  infer_instance

theorem ends_blank (rest : List Char) : Ends (' ' :: rest) := by
  intro c hc
  cases hc
  decide

theorem ne_blank_of_isQuote {q : Char} (h : isQuote q = true) : q ≠ ' ' := by
  rintro rfl
  exact absurd h (by decide)

section Spans

variable {c : Char} {w rest ys zs : List Char}

/-- A quote that is not closed begins a word like any other character. -/
theorem splitFrom_between_word (hblank : Chars.isBlank c = false)
    (hopen : isQuote c = true → c ∉ w ++ rest) (hw : ∀ d ∈ w, Chars.isBlank d = false)
    (hrest : Ends rest) :
    splitFrom .between (c :: (w ++ rest)) = (c :: w) :: splitFrom .between rest := by
  have hword : (isQuote c && (w ++ rest).contains c) = false := by
    cases hq : isQuote c with
    | false => rfl
    | true => simpa using hopen hq
  have hrun := splitFrom_word hw hrest [c]
  rw [splitFrom, if_neg (by simp [hblank]), hword, if_neg (by simp), hrun]
  rfl

/-- Up to the first blank, and from there on. -/
theorem exists_run (cs : List Char) :
    ∃ w rest, cs = w ++ rest ∧ (∀ d ∈ w, Chars.isBlank d = false) ∧ Ends rest := by
  refine ⟨cs.takeWhile fun d => !Chars.isBlank d, cs.dropWhile fun d => !Chars.isBlank d,
    List.takeWhile_append_dropWhile.symm, ?_, ?_⟩
  · intro d hd
    simpa using List.mem_takeWhile_imp hd
  · intro d hd
    have h := List.head?_dropWhile_not (fun d => !Chars.isBlank d) cs
    rw [Option.mem_def.1 hd] at h
    simpa using h

theorem Ends.append_blank (h : Ends rest) (ys : List Char) : Ends (rest ++ ' ' :: ys) := by
  cases rest with
  | nil => exact ends_blank ys
  | cons c rest => exact fun d hd => h d hd

/-- The word at the front of a text goes up to the first blank whatever stands behind the text,
unless it begins with a quote that is closed there. -/
theorem splitFrom_between_open (hblank : Chars.isBlank c = false)
    (hopen : isQuote c = true → c ∉ w ++ rest) (hw : ∀ d ∈ w, Chars.isBlank d = false)
    (hrest : Ends rest) (hys : isQuote c = true → c ∉ ys) :
    splitFrom .between (c :: (w ++ rest) ++ ' ' :: ys) =
      (c :: w) :: splitFrom .between (rest ++ ' ' :: ys) := by
  have hopen' : isQuote c = true → c ∉ w ++ (rest ++ ' ' :: ys) := by
    intro hq
    have hne := ne_blank_of_isQuote hq
    have := hopen hq
    have := hys hq
    simp_all
  simpa using splitFrom_between_word hblank hopen' hw (hrest.append_blank ys)

/-- A quote is not closed behind a text when the word that it begins has no blank in it: the word
would hold the blank behind the text. -/
theorem not_mem_behind {words : List (List Char)} (hq : isQuote c = true) (hopen : c ∉ w ++ rest)
    (hblanks : ∀ d ∈ c :: w, Chars.isBlank d = false)
    (h : splitFrom .between (c :: (w ++ rest) ++ ' ' :: ys) = (c :: w) :: words) : c ∉ ys := by
  intro hc
  obtain ⟨y, ys', rfl, hy⟩ := List.eq_append_cons_of_mem hc
  have hspan : c ∉ w ++ rest ++ ' ' :: y := by
    have hne := ne_blank_of_isQuote hq
    simp_all
  have hmerged := splitFrom_between_quoted hq hspan ys'
  simp only [List.cons_append, List.append_assoc] at h hmerged
  rw [hmerged, List.cons.injEq] at h
  have hblank : ' ' ∈ c :: w := by
    rw [← h.1]
    simp
  exact absurd (hblanks _ hblank) (by decide)

/-- What two texts with a blank between them are split into depends on the second one's quotes only:
by induction on the length of the first, span by span. -/
theorem splitFrom_apart (same : ∀ q, isQuote q = true → (q ∈ zs ↔ q ∈ ys)) :
    ∀ xs : List Char,
      splitFrom .between (xs ++ ' ' :: ys) = splitFrom .between xs ++ splitFrom .between ys →
      splitFrom .between (xs ++ ' ' :: zs) = splitFrom .between xs ++ splitFrom .between zs
  | [], _ => by simp [splitFrom, splitFrom_blank (by decide : Chars.isBlank ' ' = true)]
  | c :: cs, h => by
    by_cases hblank : Chars.isBlank c = true
    · rw [List.cons_append, splitFrom_blank hblank, splitFrom_blank hblank] at h ⊢
      exact splitFrom_apart same cs h
    rw [Bool.not_eq_true] at hblank
    by_cases hspan : isQuote c = true ∧ c ∈ cs
    · -- the span that `c` opens is closed within the first text
      obtain ⟨w, rest, rfl, hw⟩ := List.eq_append_cons_of_mem hspan.2
      have hread := fun tail => splitFrom_between_quoted hspan.1 hw tail
      have hrest := splitFrom_apart same rest
      simp only [List.cons_append, List.append_assoc] at h hread ⊢
      rw [hread, hread, List.cons_append, List.cons.injEq] at h
      rw [hread, hread, List.cons_append, hrest h.2]
    · obtain ⟨w, rest, rfl, hw, hends⟩ := exists_run cs
      have hopen : isQuote c = true → c ∉ w ++ rest := fun hq hc => hspan ⟨hq, hc⟩
      have hfirst := splitFrom_between_word hblank hopen hw hends
      rw [hfirst] at h
      have hys : isQuote c = true → c ∉ ys := fun hq =>
        not_mem_behind hq (hopen hq) (List.forall_mem_cons.2 ⟨hblank, hw⟩) h
      have hzs : isQuote c = true → c ∉ zs := fun hq hc => hys hq ((same c hq).1 hc)
      rw [splitFrom_between_open hblank hopen hw hends hys, List.cons_append, List.cons.injEq] at h
      rw [splitFrom_between_open hblank hopen hw hends hzs, hfirst, List.cons_append,
        splitFrom_apart same rest h.2]
termination_by xs => xs.length
decreasing_by all_goals simp_all; try omega

end Spans

/-- A word that stands for itself at the front of a line. -/
theorem ofLine_cons {w : String} (hw : needsQuotes w.toList = false) (s : String) :
    ofLine (w ++ (" " ++ s)) = w :: ofLine s := by
  have blank : Chars.isBlank ' ' = true := by decide
  have hread := splitFrom_between_plain hw (ends_blank s.toList)
  rw [splitFrom_blank blank] at hread
  simp [ofLine, hread]

theorem apart_iff {before after : String} : Apart before after ↔
    splitFrom .between (before.toList ++ ' ' :: after.toList) =
      splitFrom .between before.toList ++ splitFrom .between after.toList := by
  unfold Apart ofLine
  rw [← List.map_append, List.map_inj_right fun _ _ h => String.ofList_injective h]
  simp

/-- A word without quotes between two texts that are apart. -/
theorem ofLine_apart {before after w : String} (h : Apart before after)
    (hw : needsQuotes w.toList = false) (hq : ∀ c ∈ w.toList, isQuote c = false) :
    ofLine (before ++ (" " ++ (w ++ (" " ++ after)))) = ofLine before ++ w :: ofLine after := by
  have same : ∀ q, isQuote q = true →
      (q ∈ (w ++ (" " ++ after)).toList ↔ q ∈ after.toList) := by
    intro q hquote
    have hne := ne_blank_of_isQuote hquote
    have hnot : q ∉ w.toList := fun hmem => by simp [hq q hmem] at hquote
    simp [hne, hnot]
  have hmoved : Apart before (w ++ (" " ++ after)) :=
    apart_iff.2 (splitFrom_apart same _ (apart_iff.1 h))
  rw [← ofLine_cons hw after, ← hmoved, String.append_assoc]

end Words

/-! ## How flags are read -/

/-- What handlers ask of a flag: whether it is a switch, and the last value it was given. -/
def reading (flag : Option Flag) : Bool × Option String :=
  (flag = some (.switch true), flag.bind Flag.last?)

namespace CommandLine

/-- A flag as it is given at one place of a line. -/
inductive Given : Flag → Prop
  | switch : Given (.switch true)
  | value (v : String) : Given (.value v)

/-- A flag that is given again is read as it is given last. -/
theorem reading_mergeFlag {flag : Flag} (h : Given flag) (before : Option Flag) :
    reading (some (mergeFlag before flag)) = reading (some flag) := by
  cases h with
  | switch =>
    have : mergeFlag before (.switch true) = .switch true := by
      unfold mergeFlag
      split <;> first | rfl | contradiction
    rw [this]
  | value v =>
    unfold mergeFlag
    split <;> simp_all [reading, Flag.last?]

/-- One table of flags holds another on top of a third: it has the names of both, and each is read
as in the second where that has it. -/
structure Over (merged top bottom : Table Flag) : Prop where
  reading : ∀ name, reading (merged.get? name) = reading (top.get? name <|> bottom.get? name)
  contains : ∀ name, merged.contains name = (top.contains name || bottom.contains name)

variable {merged top bottom : Table Flag}

theorem over_empty (bottom : Table Flag) : Over bottom ∅ bottom :=
  ⟨fun _ => rfl, fun _ => rfl⟩

theorem contains_addFlag (flags : Table Flag) (name key : String) (flag : Flag) :
    (addFlag flags name flag).contains key = (key = name || flags.contains key) := by
  unfold addFlag Table.contains
  rw [Table.get?_insert]
  by_cases h : key = name <;> simp [h]

theorem Over.addFlag (h : Over merged top bottom) (name : String) {flag : Flag}
    (hflag : Given flag) :
    Over (addFlag merged name flag) (addFlag top name flag) bottom where
  reading key := by
    unfold CommandLine.addFlag
    rw [Table.get?_insert, Table.get?_insert]
    split
    · rw [reading_mergeFlag hflag]
      exact (reading_mergeFlag hflag _).symm
    · exact h.reading key
  contains key := by
    rw [contains_addFlag, contains_addFlag, h.contains, Bool.or_assoc]

theorem Over.foldl_switches (names : List String) (h : Over merged top bottom) :
    Over (names.foldl (fun fs name => CommandLine.addFlag fs name (.switch true)) merged)
      (names.foldl (fun fs name => CommandLine.addFlag fs name (.switch true)) top) bottom := by
  induction names generalizing merged top with
  | nil => exact h
  | cons name names ih => exact ih (h.addFlag name .switch)

/-! ## Reading flags word by word -/

section Words

variable {takes : String → Bool} {flags : Table Flag} {w v name : String} {ws : List String}

theorem readFlags_argument (h : FlagWord.ofWord w = .argument) :
    readFlags takes flags (w :: ws) = (flags, w :: ws) := by
  rw [readFlags]
  simp only [h]

theorem readFlags_assignment (h : FlagWord.ofWord w = .assignment name v) :
    readFlags takes flags (w :: ws) = readFlags takes (addFlag flags name (.value v)) ws := by
  rw [readFlags]
  simp only [h]

theorem readFlags_cluster {names : List String} (h : FlagWord.ofWord w = .cluster names) :
    readFlags takes flags (w :: ws) =
      readFlags takes (names.foldl (fun fs name => addFlag fs name (.switch true)) flags) ws := by
  rw [readFlags]
  simp only [h]

theorem readFlags_value (h : FlagWord.ofWord w = .single name)
    (hv : (takes name && !startsWithDash v) = true) :
    readFlags takes flags (w :: v :: ws) = readFlags takes (addFlag flags name (.value v)) ws := by
  rw [readFlags]
  simp only [h, hv, if_true]

theorem readFlags_switch (h : FlagWord.ofWord w = .single name)
    (hv : ∀ v ∈ ws.head?, (takes name && !startsWithDash v) = false) :
    readFlags takes flags (w :: ws) = readFlags takes (addFlag flags name (.switch true)) ws := by
  rw [readFlags]
  cases ws with
  | nil => simp only [h, readFlags]
  | cons v ws =>
    have := hv v rfl
    simp only [h, this, Bool.false_eq_true, if_false]

end Words

/-- **Flags that are read on top of others are read the same as alone**, and leave the same words:
by induction along the words. -/
theorem readFlags_over (h : Over merged top bottom) (takes : String → Bool) (ws : List String) :
    Over (readFlags takes merged ws).1 (readFlags takes top ws).1 bottom ∧
      (readFlags takes merged ws).2 = (readFlags takes top ws).2 := by
  fun_induction readFlags takes top ws generalizing merged with
  | case1 top => exact ⟨h, rfl⟩
  | case2 top w ws hw =>
    rw [readFlags_argument hw]
    exact ⟨h, rfl⟩
  | case3 top w ws name value hw ih =>
    rw [readFlags_assignment hw]
    exact ih (h.addFlag name (.value value))
  | case4 top w ws names hw ih =>
    rw [readFlags_cluster hw]
    exact ih (h.foldl_switches names)
  | case5 top w name hw v rest htakes ih =>
    rw [readFlags_value hw htakes]
    exact ih (h.addFlag name (.value v))
  | case6 top w name hw v rest htakes ih =>
    rw [readFlags_switch hw fun _ hv => by cases hv; simpa using htakes]
    exact ih (h.addFlag name .switch)
  | case7 top w name hw =>
    rw [readFlags_switch hw (by simp)]
    exact ⟨h.addFlag name .switch, rfl⟩

/-! ## Flags up to the subcommand -/

theorem ofWord_of_startsWithDash {w : String} (h : startsWithDash w = false) :
    FlagWord.ofWord w = .argument := by
  unfold startsWithDash at h
  unfold FlagWord.ofWord
  split <;> first | rfl | simp_all

/-- Words that are read as flags in front of one argument, and leave it alone, are read so in front
of any words. -/
theorem readFlags_append {takes : String → Bool} {flags : Table Flag} {w : String}
    (hw : startsWithDash w = false) (rest : List String) :
    ∀ (ws : List String) {before : Table Flag},
      readFlags takes before (ws ++ [w]) = (flags, [w]) →
        readFlags takes before (ws ++ w :: rest) = (flags, w :: rest) ∧
          readFlags takes before (ws ++ rest) = readFlags takes flags rest
  | [], before, h => by
    have harg := ofWord_of_startsWithDash hw
    rw [List.nil_append, readFlags_argument harg, Prod.mk.injEq] at h
    rw [List.nil_append, readFlags_argument harg, h.1]
    exact ⟨rfl, rfl⟩
  | x :: ws, before, h => by
    rw [List.cons_append] at h
    rw [List.cons_append, List.cons_append]
    cases hx : FlagWord.ofWord x with
    | argument =>
      rw [readFlags_argument hx, Prod.mk.injEq] at h
      simp at h
    | assignment name value =>
      rw [readFlags_assignment hx] at h ⊢
      rw [readFlags_assignment hx]
      exact readFlags_append hw rest ws h
    | cluster names =>
      rw [readFlags_cluster hx] at h ⊢
      rw [readFlags_cluster hx]
      exact readFlags_append hw rest ws h
    | single name =>
      cases ws with
      | nil =>
        cases htakes : takes name with
        | true =>
          -- the argument would be the value of the flag
          rw [List.nil_append, readFlags_value hx (by simp [htakes, hw]), readFlags] at h
          simp at h
        | false =>
          have hswitch : ∀ ws : List String, readFlags takes before (x :: ws) =
              readFlags takes (addFlag before name (.switch true)) ws :=
            fun ws => readFlags_switch hx fun v _ => by simp [htakes]
          rw [hswitch] at h ⊢
          rw [hswitch]
          exact readFlags_append hw rest [] h
      | cons v ws =>
        rw [List.cons_append] at h
        rw [List.cons_append, List.cons_append]
        cases hv : takes name && !startsWithDash v with
        | true =>
          rw [readFlags_value hx hv] at h ⊢
          rw [readFlags_value hx hv]
          exact readFlags_append hw rest ws h
        | false =>
          have hswitch : ∀ ws : List String, readFlags takes before (x :: v :: ws) =
              readFlags takes (addFlag before name (.switch true)) (v :: ws) :=
            fun ws => readFlags_switch hx fun _ hd => by cases hd; exact hv
          rw [hswitch] at h ⊢
          rw [hswitch]
          exact readFlags_append hw rest (v :: ws) h

/-! ## Command lines that are read the same -/

/-- Two command lines that a command cannot tell apart, if it asks for arguments, switches and last
values. -/
structure Alike (c d : CommandLine) : Prop where
  subcommand : c.subcommand = d.subcommand
  args : c.args = d.args
  flags : ∀ name, DockerSim.reading (c.flags.get? name) = DockerSim.reading (d.flags.get? name)

namespace Alike

variable {c d : CommandLine}

theorem switch (h : c.Alike d) (name : String) : c.switch name = d.switch name :=
  (Prod.mk.inj (h.flags name)).1

theorem anySwitch (h : c.Alike d) (names : List String) :
    c.anySwitch names = d.anySwitch names := by
  unfold CommandLine.anySwitch
  rw [funext h.switch]

theorem value? (h : c.Alike d) (names : List String) : c.value? names = d.value? names := by
  unfold CommandLine.value?
  rw [funext fun name => (Prod.mk.inj (h.flags name)).2]

end Alike

theorem Alike.wantsHelp {c d : CommandLine} (h : c.Alike d) : c.wantsHelp = d.wantsHelp :=
  h.anySwitch _

theorem runSubcommand_alike {r : Request} {c d : CommandLine} (h : c.Alike d) {sub : String}
    (hsub : sub ∈ composeSubcommands.map fun name => compose ++ " " ++ name) :
    runSubcommand { r with line := c } sub = runSubcommand { r with line := d } sub := by
  have hnames : (composeSubcommands.map fun name => compose ++ " " ++ name) =
      ["compose up", "compose down", "compose ps", "compose logs"] := by decide
  rw [hnames] at hsub
  simp only [List.mem_cons, List.not_mem_nil, or_false] at hsub
  rcases hsub with rfl | rfl | rfl | rfl
  · show Stack.up _ = Stack.up _
    simp only [Stack.up, Stack.stackFile, Stack.upServices, Request.stackFileNames, h.value?,
      h.anySwitch]
  · show Stack.down _ = Stack.down _
    simp only [Stack.down]
  · show pure (Stack.ps _) = pure (Stack.ps _)
    simp only [Stack.ps]
  · show pure (Stack.logs _) = pure (Stack.logs _)
    simp only [Stack.logs, h.value?, h.args]

/-- The command of a stack is carried out the same for lines that are read the same. -/
theorem dispatch_alike {r : Request} {c d : CommandLine} (h : c.Alike d) {sub : String}
    (hsub : sub ∈ composeSubcommands.map fun name => compose ++ " " ++ name)
    (hd : d.subcommand = some sub) :
    dispatch { r with line := c } = dispatch { r with line := d } := by
  have hc : c.subcommand = some sub := h.subcommand.trans hd
  unfold dispatch
  simp only [hc, hd, h.wantsHelp, runSubcommand_alike h hsub]

/-! ## The two forms of a line -/

/-- The line of a stack command with flags in front of the subcommand. -/
def inFront (flags sub rest : String) : String :=
  "docker compose " ++ flags ++ " " ++ sub ++ " " ++ rest

/-- The line of a stack command with the same flags behind the subcommand. -/
def behind (flags sub rest : String) : String :=
  "docker compose " ++ sub ++ " " ++ flags ++ " " ++ rest

/-- The text holds flags with their values and nothing else: in front of a subcommand it leaves that
alone. -/
def IsFlagText (text : String) : Prop :=
  ∀ sub ∈ composeSubcommands,
    (readFlags (takesValue compose) ∅ (Words.ofLine text ++ [sub])).2 = [sub]

instance (text : String) : Decidable (IsFlagText text) := by
  unfold IsFlagText
  infer_instance

/-- The flags at the front of a text that stands behind `compose`. -/
def flagsOf (text : String) : Table Flag :=
  (readFlags (takesValue compose) ∅ (Words.ofLine text)).1

variable {flags sub rest raw w : String} {ws : List String}

theorem plain_of_subcommand (h : sub ∈ composeSubcommands) :
    Words.needsQuotes sub.toList = false ∧ sub.toList.any Words.isQuote = false ∧
      startsWithDash sub = false := by
  revert sub
  decide

theorem ofLine_inFront (hsub : sub ∈ composeSubcommands) (h : Words.Apart flags rest) :
    Words.ofLine (inFront flags sub rest) =
      docker :: compose :: (Words.ofLine flags ++ sub :: Words.ofLine rest) := by
  obtain ⟨hplain, hquotes, -⟩ := plain_of_subcommand hsub
  have hline : inFront flags sub rest =
      docker ++ (" " ++ (compose ++ (" " ++ (flags ++ (" " ++ (sub ++ (" " ++ rest))))))) := by
    unfold inFront
    rw [show "docker compose " = docker ++ (" " ++ (compose ++ " ")) by decide]
    simp only [String.append_assoc]
  rw [hline, Words.ofLine_cons (by decide), Words.ofLine_cons (by decide),
    Words.ofLine_apart h hplain fun c hc => by simpa using List.any_eq_false.1 hquotes c hc]

theorem ofLine_subcommand (hsub : sub ∈ composeSubcommands) (text : String) :
    Words.ofLine ("docker compose " ++ sub ++ " " ++ text) =
      docker :: compose :: sub :: Words.ofLine text := by
  have hline : "docker compose " ++ sub ++ " " ++ text =
      docker ++ (" " ++ (compose ++ (" " ++ (sub ++ (" " ++ text))))) := by
    rw [show "docker compose " = docker ++ (" " ++ (compose ++ " ")) by decide]
    simp only [String.append_assoc]
  rw [hline, Words.ofLine_cons (by decide), Words.ofLine_cons (by decide),
    Words.ofLine_cons (plain_of_subcommand hsub).1]

theorem ofLine_behind (hsub : sub ∈ composeSubcommands) (h : Words.Apart flags rest) :
    Words.ofLine (behind flags sub rest) =
      docker :: compose :: sub :: (Words.ofLine flags ++ Words.ofLine rest) := by
  unfold Words.Apart at h
  rw [← h, ← ofLine_subcommand hsub]
  unfold behind
  simp only [String.append_assoc]

/-- A line whose words go on with a subcommand behind `compose`. -/
theorem ofWords_subcommand (hsub : sub ∈ composeSubcommands) :
    ofWords raw (docker :: compose :: sub :: ws) =
      { raw, command := docker, subcommand := some (compose ++ " " ++ sub)
        args := (readFlags (takesValue compose) ∅ ws).2
        flags := (readFlags (takesValue compose) ∅ ws).1 } := by
  have hbase : Text.before ' ' (compose ++ " " ++ sub) = compose := by
    revert sub
    decide
  simp [ofWords, readSubcommand, (plain_of_subcommand hsub).2.2, hbase]

/-- A line whose words go on with flags behind `compose`. -/
theorem ofWords_flags (hw : startsWithDash w = true) :
    ofWords raw (docker :: compose :: w :: ws) =
      { raw, command := docker, subcommand := some compose
        args := (readFlags (takesValue compose) ∅ (w :: ws)).2
        flags := (readFlags (takesValue compose) ∅ (w :: ws)).1 } := by
  have hbase : Text.before ' ' compose = compose := by decide
  simp [ofWords, readSubcommand, hw, hbase]

theorem IsFlagText.readFlags_append (h : IsFlagText flags) (hsub : sub ∈ composeSubcommands)
    (ws : List String) :
    readFlags (takesValue compose) ∅ (Words.ofLine flags ++ sub :: ws) =
        (flagsOf flags, sub :: ws) ∧
      readFlags (takesValue compose) ∅ (Words.ofLine flags ++ ws) =
        readFlags (takesValue compose) (flagsOf flags) ws := by
  have hdash := (plain_of_subcommand hsub).2.2
  have hfront : readFlags (takesValue compose) ∅ (Words.ofLine flags ++ [sub]) =
      ((readFlags (takesValue compose) ∅ (Words.ofLine flags ++ [sub])).1, [sub]) :=
    Prod.ext rfl (h sub hsub)
  generalize (readFlags (takesValue compose) ∅ (Words.ofLine flags ++ [sub])).1 = read at hfront
  have hread : flagsOf flags = read := by
    have := (CommandLine.readFlags_append hdash [] _ hfront).2
    rw [List.append_nil] at this
    unfold flagsOf
    rw [this, readFlags]
  rw [hread]
  exact CommandLine.readFlags_append hdash ws _ hfront

/-- Text that begins with a word begins with a flag. -/
theorem IsFlagText.startsWithDash (h : IsFlagText flags) (hw : Words.ofLine flags = w :: ws) :
    startsWithDash w = true := by
  by_contra hdash
  rw [Bool.not_eq_true] at hdash
  have hup := h "up" (by decide)
  rw [hw, List.cons_append, readFlags_argument (ofWord_of_startsWithDash hdash)] at hup
  simp at hup

theorem parse_behind (hsub : sub ∈ composeSubcommands) (hflags : IsFlagText flags)
    (h : Words.Apart flags rest) :
    parse (behind flags sub rest) =
      { raw := behind flags sub rest, command := docker
        subcommand := some (compose ++ " " ++ sub)
        args := (readFlags (takesValue compose) (flagsOf flags) (Words.ofLine rest)).2
        flags := (readFlags (takesValue compose) (flagsOf flags) (Words.ofLine rest)).1 } := by
  unfold parse
  rw [ofLine_behind hsub h, ofWords_subcommand hsub,
    (hflags.readFlags_append hsub (Words.ofLine rest)).2]

theorem parse_inFront (hsub : sub ∈ composeSubcommands) (hflags : IsFlagText flags)
    (h : Words.Apart flags rest) (hne : Words.ofLine flags ≠ []) :
    parse (inFront flags sub rest) =
      { raw := inFront flags sub rest, command := docker, subcommand := some compose
        args := sub :: Words.ofLine rest, flags := flagsOf flags } := by
  obtain ⟨w, ws, hw⟩ := List.exists_cons_of_ne_nil hne
  have hread := (hflags.readFlags_append hsub (Words.ofLine rest)).1
  unfold parse
  rw [ofLine_inFront hsub h]
  rw [hw, List.cons_append] at hread ⊢
  rw [ofWords_flags (hflags.startsWithDash hw), hread]

/-- Without flags both forms have the same words. -/
theorem parse_inFront_nil (hsub : sub ∈ composeSubcommands) (h : Words.Apart flags rest)
    (hnil : Words.ofLine flags = []) :
    parse (inFront flags sub rest) =
      { parse (behind flags sub rest) with raw := inFront flags sub rest } := by
  unfold parse
  rw [ofLine_inFront hsub h, ofLine_behind hsub h, hnil, List.nil_append, List.nil_append,
    ofWords_subcommand hsub, ofWords_subcommand hsub]

/-! ## Bringing the flags together -/

/-- Entries are added where a table leaves room. -/
theorem get?_fillIn (name : String) :
    ∀ (entries : List (String × Flag)) (t : Table Flag),
      (entries.foldl (fun fs (name, flag) =>
        if fs.contains name then fs else fs.insert name flag) t).get? name =
        (t.get? name <|> entries.lookup name)
  | [], t => by simp
  | (key, flag) :: entries, t => by
    rw [List.foldl_cons, get?_fillIn name entries, Table.lookup_cons_pair]
    dsimp only
    split
    · next hkey =>
      obtain ⟨old, hold⟩ := Table.contains_iff.1 hkey
      by_cases h : name = key
      · subst h
        simp [hold]
      · simp [h]
    · next hkey =>
      rw [Table.get?_insert]
      by_cases h : name = key
      · subst h
        have hnone : t.get? name = none := by simpa [Table.contains] using hkey
        simp [hnone]
      · simp [h]

/-- The usual form of a line with flags in front is read as the line with these flags behind, if the
words of the rest come back from the line that is made of them. -/
theorem normalized_alike (hsub : sub ∈ composeSubcommands) (hflags : IsFlagText flags)
    (h : Words.Apart flags rest)
    (hrest : Words.ofLine (Words.join (Words.ofLine rest)) = Words.ofLine rest) :
    (parse (inFront flags sub rest)).normalized.Alike (parse (behind flags sub rest)) := by
  rw [parse_behind hsub hflags h]
  obtain ⟨hreading, hargs⟩ :=
    readFlags_over (over_empty (flagsOf flags)) (takesValue compose) (Words.ofLine rest)
  by_cases hne : Words.ofLine flags = []
  · have hsame : compose ++ " " ++ sub ≠ compose := by
      revert sub
      decide
    rw [parse_inFront_nil hsub h hne, parse_behind hsub hflags h]
    simp only [normalized, Option.some.injEq, if_neg hsame]
    exact ⟨rfl, rfl, fun _ => rfl⟩
  · have hreread : parse ("docker compose " ++ sub ++ " " ++ Words.join (Words.ofLine rest)) =
        { raw := "docker compose " ++ sub ++ " " ++ Words.join (Words.ofLine rest)
          command := docker, subcommand := some (compose ++ " " ++ sub)
          args := (readFlags (takesValue compose) ∅ (Words.ofLine rest)).2
          flags := (readFlags (takesValue compose) ∅ (Words.ofLine rest)).1 } := by
      rw [parse, ofLine_subcommand hsub, hrest, ofWords_subcommand hsub]
    have hfirst : composeSubcommands.contains sub = true := by simpa using hsub
    rw [parse_inFront hsub hflags h hne]
    simp only [normalized, hreread, hfirst, if_true]
    refine ⟨rfl, hargs.symm, fun name => ?_⟩
    rw [get?_fillIn]
    exact (hreading.reading name).symm

/-! ## The check of the names -/

theorem raw_parse (raw : String) : (parse raw).raw = raw := by
  unfold parse ofWords
  split
  · rfl
  · split <;> rfl

/-- Of a line for `docker` only the names of its flags can be at fault. -/
theorem fault?_parse (h : (parse raw).command = docker) :
    (parse raw).fault? =
      ((parse raw).flags.keys.find? fun name => !isFlagName name).map .malformedFlag := by
  have hdocker : (parse raw).isDocker = true := by simp [isDocker, h]
  unfold fault?
  rw [hdocker, raw_parse, Bool.not_true, Bool.false_and, if_neg (by simp)]
  split
  · next hfind => rw [hfind, Option.map_some]
  · next hfind =>
    rw [hfind]
    simp

/-- Tables that have the same names of a kind list them in the same order. -/
theorem find?_keys_congr {s t : Table Flag} {p : String → Bool}
    (h : ∀ key, p key = true → s.contains key = t.contains key) :
    s.keys.find? p = t.keys.find? p := by
  have hfilter : (s.filter fun key _ => p key).mapValues (fun _ _ => ()) =
      (t.filter fun key _ => p key).mapValues (fun _ _ => ()) := by
    refine Table.ext_get? fun key => ?_
    rw [Table.get?_mapValues, Table.get?_mapValues, Table.get?_filter, Table.get?_filter]
    cases hp : p key with
    | false => simp
    | true =>
      have := h key hp
      unfold Table.contains at this
      cases hs : s.get? key <;> cases ht : t.get? key <;> simp_all [Option.filter]
  have hkeys := congrArg (fun u => u.keys.head?) hfilter
  simpa [Table.keys, Table.mapValues, Table.filter, List.find?_map, Function.comp_def] using hkeys

theorem command_inFront (hsub : sub ∈ composeSubcommands) (hflags : IsFlagText flags)
    (h : Words.Apart flags rest) : (parse (inFront flags sub rest)).command = docker := by
  by_cases hne : Words.ofLine flags = []
  · rw [parse_inFront_nil hsub h hne, parse_behind hsub hflags h]
  · rw [parse_inFront hsub hflags h hne]

theorem normalized_behind (hsub : sub ∈ composeSubcommands) (hflags : IsFlagText flags)
    (h : Words.Apart flags rest) :
    (parse (behind flags sub rest)).normalized = parse (behind flags sub rest) := by
  have hsame : compose ++ " " ++ sub ≠ compose := by
    revert sub
    decide
  rw [parse_behind hsub hflags h]
  unfold normalized
  rw [if_neg (by simpa using hsame)]

/-- Where the rest has no malformed name, both forms have the same fault: it is a name of the flags
that are moved. -/
theorem fault?_inFront (hsub : sub ∈ composeSubcommands) (hflags : IsFlagText flags)
    (h : Words.Apart flags rest) (hnames : ∀ name ∈ (flagsOf rest).keys, isFlagName name = true) :
    (parse (inFront flags sub rest)).fault? = (parse (behind flags sub rest)).fault? := by
  have hbehind := parse_behind hsub hflags h
  rw [fault?_parse (command_inFront hsub hflags h), fault?_parse (by rw [hbehind])]
  refine congrArg (Option.map CommandFault.malformedFlag) ?_
  by_cases hne : Words.ofLine flags = []
  · rw [parse_inFront_nil hsub h hne]
  · refine find?_keys_congr fun key hkey => ?_
    have hover :=
      (readFlags_over (over_empty (flagsOf flags)) (takesValue compose) (Words.ofLine rest)).1
    have hfine : (flagsOf rest).contains key = false := by
      by_contra hcontains
      rw [Bool.not_eq_false] at hcontains
      simp [hnames key (Table.mem_keys_iff.2 hcontains)] at hkey
    have hkeys := hover.contains key
    rw [← flagsOf, hfine, Bool.false_or] at hkeys
    rw [parse_inFront hsub hflags h hne, hbehind, hkeys]

end CommandLine

/-! ## The two forms are evaluated the same -/

open CommandLine

/-- A line for `docker` is refused for the names of its flags, or dispatched in its usual form. -/
theorem evaluate_docker {r : Request} {c : CommandLine} (h : c.command = docker) :
    evaluate { r with line := c } =
      match c.fault? with
      | some fault => return .refuse (.invalidCommand fault)
      | none => dispatch { r with line := c.normalized } := by
  have hname : docker ≠ "" := by decide
  have hdocker : c.isDocker = true := by simp [isDocker, h]
  unfold evaluate
  dsimp only
  cases c.fault? with
  | some fault => rfl
  | none => simp only [h, hdocker, hname, Bool.not_true, Bool.false_eq_true, if_false]

/-- **Flags in front of the subcommand of a stack mean the same as behind it**, if the words of the
rest come back from the line that is made of them and no name of its flags is malformed. When a name
is, the line with the flags in front is carried out all the same: the check sees only these
flags. -/
theorem evaluate_inFront (r : Request) {flags sub rest : String}
    (hsub : sub ∈ composeSubcommands) (hflags : IsFlagText flags)
    (hapart : Words.Apart flags rest)
    (hrest : Words.ofLine (Words.join (Words.ofLine rest)) = Words.ofLine rest) :
    ((∀ name ∈ (flagsOf rest).keys, isFlagName name = true) →
      evaluate { r with line := parse (inFront flags sub rest) } =
        evaluate { r with line := parse (behind flags sub rest) }) ∧
    (Words.ofLine flags ≠ [] → (∀ name ∈ (flagsOf flags).keys, isFlagName name = true) →
      evaluate { r with line := parse (inFront flags sub rest) } =
        dispatch { r with line := parse (behind flags sub rest) }) := by
  have hbehind := parse_behind hsub hflags hapart
  have hdispatch : dispatch { r with line := (parse (inFront flags sub rest)).normalized } =
      dispatch { r with line := parse (behind flags sub rest) } :=
    dispatch_alike (normalized_alike hsub hflags hapart hrest)
      (List.mem_map_of_mem hsub) (by rw [hbehind])
  rw [evaluate_docker (command_inFront hsub hflags hapart), hdispatch]
  constructor
  · intro hnames
    rw [evaluate_docker (c := parse (behind flags sub rest)) (by rw [hbehind]),
      fault?_inFront hsub hflags hapart hnames, normalized_behind hsub hflags hapart]
  · intro hne hnames
    have hfault : (parse (inFront flags sub rest)).fault? = none := by
      rw [fault?_parse (command_inFront hsub hflags hapart),
        parse_inFront hsub hflags hapart hne, Option.map_eq_none_iff, List.find?_eq_none]
      intro name hname
      simp [hnames name hname]
    rw [hfault]

/-- A request without a workspace, in the empty state. -/
def Request.ofLine (line : CommandLine) : Request :=
  { state := .empty, line, files := none, stackFiles := [] }

/-- Values in quotes and without, a flag given three times, a switch, and a service in quotes. -/
theorem evaluate_inFront_quoted :
    let flags := "-f \"my stack.yml\" --tail=5 -d"
    let rest := "--tail 3 -n=4 --tail '7' web \"a 'b'\""
    (IsFlagText flags ∧ Words.Apart flags rest) ∧
      evaluate (.ofLine (parse (inFront flags "logs" rest))) =
        evaluate (.ofLine (parse (behind flags "logs" rest))) := by
  intro flags rest
  have hflags : IsFlagText flags := by decide +kernel
  have hapart : Words.Apart flags rest := by decide +kernel
  have hnames : ∀ name ∈ (flagsOf rest).keys, isFlagName name = true := by decide +kernel
  exact ⟨⟨hflags, hapart⟩, (evaluate_inFront (.ofLine (parse "")) (by decide) hflags hapart
    (by decide +kernel)).1 hnames⟩

/-- A word that holds both quotes is not put in quotes, and is taken apart when the word behind it
gets some: the file that is asked for is another one. And a flag with a blank in its name is refused
behind the subcommand, but not when other flags stand in front of it. -/
theorem evaluate_inFront_parts :
    let output (raw : String) := (evaluate (.ofLine (parse raw)) .fresh).1.output
    let unquoted := "-f \"a'b 'x y'"
    let malformed := "\"--a b\""
    IsFlagText "-d" ∧ Words.Apart "-d" unquoted ∧ Words.Apart "-d" malformed ∧
      output (behind "-d" "up" unquoted) = ["open \"a'b: no such file or directory"] ∧
      output (inFront "-d" "up" unquoted) = ["open a'b : no such file or directory"] ∧
      output (behind "-d" "up" malformed) = ["invalid command: malformed flag name \"a b\""] ∧
      output (inFront "-d" "up" malformed) =
        ["validating compose file: no compose.yml found in workspace"] := by
  decide +kernel

end DockerSim

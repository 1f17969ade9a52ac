import DockerSim.Proofs.FlagValues

/-!
# Two ways to give a flag its value

A flag is given its value in the next word, `--name web`, or in the same one, `--name=web`. Which
flags take the next word is laid down for each subcommand (`valueFlags`), apart from the commands,
which look up the values of certain flags (`valuesRead`). Where a flag takes it, the two forms of a
line are parsed to the same but for their text, and no command looks at the text.

The long names `publish`, `env` and `volume` are looked up by `run` and do not take the next word:
there the flag is a switch, and its value is taken for the image.
-/

namespace DockerSim

/-! ## The text of a line does not matter -/

theorem dispatch_raw (r : Request) (c : CommandLine) (raw : String) :
    dispatch { r with line := { c with raw } } = dispatch { r with line := c } := rfl

theorem CommandLine.normalized_raw (c : CommandLine) (raw : String) :
    { c with raw }.normalized = { c.normalized with raw } := by
  unfold normalized
  dsimp only
  split
  · split
    · split <;> rfl
    · rfl
  · rfl

open CommandLine

/-- Lines for `docker` that are parsed to the same, their texts apart, are evaluated the same. -/
theorem evaluate_of_parse_eq (r : Request) {raw raw' : String}
    (hdocker : (parse raw).command = docker) (h : parse raw' = { parse raw with raw := raw' }) :
    evaluate { r with line := parse raw } = evaluate { r with line := parse raw' } := by
  have hdocker' : (parse raw').command = docker := by rw [h, hdocker]
  have hfault : (parse raw).fault? = (parse raw').fault? := by
    rw [fault?_parse hdocker, fault?_parse hdocker', h]
  have hdispatch : dispatch { r with line := (parse raw').normalized } =
      dispatch { r with line := (parse raw).normalized } := by
    rw [h, normalized_raw, dispatch_raw]
  rw [evaluate_docker hdocker, evaluate_docker hdocker', hfault, hdispatch]

namespace CommandLine

/-! ## The two forms -/

/-- A flag as a word of its own: a letter has one dash, a longer name two. -/
def dashed (name : String) : String := (if name.toList.length = 1 then "-" else "--") ++ name

/-- A flag and its value in one word. -/
def assigned (name value : String) : String := "--" ++ name ++ "=" ++ value

/-- The flags whose values are looked up, for each command that looks up any; those in front of the
subcommand of a stack are handed on to it. -/
def valuesRead : List (String × List String) := [
  ("run", ["p", "publish", "e", "env", "v", "volume", "name", "network", "net"]),
  ("build", ["t", "tag", "f", "file"]),
  ("logs", ["tail", "n"]),
  ("compose up", ["f", "file", "tail", "n"]),
  ("compose logs", ["f", "file", "tail", "n"]),
  ("compose", ["f", "file", "tail", "n"])]

/-- The long names that do not take the next word for their value. -/
def longOnly : List String := ["publish", "env", "volume"]

theorem takesUnder_valuesRead : ∀ e ∈ valuesRead, ∀ name ∈ e.2,
    takesUnder (some e.1) name = !longOnly.contains name := by decide

theorem plain_of_valuesRead : ∀ e ∈ valuesRead, ∀ name ∈ e.2,
    name ≠ "" ∧ '=' ∉ name.toList ∧ startsWithDash name = false := by decide

section Forms

variable {name value : String}

theorem spells_dashed (named : name ≠ "") (free : '=' ∉ name.toList)
    (letter : startsWithDash name = false) : FlagWord.Spells (dashed name) (.single name) := by
  unfold dashed
  split
  · next hlength =>
    obtain ⟨c, hc⟩ := List.length_eq_one_iff.1 hlength
    obtain rfl : name = .ofList [c] := by rw [← hc, String.ofList_toList]
    have hdash : "-" ++ String.ofList [c] = .ofList ['-', c] := String.toList_inj.1 (by simp)
    rw [hdash]
    exact .short (by simpa [startsWithDash] using letter)
  · exact .long named free

theorem startsWithDash_dashed (name : String) : startsWithDash (dashed name) = true := by
  unfold dashed startsWithDash
  split <;> simp

theorem startsWithDash_assigned (name value : String) :
    startsWithDash (assigned name value) = true := by
  simp [assigned, startsWithDash]

end Forms

/-! ## The words in front of a flag -/

/-- The words name a subcommand, and flags that leave no argument. -/
structure Opens (sub : String) (head : List String) : Prop where
  subcommand : (readSubcommand head).1 = some sub
  flags : (readFlags (takesUnder (some sub)) ∅ (readSubcommand head).2).2 = []

/-- The flags between the subcommand and the end of the words. -/
def flagsBefore (sub : String) (head : List String) : Table Flag :=
  (readFlags (takesUnder (some sub)) ∅ (readSubcommand head).2).1

theorem readSubcommand_append {head : List String} {sub w : String}
    (h : (readSubcommand head).1 = some sub) (hw : startsWithDash w = true) (ws : List String) :
    readSubcommand (head ++ w :: ws) = (some sub, (readSubcommand head).2 ++ w :: ws) := by
  match head with
  | [] => cases h
  | [s] =>
    cases h
    simp [readSubcommand, hw]
  | s :: next :: head =>
    rw [← h]
    simp only [readSubcommand, List.cons_append]
    split <;> rfl

/-- Flags that leave no argument are read before a word with a dash, whatever is behind it. -/
theorem readFlags_append_dash {takes : String → Bool} {w : String} (hw : startsWithDash w = true)
    (ws : List String) (flags : Table Flag) (front : List String)
    (h : (readFlags takes flags front).2 = []) :
    readFlags takes flags (front ++ w :: ws) =
      readFlags takes (readFlags takes flags front).1 (w :: ws) := by
  fun_induction readFlags takes flags front with
  | case1 flags => rfl
  | case2 flags x front hx => cases h
  | case3 flags x front name value hx ih => rw [List.cons_append, readFlags_assignment hx, ih h]
  | case4 flags x front names hx ih => rw [List.cons_append, readFlags_cluster hx, ih h]
  | case5 flags x name hx v front htakes ih =>
    rw [List.cons_append, List.cons_append, readFlags_value hx htakes, ih h]
  | case6 flags x name hx v front htakes ih =>
    rw [List.cons_append, readFlags_switch hx fun _ hv => by cases hv; simpa using htakes]
    exact ih h
  | case7 flags x name hx =>
    rw [List.cons_append, List.nil_append,
      readFlags_switch hx fun _ hv => by cases hv; simp [hw]]

/-- A line with a flag behind such words. -/
theorem parse_opens {sub w raw : String} {head ws : List String} (h : Opens sub head)
    (hw : startsWithDash w = true) (hraw : Words.ofLine raw = docker :: (head ++ w :: ws)) :
    parse raw =
      { raw, command := docker, subcommand := some sub
        args := (readFlags (takesUnder (some sub)) (flagsBefore sub head) (w :: ws)).2
        flags := (readFlags (takesUnder (some sub)) (flagsBefore sub head) (w :: ws)).1 } := by
  rw [parse, hraw, ofWords_docker, readSubcommand_append h.subcommand hw,
    readFlags_append_dash hw _ _ _ h.flags, flagsBefore]

end CommandLine

/-- **A value in the next word means the same as behind an equals sign**, for every flag that a
command looks up by value, whatever is in front of the flag and behind its value. The exceptions are
three long names of `run`: in the next word, their value is the first argument. -/
theorem evaluate_assigned (r : Request) {raw raw' sub name value : String}
    {names head rest : List String} (hsub : (sub, names) ∈ valuesRead) (hname : name ∈ names)
    (hhead : Opens sub head) (hvalue : startsWithDash value = false)
    (hraw : Words.ofLine raw = docker :: (head ++ dashed name :: value :: rest))
    (hraw' : Words.ofLine raw' = docker :: (head ++ assigned name value :: rest)) :
    (name ∉ longOnly →
      evaluate { r with line := parse raw } = evaluate { r with line := parse raw' }) ∧
    (name ∈ longOnly → parse raw =
      { raw, command := docker, subcommand := some sub, args := value :: rest
        flags := addFlag (flagsBefore sub head) name (.switch true) }) := by
  obtain ⟨named, free, letter⟩ := plain_of_valuesRead _ hsub _ hname
  have htakes := takesUnder_valuesRead _ hsub _ hname
  have hsingle := (spells_dashed named free letter).ofWord_eq
  have hassignment : FlagWord.ofWord (assigned name value) = .assignment name value :=
    (FlagWord.Spells.assignment named free).ofWord_eq
  have hparse := parse_opens hhead (startsWithDash_dashed name) hraw
  have hparse' := parse_opens hhead (startsWithDash_assigned name value) hraw'
  constructor
  · intro hlong
    have htaken : (takesUnder (some sub) name && !startsWithDash value) = true := by
      simp [htakes, hlong, hvalue]
    rw [readFlags_value hsingle htaken] at hparse
    rw [readFlags_assignment hassignment] at hparse'
    exact evaluate_of_parse_eq r (by rw [hparse]) (by rw [hparse, hparse'])
  · intro hlong
    have hswitch : (takesUnder (some sub) name && !startsWithDash value) = false := by
      simp [htakes, hlong]
    rw [hparse, readFlags_switch hsingle fun _ hv => by cases hv; exact hswitch,
      readFlags_argument (ofWord_of_startsWithDash hvalue)]

/-- A name with a blank and an equals sign behind another flag, a file in front of the subcommand of
a stack, and the ports of a container behind the long name of the flag. -/
theorem evaluate_assigned_quoted :
    let r := Request.ofLine (parse "")
    evaluate { r with line := parse "docker run -d --name 'my =web' nginx -v" } =
        evaluate { r with line := parse "docker run -d '--name=my =web' nginx -v" } ∧
      evaluate { r with line := parse "docker compose -f my.yml up" } =
        evaluate { r with line := parse "docker compose --f=my.yml up" } ∧
      parse "docker run -d --publish 80:80 nginx" =
        { raw := "docker run -d --publish 80:80 nginx", command := docker, subcommand := some "run"
          args := ["80:80", "nginx"]
          flags := addFlag (flagsBefore "run" ["run", "-d"]) "publish" (.switch true) } := by
  intro r
  have hrun : Opens "run" ["run", "-d"] := ⟨by decide, by decide⟩
  have hcompose : Opens "compose" ["compose"] := ⟨by decide, by decide⟩
  have hreadRun : ("run", ["p", "publish", "e", "env", "v", "volume", "name", "network", "net"]) ∈
      valuesRead := by decide
  have hreadCompose : ("compose", ["f", "file", "tail", "n"]) ∈ valuesRead := by decide
  have hspaced : Words.ofLine "docker run -d --name 'my =web' nginx -v" =
      docker :: (["run", "-d"] ++ dashed "name" :: "my =web" :: ["nginx", "-v"]) := by
    decide +kernel
  have hjoined : Words.ofLine "docker run -d '--name=my =web' nginx -v" =
      docker :: (["run", "-d"] ++ assigned "name" "my =web" :: ["nginx", "-v"]) := by
    decide +kernel
  have hspaced' : Words.ofLine "docker compose -f my.yml up" =
      docker :: (["compose"] ++ dashed "f" :: "my.yml" :: ["up"]) := by decide +kernel
  have hjoined' : Words.ofLine "docker compose --f=my.yml up" =
      docker :: (["compose"] ++ assigned "f" "my.yml" :: ["up"]) := by decide +kernel
  have hlong : Words.ofLine "docker run -d --publish 80:80 nginx" =
      docker :: (["run", "-d"] ++ dashed "publish" :: "80:80" :: ["nginx"]) := by decide +kernel
  have hlong' : Words.ofLine "docker run -d --publish=80:80 nginx" =
      docker :: (["run", "-d"] ++ assigned "publish" "80:80" :: ["nginx"]) := by decide +kernel
  refine ⟨?_, ?_, ?_⟩
  · exact (evaluate_assigned r hreadRun (by decide) hrun (by decide) hspaced hjoined).1 (by decide)
  · exact (evaluate_assigned r hreadCompose (by decide) hcompose (by decide) hspaced' hjoined').1
      (by decide)
  · exact (evaluate_assigned r hreadRun (by decide) hrun (by decide) hlong hlong').2 (by decide)

/-- The ports that `--publish` is given in the next word are taken for the image. -/
theorem evaluate_assigned_publish :
    let pulled := State.empty.take (evaluate (.ofLine (parse "docker pull nginx")) .fresh).1
    let outcome (raw : String) := (evaluate
      { state := pulled, line := parse raw, files := none, stackFiles := [] } .fresh).1
    Words.ofLine "docker run --publish 8080:80 nginx" =
        docker :: (["run"] ++ dashed "publish" :: "8080:80" :: ["nginx"]) ∧
      Words.ofLine "docker run --publish=8080:80 nginx" =
        docker :: (["run"] ++ assigned "publish" "8080:80" :: ["nginx"]) ∧
      (outcome "docker run --publish=8080:80 nginx").succeeded = true ∧
      (outcome "docker run --publish 8080:80 nginx").succeeded = false ∧
      (outcome "docker run --publish 8080:80 nginx").output.head? =
        some "Unable to find image '8080:80' locally" := by
  decide +kernel

end DockerSim

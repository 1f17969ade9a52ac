import DockerSim.Proofs.Failures
import DockerSim.Proofs.ImageNames
import DockerSim.Proofs.Reached

/-!
# Images that are stored

Images are stored by `pull` and `build`, each under the name that its reference stands for, and by
no other command (`Stores`). So in a run from the empty state the images that are found are those
that some line stored under the same name: whatever reference they are asked for by, it is only its
name that counts. No two of them have the same digest (`Reached.digested`), so that one of the names
is the label of a digest.
-/

namespace DockerSim

open Command

/-- The reference that a command stores an image for. -/
def CommandLine.storedReference? (line : CommandLine) : String → Option String
  | "pull" => line.args.head?
  | "build" => some (builtReference line)
  | _ => none

/-- The reference that a line stores an image for. -/
def Submission.stored? (a : Submission) : Option String :=
  a.carried?.bind (CommandLine.parse a.raw).normalized.storedReference?

variable {r : Request} {u v w : Supply} {o : Outcome} {sub : String}

/-! ## What a command stores -/

/-- An image is stored for the reference, or the images stay as they are. -/
inductive Stores (r : Request) (reference? : Option String) (o : Outcome) : Prop
  | nothing (kept : o.delta.images = none)
  | image {reference : String} {i : Image} (asked : reference? = some reference)
      (named : i.name = .ofReference reference)
      (stored : o.delta.images = some (r.state.images.insert i.key i))

namespace Command

theorem pull_stores (h : pull r u = (o, v)) : Stores r r.line.args.head? o := by
  cases pull_cases h with
  | unnamed _ _ => exact .nothing rfl
  | present _ _ _ => exact .nothing rfl
  | pulled named _ made _ _ => exact .image named (made_of_drawPulled made).2 rfl

theorem build_stores (h : build r u = (o, v)) : Stores r (some (builtReference r.line)) o := by
  have finished : ∀ {is warnings},
      finishBuild r (.ofReference (builtReference r.line)) is warnings u = (o, v) →
        Stores r (some (builtReference r.line)) o := by
    intro is warnings h
    obtain ⟨i, w, events, output, ⟨-, hname⟩, -, rfl⟩ := finishBuild_spec h
    exact .image rfl hname rfl
  cases build_cases h with
  | empty _ made => exact finished made
  | missing _ _ _ refused _ => exact .nothing (by rw [refused]; rfl)
  | accepted _ _ _ made => exact finished made
  | rejected _ _ _ told =>
    obtain ⟨failed, -, rfl⟩ := rejectBuild_spec told
    exact .nothing rfl

theorem run_keeps_images (h : run r u = (o, v)) : o.delta.images = none := by
  rcases Work.ofWork_cases h with ⟨refusal, -, rfl⟩ | h
  · rfl
  · obtain ⟨plan, volumes, w, -, h⟩ := launch_eq_ok_iff.1 h
    obtain ⟨c, w', events, -, -, rfl⟩ := carryOut_spec h
    rfl

theorem exec_keeps_images (h : exec r u = (o, v)) : o.delta.images = none := by
  rcases Work.ofWork_cases h with ⟨refusal, -, rfl⟩ | h
  · rfl
  · obtain ⟨c, command, output, ran, -, rfl⟩ := runProgram_ok h
    rfl

theorem onTargets_keeps_images {form : String} {step : Progress → String → Draw Progress}
    (h : onTargets form step r u = (o, v)) : o.delta.images = none := by
  rcases onTargets_cases h with ⟨rfl, -⟩ | ⟨p, -, rfl⟩ <;> rfl

end Command

namespace Stack

theorem up_keeps_images (h : up r u = (o, v)) : o.delta.images = none := by
  cases hplan : plan? r with
  | none => rw [(up_stops hplan h).2.1]
  | some plan =>
    rw [up_eq_carryOut hplan] at h
    obtain ⟨p, w, q, -, -, rfl⟩ := plan.carryOut_spec h
    rfl

theorem down_keeps_images (h : down r u = (o, v)) : o.delta.images = none := by
  rcases down_cases h with ⟨-, -, lines, rfl⟩ | ⟨stack, t, lines, -, -, rfl⟩ <;> rfl

end Stack

/-- **A command stores at most one image**, under the name of its reference. -/
theorem runSubcommand_stores (h : runSubcommand r sub u = (o, v)) :
    Stores r (r.line.storedReference? sub) o := by
  by_cases hsub : sub ∈ changing
  · simp only [changing, List.mem_cons, List.not_mem_nil, or_false] at hsub
    rcases hsub with rfl | rfl | rfl | rfl | rfl | rfl | rfl | rfl | rfl
    · exact pull_stores h
    · exact build_stores h
    · exact .nothing (run_keeps_images h)
    · exact .nothing (onTargets_keeps_images h)
    · exact .nothing (onTargets_keeps_images h)
    · exact .nothing (onTargets_keeps_images h)
    · exact .nothing (exec_keeps_images h)
    · exact .nothing (Stack.up_keeps_images h)
    · exact .nothing (Stack.down_keeps_images h)
  · exact .nothing (by rw [(runSubcommand_silent hsub h).delta])

/-! ## Submitted lines -/

variable {s t : State} {a b : Submission} {as : List Submission} {os : List Outcome}
  {reference reference' : String}

/-- The images after a line, and what it has stored. -/
theorem Submission.stores (h : a.run s u = ((t, o), v)) :
    t.images = o.delta.images.getD s.images ∧ Stores (a.commandRequest s) a.stored? o := by
  obtain ⟨he, ht⟩ := run_eq_iff.1 h
  refine ⟨by rw [ht]; rfl, ?_⟩
  rcases evaluate_cases he with ⟨-, hp, -⟩ | ⟨sub, hc, hr⟩
  · exact .nothing (by rw [hp.silent.delta])
  · have hsub : a.carried? = some sub := hc
    unfold stored?
    rw [hsub]
    exact runSubcommand_stores hr

/-- The names that a line has stored an image under. -/
def Submission.storedNames (a : Submission) (o : Outcome) : List ImageName :=
  if o.delta.images.isSome then (a.stored?.map ImageName.ofReference).toList else []

/-- The images of a state are kept under their names, which are the ones of a list. -/
structure State.Stored (s : State) (names : List ImageName) : Prop where
  named : ∀ {key i}, s.images.get? key = some i → key = i.key ∧ i.name ∈ names
  found : ∀ n ∈ names, s.images.contains n.key = true
  normal : ∀ n ∈ names, ImageName.ofReference n.key = n

theorem stored_empty : State.empty.Stored [] where
  named h := nomatch h
  found _ h := nomatch h
  normal _ h := nomatch h

/-- A line adds the names that it stores an image under. -/
theorem State.Stored.step {names : List ImageName} (h : a.run s u = ((t, o), v))
    (hs : s.Stored names) : t.Stored (names ++ a.storedNames o) := by
  obtain ⟨himages, hstores⟩ := a.stores h
  unfold Submission.storedNames
  cases hstores with
  | nothing kept =>
    rw [kept, Option.getD_none] at himages
    rw [kept, Option.isSome_none, if_neg Bool.false_ne_true, List.append_nil]
    exact ⟨fun hi => hs.named (himages ▸ hi), fun n hn => himages ▸ hs.found n hn, hs.normal⟩
  | @image reference i asked named stored =>
    rw [stored, Option.getD_some] at himages
    rw [stored, Option.isSome_some, if_pos rfl, asked, Option.map_some, Option.toList_some, ← named]
    refine ⟨?_, ?_, ?_⟩
    · intro key j hj
      rw [himages, Table.get?_insert] at hj
      split at hj
      · next hkey =>
        cases hj
        exact ⟨hkey, List.mem_append_right _ (List.mem_singleton_self _)⟩
      · obtain ⟨hkey, hmem⟩ := hs.named hj
        exact ⟨hkey, List.mem_append_left _ hmem⟩
    · intro n hn
      rw [himages]
      rcases List.mem_append.1 hn with hn | hn
      · exact contains_insert_of_contains (hs.found n hn)
      · rw [List.mem_singleton.1 hn]
        exact Table.contains_iff.2 ⟨i, Table.get?_insert_self _ _ _⟩
    · intro n hn
      rcases List.mem_append.1 hn with hn | hn
      · exact hs.normal n hn
      · rw [List.mem_singleton.1 hn, named]
        exact ImageName.ofReference_key reference

/-- **The images of a run** are those that its lines have stored. -/
theorem State.Stored.run : ∀ {as : List Submission} {s : State} {os : List Outcome} {u : Supply}
    {names : List ImageName}, s.submitAll as u = ((t, os), v) → s.Stored names →
      t.Stored (names ++ (as.zip os).flatMap fun p => p.1.storedNames p.2)
  | [], s, os, u, names, h, hs => by
    obtain ⟨he, rfl⟩ := Draw.pure_eq_iff.1 h
    cases he
    simpa using hs
  | a :: as, s, os, u, names, h, hs => by
    obtain ⟨s', o, u', os', h1, h2, rfl⟩ := State.submitAll_cons_iff.1 h
    rw [List.zip_cons_cons, List.flatMap_cons, ← List.append_assoc]
    exact (hs.step h1).run h2

namespace State.Stored

variable {names : List ImageName}

/-- **It is only the name that counts**: no image is kept under a reference that is not the full
name of an image. -/
theorem findImage_eq (hs : s.Stored names) (reference : String) :
    findImage s.images reference = s.images.get? (ImageName.ofReference reference).key := by
  unfold findImage
  cases hg : s.images.get? (ImageName.ofReference reference).key with
  | some i => rfl
  | none =>
    cases hi : s.images.get? reference with
    | none => rfl
    | some i =>
      obtain ⟨rfl, hmem⟩ := hs.named hi
      have hname : ImageName.ofReference i.key = i.name := hs.normal _ hmem
      rw [hname] at hg
      exact absurd (hg.symm.trans hi) (by simp)

/-- An image is found if and only if one was stored under its name. -/
theorem isSome_findImage_iff (hs : s.Stored names) (reference : String) :
    (findImage s.images reference).isSome = true ↔ ImageName.ofReference reference ∈ names := by
  rw [hs.findImage_eq]
  constructor
  · intro h
    obtain ⟨i, hi⟩ := Option.isSome_iff_exists.1 h
    obtain ⟨hkey, hmem⟩ := hs.named hi
    have hname : ImageName.ofReference reference = i.name :=
      calc ImageName.ofReference reference
          = .ofReference (ImageName.ofReference reference).key :=
            (ImageName.ofReference_key reference).symm
        _ = .ofReference i.name.key := by rw [hkey]; rfl
        _ = i.name := hs.normal _ hmem
    rwa [hname]
  · exact hs.found _

/-- Every image is found by its own full name. -/
theorem findImage_key (hs : s.Stored names) {i : Image} (h : i ∈ s.images.values) :
    findImage s.images i.key = some i := by
  obtain ⟨⟨key, j⟩, hmem, rfl⟩ := List.mem_map.1 h
  have hi := Table.get?_eq_some_iff.2 hmem
  obtain ⟨rfl, hname⟩ := hs.named hi
  have hnormal : ImageName.ofReference j.key = j.name := hs.normal _ hname
  rw [hs.findImage_eq, hnormal]
  exact hi

end State.Stored

/-! ## Digests -/

/-- What is sought is found when nothing else is like it. -/
theorem find?_eq_some_of_unique {α : Type} {l : List α} {p : α → Bool} {a : α} (ha : a ∈ l)
    (hp : p a = true) (unique : ∀ b ∈ l, p b = true → b = a) : l.find? p = some a := by
  obtain ⟨b, hb⟩ := Option.isSome_iff_exists.1 (List.find?_isSome.2 ⟨a, ha, hp⟩)
  rw [hb, unique b (List.mem_of_find?_eq_some hb) (List.find?_some hb)]

/-- The digests of the images were drawn, and no two images have the same. -/
structure Digested (images : Table Image) (u : Supply) : Prop where
  drawn : ∀ ⦃key i⦄, images.get? key = some i →
    ∃ n ≤ u.drawn, i.id = "sha256:" ++ Supply.hexText 64 n
  apart : ∀ ⦃key key' i j⦄, images.get? key = some i → images.get? key' = some j → i.id = j.id →
    key = key'

theorem digested_empty (u : Supply) : Digested .empty u where
  drawn _ _ h := nomatch h
  apart _ _ _ _ h := nomatch h

namespace Digested

variable {images : Table Image} {i : Image} {key : String}

theorem mono (h : Digested images u) (hle : u ≤ v) : Digested images v where
  drawn key j hj := by
    obtain ⟨n, hn, hid⟩ := h.drawn hj
    exact ⟨n, Nat.le_trans hn hle.drawn, hid⟩
  apart := h.apart

/-- A digest that is drawn now is not the digest of an image yet. -/
theorem fresh (h : Digested images u) (made : i.Made u v) (hv : v.drawn < idLimit) {j : Image}
    (hj : images.get? key = some j) : i.id ≠ j.id := by
  obtain ⟨n, hn, hnv, hi⟩ := made.id
  obtain ⟨m, hm, hid⟩ := h.drawn hj
  have hlimit : idLimit ≤ Nat.pow 16 64 := by decide
  have hne : Supply.hexText 64 m ≠ Supply.hexText 64 n :=
    Supply.hexText_ne (Nat.lt_of_le_of_lt hm hn) (by omega)
  rw [hi, hid]
  exact fun he => hne ((String.append_right_inj _).1 he.symm)

theorem insert (h : Digested images u) (made : i.Made u v) (hv : v.drawn < idLimit) :
    Digested (images.insert key i) v where
  drawn := by
    refine Table.forall_get?_insert ?_ (h.mono made.time.le).drawn
    obtain ⟨n, -, hn, hid⟩ := made.id
    exact ⟨n, hn, hid⟩
  apart k k' j j' hj hj' he := by
    rw [Table.get?_insert] at hj hj'
    split at hj
    · next hk =>
      cases hj
      split at hj'
      · next hk' => rw [hk, hk']
      · exact absurd he (h.fresh made hv hj')
    · split at hj'
      · cases hj'
        exact absurd he.symm (h.fresh made hv hj)
      · exact h.apart hj hj' he

/-- The label of an image is its full name. -/
theorem imageLabel_eq (h : Digested images u) (hi : images.get? i.key = some i) :
    imageLabel images i.id = i.key := by
  have hfind : images.find? (fun j => j.id = i.id) = some (i.key, i) := by
    refine find?_eq_some_of_unique (Table.get?_eq_some_iff.1 hi) (by simp) ?_
    rintro ⟨key, j⟩ hmem hid
    have hj := Table.get?_eq_some_iff.2 hmem
    obtain rfl := h.apart hj hi (by simpa using hid)
    rw [hi] at hj
    cases hj
    rfl
  unfold imageLabel
  rw [hfind]

end Digested

/-- A move makes at most one image, with a new digest. -/
theorem Move.digested {terms : Terms} {x y : Scene} (h : Move terms x y)
    (hy : y.supply.drawn < idLimit) (hx : Digested x.images x.supply) :
    Digested y.images y.supply := by
  have hle := h.supply_le
  cases h with
  | image made _ told =>
    exact (hx.insert made (Nat.lt_of_le_of_lt told.le.drawn hy)).mono told.le
  | _ => exact hx.mono hle

theorem Moves.digested {terms : Terms} {x y : Scene} (h : Moves terms x y)
    (hy : y.supply.drawn < idLimit) (hx : Digested x.images x.supply) :
    Digested y.images y.supply := by
  induction h with
  | refl => exact hx
  | tail _ h ih => exact h.digested hy (ih (Nat.lt_of_le_of_lt h.supply_le.drawn hy))

/-- **No two images of a reached state have the same digest.** -/
theorem Reached.digested (h : Reached s u) (hu : u.drawn < idLimit) : Digested s.images u := by
  obtain ⟨as, os, h⟩ := h
  refine State.submitAll_keeps (P := fun s u => u.drawn < idLimit → Digested s.images u) ?_ h
    (fun _ => digested_empty _) hu
  intro a s t o u v ha hs hv
  have hmoves := (a.leads_anyway ha).moves
  exact hmoves.digested hv (hs (Nat.lt_of_le_of_lt hmoves.supply_le.drawn hv))

/-! ## Pulling again -/

/-- A line keeps the images that are there, or puts others in their places. -/
theorem Submission.contains_images {key : String} (h : a.run s u = ((t, o), v))
    (hs : s.images.contains key = true) : t.images.contains key = true := by
  obtain ⟨himages, hstores⟩ := a.stores h
  rw [himages]
  cases hstores with
  | nothing kept => rwa [kept]
  | image _ _ stored =>
    rw [stored]
    exact contains_insert_of_contains hs

theorem State.contains_images {key : String} (h : s.submitAll as u = ((t, os), v))
    (hs : s.images.contains key = true) : t.images.contains key = true :=
  State.submitAll_keeps (P := fun s _ => s.images.contains key = true)
    (fun ha hs => Submission.contains_images ha hs) h hs

/-- The line pulls the image of a reference. -/
structure Submission.PullsImage (a : Submission) (reference : String) : Prop where
  carried : a.carried? = some "pull"
  stored : a.stored? = some reference

/-- A pull leaves the image that its reference names, and leaves no trace if it was there. -/
theorem Submission.PullsImage.leaves (ha : a.PullsImage reference) (h : a.run s u = ((t, o), v)) :
    t.images.contains (ImageName.ofReference reference).key = true ∧
      (s.images.contains (ImageName.ofReference reference).key = true → o.Silent) := by
  obtain ⟨hc, hr⟩ := ha
  obtain ⟨hp, -⟩ := a.subcommand_of_run hc h
  have hpull : Command.pull (a.commandRequest s) u = (o, v) := hp
  have hasked : (a.commandRequest s).line.args.head? = some reference := by
    unfold stored? at hr
    rw [hc] at hr
    exact hr
  have hkept : ∀ key, s.images.contains key = true → t.images.contains key = true :=
    fun _ => a.contains_images h
  cases pull_cases hpull with
  | unnamed absent _ =>
    rw [absent] at hasked
    cases hasked
  | present named found _ =>
    rw [hasked] at named
    cases named
    exact ⟨hkept _ (Table.contains_iff.2 ⟨_, found⟩), fun _ => ⟨rfl, rfl⟩⟩
  | pulled named absent made _ _ =>
    rw [hasked] at named
    cases named
    refine ⟨?_, fun hs => ?_⟩
    · obtain ⟨himages, -⟩ := a.stores h
      rw [himages, ← (made_of_drawPulled made).2]
      exact Table.contains_iff.2 ⟨_, Table.get?_insert_self _ _ _⟩
    · obtain ⟨i, hi⟩ := Table.contains_iff.1 hs
      exact absurd (absent.symm.trans hi) (by simp)

/-- A line has stored an image under a name. -/
theorem mem_storedNames_iff {n : ImageName} : n ∈ a.storedNames o ↔
    o.delta.images.isSome = true ∧ ∃ reference, a.stored? = some reference ∧
      ImageName.ofReference reference = n := by
  unfold Submission.storedNames
  cases o.delta.images <;> cases a.stored? <;> simp [eq_comm]

/-- **Images are found by their names.** The full name of an image is a reference that names it. In
the states of a run from the empty one, a reference finds what is kept under the full name of the
image that it names, so it finds something if and only if a line has stored an image of this name,
and every image is found by its own full name. And once an image was pulled, a pull of any reference
that names it changes nothing and tells of nothing. -/
theorem images_found_by_name :
    (∀ reference, ImageName.ofReference (ImageName.ofReference reference).key =
      ImageName.ofReference reference) ∧
    (∀ (as : List Submission) (os : List Outcome) (s : State) (u : Supply),
      State.empty.submitAll as .fresh = ((s, os), u) →
        (∀ reference,
          findImage s.images reference = s.images.get? (ImageName.ofReference reference).key) ∧
        (∀ reference, (findImage s.images reference).isSome = true ↔
          ∃ p ∈ as.zip os, p.2.delta.images.isSome = true ∧
            ∃ stored, p.1.stored? = some stored ∧
              ImageName.ofReference stored = ImageName.ofReference reference) ∧
        ∀ i ∈ s.images.values, findImage s.images i.key = some i) ∧
    ∀ (a b : Submission) (as : List Submission) (reference reference' : String)
      (s t t' t'' : State) (o o' : Outcome) (os : List Outcome) (u v w x : Supply),
      a.PullsImage reference → b.PullsImage reference' →
      ImageName.ofReference reference' = ImageName.ofReference reference →
      a.run s u = ((t, o), v) → t.submitAll as v = ((t', os), w) → b.run t' w = ((t'', o'), x) →
        o'.delta = {} ∧ o'.events = [] := by
  refine ⟨ImageName.ofReference_key, ?_, ?_⟩
  · intro as os s u h
    have hstored := stored_empty.run h
    refine ⟨hstored.findImage_eq, fun reference => ?_, fun i hi => hstored.findImage_key hi⟩
    rw [hstored.isSome_findImage_iff, List.nil_append, List.mem_flatMap]
    simp only [mem_storedNames_iff]
  · intro a b as reference reference' s t t' t'' o o' os u v w x ha hb hname h1 h2 h3
    obtain ⟨hthere, -⟩ := ha.leaves h1
    obtain ⟨-, hsilent⟩ := hb.leaves h3
    have hkept := hsilent (hname ▸ State.contains_images h2 hthere)
    exact ⟨hkept.delta, hkept.events⟩

/-- The image is there under three references once it was pulled by one of them, and is not pulled
again by another. -/
theorem images_found_by_name_nginx :
    let r := State.empty.submitAll [.ofLine "docker pull nginx"] .fresh
    let r' := Submission.run (.ofLine "docker pull nginx:") r.1.1 r.2
    (findImage r.1.1.images "nginx").isSome = true ∧
      (findImage r.1.1.images "nginx:").isSome = true ∧
      (findImage r.1.1.images "nginx:latest").isSome = true ∧
      r'.1.2.delta = {} ∧ r'.1.2.events = [] := by
  intro r r'
  have hpull : ((Submission.ofLine "docker pull nginx").run .empty .fresh) =
      ((r.1.1, (Submission.run (.ofLine "docker pull nginx") .empty .fresh).1.2), r.2) := rfl
  have hstored : (r.1.2.head?.bind fun o => o.delta.images).isSome = true := by decide +kernel
  have hfound : ∀ reference, ImageName.ofReference "nginx" = ImageName.ofReference reference →
      (findImage r.1.1.images reference).isSome = true := by
    intro reference hname
    refine ((images_found_by_name.2.1 _ _ _ _ rfl).2.1 reference).2 ?_
    exact ⟨_, List.mem_cons_self, hstored, "nginx", by decide +kernel, hname⟩
  refine ⟨hfound _ rfl, hfound _ (by decide), hfound _ (by decide), ?_⟩
  have hplain : Submission.PullsImage (.ofLine "docker pull nginx") "nginx" :=
    ⟨by decide +kernel, by decide +kernel⟩
  have hempty : Submission.PullsImage (.ofLine "docker pull nginx:") "nginx:" :=
    ⟨by decide +kernel, by decide +kernel⟩
  exact images_found_by_name.2.2 _ _ [] _ _ _ _ _ _ _ _ [] _ _ _ _ hplain hempty (by decide) hpull
    rfl rfl

end DockerSim

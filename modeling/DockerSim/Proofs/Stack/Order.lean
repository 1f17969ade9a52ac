import DockerSim.Proofs.YamlKeys
import DockerSim.Stack.Order
import Mathlib.Data.List.Perm.Basic
import Mathlib.Logic.Relation

/-!
# The order of services is one of their dependencies

When there is an order, it lists every service of the file once (`Placed`), and before each service
the services that it depends on. The search for it goes depth first, so the proof is by induction on
the depth, with an induction over the dependencies inside. What a branch of the search adds is not
on the path that leads to it (`Grows`); this is why a service is not placed while it is waited for.

The search stops without an order only where a service waits for itself: the services on a path are
different ones that all wait for the last (`Await`), so the search is never deeper than there are
services (`obstacle_of_place`).
-/

namespace DockerSim.Service

variable {services : List Service}

/-- The names of the services are keys of the mapping that defines them, in its order. -/
theorem names_sublist : ∀ entries : YamlMap,
    ((entries.filterMap fun (name, value) => value.map?.map (ofMap name)).map name).Sublist
      entries.keys
  | [] => List.nil_sublist _
  | (key, value) :: entries => by
    have ih := names_sublist entries
    rw [List.filterMap_cons]
    dsimp only
    cases hv : value.map? with
    | none => exact ih.cons key
    | some svc => exact ih.cons_cons key

/-- The services of a file that is read have different names. -/
theorem nodup_names_ofDocument {doc : YamlMap} (h : doc.Proper) :
    ((ofDocument doc).map name).Nodup := by
  unfold ofDocument
  split
  · next entries he =>
    obtain ⟨before, after, hdoc, -⟩ := List.lookup_eq_some_iff.1 he
    have hmem : ("services", Yaml.map entries) ∈ doc := by
      rw [hdoc]
      exact List.mem_append_right _ List.mem_cons_self
    have hkeys : (YamlMap.keys entries).Nodup := h.values _ hmem rfl
    exact hkeys.sublist (names_sublist entries)
  · exact List.nodup_nil

/-- A service of the file depends on another one, by its own definition. -/
def Needs (services : List Service) (name dep : String) : Prop :=
  ∃ s ∈ services, s.name = name ∧ dep ∈ s.dependsOn ∧ ∃ t ∈ services, t.name = dep

/-- A row of different services of the file, each behind the ones it depends on. -/
structure Placed (services : List Service) (order : List String) : Prop where
  nodup : order.Nodup
  known : ∀ name ∈ order, ∃ s ∈ services, s.name = name
  behind : ∀ ⦃before name after⦄, order = before ++ name :: after →
    ∀ ⦃dep⦄, Needs services name dep → dep ∈ before

theorem placed_nil : Placed services [] :=
  ⟨List.nodup_nil, fun _ h => absurd h List.not_mem_nil, fun before _ _ h => by simp at h⟩

/-- A service is placed behind all it depends on. -/
theorem Placed.snoc {order : List String} {name : String} (h : Placed services order)
    (hnew : name ∉ order) (hname : ∃ s ∈ services, s.name = name)
    (hdeps : ∀ dep, Needs services name dep → dep ∈ order) : Placed services (order ++ [name]) where
  nodup := List.nodup_append.2 ⟨h.nodup, List.nodup_singleton _, by
    rintro a ha b hb rfl
    rw [List.mem_singleton.1 hb] at ha
    exact hnew ha⟩
  known := List.forall_mem_append.2 ⟨h.known, List.forall_mem_singleton.2 hname⟩
  behind before n after he dep hdep := by
    rcases List.eq_nil_or_concat after with rfl | ⟨rest, last, rfl⟩
    · obtain ⟨rfl, hn⟩ := List.append_inj' he rfl
      cases hn
      exact hdeps dep hdep
    · have he' : order ++ [name] = (before ++ n :: rest) ++ [last] := by simpa using he
      exact h.behind (List.append_inj' he' rfl).1 hdep

/-- What was placed stays, and what is placed then is not on the path. -/
structure Grows (services : List Service) (path order order' : List String) : Prop where
  placed : Placed services order → Placed services order'
  kept : order ⊆ order'
  new : ∀ name ∈ order', name ∈ order ∨ name ∉ path

theorem Grows.refl (path order : List String) : Grows services path order order :=
  ⟨id, List.Subset.refl _, fun _ h => .inl h⟩

theorem Grows.trans {path order₁ order₂ order₃ : List String}
    (h : Grows services path order₁ order₂) (h' : Grows services path order₂ order₃) :
    Grows services path order₁ order₃ :=
  ⟨fun hp => h'.placed (h.placed hp), fun _ hn => h'.kept (h.kept hn),
    fun name hn => (h'.new name hn).elim (h.new name) .inr⟩

/-- What a computation without an obstacle comes to is what its second part makes of its first. -/
theorem ok_of_bind {α β : Type} {x : Except Obstacle α} {f : α → Except Obstacle β} {b : β}
    (h : x >>= f = .ok b) : ∃ a, x = .ok a ∧ f a = .ok b := by
  cases x with
  | error o => cases h
  | ok a => exact ⟨a, rfl, h⟩

theorem placeAll_of_startOrder {order : List String} (h : startOrder services = some order) :
    placeAll services (services.length + 1) = .ok order := by
  unfold startOrder at h
  cases hplace : placeAll services (services.length + 1) with
  | error o => rw [hplace] at h; cases h
  | ok order' => rw [hplace] at h; cases h; rfl

/-- One branch of the search: the order grows, and has the service in the end. -/
def Reaches (services : List Service) (path : List String)
    (f : List String → String → Except Obstacle (List String)) : Prop :=
  ∀ ⦃order name order'⦄, f order name = .ok order' →
    Grows services path order order' ∧
      ((∃ s ∈ services, s.name = name) → name ∈ order')

theorem Reaches.foldlM {path : List String}
    {f : List String → String → Except Obstacle (List String)} (hf : Reaches services path f) :
    ∀ {names order order' : List String}, names.foldlM f order = .ok order' →
      Grows services path order order' ∧
        ∀ name ∈ names, (∃ s ∈ services, s.name = name) → name ∈ order'
  | [], order, order', h => by
    cases h
    exact ⟨.refl _ _, fun _ hn => absurd hn List.not_mem_nil⟩
  | name :: names, order, order', h => by
    rw [List.foldlM_cons] at h
    obtain ⟨order₁, h1, h2⟩ := ok_of_bind h
    obtain ⟨hgrows, hname⟩ := hf h1
    obtain ⟨hgrows', hnames⟩ := foldlM hf h2
    exact ⟨hgrows.trans hgrows',
      List.forall_mem_cons.2 ⟨fun hs => hgrows'.kept (hname hs), hnames⟩⟩

/-- **Placing a service reaches it**, with all it depends on before it. -/
theorem reaches_place (hnodup : (services.map name).Nodup) :
    ∀ (depth : Nat) (path : List String), Reaches services path (place services depth path)
  | 0, _ => fun _ _ _ h => nomatch h
  | depth + 1, path => by
    intro order n order' h
    unfold place at h
    by_cases ho : order.contains n = true
    · rw [if_pos ho] at h
      cases h
      exact ⟨.refl _ _, fun _ => by simpa using ho⟩
    · rw [if_neg ho] at h
      by_cases hp : path.contains n = true
      · rw [if_pos hp] at h
        cases h
      · rw [if_neg hp] at h
        cases hs : services.find? fun s => s.name = n with
        | none =>
          rw [hs] at h
          cases h
          refine ⟨.refl _ _, ?_⟩
          rintro ⟨s, hmem, rfl⟩
          simpa using List.find?_eq_none.1 hs s hmem
        | some s =>
          rw [hs] at h
          dsimp only at h
          obtain ⟨reached, hfold, h⟩ := ok_of_bind h
          cases h
          have hmem := List.mem_of_find?_eq_some hs
          have hname : s.name = n := by simpa using List.find?_some hs
          obtain ⟨hgrows, hdeps⟩ := (reaches_place hnodup depth (n :: path)).foldlM hfold
          -- The search below the service does not place the service itself.
          have hnew : n ∉ reached := by
            intro hn
            rcases hgrows.new n hn with hold | hpath
            · exact ho (by simpa using hold)
            · exact hpath List.mem_cons_self
          refine ⟨⟨fun hplaced => ?_, ?_, ?_⟩, fun _ => by simp⟩
          · refine (hgrows.placed hplaced).snoc hnew ⟨s, hmem, hname⟩ ?_
            rintro dep ⟨s', hmem', hname', hdep, t, ht, rfl⟩
            have : s' = s := List.inj_on_of_nodup_map hnodup hmem' hmem (hname'.trans hname.symm)
            subst this
            refine hdeps _ (List.mem_filter.2 ⟨hdep, ?_⟩) ⟨t, ht, rfl⟩
            exact List.any_eq_true.2 ⟨t, ht, by simp⟩
          · exact fun m hm => List.mem_append_left _ (hgrows.kept hm)
          · intro m hm
            rcases List.mem_append.1 hm with hm | hm
            · exact (hgrows.new m hm).imp id fun hpath hm => hpath (List.mem_cons_of_mem _ hm)
            · rw [List.mem_singleton.1 hm]
              exact .inr (by simpa using hp)

/-- **The order lists every service of the file once**, and behind all it depends on. -/
theorem startOrder_spec (hnodup : (services.map name).Nodup) {order : List String}
    (h : startOrder services = some order) :
    order.Perm (services.map name) ∧ Placed services order := by
  obtain ⟨hgrows, hall⟩ := (reaches_place hnodup _ []).foldlM (placeAll_of_startOrder h)
  have hplaced := hgrows.placed placed_nil
  refine ⟨(List.perm_ext_iff_of_nodup hplaced.nodup hnodup).2 fun n => ?_, hplaced⟩
  rw [List.mem_map]
  constructor
  · exact hplaced.known n
  · rintro ⟨s, hs, rfl⟩
    exact hall _ (List.mem_map_of_mem hs) ⟨s, hs, rfl⟩

/-- In the order, all that a service depends on stands before it, in however many steps. -/
theorem Placed.behind_all {order : List String} (h : Placed services order) {name dep : String}
    (hdep : Relation.TransGen (Needs services) name dep) {before after : List String}
    (he : order = before ++ name :: after) : dep ∈ before := by
  induction hdep using Relation.TransGen.head_induction_on generalizing before after with
  | single hneeds => exact h.behind he hneeds
  | head hneeds _ ih =>
    obtain ⟨before', after', rfl⟩ := List.append_of_mem (h.behind he hneeds)
    have he' := he
    rw [List.append_assoc, List.cons_append] at he'
    exact List.mem_append_left _ (ih he')

/-! ## There is an order unless the dependencies form a cycle -/

/-- A service stands in no order when it depends on itself, in however many steps. -/
theorem Placed.not_needs_self {order : List String} (h : Placed services order) {name : String}
    (hname : name ∈ order) : ¬Relation.TransGen (Needs services) name name := by
  intro hcycle
  obtain ⟨before, after, rfl⟩ := List.append_of_mem hname
  have hbefore := h.behind_all hcycle rfl
  have hdisjoint := (List.nodup_append.1 h.nodup).2.2
  exact hdisjoint name hbefore name List.mem_cons_self rfl

/-- Different services of the file that all wait for one, directly or through each other. -/
structure Await (services : List Service) (path : List String) (name : String) : Prop where
  nodup : path.Nodup
  known : path ⊆ services.map Service.name
  needs : ∀ n ∈ path, Relation.TransGen (Needs services) n name

theorem await_nil (name : String) : Await services [] name :=
  ⟨List.nodup_nil, List.nil_subset _, fun _ h => absurd h List.not_mem_nil⟩

/-- The service, too, waits for those it depends on. -/
theorem Await.cons {path : List String} {s : Service} {dep : String}
    (h : Await services path s.name) (hs : s ∈ services) (hnew : s.name ∉ path)
    (hdep : dep ∈ localDependencies services s) : Await services (s.name :: path) dep := by
  obtain ⟨hdep, hlocal⟩ := List.mem_filter.1 hdep
  have hneeds : Needs services s.name dep :=
    ⟨s, hs, rfl, hdep, by simpa using hlocal⟩
  refine ⟨List.nodup_cons.2 ⟨hnew, h.nodup⟩,
    List.cons_subset.2 ⟨List.mem_map_of_mem hs, h.known⟩, List.forall_mem_cons.2 ⟨?_, ?_⟩⟩
  · exact .single hneeds
  · exact fun n hn => (h.needs n hn).tail hneeds

/-- No more services wait than there are. -/
theorem Await.length_le {path : List String} {name : String} (h : Await services path name) :
    path.length ≤ services.length := by
  have hle := (List.subperm_of_subset h.nodup h.known).length_le
  rwa [List.length_map] at hle

/-- A search along several names meets its obstacle at one of them. -/
theorem exists_of_foldlM_eq_error {f : List String → String → Except Obstacle (List String)}
    {o : Obstacle} : ∀ {names order : List String}, names.foldlM f order = .error o →
      ∃ name ∈ names, ∃ reached, f reached name = .error o
  | [], order, h => nomatch h
  | name :: names, order, h => by
    rw [List.foldlM_cons] at h
    cases hname : f order name with
    | error o' =>
      rw [hname] at h
      cases h
      exact ⟨name, List.mem_cons_self, order, hname⟩
    | ok reached =>
      rw [hname] at h
      have hrest : names.foldlM f reached = .error o := h
      obtain ⟨n, hn, hfails⟩ := exists_of_foldlM_eq_error hrest
      exact ⟨n, List.mem_cons_of_mem _ hn, hfails⟩

/-- **What stops the search is a cycle**, or it is as deep as services wait. Those that wait are
different ones, so there are no more of them than services. -/
theorem obstacle_of_place : ∀ (depth : Nat) {path order : List String} {name : String}
    {o : Obstacle}, Await services path name → place services depth path order name = .error o →
      o = .cycle ∧ (∃ n, Relation.TransGen (Needs services) n n) ∨
        o = .depth ∧ depth + path.length ≤ services.length
  | 0, path, order, name, o, hawait, h => by
    cases h
    exact .inr ⟨rfl, by rw [Nat.zero_add]; exact hawait.length_le⟩
  | depth + 1, path, order, name, o, hawait, h => by
    unfold place at h
    split at h
    · cases h
    · split at h
      · next hpath =>
        cases h
        exact .inl ⟨rfl, name, hawait.needs name (by simpa using hpath)⟩
      · next hpath =>
        split at h
        · cases h
        · next s hs =>
          have hmem := List.mem_of_find?_eq_some hs
          obtain rfl : s.name = name := by simpa using List.find?_some hs
          have hfold : (localDependencies services s).foldlM
              (place services depth (s.name :: path)) order = .error o := by
            cases hreached : (localDependencies services s).foldlM
                (place services depth (s.name :: path)) order with
            | error o' => rw [hreached] at h; cases h; rfl
            | ok reached => rw [hreached] at h; cases h
          obtain ⟨dep, hdep, reached, hfails⟩ := exists_of_foldlM_eq_error hfold
          have hwaits := hawait.cons hmem (by simpa using hpath) hdep
          refine (obstacle_of_place depth hwaits hfails).imp id fun ⟨ho, hdepth⟩ => ⟨ho, ?_⟩
          rw [List.length_cons] at hdepth
          omega

/-- The search for all services is never too deep, and what stops it is a cycle. -/
theorem obstacle_of_placeAll {depth : Nat} {o : Obstacle} (hdepth : services.length < depth)
    (h : placeAll services depth = .error o) :
    o = .cycle ∧ ∃ n, Relation.TransGen (Needs services) n n := by
  obtain ⟨n, -, reached, hfails⟩ := exists_of_foldlM_eq_error h
  refine (obstacle_of_place depth (await_nil n) hfails).resolve_right fun ⟨_, hle⟩ => ?_
  rw [List.length_nil] at hle
  omega

/-! ## The depth makes no difference -/

/-- Going deeper changes nothing for searches along several names if it changes nothing for each. -/
theorem foldlM_deeper {f g : List String → String → Except Obstacle (List String)}
    (h : ∀ order name, f order name = .error .depth ∨ f order name = g order name) :
    ∀ names order : List String,
      names.foldlM f order = .error .depth ∨ names.foldlM f order = names.foldlM g order
  | [], order => .inr rfl
  | name :: names, order => by
    rw [List.foldlM_cons, List.foldlM_cons]
    rcases h order name with hdepth | hsame
    · rw [hdepth]
      exact .inl rfl
    · rw [← hsame]
      cases f order name with
      | error o => exact .inr rfl
      | ok reached => exact foldlM_deeper h names reached

theorem place_deeper : ∀ (depth : Nat) (path order : List String) (name : String),
    place services depth path order name = .error .depth ∨
      place services depth path order name = place services (depth + 1) path order name
  | 0, path, order, name => .inl rfl
  | depth + 1, path, order, name => by
    have hfold := fun s => foldlM_deeper (place_deeper depth (name :: path))
      (localDependencies services s) order
    unfold place
    split
    · exact .inr rfl
    · split
      · exact .inr rfl
      · split
        · exact .inr rfl
        · next s hs =>
          rcases hfold s with hdepth | hsame
          · rw [hdepth]
            exact .inl rfl
          · rw [hsame]
            exact .inr rfl

/-- At every depth beyond the number of services the search comes to the same. -/
theorem placeAll_eq {depth : Nat} (h : services.length < depth) :
    placeAll services depth = placeAll services (services.length + 1) := by
  induction h with
  | refl => rfl
  | @step depth hdepth ih =>
    refine Eq.trans ?_ ih
    have hdeeper : placeAll services depth = .error .depth ∨
        placeAll services depth = placeAll services (depth + 1) :=
      foldlM_deeper (place_deeper depth []) (services.map name) []
    exact (hdeeper.resolve_left fun hfails => nomatch (obstacle_of_placeAll hdepth hfails).1).symm

/-- **The order is a topological sort.** For services with different names the search ends: at any
depth beyond their number it does not come to the end of its depth, and finds the same. There is no
order exactly when some service depends on itself, in one step or in several; otherwise it has every
service once, and before each service those that it depends on. -/
theorem startOrder_topological (hnodup : (services.map name).Nodup) :
    (∀ depth, services.length < depth → placeAll services depth ≠ .error .depth ∧
      (placeAll services depth).toOption = startOrder services) ∧
    (startOrder services = none ↔ ∃ n, Relation.TransGen (Needs services) n n) ∧
      ∀ order, startOrder services = some order →
        order.Perm (services.map name) ∧
          ∀ before n after, order = before ++ n :: after →
            ∀ dep, Needs services n dep → dep ∈ before := by
  refine ⟨fun depth hdepth => ⟨fun h => ?_, ?_⟩, ⟨fun h => ?_, ?_⟩, fun order h => ?_⟩
  · cases (obstacle_of_placeAll hdepth h).1
  · rw [placeAll_eq hdepth, startOrder]
  · unfold startOrder at h
    cases hplace : placeAll services (services.length + 1) with
    | error o => exact (obstacle_of_placeAll (Nat.lt_succ_self _) hplace).2
    | ok order => rw [hplace] at h; cases h
  · rintro ⟨n, hcycle⟩
    cases h : startOrder services with
    | none => rfl
    | some order =>
      obtain ⟨hperm, hplaced⟩ := startOrder_spec hnodup h
      obtain ⟨_, ⟨s, hs, rfl, -⟩, -⟩ := Relation.TransGen.head'_iff.1 hcycle
      have hmem : s.name ∈ order := hperm.mem_iff.2 (List.mem_map_of_mem hs)
      exact absurd hcycle (hplaced.not_needs_self hmem)
  · obtain ⟨hperm, hplaced⟩ := startOrder_spec hnodup h
    exact ⟨hperm, fun before n after he dep hdep => hplaced.behind he hdep⟩

/-- A service that has a name and dependencies, and nothing else. -/
def bare (name : String) (dependsOn : List String) : Service :=
  { name, dependsOn, image := none, build := none, ports := [], environment := []
    networks := [], volumes := [] }

/-- Two services depend on a third one, one of them twice over, and on one that the file lacks; then
the third depends on the first, and the search meets the cycle at any depth. -/
theorem startOrder_topological_ring :
    let services (deps : List String) :=
      [bare "api" ["db", "cache", "db"], bare "db" ["cache", "ghost"], bare "cache" deps]
    (((services []).map name).Nodup ∧ startOrder (services []) = some ["cache", "db", "api"] ∧
      ∀ n, ¬Relation.TransGen (Needs (services [])) n n) ∧
    ((services ["api"]).map name).Nodup ∧ startOrder (services ["api"]) = none ∧
      (∀ depth, 3 < depth → placeAll (services ["api"]) depth = .error .cycle) ∧
      ∃ n, Relation.TransGen (Needs (services ["api"])) n n := by
  intro services
  have hnodup : ∀ deps, ((services deps).map name).Nodup := fun deps => by
    show ["api", "db", "cache"].Nodup
    decide
  have hopen : startOrder (services []) = some ["cache", "db", "api"] := by decide
  have hring : startOrder (services ["api"]) = none := by decide
  obtain ⟨-, hnone, -⟩ := startOrder_topological (hnodup [])
  obtain ⟨hends, hcycle, -⟩ := startOrder_topological (hnodup ["api"])
  refine ⟨⟨hnodup _, hopen, fun n hn => ?_⟩, hnodup _, hring, fun depth hdepth => ?_,
    hcycle.1 hring⟩
  · have h := hnone.2 ⟨n, hn⟩
    rw [hopen] at h
    cases h
  · obtain ⟨hdeep, hfound⟩ := hends depth hdepth
    rw [hring] at hfound
    match hplace : placeAll (services ["api"]) depth with
    | .ok order => rw [hplace] at hfound; cases hfound
    | .error .cycle => rfl
    | .error .depth => exact absurd hplace hdeep

/-! ## A part of the order -/

/-- Among some services of the order, too, each stands behind what it depends on. -/
theorem Placed.sublist_filter {order : List String} (h : Placed services order)
    {f : String → Bool} {name dep : String} (hname : name ∈ order.filter f)
    (hdep : dep ∈ order.filter f) (hneeds : Relation.TransGen (Needs services) name dep) :
    [dep, name].Sublist (order.filter f) := by
  obtain ⟨hmem, hf⟩ := List.mem_filter.1 hname
  obtain ⟨before, after, rfl⟩ := List.append_of_mem hmem
  have hbefore : dep ∈ before.filter f :=
    List.mem_filter.2 ⟨h.behind_all hneeds rfl, (List.mem_filter.1 hdep).2⟩
  rw [List.filter_append, List.filter_cons_of_pos hf]
  exact (List.singleton_sublist.2 hbefore).append ((List.nil_sublist _).cons_cons name)

end DockerSim.Service

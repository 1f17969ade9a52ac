import DockerSim.Engine.Display
import DockerSim.Engine.Lookup

/-!
# What a draw does to the supply

A supply only moves on: its counter and its clock never go back (`u ≤ v`). A computation that draws
`Advances` when it takes every supply to a later one. Ids of containers are handed out, and times
are shown, between two supplies (`Hands`, `Shows`).

Computations are taken apart by `bind_eq_iff`, so that later proofs name every intermediate supply.
-/

namespace DockerSim

/-! ## Computations that draw -/

namespace Draw

variable {α β : Type} {u v w : Supply}

theorem bind_eq_iff {m : Draw α} {f : α → Draw β} {b : β} :
    (m >>= f) u = (b, w) ↔ ∃ a v, m u = (a, v) ∧ f a v = (b, w) := by
  constructor
  · intro h
    exact ⟨_, _, rfl, h⟩
  · rintro ⟨a, v, hm, hf⟩
    show f (m u).1 (m u).2 = _
    rw [hm]
    exact hf

theorem pure_eq_iff {a b : α} : (pure a : Draw α) u = (b, v) ↔ a = b ∧ u = v := by
  show (a, u) = (b, v) ↔ _
  rw [Prod.mk.injEq]

theorem map_eq_iff {m : Draw α} {f : α → β} {b : β} :
    (f <$> m) u = (b, w) ↔ ∃ a, m u = (a, w) ∧ f a = b := by
  show ((m >>= fun a => pure (f a) : Draw β) u) = _ ↔ _
  simp only [bind_eq_iff, pure_eq_iff]
  constructor
  · rintro ⟨a, v, hm, rfl, rfl⟩
    exact ⟨a, hm, rfl⟩
  · rintro ⟨a, hm, rfl⟩
    exact ⟨a, w, hm, rfl, rfl⟩

/-- What every step of a fold keeps, the fold keeps. -/
theorem foldlM_keeps {R : β → Supply → β → Supply → Prop} {f : β → α → Draw β}
    (refl : ∀ b u, R b u b u)
    (trans : ∀ {b c d u v w}, R b u c v → R c v d w → R b u d w)
    (step : ∀ {b a c u v}, f b a u = (c, v) → R b u c v) :
    ∀ {l : List α} {b c : β} {u v : Supply}, l.foldlM f b u = (c, v) → R b u c v
  | [], b, c, u, v, h => by
    rw [List.foldlM_nil, pure_eq_iff] at h
    obtain ⟨rfl, rfl⟩ := h
    exact refl b u
  | a :: l, b, c, u, v, h => by
    rw [List.foldlM_cons, bind_eq_iff] at h
    obtain ⟨b', u', h1, h2⟩ := h
    exact trans (step h1) (foldlM_keeps refl trans step h2)

/-- What every step reaches and keeps is reached for all. -/
theorem foldlM_reaches {P : α → β → Prop} {f : β → α → Draw β}
    (reach : ∀ {b a c u v}, f b a u = (c, v) → P a c)
    (keep : ∀ {b a a' c u v}, f b a u = (c, v) → P a' b → P a' c) :
    ∀ {l : List α} {b c : β} {u v : Supply}, l.foldlM f b u = (c, v) → ∀ a ∈ l, P a c
  | [], _, _, _, _, _ => fun _ hmem => nomatch hmem
  | a :: l, b, c, u, v, h => by
    rw [List.foldlM_cons, bind_eq_iff] at h
    obtain ⟨b', u', h1, h2⟩ := h
    refine List.forall_mem_cons.2 ⟨?_, foldlM_reaches (P := P) reach keep h2⟩
    exact foldlM_keeps (R := fun b _ c _ => P a b → P a c) (fun _ _ => id)
      (fun h h' hb => h' (h hb)) keep h2 (reach h1)

/-- Steps that do nothing do nothing one after the other. -/
theorem foldlM_eq_pure {f : β → α → Draw β} {b : β} :
    ∀ {l : List α}, (∀ a ∈ l, f b a = pure b) → l.foldlM f b = pure b
  | [], _ => List.foldlM_nil
  | a :: l, h => by
    obtain ⟨ha, hl⟩ := List.forall_mem_cons.1 h
    rw [List.foldlM_cons, ha, pure_bind, foldlM_eq_pure hl]

end Draw

/-! ## Later supplies -/

namespace Supply

/-- The second supply is the first one after some draws, or none. -/
structure Before (u v : Supply) : Prop where
  drawn : u.drawn ≤ v.drawn
  seconds : u.clock.seconds ≤ v.clock.seconds
  nanos : v.clock.nanos = u.clock.nanos

instance : LE Supply := ⟨Before⟩

theorem le_refl (u : Supply) : u ≤ u := ⟨Nat.le_refl _, Int.le_refl _, rfl⟩

theorem le_trans {u v w : Supply} (h : u ≤ v) (h' : v ≤ w) : u ≤ w :=
  ⟨Nat.le_trans h.drawn h'.drawn, Int.le_trans h.seconds h'.seconds, h'.nanos.trans h.nanos⟩

instance : Trans (α := Supply) (β := Supply) (γ := Supply) (· ≤ ·) (· ≤ ·) (· ≤ ·) :=
  ⟨le_trans⟩

/-- The id is one of those that are handed out between two supplies. -/
def Hands (u : Supply) (id : String) (v : Supply) : Prop :=
  ∃ n, u.drawn < n ∧ n ≤ v.drawn ∧ id = hexText 12 n

theorem Hands.mono {u v u' v' : Supply} {id : String} (h : Hands u id v) (hu : u' ≤ u)
    (hv : v ≤ v') : Hands u' id v' := by
  obtain ⟨n, h1, h2, rfl⟩ := h
  exact ⟨n, Nat.lt_of_le_of_lt hu.drawn h1, Nat.le_trans h2 hv.drawn, rfl⟩

/-- The digest is one of those that are handed out between two supplies. -/
def HandsDigest (u : Supply) (id : String) (v : Supply) : Prop :=
  ∃ n, u.drawn < n ∧ n ≤ v.drawn ∧ id = "sha256:" ++ hexText 64 n

theorem HandsDigest.mono {u v u' v' : Supply} {id : String} (h : HandsDigest u id v) (hu : u' ≤ u)
    (hv : v ≤ v') : HandsDigest u' id v' := by
  obtain ⟨n, h1, h2, rfl⟩ := h
  exact ⟨n, Nat.lt_of_le_of_lt hu.drawn h1, Nat.le_trans h2 hv.drawn, rfl⟩

/-- The clock shows the time at some moment between two supplies. -/
structure Shows (u : Supply) (t : Instant) (v : Supply) : Prop where
  le : u ≤ v
  after : u.clock.seconds < t.seconds
  upTo : t.seconds ≤ v.clock.seconds
  nanos : t.nanos = u.clock.nanos

theorem Shows.mono {u v u' v' : Supply} {t : Instant} (h : Shows u t v) (hu : u' ≤ u)
    (hv : v ≤ v') : Shows u' t v' :=
  ⟨le_trans hu (le_trans h.le hv), Int.lt_of_le_of_lt hu.seconds h.after,
    Int.le_trans h.upTo hv.seconds, h.nanos.trans hu.nanos⟩

end Supply

/-! ## Every draw goes on -/

open Supply

/-- The computation never takes a supply back. -/
def Draw.Advances {α : Type} (m : Draw α) : Prop := ∀ ⦃u a v⦄, m u = (a, v) → u ≤ v

namespace Draw.Advances

variable {α β : Type}

theorem pure (a : α) : (pure a : Draw α).Advances := by
  intro u b v h
  rw [(pure_eq_iff.1 h).2]
  exact le_refl _

theorem bind {m : Draw α} {f : α → Draw β} (hm : m.Advances) (hf : ∀ a, (f a).Advances) :
    (m >>= f).Advances := by
  intro u b w h
  obtain ⟨a, v, h1, h2⟩ := bind_eq_iff.1 h
  exact le_trans (hm h1) (hf a h2)

theorem foldlM {f : β → α → Draw β} (hf : ∀ b a, (f b a).Advances) :
    ∀ (l : List α) (b : β), (l.foldlM f b).Advances
  | [], b => by
    rw [List.foldlM_nil]
    exact .pure b
  | a :: l, b => by
    rw [List.foldlM_cons]
    exact .bind (hf b a) fun b => foldlM hf l b

theorem mapM {f : α → Draw β} (hf : ∀ a, (f a).Advances) :
    ∀ l : List α, (l.mapM f).Advances
  | [] => by
    rw [List.mapM_nil]
    exact .pure []
  | a :: l => by
    rw [List.mapM_cons]
    exact .bind (hf a) fun _ => .bind (mapM hf l) fun _ => .pure _

end Draw.Advances

namespace Supply

theorem next_advances : next.Advances := by
  intro u n v h
  obtain ⟨rfl, rfl⟩ := Prod.mk.inj h
  exact ⟨Nat.le_succ _, Int.le_refl _, rfl⟩

theorem now_advances : now.Advances := by
  intro u t v h
  obtain ⟨rfl, rfl⟩ := Prod.mk.inj h
  exact ⟨Nat.le_refl _, Int.le_of_lt (Int.lt_succ _), rfl⟩

theorem shows_of_now {u v : Supply} {t : Instant} (h : now u = (t, v)) : Shows u t v := by
  have hle := now_advances h
  obtain ⟨rfl, rfl⟩ := Prod.mk.inj h
  exact ⟨hle, Int.lt_succ _, Int.le_refl _, rfl⟩

theorem hex_advances (len : Nat) : (hex len).Advances :=
  .bind next_advances fun _ => .pure _

theorem uuid_advances : uuid.Advances := .bind next_advances fun _ => .pure _

theorem below_advances (bound : Nat) : (below bound).Advances := by
  unfold below
  split
  · exact .pure _
  · exact .bind next_advances fun _ => .pure _

theorem digest_advances : digest.Advances := .bind (hex_advances 64) fun _ => .pure _

theorem sizeBetween_advances (low high : Nat) : (sizeBetween low high).Advances :=
  .bind (below_advances _) fun _ => .pure _

theorem pick_advances (items : List String) : (pick items).Advances :=
  .bind (below_advances _) fun _ => .pure _

/-- A number is below its bound. -/
theorem below_lt {bound n : Nat} {u v : Supply} (h : below bound u = (n, v)) (hb : 0 < bound) :
    n < bound := by
  unfold below at h
  rw [if_neg (by omega)] at h
  obtain ⟨k, w, -, hn⟩ := Draw.bind_eq_iff.1 h
  rw [← (Draw.pure_eq_iff.1 hn).1]
  exact Nat.mod_lt k hb

section Sizes
variable {low high n : Nat} {u v : Supply}

theorem sizeBetween_eq_iff : sizeBetween low high u = (n, v) ↔
    ∃ k, below (high - low) u = (k, v) ∧ n = low + k := by
  simp only [sizeBetween, Draw.bind_eq_iff, Draw.pure_eq_iff]
  constructor
  · rintro ⟨k, _, hk, rfl, rfl⟩
    exact ⟨k, hk, rfl⟩
  · rintro ⟨k, hk, rfl⟩
    exact ⟨k, v, hk, rfl, rfl⟩

theorem le_sizeBetween (h : sizeBetween low high u = (n, v)) : low ≤ n := by
  obtain ⟨k, -, rfl⟩ := sizeBetween_eq_iff.1 h
  exact Nat.le_add_right low k

theorem sizeBetween_lt (h : sizeBetween low high u = (n, v)) (hlt : low < high) : n < high := by
  obtain ⟨k, hk, rfl⟩ := sizeBetween_eq_iff.1 h
  have := below_lt hk (by omega)
  omega

/-- Where no size is left between two bounds, nothing is drawn. -/
theorem sizeBetween_of_le (h : high ≤ low) : sizeBetween low high u = (low, u) := by
  rw [sizeBetween_eq_iff, Nat.sub_eq_zero_of_le h]
  exact ⟨0, rfl, rfl⟩

end Sizes

theorem hands_of_containerId {u v : Supply} {id : String} (h : containerId u = (id, v)) :
    Hands u id v := by
  obtain ⟨n, w, hn, hp⟩ := Draw.bind_eq_iff.1 h
  obtain ⟨rfl, rfl⟩ := Draw.pure_eq_iff.1 hp
  obtain ⟨rfl, rfl⟩ := Prod.mk.inj hn
  exact ⟨_, Nat.lt_succ_self _, Nat.le_refl _, rfl⟩

theorem containerId_advances : containerId.Advances := hex_advances 12

theorem handsDigest_of_digest {u v : Supply} {id : String} (h : digest u = (id, v)) :
    HandsDigest u id v := by
  obtain ⟨hex, w, hhex, hp⟩ := Draw.bind_eq_iff.1 h
  obtain ⟨n, w', hn, hp'⟩ := Draw.bind_eq_iff.1 hhex
  obtain ⟨rfl, rfl⟩ := Draw.pure_eq_iff.1 hp
  obtain ⟨rfl, rfl⟩ := Draw.pure_eq_iff.1 hp'
  obtain ⟨rfl, rfl⟩ := Prod.mk.inj hn
  exact ⟨_, Nat.lt_succ_self _, Nat.le_refl _, rfl⟩

end Supply

theorem drawName_advances : drawName.Advances :=
  .bind (pick_advances _) fun _ => .bind (pick_advances _) fun _ => .pure _

theorem drawFreeName_advances (containers : Table Container) :
    ∀ tries, (drawFreeName containers tries).Advances
  | 0 => .bind drawName_advances fun _ => .bind (hex_advances 4) fun _ => .pure _
  | tries + 1 => by
    refine .bind drawName_advances fun name => ?_
    split
    · exact drawFreeName_advances containers tries
    · exact .pure _

theorem startupLogs_advances (image : String) : (Startup.logs image).Advances := by
  unfold Startup.logs
  dsimp only
  split
  · exact .bind now_advances fun _ => .pure _
  · split
    · exact .pure _
    · split <;> exact .pure _

/-- A container that starts prints something. -/
theorem startupLogs_ne_nil {image : String} {logs : List String} {u v : Supply}
    (h : Startup.logs image u = (logs, v)) : logs ≠ [] := by
  unfold Startup.logs at h
  split at h
  · obtain ⟨time, w, -, hlogs⟩ := Draw.bind_eq_iff.1 h
    exact (Draw.pure_eq_iff.1 hlogs).1 ▸ List.cons_ne_nil _ _
  · split at h
    · exact (Draw.pure_eq_iff.1 h).1 ▸ List.cons_ne_nil _ _
    · split at h <;> exact (Draw.pure_eq_iff.1 h).1 ▸ List.cons_ne_nil _ _

end DockerSim

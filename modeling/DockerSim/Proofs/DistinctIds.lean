import DockerSim.Proofs.Digits
import DockerSim.Proofs.Draws

/-!
# Ids that are handed out

A supply is asked for ids, numbers, times and choices in any order, and each call that draws makes
its answer from the next number. The ids of containers, networks and volumes have twelve digits,
those of images and layers are digests, those of events have dashes in them; but each of them ends
in twelve digits, which denote its number up to a multiple of `16 ^ 12` (`IsFrom`). So no two ids
are the same, of whatever kinds they are, until that many numbers are drawn (`ids_distinct`).
-/

namespace DockerSim.Supply

open Chars

/-! ## Calls and answers -/

/-- What a supply is asked for. -/
inductive Call where
  | hex (len : Nat)
  | uuid
  | below (bound : Nat)
  | now
  | containerId
  | digest
  | sizeBetween (low high : Nat)
  | pick (items : List String)
deriving DecidableEq

inductive Answer where
  | text (text : String)
  | number (n : Nat)
  | time (t : Instant)
deriving DecidableEq

namespace Call

def answer : Call → Draw Answer
  | hex len => do return .text (← Supply.hex len)
  | uuid => do return .text (← Supply.uuid)
  | below bound => do return .number (← Supply.below bound)
  | now => do return .time (← Supply.now)
  | containerId => do return .text (← Supply.containerId)
  | digest => do return .text (← Supply.digest)
  | sizeBetween low high => do return .number (← Supply.sizeBetween low high)
  | pick items => do return .text (← Supply.pick items)

/-- The call asks for something that nothing else may have. Fewer digits than twelve are drawn too,
but only to make a name less likely to be taken. -/
def asksForId : Call → Bool
  | hex len => 12 ≤ len
  | uuid | containerId | digest => true
  | below _ | now | sizeBetween _ _ | pick _ => false

end Call

/-- The answers to calls that are made one after the other. A program may choose a call by the
answers that it has got before. -/
def record (calls : List Call) : Draw (List (Call × Answer)) :=
  calls.mapM fun c => do return (c, ← c.answer)

/-- The ids of a record. -/
def ids (log : List (Call × Answer)) : List Answer := (log.filter (·.1.asksForId)).map (·.2)

/-! ## The number of an id -/

/-- The number that the last twelve digits of an id denote. -/
def serial (id : String) : Nat :=
  numberOf 16 hexDigitValue (id.toList.drop (id.toList.length - 12))

/-- What stands before the last twelve digits does not count. -/
theorem serial_of_suffix {id : String} (len n : Nat) (hlen : 12 ≤ len)
    (h : (hexText len n).toList.drop (len - 12) <:+ id.toList) :
    serial id = n % Nat.pow 16 12 := by
  obtain ⟨front, hid⟩ := h
  have hfront : (front ++ (hexText len n).toList.drop (len - 12)).length - 12 = front.length := by
    rw [List.length_append, List.length_drop, length_hexText]
    omega
  rw [serial, ← hid, hfront, List.drop_left, numberOf_drop_hexText hlen]

theorem serial_hexText {len : Nat} (h : 12 ≤ len) (n : Nat) :
    serial (hexText len n) = n % Nat.pow 16 12 :=
  serial_of_suffix len n h (List.drop_suffix _ _)

theorem serial_digest (n : Nat) : serial ("sha256:" ++ hexText 64 n) = n % Nat.pow 16 12 := by
  have hend : (hexText 64 n).toList <:+ ("sha256:" ++ hexText 64 n).toList := by
    rw [String.toList_append]
    exact List.suffix_append _ _
  exact serial_of_suffix 64 n (by decide) ((List.drop_suffix _ _).trans hend)

theorem serial_uuidText (n : Nat) : serial (uuidText n) = n % Nat.pow 16 12 := by
  have hlen : ((hexText 32 n).toList.drop 20).length = 12 := by
    rw [List.length_drop, length_hexText]
  have hlast : ((hexText 32 n).toList.drop 20).take 12 = (hexText 32 n).toList.drop 20 :=
    List.take_of_length_le (Nat.le_of_eq hlen)
  have hend : (hexText 32 n).toList.drop 20 <:+ (uuidText n).toList := by
    unfold uuidText
    dsimp only
    rw [String.toList_ofList, hlast]
    exact List.suffix_append _ _
  exact serial_of_suffix 32 n (by decide) hend

/-! ## One call and many -/

/-- The answer is an id that was made from the number. -/
def IsFrom (n : Nat) (a : Answer) : Prop :=
  ∃ id, a = .text id ∧ serial id = n % Nat.pow 16 12

variable {u v : Supply} {c : Call} {calls : List Call} {log : List (Call × Answer)} {a b : Answer}
  {m n : Nat}

/-- Ids from numbers less than `16 ^ 12` apart are different. -/
theorem IsFrom.ne (ha : IsFrom m a) (hb : IsFrom n b) (hlt : m < n)
    (hn : n < m + Nat.pow 16 12) : a ≠ b := by
  obtain ⟨id, rfl, hid⟩ := ha
  obtain ⟨id', rfl, hid'⟩ := hb
  intro he
  cases he
  exact mod_ne_mod hlt hn (hid.symm.trans hid')

/-- An id is made from the next number. -/
theorem Call.isFrom_of_asksForId (hc : c.asksForId = true) (h : c.answer u = (a, v)) :
    v.drawn = u.drawn + 1 ∧ IsFrom v.drawn a := by
  cases c with
  | hex len =>
    cases h
    exact ⟨rfl, _, rfl, serial_hexText (of_decide_eq_true hc) _⟩
  | uuid =>
    cases h
    exact ⟨rfl, _, rfl, serial_uuidText _⟩
  | containerId =>
    cases h
    exact ⟨rfl, _, rfl, serial_hexText (by decide) _⟩
  | digest =>
    cases h
    exact ⟨rfl, _, rfl, serial_digest _⟩
  | _ => cases hc

theorem Call.answer_advances (c : Call) : c.answer.Advances := by
  cases c with
  | hex len => exact .bind (hex_advances len) fun _ => .pure _
  | uuid => exact .bind uuid_advances fun _ => .pure _
  | below bound => exact .bind (below_advances bound) fun _ => .pure _
  | now => exact .bind now_advances fun _ => .pure _
  | containerId => exact .bind containerId_advances fun _ => .pure _
  | digest => exact .bind digest_advances fun _ => .pure _
  | sizeBetween low high => exact .bind (sizeBetween_advances low high) fun _ => .pure _
  | pick items => exact .bind (pick_advances items) fun _ => .pure _

theorem record_cons_iff {w : Supply} : record (c :: calls) u = (log, w) ↔
    ∃ a v rest, c.answer u = (a, v) ∧ record calls v = (rest, w) ∧ log = (c, a) :: rest := by
  simp only [record, List.mapM_cons, Draw.bind_eq_iff, Draw.pure_eq_iff]
  constructor
  · rintro ⟨_, v, ⟨a, _, ha, rfl, rfl⟩, rest, _, hrest, rfl, rfl⟩
    exact ⟨a, _, rest, ha, hrest, rfl⟩
  · rintro ⟨a, v, rest, ha, hrest, rfl⟩
    exact ⟨_, v, ⟨a, v, ha, rfl, rfl⟩, rest, w, hrest, rfl, rfl⟩

theorem record_advances (calls : List Call) : (record calls).Advances :=
  .mapM (fun c => .bind c.answer_advances fun _ => .pure _) calls

theorem mem_ids_cons : b ∈ ids ((c, a) :: log) ↔ (c.asksForId = true ∧ b = a) ∨ b ∈ ids log := by
  unfold ids
  cases hc : c.asksForId <;> simp [hc]

/-- The ids of a record are made from the numbers that are drawn on the way. -/
theorem isFrom_of_mem_ids (h : record calls u = (log, v)) (ha : a ∈ ids log) :
    ∃ n, u.drawn < n ∧ n ≤ v.drawn ∧ IsFrom n a := by
  induction calls generalizing u log with
  | nil =>
    rw [record, List.mapM_nil, Draw.pure_eq_iff] at h
    obtain ⟨rfl, rfl⟩ := h
    exact absurd ha List.not_mem_nil
  | cons c calls ih =>
    obtain ⟨b, w, rest, hb, hrest, rfl⟩ := record_cons_iff.1 h
    have huw := (c.answer_advances hb).drawn
    have hwv := (record_advances calls hrest).drawn
    rcases mem_ids_cons.1 ha with ⟨hc, rfl⟩ | ha
    · obtain ⟨hdrawn, hfrom⟩ := Call.isFrom_of_asksForId hc hb
      exact ⟨_, by omega, hwv, hfrom⟩
    · obtain ⟨n, hn, hn', hfrom⟩ := ih hrest ha
      exact ⟨n, by omega, hn', hfrom⟩

/-- **The ids of a record are different**, as long as the numbers fit in the digits of the shortest
ids. -/
theorem nodup_ids (h : record calls u = (log, v)) (hv : v.drawn ≤ u.drawn + Nat.pow 16 12) :
    (ids log).Nodup := by
  induction calls generalizing u log with
  | nil =>
    rw [record, List.mapM_nil, Draw.pure_eq_iff] at h
    obtain ⟨rfl, rfl⟩ := h
    exact List.nodup_nil
  | cons c calls ih =>
    obtain ⟨b, w, rest, hb, hrest, rfl⟩ := record_cons_iff.1 h
    have huw := (c.answer_advances hb).drawn
    have hnodup := ih hrest (by omega)
    cases hc : c.asksForId with
    | false =>
      rwa [ids, List.filter_cons_of_neg (by simp [hc]), ← ids]
    | true =>
      obtain ⟨hdrawn, hfrom⟩ := Call.isFrom_of_asksForId hc hb
      rw [ids, List.filter_cons_of_pos (by simp [hc]), List.map_cons, ← ids]
      -- Every later id is from a later number, but not from one that is `16 ^ 12` later.
      refine List.nodup_cons.2 ⟨fun hmem => ?_, hnodup⟩
      obtain ⟨n, hn, hn', hlater⟩ := isFrom_of_mem_ids hrest hmem
      exact hfrom.ne hlater hn (by omega) rfl

/-! ## What is handed out -/

/-- The text consists of `len` lowercase hexadecimal digits, which denote what is left of the number
when it is divided by `16 ^ len`. -/
structure Spells (len n : Nat) (text : String) : Prop where
  length : text.length = len
  lowercase : ∀ c ∈ text.toList, isHexDigit c = true
  denotes : numberOf 16 hexDigitValue text.toList = n % Nat.pow 16 len

theorem spells_hexText (len n : Nat) : Spells len n (hexText len n) where
  length := by rw [← String.length_toList, length_hexText]
  lowercase _ hc := isHexDigit_of_mem_hexText hc
  denotes := numberOf_hexText len n

/-- **Ids do not collide.** At whatever count a supply has arrived, it counts on by one and spells
the new number in exactly as many hexadecimal digits as it is asked for. So all ids of at least
twelve digits, all digests and all ids of events that it hands out from there on are different,
whatever else it is asked for in between, until `16 ^ 12` numbers are drawn; calls that draw no
number do not count. A size lies between its bounds, is the lower one where there is nothing between
them, and fits in 64 bits when the bounds do. -/
theorem ids_distinct (u : Supply) :
    (∀ len, (hex len u).2.drawn = u.drawn + 1 ∧ Spells len (hex len u).2.drawn (hex len u).1) ∧
    (∀ calls, (record calls u).2.drawn ≤ u.drawn + Nat.pow 16 12 →
      (ids (record calls u).1).Nodup) ∧
    ∀ low high,
      (low < high → low ≤ (sizeBetween low high u).1 ∧ (sizeBetween low high u).1 < high) ∧
      (high ≤ low → (sizeBetween low high u).1 = low) ∧
      (low < UInt64.size → high < UInt64.size → (sizeBetween low high u).1 < UInt64.size) := by
  refine ⟨fun len => ⟨rfl, spells_hexText len _⟩, fun calls h => nodup_ids rfl h,
    fun low high => ?_⟩
  have hbetween (h : low < high) := sizeBetween_lt (u := u) rfl h
  have hnone (h : high ≤ low) : (sizeBetween low high u).1 = low := by rw [sizeBetween_of_le h]
  refine ⟨fun h => ⟨le_sizeBetween rfl, hbetween h⟩, hnone, fun hlow hhigh => ?_⟩
  rcases Nat.lt_or_ge low high with h | h
  · exact Nat.lt_trans (hbetween h) hhigh
  · rwa [hnone h]

/-- A supply whose numbers will soon have thirteen digits. -/
def late : Supply := { fresh with drawn := Nat.pow 16 12 - 2 }

/-- Calls of every kind. -/
def mixedCalls : List Call :=
  [.containerId, .below 0, .hex 12, .now, .digest, .pick [], .hex 1, .uuid, .sizeBetween 7 9,
    .hex 12]

/-- Ids are different also where their digits begin anew. -/
theorem ids_distinct_late :
    Spells 4 (Nat.pow 16 12 - 1) (hex 4 late).1 ∧
      (record mixedCalls late).2.drawn = late.drawn + 7 ∧
      ids (record mixedCalls late).1 = [.text "ffffffffffff", .text "000000000000",
        .text "sha256:0000000000000000000000000000000000000000000000000001000000000001",
        .text "00000000-0000-0000-0001-000000000003", .text "000000000005"] ∧
      (ids (record mixedCalls late).1).Nodup ∧
      (7 ≤ (sizeBetween 7 9 late).1 ∧ (sizeBetween 7 9 late).1 < 9) ∧
      (sizeBetween 9 7 late).1 = 9 :=
  have h := ids_distinct late
  ⟨(h.1 4).2, by decide, by decide, h.2.1 mixedCalls (by decide), (h.2.2 7 9).1 (by decide),
    (h.2.2 9 7).2.1 (by decide)⟩

end DockerSim.Supply

import DockerSim.Supply
import Mathlib.Data.List.Induction

/-!
# Digits

What digits denote, in any base up to sixteen. A number is denoted by its digits, zeros in front
change nothing, and the last digits of a row denote the remainder by a power of the base. Ids of one
length are therefore the same only if their numbers have the same remainder. The ids of events are
such digits with dashes between them.
-/

namespace DockerSim.Chars

/-- The number that a row of digits denotes, given what each digit denotes. -/
def numberOf (base : Nat) (value : Char → Nat) (cs : List Char) : Nat :=
  cs.foldl (fun n c => base * n + value c) 0

variable {base : Nat} {value : Char → Nat}

theorem numberOf_snoc (cs : List Char) (c : Char) :
    numberOf base value (cs ++ [c]) = base * numberOf base value cs + value c := by
  unfold numberOf
  rw [List.foldl_append]
  rfl

theorem numberOf_append (xs ys : List Char) :
    numberOf base value (xs ++ ys) =
      numberOf base value xs * Nat.pow base ys.length + numberOf base value ys := by
  induction ys using List.reverseRecOn with
  | nil => simp [numberOf]
  | append_singleton ys y ih =>
    have hp : Nat.pow base (ys ++ [y]).length = Nat.pow base ys.length * base := by
      rw [List.length_append]
      rfl
    rw [← List.append_assoc, numberOf_snoc, ih, numberOf_snoc, hp, Nat.mul_add, Nat.add_assoc,
      Nat.mul_left_comm, Nat.mul_comm base]

theorem numberOf_lt {cs : List Char} (h : ∀ c ∈ cs, value c < base) :
    numberOf base value cs < Nat.pow base cs.length := by
  induction cs using List.reverseRecOn with
  | nil => exact Nat.one_pos
  | append_singleton cs c ih =>
    have hc : value c < base := h c (by simp)
    have hcs := ih fun d hd => h d (by simp [hd])
    have hp : Nat.pow base (cs ++ [c]).length = base * Nat.pow base cs.length := by
      rw [List.length_append]
      exact Nat.mul_comm _ _
    rw [numberOf_snoc, hp]
    have : base * (numberOf base value cs + 1) ≤ base * Nat.pow base cs.length :=
      Nat.mul_le_mul_left _ hcs
    rw [Nat.mul_add] at this
    omega

theorem numberOf_replicate (hz : value '0' = 0) (n : Nat) :
    numberOf base value (List.replicate n '0') = 0 := by
  induction n with
  | zero => rfl
  | succ n ih =>
    rw [List.replicate_succ', numberOf_snoc, ih, hz, Nat.mul_zero]

theorem numberOf_zeroPad (hz : value '0' = 0) (width : Nat) (cs : List Char) :
    numberOf base value (zeroPad width cs) = numberOf base value cs := by
  unfold zeroPad
  rw [numberOf_append, numberOf_replicate hz, Nat.zero_mul, Nat.zero_add]

/-- The last digits denote a remainder. -/
theorem numberOf_drop {cs : List Char} (h : ∀ c ∈ cs, value c < base) (k : Nat) :
    numberOf base value (cs.drop k) =
      numberOf base value cs % Nat.pow base (cs.drop k).length := by
  have hlt : numberOf base value (cs.drop k) < Nat.pow base (cs.drop k).length :=
    numberOf_lt fun c hc => h c (List.mem_of_mem_drop hc)
  have happ : numberOf base value (cs.take k ++ cs.drop k) = _ := numberOf_append _ _
  rw [List.take_append_drop] at happ
  rw [happ, Nat.mul_comm, Nat.mul_add_mod, Nat.mod_eq_of_lt hlt]

theorem digits_eq (hb : 1 < base) (n : Nat) :
    digits base n =
      if n < base then [n.digitChar]
      else digits base (n / base) ++ [(n % base).digitChar] :=
  Nat.toDigits_eq_if hb

theorem digit_of_mem_digits (hb : 1 < base) {n : Nat} {c : Char} (h : c ∈ digits base n) :
    ∃ d, d < base ∧ c = d.digitChar := by
  induction n using Nat.strongRecOn with
  | ind n ih =>
    rw [digits_eq hb] at h
    split at h
    · next hn => exact ⟨n, hn, List.mem_singleton.1 h⟩
    · next hn =>
      rcases List.mem_append.1 h with h | h
      · exact ih _ (Nat.div_lt_self (by omega) hb) h
      · exact ⟨_, Nat.mod_lt _ (by omega), List.mem_singleton.1 h⟩

/-- **A number is denoted by its digits.** -/
theorem numberOf_digits (hb : 1 < base) (hv : ∀ d < base, value d.digitChar = d) (n : Nat) :
    numberOf base value (digits base n) = n := by
  induction n using Nat.strongRecOn with
  | ind n ih =>
    rw [digits_eq hb]
    split
    · next hn => simp [numberOf, hv n hn]
    · next hn =>
      rw [numberOf_snoc, ih _ (Nat.div_lt_self (by omega) hb), hv _ (Nat.mod_lt _ (by omega))]
      exact Nat.div_add_mod n base

/-! ## Decimal digits -/

theorem isDigit_digitChar : ∀ d < 10, isDigit d.digitChar = true := by decide

theorem digitValue_digitChar : ∀ d < 10, digitValue d.digitChar = d := by decide

theorem isDigit_of_mem_digits {n : Nat} {c : Char} (h : c ∈ digits 10 n) : isDigit c = true := by
  obtain ⟨d, hd, rfl⟩ := digit_of_mem_digits (by decide) h
  exact isDigit_digitChar d hd

theorem digits_ne_nil (n : Nat) : digits 10 n ≠ [] := Nat.toDigits_ne_nil

theorem digitsValue_eq (cs : List Char) : digitsValue 0 cs = numberOf 10 digitValue cs := rfl

theorem digitsValue_digits (n : Nat) : digitsValue 0 (digits 10 n) = n :=
  numberOf_digits (by decide) digitValue_digitChar n

/-- Only zero is written with a zero in front. -/
theorem digits_head_ne_zero {n : Nat} (h : n ≠ 0) : (digits 10 n).head? ≠ some '0' := by
  induction n using Nat.strongRecOn with
  | ind n ih =>
    rw [digits_eq (by decide)]
    split
    · rw [List.head?_cons, ne_eq, Option.some.injEq, Nat.digitChar_eq_zero]
      exact h
    · have hne := digits_ne_nil (n / 10)
      have hih := ih (n / 10) (by omega) (by omega)
      cases hd : digits 10 (n / 10) with
      | nil => exact absurd hd hne
      | cons d ds =>
        rw [hd] at hih
        exact hih

end DockerSim.Chars

namespace DockerSim.Supply

open Chars

/-- What a hexadecimal digit denotes. -/
def hexDigitValue (c : Char) : Nat := if c.isDigit then c.toNat - 48 else c.toNat - 87

theorem hexDigitValue_digitChar : ∀ d < 16, hexDigitValue d.digitChar = d := by decide

/-- The digits below sixteen, with lowercase letters above nine. -/
def isHexDigit (c : Char) : Bool := isDigit c || ('a' ≤ c && c ≤ 'f')

theorem isHexDigit_digitChar : ∀ d < 16, isHexDigit d.digitChar = true := by decide

theorem digit_of_mem_zeroPad {len n : Nat} {c : Char} (h : c ∈ zeroPad len (digits 16 n)) :
    ∃ d, d < 16 ∧ c = d.digitChar := by
  rcases List.mem_append.1 h with h | h
  · exact ⟨0, by decide, List.eq_of_mem_replicate h⟩
  · exact digit_of_mem_digits (by decide) h

theorem digit_of_mem_hexText {len n : Nat} {c : Char} (h : c ∈ (hexText len n).toList) :
    ∃ d, d < 16 ∧ c = d.digitChar := by
  unfold hexText at h
  rw [String.toList_ofList] at h
  exact digit_of_mem_zeroPad (List.mem_of_mem_drop h)

theorem isHexDigit_of_mem_hexText {len n : Nat} {c : Char} (h : c ∈ (hexText len n).toList) :
    isHexDigit c = true := by
  obtain ⟨d, hd, rfl⟩ := digit_of_mem_hexText h
  exact isHexDigit_digitChar d hd

theorem hexDigitValue_lt {c : Char} (h : ∃ d, d < 16 ∧ c = d.digitChar) :
    hexDigitValue c < 16 := by
  obtain ⟨d, hd, rfl⟩ := h
  rw [hexDigitValue_digitChar d hd]
  exact hd

theorem length_hexText (len n : Nat) : (hexText len n).toList.length = len := by
  unfold hexText zeroPad
  simp
  omega

/-- An id of `len` digits denotes the remainder of its number. -/
theorem numberOf_hexText (len n : Nat) :
    numberOf 16 hexDigitValue (hexText len n).toList = n % Nat.pow 16 len := by
  have hdigits : ∀ c ∈ zeroPad len (digits 16 n), hexDigitValue c < 16 :=
    fun _ hc => hexDigitValue_lt (digit_of_mem_zeroPad hc)
  have hlen := length_hexText len n
  unfold hexText at hlen ⊢
  rw [String.toList_ofList] at hlen ⊢
  rw [numberOf_drop hdigits, hlen, numberOf_zeroPad rfl,
    numberOf_digits (by decide) hexDigitValue_digitChar]

/-- The last digits of an id denote the remainder for as many digits. -/
theorem numberOf_drop_hexText {k len : Nat} (hk : k ≤ len) (n : Nat) :
    numberOf 16 hexDigitValue ((hexText len n).toList.drop (len - k)) = n % Nat.pow 16 k := by
  have hlen : ((hexText len n).toList.drop (len - k)).length = k := by
    rw [List.length_drop, length_hexText]
    omega
  have hdvd : Nat.pow 16 k ∣ Nat.pow 16 len := Nat.pow_dvd_pow 16 hk
  rw [numberOf_drop fun _ hc => hexDigitValue_lt (digit_of_mem_hexText hc), hlen,
    numberOf_hexText, Nat.mod_mod_of_dvd _ hdvd]

/-- **Ids of one length are the same only if their numbers have the same remainder.** -/
theorem hexText_inj {len m n : Nat} (h : hexText len m = hexText len n) :
    m % Nat.pow 16 len = n % Nat.pow 16 len := by
  rw [← numberOf_hexText, ← numberOf_hexText, h]

/-- Different numbers less than `p` apart leave different remainders. -/
theorem mod_ne_mod {p m n : Nat} (hlt : m < n) (hn : n < m + p) : m % p ≠ n % p := by
  intro h
  have hmod : (n - m) % p = 0 := Nat.sub_mod_eq_zero_of_mod_eq h.symm
  rw [Nat.mod_eq_of_lt (by omega)] at hmod
  omega

/-- Ids of numbers less than `16 ^ len` apart are different. -/
theorem hexText_ne {len m n : Nat} (hlt : m < n) (hn : n < m + Nat.pow 16 len) :
    hexText len m ≠ hexText len n :=
  fun h => mod_ne_mod hlt hn (hexText_inj h)

/-! ## Ids of events -/

/-- The id of an event, made from a number. -/
def uuidText (n : Nat) : String :=
  let ds := (hexText 32 n).toList
  let part (first len : Nat) := (ds.drop first).take len
  .ofList (part 0 8 ++ ['-'] ++ part 8 4 ++ ['-'] ++ part 12 4 ++ ['-'] ++ part 16 4 ++
    ['-'] ++ part 20 12)

theorem uuid_eq_iff {u v : Supply} {id : String} : uuid u = (id, v) ↔
    id = uuidText (u.drawn + 1) ∧ v = { u with drawn := u.drawn + 1 } := by
  show (uuidText (u.drawn + 1), { u with drawn := u.drawn + 1 }) = (id, v) ↔ _
  rw [Prod.mk.injEq]
  exact and_congr eq_comm eq_comm

theorem ne_dash_of_mem_hexText {len n : Nat} {c : Char} (h : c ∈ (hexText len n).toList) :
    c ≠ '-' := by
  obtain ⟨d, hd, rfl⟩ := digit_of_mem_hexText h
  have hdigit : ∀ d < 16, d.digitChar ≠ '-' := by decide
  exact hdigit d hd

/-- Without its dashes an id is the digits of its number. -/
theorem filter_uuidText (n : Nat) :
    (uuidText n).toList.filter (· ≠ '-') = (hexText 32 n).toList := by
  have hlength : (hexText 32 n).toList.length = 32 := length_hexText 32 n
  have hdash : ∀ c ∈ (hexText 32 n).toList, c ≠ '-' := fun c hc => ne_dash_of_mem_hexText hc
  unfold uuidText
  generalize (hexText 32 n).toList = ds at hlength hdash
  have hpart : ∀ first len : Nat, ((ds.drop first).take len).filter (· ≠ '-') =
      (ds.drop first).take len := by
    intro first len
    refine List.filter_eq_self.2 fun c hc => ?_
    simpa using hdash c (List.mem_of_mem_drop (List.mem_of_mem_take hc))
  have hjoin : ∀ first len : Nat, (ds.drop first).take len ++ ds.drop (first + len) =
      ds.drop first := by
    intro first len
    rw [← List.drop_drop, List.take_append_drop]
  have hlast : (ds.drop 20).take 12 = ds.drop 20 := List.take_of_length_le (by simp [hlength])
  have hsingle : ['-'].filter (fun c => decide (c ≠ '-')) = [] := by decide
  simp only [String.toList_ofList, List.filter_append, hpart, hsingle, List.append_assoc,
    List.nil_append]
  rw [hlast, hjoin 16 4, hjoin 12 4, hjoin 8 4, hjoin 0 8, List.drop_zero]

/-- Ids of numbers less than `16 ^ 32` apart are different. -/
theorem uuidText_ne {m n : Nat} (hlt : m < n) (hn : n < m + Nat.pow 16 32) :
    uuidText m ≠ uuidText n := by
  intro h
  refine hexText_ne hlt hn (String.toList_injective ?_)
  rw [← filter_uuidText m, ← filter_uuidText n, h]

end DockerSim.Supply

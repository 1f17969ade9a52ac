import DockerSim.Json.Printer
import DockerSim.Json.Reader
import DockerSim.Proofs.Digits

/-!
# Printed scalars are read back

A whole number that fits in 64 bits and a text are read back from what is printed for them, whatever
follows. A number must be followed by something that does not belong to it; in a printed value that
is a comma, the end of a line, or the end of the text.
-/

namespace DockerSim.Json

open Chars

/-- The rest of a text does not go on with a number. -/
def Ends (rest : List Char) : Prop := ∀ c, rest.head? = some c → c = ',' ∨ c = '\n'

theorem ends_nil : Ends [] := by
  intro c h
  cases h

theorem ends_cons {c : Char} {rest : List Char} (h : c = ',' ∨ c = '\n') : Ends (c :: rest) := by
  intro d hd
  cases hd
  exact h

/-! ## Numbers -/

/-- A row of digits whose number fits in 64 bits is taken as a whole. -/
theorem takeDigits_eq : ∀ {ds : List Char} {n count : Nat},
    digitsValue n ds < UInt64.size → takeDigits n count ds = (digitsValue n ds, count + ds.length)
  | [], n, count, _ => rfl
  | d :: ds, n, count, h => by
    have hle : ∀ (ds : List Char) (m : Nat), m ≤ digitsValue m ds := by
      intro ds
      induction ds with
      | nil => exact fun m => Nat.le_refl m
      | cons e ds ih =>
        intro m
        exact Nat.le_trans (by omega) (ih (10 * m + digitValue e))
    have hlt : 10 * n + digitValue d < UInt64.size := Nat.lt_of_le_of_lt (hle ds _) h
    have hrest : digitsValue (10 * n + digitValue d) ds < UInt64.size := h
    unfold takeDigits
    dsimp only
    rw [if_pos hlt, takeDigits_eq hrest, List.length_cons, Nat.add_assoc, Nat.add_comm 1]
    rfl

theorem takeWhile_digits {ds rest : List Char} (hds : ∀ c ∈ ds, isDigit c = true)
    (hr : Ends rest) : (ds ++ rest).takeWhile isDigit = ds := by
  rw [List.takeWhile_append_of_pos hds]
  cases rest with
  | nil => simp
  | cons c rest =>
    have hc : isDigit c = false := by
      rcases hr c rfl with rfl | rfl <;> decide
    rw [List.takeWhile_cons, hc]
    simp

theorem readDigits_append {ds rest : List Char} (hne : ds ≠ [])
    (hds : ∀ c ∈ ds, isDigit c = true) (hr : Ends rest) :
    readDigits (ds ++ rest) = some (ds, rest) := by
  unfold readDigits
  dsimp only
  rw [takeWhile_digits hds hr, List.isEmpty_eq_false_iff.2 hne, List.drop_left]
  rfl

theorem readFraction_ends {rest : List Char} (hr : Ends rest) :
    readFraction rest = some ([], rest) := by
  unfold readFraction
  split
  · next rest' =>
    rcases hr _ rfl with h | h <;> cases h
  · rfl

theorem readExponent_ends {rest : List Char} (hr : Ends rest) :
    readExponent rest = some (none, rest) := by
  unfold readExponent
  dsimp only
  split
  · rcases hr _ rfl with h | h <;> cases h
  · rcases hr _ rfl with h | h <;> cases h
  · rfl

/-- A number that fits in 64 bits with its sign. -/
def FitsNumber (n : Int) : Prop := -9223372036854775808 ≤ n ∧ n < 18446744073709551616

/-- The digits of a number that fits in 64 bits denote it exactly. -/
theorem ofDigits_digits {n : Nat} {negative : Bool} (hn : n < UInt64.size)
    (hneg : negative = true → 0 < n ∧ n ≤ Nat.pow 2 63) :
    ofDigits negative (digits 10 n) [] none = .int (if negative then -n else n) := by
  have htake : takeDigits 0 0 (digits 10 n) = (n, (digits 10 n).length) := by
    rw [takeDigits_eq] <;> rw [digitsValue_digits]
    · rw [Nat.zero_add]
    · exact hn
  unfold ofDigits
  rw [htake]
  cases negative with
  | false => simp [takeDigits]
  | true =>
    obtain ⟨hpos, hle⟩ := hneg rfl
    simp [takeDigits, hpos, hle]

theorem readMagnitude_digits {n : Nat} {negative : Bool} {rest : List Char}
    (hn : n < UInt64.size) (hneg : negative = true → 0 < n ∧ n ≤ Nat.pow 2 63) (hr : Ends rest) :
    readMagnitude negative (digits 10 n ++ rest) =
      some (.int (if negative then -n else n), rest) := by
  have hhead : (decide ((digits 10 n).head? = some '0') &&
      decide ((digits 10 n).length ≠ 1)) = false := by
    by_cases hz : n = 0
    · subst hz
      decide
    · simp [digits_head_ne_zero hz]
  unfold readMagnitude
  rw [readDigits_append (digits_ne_nil n) (fun _ => isDigit_of_mem_digits) hr]
  simp only [Option.bind_eq_bind, Option.bind_some, hhead]
  rw [if_neg (by decide), readFraction_ends hr, Option.bind_some, readExponent_ends hr,
    Option.bind_some, ofDigits_digits hn hneg]

theorem readScalar_digit {c : Char} {cs : List Char} (h : isDigit c = true) :
    readScalar (c :: cs) = readMagnitude false (c :: cs) := by
  unfold readScalar
  split
  case h_6 => rfl
  all_goals
    rename_i he
    cases he
    exact absurd h (by decide)

theorem readScalar_int {n : Int} {rest : List Char} (hn : FitsNumber n) (hr : Ends rest) :
    readScalar (intText n ++ rest) = some (.int n, rest) := by
  obtain ⟨hlow, hhigh⟩ := hn
  unfold intText
  by_cases hneg : n < 0
  · rw [if_pos hneg]
    show readMagnitude true (digits 10 n.natAbs ++ rest) = _
    rw [readMagnitude_digits ?_ ?_ hr]
    · rw [if_pos rfl]
      congr 3
      omega
    · show n.natAbs < 18446744073709551616
      omega
    · intro _
      show 0 < n.natAbs ∧ n.natAbs ≤ 9223372036854775808
      omega
  · rw [if_neg hneg, List.nil_append]
    cases hd : digits 10 n.natAbs with
    | nil => exact absurd hd (digits_ne_nil _)
    | cons d ds =>
      have hdig : isDigit d = true := isDigit_of_mem_digits (n := n.natAbs) (by rw [hd]; simp)
      have hlt : n.natAbs < UInt64.size := by
        show n.natAbs < 18446744073709551616
        omega
      have hread := readMagnitude_digits hlt (fun h : false = true => absurd h (by decide)) hr
      rw [List.cons_append, readScalar_digit hdig, ← List.cons_append, ← hd, hread,
        if_neg (by decide)]
      congr 3
      omega

/-! ## Texts -/

/-- The four digits of a control character. -/
theorem hex4?_control : ∀ n < 32,
    zeroPad 4 (digits 16 n) = ['0', '0', (n / 16).digitChar, (n % 16).digitChar] ∧
      hex4? '0' '0' (n / 16).digitChar (n % 16).digitChar = some n := by decide

theorem readString_short {c e : Char} (done rest : List Char) (hc : c ≠ 'u')
    (h : shortEscape? c = some e) :
    readString done ('\\' :: c :: rest) = readString (e :: done) rest := by
  rw [readString]
  · simp only [h]
  · intro _ _ _ _ _ hu
    exact absurd hu hc

theorem readString_control {c : Char} (done rest : List Char) (h : c.toNat < 32) :
    readString done (['\\', 'u'] ++ zeroPad 4 (digits 16 c.toNat) ++ rest) =
      readString (c :: done) rest := by
  obtain ⟨hpad, hhex⟩ := hex4?_control c.toNat h
  rw [hpad]
  simp only [List.cons_append, List.nil_append]
  rw [readString]
  simp only [hhex, Char.ofNat_toNat]
  rw [if_neg (by simp; omega), if_neg (by simp; omega)]

theorem readString_plain {c : Char} (done rest : List Char) (hq : c ≠ '"') (hb : c ≠ '\\')
    (h : ¬c.toNat < 32) : readString done (c :: rest) = readString (c :: done) rest := by
  rw [readString]
  · rw [if_neg h]
  · exact fun he => absurd he hq
  · exact fun _ _ _ _ _ he => absurd he hb
  · exact fun _ _ he => absurd he hb

/-- The escape of a character is read as the character. -/
theorem readString_escapedChar (done : List Char) (c : Char) (rest : List Char) :
    readString done (escapedChar c ++ rest) = readString (c :: done) rest := by
  unfold escapedChar
  simp only [Bool.or_eq_true, beq_iff_eq]
  split
  · next h => rcases h with rfl | rfl <;> exact readString_short done rest (by decide) rfl
  · next hq =>
    rw [not_or] at hq
    split
    · next h =>
      subst h
      exact readString_short done rest (by decide) rfl
    split
    · next h =>
      subst h
      exact readString_short done rest (by decide) rfl
    split
    · next h =>
      subst h
      exact readString_short done rest (by decide) rfl
    split
    · next h =>
      subst h
      exact readString_short done rest (by decide) rfl
    split
    · next h =>
      subst h
      exact readString_short done rest (by decide) rfl
    split
    · next h => exact readString_control done rest h
    · next h => exact readString_plain done rest hq.1 hq.2 h

theorem readString_escaped {rest : List Char} : ∀ (cs done : List Char),
    readString done (cs.flatMap escapedChar ++ '"' :: rest) =
      some (some (.ofList (done.reverse ++ cs)), rest)
  | [], done => by
    rw [List.append_nil]
    rfl
  | c :: cs, done => by
    rw [List.flatMap_cons, List.append_assoc, readString_escapedChar, readString_escaped cs]
    simp

/-- A printed text is read back, behind its opening quote. -/
theorem readString_stringText (s : String) (rest : List Char) :
    readString [] (s.toList.flatMap escapedChar ++ '"' :: rest) = some (some s, rest) := by
  rw [readString_escaped]
  simp

end DockerSim.Json

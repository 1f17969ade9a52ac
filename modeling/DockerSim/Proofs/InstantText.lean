import DockerSim.Instant.Reader
import DockerSim.Proofs.Blanks
import DockerSim.Proofs.Calendar
import DockerSim.Proofs.Digits

/-!
# The text of an instant

An instant is proper when it lies in the calendar and is either a fraction of a second or one of a
leap second, which follows the last second of a minute. The text of a proper instant is read back as
the instant: each field is read up to the mark behind it, and the fields give the day and the second
of the day again.
-/

namespace DockerSim.Chars

/-- A row of digits that denotes a number. -/
structure Row (n : Nat) (ds : List Char) : Prop where
  nonempty : ds ≠ []
  digits : ∀ c ∈ ds, isDigit c = true
  value : digitsValue 0 ds = n

theorem row_zeroPad (width n : Nat) : Row n (zeroPad width (digits 10 n)) where
  nonempty := by
    unfold zeroPad
    intro h
    exact digits_ne_nil n (List.append_eq_nil_iff.1 h).2
  digits := by
    intro c hc
    rcases List.mem_append.1 hc with hc | hc
    · rw [List.eq_of_mem_replicate hc]
      decide
    · exact isDigit_of_mem_digits hc
  value := by rw [digitsValue_eq, numberOf_zeroPad rfl, ← digitsValue_eq, digitsValue_digits]

theorem length_zeroPad {width n : Nat} (hw : 0 < width) (hn : n < Nat.pow 10 width) :
    (zeroPad width (digits 10 n)).length = width := by
  have hlen : (digits 10 n).length ≤ width := (Nat.length_toDigits_le_iff (by decide) hw).2 hn
  unfold zeroPad
  rw [List.length_append, List.length_replicate]
  omega

variable {n width : Nat} {c : Char} {ds cs : List Char}

theorem Row.head (h : Row n ds) : ∃ d rest, ds = d :: rest ∧ isDigit d = true := by
  cases ds with
  | nil => exact absurd rfl h.nonempty
  | cons d rest => exact ⟨d, rest, rfl, h.digits d List.mem_cons_self⟩

theorem Row.head?_any (h : Row n ds) (cs : List Char) : (ds ++ cs).head?.any isDigit = true := by
  obtain ⟨d, rest, rfl, hd⟩ := h.head
  exact hd

theorem Row.takeWhile (h : Row n ds) (hlen : ds.length ≤ width) (hc : isDigit c = false) :
    ((ds ++ c :: cs).take width).takeWhile isDigit = ds := by
  rw [List.take_append, List.take_of_length_le hlen, List.takeWhile_append_of_pos h.digits]
  cases width - ds.length with
  | zero => simp
  | succ k => rw [List.take_succ_cons, List.takeWhile_cons, hc]; simp

theorem isBlank_of_isDigit (h : isDigit c = true) : isBlank c = false := by
  unfold isDigit at h
  simp only [Bool.and_eq_true, decide_eq_true_eq] at h
  obtain ⟨hlow, hhigh⟩ := h
  have h1 : 48 ≤ c.toNat := hlow
  have h2 : c.toNat ≤ 57 := hhigh
  unfold isBlank
  simp only [Bool.or_eq_false_iff, Bool.and_eq_false_iff, decide_eq_false_iff_not,
    beq_eq_false_iff_ne]
  omega

theorem Row.trimStart (h : Row n ds) (cs : List Char) : Chars.trimStart (ds ++ cs) = ds ++ cs := by
  obtain ⟨d, rest, rfl, hd⟩ := h.head
  exact trimStart_cons (isBlank_of_isDigit hd)

end DockerSim.Chars

namespace DockerSim.Instant

open Chars

variable {n width : Nat} {c : Char} {ds cs : List Char}

/-! ## Fields -/

theorem readField_row (h : Row n ds) (hlen : ds.length ≤ width) (hc : isDigit c = false) :
    readField width (ds ++ c :: cs) = some (n, c :: cs) := by
  unfold readField
  simp only [h.trimStart, h.takeWhile hlen hc, List.isEmpty_eq_false_iff.2 h.nonempty, h.value,
    List.drop_left]
  rfl

theorem readMark_cons (h : isBlank c = false) : readMark c (c :: cs) = some cs := by
  unfold readMark
  rw [trimStart_cons h]
  simp

theorem readField_twoDigits (hn : n < 100) (hc : isDigit c = false) :
    readField 2 (twoDigits n ++ c :: cs) = some (n, c :: cs) := by
  have hlen : (twoDigits n).length = 2 := length_zeroPad (by decide) hn
  exact readField_row (row_zeroPad 2 n) (by omega) hc

/-- Digits behind a sign are read whatever their number is. -/
theorem readField_all (h : Row n ds) (hc : isDigit c = false) :
    readField (ds ++ c :: cs).length (ds ++ c :: cs) = some (n, c :: cs) := by
  refine readField_row h ?_ hc
  rw [List.length_append]
  omega

theorem readYear_minus (h : Row n ds) (hc : isDigit c = false) :
    readYear ('-' :: (ds ++ c :: cs)) = some (-(n : Int), c :: cs) := by
  unfold readYear
  rw [trimStart_cons (by decide)]
  simp only [h.head?_any, readField_all h hc, if_true, Option.map_some]

theorem readYear_plus (h : Row n ds) (hc : isDigit c = false) :
    readYear ('+' :: (ds ++ c :: cs)) = some ((n : Int), c :: cs) := by
  unfold readYear
  rw [trimStart_cons (by decide)]
  simp only [h.head?_any, readField_all h hc, if_true, Option.map_some]

theorem readYear_digits (h : Row n ds) (hlen : ds.length ≤ 4) (hc : isDigit c = false) :
    readYear (ds ++ c :: cs) = some ((n : Int), c :: cs) := by
  have hfield : readField 4 (ds ++ c :: cs) = _ := readField_row h hlen hc
  obtain ⟨d, rest, hd, hdigit⟩ := h.head
  have hne : ∀ {sign : Char} {rest' : List Char}, isDigit sign = false →
      ds ++ c :: cs ≠ sign :: rest' := by
    intro sign rest' hsign he
    rw [hd] at he
    rw [(List.cons.inj he).1, hsign] at hdigit
    cases hdigit
  unfold readYear
  rw [h.trimStart]
  split
  · next he => exact absurd he (hne (by decide))
  · next he => exact absurd he (hne (by decide))
  · rw [hfield, Option.map_some]

theorem readYear_yearText (year : Int) (hc : isDigit c = false) :
    readYear (yearText year ++ c :: cs) = some (year, c :: cs) := by
  have hrow := row_zeroPad 4 year.natAbs
  unfold yearText
  dsimp only
  by_cases hneg : year < 0
  · rw [if_pos hneg, List.cons_append, readYear_minus hrow hc, Option.some.injEq, Prod.mk.injEq]
    exact ⟨by omega, rfl⟩
  rw [if_neg hneg]
  have habs : (year.natAbs : Int) = year := by omega
  by_cases hbig : 9999 < year
  · rw [if_pos hbig, List.cons_append, readYear_plus hrow hc, habs]
  · have hlen : (zeroPad 4 (digits 10 year.natAbs)).length = 4 := by
      refine length_zeroPad (by decide) ?_
      show year.natAbs < 10000
      omega
    rw [if_neg hbig, readYear_digits hrow (Nat.le_of_eq hlen) hc, habs]

/-! ## The fraction of a second -/

/-- The first digits of nine denote the number when the others are zeros. -/
theorem row_take {k : Nat} (h : Row n ds) (hk : 0 < k) (hlen : ds.length = 9)
    (hz : n % Nat.pow 10 (9 - k) = 0) : Row (n / Nat.pow 10 (9 - k)) (ds.take k) where
  nonempty := by
    intro hnil
    rcases List.take_eq_nil_iff.1 hnil with h0 | h0
    · omega
    · exact h.nonempty h0
  digits := fun c hc => h.digits c (List.mem_of_mem_take hc)
  value := by
    have hvalue : ∀ c ∈ ds, digitValue c < 10 := by
      intro c hc
      have hdigit := h.digits c hc
      unfold isDigit at hdigit
      simp only [Bool.and_eq_true, decide_eq_true_eq] at hdigit
      have hhigh : c.toNat ≤ 57 := hdigit.2
      unfold digitValue
      have h0 : '0'.toNat = 48 := rfl
      omega
    have hdrop : numberOf 10 digitValue (ds.drop k) = _ := numberOf_drop hvalue k
    have happ : numberOf 10 digitValue (ds.take k ++ ds.drop k) = _ := numberOf_append _ _
    rw [List.take_append_drop, ← digitsValue_eq ds, h.value] at happ
    rw [← digitsValue_eq ds, h.value, List.length_drop, hlen, hz] at hdrop
    rw [hdrop, List.length_drop, hlen, Nat.add_zero, ← digitsValue_eq] at happ
    have hpos : 0 < Nat.pow 10 (9 - k) := Nat.pow_pos (by decide)
    rw [happ]
    exact (Nat.mul_div_cancel _ hpos).symm

theorem readFraction_row {k : Nat} (h : Row n ds) (hk : 0 < k) (hlen : ds.length = 9)
    (hz : n % Nat.pow 10 (9 - k) = 0) (hle : k ≤ 9) (hc : isDigit c = false) :
    readFraction ('.' :: (ds.take k ++ c :: cs)) = some (n, c :: cs) := by
  have hrow := row_take h hk hlen hz
  have hlength : (ds.take k).length = k := by
    rw [List.length_take, hlen]
    omega
  unfold readFraction
  simp only [hrow.takeWhile (Nat.le_trans (Nat.le_of_eq hlength) hle) hc, hrow.value, hlength]
  rw [List.isEmpty_eq_false_iff.2 hrow.nonempty, if_neg (by decide),
    Nat.div_mul_cancel (Nat.dvd_of_mod_eq_zero hz), List.drop_left' hlength, List.dropWhile_cons,
    hc]
  rfl

theorem readFraction_fractionText (hn : n < 1000000000) (hc : isDigit c = false) (hp : c ≠ '.') :
    readFraction (fractionText n ++ c :: cs) = some (n, c :: cs) := by
  have hrow := row_zeroPad 9 n
  have hlen : (zeroPad 9 (digits 10 n)).length = 9 := length_zeroPad (by decide) hn
  unfold fractionText
  split
  · next hz =>
    unfold readFraction
    split
    · next he => exact absurd (List.cons.inj he).1 hp
    · rw [hz]
      rfl
  · dsimp only
    split
    · next hz => exact readFraction_row hrow (by decide) hlen hz (by decide) hc
    · split
      · next hz => exact readFraction_row hrow (by decide) hlen hz (by decide) hc
      · have hall : readFraction ('.' :: ((zeroPad 9 (digits 10 n)).take 9 ++ c :: cs)) = _ :=
          readFraction_row hrow (by decide) hlen (Nat.mod_one n) (by decide) hc
        rwa [List.take_of_length_le (by omega)] at hall

/-! ## The instant -/

/-- The instant lies in the calendar, and a second or a leap second holds it. -/
structure Proper (t : Instant) : Prop where
  inCalendar : inRange t.date.year = true
  fraction : t.nanos < 1000000000 ∨ t.nanos < 2000000000 ∧ t.secondOfDay % 60 = 59

theorem secondOfDay_lt (t : Instant) : t.secondOfDay < 86400 := by
  unfold secondOfDay secondsPerDay
  omega

/-- The day and the second of the day make the instant. -/
theorem seconds_eq (t : Instant) :
    t.date.toDays * secondsPerDay + (t.secondOfDay : Int) = t.seconds := by
  unfold date secondOfDay
  rw [CivilDate.toDays_ofDays]
  unfold secondsPerDay
  omega

/-- The fields of a date have two digits at most. -/
theorem date_small (t : Instant) : t.date.month < 100 ∧ t.date.day < 100 := by
  have hreal := CivilDate.isReal_ofDays (t.seconds / secondsPerDay)
  unfold CivilDate.isReal daysInMonth at hreal
  simp only [Bool.and_eq_true, decide_eq_true_eq] at hreal
  obtain ⟨⟨⟨-, hmonth⟩, -⟩, hday⟩ := hreal
  unfold date
  refine ⟨by omega, Nat.lt_of_le_of_lt hday ?_⟩
  split
  · split <;> decide
  · split <;> decide

theorem readDate_dateText (t : Instant) (hc : isDigit c = false) :
    readDate (t.dateText ++ c :: cs) = some (t.date, c :: cs) := by
  obtain ⟨hmonth, hday⟩ := t.date_small
  unfold dateText readDate
  simp only [List.append_assoc, List.cons_append, List.nil_append]
  rw [readYear_yearText _ (by decide)]
  simp only [Option.bind_eq_bind, Option.bind_some, readMark_cons (by decide : isBlank '-' = false)]
  rw [readField_twoDigits hmonth (by decide)]
  simp only [Option.bind_some, readMark_cons (by decide : isBlank '-' = false)]
  rw [readField_twoDigits hday hc]
  rfl

/-- The time of the day as it is written. -/
def clockTime (t : Instant) : ClockTime where
  hour := t.hour
  minute := t.minute
  second := t.second
  nanos := t.nanos % 1000000000

/-- The second that is written stands for a second and the nanoseconds of its kind. -/
theorem second_spec {t : Instant} (h : t.Proper) : t.second < 61 ∧
    (if t.second = 60 then (59, t.nanos % 1000000000 + 1000000000)
      else (t.second, t.nanos % 1000000000)) = (t.secondOfDay % 60, t.nanos) := by
  unfold second
  rcases h.fraction with hn | ⟨hn, hlast⟩
  · rw [Nat.div_eq_of_lt hn, Nat.mod_eq_of_lt hn, Nat.add_zero, if_neg (by omega)]
    exact ⟨by omega, rfl⟩
  · by_cases hlow : t.nanos < 1000000000
    · rw [Nat.div_eq_of_lt hlow, Nat.mod_eq_of_lt hlow, Nat.add_zero, if_neg (by omega)]
      exact ⟨by omega, rfl⟩
    · have hdiv : t.nanos / 1000000000 = 1 := by omega
      have hmod : t.nanos % 1000000000 + 1000000000 = t.nanos := by omega
      rw [hdiv, hlast, hmod, if_pos rfl]
      exact ⟨by decide, rfl⟩

/-- A fraction, or the mark behind it, does not go on with the digits of a second. -/
theorem fractionText_head (n : Nat) (hc : isDigit c = false) :
    ∃ d rest, fractionText n ++ c :: cs = d :: rest ∧ isDigit d = false := by
  unfold fractionText
  dsimp only
  split
  · exact ⟨c, cs, rfl, hc⟩
  · split
    · exact ⟨'.', _, rfl, by decide⟩
    · split
      · exact ⟨'.', _, rfl, by decide⟩
      · exact ⟨'.', _, rfl, by decide⟩

theorem readClock_timeText {t : Instant} (h : t.Proper) (hc : isDigit c = false) (hp : c ≠ '.') :
    readClock (t.timeText ++ (fractionText (t.nanos % 1000000000) ++ c :: cs)) =
      some (t.clockTime, c :: cs) := by
  have hlt := t.secondOfDay_lt
  have hhour : t.hour < 100 := by
    unfold hour
    omega
  have hminute : t.minute < 100 := by
    unfold minute
    omega
  have hsecond : t.second < 100 := Nat.lt_trans (second_spec h).1 (by decide)
  obtain ⟨d, rest, hd, hdigit⟩ := fractionText_head (c := c) (t.nanos % 1000000000) hc
  unfold timeText clockText readClock
  simp only [List.append_assoc, List.cons_append, List.nil_append]
  rw [readField_twoDigits hhour (by decide)]
  simp only [Option.bind_eq_bind, Option.bind_some, readMark_cons (by decide : isBlank ':' = false)]
  rw [readField_twoDigits hminute (by decide)]
  simp only [Option.bind_some, readMark_cons (by decide : isBlank ':' = false)]
  rw [hd, readField_twoDigits hsecond hdigit, Option.bind_some, ← hd,
    readFraction_fractionText (Nat.mod_lt _ (by decide)) hc hp]
  rfl

theorem isReal_clockTime {t : Instant} (h : t.Proper) : t.clockTime.isReal = true := by
  have hlt := t.secondOfDay_lt
  have hsecond := (second_spec h).1
  unfold clockTime ClockTime.isReal hour minute
  simp only [Bool.and_eq_true, decide_eq_true_eq]
  omega

theorem ofWall?_clockTime {t : Instant} (h : t.Proper) :
    ofWall? t.date t.clockTime 0 = some t := by
  have hreal : t.date.isReal = true := CivilDate.isReal_ofDays _
  have hwall : t.date.toDays * secondsPerDay +
      (t.hour * 3600 + t.minute * 60 + t.secondOfDay % 60 : Nat) - 0 = t.seconds := by
    have hseconds := t.seconds_eq
    unfold hour minute
    omega
  unfold ofWall?
  rw [hreal, h.inCalendar, isReal_clockTime h, Bool.and_self, Bool.and_self, if_pos rfl]
  unfold clockTime
  rw [(second_spec h).2]
  dsimp only
  rw [hwall]
  exact if_pos h.inCalendar

theorem readChars?_text {t : Instant} (h : t.Proper) : readChars? t.text.toList = some t := by
  unfold text readChars?
  simp only [String.toList_ofList, List.append_assoc, List.cons_append, List.nil_append]
  rw [readDate_dateText t (by decide)]
  simp only [Option.bind_eq_bind, Option.bind_some, readSeparator]
  rw [readClock_timeText h (by decide) (by decide)]
  exact ofWall?_clockTime h

theorem ofText?_text {t : Instant} (h : t.Proper) : ofText? t.text = some t :=
  readChars?_text h

end DockerSim.Instant

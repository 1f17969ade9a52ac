import DockerSim.Instant.Calendar
import Mathlib.Tactic.IntervalCases

/-!
# Days and dates

The date of a day occurs in the calendar, it is turned back into the day, and later days have no
earlier years. A cycle of 400 years is cut into four centuries, a century into 25 spans of four
years and a span into its years. Only the last year of a span has a leap day, and of the centuries
only the last has one in every span.
-/

namespace DockerSim.CivilDate

/-- Day `d` of a cycle is day `r` of year `100 * c + 4 * l + y`, which begins in March. -/
structure Place (d c l y r : Int) : Prop where
  eq : d = 36524 * c + 1461 * l + 365 * y + r
  century : 0 ≤ c ∧ c ≤ 3
  leap : 0 ≤ l ∧ l ≤ 24
  year : 0 ≤ y ∧ y ≤ 3
  day : 0 ≤ r ∧ r ≤ 365
  last : r = 365 → y = 3 ∧ (l < 24 ∨ c = 3)

theorem exists_place {d : Int} (h0 : 0 ≤ d) (h1 : d < 146097) : ∃ c l y r, Place d c l y r := by
  have hc : ∃ c n, d = 36524 * c + n ∧ 0 ≤ c ∧ c ≤ 3 ∧ 0 ≤ n ∧ n ≤ 36524 ∧
      (n = 36524 → c = 3) := by
    by_cases h : d = 146096
    · exact ⟨3, 36524, by omega⟩
    · exact ⟨d / 36524, d % 36524, by omega⟩
  obtain ⟨c, n, hd, hc0, hc3, hn0, hn1, hn⟩ := hc
  have hy : ∃ y r, n % 1461 = 365 * y + r ∧ 0 ≤ y ∧ y ≤ 3 ∧ 0 ≤ r ∧ r ≤ 365 ∧
      (r = 365 → y = 3) := by
    by_cases h : n % 1461 = 1460
    · exact ⟨3, 365, by omega⟩
    · exact ⟨n % 1461 / 365, n % 1461 % 365, by omega⟩
  obtain ⟨y, r, hy, hy0, hy3, hr0, hr1, hr⟩ := hy
  exact ⟨c, n / 1461, y, r, by omega, by omega, by omega, by omega, by omega, by omega⟩

/-- Every day has its place in its cycle. -/
theorem exists_place_days (days : Int) :
    ∃ c l y r, Place ((days + 719468) % 146097) c l y r :=
  exists_place (by omega) (by omega)

variable {d c l y r : Int}

theorem Place.yearOfCycle (h : Place d c l y r) :
    (d - d / 1460 + d / 36524 - d / 146096) / 365 = 100 * c + 4 * l + y := by
  obtain ⟨hd, hc, hl, hy, hr, hlast⟩ := h
  have h1 : d / 1460 = 25 * c + l + (24 * c + l + 365 * y + r) / 1460 := by omega
  have h2 : d / 36524 - d / 146096 = c := by
    by_cases hend : d = 146096
    · omega
    · have hshort : 1461 * l + 365 * y + r < 36524 := by omega
      have h3 : d / 36524 = c := by omega
      omega
  omega

theorem Place.daysBefore (h : Place d c l y r) :
    365 * (100 * c + 4 * l + y) + (100 * c + 4 * l + y) / 4 - (100 * c + 4 * l + y) / 100 =
      d - r := by
  obtain ⟨hd, hc, hl, hy, hr, hlast⟩ := h
  omega

theorem Place.isLeapYear (h : Place d c l y r) (hr : r = 365) (cycle : Int) :
    isLeapYear (100 * c + 4 * l + y + 400 * cycle + 1) = true := by
  obtain ⟨hd, hc, hl, hy, hr, hlast⟩ := h
  unfold DockerSim.isLeapYear
  simp only [Bool.and_eq_true, Bool.or_eq_true, beq_iff_eq, bne_iff_ne]
  omega

/-- The date of a day of the year beginning in March. -/
def ofPlace (year dayOfYear : Int) : CivilDate :=
  let month := (5 * dayOfYear + 2) / 153
  { year := if month < 10 then year else year + 1
    month := (if month < 10 then month + 3 else month - 9).toNat
    day := (dayOfYear - (153 * month + 2) / 5 + 1).toNat }

theorem Place.ofDays {days : Int} (h : Place ((days + 719468) % 146097) c l y r) :
    ofDays days = ofPlace (100 * c + 4 * l + y + 400 * ((days + 719468) / 146097)) r := by
  unfold CivilDate.ofDays
  simp only [h.yearOfCycle, h.daysBefore, Int.sub_sub_self]
  rfl

theorem toDays_ofPlace (year : Int) (h : 0 ≤ r ∧ r ≤ 365) :
    (ofPlace year r).toDays =
      year / 400 * 146097 + year % 400 * 365 + year % 400 / 4 - year % 400 / 100 + r - 719468 := by
  have hm : 0 ≤ (5 * r + 2) / 153 ∧ (5 * r + 2) / 153 ≤ 11 := by omega
  have hday : 0 ≤ r - (153 * ((5 * r + 2) / 153) + 2) / 5 := by omega
  unfold ofPlace toDays
  generalize (5 * r + 2) / 153 = m at hm hday ⊢
  simp only
  split
  · next hlt =>
    rw [if_neg (by omega), if_neg (by omega)]
    omega
  · next hlt =>
    rw [if_pos (by omega), if_pos (by omega)]
    have : year + 1 - 1 = year := by omega
    rw [this]
    omega

/-- **The date of a day is turned back into the day.** -/
theorem toDays_ofDays (days : Int) : (ofDays days).toDays = days := by
  obtain ⟨c, l, y, r, h⟩ := exists_place_days days
  rw [h.ofDays, toDays_ofPlace _ h.day]
  have hbefore := h.daysBefore
  obtain ⟨-, hc, hl, hy, -, -⟩ := h
  have hdiv : (100 * c + 4 * l + y + 400 * ((days + 719468) / 146097)) / 400 =
      (days + 719468) / 146097 := by omega
  have hmod : (100 * c + 4 * l + y + 400 * ((days + 719468) / 146097)) % 400 =
      100 * c + 4 * l + y := by omega
  rw [hdiv, hmod]
  omega

/-- The months from March to January are as long as the formula for their first days tells. -/
theorem daysInMonth_fromMarch (year : Int) (k : Nat) (hk : k < 11) :
    daysInMonth year (if k < 10 then k + 3 else k - 9) =
      (153 * (k + 1) + 2) / 5 - (153 * k + 2) / 5 := by
  interval_cases k <;> rfl

theorem isReal_ofPlace (year : Int) (h : 0 ≤ r ∧ r ≤ 365)
    (hleap : r = 365 → DockerSim.isLeapYear (year + 1) = true) :
    (ofPlace year r).isReal = true := by
  obtain ⟨k, hk⟩ : ∃ k : Nat, (5 * r + 2) / 153 = k :=
    ⟨((5 * r + 2) / 153).toNat, by omega⟩
  have hmonth : (if (k : Int) < 10 then (k : Int) + 3 else (k : Int) - 9).toNat =
      if k < 10 then k + 3 else k - 9 := by
    split <;> split <;> omega
  have hdate : ofPlace year r =
      { year := if (k : Int) < 10 then year else year + 1
        month := if k < 10 then k + 3 else k - 9
        day := (r - (153 * k + 2) / 5 + 1).toNat } := by
    unfold ofPlace
    simp only [hk, hmonth]
  rw [hdate]
  unfold isReal
  simp only [Bool.and_eq_true, decide_eq_true_eq]
  have hlow : 1 ≤ (if k < 10 then k + 3 else k - 9) ∧ (if k < 10 then k + 3 else k - 9) ≤ 12 := by
    split <;> omega
  refine ⟨⟨hlow, by omega⟩, ?_⟩
  by_cases hlt : k < 11
  · rw [daysInMonth_fromMarch _ k hlt]
    have hfirst : (153 * (k : Int) + 2) / 5 = ((153 * k + 2) / 5 : Nat) := by
      push_cast
      rfl
    rw [hfirst]
    omega
  · obtain rfl : k = 11 := by omega
    show _ ≤ if DockerSim.isLeapYear (year + 1) then 29 else 28
    by_cases hlast : r = 365
    · rw [hleap hlast, if_pos rfl]
      omega
    · split <;> omega

/-- **The date of a day occurs in the calendar.** -/
theorem isReal_ofDays (days : Int) : (ofDays days).isReal = true := by
  obtain ⟨c, l, y, r, h⟩ := exists_place_days days
  rw [h.ofDays]
  exact isReal_ofPlace _ h.day fun hr => h.isLeapYear hr _

/-! ## Order -/

/-- A year ends before a later one begins. -/
theorem Place.lt_first {d' c' l' y' r' k k' : Int} (h : Place d c l y r)
    (h' : Place d' c' l' y' r')
    (hlt : 100 * c' + 4 * l' + y' + 400 * k' < 100 * c + 4 * l + y + 400 * k) :
    146097 * k' + d' < 146097 * k + 36524 * c + 1461 * l + 365 * y := by
  obtain ⟨hd, hc, hl, hy, hr, hlast⟩ := h
  obtain ⟨hd', hc', hl', hy', hr', hlast'⟩ := h'
  by_cases hcycle : k' < k
  · omega
  obtain rfl : k' = k := by omega
  by_cases hcentury : c' < c
  · omega
  obtain rfl : c' = c := by omega
  by_cases hspan : l' < l
  · omega
  obtain rfl : l' = l := by omega
  omega

/-- **A later day is not in an earlier year.** -/
theorem year_mono {a b : Int} (h : a ≤ b) : (ofDays a).year ≤ (ofDays b).year := by
  obtain ⟨c, l, y, r, ha⟩ := exists_place_days a
  obtain ⟨c', l', y', r', hb⟩ := exists_place_days b
  have hle : 100 * c + 4 * l + y + 400 * ((a + 719468) / 146097) ≤
      100 * c' + 4 * l' + y' + 400 * ((b + 719468) / 146097) := by
    by_contra hlt
    have hfirst := Place.lt_first ha hb (Int.not_le.1 hlt)
    have hd := ha.eq
    have hr := ha.day
    omega
  rw [ha.ofDays, hb.ofDays]
  unfold ofPlace
  dsimp only
  by_cases heq : 100 * c + 4 * l + y + 400 * ((a + 719468) / 146097) =
      100 * c' + 4 * l' + y' + 400 * ((b + 719468) / 146097)
  · obtain ⟨hd, hc, hl, hy, hr, hlast⟩ := ha
    obtain ⟨hd', hc', hl', hy', hr', hlast'⟩ := hb
    have hcycle : (a + 719468) / 146097 = (b + 719468) / 146097 := by omega
    have hcentury : c = c' := by omega
    have hspan : l = l' := by omega
    have hday : r ≤ r' := by omega
    split <;> split <;> omega
  · split <;> split <;> omega

end DockerSim.CivilDate

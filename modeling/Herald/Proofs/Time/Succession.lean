import Herald.Proofs.Time.Calendar
import Mathlib.Algebra.Order.BigOperators.Group.List
import Mathlib.Tactic.IntervalCases

/-!
# From one day to the next

* `IsLeap`, `daysIn`, `Date.IsValid`: the rule of the calendar, which days it has;
* `Date.next`: the date after a date by this rule;
* `isValid_ofDay`, `ofDay_toDay`: the dates of the days are those of the rule, each the date of its
  day;
* `ofDay_succ`: the date of the next day is the next date;
* `weekday_succ`: the weekdays go round.
-/

namespace Herald.Time

/-- Every fourth year is a leap year, but of the full hundreds only every fourth. -/
def IsLeap (y : Int) : Prop := 4 ∣ y ∧ (100 ∣ y → 400 ∣ y)

instance : DecidablePred IsLeap :=
  fun y => inferInstanceAs (Decidable (4 ∣ y ∧ (100 ∣ y → 400 ∣ y)))

/-- How many days a month has. -/
def daysIn (y : Int) (m : Nat) : Nat :=
  if m = 2 then if IsLeap y then 29 else 28 else if m ∈ [4, 6, 9, 11] then 30 else 31

theorem isLeap_iff_isLeap (y : Int) : isLeap y = true ↔ IsLeap y := by
  rw [isLeap_iff, IsLeap]
  omega

theorem getElem?_monthLengths (y : Int) {j : Nat} (hj : j < 12) :
    (monthLengths y)[j]? = some (daysIn y (j + 1)) := by
  have hfebruary : (if isLeap y then 29 else 28) = if IsLeap y then 29 else 28 := by
    simp only [isLeap_iff_isLeap]
  rw [monthLengths, hfebruary]
  interval_cases j <;> rfl

/-- A day of a list of months is in the month that begins before it. -/
theorem locate_of_lt (m : Nat) {ls : List Nat} {j l k : Nat} (hl : ls[j]? = some l) (hk : k < l) :
    locate m ls ((ls.take j).sum + k) = (m + j, k + 1) := by
  induction ls generalizing m j with
  | nil => cases hl
  | cons x ls ih =>
    cases j with
    | zero =>
      cases hl
      simp [locate, hk]
    | succ j =>
      have hsum : ((x :: ls).take (j + 1)).sum + k = x + ((ls.take j).sum + k) := by
        rw [List.take_succ_cons, List.sum_cons, Nat.add_assoc]
      rw [hsum, locate, if_neg (by omega), Nat.add_sub_cancel_left, ih (m + 1) hl]
      rw [Nat.add_assoc, Nat.add_comm 1 j]

/-- A day belongs to one year only. -/
theorem yearOf_eq {n y : Int} (hle : yearStart y ≤ n) (hlt : n < yearStart (y + 1)) :
    yearOf n = y := by
  have hle' := yearStart_yearOf_le n
  have hlt' := lt_yearStart_yearOf n
  rcases lt_trichotomy (yearOf n) y with h | h | h
  · have := yearStart_mono (Int.add_one_le_of_lt h)
    omega
  · exact h
  · have := yearStart_mono (Int.add_one_le_of_lt h)
    omega

theorem weekday_lt (n : Int) : weekday n < 7 := by
  unfold weekday
  omega

/-- The weekdays go round. -/
theorem weekday_succ (n : Int) : weekday (n + 1) = (weekday n + 1) % 7 := by
  unfold weekday
  omega

namespace Date

/-- The calendar has the date. -/
structure IsValid (d : Date) : Prop where
  one_le_month : 1 ≤ d.month
  month_le : d.month ≤ 12
  one_le_day : 1 ≤ d.day
  day_le : d.day ≤ daysIn d.year d.month

/-- The date after a date: the next day of the month, or the first of the next month, or the first
of the next year. -/
def next (d : Date) : Date :=
  if d.day < daysIn d.year d.month then { d with day := d.day + 1 }
  else if d.month < 12 then ⟨d.year, d.month + 1, 1⟩
  else ⟨d.year + 1, 1, 1⟩

theorem daysIn_pos (y : Int) (m : Nat) : 0 < daysIn y m := by
  unfold daysIn
  split_ifs <;> decide

theorem isValid_next {d : Date} (hd : d.IsValid) : d.next.IsValid := by
  have hpos := daysIn_pos
  unfold next
  split_ifs with hday hmonth
  · exact ⟨hd.one_le_month, hd.month_le, Nat.succ_pos _, hday⟩
  · exact ⟨Nat.succ_pos _, hmonth, Nat.le_refl 1, hpos _ _⟩
  · exact ⟨Nat.le_refl 1, Nat.le_of_ble_eq_true rfl, Nat.le_refl 1, hpos _ _⟩

theorem isValid_ofDay (n : Int) : (ofDay n).IsValid := by
  obtain ⟨j, l, d, hdate, hl, hd, hdl, -⟩ := ofDay_spec n
  have hj : j < 12 := (List.getElem?_eq_some_iff.1 hl).1
  rw [getElem?_monthLengths _ hj] at hl
  cases hl
  rw [hdate]
  exact ⟨Nat.le_add_right 1 j, Nat.add_comm j 1 ▸ hj, hd, Nat.add_comm j 1 ▸ hdl⟩

/-- The months of a year before a month. -/
def daysBefore (y : Int) (m : Nat) : Nat := ((monthLengths y).take (m - 1)).sum

theorem toDay_eq (d : Date) :
    d.toDay = yearStart d.year + daysBefore d.year d.month + d.day - 1 := by
  rw [toDay, daysBefore, List.sum_eq_foldl]

theorem daysBefore_succ (y : Int) {m : Nat} (hpos : 1 ≤ m) (hle : m ≤ 12) :
    daysBefore y (m + 1) = daysBefore y m + daysIn y m := by
  obtain ⟨j, rfl⟩ := Nat.exists_eq_add_of_le' hpos
  obtain ⟨hj, hl⟩ := List.getElem?_eq_some_iff.1 (getElem?_monthLengths y (show j < 12 by omega))
  rw [daysBefore, daysBefore, Nat.add_sub_cancel, Nat.add_sub_cancel, List.sum_take_succ _ _ hj, hl]

theorem daysBefore_mono (y : Int) {m k : Nat} (h : m ≤ k) : daysBefore y m ≤ daysBefore y k :=
  List.monotone_sum_take (monthLengths y) (Nat.sub_le_sub_right h 1)

/-- The whole year is before the month after the last. -/
theorem yearStart_succ_eq (y : Int) : yearStart (y + 1) = yearStart y + daysBefore y 13 := by
  have hsum : daysBefore y 13 = if isLeap y then 366 else 365 := sum_monthLengths y
  rw [yearStart_succ, hsum]
  split_ifs <;> rfl

/-- A date lies in its year. -/
theorem toDay_bounds {d : Date} (hd : d.IsValid) :
    yearStart d.year ≤ d.toDay ∧ d.toDay < yearStart (d.year + 1) := by
  have hmonth := daysBefore_succ d.year hd.one_le_month hd.month_le
  have hyear : daysBefore d.year (d.month + 1) ≤ daysBefore d.year 13 :=
    daysBefore_mono d.year (Nat.succ_le_succ hd.month_le)
  have hpos := hd.one_le_day
  have hle := hd.day_le
  rw [toDay_eq, yearStart_succ_eq]
  omega

/-- **Dates and days agree**: the date of the day of a date is this date again. -/
theorem ofDay_toDay {d : Date} (hd : d.IsValid) : ofDay d.toDay = d := by
  obtain ⟨hle, hlt⟩ := toDay_bounds hd
  obtain ⟨y, m, k⟩ := d
  -- Dates count months and days from 1, the sums of the lengths count them from 0.
  obtain ⟨j, rfl⟩ := Nat.exists_eq_add_of_le hd.one_le_month
  obtain ⟨i, rfl⟩ := Nat.exists_eq_add_of_le hd.one_le_day
  have hj : j < 12 := by
    have := hd.month_le
    dsimp only at this
    omega
  have hi : i < daysIn y (j + 1) := by
    have := hd.day_le
    dsimp only at this
    rw [Nat.add_comm 1 j] at this
    omega
  have hday : (toDay ⟨y, 1 + j, 1 + i⟩ - yearStart y).toNat
      = ((monthLengths y).take j).sum + i := by
    rw [toDay_eq, daysBefore]
    dsimp only
    rw [Nat.add_sub_cancel_left]
    omega
  rw [ofDay, yearOf_eq hle hlt]
  dsimp only
  rw [hday, locate_of_lt 1 (getElem?_monthLengths y hj) hi, Nat.add_comm i 1]

theorem toDay_next {d : Date} (hd : d.IsValid) : d.next.toDay = d.toDay + 1 := by
  have hle := hd.day_le
  have hsucc := daysBefore_succ d.year hd.one_le_month hd.month_le
  unfold next
  split_ifs with hday hmonth
  · simp only [toDay_eq]
    omega
  · simp only [toDay_eq]
    omega
  -- The month after December is the thirteenth, and it begins with the next year.
  · have hlast : d.month = 12 := Nat.le_antisymm hd.month_le (Nat.not_lt.1 hmonth)
    have hfirst : daysBefore (d.year + 1) 1 = 0 := rfl
    rw [hlast] at hsucc hle hday
    change daysBefore d.year 13 = _ at hsucc
    simp only [toDay_eq, yearStart_succ_eq, hfirst, hlast]
    omega

/-- **The date of the next day is the next date.** -/
theorem ofDay_succ (n : Int) : ofDay (n + 1) = (ofDay n).next := by
  have hvalid := isValid_ofDay n
  rw [← ofDay_toDay (isValid_next hvalid), toDay_next hvalid, toDay_ofDay]

/-- There is a 29 February in the leap years alone. -/
theorem isValid_leapDay_iff (y : Int) : IsValid ⟨y, 2, 29⟩ ↔ IsLeap y := by
  constructor
  · intro hd
    by_contra hy
    have hle := hd.day_le
    simp [daysIn, hy] at hle
  · intro hy
    exact ⟨by simp, by simp, by simp, by simp [daysIn, hy]⟩

/-- The range has just the days of its years. -/
theorem inRange_iff (n : Int) :
    inRange n = true ↔ minYear ≤ (ofDay n).year ∧ (ofDay n).year ≤ maxYear := by
  have hle := yearStart_yearOf_le n
  have hlt := lt_yearStart_yearOf n
  have hyear : (ofDay n).year = yearOf n := rfl
  rw [hyear, inRange, Bool.and_eq_true, decide_eq_true_eq, decide_eq_true_eq, minDay, maxDay]
  constructor
  · rintro ⟨hmin, hmax⟩
    constructor
    · by_contra h
      have := yearStart_mono (Int.add_one_le_of_lt (Int.not_le.1 h))
      omega
    · by_contra h
      have := yearStart_mono (Int.add_one_le_of_lt (Int.not_le.1 h))
      omega
  · rintro ⟨hmin, hmax⟩
    have hfirst := yearStart_mono hmin
    have hlast := yearStart_mono (Int.add_le_add_right hmax 1)
    omega

end Date

end Herald.Time

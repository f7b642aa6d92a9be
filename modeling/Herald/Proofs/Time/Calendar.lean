import Herald.Time.Calendar
import Mathlib.Algebra.GroupWithZero.Nat
import Mathlib.Tactic.SplitIfs

/-!
# Days and dates

* `yearStart_succ`: how long a year is;
* `yearStart_yearOf_le`, `lt_yearStart_yearOf`: every day lies in the year it is said to belong to;
* `locate_spec`: the place of a day in a list of months;
* `Date.ofFields?_ofDay`: the date of a day exists, if its year lies in the range;
* `Date.toDay_ofDay`: the day of this date is the day it is the date of.
-/

namespace Herald.Time

/-! ### Years -/

theorem isLeap_iff (y : Int) :
    isLeap y = true ↔ y % 4 = 0 ∧ (y % 100 ≠ 0 ∨ y % 400 = 0) := by
  simp [isLeap]

theorem yearStart_succ (y : Int) :
    yearStart (y + 1) = yearStart y + if isLeap y then 366 else 365 := by
  have hleap := isLeap_iff y
  unfold yearStart
  split_ifs with h
  · have := hleap.1 h
    omega
  · have := mt hleap.2 h
    omega

theorem yearStart_mono {y z : Int} (h : y ≤ z) : yearStart y ≤ yearStart z := by
  unfold yearStart
  omega

/-- The mean length of a year, 146097 days in 400 years, gives the year of a day up to one. -/
theorem yearStart_guess {n y : Int} (h : y = (n + 719162) * 400 / 146097 + 1) :
    yearStart (y - 1) ≤ n ∧ n < yearStart (y + 1 + 1) := by
  unfold yearStart
  constructor <;> omega

theorem yearStart_yearOf_le (n : Int) : yearStart (yearOf n) ≤ n := by
  have hguess := (yearStart_guess (n := n) rfl).1
  simp only [yearOf]
  split_ifs <;> omega

theorem lt_yearStart_yearOf (n : Int) : n < yearStart (yearOf n + 1) := by
  have hguess := (yearStart_guess (n := n) rfl).2
  simp only [yearOf]
  split_ifs with hbefore
  · rwa [Int.sub_add_cancel]
  · exact hguess
  · omega

/-! ### Months -/

theorem sum_monthLengths (y : Int) : (monthLengths y).sum = if isLeap y then 366 else 365 := by
  unfold monthLengths
  split_ifs <;> rfl

/-- A day in a list of months is in one of them, and what comes before is the months before it and
the days before it there. -/
theorem locate_spec (m : Nat) (ls : List Nat) (i : Nat) (h : i < ls.sum) :
    ∃ j l d, locate m ls i = (m + j, d) ∧ ls[j]? = some l ∧ 1 ≤ d ∧ d ≤ l ∧
      (ls.take j).sum + d = i + 1 := by
  induction ls generalizing m i with
  | nil => simp at h
  | cons l ls ih =>
    rw [List.sum_cons] at h
    by_cases hi : i < l
    · exact ⟨0, l, i + 1, by simp [locate, hi], rfl, by omega, by omega, by simp⟩
    · obtain ⟨j, l', d, hlocate, hl', hd, hdl, hsum⟩ := ih (m + 1) (i - l) (by omega)
      refine ⟨j + 1, l', d, ?_, hl', hd, hdl, ?_⟩
      · rw [locate, if_neg hi, hlocate, Nat.add_assoc, Nat.add_comm 1 j]
      · rw [List.take_succ_cons, List.sum_cons]
        omega

namespace Date

/-- The date of a day: its year, and the months and the days of that year before it. -/
theorem ofDay_spec (n : Int) :
    ∃ j l d, ofDay n = ⟨yearOf n, 1 + j, d⟩ ∧ (monthLengths (yearOf n))[j]? = some l ∧ 1 ≤ d ∧
      d ≤ l ∧ ((((monthLengths (yearOf n)).take j).sum : Nat) : Int) + d
        = n - yearStart (yearOf n) + 1 := by
  have hle := yearStart_yearOf_le n
  have hlt := lt_yearStart_yearOf n
  have hi : (n - yearStart (yearOf n)).toNat < (monthLengths (yearOf n)).sum := by
    rw [yearStart_succ] at hlt
    rw [sum_monthLengths]
    split_ifs at hlt ⊢ <;> omega
  obtain ⟨j, l, d, hlocate, hl, hd, hdl, hsum⟩ := locate_spec 1 _ _ hi
  exact ⟨j, l, d, by rw [ofDay, hlocate], hl, hd, hdl, by omega⟩

/-- The date of a day exists, if its year lies in the range. -/
theorem ofFields?_ofDay {n : Int} (hmin : minYear ≤ yearOf n) (hmax : yearOf n ≤ maxYear) :
    ofFields? (ofDay n).year (ofDay n).month (ofDay n).day = some (ofDay n) := by
  obtain ⟨j, l, d, hdate, hl, hd, hdl, -⟩ := ofDay_spec n
  have hlength : monthLength? (yearOf n) (1 + j) = some l := by
    rw [monthLength?, if_neg (by omega), Nat.add_sub_cancel_left, hl]
  rw [hdate]
  simp [ofFields?, hlength, hmin, hmax, hd, hdl]

/-- **Days and dates agree**: the day of the date of a day is this day again. -/
theorem toDay_ofDay (n : Int) : (ofDay n).toDay = n := by
  obtain ⟨j, l, d, hdate, -, -, -, hsum⟩ := ofDay_spec n
  rw [hdate, toDay, Nat.add_sub_cancel_left, ← List.sum_eq_foldl]
  dsimp only
  omega

/-- Months and days of a date are numbers of two digits. -/
theorem fields_ofDay (n : Int) :
    1 ≤ (ofDay n).month ∧ (ofDay n).month ≤ 12 ∧ 1 ≤ (ofDay n).day ∧ (ofDay n).day ≤ 31 := by
  obtain ⟨j, l, d, hdate, hl, hd, hdl, -⟩ := ofDay_spec n
  obtain ⟨hj, rfl⟩ := List.getElem?_eq_some_iff.1 hl
  have hlengths : ∀ l ∈ monthLengths (yearOf n), l ≤ 31 := by
    unfold monthLengths
    split_ifs <;> decide
  have hl31 := hlengths _ (List.getElem_mem hj)
  have hj12 : j < 12 := hj
  rw [hdate]
  dsimp only
  omega

end Date

end Herald.Time

import Herald.Proofs.Time.Mail
import Herald.Proofs.Time.Sparing
import Herald.Proofs.Time.Succession

/-!
# The day of a number of milliseconds

* `Date.label`, `dayShown`: a date as it is shown, and what is shown for a number;
* `Date.scanText_text`: the date can be read off the text of a day, so no two days have one text;
* `dayShown_ne_invalidDate_iff`: the numbers that have a day are those of the days in the range;
* `numbers_identify_days`: their texts tell days apart, and follow the calendar from each day to the
  next.
-/

namespace Herald.Time

open Scanner

namespace Date

/-- A date as it is shown behind its weekday. -/
def label (w : Nat) (d : Date) : String :=
  weekdayNames.getD w "" ++ " " ++ monthNames.getD (d.month - 1) "" ++ " " ++ padded 2 d.day ++ " "
    ++ yearText d.year

theorem text_eq_label (n : Int) : text n = label (weekday n) (ofDay n) := rfl

/-- Take the date off a text that shows it. -/
def scanText : Scanner Date := do
  let _ ← name weekdayNames
  mark ' '
  let month ← name monthNames
  mark ' '
  let day ← number 2 2
  mark ' '
  let year ← Item.scanYear
  pure ⟨year, month + 1, day⟩

/-- A year is read as it is shown, be it of four digits or not. -/
theorem scanYear_yearText (y : Int) : Item.scanYear (yearText y).toList = some (y, []) := by
  by_cases hy : 0 ≤ y ∧ y < 10000
  · have htext : yearText y = padded 4 y.toNat := by simp [yearText, hy]
    have hsmall : y.toNat < Nat.pow 10 4 := by
      show y.toNat < 10000
      omega
    have hyear := Pattern.scanYear_padded hsmall []
    rw [List.append_nil, Int.toNat_of_nonneg hy.1] at hyear
    rw [htext, hyear]
  -- Any other year has a sign, and behind it as many digits as it needs.
  · obtain ⟨c, hc, htext, hvalue⟩ : ∃ c, (c = '-' ∨ c = '+') ∧
        (yearText y).toList = c :: ((padded 4 y.natAbs).toList ++ []) ∧
        (if c = '-' then -(y.natAbs : Int) else y.natAbs) = y := by
      by_cases hneg : y < 0
      · refine ⟨'-', .inl rfl, ?_, ?_⟩
        · simp [yearText, hneg, Int.not_le.2 hneg]
        · rw [if_pos rfl]
          omega
      · refine ⟨'+', .inr rfl, ?_, ?_⟩
        · have hlarge : ¬y < 10000 := fun h => hy ⟨Int.not_lt.1 hneg, h⟩
          simp [yearText, hneg, hlarge]
        · rw [if_neg (by decide)]
          omega
    have hnum := isNumeral_padded 4 y.natAbs
    have hlength : 1 ≤ (padded 4 y.natAbs).toList.length :=
      List.length_pos_of_ne_nil (padded_ne_nil 4 y.natAbs)
    have hrun : digitRun 1 none ((padded 4 y.natAbs).toList ++ [])
        = some ((padded 4 y.natAbs).toList.map digitValue, []) :=
      digitRun_append hnum.digits hlength (fun k hk => by cases hk) (.inr stops_nil)
    have hblank : Text.dropBlanks (yearText y).toList
        = c :: ((padded 4 y.natAbs).toList ++ []) := by
      rw [htext]
      refine Text.dropBlanks_cons_of_not_blank ?_ _
      rcases hc with rfl | rfl <;> decide
    rw [Pattern.scanYear_eq, hblank, Pattern.bareYear_signed hc, hrun, Option.map_some, hnum.value,
      hvalue]

/-- **The date of a day can be read off its text.** -/
theorem scanText_text (n : Int) : scanText (text n).toList = some (ofDay n, []) := by
  have hday := number_padded 2 (by decide) (Nat.le_refl 2) (day_lt n)
  have hmonth : (ofDay n).month - 1 + 1 = (ofDay n).month := Nat.sub_add_cancel (fields_ofDay n).1
  have htext : (text n).toList = (weekdayNames.getD (weekday n) "").toList ++ ' ' ::
      ((monthNames.getD ((ofDay n).month - 1) "").toList ++ ' ' ::
        ((padded 2 (ofDay n).day).toList ++ ' ' :: (yearText (ofDay n).year).toList)) := by
    simp [text]
  simp only [scanText, bind_apply, pure_apply, resume_some, htext, Mail.name_weekday,
    Mail.name_month, mark_cons, hday, scanYear_yearText, hmonth]

theorem text_inj {n k : Int} : text n = text k ↔ n = k := by
  refine ⟨fun h => ?_, fun h => h ▸ rfl⟩
  have hdate := scanText_text n
  rw [h, scanText_text k] at hdate
  rw [← toDay_ofDay n, ← toDay_ofDay k, (Prod.mk.inj (Option.some.inj hdate)).1]

theorem text_ne_invalidDate (n : Int) : text n ≠ invalidDate := by
  intro h
  have hdate := scanText_text n
  have hnone : scanText invalidDate.toList = none := rfl
  rw [h, hnone] at hdate
  cases hdate

end Date

open Date

/-- What is shown for a number of milliseconds. -/
def dayShown (m : Int) : String := (dateTextOfValue (.number (.integer m))).value

theorem inRange_div_iff (m : Int) : inRange (m / 86400000) = true ↔
    minDay * 86400000 ≤ m ∧ m < (maxDay + 1) * 86400000 := by
  rw [inRange, Bool.and_eq_true, decide_eq_true_eq, decide_eq_true_eq]
  omega

/-- The milliseconds of the range fit into a signed word. -/
theorem signed?_of_inRange {m : Int} (hm : inRange (m / 86400000)) :
    (Json.Number.integer m).signed? = some m := by
  obtain ⟨hmin, hmax⟩ := (inRange_div_iff m).1 hm
  have hfirst : -((Nat.pow 2 63 : Nat) : Int) ≤ minDay * 86400000 := by decide
  have hlast : (maxDay + 1) * 86400000 ≤ ((Nat.pow 2 63 : Nat) : Int) := by decide
  rw [Json.Number.signed?, decide_eq_true (Int.le_trans hfirst hmin),
    decide_eq_true (Int.lt_of_lt_of_le hmax hlast)]
  rfl

theorem dayShown_of_inRange {m : Int} (hm : inRange (m / 86400000)) :
    dayShown m = Date.text (m / 86400000) := by
  have hday : dayOfMillis? m = some (m / 86400000) := if_pos hm
  simp [dayShown, dateTextOfValue, signed?_of_inRange hm, hday]

theorem dayShown_of_not_inRange {m : Int} (hm : ¬inRange (m / 86400000)) :
    dayShown m = invalidDate := by
  have hday : dayOfMillis? m = none := if_neg hm
  have hnone : (Json.Number.integer m).signed?.bind dayOfMillis? = none := by
    rw [Json.Number.signed?]
    split_ifs
    · exact hday
    · rfl
  simp [dayShown, dateTextOfValue, hnone]

theorem dayShown_ne_invalidDate_iff (m : Int) :
    dayShown m ≠ invalidDate ↔ inRange (m / 86400000) = true := by
  by_cases hm : inRange (m / 86400000)
  · simp [hm, dayShown_of_inRange hm, text_ne_invalidDate]
  · simp [hm, dayShown_of_not_inRange hm]

/-- From one day to the next, if both are in the range. -/
theorem dayShown_next {m m' : Int} (hm : dayShown m ≠ invalidDate) (hm' : dayShown m' ≠ invalidDate)
    (hnext : m' / 86400000 = m / 86400000 + 1) :
    ∃ w d, w < 7 ∧ d.IsValid ∧ dayShown m = label w d ∧ d.next.IsValid ∧
      dayShown m' = label ((w + 1) % 7) d.next := by
  rw [dayShown_ne_invalidDate_iff] at hm hm'
  have hvalid := isValid_ofDay (m / 86400000)
  refine ⟨weekday (m / 86400000), ofDay (m / 86400000), weekday_lt _, hvalid, ?_,
    isValid_next hvalid, ?_⟩
  · rw [dayShown_of_inRange hm, text_eq_label]
  · rw [dayShown_of_inRange hm', text_eq_label, hnext, ofDay_succ, weekday_succ]

/-- Each date of the range is the date of a day. -/
theorem exists_dayShown {d : Date} (hd : d.IsValid) (hmin : minYear ≤ d.year)
    (hmax : d.year ≤ maxYear) :
    ∃ m w, w < 7 ∧ dayShown m ≠ invalidDate ∧ dayShown m = label w d := by
  have hdate := ofDay_toDay hd
  have hrange : inRange (d.toDay * 86400000 / 86400000) = true := by
    rw [Int.mul_ediv_cancel _ (by decide), inRange_iff, hdate]
    exact ⟨hmin, hmax⟩
  refine ⟨d.toDay * 86400000, weekday d.toDay, weekday_lt _,
    (dayShown_ne_invalidDate_iff _).2 hrange, ?_⟩
  rw [dayShown_of_inRange hrange, Int.mul_ediv_cancel _ (by decide), text_eq_label, hdate]

/-- **A number of milliseconds identifies its day.** The numbers for which a day is shown are those
from the first to the last day of the range. Two of them show one text just if they lie on one day.
From one day to the next the weekday goes on by one and the date is the next one of the calendar;
all dates of the range occur, and a 29 February in leap years alone. -/
theorem numbers_identify_days :
    (∀ m : Int, dayShown m ≠ invalidDate ↔
        minDay * 86400000 ≤ m ∧ m < (maxDay + 1) * 86400000) ∧
      (ofDay minDay = ⟨-262143, 1, 1⟩ ∧ ofDay maxDay = ⟨262142, 12, 31⟩) ∧
      (∀ m m' : Int, dayShown m ≠ invalidDate → dayShown m' ≠ invalidDate →
        (dayShown m = dayShown m' ↔ m / 86400000 = m' / 86400000)) ∧
      (∀ m m' : Int, dayShown m ≠ invalidDate → dayShown m' ≠ invalidDate →
        m' / 86400000 = m / 86400000 + 1 →
          ∃ w d, w < 7 ∧ d.IsValid ∧ dayShown m = label w d ∧ d.next.IsValid ∧
            dayShown m' = label ((w + 1) % 7) d.next) ∧
      (∀ d : Date, d.IsValid → -262143 ≤ d.year → d.year ≤ 262142 →
        ∃ m w, w < 7 ∧ dayShown m ≠ invalidDate ∧ dayShown m = label w d) ∧
      ∀ y : Int, IsValid ⟨y, 2, 29⟩ ↔ 4 ∣ y ∧ (100 ∣ y → 400 ∣ y) := by
  refine ⟨fun m => ?_, ⟨rfl, rfl⟩, fun m m' hm hm' => ?_,
    fun m m' hm hm' hnext => dayShown_next hm hm' hnext,
    fun d hd hmin hmax => exists_dayShown hd hmin hmax, isValid_leapDay_iff⟩
  · rw [dayShown_ne_invalidDate_iff, inRange_div_iff]
  · rw [dayShown_ne_invalidDate_iff] at hm hm'
    rw [dayShown_of_inRange hm, dayShown_of_inRange hm', text_inj]

/-- The first millisecond of the leap day of the year 0, and the one before it. -/
theorem leapDay_of_yearZero :
    dayShown (-62162121600001) = "Mon Feb 28 0000" ∧
      dayShown (-62162121600000) = "Tue Feb 29 0000" ∧
      dayShown (-62162121600001) ≠ dayShown (-62162121600000) ∧
      ∃ w d, w < 7 ∧ d.IsValid ∧ dayShown (-62162121600001) = label w d ∧ d.next.IsValid ∧
        dayShown (-62162121600000) = label ((w + 1) % 7) d.next := by
  have hbefore : dayShown (-62162121600001) = "Mon Feb 28 0000" := rfl
  have hday : dayShown (-62162121600000) = "Tue Feb 29 0000" := rfl
  have hm : dayShown (-62162121600001) ≠ invalidDate := by
    rw [hbefore]
    decide
  have hm' : dayShown (-62162121600000) ≠ invalidDate := by
    rw [hday]
    decide
  obtain ⟨-, -, hone, hnext, -, -⟩ := numbers_identify_days
  refine ⟨hbefore, hday, fun h => ?_, hnext _ _ hm hm' (by decide)⟩
  exact absurd ((hone _ _ hm hm').1 h) (by decide)

end Herald.Time

import Herald.Proofs.Time.Spelling
import Herald.Time.Internet

/-!
# What is spelled by RFC 3339

* `instant?_append`: a day and a time of the day with its seconds are read as far as the offset is;
* `instant?_plain`: in UTC they are read only with the letter for it;
* `instant?_minutes`, `instant?_dayText`, `instant?_of_short`: a time without seconds is not read,
  nor is a day alone, nor what does not begin with a year;
* `zone_leadText`: an offset is read as it is written.
-/

namespace Herald.Time.Internet

open Scanner Date

theorem two_padded {k : Nat} (h : k < Nat.pow 10 2) (r : List Char) :
    two ((padded 2 k).toList ++ r) = some (k, r) := number_padded 2 (by decide) (by decide) h r

variable {n : Int} {t : Nat} {c : Char}

/-- A day and a time of the day are taken up to the minutes; what follows is for the rest. -/
theorem stamp_append (hn : HasFourDigits n) (ht : t < 86400000) (hc : c = 'T' ∨ c = ' ')
    (r : List Char) :
    stamp ((dayText n).toList ++ c :: ((minutesText t).toList ++ r))
      = (do
          mark ':'
          let second ← two
          let nanos ← fraction
          let offset ← zone
          pure ⟨none, (ofDay n).year, (ofDay n).month, (ofDay n).day, t / 3600000, t / 60000 % 60,
            second, nanos, offset⟩ : Scanner Stamp) r := by
  have hyear : ((ofDay n).year.toNat : Int) = (ofDay n).year := Int.toNat_of_nonneg hn.1
  have hyears := number_padded 4 (by decide) (by decide) (year_lt hn)
  have hparted (s : List Char) : oneOf ['T', 't', ' '] (c :: s) = some (c, s) := by
    rcases hc with rfl | rfl <;> rfl
  simp only [stamp, bind_apply, toList_dayText, toList_minutesText, hyears, two_padded (month_lt n),
    two_padded (day_lt n), two_padded (hour_lt ht), two_padded (minute_lt t), mark_cons, hparted,
    resume_some, hyear]

/-- With its seconds, a time is read if its offset is. -/
theorem instant?_append (hn : HasFourDigits n) (ht : t < 86400000) (hc : c = 'T' ∨ c = ' ')
    {p : Precision} (hp : p ≠ .minutes) {r : List Char} (hr : Ends r) :
    instant? ((dayText n).toList ++ c :: ((clockText p t).toList ++ r))
      = (zone.whole r).bind fun offset => (stampAt none n p t offset).instant? := by
  have hstamp : stamp ((dayText n).toList ++ c :: ((clockText p t).toList ++ r))
      = resume (zone r) fun offset => pure (stampAt none n p t offset) := by
    rw [toList_clockText, stamp_append hn ht hc, toList_text hp]
    simp only [bind_apply, mark_cons, two_padded (second_lt t), fraction_fractionText p t hr,
      resume_some]
    rw [← second_eq hp]
    rfl
  rw [instant?, whole_eq_map hstamp, Option.bind_map]
  rfl

/-- Without seconds it is not read. -/
theorem instant?_minutes (hn : HasFourDigits n) (ht : t < 86400000) (hc : c = 'T' ∨ c = ' ')
    {r : List Char} (hr : r.head? ≠ some ':') :
    instant? ((dayText n).toList ++ c :: ((minutesText t).toList ++ r)) = none := by
  have hmark : mark ':' r = none := by
    cases r with
    | nil => rfl
    | cons x r => exact mark_of_ne (fun h => hr (congrArg some h)) r
  have hstamp := stamp_append hn ht hc r
  simp only [bind_apply, hmark, resume_none] at hstamp
  rw [instant?, whole_eq_none hstamp]
  rfl

/-- Without an offset, or with the letter for UTC, a time is not read, or in UTC. -/
theorem instant?_plain (hn : HasFourDigits n) (ht : t < 86400000) (hc : c = 'T' ∨ c = ' ')
    (p : Precision) {s : List Char} (hs : s = [] ∨ s = ['Z'] ∨ s = ['z']) :
    instant? ((dayText n).toList ++ c :: ((clockText p t).toList ++ s)) = none ∨
      instant? ((dayText n).toList ++ c :: ((clockText p t).toList ++ s))
        = (stampAt none n p t 0).instant? := by
  by_cases hp : p = .minutes
  · have hcolon : s.head? ≠ some ':' := by
      rcases hs with rfl | rfl | rfl <;> decide
    rw [hp, toList_clockText]
    exact .inl (instant?_minutes hn ht hc hcolon)
  · have hends : Ends s := by
      rcases hs with rfl | rfl | rfl <;> exact ⟨by rintro _ ⟨⟩ <;> rfl, by decide⟩
    rw [instant?_append hn ht hc hp hends]
    rcases hs with rfl | rfl | rfl
    · exact .inl rfl
    · exact .inr rfl
    · exact .inr rfl

/-- A day alone is not read. -/
theorem instant?_dayText (hn : HasFourDigits n) : instant? (dayText n).toList = none := by
  have hyears := number_padded 4 (by decide) (by decide) (year_lt hn)
  have htext := toList_dayText n []
  have hnone : oneOf ['T', 't', ' '] [] = none := rfl
  rw [List.append_nil] at htext
  have hstamp : stamp (dayText n).toList = none := by
    simp only [htext, stamp, bind_apply, hyears, two_padded (month_lt n), two_padded (day_lt n),
      mark_cons, hnone, resume_some, resume_none]
  rw [instant?, whole_eq_none hstamp]
  rfl

/-- Fewer than four digits begin no time. -/
theorem instant?_of_short {ds r : List Char} (hds : ∀ c ∈ ds, c.isDigit) (hlength : ds.length < 4)
    (hr : Stops r) : instant? (ds ++ r) = none := by
  have hstamp : stamp (ds ++ r) = none := by
    simp only [stamp, bind_apply, number_of_lt hds hlength (Nat.le_of_lt hlength) hr,
      resume_none]
  rw [instant?, whole_eq_none hstamp]
  rfl

/-- An offset is read as it is written. -/
theorem zone_leadText {lead : Int} (hmin : -1440 < lead) (hmax : lead < 1440) :
    zone (leadText ":" lead).toList = some (60 * lead, []) := by
  have htext : (leadText ":" lead).toList
      = leadSign lead :: ((padded 2 (lead.natAbs / 60)).toList
          ++ ':' :: ((padded 2 (lead.natAbs % 60)).toList ++ [])) := by simp [leadText]
  have hletter (s : List Char) : oneOf ['Z', 'z'] (leadSign lead :: s) = none := by
    rcases leadSign_eq lead with h | h <;> rw [h] <;> rfl
  have hsign (s : List Char) : sign (leadSign lead :: s)
      = some (if leadSign lead = '+' then 1 else -1, s) := by
    rcases leadSign_eq lead with h | h <;> rw [h] <;> rfl
  rw [htext, zone, hletter]
  simp only [bind_apply, hsign, two_padded (leadHours_lt hmin hmax),
    two_padded (leadMinutes_lt lead), mark_cons, Nat.mod_lt lead.natAbs (Nat.succ_pos 59), if_true,
    resume_some, pure_apply, value_lead]

end Herald.Time.Internet

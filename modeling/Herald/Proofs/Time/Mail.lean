import Herald.Proofs.Time.Spelling
import Herald.Time.Mail
import Mathlib.Tactic.IntervalCases

/-!
# What is spelled by RFC 2822

* `instant?_mailDayText`: a day, a time of the day and an offset are read as they are written, with
  the weekday or without, and with the seconds or without;
* `instant?_of_long`: a text that begins with more digits than the day of a month has is not read.
-/

namespace Herald.Time

open Scanner Date

theorem isNumeral_monthDayText (filled : Bool) (n : Int) :
    IsNumeral (monthDayText filled n).toList (ofDay n).day := by
  cases filled with
  | false => exact isNumeral_toString _
  | true => exact isNumeral_padded 2 _

theorem length_monthDayText (filled : Bool) (n : Int) :
    1 ≤ (monthDayText filled n).toList.length ∧ (monthDayText filled n).toList.length ≤ 2 := by
  cases filled with
  | false =>
    have hle : (toString (ofDay n).day).length ≤ 2 :=
      (Nat.length_repr_le_iff (by decide)).2 (day_lt n)
    have hpos := List.length_pos_of_ne_nil (toString_ne_nil (ofDay n).day)
    rw [← String.length_toList] at hle
    exact ⟨hpos, hle⟩
  | true =>
    have hlength : (monthDayText true n).toList.length = 2 := length_padded (by decide) (day_lt n)
    omega

namespace Mail

variable {n : Int} {t : Nat}

theorem name_weekday (n : Int) (r : List Char) :
    name weekdayNames ((weekdayNames.getD (Time.weekday n) "").toList ++ r)
      = some (Time.weekday n, r) := by
  have hlt : Time.weekday n < 7 := by
    unfold Time.weekday
    omega
  revert hlt
  generalize Time.weekday n = k
  intro hlt
  interval_cases k <;> rfl

theorem name_month (n : Int) (r : List Char) :
    name monthNames ((monthNames.getD ((ofDay n).month - 1) "").toList ++ r)
      = some ((ofDay n).month - 1, r) := by
  obtain ⟨hpos, hle, -⟩ := fields_ofDay n
  revert hpos hle
  generalize (ofDay n).month = k
  intro hpos hle
  interval_cases k <;> rfl

theorem toLower_of_isDigit {c : Char} (hc : c.isDigit) : c.toLower = c := by
  have hbounds : 48 ≤ c.toNat ∧ c.toNat ≤ 57 := Char.isDigit_iff_toNat.1 hc
  unfold Char.toLower
  split
  · rename_i hupper
    have : 65 ≤ c.toNat := hupper.1
    omega
  · rfl

/-- No weekday begins with a digit. -/
theorem name_of_isDigit {c : Char} (hc : c.isDigit) (s : List Char) :
    name weekdayNames (c :: s) = none := by
  have hletters : ∀ w ∈ weekdayNames,
      (w.toList.map Char.toLower).head?.any Char.isDigit = false := by
    simp only [weekdayNames, List.forall_mem_cons]
    exact ⟨rfl, rfl, rfl, rfl, rfl, rfl, rfl, List.forall_mem_nil _⟩
  unfold name
  split
  · rename_i x y z rest he
    cases he
    have hnone : weekdayNames.findIdx?
        (fun w => w.toList.map Char.toLower == [c, y, z].map Char.toLower) = none := by
      refine List.findIdx?_eq_none_iff.2 fun w hw => beq_false_of_ne fun he => ?_
      have hletter := hletters w hw
      rw [he, List.map_cons, toLower_of_isDigit hc, List.head?_cons, Option.any_some, hc] at hletter
      cases hletter
    rw [hnone]
  · rfl

/-- The weekday is taken with its comma, if it is named; a blank behind it is left. -/
theorem weekday_weekdayText (named : Bool) (n : Int) {ds : List Char} (hds : ∀ c ∈ ds, c.isDigit)
    (hpos : ds ≠ []) (r : List Char) :
    ∃ s, weekday ((weekdayText named n).toList ++ (ds ++ r))
        = some (if named then some (Time.weekday n) else none, s) ∧
      Text.dropBlanks s = ds ++ r := by
  have hblank := Scanner.dropBlanks_numeral hds hpos r
  cases named with
  | false =>
    refine ⟨ds ++ r, ?_, hblank⟩
    cases ds with
    | nil => exact absurd rfl hpos
    | cons c ds =>
      have hname := name_of_isDigit (hds c List.mem_cons_self) (ds ++ r)
      simp only [weekdayText, weekday, Bool.false_eq_true, if_false, String.toList_empty,
        List.nil_append, List.cons_append, hname]
  | true =>
    refine ⟨' ' :: (ds ++ r), ?_, ?_⟩
    · have htext : (weekdayText true n).toList ++ (ds ++ r)
          = (weekdayNames.getD (Time.weekday n) "").toList ++ ',' :: ' ' :: (ds ++ r) := by
        simp [weekdayText]
      rw [htext, weekday, name_weekday]
      rfl
    · rw [Text.dropBlanks_cons_of_blank (by decide), hblank]

theorem toList_mailDayText (named filled : Bool) (n : Int) (r : List Char) :
    (mailDayText named filled n).toList ++ r
      = (weekdayText named n).toList ++ ((monthDayText filled n).toList ++ ' ' ::
          ((monthNames.getD ((ofDay n).month - 1) "").toList ++ ' ' ::
            ((padded 4 (ofDay n).year.toNat).toList ++ r))) := by
  simp [mailDayText]

/-- A weekday begins with a letter. -/
theorem exists_cons_weekdayText (n : Int) :
    ∃ c w, (weekdayText true n).toList = c :: w ∧ Text.isBlank c = false ∧ c.isDigit = false := by
  have hlt : Time.weekday n < 7 := by
    unfold Time.weekday
    omega
  unfold weekdayText
  revert hlt
  generalize Time.weekday n = k
  intro hlt
  interval_cases k <;> exact ⟨_, _, rfl, rfl, rfl⟩

/-- In front of a day there are no blanks, with or without its weekday. -/
theorem isBlank_of_head?_weekdayText (named : Bool) (n : Int) {ds : List Char}
    (hds : ∀ c ∈ ds, c.isDigit) (hpos : ds ≠ []) (r : List Char) :
    ∀ c ∈ ((weekdayText named n).toList ++ (ds ++ r)).head?, Text.isBlank c = false := by
  cases named with
  | false =>
    intro c hc
    rw [weekdayText, if_neg (by decide), String.toList_empty, List.nil_append,
      List.head?_append_of_ne_nil _ hpos] at hc
    exact Text.isBlank_of_isDigit (hds c (List.mem_of_head? hc))
  | true =>
    obtain ⟨x, w, htext, hblank, -⟩ := exists_cons_weekdayText n
    rw [htext]
    rintro _ ⟨⟩
    exact hblank

theorem dropBlanks_weekdayText (named : Bool) (n : Int) {ds : List Char}
    (hds : ∀ c ∈ ds, c.isDigit) (hpos : ds ≠ []) (r : List Char) :
    Text.dropBlanks ((weekdayText named n).toList ++ (ds ++ r))
      = (weekdayText named n).toList ++ (ds ++ r) :=
  Text.dropBlanks_eq_self (isBlank_of_head?_weekdayText named n hds hpos r)

/-- A year of four digits is read as it is written. -/
theorem year_padded {k : Nat} (hk : k < Nat.pow 10 4) {r : List Char} (hr : Stops r) :
    year ((padded 4 k).toList ++ r) = some (k, r) := by
  have hlength : (padded 4 k).toList.length = 4 := length_padded (by decide) hk
  have hrun : digitRun 2 none ((padded 4 k).toList ++ r)
      = some ((padded 4 k).toList.map digitValue, r) :=
    digitRun_append (isNumeral_padded 4 k).digits (by omega) (fun k hk => by cases hk) (.inr hr)
  simp [year, hrun, hlength, (isNumeral_padded 4 k).value]

/-- The seconds are read if they are written. -/
theorem second_text {p : Precision} (hp : p ≠ .millis) (t : Nat) {c : Char}
    (hblank : Text.isBlank c = false) (hcolon : c ≠ ':') (r : List Char) :
    second ((p.text t).toList ++ ' ' :: c :: r) = some (p.second t, ' ' :: c :: r) := by
  cases p with
  | millis => exact absurd rfl hp
  | minutes =>
    have hdrop : Text.dropBlanks (' ' :: c :: r) = c :: r := by
      rw [Text.dropBlanks_cons_of_blank (by decide), Text.dropBlanks_cons_of_not_blank hblank]
    have htext : (Precision.minutes.text t).toList ++ ' ' :: c :: r = ' ' :: c :: r := rfl
    rw [htext, second, hdrop]
    split
    · rename_i he
      exact absurd (List.cons.inj he).1 hcolon
    · rfl
  | seconds =>
    have htext := toList_text (p := .seconds) (by decide) t (' ' :: c :: r)
    have hnumber := number_padded 2 (by decide) (by decide) (second_lt t)
    rw [htext, second, Text.dropBlanks_cons_of_not_blank (by decide)]
    exact hnumber _

theorem zone_leadText {lead : Int} (hmin : -1440 < lead) (hmax : lead < 1440) :
    zone (leadText "" lead).toList = some (60 * lead, []) := by
  have htext : (leadText "" lead).toList
      = leadSign lead :: ((padded 2 (lead.natAbs / 60)).toList
          ++ ((padded 2 (lead.natAbs % 60)).toList ++ [])) := by simp [leadText]
  have hletters (s : List Char) : (leadSign lead :: s).span Char.isAlpha
      = ([], leadSign lead :: s) := by
    rcases leadSign_eq lead with h | h <;> rw [h] <;> rfl
  have hsign (s : List Char) : oneOf ['+', '-'] (leadSign lead :: s) = some (leadSign lead, s) := by
    rcases leadSign_eq lead with h | h <;> rw [h] <;> rfl
  have hhours := number_padded 2 (by decide) (by decide) (leadHours_lt hmin hmax)
  have hminutes := number_padded 2 (by decide) (by decide) (leadMinutes_lt lead)
  rw [htext, zone, hletters]
  simp only [offset, bind_apply, hsign, hhours, hminutes, Nat.mod_lt lead.natAbs (Nat.succ_pos 59),
    if_true, resume_some, pure_apply, value_lead]

theorem dropBlanks_monthName (n : Int) (r : List Char) :
    Text.dropBlanks ((monthNames.getD ((ofDay n).month - 1) "").toList ++ r)
      = (monthNames.getD ((ofDay n).month - 1) "").toList ++ r := by
  obtain ⟨hpos, hle, -⟩ := fields_ofDay n
  revert hpos hle
  generalize (ofDay n).month = k
  intro hpos hle
  interval_cases k <;> rfl

/-- A day is taken as it is written; what follows is for the rest. -/
theorem stamp_append (named filled : Bool) (hn : HasFourDigits n) (r : List Char) :
    stamp ((mailDayText named filled n).toList ++ ' ' :: r)
      = (do
          someBlanks
          let hour ← number 2 2
          blanks
          mark ':'
          blanks
          let minute ← number 2 2
          let second ← second
          someBlanks
          let offset ← zone
          pure ⟨if named then some (Time.weekday n) else none, (ofDay n).year, (ofDay n).month,
            (ofDay n).day, hour, minute, second, 0, offset⟩ : Scanner Stamp) (' ' :: r) := by
  have hyear : ((ofDay n).year.toNat : Int) = (ofDay n).year := Int.toNat_of_nonneg hn.1
  have hmonth : (ofDay n).month - 1 + 1 = (ofDay n).month := Nat.sub_add_cancel (fields_ofDay n).1
  have hstops (r : List Char) : Stops (' ' :: r) := stops_cons (by decide) r
  obtain ⟨hleast, hmost⟩ := length_monthDayText filled n
  have hds := isNumeral_monthDayText filled n
  have hday (r : List Char) : number 1 2 ((monthDayText filled n).toList ++ ' ' :: r)
      = some ((ofDay n).day, ' ' :: r) := number_append hds hleast hmost (.inr (hstops r))
  have hpos : (monthDayText filled n).toList ≠ [] := List.ne_nil_of_length_pos hleast
  obtain ⟨s, hweekday, hs⟩ := weekday_weekdayText named n hds.digits hpos (' ' ::
    ((monthNames.getD ((ofDay n).month - 1) "").toList ++ ' ' ::
      ((padded 4 (ofDay n).year.toNat).toList ++ ' ' :: r)))
  rw [toList_mailDayText]
  simp only [stamp, bind_apply, blanks_apply, resume_some,
    dropBlanks_weekdayText named n hds.digits hpos, hweekday, hs, hday, someBlanks_cons,
    dropBlanks_monthName, name_month, dropBlanks_padded, year_padded (year_lt hn) (hstops r), hyear,
    hmonth]

/-- **A time of mail is read as it is written.** -/
theorem instant?_mailDayText {lead : Int} {p : Precision} (named filled : Bool)
    (hn : HasFourDigits n) (ht : t < 86400000) (hp : p ≠ .millis) (hmin : -1440 < lead)
    (hmax : lead < 1440) :
    instant? ((mailDayText named filled n).toList ++ ' ' :: ((clockText p t).toList
        ++ ' ' :: (leadText "" lead).toList))
      = (stampAt (if named then some (Time.weekday n) else none) n p t (60 * lead)).instant? := by
  have hnanos : p.nanos t = 0 := by
    cases p with
    | millis => exact absurd rfl hp
    | minutes | seconds => rfl
  obtain ⟨rest, hrest⟩ : ∃ rest, (leadText "" lead).toList = leadSign lead :: rest :=
    ⟨((padded 2 (lead.natAbs / 60)).toList ++ (padded 2 (lead.natAbs % 60)).toList), by
      simp [leadText]⟩
  have hsign : Text.isBlank (leadSign lead) = false ∧ leadSign lead ≠ ':' := by
    rcases leadSign_eq lead with h | h <;> rw [h] <;> decide
  have hzone := zone_leadText hmin hmax
  have hhours := number_padded 2 (by decide) (by decide) (hour_lt ht)
  have hminutes := number_padded 2 (by decide) (by decide) (minute_lt t)
  have hcolon (r : List Char) : Text.dropBlanks (':' :: r) = ':' :: r :=
    Text.dropBlanks_cons_of_not_blank (by decide) r
  rw [hrest] at hzone ⊢
  have hstamp : stamp ((mailDayText named filled n).toList ++ ' ' :: ((clockText p t).toList
      ++ ' ' :: leadSign lead :: rest))
      = some (stampAt (if named then some (Time.weekday n) else none) n p t (60 * lead), []) := by
    rw [stamp_append named filled hn, toList_clockText, toList_minutesText]
    simp only [bind_apply, blanks_apply, resume_some, someBlanks_cons, dropBlanks_padded, hhours,
      hcolon, mark_cons, hminutes, second_text hp t hsign.1 hsign.2,
      Text.dropBlanks_cons_of_not_blank hsign.1, hzone, pure_apply, stampAt, hnanos]
  have hwhole := whole_eq_some (p := commented) (s := (mailDayText named filled n).toList ++ ' ' ::
    ((clockText p t).toList ++ ' ' :: leadSign lead :: rest)) (by
      simp only [commented, bind_apply, hstamp, resume_some]
      rfl)
  rw [instant?, hwhole]
  rfl

/-- A text that begins with three digits is no time of mail: the first two are taken for a day, and
no blank follows. -/
theorem instant?_of_long {ds : List Char} (hds : ∀ c ∈ ds, c.isDigit) (hlength : 3 ≤ ds.length)
    (r : List Char) : instant? (ds ++ r) = none := by
  match ds, hds, hlength with
  | a :: b :: c :: ds, hds, _ =>
    have ha := hds a (by simp)
    have hb := hds b (by simp)
    have hc := hds c (by simp)
    have hblank (s : List Char) : Text.dropBlanks (a :: s) = a :: s :=
      Text.dropBlanks_cons_of_not_blank (Text.isBlank_of_isDigit ha) s
    have hweekday (s : List Char) : weekday (a :: s) = some (none, a :: s) := by
      simp only [weekday, name_of_isDigit ha]
    have hab : IsNumeral [a, b] (value ([a, b].map digitValue)) := ⟨by simp [ha, hb], rfl⟩
    have htwo : number 1 2 (a :: b :: c :: (ds ++ r))
        = some (value ([a, b].map digitValue), c :: (ds ++ r)) :=
      number_append hab (by simp) (by simp) (.inl rfl)
    have hsome : someBlanks (c :: (ds ++ r)) = none := if_neg (by simp [Text.isBlank_of_isDigit hc])
    have hstamp : stamp (a :: b :: c :: (ds ++ r)) = none := by
      simp only [stamp, bind_apply, blanks_apply, resume_some, hblank, hweekday, htwo, hsome,
        resume_none]
    have hwhole : commented.whole (a :: b :: c :: (ds ++ r)) = none := by
      refine whole_eq_none ?_
      simp only [commented, bind_apply, hstamp, resume_none]
    simp only [List.cons_append]
    rw [instant?, hwhole]
    rfl

theorem instant?_dayText (hn : HasFourDigits n) (r : List Char) :
    instant? ((dayText n).toList ++ r) = none := by
  have hlength : (padded 4 (ofDay n).year.toNat).toList.length = 4 :=
    length_padded (by decide) (year_lt hn)
  rw [toList_dayText]
  exact instant?_of_long (isNumeral_padded 4 _).digits (by rw [hlength]; decide) _

end Mail

end Herald.Time

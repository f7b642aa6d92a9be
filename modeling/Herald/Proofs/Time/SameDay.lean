import Herald.Proofs.Time.Internet
import Herald.Proofs.Time.Mail
import Herald.Proofs.Time.Sparing

/-!
# One day for all spellings

* `timestamp?_between`: no spelling begins or ends with a blank, so blanks around it do not matter;
* `exists_reading`: each spelling is read, as an instant of the day that was meant;
* `dateText_of_spells`: the day that is shown is the one that is shown for the milliseconds, and the
  calendar has it.

A text may be read in several ways, and the first one counts. So for each spelling the ways in front
of the one that reads it are shown to refuse it; where two of them read it, as with a time in UTC
that has its seconds and the letter, they give the same fields.
-/

namespace Herald.Time

open Date Scanner

/-! ### Both ends of a spelling -/

/-- The last character of a text that ends with a numeral is a digit. -/
theorem isDigit_of_getLast? {s cs : List Char} {n : Nat} (h : IsNumeral cs n) (hpos : cs ≠ []) :
    ∀ c ∈ (s ++ cs).getLast?, c.isDigit := by
  intro c hc
  rw [List.getLast?_append_of_ne_nil _ hpos] at hc
  exact h.digits c (List.mem_of_getLast? hc)

theorem isDigit_of_getLast?_dayText (n : Int) : ∀ c ∈ (dayText n).toList.getLast?, c.isDigit := by
  rw [dayText, String.toList_append]
  exact isDigit_of_getLast? (isNumeral_padded 2 _) (padded_ne_nil 2 _)

theorem isDigit_of_getLast?_leadText (s : List Char) (colon : String) (lead : Int) :
    ∀ c ∈ (s ++ (leadText colon lead).toList).getLast?, c.isDigit := by
  rw [leadText, String.toList_append, ← List.append_assoc]
  exact isDigit_of_getLast? (isNumeral_padded 2 _) (padded_ne_nil 2 _)

theorem isDigit_of_getLast?_clockText (s : List Char) (p : Precision) (t : Nat) :
    ∀ c ∈ (s ++ (clockText p t).toList).getLast?, c.isDigit := by
  obtain ⟨before, width, k, htext⟩ :
      ∃ before width k, clockText p t = before ++ padded width k := by
    cases p with
    | minutes =>
      exact ⟨padded 2 (t / 3600000) ++ ":", 2, t / 60000 % 60, by
        simp [clockText, minutesText, Precision.text]⟩
    | seconds =>
      exact ⟨minutesText t ++ ":", 2, t / 1000 % 60, by
        simp [clockText, Precision.text, Precision.fractionText, String.append_assoc]⟩
    | millis =>
      exact ⟨minutesText t ++ ":" ++ padded 2 (t / 1000 % 60) ++ ".", 3, t % 1000, by
        simp [clockText, Precision.text, Precision.fractionText, String.append_assoc]⟩
  rw [htext, String.toList_append, ← List.append_assoc]
  exact isDigit_of_getLast? (isNumeral_padded width k) (padded_ne_nil width k)

theorem isBlank_of_head?_dayText (n : Int) (r : List Char) :
    ∀ c ∈ ((dayText n).toList ++ r).head?, Text.isBlank c = false := by
  intro c hc
  rw [toList_dayText, List.head?_append_of_ne_nil _ (padded_ne_nil 4 _)] at hc
  exact Text.isBlank_of_isDigit ((isNumeral_padded 4 _).digits c (List.mem_of_head? hc))

theorem isBlank_of_head?_mailDayText (named filled : Bool) (n : Int) (r : List Char) :
    ∀ c ∈ ((mailDayText named filled n).toList ++ r).head?, Text.isBlank c = false := by
  rw [Mail.toList_mailDayText]
  exact Mail.isBlank_of_head?_weekdayText named n (isNumeral_monthDayText filled n).digits
    (List.ne_nil_of_length_pos (length_monthDayText filled n).1) _

/-- No spelling begins with a blank. -/
theorem isBlank_of_head?_spells {m : Int} {s : String} (hs : Spells m s) :
    ∀ c ∈ s.toList.head?, Text.isBlank c = false := by
  cases hs with
  | internet | internetAt | plain =>
    simp only [String.toList_append, List.append_assoc]
    exact isBlank_of_head?_dayText _ _
  | mail named filled =>
    simp only [String.toList_append, List.append_assoc]
    exact isBlank_of_head?_mailDayText named filled _ _
  | day =>
    have hhead := isBlank_of_head?_dayText (localDay m 0) []
    rwa [List.append_nil] at hhead

theorem eq_of_getLast? {s : String} {z c : Char}
    (h : c ∈ (s ++ String.singleton z).toList.getLast?) : c = z := by
  rw [String.toList_append, String.toList_singleton, List.getLast?_concat] at h
  exact (Option.some.inj h).symm

/-- A spelling ends with a digit or with the letter for UTC. -/
theorem getLast?_spells {m : Int} {s : String} (hs : Spells m s) :
    ∀ c ∈ s.toList.getLast?, c.isDigit ∨ c = 'Z' ∨ c = 'z' := by
  intro c hc
  cases hs with
  | internet p fine => exact .inr (.inl (eq_of_getLast? hc))
  | internetAt p fine lead clock =>
    rw [String.toList_append] at hc
    exact .inl (isDigit_of_getLast?_leadText _ ":" lead c hc)
  | mail named filled p coarse lead clock =>
    rw [String.toList_append] at hc
    exact .inl (isDigit_of_getLast?_leadText _ "" lead c hc)
  | plain separator parted p zone zoned =>
    rcases zoned with rfl | rfl | rfl
    · rw [String.append_empty, String.toList_append] at hc
      exact .inl (isDigit_of_getLast?_clockText _ p _ c hc)
    · exact .inr (.inl (eq_of_getLast? hc))
    · exact .inr (.inr (eq_of_getLast? hc))
  | day => exact .inl (isDigit_of_getLast?_dayText _ c hc)

/-- Blanks around a spelling do not matter. -/
theorem timestamp?_between {m : Int} {s before after : String} (hs : Spells m s)
    (hb : before.toList.all Text.isBlank) (ha : after.toList.all Text.isBlank) :
    timestamp? (before ++ s ++ after) = readings.findSome? (· s.toList) := by
  have hlast : ∀ c ∈ s.toList.getLast?, Text.isBlank c = false := by
    intro c hc
    rcases getLast?_spells hs c hc with hdigit | rfl | rfl
    · exact Text.isBlank_of_isDigit hdigit
    · rfl
    · rfl
  rw [timestamp?, String.toList_append, String.toList_append,
    Text.trim_append hb ha (isBlank_of_head?_spells hs) hlast]

/-! ### Every spelling is read -/

/-- The ways to read a text are tried in order. -/
theorem findSome?_readings (s : List Char) :
    readings.findSome? (· s)
      = (((Internet.instant? s).or (Mail.instant? s)).or
          (Pattern.localTimes.findSome? (·.instant? (dropZone s)))).or
            (Pattern.date.instant? s) := by
  have hmails : [Internet.instant?, Mail.instant?].findSome? (· s)
      = (Internet.instant? s).or (Mail.instant? s) := by
    simp only [List.findSome?_cons, List.findSome?_nil]
    cases Internet.instant? s <;> cases Mail.instant? s <;> rfl
  rw [readings, List.findSome?_append, List.findSome?_append, List.findSome?_map, hmails,
    List.findSome?_singleton]
  rfl

/-- A letter for UTC is dropped. -/
theorem dropZone_append {x zone : List Char} (hx : ∀ c ∈ x.getLast?, c.isDigit)
    (hzone : zone = [] ∨ zone = ['Z'] ∨ zone = ['z']) : dropZone (x ++ zone) = x :=
  dropZone_append_zone (fun c hc => ne_of_isDigit (hx c hc)) hzone

/-- A time of mail is not read by RFC 3339: it begins with a weekday or with two digits at most. -/
theorem instant?_mailDayText (named filled : Bool) (n : Int) (r : List Char) :
    Internet.instant? ((mailDayText named filled n).toList ++ r) = none := by
  have hds := isNumeral_monthDayText filled n
  have hlength := length_monthDayText filled n
  rw [Mail.toList_mailDayText]
  cases named with
  | false =>
    rw [weekdayText, if_neg (by decide), String.toList_empty, List.nil_append]
    exact Internet.instant?_of_short hds.digits (by omega) (stops_cons (by decide) _)
  | true =>
    obtain ⟨c, w, htext, -, hletter⟩ := Mail.exists_cons_weekdayText n
    have hstops := stops_cons hletter (w ++ ((monthDayText filled n).toList ++ ' ' ::
      ((monthNames.getD ((ofDay n).month - 1) "").toList ++ ' ' ::
        ((padded 4 (ofDay n).year.toNat).toList ++ r))))
    have hnil : ∀ c ∈ ([] : List Char), c.isDigit := List.forall_mem_nil _
    have hnone := Internet.instant?_of_short hnil (Nat.zero_lt_succ 3) hstops
    rw [htext]
    exact hnone

section Reading

variable {m : Int} (hm : HasFourDigits (m / 86400000))
include hm

theorem isClock_zero : IsClock m 0 := ⟨by decide, by decide, by rwa [localDay_zero]⟩

/-- A time in UTC is read, be it by RFC 3339 or by one of the patterns. -/
theorem exists_reading_plain {c : Char} (hc : c = 'T' ∨ c = ' ') (p : Precision) {zone : List Char}
    (hzone : zone = [] ∨ zone = ['Z'] ∨ zone = ['z']) :
    ∃ i, readings.findSome? (· ((dayText (localDay m 0)).toList ++ c ::
      ((clockText p (localMillis m 0)).toList ++ zone))) = some i ∧ i.day = m / 86400000 := by
  obtain ⟨i, hi, hday⟩ := exists_instant_stampAt p hm (isClock_zero hm) (.inl rfl)
  have hn : HasFourDigits (localDay m 0) := (isClock_zero hm).2.2
  have ht := localMillis_lt m 0
  rw [Int.mul_zero] at hi
  refine ⟨i, ?_, hday⟩
  have hinternet := Internet.instant?_plain hn ht hc p hzone
  rw [hi] at hinternet
  have hmail := Mail.instant?_dayText hn (c :: ((clockText p (localMillis m 0)).toList ++ zone))
  have hdrop : dropZone ((dayText (localDay m 0)).toList ++ c ::
      ((clockText p (localMillis m 0)).toList ++ zone))
        = (dayText (localDay m 0)).toList ++ c :: (clockText p (localMillis m 0)).toList := by
    rw [List.append_cons _ c (_ ++ zone), List.append_cons _ c (clockText _ _).toList,
      ← List.append_assoc]
    exact dropZone_append (isDigit_of_getLast?_clockText _ p _) hzone
  have hlocal := Pattern.findSome?_localTimes hn ht hc p hi
  rw [findSome?_readings, hdrop, hmail, hlocal]
  rcases hinternet with h | h <;> rw [h] <;> rfl

/-- A time by another clock is read by RFC 3339. -/
theorem exists_reading_internetAt {p : Precision} (hp : p ≠ .minutes) {lead : Int}
    (hclock : IsClock m lead) :
    ∃ i, readings.findSome? (· ((dayText (localDay m lead)).toList ++ 'T' ::
      ((clockText p (localMillis m lead)).toList ++ (leadText ":" lead).toList))) = some i ∧
        i.day = m / 86400000 := by
  obtain ⟨i, hi, hday⟩ := exists_instant_stampAt p hm hclock (.inl rfl)
  obtain ⟨hmin, hmax, hn⟩ := hclock
  refine ⟨i, ?_, hday⟩
  have hends : Ends (leadText ":" lead).toList := by
    have htext : (leadText ":" lead).toList.head? = some (leadSign lead) := by simp [leadText]
    rw [Ends, Stops, htext]
    rcases leadSign_eq lead with h | h <;> rw [h] <;> exact ⟨by rintro _ ⟨⟩; rfl, by decide⟩
  rw [findSome?_readings, Internet.instant?_append hn (localMillis_lt m lead) (.inl rfl) hp hends,
    whole_eq_some (Internet.zone_leadText hmin hmax), Option.bind_some, hi]
  rfl

/-- A time of mail is read by RFC 2822. -/
theorem exists_reading_mail (named filled : Bool) {p : Precision} (hp : p ≠ .millis) {lead : Int}
    (hclock : IsClock m lead) :
    ∃ i, readings.findSome? (· ((mailDayText named filled (localDay m lead)).toList ++ ' ' ::
      ((clockText p (localMillis m lead)).toList ++ ' ' :: (leadText "" lead).toList))) = some i ∧
        i.day = m / 86400000 := by
  have hnamed : (if named then some (weekday (localDay m lead)) else none) = none ∨
      (if named then some (weekday (localDay m lead)) else none)
        = some (weekday (localDay m lead)) := by
    cases named
    · exact .inl rfl
    · exact .inr rfl
  obtain ⟨i, hi, hday⟩ := exists_instant_stampAt p hm hclock hnamed
  obtain ⟨hmin, hmax, hn⟩ := hclock
  refine ⟨i, ?_, hday⟩
  have hmail := Mail.instant?_mailDayText named filled hn (localMillis_lt m lead) hp hmin hmax
  rw [findSome?_readings, instant?_mailDayText, hmail, hi]
  rfl

/-- A day alone is read as its beginning. -/
theorem exists_reading_day :
    ∃ i, readings.findSome? (· (dayText (localDay m 0)).toList) = some i ∧
      i.day = m / 86400000 := by
  have hn : HasFourDigits (localDay m 0) := (isClock_zero hm).2.2
  -- The beginning of the day is an instant of its own, and `00:00` is its time of the day.
  have hbegin : localDay (86400000 * (m / 86400000)) 0 = localDay m 0 ∧
      localMillis (86400000 * (m / 86400000)) 0 = 0 ∧
      86400000 * (m / 86400000) / 86400000 = m / 86400000 := by
    unfold localDay localMillis
    omega
  obtain ⟨i, hi, hday⟩ := exists_instant_stampAt .minutes (m := 86400000 * (m / 86400000))
    (by rwa [hbegin.2.2]) (isClock_zero (by rwa [hbegin.2.2])) (.inl rfl)
  rw [hbegin.1, hbegin.2.1, Int.mul_zero] at hi
  rw [hbegin.2.2] at hday
  refine ⟨i, ?_, hday⟩
  have hmail := Mail.instant?_dayText hn []
  have hdrop : dropZone (dayText (localDay m 0)).toList = (dayText (localDay m 0)).toList := by
    have hzones := dropZone_append (isDigit_of_getLast?_dayText (localDay m 0)) (.inl rfl)
    rwa [List.append_nil] at hzones
  rw [List.append_nil] at hmail
  rw [findSome?_readings, Internet.instant?_dayText hn, hmail, hdrop,
    Pattern.findSome?_localTimes_dayText hn, Pattern.instant?_dayText hn, hi]
  rfl

end Reading

/-- **Every spelling is read**, as an instant of the day that was meant. -/
theorem exists_reading {m : Int} (hm : HasFourDigits (m / 86400000)) {s : String}
    (hs : Spells m s) :
    ∃ i, readings.findSome? (· s.toList) = some i ∧ i.day = m / 86400000 := by
  cases hs with
  | internet p fine =>
    have hread := exists_reading_plain hm (.inl rfl) p (.inr (.inl rfl))
    simpa using hread
  | internetAt p fine lead clock =>
    have hread := exists_reading_internetAt hm fine clock
    simpa using hread
  | mail named filled p coarse lead clock =>
    have hread := exists_reading_mail hm named filled coarse clock
    simpa using hread
  | plain separator parted p zone zoned =>
    have hzone : zone.toList = [] ∨ zone.toList = ['Z'] ∨ zone.toList = ['z'] := by
      rcases zoned with rfl | rfl | rfl
      · exact .inl rfl
      · exact .inr (.inl rfl)
      · exact .inr (.inr rfl)
    rcases parted with rfl | rfl
    · have hread := exists_reading_plain hm (.inl rfl) p hzone
      simpa using hread
    · have hread := exists_reading_plain hm (.inr rfl) p hzone
      simpa using hread
  | day => exact exists_reading_day hm

/-! ### The day that is shown -/

/-- A date with a year of four digits, as it is shown. -/
def Date.shown (d : Date) : String :=
  weekdayNames.getD (weekday d.toDay) "" ++ " " ++ monthNames.getD (d.month - 1) "" ++ " "
    ++ padded 2 d.day ++ " " ++ padded 4 d.year.toNat

/-- The instant lies on the date, which the calendar has. -/
structure Date.Contains (d : Date) (m : Int) : Prop where
  valid : ofFields? d.year d.month d.day = some d
  begins : d.toDay * 86400000 ≤ m
  ends : m < (d.toDay + 1) * 86400000

theorem contains_ofDay {m : Int} (hm : HasFourDigits (m / 86400000)) :
    (ofDay (m / 86400000)).Contains m where
  valid := ofFields?_of_hasFourDigits hm
  begins := by
    rw [toDay_ofDay]
    omega
  ends := by
    rw [toDay_ofDay]
    omega

theorem text_eq_shown {n : Int} (hn : HasFourDigits n) : Date.text n = (ofDay n).shown := by
  have hyear : 0 ≤ (ofDay n).year ∧ (ofDay n).year < 10000 := ⟨hn.1, Int.lt_add_one_of_le hn.2⟩
  rw [Date.text, Date.shown, toDay_ofDay, yearText]
  simp [hyear]

/-- The milliseconds of a year of four digits fit into a signed word. -/
theorem signed?_of_hasFourDigits {m : Int} (hm : HasFourDigits (m / 86400000)) :
    (Json.Number.integer m).signed? = some m := by
  obtain ⟨hfirst, hlast⟩ := bounds_of_hasFourDigits hm
  have hmin : -(Nat.pow 2 63 : Nat) ≤ m := by
    have hword : -((Nat.pow 2 63 : Nat) : Int) ≤ -719528 * 86400000 := by decide
    omega
  have hmax : m < (Nat.pow 2 63 : Nat) := by
    have hword : (2932897 * 86400000 : Int) ≤ (Nat.pow 2 63 : Nat) := by decide
    omega
  rw [Json.Number.signed?, decide_eq_true hmin, decide_eq_true hmax]
  rfl

theorem dateTextOfValue_integer {m : Int} (hm : HasFourDigits (m / 86400000)) :
    dateTextOfValue (.number (.integer m)) = pure (Date.text (m / 86400000)) := by
  have hday : dayOfMillis? m = some (m / 86400000) := if_pos (inRange_of_hasFourDigits hm)
  simp [dateTextOfValue, signed?_of_hasFourDigits hm, hday]

/-- **All spellings of an instant show the same day**, the one of the calendar that contains it, and
so does its number of milliseconds. -/
theorem dateText_of_spells {m : Int} (hm : HasFourDigits (m / 86400000)) {s : String}
    (hs : Spells m s) {before after : String} (hb : before.toList.all Text.isBlank)
    (ha : after.toList.all Text.isBlank) :
    ∃ d : Date, d.Contains m ∧
      dateTextOfValue (.number (.integer m)) = pure d.shown ∧
      dateText (before ++ s ++ after) = pure d.shown := by
  obtain ⟨i, hread, hday⟩ := exists_reading hm hs
  have htext : dateText (before ++ s ++ after) = pure (Date.text (m / 86400000)) := by
    rw [dateText, timestamp?_between hs hb ha, hread, ← hday]
  rw [htext, dateTextOfValue_integer hm, text_eq_shown hm]
  exact ⟨ofDay (m / 86400000), contains_ofDay hm, rfl, rfl⟩

/-- The last millisecond of 1969, by a clock that shows the next year. -/
theorem dateText_newYear :
    HasFourDigits (-1 / 86400000) ∧
      Spells (-1) "Thu, 1 Jan 1970 23:58:59 +2359" ∧
      (dateTextOfValue (.number (.integer (-1)))).value = "Wed Dec 31 1969" ∧
      ∃ d : Date, d.Contains (-1) ∧
        dateTextOfValue (.number (.integer (-1))) = pure d.shown ∧
        dateText ("\t " ++ "Thu, 1 Jan 1970 23:58:59 +2359" ++ " \n") = pure d.shown := by
  have hm : HasFourDigits (-1 / 86400000) := ⟨by decide, by decide⟩
  have hclock : IsClock (-1) 1439 := ⟨by decide, by decide, by decide, by decide⟩
  have htext : mailDayText true false (localDay (-1) 1439) ++ " "
      ++ clockText .seconds (localMillis (-1) 1439) ++ " " ++ leadText "" 1439
        = "Thu, 1 Jan 1970 23:58:59 +2359" := by decide +kernel
  have hs : Spells (-1) "Thu, 1 Jan 1970 23:58:59 +2359" := by
    rw [← htext]
    exact .mail true false .seconds (by decide) 1439 hclock
  exact ⟨hm, hs, by decide +kernel, dateText_of_spells hm hs (by decide) (by decide)⟩

end Herald.Time

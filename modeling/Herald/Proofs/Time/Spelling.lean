import Herald.Proofs.Time.Calendar
import Herald.Proofs.Time.Scanning
import Herald.Time.Stamp

/-!
# Ways to write an instant

An instant is counted here in milliseconds since the beginning of 1970. It may be written by any
clock that is less than a day off UTC, as long as the year has four digits there.

* `localDay`, `localMillis`: what such a clock shows;
* `dayText`, `clockText`, `leadText`, `mailDayText`: the parts of a written time;
* `Spells`: the texts that an instant may be written as;
* `stampAt`: the fields of these texts;
* `exists_instant_stampAt`: the fields name an instant of the day that was meant, whichever clock
  they were taken from;
* `toList_dayText`, `toList_clockText`, `fraction_fractionText`: the parts of a text as they are
  taken.
-/

namespace Herald.Time

open Date Scanner

/-! ### Clocks -/

/-- The day by a clock that is so many minutes ahead of UTC. -/
def localDay (m lead : Int) : Int := (m + 60000 * lead) / 86400000

/-- The milliseconds of the day by such a clock. -/
def localMillis (m lead : Int) : Nat := ((m + 60000 * lead) % 86400000).toNat

/-- The year of a day has four digits. -/
def HasFourDigits (n : Int) : Prop := 0 ≤ (ofDay n).year ∧ (ofDay n).year ≤ 9999

/-- The clock is less than a day off UTC, and its year has four digits. -/
def IsClock (m lead : Int) : Prop :=
  -1440 < lead ∧ lead < 1440 ∧ HasFourDigits (localDay m lead)

/-! ### Texts -/

/-- A day, such as `2024-03-05`. -/
def dayText (n : Int) : String :=
  padded 4 (ofDay n).year.toNat ++ "-" ++ padded 2 (ofDay n).month ++ "-" ++ padded 2 (ofDay n).day

/-- How far a time of the day is written. -/
inductive Precision
  | minutes
  | seconds
  | millis
  deriving DecidableEq, Repr

/-- The fraction of the second, if it is written. -/
def Precision.fractionText (t : Nat) : Precision → String
  | minutes | seconds => ""
  | millis => "." ++ padded 3 (t % 1000)

/-- What follows the minutes in a time of the day. -/
def Precision.text (t : Nat) (p : Precision) : String :=
  match p with
  | minutes => ""
  | seconds | millis => ":" ++ padded 2 (t / 1000 % 60) ++ p.fractionText t

/-- A time of the day up to the minute. -/
def minutesText (t : Nat) : String := padded 2 (t / 3600000) ++ ":" ++ padded 2 (t / 60000 % 60)

/-- A time of the day, such as `17:00:00.000`. -/
def clockText (p : Precision) (t : Nat) : String := minutesText t ++ p.text t

/-- Whether a clock is ahead or behind. -/
def leadSign (lead : Int) : Char := if lead < 0 then '-' else '+'

/-- How far a clock is ahead, such as `-02:00`. -/
def leadText (colon : String) (lead : Int) : String :=
  String.singleton (leadSign lead) ++ padded 2 (lead.natAbs / 60) ++ colon
    ++ padded 2 (lead.natAbs % 60)

/-- The weekday in front of a day, if it is named. -/
def weekdayText (named : Bool) (n : Int) : String :=
  if named then weekdayNames.getD (weekday n) "" ++ ", " else ""

/-- The day of the month, with or without a zero in front of a single digit. -/
def monthDayText (filled : Bool) (n : Int) : String :=
  if filled then padded 2 (ofDay n).day else toString (ofDay n).day

/-- A day as mail has it, such as `Tue, 5 Mar 2024`. -/
def mailDayText (named filled : Bool) (n : Int) : String :=
  weekdayText named n ++ monthDayText filled n ++ " " ++ monthNames.getD ((ofDay n).month - 1) ""
    ++ " " ++ padded 4 (ofDay n).year.toNat

/-- The texts that an instant may be written as. -/
inductive Spells (m : Int) : String → Prop
  /-- By RFC 3339, in UTC. -/
  | internet (p : Precision) (fine : p ≠ .minutes) :
      Spells m (dayText (localDay m 0) ++ "T" ++ clockText p (localMillis m 0) ++ "Z")
  /-- By RFC 3339, by another clock. -/
  | internetAt (p : Precision) (fine : p ≠ .minutes) (lead : Int) (clock : IsClock m lead) :
      Spells m (dayText (localDay m lead) ++ "T" ++ clockText p (localMillis m lead)
        ++ leadText ":" lead)
  /-- By RFC 2822. -/
  | mail (named filled : Bool) (p : Precision) (coarse : p ≠ .millis) (lead : Int)
      (clock : IsClock m lead) :
      Spells m (mailDayText named filled (localDay m lead) ++ " "
        ++ clockText p (localMillis m lead) ++ " " ++ leadText "" lead)
  /-- In UTC without an offset, maybe with the letter for UTC. -/
  | plain (separator : String) (parted : separator = "T" ∨ separator = " ") (p : Precision)
      (zone : String) (zoned : zone = "" ∨ zone = "Z" ∨ zone = "z") :
      Spells m (dayText (localDay m 0) ++ separator ++ clockText p (localMillis m 0) ++ zone)
  /-- The day alone. -/
  | day : Spells m (dayText (localDay m 0))

/-! ### Fields -/

/-- The second that is written. -/
def Precision.second (t : Nat) : Precision → Nat
  | minutes => 0
  | seconds | millis => t / 1000 % 60

/-- The billionths of the second that are written. -/
def Precision.nanos (t : Nat) : Precision → Nat
  | minutes | seconds => 0
  | millis => t % 1000 * 1000000

/-- The fields of a time of a day. -/
def stampAt (named : Option Nat) (n : Int) (p : Precision) (t : Nat) (offset : Int) : Stamp :=
  ⟨named, (ofDay n).year, (ofDay n).month, (ofDay n).day, t / 3600000, t / 60000 % 60, p.second t,
    p.nanos t, offset⟩

theorem localMillis_lt (m lead : Int) : localMillis m lead < 86400000 := by
  unfold localMillis
  omega

theorem localDay_zero (m : Int) : localDay m 0 = m / 86400000 := by
  rw [localDay, Int.mul_zero, Int.add_zero]

/-- The days from 1 January 0 to 31 December 9999. -/
theorem bounds_of_hasFourDigits {n : Int} (h : HasFourDigits n) : -719528 ≤ n ∧ n < 2932897 := by
  have hle := yearStart_yearOf_le n
  have hlt := lt_yearStart_yearOf n
  have hfirst : yearStart 0 ≤ yearStart (yearOf n) := yearStart_mono h.1
  have hlast : yearStart (yearOf n + 1) ≤ yearStart (9999 + 1) :=
    yearStart_mono (Int.add_le_add_right h.2 1)
  exact ⟨Int.le_trans hfirst hle, Int.lt_of_lt_of_le hlt hlast⟩

theorem inRange_of_hasFourDigits {n : Int} (h : HasFourDigits n) : inRange n = true := by
  obtain ⟨hfirst, hlast⟩ := bounds_of_hasFourDigits h
  have hmin : minDay ≤ -719528 := by decide
  have hmax : 2932897 ≤ maxDay := by decide
  rw [inRange, Bool.and_eq_true, decide_eq_true_eq, decide_eq_true_eq]
  omega

theorem ofFields?_of_hasFourDigits {n : Int} (h : HasFourDigits n) :
    ofFields? (ofDay n).year (ofDay n).month (ofDay n).day = some (ofDay n) :=
  ofFields?_ofDay (Int.le_trans (by decide) h.1) (Int.le_trans h.2 (by decide))

/-- The fields name the day they were taken from. -/
theorem date?_stampAt {named : Option Nat} {n : Int} (p : Precision) (t : Nat) (offset : Int)
    (h : HasFourDigits n) (hn : named = none ∨ named = some (weekday n)) :
    (stampAt named n p t offset).date? = some n := by
  rcases hn with rfl | rfl <;>
    simp [Stamp.date?, stampAt, ofFields?_of_hasFourDigits h, toDay_ofDay]

/-- The fields name a time of the day, not after the one they were taken from, and the same if they
have the seconds. -/
theorem clock?_stampAt (named : Option Nat) (n : Int) (p : Precision) {t : Nat} (offset : Int)
    (ht : t < 86400000) :
    ∃ s, (stampAt named n p t offset).clock? = some (s, p.nanos t) ∧
      (s = t / 1000 ∨ s = t / 60000 * 60) := by
  have hhour : t / 3600000 < 24 := by omega
  have hminute : t / 60000 % 60 < 60 := by omega
  have hsecond : p.second t < 60 := by cases p <;> simp only [Precision.second] <;> omega
  have hleap : p.second t ≠ 60 := Nat.ne_of_lt hsecond
  refine ⟨60 * (60 * (t / 3600000) + t / 60000 % 60) + p.second t, ?_, ?_⟩
  · simp [Stamp.clock?, stampAt, hhour, hminute, Nat.le_of_lt hsecond, hleap]
  · cases p <;> simp only [Precision.second] <;> omega

/-- **The fields name an instant of the day that was meant**, whichever clock they come from. -/
theorem exists_instant_stampAt {m lead : Int} {named : Option Nat} (p : Precision)
    (hm : HasFourDigits (m / 86400000)) (hc : IsClock m lead)
    (hn : named = none ∨ named = some (weekday (localDay m lead))) :
    ∃ i, (stampAt named (localDay m lead) p (localMillis m lead) (60 * lead)).instant? = some i ∧
      i.day = m / 86400000 := by
  obtain ⟨hmin, hmax, hyear⟩ := hc
  obtain ⟨s, hclock, hs⟩ :=
    clock?_stampAt named (localDay m lead) p (60 * lead) (localMillis_lt m lead)
  have hdate := date?_stampAt p (localMillis m lead) (60 * lead) hyear hn
  have hday : (localDay m lead * secondsPerDay + s - 60 * lead) / secondsPerDay = m / 86400000 := by
    unfold localDay secondsPerDay
    unfold localMillis at hs
    omega
  have hoffset : -secondsPerDay < 60 * lead ∧ 60 * lead < secondsPerDay := by
    unfold secondsPerDay
    omega
  refine ⟨⟨localDay m lead * secondsPerDay + s - 60 * lead, p.nanos (localMillis m lead)⟩, ?_, hday⟩
  simp only [Stamp.instant?, hdate, hclock]
  rw [show (stampAt named (localDay m lead) p (localMillis m lead) (60 * lead)).offset = 60 * lead
    from rfl, hday]
  simp [hoffset, inRange_of_hasFourDigits hm]

/-! ### Parts of a text -/

section Bounds

variable {n : Int} {t : Nat}

theorem year_lt (h : HasFourDigits n) : (ofDay n).year.toNat < Nat.pow 10 4 := by
  have := h.1
  have := h.2
  show (ofDay n).year.toNat < 10000
  omega

theorem month_lt (n : Int) : (ofDay n).month < Nat.pow 10 2 := by
  have := fields_ofDay n
  show (ofDay n).month < 100
  omega

theorem day_lt (n : Int) : (ofDay n).day < Nat.pow 10 2 := by
  have := fields_ofDay n
  show (ofDay n).day < 100
  omega

theorem hour_lt (ht : t < 86400000) : t / 3600000 < Nat.pow 10 2 := by
  show t / 3600000 < 100
  omega

theorem minute_lt (t : Nat) : t / 60000 % 60 < Nat.pow 10 2 := by
  show t / 60000 % 60 < 100
  omega

theorem second_lt (t : Nat) : t / 1000 % 60 < Nat.pow 10 2 := by
  show t / 1000 % 60 < 100
  omega

end Bounds

theorem leadHours_lt {lead : Int} (hmin : -1440 < lead) (hmax : lead < 1440) :
    lead.natAbs / 60 < Nat.pow 10 2 := by
  show lead.natAbs / 60 < 100
  omega

theorem leadMinutes_lt (lead : Int) : lead.natAbs % 60 < Nat.pow 10 2 := by
  show lead.natAbs % 60 < 100
  omega

/-- Sign, hours and minutes make up the offset in seconds. -/
theorem value_lead (lead : Int) :
    (if leadSign lead = '+' then 1 else -1)
        * (3600 * ((lead.natAbs / 60 : Nat) : Int) + 60 * ((lead.natAbs % 60 : Nat) : Int))
      = 60 * lead := by
  by_cases h : lead < 0
  · rw [show leadSign lead = '-' from if_pos h, if_neg (by decide)]
    omega
  · rw [show leadSign lead = '+' from if_neg h, if_pos rfl]
    omega

theorem leadSign_eq (lead : Int) : leadSign lead = '+' ∨ leadSign lead = '-' := by
  unfold leadSign
  split_ifs <;> simp

theorem toList_dayText (n : Int) (r : List Char) :
    (dayText n).toList ++ r
      = (padded 4 (ofDay n).year.toNat).toList ++ '-' :: ((padded 2 (ofDay n).month).toList ++
          '-' :: ((padded 2 (ofDay n).day).toList ++ r)) := by
  simp [dayText]

theorem toList_minutesText (t : Nat) (r : List Char) :
    (minutesText t).toList ++ r
      = (padded 2 (t / 3600000)).toList ++ ':' :: ((padded 2 (t / 60000 % 60)).toList ++ r) := by
  simp [minutesText]

theorem toList_clockText (p : Precision) (t : Nat) (r : List Char) :
    (clockText p t).toList ++ r = (minutesText t).toList ++ ((p.text t).toList ++ r) := by
  simp [clockText]

theorem toList_text {p : Precision} (hp : p ≠ .minutes) (t : Nat) (r : List Char) :
    (p.text t).toList ++ r
      = ':' :: ((padded 2 (t / 1000 % 60)).toList ++ ((p.fractionText t).toList ++ r)) := by
  cases p with
  | minutes => exact absurd rfl hp
  | seconds | millis => simp [Precision.text]

theorem second_eq {p : Precision} (hp : p ≠ .minutes) (t : Nat) :
    p.second t = t / 1000 % 60 := by
  cases p with
  | minutes => exact absurd rfl hp
  | seconds | millis => rfl

/-- A text that ends a number and has no fraction for it. -/
def Ends (r : List Char) : Prop := Stops r ∧ r.head? ≠ some '.'

/-- The fraction is read as it is written. -/
theorem fraction_fractionText (p : Precision) (t : Nat) {r : List Char} (hr : Ends r) :
    fraction ((p.fractionText t).toList ++ r) = some (p.nanos t, r) := by
  cases p with
  | minutes | seconds => exact fraction_of_ne hr.2
  | millis =>
    have hlength : (padded 3 (t % 1000)).toList.length = 3 :=
      length_padded (by decide) (Nat.mod_lt t (by decide))
    have hpos : (padded 3 (t % 1000)).toList ≠ [] := by
      intro h
      rw [h] at hlength
      cases hlength
    have hpoint : (Precision.millis.fractionText t).toList ++ r
        = '.' :: ((padded 3 (t % 1000)).toList ++ r) := by simp [Precision.fractionText]
    rw [hpoint, fraction_append (isNumeral_padded 3 _) hpos (by omega) hr.1, hlength]
    rfl

end Herald.Time

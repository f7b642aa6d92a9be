/-!
# The Gregorian calendar

Days are counted from 1 January 1970, day `0`, in both directions; the calendar is extended to all
years, the year before the year `1` being the year `0`.

* `Date`: year, month and day of the month;
* `Date.toDay`, `Date.ofDay`: the day of a date, and the date of a day;
* `Date.ofFields?`: a date that exists and lies in the range;
* `weekday`: the day of the week;
* `Date.text`: a date as it is shown, such as `Tue Mar 05 2024`.
-/

namespace Herald.Time

/-- A day of the calendar. Months and days count from `1`. -/
structure Date where
  year : Int
  month : Nat
  day : Nat
  deriving DecidableEq, Repr

/-- A year with a 29 February. -/
def isLeap (y : Int) : Bool := y % 4 == 0 && (y % 100 != 0 || y % 400 == 0)

/-- The lengths of the twelve months. -/
def monthLengths (y : Int) : List Nat :=
  [31, if isLeap y then 29 else 28, 31, 30, 31, 30, 31, 31, 30, 31, 30, 31]

/-- The day on which a year begins. -/
def yearStart (y : Int) : Int :=
  365 * (y - 1) + (y - 1) / 4 - (y - 1) / 100 + (y - 1) / 400 - 719162

/-- The year to which a day belongs. The mean length of a year gives it up to one. -/
def yearOf (n : Int) : Int :=
  let y := (n + 719162) * 400 / 146097 + 1
  if n < yearStart y then y - 1 else if yearStart (y + 1) ≤ n then y + 1 else y

/-- Month and day of the month of the `i`-th day of a list of months, counted from `0`; `m` is the
first month. -/
def locate (m : Nat) : List Nat → Nat → Nat × Nat
  | [], i => (m, i + 1)
  | l :: ls, i => if i < l then (m, i + 1) else locate (m + 1) ls (i - l)

/-- The day of the week, `0` for Monday. -/
def weekday (n : Int) : Nat := ((n + 3) % 7).toNat

namespace Date

/-- The first and the last year of the range. -/
def minYear : Int := -262143

/-- The last year of the range. -/
def maxYear : Int := 262142

/-- The days of a month that exists. -/
def monthLength? (y : Int) (m : Nat) : Option Nat :=
  if m = 0 then none else (monthLengths y)[m - 1]?

/-- The date with these fields, if the calendar has it and its year lies in the range. -/
def ofFields? (y : Int) (m d : Nat) : Option Date :=
  match monthLength? y m with
  | some l =>
    if minYear ≤ y && y ≤ maxYear && 1 ≤ d && d ≤ l then some ⟨y, m, d⟩ else none
  | none => none

/-- The day of a date. -/
def toDay (d : Date) : Int :=
  let before : Nat := ((monthLengths d.year).take (d.month - 1)).foldl (· + ·) 0
  yearStart d.year + before + (d.day : Int) - 1

/-- The date of a day. -/
def ofDay (n : Int) : Date :=
  let y := yearOf n
  let (m, d) := locate 1 (monthLengths y) (n - yearStart y).toNat
  ⟨y, m, d⟩

/-- The first day of the range. -/
def minDay : Int := yearStart minYear

/-- The last day of the range. -/
def maxDay : Int := yearStart (maxYear + 1) - 1

/-- Whether a day lies in the range. -/
def inRange (n : Int) : Bool := minDay ≤ n && n ≤ maxDay

/-- The short names of the days of the week. -/
def weekdayNames : List String := ["Mon", "Tue", "Wed", "Thu", "Fri", "Sat", "Sun"]

/-- The short names of the months. -/
def monthNames : List String :=
  ["Jan", "Feb", "Mar", "Apr", "May", "Jun", "Jul", "Aug", "Sep", "Oct", "Nov", "Dec"]

/-- A number with zeros in front up to a width. -/
def padded (width n : Nat) : String :=
  let s := toString n
  "".pushn '0' (width - s.length) ++ s

/-- A year: four digits at least, with a sign outside the years of four digits. -/
def yearText (y : Int) : String :=
  if 0 ≤ y && y < 10000 then padded 4 y.toNat
  else (if y < 0 then "-" else "+") ++ padded 4 y.natAbs

/-- A day as it is shown: weekday, month, day of the month and year. -/
def text (n : Int) : String :=
  let d := ofDay n
  weekdayNames.getD (weekday n) "" ++ " " ++ monthNames.getD (d.month - 1) "" ++ " "
    ++ padded 2 d.day ++ " " ++ yearText d.year

example : toDay ⟨1970, 1, 1⟩ = 0 := by decide
example : ofDay 19787 = ⟨2024, 3, 5⟩ := by decide
example : text (-719528) = "Sat Jan 01 0000" := by decide +kernel

end Date

end Herald.Time

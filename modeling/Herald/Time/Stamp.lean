import Herald.Time.Calendar

/-!
# Instants

* `Instant`: seconds from the beginning of 1970 in UTC, and billionths of a second;
* `Stamp`: the fields of a written time;
* `Stamp.instant?`: the instant it names, if the calendar and the clock have it.
-/

namespace Herald.Time

/-- A point in time. During a leap second the seconds stand still and the billionths go on from
`10 ^ 9`. -/
structure Instant where
  seconds : Int
  nanos : Nat
  deriving DecidableEq, Repr

/-- Seconds of a day. -/
def secondsPerDay : Int := 86400

/-- The day of an instant. -/
def Instant.day (t : Instant) : Int := t.seconds / secondsPerDay

/-- The fields of a written time. `offset` is the lead over UTC in seconds, `weekday` counts from
Monday. -/
structure Stamp where
  weekday : Option Nat
  year : Int
  month : Nat
  day : Nat
  hour : Nat
  minute : Nat
  second : Nat
  nanos : Nat
  offset : Int
  deriving DecidableEq, Repr

namespace Stamp

/-- The beginning of a day of no month yet, for scanners that fill in one field after another. -/
def blank : Stamp := ⟨none, 0, 0, 0, 0, 0, 0, 0, 0⟩

/-- The seconds of the day, the sixtieth second of a minute standing for a leap second. -/
def clock? (t : Stamp) : Option (Nat × Nat) :=
  if t.hour < 24 && t.minute < 60 && t.second ≤ 60 then
    let minutes := 60 * t.hour + t.minute
    if t.second = 60 then some (60 * minutes + 59, Nat.pow 10 9 + t.nanos)
    else some (60 * minutes + t.second, t.nanos)
  else none

/-- The day, if the calendar has it and it is the weekday that is named, if one is. -/
def date? (t : Stamp) : Option Int :=
  match Date.ofFields? t.year t.month t.day with
  | some d =>
    let n := d.toDay
    if t.weekday.all (· == Time.weekday n) then some n else none
  | none => none

/-- The instant that a written time names. It lies less than a day off UTC, and in the range also
once that is taken off. -/
def instant? (t : Stamp) : Option Instant :=
  match t.date?, t.clock? with
  | some n, some (s, nanos) =>
    let seconds := n * secondsPerDay + s - t.offset
    if -secondsPerDay < t.offset && t.offset < secondsPerDay
        && Date.inRange (seconds / secondsPerDay) then
      some ⟨seconds, nanos⟩
    else none
  | _, _ => none

end Stamp

end Herald.Time

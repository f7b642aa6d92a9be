import Herald.Json.Value
import Herald.Notice
import Herald.Time.Internet
import Herald.Time.Mail
import Herald.Time.Pattern

/-!
# Timestamps

* `readings`: the ways to read a timestamp, in the order they are tried;
* `timestamp?`: the instant of a timestamp;
* `dateText`, `dateTextOfValue`: the day of a timestamp as it is shown.
-/

namespace Herald.Time

open Json

/-- The text without one letter for UTC at its end. -/
def dropZone (s : List Char) : List Char :=
  match s.getLast? with
  | some 'Z' | some 'z' => s.dropLast
  | _ => s

/-- The ways to read a timestamp without blanks around it. -/
def readings : List (List Char → Option Instant) :=
  [Internet.instant?, Mail.instant?]
    ++ Pattern.localTimes.map (fun p s => p.instant? (dropZone s))
    ++ [Pattern.date.instant?]

/-- The instant of a timestamp: that of the first way to read it. -/
def timestamp? (s : String) : Option Instant :=
  readings.findSome? (· (Text.trim s.toList))

/-- What is shown for a date that cannot be read. -/
def invalidDate : String := "Invalid Date"

/-- The day of a timestamp as it is shown. -/
def dateText (s : String) : Noted String :=
  match timestamp? s with
  | some t => pure (Date.text t.day)
  | none => do
    Noted.give (.unparseableDate s)
    pure invalidDate

/-- The day of a number of milliseconds since the beginning of 1970, if it lies in the range. -/
def dayOfMillis? (ms : Int) : Option Int :=
  let n := ms / 86400000
  if Date.inRange n then some n else none

/-- The day that a value stands for, as it is shown: a string is a timestamp, an integer counts
milliseconds. -/
def dateTextOfValue : Value → Noted String
  | .string s => dateText s
  | .number n =>
    match n.signed?.bind dayOfMillis? with
    | some day => pure (Date.text day)
    | none => pure invalidDate
  | _ => pure invalidDate

end Herald.Time

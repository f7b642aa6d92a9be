import Herald.Time.Scanner
import Herald.Time.Stamp

/-!
# Times written by a pattern

* `Item`: a field of a time, or a mark between two fields;
* `Pattern.scan`: a text that follows a pattern;
* `Pattern.localTimes`, `Pattern.date`: the patterns of times without an offset, and of bare days.

Blanks may stand in front of any number. A year has up to four digits, or any number of them after a
sign; the other numbers have one or two.
-/

namespace Herald.Time

/-- One part of a pattern. -/
inductive Item
  | year
  | month
  | day
  | hour
  | minute
  | second
  /-- The fraction of a second with its point, if there is one. -/
  | fraction
  /-- Any blanks, also none. -/
  | blanks
  | mark (c : Char)
  deriving DecidableEq, Repr

/-- A way to write a time. -/
abbrev Pattern := List Item

namespace Item

/-- A year. -/
def scanYear : Scanner Int := do
  Scanner.blanks
  fun s =>
    match s with
    | '-' :: s => (Scanner.digitRun 1 none s).map fun (ds, r) => (-(Scanner.value ds : Int), r)
    | '+' :: s => (Scanner.digitRun 1 none s).map fun (ds, r) => ((Scanner.value ds : Int), r)
    | s => (Scanner.digitRun 1 (some 4) s).map fun (ds, r) => ((Scanner.value ds : Int), r)

/-- A number of one or two digits. -/
def scanShort : Scanner Nat := do
  Scanner.blanks
  Scanner.number 1 2

/-- Fill in one part of a time. -/
def scan (t : Stamp) : Item → Scanner Stamp
  | .year => do return { t with year := ← scanYear }
  | .month => do return { t with month := ← scanShort }
  | .day => do return { t with day := ← scanShort }
  | .hour => do return { t with hour := ← scanShort }
  | .minute => do return { t with minute := ← scanShort }
  | .second => do return { t with second := ← scanShort }
  | .fraction => do return { t with nanos := ← Scanner.fraction }
  | .blanks => do
    Scanner.blanks
    return t
  | .mark c => do
    Scanner.mark c
    return t

end Item

namespace Pattern

/-- Fill in the parts of a time one after another. -/
def scan (t : Stamp) : Pattern → Scanner Stamp
  | [] => pure t
  | i :: is => do
    let t ← i.scan t
    scan t is

/-- The instant of a text that follows the pattern, read in UTC. -/
def instant? (p : Pattern) (s : List Char) : Option Instant :=
  ((p.scan .blank).whole s).bind Stamp.instant?

/-- A day. -/
def date : Pattern := [.year, .mark '-', .month, .mark '-', .day]

/-- A time of the day up to the minute. -/
def minutes : Pattern := [.hour, .mark ':', .minute]

/-- A time of the day with seconds. -/
def seconds : Pattern := minutes ++ [.mark ':', .second, .fraction]

/-- Times without an offset: day and time of the day, parted by the letter or by blanks. -/
def localTimes : List Pattern :=
  [date ++ [.mark 'T'] ++ seconds, date ++ [.mark 'T'] ++ minutes,
    date ++ [.blanks] ++ seconds, date ++ [.blanks] ++ minutes]

end Pattern

end Herald.Time

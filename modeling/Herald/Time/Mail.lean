import Herald.Time.Scanner
import Herald.Time.Stamp

/-!
# Times by RFC 2822

The form of mail headers, such as `Tue, 5 Mar 2024 17:00:00 +0000`. The weekday may be left out, and
so may the seconds; comments in parentheses may follow.
-/

namespace Herald.Time.Mail

open Scanner

/-- The weekday with its comma, if one is in front. A weekday without a comma is refused. -/
def weekday : Scanner (Option Nat) := fun s =>
  match name Date.weekdayNames s with
  | some (i, ',' :: r) => some (some i, r)
  | some _ => none
  | none => some (none, s)

/-- A year. Years of two digits lie in 1950 to 2049, those of three digits count from 1900. -/
def year : Scanner Nat := do
  let ds ← digitRun 2 none
  let y := value ds
  pure <|
    if ds.length = 2 then (if y < 50 then y + 2000 else y + 1900)
    else if ds.length = 3 then y + 1900
    else y

/-- The colon and the seconds, if they follow. -/
def second : Scanner Nat := fun s =>
  match Text.dropBlanks s with
  | ':' :: r => number 2 2 r
  | _ => some (0, s)

/-- The named zones and their hours. -/
def zoneHours : List (String × Int) :=
  [("gmt", 0), ("ut", 0), ("z", 0), ("edt", -4), ("est", -5), ("cdt", -5), ("cst", -6),
    ("mdt", -6), ("mst", -7), ("pdt", -7), ("pst", -8)]

/-- The lead of a named zone. A single letter other than `J` says nothing and stands for UTC. -/
def namedZone? (letters : List Char) : Option Int :=
  let n := letters.map Char.toLower
  match zoneHours.find? (fun z => z.1.toList == n) with
  | some z => some (3600 * z.2)
  | none => if n.length = 1 && n != ['j'] then some 0 else none

/-- An offset of four digits with a sign. -/
def offset : Scanner Int := do
  let c ← oneOf ['+', '-']
  let h ← number 2 2
  let m ← number 2 2
  if m < 60 then pure ((if c = '+' then 1 else -1) * (3600 * h + 60 * m)) else refuse

/-- A zone. -/
def zone : Scanner Int := fun s =>
  match s.span Char.isAlpha with
  | ([], _) => offset s
  | (letters, r) => (namedZone? letters).map (·, r)

/-- The text after a comment with `depth` more parentheses open than its own. A backslash hides the
character after it. -/
def closeComment (depth : Nat) (hidden : Bool) : List Char → Option (List Char)
  | [] => none
  | c :: s =>
    if hidden then closeComment depth false s
    else if c = '\\' then closeComment depth true s
    else if c = '(' then closeComment (depth + 1) false s
    else if c = ')' then if depth = 0 then some s else closeComment (depth - 1) false s
    else closeComment depth false s

/-- The text after some comments at most. -/
def dropComments : Nat → List Char → List Char
  | 0, s => s
  | most + 1, s =>
    match Text.dropBlanks s with
    | '(' :: r =>
      match closeComment 0 false r with
      | some r => dropComments most r
      | none => s
    | _ => s

/-- Pass over the comments in front; there are fewer of them than characters. -/
def comments : Scanner Unit := fun s => some ((), dropComments s.length s)

/-- A time. -/
def stamp : Scanner Stamp := do
  blanks
  let weekday ← weekday
  blanks
  let day ← number 1 2
  someBlanks
  let month ← name Date.monthNames
  someBlanks
  let year ← year
  someBlanks
  let hour ← number 2 2
  blanks
  mark ':'
  blanks
  let minute ← number 2 2
  let second ← second
  someBlanks
  let offset ← zone
  pure ⟨weekday, year, month + 1, day, hour, minute, second, 0, offset⟩

/-- A time and the comments after it. -/
def commented : Scanner Stamp := do
  let t ← stamp
  comments
  pure t

/-- The instant of a text of this form. -/
def instant? (s : List Char) : Option Instant := (commented.whole s).bind Stamp.instant?

end Herald.Time.Mail

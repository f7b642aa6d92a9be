import Herald.Time.Scanner
import Herald.Time.Stamp

/-!
# Times by RFC 3339

Fields of fixed width with an offset, such as `2024-03-05T17:00:00.000Z`.
-/

namespace Herald.Time.Internet

open Scanner

/-- A number of two digits. -/
def two : Scanner Nat := number 2 2

/-- A sign: plus, hyphen or minus. -/
def sign : Scanner Int := do
  let c ← oneOf ['+', '-', '−']
  pure (if c = '+' then 1 else -1)

/-- An offset from UTC, or the letter for none. -/
def zone : Scanner Int := fun s =>
  match oneOf ['Z', 'z'] s with
  | some (_, r) => some (0, r)
  | none =>
    (do
      let g ← sign
      let h ← two
      mark ':'
      let m ← two
      if m < 60 then pure (g * (3600 * h + 60 * m)) else refuse : Scanner Int) s

/-- A time. -/
def stamp : Scanner Stamp := do
  let year ← number 4 4
  mark '-'
  let month ← two
  mark '-'
  let day ← two
  let _ ← oneOf ['T', 't', ' ']
  let hour ← two
  mark ':'
  let minute ← two
  mark ':'
  let second ← two
  let nanos ← fraction
  let offset ← zone
  pure ⟨none, year, month, day, hour, minute, second, nanos, offset⟩

/-- The instant of a text of this form. -/
def instant? (s : List Char) : Option Instant := (stamp.whole s).bind Stamp.instant?

end Herald.Time.Internet

import Herald.Text.Blank

/-!
# Scanning the text of a time

* `Scanner`: takes something from the front of a text, or refuses it;
* `number`, `fraction`, `mark`, `blanks`: the parts of a time;
* `Scanner.whole`: a text that is taken up to its end.
-/

namespace Herald.Time

/-- Takes something from the front of a text, or refuses the text. -/
abbrev Scanner := StateT (List Char) Option

namespace Scanner

variable {α : Type}

/-- Refuse the text. -/
def refuse : Scanner α := fun _ => none

/-- What the scanner takes, if it takes the whole text. -/
def whole (p : Scanner α) (s : List Char) : Option α :=
  match p s with
  | some (a, []) => some a
  | _ => none

/-- Take one character. -/
def mark (c : Char) : Scanner Unit
  | x :: s => if x = c then some ((), s) else none
  | [] => none

/-- Take one of some characters. -/
def oneOf (cs : List Char) : Scanner Char
  | x :: s => if cs.contains x then some (x, s) else none
  | [] => none

/-- Take the blanks in front, if any. -/
def blanks : Scanner Unit := fun s => some ((), Text.dropBlanks s)

/-- Take the blanks in front, one at least. -/
def someBlanks : Scanner Unit
  | c :: s => if Text.isBlank c then some ((), Text.dropBlanks s) else none
  | [] => none

/-- The value of a decimal digit. -/
def digit? (c : Char) : Option Nat :=
  if c.isDigit then some (c.toNat - '0'.toNat) else none

/-- The digits in front of a text, `most` at most where that is given. -/
def digits (most : Option Nat) : List Char → List Nat × List Char
  | [] => ([], [])
  | c :: s =>
    match most, digit? c with
    | some 0, _ => ([], c :: s)
    | _, none => ([], c :: s)
    | _, some d =>
      let (ds, r) := digits (most.map (· - 1)) s
      (d :: ds, r)

/-- The number that digits spell. -/
def value (ds : List Nat) : Nat := ds.foldl (fun n d => 10 * n + d) 0

/-- Take a run of digits, `least` at least. -/
def digitRun (least : Nat) (most : Option Nat) : Scanner (List Nat) := fun s =>
  let (ds, r) := digits most s
  if least ≤ ds.length then some (ds, r) else none

/-- Take a number of `least` to `most` digits. -/
def number (least most : Nat) : Scanner Nat := do
  let ds ← digitRun least (some most)
  pure (value ds)

/-- Take the billionths of a second after a point, if there is one. A point has a digit after it;
digits after the ninth count for nothing. -/
def fraction : Scanner Nat
  | '.' :: s =>
    match digits none s with
    | ([], _) => none
    | (ds, r) =>
      let ds := ds.take 9
      some (value ds * Nat.pow 10 (9 - ds.length), r)
  | s => some (0, s)

/-- Take one of some names of three letters, in either case; the result is its place. Only letters from
`A` to `Z` have two cases here. -/
def name (names : List String) : Scanner Nat
  | a :: b :: c :: s =>
    match names.findIdx? (fun n => n.toList.map Char.toLower == [a, b, c].map Char.toLower) with
    | some i => some (i, s)
    | none => none
  | _ => none

end Scanner

end Herald.Time

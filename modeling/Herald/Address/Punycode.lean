/-!
# Punycode

* `encode`: a label of a host name in ASCII;
* `decode`: the label that such a text stands for.

The ASCII characters of a label come first, then a hyphen, then one number for each other character.
The others are inserted in ascending order, and the number says how many places are passed over
since the last insertion, where the places of one code point after another are counted through.
A number is written in digits to the base 36, the lowest first; a digit below its threshold ends it,
and the thresholds follow the size of the numbers so far, the bias.
-/

namespace Herald.Address.Punycode

/-- A letter stands for its place in the alphabet, and the ten digits come after the letters. -/
def digit (n : Nat) : Char :=
  if n < 26 then Char.ofNat ('a'.toNat + n) else Char.ofNat ('0'.toNat + (n - 26))

/-- The value of a digit. -/
def value? (c : Char) : Option Nat :=
  if 'a' ≤ c ∧ c ≤ 'z' then some (c.toNat - 'a'.toNat)
  else if 'A' ≤ c ∧ c ≤ 'Z' then some (c.toNat - 'A'.toNat)
  else if '0' ≤ c ∧ c ≤ '9' then some (c.toNat - '0'.toNat + 26)
  else none

/-- The threshold of the digit at a place; places are counted 36, 72, 108 and so on. -/
def threshold (bias place : Nat) : Nat := min 26 (max 1 (place - bias))

theorem threshold_pos (bias place : Nat) : 1 ≤ threshold bias place := by
  unfold threshold; omega

/-- The bias for a number that is scaled down until it is at most 455. -/
def scaled (n bias : Nat) : Nat :=
  if 455 < n then scaled (n / 35) (bias + 36) else bias + 36 * n / (n + 38)
termination_by n
decreasing_by exact Nat.div_lt_self (by omega) (by omega)

/-- The bias after a number, when `count` characters have been placed. -/
def adapt (number count : Nat) (first : Bool) : Nat :=
  let n := if first then number / 700 else number / 2
  scaled (n + n / count) 0

/-- The digits of a number. -/
def digits (bias place n : Nat) : List Char :=
  let t := threshold bias place
  if n < t then [digit n]
  else digit (t + (n - t) % (36 - t)) :: digits bias (place + 36) ((n - t) / (36 - t))
termination_by n
decreasing_by
  have h := threshold_pos bias place
  exact Nat.lt_of_le_of_lt (Nat.div_le_self _ _) (by omega)

/-- A label that is being written: the numbers so far, the places passed over since the last one,
and how many characters have been placed. -/
structure Writing where
  text : List Char
  number : Nat
  bias : Nat
  count : Nat

namespace Writing

/-- Pass by one character of the label on the way to the places of a code point: one that is there
already counts as a place, and the code point itself is inserted. -/
def pass (basic point : Nat) (w : Writing) (c : Char) : Writing :=
  if c.toNat < point then { w with number := w.number + 1 }
  else if c.toNat = point then
    { text := w.text ++ digits w.bias 36 w.number
      number := 0
      bias := adapt w.number (w.count + 1) (w.count == basic)
      count := w.count + 1 }
  else w

/-- Insert the code points, from the least place of code point `next` on. -/
def insert (label : List Char) (basic : Nat) : List Nat → Nat → Writing → Writing
  | [], _, w => w
  | p :: ps, next, w =>
    let w := label.foldl (pass basic p) { w with number := w.number + (p - next) * (w.count + 1) }
    insert label basic ps (p + 1) { w with number := w.number + 1 }

end Writing

/-- An ASCII character. -/
def isBasic (c : Char) : Bool := c.toNat < 0x80

/-- A label in ASCII. -/
def encode (label : List Char) : List Char :=
  let basic := label.filter isBasic
  let points := ((label.filter (!isBasic ·)).map Char.toNat).eraseDups.mergeSort
  let hyphen := if basic.isEmpty then [] else ['-']
  let w := Writing.insert label basic.length points 0x80 ⟨[], 0, 72, basic.length⟩
  basic ++ hyphen ++ w.text

/-- A label that is being read: the characters placed so far, the code point and the place of the
last insertion, the bias, and the number that is being read with the place and the weight of its
next digit. -/
structure Reading where
  label : List Char
  point : Nat
  position : Nat
  bias : Nat
  number : Nat
  place : Nat
  weight : Nat

namespace Reading

/-- The end of a number: a character is inserted. -/
def place? (r : Reading) (number : Nat) : Option Reading :=
  let count := r.label.length + 1
  let point := r.point + (r.position + number) / count
  let position := (r.position + number) % count
  if point.isValidChar then
    some ⟨r.label.insertIdx position (Char.ofNat point), point, position + 1,
      adapt number count (r.position == 0), 0, 36, 1⟩
  else none

/-- Read one digit. -/
def step? (r : Reading) (c : Char) : Option Reading := do
  let d ← value? c
  let number := r.number + d * r.weight
  let t := threshold r.bias r.place
  if d < t then r.place? number
  else some { r with number, place := r.place + 36, weight := r.weight * (36 - t) }

end Reading

/-- The label that a text stands for. The last hyphen ends the ASCII characters. -/
def decode (text : List Char) : Option (List Char) := do
  let basic := ((text.reverse.dropWhile (· != '-')).drop 1).reverse
  let rest := (text.reverse.takeWhile (· != '-')).reverse
  let r ← rest.foldlM Reading.step? ⟨basic, 0x80, 0, 72, 0, 36, 1⟩
  if r.place = 36 then some r.label else none

example : encode "bücher".toList = "bcher-kva".toList := by decide +kernel
example : decode "bcher-kva".toList = some "bücher".toList := by decide +kernel

end Herald.Address.Punycode

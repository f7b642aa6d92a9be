import Herald.Decimal.Shortest

/-!
# Numbers

* `Number`: an integer, or a binary64 number with a sign;
* `Numeral`: a number as it is spelled;
* `Numeral.toNumber?`: the number a numeral stands for, `none` beyond the range;
* `Number.text`: the spelling that is written.

Integers keep their value where 64 bits hold it. Any other numeral is read the fast way: as many
digits as fit 64 bits, then one rounded multiplication or division by a power of ten.
-/

namespace Herald.Json

/-- A number. -/
inductive Number
  | integer (value : Int)
  | float (negative : Bool) (magnitude : Binary64)
  deriving DecidableEq, Repr

/-- A number as it is spelled. The digits are listed from the first on; `fraction` is empty without a
point, `exponent` absent without a mark. -/
structure Numeral where
  negative : Bool
  whole : List Nat
  fraction : List Nat
  exponent : Option Int
  deriving DecidableEq, Repr

namespace Numeral

/-- The bound of the digits that are kept. -/
def capacity : Nat := Nat.pow 2 64

/-- Append digits to a number while the result stays below the capacity; the rest is left over. -/
def accumulate (n : Nat) : List Nat → Nat × List Nat
  | [] => (n, [])
  | d :: ds => if 10 * n + d < capacity then accumulate (10 * n + d) ds else (n, d :: ds)

/-- The digits that are kept, as a number, and its power of ten. A whole digit that is left over
counts in the power; a digit of the fraction that is left over counts for nothing. -/
def significand (n : Numeral) : Nat × Int :=
  let (kept, left) := accumulate 0 n.whole
  let (kept', left') := accumulate kept n.fraction
  (kept', (left.length : Int) - ((n.fraction.length : Int) - left'.length))

/-- Multiply by a power of ten, in one rounded step where `10 ^ 308` bounds it and in two below. -/
def scale? (n : Nat) (power : Int) : Option Binary64 :=
  let b := Binary64.ofNat n
  if n = 0 then some Binary64.zero
  else if 308 < power then none
  else if 0 ≤ power then b.mul? (Binary64.powerOfTen power.toNat)
  else if -308 ≤ power then some (b.div (Binary64.powerOfTen (-power).toNat))
  else if -616 ≤ power then
    some ((b.div (Binary64.powerOfTen 308)).div (Binary64.powerOfTen (-power - 308).toNat))
  else some Binary64.zero

/-- The integer, if the numeral is spelled as one and 64 bits hold it. A negative zero is none. -/
def integer? (n : Numeral) : Option Int :=
  match n.fraction, n.exponent, accumulate 0 n.whole with
  | [], none, (kept, []) =>
    if n.negative then
      if 0 < kept && kept ≤ Nat.pow 2 63 then some (-(kept : Int)) else none
    else some kept
  | _, _, _ => none

/-- The number a numeral stands for. -/
def toNumber? (n : Numeral) : Option Number :=
  match n.integer? with
  | some i => some (.integer i)
  | none =>
    let (kept, power) := n.significand
    (scale? kept (power + n.exponent.getD 0)).map (.float n.negative)

end Numeral

namespace Number

/-- Numbers from `10 ^ -5` to below `10 ^ 16` are written without an exponent. -/
def layout : Layout := ⟨-5, 15⟩

/-- The spelling of a number. -/
def text : Number → String
  | .integer i => toString i
  | .float negative b => (if negative then "-" else "") ++ layout.text b.shortest

/-- The number as a natural number, if it is an integer from zero up. -/
def natural? : Number → Option Nat
  | .integer i => if 0 ≤ i then some i.toNat else none
  | .float .. => none

/-- The number as a signed word of 64 bits, if it is an integer that fits. -/
def signed? : Number → Option Int
  | .integer i => if -(Nat.pow 2 63 : Nat) ≤ i && i < (Nat.pow 2 63 : Nat) then some i else none
  | .float .. => none

end Number

example : (Numeral.mk false [1, 2] [5, 0] none).toNumber?.map Number.text = some "12.5" := by
  decide +kernel
example : (Numeral.mk true [0] [] none).toNumber?.map Number.text = some "-0.0" := by
  decide +kernel

end Herald.Json

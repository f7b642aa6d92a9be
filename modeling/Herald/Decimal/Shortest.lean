import Herald.Decimal.Binary64

/-!
# The fewest digits that read back

* `Decimal`: digits with a power of ten;
* `Binary64.shortest`: of the decimals that round to a given number, those with the fewest digits,
  and of these the nearest one, a tie going to the even digit;
* `Layout`, `Layout.text`: how such a decimal is spelled.

A decimal of `n` digits that rounds to the number exists exactly when one of the two neighbours of
the number on the grid of `n` digits does, so it is enough to test these.
-/

namespace Herald

/-- The number `digits * 10 ^ exponent`. -/
structure Decimal where
  digits : Nat
  exponent : Int
  deriving DecidableEq, Repr

namespace Binary64

/-- How many decimal digits a natural number has. -/
def digitCount (n : Nat) : Nat := (Nat.toDigits 10 n).length

/-- The power of ten of the first digit of `num / den`, for a positive numerator. -/
def leadingPower (num den : Nat) : Int :=
  if den ≤ num then (digitCount (num / den) : Int) - 1
  else -(digitCount ((den + num - 1) / num - 1) : Int)

/-- The decimals that round to a number: the fourfold mantissa of both ends of their interval, at a
quarter of its last place, and whether the ends belong to it. -/
structure Interval where
  low : Nat
  high : Nat
  closed : Bool

/-- The neighbour below is nearer where the mantissa is a power of two above the least. -/
def interval (b : Binary64) : Interval :=
  { low := if b.mantissa = Nat.pow 2 52 && minExponent < b.exponent then 4 * b.mantissa - 1
      else 4 * b.mantissa - 2
    high := 4 * b.mantissa + 2
    closed := b.mantissa % 2 == 0 }

/-- Whether the decimal `t * 10 ^ k` rounds to `b`: it is compared with both ends of the interval
over one common denominator. -/
def roundsTo (b : Binary64) (t : Nat) (k : Int) : Bool :=
  let i := b.interval
  -- `t * 10 ^ k` against `x * 2 ^ (exponent - 2)`
  let left := t * Nat.pow 10 k.toNat * Nat.pow 2 (2 - b.exponent).toNat
  let right (x : Nat) := x * Nat.pow 2 (b.exponent - 2).toNat * Nat.pow 10 (-k).toNat
  if i.closed then right i.low ≤ left && left ≤ right i.high
  else right i.low < left && left < right i.high

/-- The best decimal on the grid of multiples of `10 ^ k`, if one there rounds to `b`. -/
def onGrid? (b : Binary64) (k : Int) : Option Decimal :=
  let (num, den) := b.ratio
  let n := num * Nat.pow 10 (-k).toNat
  let d := den * Nat.pow 10 k.toNat
  let t := n / d
  let r := n % d
  match b.roundsTo t k, b.roundsTo (t + 1) k with
  | false, false => none
  | true, false => some ⟨t, k⟩
  | false, true => some ⟨t + 1, k⟩
  | true, true =>
    if 2 * r < d then some ⟨t, k⟩
    else if d < 2 * r then some ⟨t + 1, k⟩
    else some ⟨t + t % 2, k⟩

/-- The first hit on the grids of `n`, `n + 1`, … digits; seventeen digits always hit. -/
def shortestFrom (b : Binary64) (lead : Int) (n : Nat) : Nat → Decimal
  | 0 => ⟨b.mantissa, b.exponent⟩
  | fuel + 1 =>
    match b.onGrid? (lead + 1 - n) with
    | some d => d
    | none => shortestFrom b lead (n + 1) fuel

/-- The shortest decimal that rounds to the number. -/
def shortest (b : Binary64) : Decimal :=
  if b.mantissa = 0 then ⟨0, 0⟩ else
    let (num, den) := b.ratio
    shortestFrom b (leadingPower num den) 1 17

end Binary64

/-- How a decimal is spelled: the least and the greatest power of its first digit that are written
without an exponent. A whole number keeps one zero after its point, and an exponent has a sign. -/
structure Layout where
  leastPlain : Int
  greatestPlain : Int

namespace Layout

/-- A run of zeros. -/
def zeros (n : Nat) : String := "".pushn '0' n

/-- The digits without the zeros at their end, and how many these were. -/
def strip (ds : List Char) : List Char × Nat :=
  let r := ds.reverse
  ((r.dropWhile (· == '0')).reverse, (r.takeWhile (· == '0')).length)

/-- The spelling of a decimal. -/
def text (l : Layout) (d : Decimal) : String :=
  if d.digits = 0 then "0.0" else
    let (ds, cut) := strip (Nat.toDigits 10 d.digits)
    let lead : Int := (ds.length : Int) - 1 + cut + d.exponent
    if l.leastPlain ≤ lead && lead ≤ l.greatestPlain then
      if lead < 0 then "0." ++ zeros (-lead - 1).toNat ++ String.ofList ds
      else
        let whole := lead.toNat + 1
        let front := String.ofList (ds.take whole) ++ zeros (whole - ds.length)
        let back := ds.drop whole
        front ++ "." ++ (if back.isEmpty then "0" else String.ofList back)
    else
      let front := String.ofList (ds.take 1)
      let back := ds.drop 1
      let sign := if lead < 0 then "-" else "+"
      front ++ (if back.isEmpty then "" else "." ++ String.ofList back)
        ++ "e" ++ sign ++ toString lead.natAbs

end Layout

end Herald

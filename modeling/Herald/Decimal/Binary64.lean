/-!
# Binary64 magnitudes

A finite non-negative number of the binary64 format as mantissa and power of two, in exact
arithmetic.

* `Binary64`: `mantissa * 2 ^ exponent`;
* `ofRatio?`: the nearest such number to a quotient, ties to even, `none` beyond the range;
* `mul?`, `div`: the operations of the format, rounded once.
-/

namespace Herald

/-- The number `mantissa * 2 ^ exponent`. Numbers of the format have a mantissa below `2 ^ 53` and an
exponent from `-1074` to `971`; a mantissa below `2 ^ 52` occurs with the least exponent only. -/
structure Binary64 where
  mantissa : Nat
  exponent : Int
  deriving DecidableEq, Repr

namespace Binary64

/-- The least exponent of the format. -/
def minExponent : Int := -1074

/-- The greatest exponent of the format. -/
def maxExponent : Int := 971

/-- Zero. -/
def zero : Binary64 := ⟨0, minExponent⟩

/-- The quotient rounded to the nearest natural number, a half going to the even neighbour. -/
def roundQuotient (num den : Nat) : Nat :=
  let q := num / den
  let r := num % den
  if 2 * r < den then q else if den < 2 * r then q + 1 else q + q % 2

/-- Numerator and denominator of `num / den` divided by `2 ^ e`. -/
def scaled (num den : Nat) (e : Int) : Nat × Nat :=
  if e < 0 then (num * Nat.pow 2 (-e).toNat, den) else (num, den * Nat.pow 2 e.toNat)

/-- The exponent at which `num / den` has a mantissa of 53 bits, or the least exponent. -/
def exponentFor (num den : Nat) : Int :=
  let e : Int := (num.log2 : Int) - (den.log2 : Int) - 53
  let (n, d) := scaled num den e
  max minExponent (if Nat.pow 2 53 ≤ n / d then e + 1 else e)

/-- The number of the format nearest to `num / den`, of two the even one; `none` when it would lie
above the greatest. -/
def ofRatio? (num den : Nat) : Option Binary64 :=
  if num = 0 then some zero else
    let e := exponentFor num den
    let (n, d) := scaled num den e
    let m := roundQuotient n d
    let b : Binary64 := if m = Nat.pow 2 53 then ⟨Nat.pow 2 52, e + 1⟩ else ⟨m, e⟩
    if maxExponent < b.exponent then none else some b

/-- The number as a quotient of natural numbers. -/
def ratio (b : Binary64) : Nat × Nat :=
  if b.exponent < 0 then (b.mantissa, Nat.pow 2 (-b.exponent).toNat)
  else (b.mantissa * Nat.pow 2 b.exponent.toNat, 1)

/-- The number nearest to a natural number below `2 ^ 64`. -/
def ofNat (n : Nat) : Binary64 := (ofRatio? n 1).getD zero

/-- The number nearest to a power of ten, for powers up to `10 ^ 308`. -/
def powerOfTen (k : Nat) : Binary64 := (ofRatio? (Nat.pow 10 k) 1).getD zero

/-- The rounded product; `none` above the range. -/
def mul? (a b : Binary64) : Option Binary64 :=
  let (an, ad) := a.ratio
  let (bn, bd) := b.ratio
  ofRatio? (an * bn) (ad * bd)

/-- The rounded quotient by a number of at least one, which stays in the range. -/
def div (a b : Binary64) : Binary64 :=
  let (an, ad) := a.ratio
  let (bn, bd) := b.ratio
  (ofRatio? (an * bd) (ad * bn)).getD zero

example : ofNat 1 = ⟨2 ^ 52, -52⟩ := by decide
example : ofRatio? 1 10 = some ⟨0x1999999999999a, -56⟩ := by decide +kernel
example : mul? (ofNat 2) (powerOfTen 308) = none := by decide +kernel

end Binary64

end Herald

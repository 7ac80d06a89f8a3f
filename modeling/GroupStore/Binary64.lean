/-!
# Binary floating point numbers, exactly

A finite number of the 64-bit binary format is a sign, a mantissa below `2 ^ 53` and an exponent
from `-1074` to `971`; its magnitude is `mantissa * 2 ^ exponent`.  All arithmetic here is exact
arithmetic on natural numbers followed by one rounding to the nearest representable magnitude,
a tie going to the even mantissa.

* `Binary64.nearest` — the representable magnitude nearest to a fraction, unless it is too large;
* `Binary64.scaled` — an integer times a power of ten, in the two roundings of "convert, then
  multiply or divide by the power".
-/

namespace GroupStore

/-- A finite 64-bit binary floating point number. -/
structure Binary64 where
  /-- Whether the sign is minus; zero has a sign too. -/
  negative : Bool
  /-- The integral mantissa. -/
  mantissa : Nat
  /-- The power of two. -/
  exponent : Int
deriving DecidableEq

namespace Binary64

/-- The least exponent. -/
def minExponent : Int := -1074

/-- The greatest exponent. -/
def maxExponent : Int := 971

/-- A power of two. -/
def twoTo (n : Nat) : Nat := Nat.pow 2 n

/-- A power of ten. -/
def tenTo (n : Nat) : Nat := Nat.pow 10 n

/-- The first mantissa of full length. -/
def fullMantissa : Nat := twoTo 52

/-- A magnitude as mantissa and exponent. -/
abbrev Magnitude := Nat × Int

/-- A quotient rounded to the nearest integer, a tie to the even one. -/
def roundDiv (num den : Nat) : Nat :=
  let q := num / den
  let twice := 2 * (num % den)
  if twice < den then q
  else if twice > den then q + 1
  else q + q % 2

/-- The fraction `num / (den * 2 ^ e)` with integral parts. -/
def shifted (num den : Nat) (e : Int) : Nat × Nat :=
  if 0 ≤ e then (num, den * twoTo e.toNat) else (num * twoTo (-e).toNat, den)

/-- An exponent at which a positive fraction has a mantissa of full length, or the least one. -/
def exponentOf (num den : Nat) : Int :=
  let low : Int := (num.log2 : Int) - (den.log2 : Int) - 53
  let (n, d) := shifted num den low
  max minExponent (if n / d < 2 * fullMantissa then low else low + 1)

/-- The magnitude nearest to a fraction; none if it lies beyond the greatest. -/
def nearest (num den : Nat) : Option Magnitude :=
  if num = 0 then some (0, minExponent)
  else
    let e := exponentOf num den
    let (n, d) := shifted num den e
    let m := roundDiv n d
    let (m, e) := if m = 2 * fullMantissa then (fullMantissa, e + 1) else (m, e)
    if e ≤ maxExponent then some (m, e) else none

/-- The fraction that a magnitude stands for. -/
def fraction (x : Magnitude) : Nat × Nat :=
  if 0 ≤ x.2 then (x.1 * twoTo x.2.toNat, 1) else (x.1, twoTo (-x.2).toNat)

/-- The rounded product of two magnitudes. -/
def mul (x y : Magnitude) : Option Magnitude :=
  nearest ((fraction x).1 * (fraction y).1) ((fraction x).2 * (fraction y).2)

/-- The rounded quotient of two magnitudes. -/
def div (x y : Magnitude) : Option Magnitude :=
  nearest ((fraction x).1 * (fraction y).2) ((fraction x).2 * (fraction y).1)

/-- The greatest power of ten that is representable. -/
def maxPower : Nat := 308

/-- Divide by a power of ten, in steps of the greatest representable power. -/
def divPower (x : Magnitude) (n : Nat) : Option Magnitude :=
  if n ≤ maxPower then (nearest (tenTo n) 1).bind (div x)
  else if x.1 = 0 then some x
  else ((nearest (tenTo maxPower) 1).bind (div x)).bind fun y => divPower y (n - maxPower)
termination_by n
decreasing_by simp only [maxPower] at *; omega

/-- Multiply by a power of ten; only zero survives a power that is not representable. -/
def mulPower (x : Magnitude) (n : Nat) : Option Magnitude :=
  if n ≤ maxPower then (nearest (tenTo n) 1).bind (mul x)
  else if x.1 = 0 then some x
  else none

/-- The magnitude of `significand * 10 ^ power`: the significand is rounded first, the product or
quotient with the power after it.  None if the result is too large. -/
def scaled (significand : Nat) (power : Int) : Option Magnitude :=
  (nearest significand 1).bind fun x =>
    if 0 ≤ power then mulPower x power.toNat else divPower x (-power).toNat

end Binary64

end GroupStore

import GroupStore.Binary64

/-!
# The shortest decimal text of a floating point number

The digits are the fewest that read back as the same number, and among those of that length the
nearest to it.  They are found on decimal grids of falling step: the first grid with a point that
rounds to the number wins, and of the two grid points around the number the nearer one.

The text is positional for magnitudes from `1e-5` up to below `1e16`, always with a point, and
scientific otherwise, with a signed exponent and no padding.
-/

namespace GroupStore.Binary64

/-! ### Digits -/

/-- The ends of the interval of numbers that round to a magnitude, in quarters of the unit of its
last place.  The interval reaches half a unit to both sides, below a power of two only a quarter,
because the mantissas there lie closer. -/
def interval (x : Magnitude) : Nat × Nat :=
  let below := if x.1 = fullMantissa ∧ minExponent < x.2 then 1 else 2
  (4 * x.1 - below, 4 * x.1 + 2)

/-- Whether `d * 10 ^ k` rounds to a magnitude; the ends of the interval do if the mantissa is
even. -/
def roundsTo (x : Magnitude) (d : Nat) (k : Int) : Bool :=
  let (dn, dd) : Nat × Nat := if 0 ≤ k then (d * tenTo k.toNat, 1) else (d, tenTo (-k).toNat)
  -- compare `dn / dd` with `low * 2 ^ (e - 2)` and `high * 2 ^ (e - 2)`
  let (dn, dd) := shifted dn dd (x.2 - 2)
  let (low, high) := interval x
  if x.1 % 2 = 0 then low * dd ≤ dn && dn ≤ high * dd else low * dd < dn && dn < high * dd

/-- The digits of a magnitude on the grid of step `10 ^ k`: of the two points around it the
nearer one that rounds to it, the even one of two equally near. -/
def onGrid? (x : Magnitude) (k : Int) : Option Nat :=
  let (n, d) := fraction x
  let (n, d) : Nat × Nat := if 0 ≤ k then (n, d * tenTo k.toNat) else (n * tenTo (-k).toNat, d)
  let low := n / d
  let near := roundDiv n d
  let far := if near = low then low + 1 else low
  if roundsTo x near k then some near else if roundsTo x far k then some far else none

/-- A decimal exponent above that of the magnitude. -/
def topPower (x : Magnitude) : Int := ((x.1.log2 : Int) + 1 + x.2) * 30103 / 100000 + 2

/-- The shortest digits `d` and their power `k`, standing for `d * 10 ^ k`. -/
def shortest (x : Magnitude) : Nat × Int :=
  let top := topPower x
  let grids : List Int := (List.range 22).map fun (i : Nat) => top - (i : Int)
  match grids.findSome? fun k =>
      (onGrid? x k).bind fun d => if d = 0 then none else some (d, k) with
  | some found => found
  | none => (0, 0)

/-! ### Text -/

/-- The magnitudes below `10 ^ this` are written positionally. -/
def positionalBelow : Int := 16

/-- The magnitudes from `10 ^ this` on are written positionally. -/
def positionalFrom : Int := -5

/-- A power of ten after the digits. -/
def exponentText (power : Int) : String :=
  "e" ++ (if power < 0 then "-" else "+") ++ toString power.natAbs

/-- Digits with the point after the first `point` of them; zeros fill up both sides. -/
def positional (digits : List Char) (point : Int) : List Char :=
  if point ≤ 0 then ['0', '.'] ++ List.replicate (-point).toNat '0' ++ digits
  else if digits.length ≤ point.toNat then
    digits ++ List.replicate (point.toNat - digits.length) '0' ++ ['.', '0']
  else digits.take point.toNat ++ ['.'] ++ digits.drop point.toNat

/-- One digit before the point, the others after it. -/
def mantissaText : List Char → List Char
  | [] => []
  | [d] => [d]
  | d :: rest => d :: '.' :: rest

/-- The text of a magnitude. -/
def magnitudeText (x : Magnitude) : String :=
  if x.1 = 0 then "0.0"
  else
    let (d, k) := shortest x
    let digits := Nat.toDigits 10 d
    let point : Int := digits.length + k
    if positionalFrom < point ∧ point ≤ positionalBelow then String.ofList (positional digits point)
    else String.ofList (mantissaText digits) ++ exponentText (point - 1)

/-- The text of a number. -/
def text (x : Binary64) : String :=
  (if x.negative then "-" else "") ++ magnitudeText (x.mantissa, x.exponent)

end GroupStore.Binary64

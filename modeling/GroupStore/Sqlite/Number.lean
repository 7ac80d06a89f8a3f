import GroupStore.Binary64

/-!
# Numbers that texts spell

A text spells a number as in `12`, `-0.5` or `1e3`, with blanks around it.  An integer without point
and exponent is taken as it is where it fits.  Every other number is rounded to the nearest of
binary floating point, and then is an integer again if it has the value of one that fits.  (The
engine's own rounding may be off by one in the last place where more digits are spelled than a
floating point number has.)

* `Spelling.ofText?` — sign, digits and power of ten of a text;
* `Number.ofText?` — the number that a text spells.
-/

namespace GroupStore.Sqlite

/-- The greatest integer of a cell. -/
def maxInteger : Int := 9223372036854775807

/-- The least integer of a cell. -/
def minInteger : Int := -9223372036854775808

/-- A number that a column of integers holds. -/
inductive Number where
  | integer (value : Int)
  /-- The exact value of a floating point number. -/
  | real (value : Rat)
  /-- A floating point number beyond the greatest. -/
  | infinite (negative : Bool)
deriving DecidableEq

/-! ### Spelling -/

/-- Blanks that may surround a number. -/
def isSpace (c : Char) : Bool :=
  c = ' ' || c = '\t' || c = '\n' || c = '\x0b' || c = '\x0c' || c = '\r'

/-- A decimal number as it is spelled. -/
structure Spelling where
  negative : Bool
  /-- The digits before and after the point, as one integer. -/
  digits : Nat
  /-- The power of ten by which that is multiplied. -/
  power : Int
  /-- Whether there is neither a point nor an exponent. -/
  whole : Bool

/-- Take a sign off, and tell whether it is a minus. -/
def takeSign : List Char → Bool × List Char
  | '-' :: rest => (true, rest)
  | '+' :: rest => (false, rest)
  | cs => (false, cs)

/-- An integer under a sign. -/
def signed (negative : Bool) (n : Nat) : Int := if negative then -(n : Int) else n

/-- The value of some digits. -/
def ofDigits (cs : List Char) : Nat := cs.foldl (fun n c => n * 10 + (c.toNat - '0'.toNat)) 0

/-- Exponents are not counted any further once they have reached this. -/
def exponentCap : Nat := 10000

/-- The digits of an exponent up to the cap. -/
def cappedOfDigits (cs : List Char) : Nat :=
  cs.foldl (fun n c => if n < exponentCap then n * 10 + (c.toNat - '0'.toNat) else exponentCap) 0

/-- The exponent at the end of a number; nothing there is zero. -/
def exponent? : List Char → Option Int
  | [] => some 0
  | c :: rest =>
    let (negative, cs) := takeSign rest
    if (c = 'e' || c = 'E') && cs ≠ [] && cs.all Char.isDigit then
      some (signed negative (cappedOfDigits cs))
    else none

/-- The digits after a point, whether there is a point, and what follows. -/
def takeFraction : List Char → List Char × Bool × List Char
  | '.' :: rest =>
    let (fraction, rest) := rest.span Char.isDigit
    (fraction, true, rest)
  | cs => ([], false, cs)

/-- How a text spells a number, if it does. -/
def Spelling.ofText? (s : String) : Option Spelling :=
  let trimmed := ((s.toList.dropWhile isSpace).reverse.dropWhile isSpace).reverse
  let (negative, cs) := takeSign trimmed
  let (integral, cs) := cs.span Char.isDigit
  let (fraction, pointed, cs) := takeFraction cs
  if integral ++ fraction = [] then none
  else
    (exponent? cs).map fun exponent =>
      ⟨negative, ofDigits (integral ++ fraction), exponent - fraction.length, !pointed && cs = []⟩

/-! ### Values -/

/-- The nearest floating point magnitude. -/
def Spelling.magnitude (s : Spelling) : Option Binary64.Magnitude :=
  if 0 ≤ s.power then Binary64.nearest (s.digits * Binary64.tenTo s.power.toNat) 1
  else Binary64.nearest s.digits (Binary64.tenTo (-s.power).toNat)

/-- A floating point number; one that has the value of an integer between the least and the greatest
is that integer. -/
def Number.ofReal (value : Rat) : Number :=
  if value.den = 1 ∧ minInteger < value.num ∧ value.num < maxInteger then .integer value.num
  else .real value

/-- The number that is spelled. -/
def Spelling.number (s : Spelling) : Number :=
  let exact := signed s.negative s.digits
  if s.whole ∧ minInteger ≤ exact ∧ exact ≤ maxInteger then .integer exact
  else
    match s.magnitude with
    | none => .infinite s.negative
    | some magnitude =>
      let (num, den) := Binary64.fraction magnitude
      .ofReal (mkRat (signed s.negative num) den)

/-- The number that a text spells, if it does. -/
def Number.ofText? (s : String) : Option Number := (Spelling.ofText? s).map Spelling.number

end GroupStore.Sqlite

import GroupStore.Binary64.Shortest

/-!
# Number literals

A literal is read as its parts; what number it stands for is a second question, because a literal
that is skipped is never evaluated.

* `Numeral.ofBytes?` — the grammar: no leading zero, at least one digit wherever digits may stand;
* `Numeral.value?` — integers from `-2 ^ 63` to below `2 ^ 64` stay integers; everything else, a
  minus zero included, becomes a floating point number, if it is not too large for one.

Floating point literals are evaluated as an integer times a power of ten.  The integer gathers
digits as long as it fits into 64 bits: later digits before the point count as powers of ten only
and later digits after it do not count.
-/

namespace GroupStore.Json

/-! ### Bytes -/

/-- The byte of an ASCII character. -/
abbrev ascii (c : Char) : UInt8 := c.toUInt8

/-- Whether a byte is a decimal digit. -/
def isDigit (b : UInt8) : Bool := ascii '0' ≤ b && b ≤ ascii '9'

/-- The value of a decimal digit. -/
def digitValue (b : UInt8) : Nat := (b - ascii '0').toNat

/-! ### Literals -/

/-- A number literal in its parts. -/
structure Numeral where
  /-- Whether it has a minus sign. -/
  negative : Bool
  /-- The digits before the point. -/
  whole : List Nat
  /-- The digits after the point, if there is one. -/
  decimals : Option (List Nat)
  /-- The sign and the digits of the exponent, if there is one. -/
  exponent : Option (Bool × List Nat)
deriving DecidableEq

namespace Numeral

/-- The digits that a list of bytes begins with, and the rest. -/
def spanDigits : List UInt8 → List Nat × List UInt8
  | [] => ([], [])
  | b :: rest =>
    if isDigit b then
      let (digits, rest) := spanDigits rest
      (digitValue b :: digits, rest)
    else ([], b :: rest)

/-- The point and the digits after it, if they come next. -/
def readDecimals : List UInt8 → Option (Option (List Nat) × List UInt8)
  | [] => some (none, [])
  | b :: rest =>
    if b = ascii '.' then
      match spanDigits rest with
      | ([], _) => none
      | (digits, rest) => some (some digits, rest)
    else some (none, b :: rest)

/-- The sign of an exponent; minus is `true`. -/
def readSign : List UInt8 → Bool × List UInt8
  | [] => (false, [])
  | b :: rest =>
    if b = ascii '-' then (true, rest)
    else if b = ascii '+' then (false, rest)
    else (false, b :: rest)

/-- The exponent, if it comes next. -/
def readExponent : List UInt8 → Option (Option (Bool × List Nat) × List UInt8)
  | [] => some (none, [])
  | b :: rest =>
    if b = ascii 'e' ∨ b = ascii 'E' then
      let (minus, rest) := readSign rest
      match spanDigits rest with
      | ([], _) => none
      | (digits, rest) => some (some (minus, digits), rest)
    else some (none, b :: rest)

/-- Whether digits may stand before the point: at least one, and no zero before others. -/
def wellBegun : List Nat → Bool
  | [] => false
  | 0 :: _ :: _ => false
  | _ => true

/-- Read a literal that takes up all bytes. -/
def ofBytes? (bytes : List UInt8) : Option Numeral := do
  let (negative, rest) := match bytes with
    | b :: rest => if b = ascii '-' then (true, rest) else (false, bytes)
    | [] => (false, [])
  let (whole, rest) := spanDigits rest
  if wellBegun whole then
    let (decimals, rest) ← readDecimals rest
    let (exponent, rest) ← readExponent rest
    match rest with
    | [] => some ⟨negative, whole, decimals, exponent⟩
    | _ => none
  else none

end Numeral

/-! ### Numbers -/

/-- What a literal stands for. -/
inductive Number where
  | int (value : Int)
  | float (value : Binary64)
deriving DecidableEq

/-- The text of a number; a floating point number always shows a point or an exponent. -/
def Number.text : Number → String
  | int value => toString value
  | float value => value.text

namespace Numeral

/-- The greatest integer that a literal keeps. -/
def maxWord : Nat := 18446744073709551615

/-- The greatest magnitude of a negative integer that a literal keeps. -/
def maxNegative : Nat := 9223372036854775808

/-- The number of the digits before the point. -/
def wholeValue (n : Numeral) : Nat := n.whole.foldl (fun value digit => value * 10 + digit) 0

/-- Digits before the point: an integer that fits, and the power of ten for the others. -/
def gatherWhole : Nat → List Nat → Nat × Nat
  | value, [] => (value, 0)
  | value, digit :: rest =>
    if value * 10 + digit ≤ maxWord then gatherWhole (value * 10 + digit) rest
    else (value, (digit :: rest).length)

/-- Digits after the point: those that still fit lower the power, the others are left out. -/
def gatherDecimals : Nat → Int → List Nat → Nat × Int
  | value, power, [] => (value, power)
  | value, power, digit :: rest =>
    if value * 10 + digit ≤ maxWord then gatherDecimals (value * 10 + digit) (power - 1) rest
    else (value, power)

/-- The greatest exponent that is told from larger ones. -/
def maxExponent : Nat := 2147483647

/-- The number of exponent digits; none beyond the greatest. -/
def exponentValue? : Nat → List Nat → Option Nat
  | value, [] => some value
  | value, digit :: rest =>
    if value * 10 + digit ≤ maxExponent then exponentValue? (value * 10 + digit) rest else none

/-- The floating point magnitude of a literal. -/
def magnitude? (n : Numeral) : Option Binary64.Magnitude :=
  let (value, power) := gatherWhole 0 n.whole
  let (value, power) := gatherDecimals value power (n.decimals.getD [])
  match n.exponent with
  | none => Binary64.scaled value power
  | some (minus, digits) =>
    match exponentValue? 0 digits with
    | some e => Binary64.scaled value (if minus then power - e else power + e)
    | none => if value ≠ 0 && !minus then none else some (0, Binary64.minExponent)

/-- Whether a literal has neither point nor exponent. -/
def isWhole (n : Numeral) : Bool := n.decimals.isNone && n.exponent.isNone

/-- The integer of a literal, if it stays one. -/
def int? (n : Numeral) : Option Int :=
  if n.isWhole then
    if n.negative then
      if 0 < n.wholeValue ∧ n.wholeValue ≤ maxNegative then some (-(n.wholeValue : Int)) else none
    else if n.wholeValue ≤ maxWord then some n.wholeValue
    else none
  else none

/-- The number of a literal; none if it is too large. -/
def value? (n : Numeral) : Option Number :=
  match n.int? with
  | some value => some (.int value)
  | none => n.magnitude?.map fun x => .float ⟨n.negative, x.1, x.2⟩

end Numeral

end GroupStore.Json

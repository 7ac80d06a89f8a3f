import GroupStore.Toml.Value
import GroupStore.Toml.Space
import GroupStore.Binary64

/-!
# TOML numbers, booleans, dates and times

These values have no delimiters: a literal reaches as far as its characters do.  A date may be
followed by a blank and a time, which then belong to it.

* `ofLiteral?` — the value of a literal;
* `readScalar?` — a literal at the front of a text.
-/

namespace GroupStore.Toml

/-! ### Digits -/

/-- The value of a digit of a base of at most sixteen. -/
def digitIn? (base : Nat) (c : Char) : Option Nat :=
  let value :=
    if '0' ≤ c ∧ c ≤ '9' then some (c.toNat - '0'.toNat)
    else if 'a' ≤ c ∧ c ≤ 'f' then some (c.toNat - 'a'.toNat + 10)
    else if 'A' ≤ c ∧ c ≤ 'F' then some (c.toNat - 'A'.toNat + 10)
    else none
  value.filter fun d => d < base

/-- Further digits of a base; `afterDigit` says whether an underscore or the end may come next. -/
def digitsFrom? (base : Nat) (afterDigit : Bool) (done : List Nat) : List Char → Option (List Nat)
  | [] => if afterDigit then some done.reverse else none
  | c :: rest =>
    match digitIn? base c with
    | some d => digitsFrom? base true (d :: done) rest
    | none => if c = '_' ∧ afterDigit then digitsFrom? base false done rest else none

/-- At least one digit of a base, with single underscores between digits. -/
def digits? (base : Nat) (cs : List Char) : Option (List Nat) := digitsFrom? base false [] cs

/-- The number of some digits. -/
def ofDigits (base : Nat) (digits : List Nat) : Nat :=
  digits.foldl (fun value d => value * base + d) 0

/-- Decimal digits without a zero before others. -/
def wholeDigits? (cs : List Char) : Option (List Nat) :=
  (digits? 10 cs).filter fun digits =>
    match digits with
    | 0 :: _ :: _ => false
    | _ => true

/-- A sign and what follows it. -/
def splitSign : List Char → Bool × List Char
  | '-' :: rest => (true, rest)
  | '+' :: rest => (false, rest)
  | cs => (false, cs)

/-! ### Integers -/

/-- The greatest integer. -/
def maxInteger : Int := 9223372036854775807

/-- The least integer. -/
def minInteger : Int := -9223372036854775808

/-- An integer that fits into 64 bits with a sign. -/
def fitting? (value : Int) : Option Int :=
  if minInteger ≤ value ∧ value ≤ maxInteger then some value else none

/-- The integer of a literal. -/
def integer? (cs : List Char) : Option Int :=
  match cs with
  | '0' :: 'x' :: rest => ((digits? 16 rest).map fun ds => (ofDigits 16 ds : Int)).bind fitting?
  | '0' :: 'o' :: rest => ((digits? 8 rest).map fun ds => (ofDigits 8 ds : Int)).bind fitting?
  | '0' :: 'b' :: rest => ((digits? 2 rest).map fun ds => (ofDigits 2 ds : Int)).bind fitting?
  | cs =>
    let (minus, rest) := splitSign cs
    (wholeDigits? rest).bind fun ds =>
      fitting? (if minus then -(ofDigits 10 ds : Int) else ofDigits 10 ds)

/-! ### Floating point numbers -/

/-- Whether a character opens an exponent. -/
def isExponentMark (c : Char) : Bool := c = 'e' || c = 'E'

/-- The exponent after its mark. -/
def exponent? (cs : List Char) : Option Int :=
  let (minus, rest) := splitSign cs
  (digits? 10 rest).map fun ds => if minus then -(ofDigits 10 ds : Int) else ofDigits 10 ds

/-- The exponents up to this one are told apart. -/
def maxPower : Int := 400

/-- Whether `digits * 10 ^ power` is not too large for a floating point number. -/
def inRange (digits : List Nat) (power : Int) : Bool :=
  let value := ofDigits 10 digits
  if value = 0 then true
  else if maxPower < power then false
  else if 0 ≤ power then (Binary64.nearest (value * Binary64.tenTo power.toNat) 1).isSome
  else if (digits.length : Int) + power < -maxPower then true
  else (Binary64.nearest value (Binary64.tenTo (-power).toNat)).isSome

/-- Whether a literal spells a floating point number that is not too large. -/
def isFloat (cs : List Char) : Bool :=
  let (_, body) := splitSign cs
  if body = ['i', 'n', 'f'] || body = ['n', 'a', 'n'] then true
  else
    let mantissa := body.takeWhile fun c => !isExponentMark c
    let power := match body.dropWhile fun c => !isExponentMark c with
      | [] => some 0
      | _ :: rest => exponent? rest
    let whole := wholeDigits? (mantissa.takeWhile fun c => c ≠ '.')
    let decimals := match mantissa.dropWhile fun c => c ≠ '.' with
      | [] => some []
      | _ :: rest => digits? 10 rest
    match whole, decimals, power with
    | some whole, some decimals, some power =>
      (body.any fun c => c = '.' || isExponentMark c)
        && inRange (whole ++ decimals) (power - decimals.length)
    | _, _, _ => false

/-! ### Dates and times -/

/-- The number of two digits. -/
def two? : Reader Nat
  | a :: b :: rest => do
    let a ← digitIn? 10 a
    let b ← digitIn? 10 b
    return (a * 10 + b, rest)
  | _ => none

/-- Whether a year has a leap day. -/
def isLeapYear (year : Nat) : Bool := year % 4 = 0 && (year % 100 ≠ 0 || year % 400 = 0)

/-- The number of days of a month. -/
def daysOf (year month : Nat) : Nat :=
  if month = 2 then if isLeapYear year then 29 else 28
  else if month = 4 || month = 6 || month = 9 || month = 11 then 30
  else 31

/-- The text after a date: four digits, two and two with hyphens between. -/
def skipDate? (cs : List Char) : Option (List Char) := do
  let (century, cs) ← two? cs
  let (year, cs) ← two? cs
  match cs with
  | '-' :: cs =>
    let (month, cs) ← two? cs
    match cs with
    | '-' :: cs =>
      let (day, cs) ← two? cs
      if 1 ≤ month && month ≤ 12 && 1 ≤ day && day ≤ daysOf (century * 100 + year) month then
        some cs
      else none
    | _ => none
  | _ => none

/-- The text after a fraction of a second, if one comes next. -/
def skipFraction? : List Char → Option (List Char)
  | '.' :: c :: rest => if c.isDigit then some (rest.dropWhile Char.isDigit) else none
  | '.' :: [] => none
  | cs => some cs

/-- Hours and minutes with a colon between, counted in minutes. -/
def minutes? : Reader Nat := fun cs => do
  let (hour, cs) ← two? cs
  match cs with
  | ':' :: cs =>
    let (minute, cs) ← two? cs
    if minute ≤ 59 then some (hour * 60 + minute, cs) else none
  | _ => none

/-- The number of minutes of a day. -/
def minutesOfDay : Nat := 24 * 60

/-- The text after a time; seconds may be left out. -/
def skipTime? (cs : List Char) : Option (List Char) := do
  let (minutes, cs) ← minutes? cs
  if minutes < minutesOfDay then
    match cs with
    | ':' :: cs =>
      let (second, cs) ← two? cs
      if second ≤ 60 then skipFraction? cs else none
    | cs => some cs
  else none

/-- Whether a text is an offset from universal time of at most a day, or nothing. -/
def isOffset : List Char → Bool
  | [] => true
  | c :: rest =>
    if c = 'Z' || c = 'z' then rest = []
    else if c = '+' || c = '-' then
      match minutes? rest with
      | some (minutes, []) => minutes ≤ minutesOfDay
      | _ => false
    else false

/-- Whether a literal is a date, a time, or both with or without an offset. -/
def isDatetime (cs : List Char) : Bool :=
  match skipDate? cs with
  | none => skipTime? cs = some []
  | some [] => true
  | some (c :: rest) =>
    (c = 'T' || c = 't' || c = ' ')
      && match skipTime? rest with
        | none => false
        | some rest => isOffset rest

/-! ### Literals -/

/-- The value of a literal. -/
def ofLiteral? (cs : List Char) : Option Value :=
  if cs = ['t', 'r', 'u', 'e'] then some (.boolean true)
  else if cs = ['f', 'a', 'l', 's', 'e'] then some (.boolean false)
  else
    match integer? cs with
    | some value => some (.integer value)
    | none =>
      if isFloat cs then some (.float (String.ofList cs))
      else if isDatetime cs then some (.datetime (String.ofList cs))
      else none

/-- Whether a character may stand in a literal. -/
def isLiteral (c : Char) : Bool :=
  c.isAlphanum || c = '+' || c = '-' || c = '_' || c = '.' || c = ':'

/-- Whether a time may follow a literal after a blank. -/
def continuesDate (literal rest : List Char) : Bool :=
  (skipDate? literal).any List.isEmpty
    && match rest with
      | ' ' :: c :: _ => c.isDigit
      | _ => false

/-- The literal at the front of a text. -/
def spanLiteral (cs : List Char) : List Char × List Char :=
  let literal := cs.takeWhile isLiteral
  let rest := cs.dropWhile isLiteral
  if continuesDate literal rest then
    (literal ++ ' ' :: (rest.drop 1).takeWhile isLiteral, (rest.drop 1).dropWhile isLiteral)
  else (literal, rest)

/-- Read a number, a boolean, a date or a time. -/
def readScalar? : Reader Value := fun cs =>
  let (literal, rest) := spanLiteral cs
  (ofLiteral? literal).map fun value => (value, rest)

end GroupStore.Toml

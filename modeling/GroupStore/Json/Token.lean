import GroupStore.Json.Numeral

/-!
# Tokens of a JSON text

The tokenizer is a machine that takes one byte at a time and is folded over the text, so the run
over a text is the run over its beginning continued over its end.  Strings keep their raw bytes:
escapes are checked for their shape here and decoded only where a string is read.

* `Token` — punctuation, words, number literals, raw strings;
* `Tokenizer.step` — one byte;
* `tokens?` — all tokens of a text.
-/

namespace GroupStore.Json

/-- One token. -/
inductive Token where
  | openBrace
  | closeBrace
  | openBracket
  | closeBracket
  | comma
  | colon
  | null
  | bool (b : Bool)
  | number (n : Numeral)
  /-- The bytes between the quotes, escapes as written. -/
  | text (raw : List UInt8)
deriving DecidableEq

namespace Tokenizer

/-- What the machine is in the middle of; bytes are kept latest first. -/
inductive Mode where
  | between
  /-- A word of which these bytes are still to come. -/
  | word (rest : List UInt8) (token : Token)
  | number (bytes : List UInt8)
  | text (raw : List UInt8)
  /-- After a backslash. -/
  | escape (raw : List UInt8)
  /-- In the hexadecimal digits of an escape, so many still to come. -/
  | hex (left : Nat) (raw : List UInt8)
deriving DecidableEq

/-- The machine: its mode and the tokens found, latest first. -/
structure State where
  mode : Mode
  tokens : List Token
deriving DecidableEq

/-- Nothing read yet. -/
def start : State := ⟨.between, []⟩

/-- The bytes between tokens. -/
def isBlank (b : UInt8) : Bool :=
  b = ascii ' ' || b = ascii '\n' || b = ascii '\r' || b = ascii '\t'

/-- The bytes that number literals are made of. -/
def isNumberByte (b : UInt8) : Bool :=
  isDigit b || b = ascii '-' || b = ascii '+' || b = ascii '.' || b = ascii 'e' || b = ascii 'E'

/-- The bytes that may follow a backslash alone. -/
def isSimpleEscape (b : UInt8) : Bool :=
  b = ascii '"' || b = ascii '\\' || b = ascii '/' || b = ascii 'b' || b = ascii 'f'
    || b = ascii 'n' || b = ascii 'r' || b = ascii 't'

/-- The value of a hexadecimal digit. -/
def hexValue? (b : UInt8) : Option Nat :=
  if isDigit b then some (digitValue b)
  else if ascii 'a' ≤ b ∧ b ≤ ascii 'f' then some ((b - ascii 'a').toNat + 10)
  else if ascii 'A' ≤ b ∧ b ≤ ascii 'F' then some ((b - ascii 'A').toNat + 10)
  else none

/-- The first byte of a token, or a blank. -/
def begin (b : UInt8) (tokens : List Token) : Option State :=
  if isBlank b then some ⟨.between, tokens⟩
  else if b = ascii '"' then some ⟨.text [], tokens⟩
  else if b = ascii '\x7b' then some ⟨.between, .openBrace :: tokens⟩
  else if b = ascii '\x7d' then some ⟨.between, .closeBrace :: tokens⟩
  else if b = ascii '[' then some ⟨.between, .openBracket :: tokens⟩
  else if b = ascii ']' then some ⟨.between, .closeBracket :: tokens⟩
  else if b = ascii ',' then some ⟨.between, .comma :: tokens⟩
  else if b = ascii ':' then some ⟨.between, .colon :: tokens⟩
  else if b = ascii '-' || isDigit b then some ⟨.number [b], tokens⟩
  else if b = ascii 'n' then some ⟨.word [ascii 'u', ascii 'l', ascii 'l'] .null, tokens⟩
  else if b = ascii 't' then
    some ⟨.word [ascii 'r', ascii 'u', ascii 'e'] (.bool true), tokens⟩
  else if b = ascii 'f' then
    some ⟨.word [ascii 'a', ascii 'l', ascii 's', ascii 'e'] (.bool false), tokens⟩
  else none

/-- One byte inside a string. -/
@[inline] def stepText (b : UInt8) (raw : List UInt8) (tokens : List Token) : Option State :=
  if b = ascii '"' then some ⟨.between, .text raw.reverse :: tokens⟩
  else if b = ascii '\\' then some ⟨.escape (b :: raw), tokens⟩
  else if b < 32 then none
  else some ⟨.text (b :: raw), tokens⟩

/-- One byte. -/
@[inline] def step (s : State) (b : UInt8) : Option State :=
  match s.mode with
  | .between => begin b s.tokens
  | .word [] token => begin b (token :: s.tokens)
  | .word [c] token => if b = c then some ⟨.between, token :: s.tokens⟩ else none
  | .word (c :: rest) token => if b = c then some ⟨.word rest token, s.tokens⟩ else none
  | .number bytes =>
    if isNumberByte b then some ⟨.number (b :: bytes), s.tokens⟩
    else (Numeral.ofBytes? bytes.reverse).bind fun n => begin b (.number n :: s.tokens)
  | .text raw => stepText b raw s.tokens
  | .escape raw =>
    if b = ascii 'u' then some ⟨.hex 4 (b :: raw), s.tokens⟩
    else if isSimpleEscape b then some ⟨.text (b :: raw), s.tokens⟩
    else none
  | .hex left raw =>
    if (hexValue? b).isSome then
      if left ≤ 1 then some ⟨.text (b :: raw), s.tokens⟩
      else some ⟨.hex (left - 1) (b :: raw), s.tokens⟩
    else none

/-- The tokens of a text that ends here. -/
def finish (s : State) : Option (List Token) :=
  match s.mode with
  | .between => some s.tokens.reverse
  | .number bytes =>
    (Numeral.ofBytes? bytes.reverse).map fun n => (.number n :: s.tokens).reverse
  | _ => none

/-- Run the machine over some bytes. -/
def run : State → List UInt8 → Option State
  | s, [] => some s
  | s, b :: rest =>
    match step s b with
    | none => none
    | some s' => run s' rest

end Tokenizer

/-- All tokens of a text. -/
def tokens? (bytes : List UInt8) : Option (List Token) :=
  (Tokenizer.run Tokenizer.start bytes).bind Tokenizer.finish

end GroupStore.Json

import GroupStore.Toml.Space

/-!
# TOML strings

A string in double quotes has escapes, one in single quotes is taken as it stands.  Three quotes
open a string of several lines, in which a line end directly after the opening does not count, up
to two quotes may stand before the closing ones, and a backslash at the end of a line skips the
space up to the next visible character.
-/

namespace GroupStore.Toml

/-! ### Escapes -/

/-- The character that a letter after a backslash stands for. -/
def simpleEscape? (c : Char) : Option Char :=
  if c = 'b' then some '\x08'
  else if c = 't' then some '\t'
  else if c = 'n' then some '\n'
  else if c = 'f' then some '\x0c'
  else if c = 'r' then some '\r'
  else if c = 'e' then some '\x1b'
  else if c = '"' then some '"'
  else if c = '\\' then some '\\'
  else none

/-- How many hexadecimal digits a letter after a backslash announces. -/
def escapeWidth? (c : Char) : Option Nat :=
  if c = 'x' then some 2 else if c = 'u' then some 4 else if c = 'U' then some 8 else none

/-- The value of a hexadecimal digit. -/
def hexValue? (c : Char) : Option Nat :=
  if '0' ≤ c ∧ c ≤ '9' then some (c.toNat - '0'.toNat)
  else if 'a' ≤ c ∧ c ≤ 'f' then some (c.toNat - 'a'.toNat + 10)
  else if 'A' ≤ c ∧ c ≤ 'F' then some (c.toNat - 'A'.toNat + 10)
  else none

/-- The character of a number; none for surrogates and beyond the last character. -/
def scalar? (n : Nat) : Option Char := if n.isValidChar then some (Char.ofNat n) else none

/-- Where the reader of an escaped string stands. -/
inductive Mode where
  | plain
  /-- After some of the quotes that might close a string of several lines. -/
  | quotes (count : Nat)
  | backslash
  /-- So many digits of a character number to come. -/
  | digits (left value : Nat)
  /-- After a backslash and blanks, where the line must end. -/
  | lineEnd
  /-- After a backslash at the end of a line. -/
  | skipping

/-- What follows one character of an escape; the decoded characters are kept latest first. -/
def stepEscape (mode : Mode) (done : List Char) (c : Char) : Option (Mode × List Char) :=
  match mode with
  | .digits left value =>
    match hexValue? c with
    | none => none
    | some d =>
      if left ≤ 1 then (scalar? (value * 16 + d)).map fun x => (.plain, x :: done)
      else some (.digits (left - 1) (value * 16 + d), done)
  | _ =>
    match simpleEscape? c, escapeWidth? c with
    | some x, _ => some (.plain, x :: done)
    | none, some width => some (.digits width 0, done)
    | none, none => none

/-! ### Strings on one line -/

/-- Read on in a string in double quotes. -/
def basicRest (mode : Mode) (done : List Char) : Reader String
  | [] => none
  | c :: rest =>
    match mode with
    | .plain =>
      if c = '"' then some (String.ofList done.reverse, rest)
      else if c = '\\' then basicRest .backslash done rest
      else if isPrintable c then basicRest .plain (c :: done) rest
      else none
    | mode =>
      match stepEscape mode done c with
      | none => none
      | some (mode, done) => basicRest mode done rest

/-- Read on in a string in single quotes. -/
def literalRest (done : List Char) : Reader String
  | [] => none
  | c :: rest =>
    if c = '\'' then some (String.ofList done.reverse, rest)
    else if isPrintable c then literalRest (c :: done) rest
    else none

/-! ### Strings of several lines -/

/-- Close a string of several lines after its quotes: those beyond three belong to it. -/
def closed (quote : Char) (count : Nat) (done rest : List Char) : String × List Char :=
  (String.ofList (List.replicate (count - 3) quote ++ done).reverse, rest)

/-- Whether a character may stand in a string of several lines, before the given rest. -/
def isMultiline (c : Char) (rest : List Char) : Bool :=
  isPrintable c || c = '\n' || (c = '\r' && startsLine rest)

/-- Read on in a string in three double quotes. -/
def longBasicRest (mode : Mode) (done : List Char) : Reader String
  | [] =>
    match mode with
    | .quotes count => if 3 ≤ count then some (closed '"' count done []) else none
    | _ => none
  | c :: rest =>
    match mode with
    | .plain =>
      if c = '"' then longBasicRest (.quotes 1) done rest
      else if c = '\\' then longBasicRest .backslash done rest
      else if isMultiline c rest then longBasicRest .plain (c :: done) rest
      else none
    | .quotes count =>
      if c = '"' ∧ count < 5 then longBasicRest (.quotes (count + 1)) done rest
      else if 3 ≤ count then some (closed '"' count done (c :: rest))
      else
        let done := List.replicate count '"' ++ done
        if c = '\\' then longBasicRest .backslash done rest
        else if isMultiline c rest then longBasicRest .plain (c :: done) rest
        else none
    | .lineEnd =>
      if isBlank c then longBasicRest .lineEnd done rest
      else if c = '\n' then longBasicRest .skipping done rest
      else if c = '\r' && startsLine rest then longBasicRest .lineEnd done rest
      else none
    | .skipping =>
      if isBlank c || c = '\n' || (c = '\r' && startsLine rest) then
        longBasicRest .skipping done rest
      else if c = '"' then longBasicRest (.quotes 1) done rest
      else if c = '\\' then longBasicRest .backslash done rest
      else if isMultiline c rest then longBasicRest .plain (c :: done) rest
      else none
    | .backslash =>
      if isBlank c then longBasicRest .lineEnd done rest
      else if c = '\n' then longBasicRest .skipping done rest
      else if c = '\r' && startsLine rest then longBasicRest .lineEnd done rest
      else
        match stepEscape .backslash done c with
        | none => none
        | some (mode, done) => longBasicRest mode done rest
    | mode =>
      match stepEscape mode done c with
      | none => none
      | some (mode, done) => longBasicRest mode done rest

/-- Read on in a string in three single quotes, after `count` of the quotes that might close
it. -/
def longLiteralRest (count : Nat) (done : List Char) : Reader String
  | [] => if 3 ≤ count then some (closed '\'' count done []) else none
  | c :: rest =>
    if c = '\'' ∧ count < 5 then longLiteralRest (count + 1) done rest
    else if 3 ≤ count then some (closed '\'' count done (c :: rest))
    else if isMultiline c rest then
      longLiteralRest 0 (c :: (List.replicate count '\'' ++ done)) rest
    else none

/-! ### Any string -/

/-- The text after the line end that it may begin with. -/
def skipFirstLineEnd (cs : List Char) : List Char := (lineEnd? cs).getD cs

/-- Read a string on one line. -/
def readShortText? : Reader String
  | '"' :: rest => basicRest .plain [] rest
  | '\'' :: rest => literalRest [] rest
  | _ => none

/-- Read a string; three quotes open one of several lines. -/
def readText? : Reader String
  | '"' :: '"' :: '"' :: rest => longBasicRest .plain [] (skipFirstLineEnd rest)
  | '\'' :: '\'' :: '\'' :: rest => longLiteralRest 0 [] (skipFirstLineEnd rest)
  | cs => readShortText? cs

end GroupStore.Toml

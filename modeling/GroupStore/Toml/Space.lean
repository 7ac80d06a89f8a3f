/-!
# Space between the parts of a TOML document

Blanks are spaces and tabs.  A line ends with a line feed, which a carriage return may precede;
a carriage return alone ends nothing.  A comment reaches to the end of its line and holds no
control character but tabs.
-/

namespace GroupStore.Toml

/-- A way to read something off the front of a text: what was read, and the rest. -/
abbrev Reader (α : Type) := List Char → Option (α × List Char)

/-- Blanks within a line. -/
def isBlank (c : Char) : Bool := c = ' ' || c = '\t'

/-- The text after its leading blanks. -/
def skipBlanks (cs : List Char) : List Char := cs.dropWhile isBlank

/-- A tab, or any character that is not a control character. -/
def isPrintable (c : Char) : Bool := c = '\t' || (32 ≤ c.toNat && c.toNat ≠ 127)

/-- The text after a line end. -/
def lineEnd? : List Char → Option (List Char)
  | '\n' :: rest => some rest
  | '\r' :: '\n' :: rest => some rest
  | _ => none

/-- The text after the comment that it may begin with. -/
def skipComment : List Char → List Char
  | '#' :: rest => rest.dropWhile isPrintable
  | cs => cs

/-- Whether a text begins with a line feed. -/
def startsLine : List Char → Bool
  | '\n' :: _ => true
  | _ => false

/-- The text after blanks, comments and line ends; `inComment` says whether it begins inside a
comment. -/
def skipSpace (inComment : Bool) : List Char → List Char
  | [] => []
  | c :: rest =>
    if c = '\n' then skipSpace false rest
    else if c = '\r' && startsLine rest then skipSpace false rest
    else if inComment then if isPrintable c then skipSpace true rest else c :: rest
    else if isBlank c then skipSpace false rest
    else if c = '#' then skipSpace true rest
    else c :: rest

end GroupStore.Toml

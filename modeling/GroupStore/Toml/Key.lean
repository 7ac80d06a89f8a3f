import GroupStore.Toml.Text

/-!
# TOML keys

A key is one or more names with dots between them.  A name is bare (letters, digits, underscores
and hyphens) or a string on one line.
-/

namespace GroupStore.Toml

/-- Whether a character may stand in a bare name. -/
def isBare (c : Char) : Bool := c.isAlphanum || c = '_' || c = '-'

/-- Read one name. -/
def readName? (cs : List Char) : Option (String × List Char) :=
  match cs with
  | [] => none
  | c :: _ =>
    if isBare c then some (String.ofList (cs.takeWhile isBare), cs.dropWhile isBare)
    else readShortText? cs

/-- Read the names after a first one; `fuel` bounds their number. -/
def readMoreNames? (fuel : Nat) (cs : List Char) : Option (List String × List Char) :=
  match skipBlanks cs with
  | '.' :: rest =>
    match fuel with
    | 0 => none
    | fuel + 1 => do
      let (name, rest) ← readName? (skipBlanks rest)
      let (names, rest) ← readMoreNames? fuel rest
      return (name :: names, rest)
  | rest => some ([], rest)

/-- Read a key, and the blanks after it. -/
def readKey? : Reader (List String) := fun cs => do
  let (name, rest) ← readName? cs
  let (names, rest) ← readMoreNames? rest.length rest
  return (name :: names, rest)

end GroupStore.Toml

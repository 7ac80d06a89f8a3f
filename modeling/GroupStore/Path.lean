import GroupStore.Blank

/-!
# Paths

A path is a text; its components are what stands between slashes, except empty ones and single
dots.  Lengths are limited for the whole text and for each component.
-/

namespace GroupStore.Path

/-- Split a list of characters at every slash; there is always at least one part. -/
def split : List Char → List (List Char)
  | [] => [[]]
  | c :: rest =>
    if c = '/' then [] :: split rest
    else
      match split rest with
      | [] => [[c]]
      | part :: others => (c :: part) :: others

/-- The components of a path, first to last. -/
def components (path : String) : List String :=
  ((split path.toList).map String.ofList).filter fun part => part ≠ "" && part ≠ "."

/-- Whether a path starts at the root. -/
def isAbsolute (path : String) : Bool := path.toList.head? = some '/'

/-- Whether the last part of a path can only be a directory. -/
def namesDirectory (path : String) : Bool :=
  match (split path.toList).getLast? with
  | some part => part = [] || part = ['.'] || part = ['.', '.']
  | none => true

/-! ### Limits -/

/-- The greatest length of a path in bytes. -/
def maxBytes : Nat := 4096

/-- The greatest length of a component in bytes. -/
def maxComponentBytes : Nat := 255

/-- Which limit a path exceeds. -/
inductive SizeFault where
  | path
  | component
deriving DecidableEq

/-- The limit that a path exceeds, the one of the whole path first. -/
def sizeFault? (path : String) : Option SizeFault :=
  if maxBytes < path.utf8ByteSize then some .path
  else if (components path).any fun part => decide (maxComponentBytes < part.utf8ByteSize) then
    some .component
  else none

end GroupStore.Path

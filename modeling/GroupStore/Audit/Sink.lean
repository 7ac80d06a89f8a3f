import GroupStore.Audit.Line
import GroupStore.Files

/-!
# Audit sinks

Where the events of a repository go.
-/

namespace GroupStore.Audit

/-- Where events go. -/
inductive Sink where
  /-- Nowhere. -/
  | none
  /-- To the error output, a line each. -/
  | errorOutput
  /-- To the end of a file, a line each. -/
  | file (place : Place)
  /-- To a list that can be looked at. -/
  | recorder (number : Nat)
deriving DecidableEq

/-- The words for the sinks that a configuration may choose. -/
inductive SinkKind where
  | none
  | stderr
  | file
deriving DecidableEq

/-- The word for a sink. -/
def SinkKind.label : SinkKind → String
  | none => "none"
  | stderr => "stderr"
  | file => "file"

/-- The sink that a word names. -/
def SinkKind.ofLabel? (word : String) : Option SinkKind :=
  [none, stderr, file].find? (·.label == word)

end GroupStore.Audit

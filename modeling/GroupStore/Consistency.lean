/-!
# Consistency levels

How many replicas must acknowledge a statement.  The levels are ordered as they are listed:
ascending strength, with the datacenter-local levels after the fixed replica counts.
-/

namespace GroupStore

/-- A requested acknowledgement level. -/
inductive Consistency where
  | any
  | one
  | two
  | three
  | localOne
  | localQuorum
  | quorum
  | eachQuorum
  | all
deriving DecidableEq

namespace Consistency

/-- The word for a level. -/
def label : Consistency → String
  | any => "any"
  | one => "one"
  | two => "two"
  | three => "three"
  | localOne => "local_one"
  | localQuorum => "local_quorum"
  | quorum => "quorum"
  | eachQuorum => "each_quorum"
  | all => "all"

/-- Every level, weakest first. -/
def levels : List Consistency :=
  [any, one, two, three, localOne, localQuorum, quorum, eachQuorum, all]

/-- The place of a level among all levels. -/
def rank (level : Consistency) : Nat := levels.idxOf level

/-- The level that a word names. -/
def ofLabel? (word : String) : Option Consistency := levels.find? (·.label == word)

instance : Ord Consistency := ⟨fun a b => compare a.rank b.rank⟩

/-- One local replica is asked for where nothing else is said. -/
instance : Inhabited Consistency := ⟨localOne⟩

end Consistency

end GroupStore

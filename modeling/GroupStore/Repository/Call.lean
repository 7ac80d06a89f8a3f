import GroupStore.Repository

/-!
# Calls and replies as data

The six calls on a started repository as one type, with the replies that they give.
-/

namespace GroupStore

/-- A call on a started repository. -/
inductive Call (α : Type) where
  | add (key : String) (value : α)
  | get (key : String)
  | confirm (id : String)
  | remove (key : String)
  | getKeys
  | scan

/-- What a call gives back. -/
inductive Reply (α : Type) where
  /-- The result that was added. -/
  | stored (value : α)
  /-- The result of the group, if it has one. -/
  | found (value : Option α)
  | confirmed (counters : Confirmation)
  | removed
  | keys (keys : List String)
  | identities (identities : List Identity)

variable {S α : Type}

/-- Change the value of a success. -/
def Program.mapOk {β : Type} (f : α → β) (p : Program S (Except RepositoryError α)) :
    Program S (Except RepositoryError β) :=
  p.map fun result => result.map f

/-- Perform a call. -/
def Running.perform (r : Running S α) : Call α → Program S (Except RepositoryError (Reply α))
  | .add key value => (r.add key value).mapOk .stored
  | .get key => (r.get key).mapOk .found
  | .confirm id => (r.confirm id).mapOk .confirmed
  | .remove key => (r.remove key).mapOk fun _ => .removed
  | .getKeys => r.getKeys.mapOk .keys
  | .scan => r.scan.mapOk .identities

end GroupStore

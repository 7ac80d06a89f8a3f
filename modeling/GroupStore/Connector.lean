import GroupStore.Sqlite.Config

/-!
# Sessions by handle, and connectors

Sessions live in a world and are named by handles; a session that injects faults wraps another
one.  A connector says how a repository that owns its session obtains it.
-/

namespace GroupStore

/-- The name of a session. -/
inductive Handle where
  | memory (index : Nat)
  | sqlite (index : Nat)
  /-- A session that injects faults around another one. -/
  | faulty (index : Nat) (inner : Handle)
deriving DecidableEq

/-- How to obtain a session. -/
inductive Connector where
  /-- A fresh memory session each time. -/
  | memory
  /-- A session over a database file. -/
  | sqlite (config : Sqlite.Config)
  /-- No session, ever. -/
  | unreachable (text : String)
  /-- The same session each time. -/
  | fixed (session : Handle)
deriving DecidableEq

end GroupStore

import GroupStore.Statement

/-!
# Audit events

What a repository reports about itself: each statement that a start has prepared, and each call
with its table, the names it was given, how it ended and, for a failure or a confirmation, a
detail.  No event carries a payload.
-/

namespace GroupStore.Audit

/-- The calls that are reported. -/
inductive Operation where
  | start
  | stop
  | add
  | get
  | confirm
  | remove
  | getKeys
  | scan
deriving DecidableEq

/-- The word for a call. -/
def Operation.label : Operation → String
  | start => "start"
  | stop => "stop"
  | add => "add"
  | get => "get"
  | confirm => "confirm"
  | remove => "remove"
  | getKeys => "get_keys"
  | scan => "scan"

/-- How a call ended. -/
inductive Outcome where
  | ok
  | notFound
  | stale
  | error
deriving DecidableEq

/-- The word for an ending. -/
def Outcome.label : Outcome → String
  | ok => "ok"
  | notFound => "not_found"
  | stale => "stale"
  | error => "error"

/-- One report. -/
inductive Event where
  /-- A statement was prepared, with the text that the session runs for it. -/
  | statement (table : String) (kind : StatementKind) (text : String) (consistency : Consistency)
  /-- A call ended. -/
  | call (table : String) (operation : Operation) (aggregationKey exchangeId : Option String)
      (outcome : Outcome) (detail : Option String)
deriving DecidableEq

end GroupStore.Audit

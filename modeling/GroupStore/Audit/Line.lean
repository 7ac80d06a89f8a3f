import GroupStore.Audit
import GroupStore.Json

/-!
# Audit lines

An event as a JSON object on a line of its own.  Fields that an event does not have are null; the
moment of the event, in milliseconds, stands second where it is told.  The JSON text of an event
holds no line end, so lines and events correspond.
-/

namespace GroupStore.Audit

/-- The moment of an event as a field. -/
def momentField : Option Nat → List (String × Json)
  | none => []
  | some moment => [("timestamp_ms", .int moment)]

/-- An event as a JSON object. -/
def Event.toJson (moment : Option Nat) : Event → Json
  | statement table kind text consistency =>
    .object (("event", .string "statement_prepared") :: momentField moment
      ++ [("table", .string table), ("kind", .string kind.label), ("cql", .string text),
        ("consistency", .string consistency.label)])
  | call table operation key id outcome detail =>
    .object (("event", .string "repository_audit") :: momentField moment
      ++ [("table", .string table), ("operation", .string operation.label),
        ("aggregation_key", .optional key), ("exchange_id", .optional id),
        ("outcome", .string outcome.label), ("detail", .optional detail)])

/-- An event as a line. -/
def Event.line (moment : Nat) (e : Event) : String := (e.toJson (some moment)).text ++ "\n"

end GroupStore.Audit

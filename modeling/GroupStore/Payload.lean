import GroupStore.Codec
import GroupStore.Exchange

/-!
# Payloads: exchanges in a labelled envelope

A payload is the UTF-8 text of an object with a format label and the exchange.  Payloads above a
size limit are neither written nor read, and a payload under another label is not read.

* `Payload.text` — the text of an exchange in its envelope;
* `Payload.read?` — the label and the exchange in a payload;
* `Payload.codec` — both under a size limit.
-/

namespace GroupStore.Payload

open Json (Tree)

/-- The label of the format that is written and read. -/
def label : String := "aggregation-json/1"

/-- The size limit unless another is set, 16 MiB. -/
def defaultLimit : Nat := 16 * 1024 * 1024

/-- The fields of an envelope, in order. -/
def fieldNames : List String := ["format", "value"]

/-- An exchange in its envelope. -/
def envelope (x : Exchange) : Json := .object [("format", .string label), ("value", x.toJson)]

/-- The text of an exchange in its envelope. -/
def text (x : Exchange) : String := (envelope x).text

/-- The label and the exchange of an envelope.  The envelope and the exchange are two of the
containers that may be open at once. -/
def ofTree? (t : Tree) : Option (String × Exchange) :=
  match Json.Record.slots? fieldNames t with
  | some [some format, some value] => do
    let format ← Exchange.readString? format
    let x ← Exchange.ofTree? (Json.maxDepth - 2) value
    return (format, x)
  | _ => none

/-- The label and the exchange of a payload. -/
def read? (bytes : ByteArray) : Option (String × Exchange) :=
  (Tree.ofBytes? bytes.toList).bind ofTree?

/-! ### The codec -/

/-- Why a payload is not written or not read. -/
inductive Fault where
  | tooLarge (size limit : Nat)
  | malformed
  | otherFormat (label : String)
deriving DecidableEq

/-- The wording of a fault for a group. -/
def Fault.message (key : String) : Fault → String
  | tooLarge size limit =>
    key ++ ": payload exceeds size limit: " ++ toString size ++ " bytes (max " ++ toString limit
      ++ ")"
  | malformed => key ++ ": payload is not an exchange in an envelope"
  | otherFormat label => key ++ ": unsupported payload format " ++ label

/-- Write an exchange within the limit. -/
def write (limit : Nat) (x : Exchange) : Except Fault ByteArray :=
  let bytes := (text x).toUTF8
  if bytes.size ≤ limit then .ok bytes else .error (.tooLarge bytes.size limit)

/-- Read an exchange; the size is looked at first and the label last. -/
def read (limit : Nat) (bytes : ByteArray) : Except Fault Exchange :=
  if bytes.size ≤ limit then
    match read? bytes with
    | none => .error .malformed
    | some (format, x) => if format = label then .ok x else .error (.otherFormat format)
  else .error (.tooLarge bytes.size limit)

/-- Exchanges as payloads of at most `limit` bytes. -/
def codec (limit : Nat) : Codec Exchange where
  exchangeId := Exchange.id
  marshal key x := (write limit x).mapError fun fault => .encode (fault.message key)
  unmarshal key bytes := (read limit bytes).mapError fun fault => .decode (fault.message key)

end GroupStore.Payload

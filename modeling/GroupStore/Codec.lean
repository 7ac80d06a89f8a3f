/-!
# Codecs

How a stored result becomes payload bytes and back.  A codec is told the group key, which it may
only use in its messages, and it knows the exchange id of every value.
-/

namespace GroupStore

/-- Why a value cannot be written or a payload cannot be read. -/
inductive CodecError where
  | encode (text : String)
  | decode (text : String)
deriving DecidableEq

/-- The wording of a codec's failure. -/
def CodecError.message : CodecError → String
  | encode text => "codec encode error: " ++ text
  | decode text => "codec decode error: " ++ text

/-- A way to store values. -/
structure Codec (α : Type) where
  /-- The exchange id that confirms a value. -/
  exchangeId : α → String
  /-- The payload of a value stored for a group. -/
  marshal : String → α → Except CodecError ByteArray
  /-- The value in a payload stored for a group. -/
  unmarshal : String → ByteArray → Except CodecError α

end GroupStore

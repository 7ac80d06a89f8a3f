import GroupStore.Json.Token

/-!
# Syntax trees of JSON texts

A tree is a text without its blanks: fields stay in the order written, repeated ones included,
strings stay raw and number literals unevaluated.  Nothing limits its depth.

The reader is a machine over tokens with a stack of open containers; like the tokenizer it is
folded over its input.
-/

namespace GroupStore.Json

/-- A parsed text. -/
inductive Tree where
  | null
  | bool (b : Bool)
  | number (n : Numeral)
  | text (raw : List UInt8)
  | array (items : List Tree)
  | object (fields : List (List UInt8 × Tree))

namespace Tree

/-- A container that is still open; its finished parts are kept latest first. -/
inductive Frame where
  | items (done : List Tree)
  /-- An object whose field of this name awaits its value. -/
  | fields (done : List (List UInt8 × Tree)) (name : List UInt8)

/-- What may come next, inside the open containers. -/
inductive State where
  | value (stack : List Frame)
  /-- After an opening bracket. -/
  | item (stack : List Frame)
  /-- After an opening brace. -/
  | field (stack : List Frame)
  /-- After a comma between fields. -/
  | name (done : List (List UInt8 × Tree)) (stack : List Frame)
  | colon (done : List (List UInt8 × Tree)) (name : List UInt8) (stack : List Frame)
  | nextItem (done : List Tree) (stack : List Frame)
  | nextField (done : List (List UInt8 × Tree)) (stack : List Frame)
  | complete (tree : Tree)

/-- A value is finished. -/
def supply (t : Tree) : List Frame → State
  | [] => .complete t
  | .items done :: stack => .nextItem (t :: done) stack
  | .fields done name :: stack => .nextField ((name, t) :: done) stack

/-- A token where a value must begin. -/
def begin (stack : List Frame) : Token → Option State
  | .null => some (supply null stack)
  | .bool b => some (supply (bool b) stack)
  | .number n => some (supply (number n) stack)
  | .text raw => some (supply (text raw) stack)
  | .openBracket => some (.item stack)
  | .openBrace => some (.field stack)
  | _ => none

/-- One token. -/
def step : State → Token → Option State
  | .value stack, token => begin stack token
  | .item stack, .closeBracket => some (supply (array []) stack)
  | .item stack, token => begin (.items [] :: stack) token
  | .field stack, .closeBrace => some (supply (object []) stack)
  | .field stack, .text name => some (.colon [] name stack)
  | .name done stack, .text name => some (.colon done name stack)
  | .colon done name stack, .colon => some (.value (.fields done name :: stack))
  | .nextItem done stack, .comma => some (.value (.items done :: stack))
  | .nextItem done stack, .closeBracket => some (supply (array done.reverse) stack)
  | .nextField done stack, .comma => some (.name done stack)
  | .nextField done stack, .closeBrace => some (supply (object done.reverse) stack)
  | _, _ => none

/-- Run the machine over some tokens. -/
def run : State → List Token → Option State
  | s, [] => some s
  | s, token :: rest =>
    match step s token with
    | none => none
    | some s' => run s' rest

/-- The tree of a token list that is one value. -/
def ofTokens? (tokens : List Token) : Option Tree :=
  match run (.value []) tokens with
  | some (.complete t) => some t
  | _ => none

/-- The tree of a text that is one value. -/
def ofBytes? (bytes : List UInt8) : Option Tree := (tokens? bytes).bind ofTokens?

end Tree

end GroupStore.Json

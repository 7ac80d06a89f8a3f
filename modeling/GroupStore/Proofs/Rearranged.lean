import GroupStore.Proofs.Json.Record
import GroupStore.Proofs.Payload

/-!
# Payloads that are laid out differently

A payload says the same in any order of its fields, among fields of other names whatever their
values are and however deep, and with blanks anywhere between its tokens.  Headers and properties
may be left out.  But nothing else may be: the fields of the envelope, the id and the body each
stand once, headers and properties at most once and not as null, and the label is the one that is
written.

* `Exchange.fields`, `Payload.envelopeFields` — the fields of an exchange and of its envelope;
* `Exchange.Damaged`, `Payload.Damaged` — fields of objects that are no exchange and no envelope;
* `Payload.unmarshal_rearranged` — what is read of payloads that are laid out differently.
-/

namespace GroupStore

open Json (Tree)
open Json.Record (Scattered valuesOf slots?_object_iff slots?_of_scattered)
open TextOrder (bytes)

/-! ### At most one value -/

section Single

variable {α : Type} {values : List α} {v : α}

theorem eq_singleton_of_head? (single : values.length ≤ 1) (first : values.head? = some v) :
    values = [v] := by
  match values with
  | [] => cases first
  | [w] => exact congrArg (· :: []) (Option.some.inj first)
  | _ :: _ :: _ => simp at single

theorem head?_of_mem (single : values.length ≤ 1) (member : v ∈ values) :
    values.head? = some v := by
  match values with
  | [] => cases member
  | [w] => exact congrArg some (List.mem_singleton.mp member).symm
  | _ :: _ :: _ => simp at single

end Single

/-! ### Exchanges -/

namespace Exchange

/-- The fields in the text of an exchange; headers and properties may be left out. -/
def fields (x : Exchange) (headers properties : Bool) : List (List UInt8 × Tree) :=
  [(Json.raw "exchange_id", .text (Json.raw x.id)), (Json.raw "body", x.body.tree)] ++
    ((if headers then [(Json.raw "headers", (Json.object x.headers).tree)] else []) ++
      if properties then [(Json.raw "properties", (Json.object x.properties).tree)] else [])

/-- An exchange without the headers or without the properties. -/
def keeping (x : Exchange) (headers properties : Bool) : Exchange :=
  ⟨x.id, x.body, if headers then x.headers else [], if properties then x.properties else []⟩

/-- Fields that make up no exchange: its id or its body do not stand there once, or the headers or
the properties stand there twice or as null. -/
inductive Damaged (inner : List (List UInt8 × Tree)) : Prop where
  | required {name : String} (required : name ∈ ["exchange_id", "body"])
      (count : (valuesOf name inner).length ≠ 1)
  | repeated {name : String} (optional : name ∈ ["headers", "properties"])
      (count : 1 < (valuesOf name inner).length)
  | null {name : String} (optional : name ∈ ["headers", "properties"])
      (stands : Tree.null ∈ valuesOf name inner)

variable {x : Exchange} {d : Nat} {inner : List (List UInt8 × Tree)} {headers properties : Bool}

theorem fieldNames_nodup : fieldNames.Nodup := by decide

theorem slots?_fields (x : Exchange) (headers properties : Bool) :
    Json.Record.slots? fieldNames (.object (x.fields headers properties)) =
      some [some (.text (Json.raw x.id)), some x.body.tree,
        if headers then some (Json.object x.headers).tree else none,
        if properties then some (Json.object x.properties).tree else none] := by
  cases headers <;> cases properties <;>
    simp [fields, Json.Record.slots?, fieldNames, Json.Record.ofFields, Json.Record.fill,
      Json.readText?_raw]

/-- An exchange that is not too deep is read from its fields in any order, among others. -/
theorem ofTree?_scattered (exact' : x.Exact) (shallow : x.toJson.depth ≤ d + 1)
    (scattered : Scattered fieldNames (x.fields headers properties) inner) :
    ofTree? d (.object inner) = some (x.keeping headers properties) := by
  obtain ⟨body, first, second⟩ := depth_le_iff.mp shallow
  rw [ofTree?, slots?_of_scattered fieldNames_nodup scattered, slots?_fields]
  cases headers <;> cases properties <;>
    simp [readString?, Json.readText?_raw, exact'.body.ofTree?_tree, readOptionalMap?,
      readMap?_tree exact'.headers, readMap?_tree exact'.properties, body, first, second, keeping]

/-- Null is no map of values. -/
theorem readOptionalMap?_null (d : Nat) : readOptionalMap? d (some .null) = none := by
  simp [readOptionalMap?, readMap?, Json.ofTree?]

/-- No exchange is read from damaged fields. -/
theorem ofTree?_damaged (damaged : Damaged inner) (d : Nat) : ofTree? d (.object inner) = none := by
  unfold ofTree?
  split
  · rename_i id body headers properties read
    obtain ⟨-, single, slots⟩ := (slots?_object_iff fieldNames_nodup).mp read
    simp only [fieldNames, List.map_cons, List.map_nil, List.cons.injEq, and_true] at slots
    obtain ⟨ownId, ownBody, ownHeaders, ownProperties⟩ := slots
    cases damaged with
    | @required name required count =>
      simp only [List.mem_cons, List.not_mem_nil, or_false] at required
      rcases required with rfl | rfl
      · rw [eq_singleton_of_head? (single _ (by decide)) ownId.symm] at count
        exact absurd rfl count
      · rw [eq_singleton_of_head? (single _ (by decide)) ownBody.symm] at count
        exact absurd rfl count
    | @repeated name optional count =>
      have declared : name ∈ fieldNames := by
        simp only [List.mem_cons, List.not_mem_nil, or_false] at optional
        rcases optional with rfl | rfl <;> decide
      exact absurd (single name declared) (Nat.not_le_of_lt count)
    | @null name optional stands =>
      have first {name : String} (declared : name ∈ fieldNames)
          (stands : Tree.null ∈ valuesOf name inner) :
          (valuesOf name inner).head? = some Tree.null := head?_of_mem (single name declared) stands
      simp only [List.mem_cons, List.not_mem_nil, or_false] at optional
      rcases optional with rfl | rfl
      · rw [ownHeaders, first (by decide) stands, readOptionalMap?_null]
        cases readString? id <;> cases Json.ofTree? d body <;> rfl
      · rw [ownProperties, first (by decide) stands, readOptionalMap?_null]
        cases readString? id <;> cases Json.ofTree? d body <;>
          cases readOptionalMap? d headers <;> rfl
  · rfl

end Exchange

/-! ### Envelopes -/

namespace Payload

/-- The fields in the text of an envelope around some fields of an exchange. -/
def envelopeFields (inner : List (List UInt8 × Tree)) : List (List UInt8 × Tree) :=
  [(Json.raw "format", .text (Json.raw label)), (Json.raw "value", .object inner)]

/-- Fields that make up no envelope: the label or the exchange do not stand there once, the label is
another one, or the fields of the exchange are damaged. -/
inductive Damaged (outer : List (List UInt8 × Tree)) : Prop where
  | required {name : String} (required : name ∈ fieldNames)
      (count : (valuesOf name outer).length ≠ 1)
  | label {format : Tree} (stands : format ∈ valuesOf "format" outer)
      (other : Exchange.readString? format ≠ some label)
  | exchange {inner : List (List UInt8 × Tree)}
      (stands : Tree.object inner ∈ valuesOf "value" outer) (damaged : Exchange.Damaged inner)

variable {x : Exchange} {inner outer : List (List UInt8 × Tree)} {headers properties : Bool}

theorem fieldNames_nodup : fieldNames.Nodup := by decide

theorem slots?_envelopeFields (inner : List (List UInt8 × Tree)) :
    Json.Record.slots? fieldNames (.object (envelopeFields inner)) =
      some [some (.text (Json.raw label)), some (.object inner)] := by
  simp [envelopeFields, Json.Record.slots?, fieldNames, Json.Record.ofFields, Json.Record.fill,
    Json.readText?_raw]

/-- An envelope is read from its fields and those of its exchange in any order, among others. -/
theorem ofTree?_scattered (exact' : x.Exact) (shallow : (envelope x).depth ≤ Json.maxDepth)
    (within : Scattered Exchange.fieldNames (x.fields headers properties) inner)
    (scattered : Scattered fieldNames (envelopeFields inner) outer) :
    ofTree? (.object outer) = some (label, x.keeping headers properties) := by
  have inside : x.toJson.depth ≤ Json.maxDepth - 2 + 1 := by
    rw [envelope_depth, Json.maxDepth] at shallow
    rw [Json.maxDepth]
    omega
  rw [ofTree?, slots?_of_scattered fieldNames_nodup scattered, slots?_envelopeFields]
  simp only [Exchange.readString?, Json.readText?_raw,
    Exchange.ofTree?_scattered exact' inside within]
  rfl

/-- No exchange under the label that is written is read from a damaged envelope. -/
theorem ofTree?_damaged (damaged : Damaged outer) (x : Exchange) :
    ofTree? (.object outer) ≠ some (label, x) := by
  unfold ofTree?
  split
  · rename_i format value read
    obtain ⟨-, single, slots⟩ := (slots?_object_iff fieldNames_nodup).mp read
    simp only [fieldNames, List.map_cons, List.map_nil, List.cons.injEq, and_true] at slots
    obtain ⟨ownFormat, ownValue⟩ := slots
    cases damaged with
    | @required name required count =>
      simp only [fieldNames, List.mem_cons, List.not_mem_nil, or_false] at required
      rcases required with rfl | rfl
      · rw [eq_singleton_of_head? (single _ (by decide)) ownFormat.symm] at count
        exact absurd rfl count
      · rw [eq_singleton_of_head? (single _ (by decide)) ownValue.symm] at count
        exact absurd rfl count
    | @label format' stands other =>
      rw [head?_of_mem (single _ (by decide)) stands, Option.some.injEq] at ownFormat
      subst ownFormat
      intro found
      obtain ⟨label', read', found⟩ := Option.bind_eq_some_iff.mp found
      obtain ⟨x', -, found⟩ := Option.bind_eq_some_iff.mp found
      cases found
      exact other read'
    | @exchange inner stands damaged =>
      rw [head?_of_mem (single _ (by decide)) stands, Option.some.injEq] at ownValue
      rw [ownValue, Exchange.ofTree?_damaged damaged]
      cases Exchange.readString? format <;> simp
  · simp

/-! ### Payloads -/

theorem envelope_tree (x : Exchange) :
    (envelope x).tree = .object (envelopeFields (x.fields true true)) := rfl

/-- An exchange without floating point numbers whose payload is read again is read from every
payload within the limit that has the same fields in any order, on both levels, among fields of
other names and with blanks between its tokens; where the headers or the properties are left out,
it is read without them.  But every payload of an object in which another field is left out, a
field stands twice, headers or properties are null or the label is another one is a decode error.
-/
theorem unmarshal_rearranged {limit : Nat} {key : String} {payload : ByteArray} {y : Exchange}
    (exact' : x.Exact) (written : (codec limit).marshal key x = .ok payload)
    (read : (codec limit).unmarshal key payload = .ok y) :
    y = x.keeping true true ∧
    (Tree.object (envelopeFields (x.fields true true))).IsText payload.toList ∧
    (∀ (headers properties : Bool) (inner outer : List (List UInt8 × Tree)),
      Scattered Exchange.fieldNames (x.fields headers properties) inner →
      Scattered fieldNames (envelopeFields inner) outer →
      ∀ text : ByteArray, (Tree.object outer).IsText text.toList →
        ∀ limit key, text.size ≤ limit →
          (codec limit).unmarshal key text = .ok (x.keeping headers properties)) ∧
    (∀ outer, Damaged outer → ∀ text : ByteArray, (Tree.object outer).IsText text.toList →
      ∀ limit key, ∃ message, (codec limit).unmarshal key text = .error (.decode message)) := by
  obtain ⟨-, own⟩ := marshal_eq_ok_iff.mp written
  rw [unmarshal_of_marshal exact' written key] at read
  have shallow : (envelope x).depth ≤ Json.maxDepth := by
    by_contra deep
    rw [if_neg deep] at read
    cases read
  rw [if_pos shallow, Except.ok.injEq] at read
  refine ⟨read.symm, ?_, ?_, ?_⟩
  · rw [← envelope_tree, ← own, Json.toList_eq]
    exact Json.isText_text (envelope x)
  · intro headers properties inner outer within scattered text spelled limit key fits
    rw [unmarshal_eq_ok_iff, read?, spelled.ofBytes?, Option.bind_some]
    exact ⟨fits, ofTree?_scattered exact' shallow within scattered⟩
  · intro outer damaged text spelled limit key
    rcases unmarshal_cases limit key text with ⟨z, found⟩ | failed
    · obtain ⟨-, found⟩ := unmarshal_eq_ok_iff.mp found
      rw [read?, spelled.ofBytes?, Option.bind_some] at found
      exact absurd found (ofTree?_damaged damaged z)
    · exact failed

/-- An exchange with a header. -/
def headedExchange : Exchange := ⟨"id", nested 2, [("kind", .bool true)], []⟩

/-- Its fields in another order, without the properties, among others that are too deep to be read
as a value. -/
def shuffledEnvelope : Json :=
  .object [("value", .object [("extra", nested 200), ("headers", .object [("kind", .bool true)]),
    ("body", nested 2), ("exchange_id", .string "id")]), ("more", .null),
    ("format", .string label)]

/-- Its fields with the label twice. -/
def doubledEnvelope : Json :=
  .object [("format", .string label), ("value", headedExchange.toJson), ("format", .string label)]

/-- The shuffled envelope is read as the exchange within its own size, and the doubled one is not
read. -/
theorem unmarshal_rearranged_headed :
    let shuffled := shuffledEnvelope.text.toUTF8
    (codec shuffled.size).unmarshal "group" shuffled = .ok headedExchange ∧
      ∃ message, (codec shuffled.size).unmarshal "group" doubledEnvelope.text.toUTF8 =
        .error (.decode message) := by
  intro shuffled
  have exact' : headedExchange.Exact := by
    refine ⟨nested_exact 2, .object (List.pairwise_singleton _ _) ?_, .object List.Pairwise.nil ?_⟩
    · intro field member
      rw [List.mem_singleton.mp member]
      exact .bool true
    · exact fun _ member => absurd member List.not_mem_nil
  have written : (codec (text headedExchange).toUTF8.size).marshal "group" headedExchange =
      .ok (text headedExchange).toUTF8 := marshal_eq_ok_iff.mpr ⟨Nat.le_refl _, rfl⟩
  have read := unmarshal_of_marshal exact' written "group"
  rw [if_pos (by decide +kernel)] at read
  obtain ⟨-, -, rearranged, damaged⟩ := unmarshal_rearranged exact' written read
  have spelled (v : Json) : v.tree.IsText v.text.toUTF8.toList := by
    rw [Json.toList_eq]
    exact Json.isText_text v
  have foreign (names : List String) (name : String) (value : Tree) (other : name ∉ names) :
      ∀ field ∈ [(Json.raw name, value)], Json.Record.Foreign names field := by
    intro field member
    rw [List.mem_singleton.mp member]
    exact ⟨name, Json.readText?_raw name, other⟩
  constructor
  · have within : Scattered Exchange.fieldNames (headedExchange.fields true false)
        (headedExchange.fields true false ++ [(Json.raw "extra", (nested 200).tree)]).reverse :=
      ⟨_, foreign _ "extra" (nested 200).tree (by decide), List.reverse_perm _⟩
    have scattered (inner : List (List UInt8 × Tree)) : Scattered fieldNames (envelopeFields inner)
        ([(Json.raw "value", .object inner), (Json.raw "more", .null)] ++
          [(Json.raw "format", .text (Json.raw label))]) :=
      ⟨_, foreign _ "more" .null (by decide), List.perm_append_comm⟩
    exact rearranged true false _ _ within (scattered _) _ (spelled shuffledEnvelope) _ "group"
      (Nat.le_refl _)
  · have declared : "format" ∈ fieldNames := by decide
    have twice : (valuesOf "format" [(Json.raw "format", .text (Json.raw label)),
        (Json.raw "value", headedExchange.toJson.tree),
        (Json.raw "format", .text (Json.raw label))]).length ≠ 1 := by
      simp [valuesOf, Json.readText?_raw]
    exact damaged _ (.required declared twice) _ (spelled doubledEnvelope) _ "group"

end Payload

end GroupStore

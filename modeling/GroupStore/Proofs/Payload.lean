import GroupStore.Payload
import GroupStore.Proofs.Json.Value

/-!
# Payloads are read as they were written, up to a depth

A payload that was written within the size limit is read again as the same exchange, exactly if not
too many containers are open at once in it.  Nothing looks at the depth when a payload is written.

* `Exchange.Exact` — exchanges that a program holds, without floating point numbers;
* `nestedExchange` — exchanges of a chosen depth;
* `Exchange.ofTree?_parts` — the parts of an exchange that is read;
* `Payload.read_of_write`, `Payload.unmarshal_of_marshal` — what is read of a payload that was
  written.
-/

namespace GroupStore

open Json (Tree)
open TextOrder (bytes)

/-- An exchange as a program holds it, without floating point numbers. -/
structure Exchange.Exact (x : Exchange) : Prop where
  body : x.body.Exact
  headers : (Json.object x.headers).Exact
  properties : (Json.object x.properties).Exact

namespace Exchange

/-- An exchange is one container deeper than its parts. -/
theorem depth_le_iff {x : Exchange} {d : Nat} : x.toJson.depth ≤ d + 1 ↔ x.body.depth ≤ d ∧
    (Json.object x.headers).depth ≤ d ∧ (Json.object x.properties).depth ≤ d := by
  rw [toJson, Json.depth, Nat.add_le_add_iff_right, Json.depthOfFields_le_iff]
  simp [Json.depth]

/-- A map of values is read again unless it is too deep. -/
theorem readMap?_tree {fields : List (String × Json)} (exact' : (Json.object fields).Exact)
    (d : Nat) : readMap? d (Json.object fields).tree =
      if (Json.object fields).depth ≤ d then some fields else none := by
  rw [readMap?, exact'.ofTree?_tree]
  by_cases fits : (Json.object fields).depth ≤ d
  · rw [if_pos fits, if_pos fits]
  · rw [if_neg fits, if_neg fits]

theorem slots?_tree (x : Exchange) : Json.Record.slots? fieldNames x.toJson.tree =
    some [some (.text (Json.raw x.id)), some x.body.tree, some (Json.object x.headers).tree,
      some (Json.object x.properties).tree] := by
  simp [toJson, Json.tree, Json.fieldTrees, Json.Record.slots?, fieldNames, Json.Record.ofFields,
    Json.Record.fill, Json.readText?_raw]

/-- An exchange is read again unless one of its parts is too deep. -/
theorem ofTree?_tree {x : Exchange} (exact' : x.Exact) (d : Nat) :
    ofTree? d x.toJson.tree = if x.toJson.depth ≤ d + 1 then some x else none := by
  simp only [ofTree?, slots?_tree, readString?, Json.readText?_raw, exact'.body.ofTree?_tree,
    readOptionalMap?, readMap?_tree exact'.headers, readMap?_tree exact'.properties, depth_le_iff]
  by_cases body : x.body.depth ≤ d <;> by_cases headers : (Json.object x.headers).depth ≤ d <;>
    by_cases properties : (Json.object x.properties).depth ≤ d <;>
    simp [body, headers, properties]

/-- A map that is read is the value of some tree, unless it was left out. -/
theorem readOptionalMap?_cases {d : Nat} {t : Option Tree} {fields : List (String × Json)}
    (read : readOptionalMap? d t = some fields) :
    fields = [] ∨ ∃ t, Json.ofTree? d t = some (.object fields) := by
  cases t with
  | none =>
    cases read
    exact .inl rfl
  | some t =>
    simp only [readOptionalMap?, readMap?] at read
    split at read
    · rename_i value
      cases read
      exact .inr ⟨t, value⟩
    · cases read

/-- The body of an exchange that is read is the value of some tree, and so are its headers and its
properties unless they were left out. -/
theorem ofTree?_parts {d : Nat} {t : Tree} {x : Exchange} (read : ofTree? d t = some x) :
    (∃ t, Json.ofTree? d t = some x.body) ∧
      (x.headers = [] ∨ ∃ t, Json.ofTree? d t = some (.object x.headers)) ∧
      (x.properties = [] ∨ ∃ t, Json.ofTree? d t = some (.object x.properties)) := by
  unfold ofTree? at read
  split at read
  · obtain ⟨id, -, read⟩ := Option.bind_eq_some_iff.mp read
    obtain ⟨body, value, read⟩ := Option.bind_eq_some_iff.mp read
    obtain ⟨headers, first, read⟩ := Option.bind_eq_some_iff.mp read
    obtain ⟨properties, second, read⟩ := Option.bind_eq_some_iff.mp read
    cases read
    exact ⟨⟨_, value⟩, readOptionalMap?_cases first, readOptionalMap?_cases second⟩
  · cases read

end Exchange

namespace Payload

/-! ### Payloads that are written and read -/

theorem marshal_eq_ok_iff {limit : Nat} {key : String} {x : Exchange} {payload : ByteArray} :
    (codec limit).marshal key x = .ok payload ↔
      (text x).toUTF8.size ≤ limit ∧ (text x).toUTF8 = payload := by
  simp only [codec, write]
  generalize (text x).toUTF8 = bytes
  by_cases fits : bytes.size ≤ limit
  · rw [if_pos fits]
    show Except.ok bytes = .ok payload ↔ _
    simp [fits]
  · rw [if_neg fits]
    exact iff_of_false (fun absent => by cases absent) fun both => fits both.1

theorem unmarshal_eq_ok_iff {limit : Nat} {key : String} {payload : ByteArray} {x : Exchange} :
    (codec limit).unmarshal key payload = .ok x ↔
      payload.size ≤ limit ∧ read? payload = some (label, x) := by
  simp only [codec, read]
  generalize read? payload = found
  by_cases fits : payload.size ≤ limit
  · rw [if_pos fits]
    rcases found with _ | ⟨format, y⟩
    · exact iff_of_false (fun absent => by cases absent) fun both => by cases both.2
    · by_cases own : format = label
      · simp only [if_pos own]
        show Except.ok y = .ok x ↔ _
        simp [fits, own]
      · simp only [if_neg own]
        exact iff_of_false (fun absent => by cases absent) fun both =>
          own (Prod.mk.inj (Option.some.inj both.2)).1
  · rw [if_neg fits]
    exact iff_of_false (fun absent => by cases absent) fun both => fits both.1

/-- What is not read is a decode error. -/
theorem unmarshal_cases (limit : Nat) (key : String) (payload : ByteArray) :
    (∃ x, (codec limit).unmarshal key payload = .ok x) ∨
      ∃ message, (codec limit).unmarshal key payload = .error (.decode message) := by
  have own : (codec limit).unmarshal key payload =
      (read limit payload).mapError fun fault => .decode (fault.message key) := rfl
  rw [own]
  cases read limit payload with
  | ok x => exact .inl ⟨x, rfl⟩
  | error fault => exact .inr ⟨fault.message key, rfl⟩

/-- An exchange in an envelope that is read is the exchange of some tree. -/
theorem exchange_of_read? {payload : ByteArray} {format : String} {x : Exchange}
    (read : read? payload = some (format, x)) :
    ∃ t, Exchange.ofTree? (Json.maxDepth - 2) t = some x := by
  obtain ⟨t, -, envelope⟩ := Option.bind_eq_some_iff.mp read
  unfold ofTree? at envelope
  split at envelope
  · obtain ⟨label, -, envelope⟩ := Option.bind_eq_some_iff.mp envelope
    obtain ⟨y, value, envelope⟩ := Option.bind_eq_some_iff.mp envelope
    cases envelope
    exact ⟨_, value⟩
  · cases envelope

/-! ### Reading what was written -/

/-- An envelope is one container deeper than the exchange in it. -/
theorem envelope_depth (x : Exchange) : (envelope x).depth = x.toJson.depth + 1 := by
  simp [envelope, Json.depth, Json.depthOfFields]

theorem slots?_envelope (x : Exchange) : Json.Record.slots? fieldNames (envelope x).tree =
    some [some (.text (Json.raw label)), some x.toJson.tree] := by
  simp [envelope, Json.tree, Json.fieldTrees, Json.Record.slots?, fieldNames, Json.Record.ofFields,
    Json.Record.fill, Json.readText?_raw]

/-- The tree of an envelope is read again unless too many containers are open in it. -/
theorem ofTree?_envelope {x : Exchange} (exact' : x.Exact) :
    ofTree? (envelope x).tree =
      if (envelope x).depth ≤ Json.maxDepth then some (label, x) else none := by
  have depth : (envelope x).depth ≤ Json.maxDepth ↔ x.toJson.depth ≤ Json.maxDepth - 2 + 1 := by
    rw [envelope_depth, Json.maxDepth]
    omega
  simp only [ofTree?, slots?_envelope, Exchange.readString?, Json.readText?_raw,
    Exchange.ofTree?_tree exact', depth]
  by_cases fits : x.toJson.depth ≤ Json.maxDepth - 2 + 1 <;> simp [fits]

theorem ofBytes?_text (x : Exchange) :
    Tree.ofBytes? (text x).toUTF8.toList = some (envelope x).tree := by
  have list : (text x).toUTF8.toList = bytes (text x) := Json.toList_eq _
  rw [list]
  exact Json.ofBytes?_object _

/-- What is read of the text of any exchange has its id. -/
theorem id_of_read?_text {x y : Exchange} {format : String}
    (read : read? (text x).toUTF8 = some (format, y)) : y.id = x.id := by
  rw [read?, ofBytes?_text, Option.bind_some, ofTree?, slots?_envelope] at read
  obtain ⟨format', -, read⟩ := Option.bind_eq_some_iff.mp read
  obtain ⟨y', own, read⟩ := Option.bind_eq_some_iff.mp read
  cases read
  rw [Exchange.ofTree?, Exchange.slots?_tree] at own
  obtain ⟨id, named, own⟩ := Option.bind_eq_some_iff.mp own
  obtain ⟨body, -, own⟩ := Option.bind_eq_some_iff.mp own
  obtain ⟨headers, -, own⟩ := Option.bind_eq_some_iff.mp own
  obtain ⟨properties, -, own⟩ := Option.bind_eq_some_iff.mp own
  cases own
  rw [Exchange.readString?, Json.readText?_raw] at named
  exact (Option.some.inj named).symm

theorem read?_text {x : Exchange} (exact' : x.Exact) :
    read? (text x).toUTF8 =
      if (envelope x).depth ≤ Json.maxDepth then some (label, x) else none := by
  rw [read?, ofBytes?_text, Option.bind_some, ofTree?_envelope exact']

/-- A payload that was written within the limit is read again within it, unless too many containers
are open at once. -/
theorem read_of_write {limit : Nat} {x : Exchange} (exact' : x.Exact) {payload : ByteArray}
    (written : write limit x = .ok payload) :
    read limit payload =
      if (envelope x).depth ≤ Json.maxDepth then .ok x else .error .malformed := by
  simp only [write] at written
  split at written
  · rename_i fits
    cases written
    rw [read, if_pos fits, read?_text exact']
    by_cases shallow : (envelope x).depth ≤ Json.maxDepth
    · simp [shallow]
    · simp [shallow]
  · cases written

/-- The same of the codec, whichever group it is told. -/
theorem unmarshal_of_marshal {limit : Nat} {key : String} {x : Exchange} (exact' : x.Exact)
    {payload : ByteArray} (written : (codec limit).marshal key x = .ok payload) (key' : String) :
    (codec limit).unmarshal key' payload =
      if (envelope x).depth ≤ Json.maxDepth then .ok x
      else .error (.decode (Fault.malformed.message key')) := by
  obtain ⟨fits, rfl⟩ := marshal_eq_ok_iff.mp written
  have read := read_of_write exact' (show write limit x = .ok _ from if_pos fits)
  simp only [codec, read]
  by_cases shallow : (envelope x).depth ≤ Json.maxDepth
  · rw [if_pos shallow, if_pos shallow]
    rfl
  · rw [if_neg shallow, if_neg shallow]
    rfl

end Payload

/-! ### Exchanges of a chosen depth -/

/-- So many arrays, one in the other. -/
def nested : Nat → Json
  | 0 => .null
  | n + 1 => .array [nested n]

theorem nested_exact (n : Nat) : (nested n).Exact := by
  induction n with
  | zero => exact .null
  | succ n ih => exact .array fun item member => List.mem_singleton.mp member ▸ ih

theorem nested_depth (n : Nat) : (nested n).depth = n := by
  induction n with
  | zero => rfl
  | succ n ih => simp [nested, Json.depth, Json.depthOfItems, ih]

theorem nested_size (n : Nat) (out : String) :
    ((nested n).write out).utf8ByteSize = out.utf8ByteSize + (2 * n + 4) := by
  induction n generalizing out with
  | zero =>
    rw [nested, Json.write, String.utf8ByteSize_append]
    rfl
  | succ n ih =>
    have bracket : "[".utf8ByteSize = 1 ∧ "]".utf8ByteSize = 1 := ⟨rfl, rfl⟩
    rw [nested, Json.write, Json.writeItems, String.utf8ByteSize_append, ih,
      String.utf8ByteSize_append, bracket.1, bracket.2]
    omega

/-- An exchange with a body of nested arrays. -/
def nestedExchange (n : Nat) : Exchange := ⟨"id", nested n, [], []⟩

theorem nestedExchange_exact (n : Nat) : (nestedExchange n).Exact where
  body := nested_exact n
  headers := .object List.Pairwise.nil fun _ member => absurd member List.not_mem_nil
  properties := .object List.Pairwise.nil fun _ member => absurd member List.not_mem_nil

theorem nestedExchange_depth (n : Nat) :
    (Payload.envelope (nestedExchange n)).depth = max n 1 + 2 := by
  simp only [Payload.envelope, Exchange.toJson, nestedExchange, Json.depth, Json.depthOfFields,
    nested_depth]
  omega

theorem nestedExchange_size (n : Nat) :
    (Payload.text (nestedExchange n)).toUTF8.size = 2 * n + 101 := by
  show (Payload.text (nestedExchange n)).utf8ByteSize = _
  have quoted (s : String) : (Json.quoted s).utf8ByteSize = (Json.raw s).length + 2 := by
    have length := congrArg List.length (Json.bytes_quoted s)
    rw [List.length_cons, List.length_append] at length
    exact length
  have names : (Json.raw "format").length = 6 ∧ (Json.raw Payload.label).length = 18 ∧
      (Json.raw "value").length = 5 ∧ (Json.raw "exchange_id").length = 11 ∧
      (Json.raw "id").length = 2 ∧ (Json.raw "body").length = 4 ∧
      (Json.raw "headers").length = 7 ∧ (Json.raw "properties").length = 10 := by
    decide +kernel
  have marks : "".utf8ByteSize = 0 ∧ ":".utf8ByteSize = 1 ∧ ",".utf8ByteSize = 1 ∧
      "\x7b".utf8ByteSize = 1 ∧ "\x7d".utf8ByteSize = 1 ∧ "\x7b\x7d".utf8ByteSize = 2 :=
    ⟨rfl, rfl, rfl, rfl, rfl, rfl⟩
  simp only [Payload.text, Json.text, Payload.envelope, Exchange.toJson, nestedExchange, Json.write,
    Json.writeFields, String.utf8ByteSize_append, nested_size, quoted]
  omega

end GroupStore

import GroupStore.Proofs.Json.Beginning
import GroupStore.Proofs.Json.Canonical
import GroupStore.Proofs.Json.Nesting
import GroupStore.Proofs.Payload

/-!
# Payloads there and back

An exchange without floating point numbers is written whenever its text fits, and what is written is
read again as long as not too many containers are open in it at once.  Nothing checks that when an
exchange is written.  But an exchange that was itself read from a payload, however that was spelled,
is shallow enough: it is written in one form from then on.

A payload is one value and its last byte closes it.  So nothing is read of a payload that is cut off
anywhere, and nothing but blanks may follow one.

* `Payload.open_in_payload` — the containers open at once in a payload that was written;
* `Payload.unmarshal_marshal_iff` — what is read again of what was written;
* `Payload.exact_of_unmarshal` — the exchanges that are read;
* `Payload.reencoded` — what is read again of what was read;
* `Payload.ofBytes?_torn`, `Payload.ofBytes?_padded`, `Payload.torn_or_padded` — payloads that are
  cut off or go on.
-/

namespace GroupStore

/-- An exchange without floating point numbers. -/
structure Exchange.FloatFree (x : Exchange) : Prop where
  body : x.body.FloatFree
  headers : ∀ header ∈ x.headers, header.2.FloatFree
  properties : ∀ property ∈ x.properties, property.2.FloatFree

/-- What is exact has no floating point numbers. -/
theorem Exchange.Exact.floatFree {x : Exchange} (exact' : x.Exact) : x.FloatFree where
  body := exact'.body.floatFree
  headers := by
    cases exact'.headers with
    | object _ all => exact fun header member => (all header member).floatFree
  properties := by
    cases exact'.properties with
    | object _ all => exact fun property member => (all property member).floatFree

namespace Payload

open TextOrder (bytes)

variable {limit : Nat} {key : String} {x : Exchange} {payload : ByteArray}

/-! ### What was written -/

/-- In a payload as many containers are open at once as its envelope is deep. -/
theorem open_in_payload (written : (codec limit).marshal key x = .ok payload) :
    Json.openAtOnce payload.toList = (envelope x).depth := by
  obtain ⟨-, rfl⟩ := marshal_eq_ok_iff.mp written
  have list : (text x).toUTF8.toList = bytes (text x) := Json.toList_eq _
  rw [list]
  exact Json.openAtOnce_object _

/-- The envelope and the exchange are two of the containers, a map is a third. -/
theorem envelope_depth_le_iff {d : Nat} : (envelope x).depth ≤ d + 3 ↔ x.body.depth ≤ d + 1 ∧
    (∀ header ∈ x.headers, header.2.depth ≤ d) ∧
      ∀ property ∈ x.properties, property.2.depth ≤ d := by
  rw [envelope_depth, Nat.add_le_add_iff_right, Exchange.depth_le_iff, Json.depth_object_le_iff,
    Json.depth_object_le_iff]

/-- For every size limit, every group and every exchange without floating point numbers: the
exchange is written exactly if its text fits.  What is written is read again as the same exchange
exactly if at most 127 containers are open in it at once, which is to say that the body is at most
125 and no header and no property more than 124 containers deep; otherwise it is a decode error. -/
theorem unmarshal_marshal_iff (limit : Nat) (key : String) {x : Exchange} (exact' : x.Exact) :
    ((∃ payload, (codec limit).marshal key x = .ok payload) ↔ (text x).toUTF8.size ≤ limit) ∧
    ∀ payload, (codec limit).marshal key x = .ok payload → ∀ key',
      ((codec limit).unmarshal key' payload = .ok x ↔ Json.openAtOnce payload.toList ≤ 127) ∧
      (¬Json.openAtOnce payload.toList ≤ 127 →
        ∃ message, (codec limit).unmarshal key' payload = .error (.decode message)) ∧
      (Json.openAtOnce payload.toList ≤ 127 ↔ x.body.depth ≤ 125 ∧
        (∀ header ∈ x.headers, header.2.depth ≤ 124) ∧
          ∀ property ∈ x.properties, property.2.depth ≤ 124) := by
  constructor
  · constructor
    · rintro ⟨payload, written⟩
      exact (marshal_eq_ok_iff.mp written).1
    · intro fits
      exact ⟨_, marshal_eq_ok_iff.mpr ⟨fits, rfl⟩⟩
  · intro payload written key'
    have read := unmarshal_of_marshal exact' written key'
    rw [Json.maxDepth] at read
    rw [open_in_payload written]
    refine ⟨?_, ?_, envelope_depth_le_iff⟩
    · rw [read]
      by_cases shallow : (envelope x).depth ≤ 127 <;> simp [shallow]
    · intro deep
      rw [if_neg deep] at read
      exact ⟨_, read⟩

/-- A body of 125 arrays is read again and one of 126 is not. -/
theorem unmarshal_marshal_boundary :
    (∃ payload, (codec defaultLimit).marshal "group" (nestedExchange 125) = .ok payload ∧
      (codec defaultLimit).unmarshal "group" payload = .ok (nestedExchange 125)) ∧
    ∃ payload, (codec defaultLimit).marshal "group" (nestedExchange 126) = .ok payload ∧
      ∃ message, (codec defaultLimit).unmarshal "group" payload = .error (.decode message) := by
  have fits (n : Nat) (small : n < 1000) :
      (text (nestedExchange n)).toUTF8.size ≤ defaultLimit := by
    rw [nestedExchange_size, defaultLimit]
    omega
  constructor
  · obtain ⟨writes, reads⟩ :=
      unmarshal_marshal_iff defaultLimit "group" (nestedExchange_exact 125)
    obtain ⟨payload, written⟩ := writes.mpr (fits 125 (by decide))
    obtain ⟨again, -, shallow⟩ := reads payload written "group"
    refine ⟨payload, written, again.mpr (shallow.mpr ⟨?_, ?_, ?_⟩)⟩
    · exact Nat.le_of_eq (nested_depth 125)
    · exact fun header member => absurd member List.not_mem_nil
    · exact fun property member => absurd member List.not_mem_nil
  · obtain ⟨writes, reads⟩ :=
      unmarshal_marshal_iff defaultLimit "group" (nestedExchange_exact 126)
    obtain ⟨payload, written⟩ := writes.mpr (fits 126 (by decide))
    obtain ⟨-, fails, shallow⟩ := reads payload written "group"
    refine ⟨payload, written, fails fun most => ?_⟩
    have body : (nested 126).depth ≤ 125 := (shallow.mp most).1
    rw [nested_depth] at body
    omega

/-! ### What was read -/

/-- A map that is read, or was left out, is held as a program holds it. -/
theorem exact_of_map {d : Nat} {fields : List (String × Json)}
    (read : fields = [] ∨ ∃ t, Json.ofTree? (d + 1) t = some (.object fields))
    (free : ∀ field ∈ fields, field.2.FloatFree) :
    (Json.object fields).Exact ∧ (Json.object fields).depth ≤ d + 1 := by
  rcases read with rfl | ⟨t, value⟩
  · exact ⟨.object List.Pairwise.nil fun field member => absurd member List.not_mem_nil,
      by simp [Json.depth, Json.depthOfFields]⟩
  · exact Json.ofTree?_exact value (.object free)

/-- An exchange from a payload, if it is without floating point numbers, is held as a program holds
it and is not too deep to be read again. -/
theorem exact_of_unmarshal (read : (codec limit).unmarshal key payload = .ok x)
    (free : x.FloatFree) : x.Exact ∧ (envelope x).depth ≤ Json.maxDepth := by
  obtain ⟨-, found⟩ := unmarshal_eq_ok_iff.mp read
  obtain ⟨t, value⟩ := exchange_of_read? found
  obtain ⟨⟨body, own⟩, headers, properties⟩ := Exchange.ofTree?_parts value
  have body := Json.ofTree?_exact own free.body
  have headers := exact_of_map headers free.headers
  have properties := exact_of_map properties free.properties
  have depth := Exchange.depth_le_iff.mpr ⟨body.2, headers.2, properties.2⟩
  refine ⟨⟨body.1, headers.1, properties.1⟩, ?_⟩
  rw [envelope_depth]
  exact Nat.succ_le_succ depth

/-- Whatever bytes an exchange without floating point numbers was read from, under whatever limit:
if its own text fits, it is written, what is written is read as the same exchange, and this is
written as the same bytes. -/
theorem reencoded {limit' : Nat} {key' : String}
    (read : (codec limit').unmarshal key' payload = .ok x) (free : x.FloatFree)
    (fits : (text x).toUTF8.size ≤ limit) :
    ∃ canonical, (codec limit).marshal key x = .ok canonical ∧
      (codec limit).unmarshal key canonical = .ok x ∧
      ((codec limit).unmarshal key canonical).bind ((codec limit).marshal key) = .ok canonical := by
  obtain ⟨exact', shallow⟩ := exact_of_unmarshal read free
  have written : (codec limit).marshal key x = .ok (text x).toUTF8 :=
    marshal_eq_ok_iff.mpr ⟨fits, rfl⟩
  have again := unmarshal_of_marshal exact' written key
  rw [if_pos shallow] at again
  refine ⟨_, written, again, ?_⟩
  rw [again]
  exact written

/-- A payload with the fields in another order, with blanks, an escape in a name and a field that is
not known, and without headers and properties. -/
def loosePayload : String :=
  "\x7b \"value\":\x7b\"body\":[[null]],\"\\u0065xchange_id\":\"id\",\"more\":[-0.5]\x7d ,"
    ++ "\n \"format\":\"aggregation-json/1\" \x7d"

theorem read?_loosePayload : read? loosePayload.toUTF8 = some (label, nestedExchange 2) := by
  let half : Json.Numeral := ⟨true, [0], some [5], none⟩
  let exchange : Json.Tree := .object [(bytes "body", .array [.array [.null]]),
    (bytes "\\u0065xchange_id", .text (bytes "id")), (bytes "more", .array [.number half])]
  let tree : Json.Tree := .object [(bytes "value", exchange), (bytes "format", .text (bytes label))]
  have found : Json.tokens? loosePayload.toUTF8.toList = some tree.tokens := by
    rw [Json.toList_eq]
    decide +kernel
  have texts : Json.readText? (bytes "value") = some "value" ∧
      Json.readText? (bytes "format") = some "format" ∧
      Json.readText? (bytes label) = some label ∧ Json.readText? (bytes "body") = some "body" ∧
      Json.readText? (bytes "\\u0065xchange_id") = some "exchange_id" ∧
      Json.readText? (bytes "id") = some "id" ∧ Json.readText? (bytes "more") = some "more" := by
    decide +kernel
  rw [read?, Json.Tree.ofBytes?, found, Option.bind_some, Json.Tree.ofTokens?_tokens,
    Option.bind_some]
  simp [tree, exchange, ofTree?, Json.Record.slots?, Json.Record.ofFields, Json.Record.fill,
    fieldNames, Exchange.readString?, texts, Exchange.ofTree?, Exchange.fieldNames, Json.maxDepth,
    Json.ofTree?, Exchange.readOptionalMap?, nestedExchange, nested]

/-- The loose payload is written without blanks and with all its fields. -/
theorem reencoded_loosePayload :
    (codec 200).unmarshal "group" loosePayload.toUTF8 = .ok (nestedExchange 2) ∧
      ∃ canonical, (codec 200).marshal "group" (nestedExchange 2) = .ok canonical ∧
        (codec 200).unmarshal "group" canonical = .ok (nestedExchange 2) ∧
        ((codec 200).unmarshal "group" canonical).bind ((codec 200).marshal "group") =
          .ok canonical := by
  have read : (codec 200).unmarshal "group" loosePayload.toUTF8 = .ok (nestedExchange 2) :=
    unmarshal_eq_ok_iff.mpr ⟨by decide +kernel, read?_loosePayload⟩
  exact ⟨read, reencoded read (nestedExchange_exact 2).floatFree
    (by rw [nestedExchange_size]; decide)⟩

/-! ### Payloads that are cut off or go on -/

/-- The tree of what was written is that of the envelope. -/
theorem ofBytes?_of_marshal (written : (codec limit).marshal key x = .ok payload) :
    Json.Tree.ofBytes? payload.toList = some (envelope x).tree := by
  obtain ⟨-, rfl⟩ := marshal_eq_ok_iff.mp written
  exact ofBytes?_text x

/-- No proper beginning of what was written has a tree. -/
theorem ofBytes?_torn {front rest : ByteArray}
    (written : (codec limit).marshal key x = .ok (front ++ rest)) (torn : rest.toList ≠ []) :
    Json.Tree.ofBytes? front.toList = none := by
  have long := ofBytes?_of_marshal written
  rw [Json.toList_append] at long
  cases short : Json.Tree.ofBytes? front.toList with
  | none => rfl
  | some t =>
    exfalso
    rcases Json.Tree.ofBytes?_append short long with ⟨-, blank⟩ | ⟨n, n', -, number⟩
    · obtain ⟨-, own⟩ := marshal_eq_ok_iff.mp written
      obtain ⟨before, brace⟩ := Json.ends_in_brace [("format", .string label), ("value", x.toJson)]
      rcases List.eq_nil_or_concat rest.toList with empty | ⟨inner, last, last'⟩
      · exact torn empty
      · rw [List.concat_eq_append] at last'
        have appendEq : before ++ [Json.ascii '\x7d'] = (front.toList ++ inner) ++ [last] := by
          rw [List.append_assoc, ← last', ← Json.toList_append, ← own, ← brace]
          exact (Json.toList_eq _).symm
        obtain ⟨-, lastEq⟩ := List.append_inj' appendEq rfl
        have final := blank last (by rw [last']; exact List.mem_append_right _ List.mem_cons_self)
        rw [← List.singleton_inj.mp lastEq] at final
        exact absurd final (by decide)
    · cases number

/-- What was written is read again with blanks after it, and with nothing else after it. -/
theorem ofBytes?_padded (written : (codec limit).marshal key x = .ok payload) (rest : ByteArray) :
    Json.Tree.ofBytes? (payload ++ rest).toList =
      if ∀ b ∈ rest.toList, Json.Tokenizer.isBlank b = true then some (envelope x).tree
      else none := by
  have short := ofBytes?_of_marshal written
  rw [Json.toList_append]
  split
  · rename_i blank
    exact Json.Tree.ofBytes?_blank short blank
  · rename_i other
    cases long : Json.Tree.ofBytes? (payload.toList ++ rest.toList) with
    | none => rfl
    | some t =>
      rcases Json.Tree.ofBytes?_append short long with ⟨-, blank⟩ | ⟨n, n', number, -⟩
      · exact absurd blank other
      · cases number

/-- Of the payload of any exchange that is written and read: no proper beginning is read, and the
payload with something after it is read, within the limit, exactly if that is blanks, line ends and
tabs only, and then as the same exchange.  Without floating point numbers it is the exchange that
was written. -/
theorem torn_or_padded (limit : Nat) (key : String) {x y : Exchange} {payload : ByteArray}
    (written : (codec limit).marshal key x = .ok payload)
    (read : (codec limit).unmarshal key payload = .ok y) :
    (∀ front rest, front ++ rest = payload → rest.size ≠ 0 →
      ∃ message, (codec limit).unmarshal key front = .error (.decode message)) ∧
    (∀ rest, (payload ++ rest).size ≤ limit →
      ((∃ z, (codec limit).unmarshal key (payload ++ rest) = .ok z) ↔
        ∀ b ∈ rest.toList, b = 0x20 ∨ b = 0x0A ∨ b = 0x0D ∨ b = 0x09) ∧
      ∀ z, (codec limit).unmarshal key (payload ++ rest) = .ok z → z = y) ∧
    (x.Exact → y = x) := by
  obtain ⟨-, found⟩ := unmarshal_eq_ok_iff.mp read
  rw [read?, ofBytes?_of_marshal written, Option.bind_some] at found
  refine ⟨?_, ?_, ?_⟩
  · rintro front rest rfl torn
    rcases unmarshal_cases limit key front with ⟨z, whole⟩ | fails
    · obtain ⟨-, whole⟩ := unmarshal_eq_ok_iff.mp whole
      have more : rest.toList ≠ [] := by
        intro empty
        rw [Json.toList_eq] at empty
        exact torn (congrArg List.length empty)
      rw [read?, ofBytes?_torn written more] at whole
      cases whole
    · exact fails
  · intro rest fits
    have blanks : (∀ b ∈ rest.toList, Json.Tokenizer.isBlank b = true) ↔
        ∀ b ∈ rest.toList, b = 0x20 ∨ b = 0x0A ∨ b = 0x0D ∨ b = 0x09 :=
      forall₂_congr fun b _ => Json.Tokenizer.isBlank_iff
    have reads (z : Exchange) : (codec limit).unmarshal key (payload ++ rest) = .ok z ↔
        (∀ b ∈ rest.toList, Json.Tokenizer.isBlank b = true) ∧ z = y := by
      rw [unmarshal_eq_ok_iff, read?, ofBytes?_padded written]
      by_cases all : ∀ b ∈ rest.toList, Json.Tokenizer.isBlank b = true
      · rw [if_pos all, Option.bind_some, found]
        constructor
        · rintro ⟨-, pairEq⟩
          cases pairEq
          exact ⟨all, rfl⟩
        · rintro ⟨-, rfl⟩
          exact ⟨fits, rfl⟩
      · rw [if_neg all]
        simp [all]
    rw [← blanks]
    constructor
    · constructor
      · rintro ⟨z, whole⟩
        exact ((reads z).mp whole).1
      · intro all
        exact ⟨y, (reads y).mpr ⟨all, rfl⟩⟩
    · exact fun z whole => ((reads z).mp whole).2
  · intro exact'
    rw [ofTree?_envelope exact'] at found
    split at found
    · cases found
      rfl
    · cases found

/-- A line end may follow a payload; a letter may not, nor may the last brace be missing. -/
theorem torn_or_padded_nested :
    ∃ payload, (codec 200).marshal "group" (nestedExchange 2) = .ok payload ∧
      (codec 200).unmarshal "group" (payload ++ "\n".toUTF8) = .ok (nestedExchange 2) ∧
      (¬∃ z, (codec 200).unmarshal "group" (payload ++ "x".toUTF8) = .ok z) ∧
      ∀ front, front ++ "\x7d".toUTF8 = payload →
        ∃ message, (codec 200).unmarshal "group" front = .error (.decode message) := by
  have size := nestedExchange_size 2
  have written : (codec 200).marshal "group" (nestedExchange 2) =
      .ok (text (nestedExchange 2)).toUTF8 := marshal_eq_ok_iff.mpr ⟨by omega, rfl⟩
  have read := unmarshal_of_marshal (nestedExchange_exact 2) written "group"
  rw [nestedExchange_depth, if_pos (by decide)] at read
  obtain ⟨torn, padded, -⟩ := torn_or_padded 200 "group" written read
  refine ⟨_, written, ?_, ?_, fun front cut => torn front _ cut (by decide)⟩
  · have newline : "\n".toUTF8.size = 1 := rfl
    obtain ⟨reads, unique⟩ := padded "\n".toUTF8 (by rw [ByteArray.size_append]; omega)
    obtain ⟨z, whole⟩ := reads.mpr (by rw [Json.toList_eq]; decide +kernel)
    rw [whole, unique z whole]
  · have letter : "x".toUTF8.size = 1 := rfl
    obtain ⟨reads, -⟩ := padded "x".toUTF8 (by rw [ByteArray.size_append]; omega)
    intro whole
    exact absurd (reads.mp whole) (by rw [Json.toList_eq]; decide +kernel)

end Payload

end GroupStore

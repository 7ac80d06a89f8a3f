import GroupStore.Json

/-!
# Records in JSON texts

A record has named fields in a declared order.  It may be written as an object, in any order and
among fields that are not known, or as an array of the values in the declared order, from which
values may be missing at the end.  A known field must not be written twice.
-/

namespace GroupStore.Json.Record

/-- Give a known field its value; none if it has one already. -/
def fill (name : String) (value : Tree) :
    List (String × Option Tree) → Option (List (String × Option Tree))
  | [] => some []
  | (known, slot) :: rest =>
    if known = name then
      match slot with
      | none => some ((known, some value) :: rest)
      | some _ => none
    else (fill name value rest).map ((known, slot) :: ·)

/-- The values of the known fields of an object. -/
def ofFields (slots : List (String × Option Tree)) :
    List (List UInt8 × Tree) → Option (List (String × Option Tree))
  | [] => some slots
  | (raw, value) :: rest =>
    (readText? raw).bind fun name => (fill name value slots).bind fun slots => ofFields slots rest

/-- The values of the fields by their place in an array. -/
def ofItems : List String → List Tree → Option (List (Option Tree))
  | [], [] => some []
  | [], _ :: _ => none
  | _ :: names, [] => (ofItems names []).map (none :: ·)
  | _ :: names, item :: items => (ofItems names items).map (some item :: ·)

/-- The value of each declared field, where it has one. -/
def slots? (names : List String) : Tree → Option (List (Option Tree))
  | .object fields => (ofFields (names.map (·, none)) fields).map (·.map Prod.snd)
  | .array items => ofItems names items
  | _ => none

/-- Whether an object has only declared fields. -/
def onlyKnown (names : List String) : Tree → Bool
  | .object fields => fields.all fun field =>
    match readText? field.1 with
    | some name => names.contains name
    | none => false
  | _ => true

end GroupStore.Json.Record

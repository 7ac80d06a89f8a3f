import GroupStore.Command
import GroupStore.Proofs.Json.Denotation
import GroupStore.Proofs.Json.Line
import GroupStore.Proofs.Payload
import GroupStore.Proofs.Replies
import GroupStore.Proofs.Trace

/-!
# What a command prints

The result of a call is printed as lines of JSON: one for each scanned result, and one for every
other call.  None of them has a line end inside, and its fields, looked up by their names, give the
result back.  An output that refuses a line has taken all lines before it.

* `Command.identityOf?`, `foundOf?`, `confirmationOf?`, `removalOf?` — what a line says;
* `Command.Action.task?` — the call of an action, with its failure and its lines;
* `Command.Reads`, `Command.reads_of_perform` — the lines say what the call replied;
* `Command.Output.Takes`, `Command.print_takes` — what an output has taken.
-/

namespace GroupStore

/-! ### Parts of a value -/

namespace Json

/-- The field of an object under a name. -/
def field? (name : String) : Json → Option Json
  | object fields => Sorted.get? name fields
  | _ => none

/-- The fields of an object. -/
def fields? : Json → Option (List (String × Json))
  | object fields => some fields
  | _ => none

/-- The text of a string. -/
def string? : Json → Option String
  | string s => some s
  | _ => none

/-- The truth of a boolean. -/
def bool? : Json → Option Bool
  | bool b => some b
  | _ => none

/-- The number of a counter. -/
def counter? : Json → Option Nat
  | number (.int (.ofNat n)) => some n
  | _ => none

end Json

/-- An exchange whose text denotes it. -/
def Exchange.Sound (x : Exchange) : Prop := x.toJson.Sound

/-- The exchange of an object with the fields of one. -/
def Exchange.ofJson? (v : Json) : Option Exchange := do
  let id ← (v.field? "exchange_id").bind Json.string?
  let body ← v.field? "body"
  let headers ← (v.field? "headers").bind Json.fields?
  let properties ← (v.field? "properties").bind Json.fields?
  return ⟨id, body, headers, properties⟩

namespace Command

open Json (denoted?)

/-! ### What a line says -/

/-- The scanned result of a line. -/
def identityOf? (line : String) : Option Identity := do
  let v ← denoted? line
  let key ← (v.field? "aggregation_key").bind Json.string?
  let id ← (v.field? "exchange_id").bind Json.string?
  return ⟨key, id⟩

/-- The group of a line and its result; a line has an exchange exactly if it says so. -/
def foundOf? (line : String) : Option (String × Option Exchange) := do
  let v ← denoted? line
  let key ← (v.field? "aggregation_key").bind Json.string?
  let found ← (v.field? "found").bind Json.bool?
  match found, v.field? "exchange" with
  | true, some x => (Exchange.ofJson? x).map fun x => (key, some x)
  | false, none => some (key, none)
  | _, _ => none

/-- The id of a line and the counters of its confirmation. -/
def confirmationOf? (line : String) : Option (String × Confirmation) := do
  let v ← denoted? line
  let id ← (v.field? "exchange_id").bind Json.string?
  let taken ← (v.field? "matched").bind Json.counter?
  let deleted ← (v.field? "deleted").bind Json.counter?
  let stale ← (v.field? "stale").bind Json.counter?
  return (id, ⟨taken, deleted, stale⟩)

/-- The group of a line that says that its result was removed. -/
def removalOf? (line : String) : Option String := do
  let v ← denoted? line
  let key ← (v.field? "aggregation_key").bind Json.string?
  let removed ← (v.field? "removed").bind Json.bool?
  if removed then some key else none

theorem identityOf?_line (i : Identity) : identityOf? (identityLine i) = some i := by
  rw [identityOf?, identityLine, Json.denoted?_object (by simp)]
  rfl

theorem foundOf?_line (key : String) {found : Option Exchange} (sound : ∀ x ∈ found, x.Sound) :
    foundOf? (foundLine key found) = some (key, found) := by
  cases found with
  | none =>
    rw [foundOf?, foundLine, Json.denoted?_object (by simp)]
    rfl
  | some x =>
    have own : x.toJson.Sound := sound x rfl
    rw [foundOf?, foundLine, Json.denoted?_object (by simp [own])]
    rfl

theorem confirmationOf?_line (id : String) (c : Confirmation) :
    confirmationOf? (confirmationLine id c) = some (id, c) := by
  rw [confirmationOf?, confirmationLine, Json.denoted?_object (by simp)]
  rfl

theorem removalOf?_line (key : String) : removalOf? (removalLine key) = some key := by
  rw [removalOf?, removalLine, Json.denoted?_object (by simp)]
  rfl

/-! ### Results that are read -/

/-- A map that is read or was left out has only values that a text can denote. -/
theorem sound_of_map {depth : Nat} {fields : List (String × Json)}
    (read : fields = [] ∨ ∃ t, Json.ofTree? depth t = some (.object fields)) :
    (Json.object fields).Sound := by
  rcases read with rfl | ⟨t, value⟩
  · exact Json.sound_object_nil
  · exact Json.ofTree?_sound value

/-- An exchange from a payload is one whose text denotes it. -/
theorem sound_of_unmarshal {key : String} {payload : ByteArray} {x : Exchange}
    (read : codec.unmarshal key payload = .ok x) : x.Sound := by
  obtain ⟨-, found⟩ := Payload.unmarshal_eq_ok_iff.mp read
  obtain ⟨t, value⟩ := Payload.exchange_of_read? found
  obtain ⟨⟨body, own⟩, headers, properties⟩ := Exchange.ofTree?_parts value
  simp [Exchange.Sound, Exchange.toJson, Json.ofTree?_sound own, sound_of_map headers,
    sound_of_map properties]

/-! ### Actions as calls -/

/-- What an action comes to: a call, what its failure is and the lines of its reply. -/
structure Task where
  call : Call Exchange
  failure : RepositoryError → Failure
  lines : Reply Exchange → List String

/-- The task of an action; checking a configuration is none. -/
def Action.task? : Action → Option Task
  | .keys => some ⟨.scan, .scan, fun
    | .identities found => found.map identityLine
    | _ => []⟩
  | .get key => some ⟨.get key, .get, fun
    | .found found => [foundLine key found]
    | _ => []⟩
  | .confirm id => some ⟨.confirm id, .confirm, fun
    | .confirmed counters => [confirmationLine id counters]
    | _ => []⟩
  | .remove key => some ⟨.remove key, .remove, fun
    | .removed => [removalLine key]
    | _ => []⟩
  | .validate => none

/-- The lines of an action read back to the reply: a line for each scanned result in the order of
the scan, and one line for every other call. -/
def Reads (lines : List String) : Action → Reply Exchange → Prop
  | .keys, .identities found => lines.map identityOf? = found.map some
  | .get key, .found found => lines.map foundOf? = [some (key, found)]
  | .confirm id, .confirmed counters => lines.map confirmationOf? = [some (id, counters)]
  | .remove key, .removed => lines.map removalOf? = [some key]
  | _, _ => False

/-- An action performs the call of its task, and its outcome is the reply in lines. -/
theorem perform_eq (r : Running Handle Exchange) {action : Action} {task : Task}
    (asks : action.task? = some task) :
    perform r action = (r.perform task.call).map fun result =>
      (result.map task.lines).mapError task.failure := by
  have outputEq {α : Type} (p : Program Handle (Except RepositoryError α))
      (reply : α → Reply Exchange)
      (lines : α → List String) (own : ∀ a, task.lines (reply a) = lines a) :
      (p.map fun result => (result.map lines).mapError task.failure) =
        (p.mapOk reply).map fun result => (result.map task.lines).mapError task.failure := by
    rw [Program.mapOk, Program.map_map]
    congr 1
    funext result
    cases result with
    | error e => rfl
    | ok a => exact congrArg Except.ok (own a).symm
  cases action with
  | keys =>
    cases asks
    exact outputEq r.scan .identities _ fun _ => rfl
  | get key =>
    cases asks
    exact outputEq (r.get key) .found _ fun _ => rfl
  | confirm id =>
    cases asks
    exact outputEq (r.confirm id) .confirmed _ fun _ => rfl
  | remove key =>
    cases asks
    exact outputEq (r.remove key) (fun _ => .removed) _ fun _ => rfl
  | validate => cases asks

end Command

/-! ### What a get finds -/

namespace Running

variable {S σ α : Type}

/-- A get that succeeds has one statement executed and reads the rows that are returned. -/
theorem get_rows (r : Running S α) {key : String} {value : Option α} {h : Host σ S} {w : σ}
    (got : ((r.get key).run h w).1 = .ok value) : ∃ bound rows,
      (r.get key).trace h w = [.execute ⟨r.session, bound, .ok rows⟩] ∧
        r.readResult key rows = .ok value := by
  rw [get, Program.run_reported] at got
  rw [get, Program.trace_reported]
  have got : ((r.selectResult key).run h w).1 = .ok value := got
  unfold selectResult submit at got ⊢
  cases bound : r.statements.selectByKey.bind (r.schema.composeKey key) with
  | error e =>
    rw [bound] at got
    cases got
  | ok b =>
    rw [bound] at got
    rcases answered : h.execute r.session b w with ⟨answer, w'⟩
    simp only [Program.andThen, Program.bind, Program.run, Program.trace, answered] at got ⊢
    cases answer with
    | error e => cases got
    | ok rows => exact ⟨b, rows, rfl, got⟩

/-- There is a result exactly if there is a row. -/
theorem isSome_iff_of_readResult {r : Running S α} {key : String} {rows : ResultSet}
    {value : Option α} (read : r.readResult key rows = .ok value) :
    value.isSome ↔ rows.rows ≠ [] := by
  unfold readResult at read
  split at read
  · rename_i empty
    cases read
    simp [empty]
  · rename_i row others found
    split at read
    · cases read
    · split at read
      · cases read
      · cases read
        simp [found]

end Running

namespace Command

open Json (OneLine)

variable {r : Running Handle Exchange} {σ : Type}

/-- What a get finds was read from a payload. -/
theorem sound_of_get (own : r.repository.codec = codec) {key : String} {x : Exchange}
    {h : Host σ Handle} {w : σ} (found : ((r.get key).run h w).1 = .ok (some x)) : x.Sound := by
  obtain ⟨-, rows, -, read⟩ := r.get_rows found
  unfold Running.readResult at read
  rw [own] at read
  split at read
  · cases read
  · split at read
    · cases read
    · split at read
      · cases read
      · rename_i value payload
        cases read
        exact sound_of_unmarshal payload

/-- The lines of an action that succeeds read back to the reply of its call. -/
theorem reads_of_perform (own : r.repository.codec = codec) {action : Action} {task : Task}
    (asks : action.task? = some task) {h : Host σ Handle} {w : σ} {reply : Reply Exchange}
    (replied : ((r.perform task.call).run h w).1 = .ok reply) :
    Reads (task.lines reply) action reply := by
  cases action with
  | keys =>
    cases asks
    obtain ⟨found, -, rfl⟩ := Program.exists_of_mapOk replied
    show (found.map identityLine).map identityOf? = found.map some
    rw [List.map_map]
    exact List.map_congr_left fun i _ => identityOf?_line i
  | get key =>
    cases asks
    obtain ⟨found, got, rfl⟩ := Program.exists_of_mapOk replied
    refine congrArg ([·]) (foundOf?_line key fun x returned => ?_)
    cases returned
    exact sound_of_get own got
  | confirm id =>
    cases asks
    obtain ⟨counters, -, rfl⟩ := Program.exists_of_mapOk replied
    exact congrArg ([·]) (confirmationOf?_line id counters)
  | remove key =>
    cases asks
    obtain ⟨-, -, rfl⟩ := Program.exists_of_mapOk replied
    exact congrArg ([·]) (removalOf?_line key)
  | validate => cases asks

/-- None of the lines of a task has a line end inside. -/
theorem oneLine_of_task {action : Action} {task : Task} (asks : action.task? = some task)
    (reply : Reply Exchange) : ∀ line ∈ task.lines reply, OneLine line := by
  have single {text line : String} (one : OneLine text) (member : line ∈ [text]) : OneLine line :=
    List.mem_singleton.mp member ▸ one
  intro line member
  cases action with
  | keys =>
    cases asks
    cases reply with
    | identities found =>
      obtain ⟨i, -, rfl⟩ := List.mem_map.mp member
      exact Json.oneLine_text _
    | _ => cases member
  | get key =>
    cases asks
    cases reply with
    | found found => exact single (Json.oneLine_text _) member
    | _ => cases member
  | confirm id =>
    cases asks
    cases reply with
    | confirmed counters => exact single (Json.oneLine_text _) member
    | _ => cases member
  | remove key =>
    cases asks
    cases reply with
    | removed => exact single (Json.oneLine_text _) member
    | _ => cases member
  | validate => cases asks

/-! ### Printing -/

/-- An output takes lines if it refuses none of them after those before it. -/
def Output.TakesAll (out : Output) (lines : List String) : Prop :=
  ∀ before line, before ++ [line] <+: lines → out before line = none

theorem Output.takesAll_nil (out : Output) : out.TakesAll [] := by
  intro before line inside
  exact absurd (List.prefix_nil.mp inside) (by simp)

/-- An output takes the lines that are printed, which are all lines or those before the one that it
refuses. -/
structure Output.Takes (out : Output) (lines printed : List String) (refusal : Option String) :
    Prop where
  taken : out.TakesAll printed
  all : refusal = none → printed = lines
  refused : ∀ text, refusal = some text →
    ∃ line, printed ++ [line] <+: lines ∧ out printed line = some text

/-- Nothing is refused exactly if the output takes all lines. -/
theorem Output.Takes.refusal_eq_none_iff {out : Output} {lines printed : List String}
    {refusal : Option String} (takes : out.Takes lines printed refusal) :
    refusal = none ↔ out.TakesAll lines := by
  constructor
  · intro printedAll
    rw [← takes.all printedAll]
    exact takes.taken
  · intro every
    cases refused : refusal with
    | none => rfl
    | some text =>
      obtain ⟨line, inside, fails⟩ := takes.refused text refused
      rw [every printed line inside] at fails
      cases fails

/-- Printing lines after others prints what the output takes. -/
theorem print_takes (out : Output) {before : List String} (taken : out.TakesAll before)
    (lines : List String) :
    ∃ refusal, out.Takes (before ++ lines) (print out before lines).1 refusal ∧
      (print out before lines).2 = refusal.map .output := by
  induction lines generalizing before with
  | nil =>
    refine ⟨none, ⟨taken, fun _ => (List.append_nil before).symm, ?_⟩, rfl⟩
    exact fun text clash => by cases clash
  | cons line rest ih =>
    rw [print]
    cases answer : out before line with
    | some text =>
      refine ⟨some text, ⟨taken, ?_, fun text' textEq => ?_⟩, rfl⟩
      · exact fun clash => by cases clash
      · cases textEq
        exact ⟨line, ⟨rest, by simp⟩, answer⟩
    | none =>
      have longer : out.TakesAll (before ++ [line]) := by
        intro front other inside
        rcases List.prefix_concat_iff.mp inside with appendEq | shorter
        · obtain ⟨rfl, rfl⟩ := List.append_inj' appendEq rfl |>.imp id List.singleton_inj.mp
          exact answer
        · exact taken front other shorter
      have whole : before ++ line :: rest = before ++ [line] ++ rest := by simp
      rw [whole]
      exact ih longer

end Command

end GroupStore

import GroupStore.Proofs.Contents
import GroupStore.Proofs.Program

/-!
# What the calls of a repository request

However the requests of a call are answered, each of them is one of a few statements on the
repository's own table and prefix.

* `Running.Faithful` — every statement was prepared from the schema's template;
* `Running.Requests`, `Running.perform_asks` — what a call may ever request;
* `Running.perform_session` — and on which session.
-/

namespace GroupStore

open Std

variable {S α σ : Type}

/-! ### Statements of a started repository -/

/-- The statement of one kind. -/
def Statements.of (p : Statements) : StatementKind → Prepared
  | .insert => p.insert
  | .selectByKey => p.selectByKey
  | .deleteByKey => p.deleteByKey
  | .selectKeyAndId => p.selectKeyAndId
  | .conditionalDelete => p.conditionalDelete

/-- Every statement was prepared from the schema's template. -/
def Running.Faithful (r : Running S α) : Prop :=
  ∀ kind, (r.statements.of kind).template = r.schema.template kind

theorem Prepared.bind_ok {p : Prepared} {values : List Value} {b : Bound}
    (h : p.bind values = .ok b) : b.statement = p ∧ b.values = values := by
  unfold Prepared.bind at h
  split at h
  · cases h
    exact ⟨rfl, rfl⟩
  · cases h

/-- Values of the right kinds can be bound. -/
theorem Prepared.exists_bind {p : Prepared} {s : Schema} {kind : StatementKind}
    {values : List Value} (hp : p.template = s.template kind)
    (kinds : values.map Value.kind = (s.parameterSpecs kind).map ColumnSpec.kind) :
    ∃ b, p.bind values = .ok b ∧ b.statement = p ∧ b.values = values := by
  have admitted : p.template.accept values = .ok () := by
    rw [hp]
    exact (s.accept_iff kind values).mpr kinds
  have bound : ∃ b, p.bind values = .ok b := by
    unfold Prepared.bind
    split
    · exact ⟨_, rfl⟩
    · rename_i e refused
      rw [admitted] at refused
      cases refused
  obtain ⟨b, hb⟩ := bound
  exact ⟨b, hb, Prepared.bind_ok hb⟩

namespace Schema

variable (s : Schema)

theorem insert_kinds (group id : String) (payload : ByteArray) :
    (s.composeKey group ++ [Value.text id, .blob payload]).map Value.kind =
      (s.parameterSpecs .insert).map ColumnSpec.kind := by
  rw [List.map_append, s.composeKey_fits group, parameterSpecs, Layout.columns, List.map_append]
  rfl

theorem conditionalDelete_kinds (group id : String) :
    (s.composeKey group ++ [Value.text id]).map Value.kind =
      (s.parameterSpecs .conditionalDelete).map ColumnSpec.kind := by
  rw [List.map_append, s.composeKey_fits group, parameterSpecs, List.map_append]
  rfl

/-- The key of a group is the only one that decomposes to it. -/
theorem decomposeKey_eq_some_iff {key : List Value} {group : String} :
    s.decomposeKey key = some group ↔ key = s.composeKey group := by
  unfold decomposeKey composeKey
  constructor
  · intro h
    rcases List.eq_nil_or_concat key with rfl | ⟨front, last, rfl⟩
    · simp at h
    · simp only [List.concat_eq_append, List.getLast?_append, List.getLast?_singleton,
        Option.some_or, List.dropLast_concat] at h
      by_cases own : front = s.prefixValues
      · rw [if_pos own] at h
        cases last <;> simp only [Value.text?, Option.some.injEq, reduceCtorEq] at h
        rw [h, own, List.concat_eq_append]
      · simp [own] at h
  · rintro rfl
    simp [Value.text?]

end Schema

/-! ### What a call may request -/

namespace Running

variable (r : Running S α)

/-- The executions that a call may request: an add inserts its own result under its own key, a
confirmation scans its own prefix and deletes what carries its own id, and so on. -/
def Requests : Call α → Bound → Prop
  | .add key value, b => b.template = r.schema.template .insert ∧
      ∃ payload, r.repository.codec.marshal key value = .ok payload ∧
        b.values = r.schema.composeKey key ++
          [.text (r.repository.codec.exchangeId value), .blob payload]
  | .get key, b =>
      b.template = r.schema.template .selectByKey ∧ b.values = r.schema.composeKey key
  | .confirm id, b =>
      (b.template = r.schema.template .selectKeyAndId ∧ b.values = r.schema.prefixValues) ∨
      (b.template = r.schema.template .conditionalDelete ∧
        ∃ key, b.values = r.schema.composeKey key ++ [.text id])
  | .remove key, b =>
      b.template = r.schema.template .deleteByKey ∧ b.values = r.schema.composeKey key
  | .getKeys, b | .scan, b =>
      b.template = r.schema.template .selectKeyAndId ∧ b.values = r.schema.prefixValues

variable {r}

/-- What a statement of the schema is bound to. -/
theorem Faithful.bound (faithful : r.Faithful) (kind : StatementKind) {values : List Value}
    {b : Bound} (bound : (r.statements.of kind).bind values = .ok b) :
    b.template = r.schema.template kind ∧ b.values = values := by
  obtain ⟨statement, own⟩ := Prepared.bind_ok bound
  exact ⟨by rw [Bound.template, statement, faithful kind], own⟩

theorem submit_asks {statement : Prepared} {values : List Value} {P : Bound → Prop}
    (h : ∀ b, statement.bind values = .ok b → P b) :
    (r.submit statement values).Asks fun session b => session = r.session ∧ P b := by
  unfold submit
  cases bound : statement.bind values with
  | error e => trivial
  | ok b =>
    refine ⟨⟨rfl, h b bound⟩, fun answer => ?_⟩
    cases answer <;> trivial

theorem scanIdentities_asks {P : Bound → Prop}
    (h : ∀ b, (r.statements.of .selectKeyAndId).bind r.schema.prefixValues = .ok b → P b) :
    r.scanIdentities.Asks fun session b => session = r.session ∧ P b := by
  refine Program.Asks.andThen (submit_asks h) fun rows => ?_
  cases readIdentities r.schema rows.rows <;> trivial

/-- Dropping one group after the other drops the first, unless that fails, and then the rest. -/
theorem dropEach_cons (r : Running S α) (id key : String) (rest : List String)
    (counters : Confirmation) :
    r.dropEach id (key :: rest) counters =
      (r.submit (r.statements.of .conditionalDelete)
        (r.schema.composeKey key ++ [.text id])).andThen fun rows =>
          match readApplied rows with
          | .error e => .done (.error e)
          | .ok took => r.dropEach id rest (counters.count took) := rfl

theorem dropEach_asks (id : String) {P : Bound → Prop}
    (h : ∀ b key, (r.statements.of .conditionalDelete).bind
      (r.schema.composeKey key ++ [.text id]) = .ok b → P b)
    (keys : List String) (counters : Confirmation) :
    (r.dropEach id keys counters).Asks fun session b => session = r.session ∧ P b := by
  induction keys generalizing counters with
  | nil => trivial
  | cons key rest ih =>
    refine Program.Asks.andThen (submit_asks fun b => h b key) fun rows => ?_
    cases readApplied rows with
    | error e => trivial
    | ok took => exact ih _

theorem confirm_asks (faithful : r.Faithful) (id : String) :
    (r.confirm id).Asks fun session b => session = r.session ∧ r.Requests (.confirm id) b := by
  refine Program.Asks.reported _ ?_
  refine Program.Asks.andThen (scanIdentities_asks fun b bound => .inl (faithful.bound _ bound))
    fun identities => dropEach_asks id (fun b key bound => ?_) _ _
  obtain ⟨template, values⟩ := faithful.bound .conditionalDelete bound
  exact .inr ⟨template, key, values⟩

/-- Whatever the answers are, a call requests nothing but its own statements on its own session. -/
theorem perform_asks (faithful : r.Faithful) (call : Call α) :
    (r.perform call).Asks fun session b => session = r.session ∧ r.Requests call b := by
  cases call with
  | add key value =>
    refine Program.Asks.map _ (Program.Asks.andThen (Program.Asks.reported _ ?_) fun _ => trivial)
    unfold insertResult
    cases written : r.repository.codec.marshal key value with
    | error e => trivial
    | ok payload =>
      refine Program.Asks.andThen (submit_asks fun b bound => ?_) fun _ => trivial
      obtain ⟨template, values⟩ := faithful.bound .insert bound
      exact ⟨template, payload, written, values⟩
  | get key =>
    refine Program.Asks.map _ (Program.Asks.reported _ ?_)
    exact Program.Asks.andThen
      (submit_asks fun b bound => faithful.bound .selectByKey bound) fun _ => trivial
  | confirm id => exact Program.Asks.map _ (confirm_asks faithful id)
  | remove key =>
    refine Program.Asks.map _ (Program.Asks.reported _ ?_)
    exact Program.Asks.andThen
      (submit_asks fun b bound => faithful.bound .deleteByKey bound) fun _ => trivial
  | getKeys =>
    refine Program.Asks.map _ (Program.Asks.reported _ ?_)
    exact Program.Asks.andThen (scanIdentities_asks fun b bound => faithful.bound _ bound)
      fun _ => trivial
  | scan =>
    refine Program.Asks.map _ (Program.Asks.reported _ ?_)
    exact scanIdentities_asks fun b bound => faithful.bound _ bound

/-- Whatever its statements are, a call executes them on the session of its repository. -/
theorem perform_session (r : Running S α) (call : Call α) :
    (r.perform call).Asks fun session _ => session = r.session := by
  suffices own : (r.perform call).Asks fun session _ => session = r.session ∧ True from
    own.mono fun _ _ both => both.1
  cases call with
  | add key value =>
    refine Program.Asks.map _ (Program.Asks.andThen (Program.Asks.reported _ ?_) fun _ => trivial)
    unfold insertResult
    cases r.repository.codec.marshal key value with
    | error e => trivial
    | ok payload => exact Program.Asks.andThen (submit_asks fun _ _ => trivial) fun _ => trivial
  | get key | remove key =>
    refine Program.Asks.map _ (Program.Asks.reported _ ?_)
    exact Program.Asks.andThen (submit_asks fun _ _ => trivial) fun _ => trivial
  | confirm id =>
    refine Program.Asks.map _ (Program.Asks.reported _ ?_)
    exact Program.Asks.andThen (scanIdentities_asks fun _ _ => trivial)
      fun identities => dropEach_asks id (fun _ _ _ => trivial) _ _
  | getKeys =>
    refine Program.Asks.map _ (Program.Asks.reported _ ?_)
    exact Program.Asks.andThen (scanIdentities_asks fun _ _ => trivial) fun _ => trivial
  | scan =>
    refine Program.Asks.map _ (Program.Asks.reported _ ?_)
    exact scanIdentities_asks fun _ _ => trivial

end Running

end GroupStore

import GroupStore.Proofs.Calls
import Mathlib.Data.List.Forall2

/-!
# The courses that a call can take

A session may answer an execution with anything.  A course of a program is a list of executions
with their answers, first to last, together with what is left of the program after them; which
courses there are does not depend on any session, so what holds of all courses of a call holds of
the call on every session and however it is interleaved with others.

* `Answered`, `Program.Leads` — executions with answers, and what is left of a program after some;
* `Program.Leads.bind_cases` — a course of a composition is one of its first part, or one of each;
* `Running.submit_run_of_bind`, `Running.submit_leads` — one statement;
* `Running.scanIdentities_leads` — a scan;
* `Running.add_leads`, `Running.add_leads_done` — an add;
* `Running.dropEach_leads`, `Running.dropEach_leads_ok` — the deletes of a confirmation;
* `Running.confirm_leads`, `Running.confirm_leads_ok` — a confirmation as a whole.
-/

namespace GroupStore

variable {S α β : Type}

/-- An execution that was requested, with its answer. -/
structure Answered (S : Type) where
  session : S
  bound : Bound
  answer : Except SessionError ResultSet

namespace Program

/-! ### Courses of programs -/

/-- After some answered executions, and any reports, this is left of a program. -/
inductive Leads : Program S α → List (Answered S) → Program S α → Prop where
  | here (p : Program S α) : Leads p [] p
  | execute {session : S} {b : Bound} {next : Except SessionError ResultSet → Program S α}
      {answer : Except SessionError ResultSet} {past : List (Answered S)} {rest : Program S α} :
      Leads (next answer) past rest →
      Leads (.execute session b next) (⟨session, b, answer⟩ :: past) rest
  | record {event : Audit.Event} {next : Program S α} {past : List (Answered S)}
      {rest : Program S α} : Leads next past rest → Leads (.record event next) past rest

theorem Leads.trans {p q r : Program S α} {past past' : List (Answered S)} (first : p.Leads past q)
    (later : q.Leads past' r) : p.Leads (past ++ past') r := by
  induction first with
  | here p => exact later
  | execute _ ih => exact .execute (ih later)
  | record _ ih => exact .record (ih later)

/-- The answer to the execution that a program requests next, if it requests one. -/
def answered {σ : Type} (h : Host σ S) : Program S α → σ → List (Answered S)
  | execute session b _, w => [⟨session, b, (h.execute session b w).1⟩]
  | _, _ => []

/-- A request that is an execution or a report prolongs a course. -/
theorem Leads.next {σ : Type} {P : S → Bound → Prop} {p q : Program S α}
    {past : List (Answered S)} (leads : p.Leads past q) (asks : q.Asks P) (h : Host σ S) (w : σ) :
    p.Leads (past ++ q.answered h w) (q.next h w).1 := by
  refine leads.trans ?_
  cases q with
  | done a => exact .here _
  | connect k => exact asks.elim
  | prepare s t k => exact asks.elim
  | execute s b k => exact .execute (.here _)
  | close s k => exact asks.elim
  | record e k => exact .record (.here _)

/-- A finished program stays where it is. -/
theorem Leads.of_done {a : α} {past : List (Answered S)} {q : Program S α}
    (leads : (done a).Leads past q) : past = [] ∧ q = done a := by
  cases leads
  exact ⟨rfl, rfl⟩

/-- A composition is still in its first part, or it has finished that and is in the second. -/
theorem Leads.bind_cases {p : Program S α} {f : α → Program S β} {past : List (Answered S)}
    {q : Program S β} (leads : (p.bind f).Leads past q) :
    (∃ p', p.Leads past p' ∧ q = p'.bind f) ∨
      ∃ a front back, past = front ++ back ∧ p.Leads front (done a) ∧ (f a).Leads back q := by
  induction p generalizing past with
  | done a => exact .inr ⟨a, [], past, rfl, .here _, leads⟩
  | connect next ih =>
    cases leads
    exact .inl ⟨_, .here _, rfl⟩
  | prepare session t next ih =>
    cases leads
    exact .inl ⟨_, .here _, rfl⟩
  | close session next ih =>
    cases leads
    exact .inl ⟨_, .here _, rfl⟩
  | execute session b next ih =>
    cases leads with
    | here => exact .inl ⟨_, .here _, rfl⟩
    | @execute _ _ _ answer later _ onward =>
      rcases ih answer onward with ⟨p', inside, left⟩ | ⟨a, front, back, split, first, second⟩
      · exact .inl ⟨p', .execute inside, left⟩
      · refine .inr ⟨a, _ :: front, back, ?_, .execute first, second⟩
        rw [split, List.cons_append]
  | record event next ih =>
    cases leads with
    | here => exact .inl ⟨_, .here _, rfl⟩
    | record onward =>
      rcases ih onward with ⟨p', inside, left⟩ | ⟨a, front, back, split, first, second⟩
      · exact .inl ⟨p', .record inside, left⟩
      · exact .inr ⟨a, front, back, split, .record first, second⟩

/-- A composition that has come to its end has finished both its parts. -/
theorem Leads.bind_done {p : Program S α} {f : α → Program S β} {past : List (Answered S)} {b : β}
    (leads : (p.bind f).Leads past (done b)) :
    ∃ a front back, past = front ++ back ∧ p.Leads front (done a) ∧
      (f a).Leads back (done b) := by
  rcases leads.bind_cases with ⟨p', inside, left⟩ | parts
  · cases p' with
    | done a =>
      refine ⟨a, past, [], (List.append_nil past).symm, inside, ?_⟩
      have left : f a = done b := left.symm
      rw [left]
      exact .here _
    | connect => cases left
    | prepare => cases left
    | execute => cases left
    | close => cases left
    | record => cases left
  · exact parts

section Failing

variable {ε : Type} {p : Program S (Except ε α)} {f : α → Program S (Except ε β)}
  {past : List (Answered S)}

/-- A composition that has come to an end either failed in its first part or went on. -/
theorem Leads.andThen_done {result : Except ε β}
    (leads : (p.andThen f).Leads past (done result)) :
    (∃ e, p.Leads past (done (.error e)) ∧ result = .error e) ∨
      ∃ a front back, past = front ++ back ∧ p.Leads front (done (.ok a)) ∧
        (f a).Leads back (done result) := by
  obtain ⟨first, front, back, split, done₁, rest⟩ := leads.bind_done
  cases first with
  | error e =>
    obtain ⟨nothing, doneEq⟩ := rest.of_done
    cases doneEq
    refine .inl ⟨e, ?_, rfl⟩
    rw [split, nothing, List.append_nil]
    exact done₁
  | ok a => exact .inr ⟨a, front, back, split, done₁, rest⟩

/-- A composition that has succeeded has succeeded in both its parts. -/
theorem Leads.andThen_ok {b : β} (leads : (p.andThen f).Leads past (done (.ok b))) :
    ∃ a front back, past = front ++ back ∧ p.Leads front (done (.ok a)) ∧
      (f a).Leads back (done (.ok b)) := by
  rcases leads.andThen_done with ⟨e, -, clash⟩ | parts
  · cases clash
  · exact parts

end Failing

/-- A report changes neither the executions nor the result. -/
theorem Leads.reported_done {event : Except RepositoryError β → Audit.Event}
    {p : Program S (Except RepositoryError β)} {past : List (Answered S)}
    {result : Except RepositoryError β}
    (leads : (Repository.reported event p).Leads past (done result)) :
    p.Leads past (done result) := by
  obtain ⟨a, front, back, split, first, rest⟩ := leads.bind_done
  cases rest with
  | record onward =>
    obtain ⟨nothing, doneEq⟩ := onward.of_done
    cases doneEq
    rw [split, nothing, List.append_nil]
    exact first

theorem Leads.mapOk_done {f : α → β} {p : Program S (Except RepositoryError α)}
    {past : List (Answered S)} {result : Except RepositoryError β}
    (leads : (p.mapOk f).Leads past (done result)) :
    ∃ first, p.Leads past (done first) ∧ result = first.map f := by
  obtain ⟨first, front, back, split, finished, rest⟩ := leads.bind_done
  obtain ⟨nothing, doneEq⟩ := rest.of_done
  cases doneEq
  refine ⟨first, ?_, rfl⟩
  rw [split, nothing, List.append_nil]
  exact finished

/-- A reported program executes nothing that the program itself does not. -/
theorem Leads.of_reported {event : Except RepositoryError β → Audit.Event}
    {p : Program S (Except RepositoryError β)} {past : List (Answered S)}
    {q : Program S (Except RepositoryError β)}
    (leads : (Repository.reported event p).Leads past q) : ∃ q', p.Leads past q' := by
  rcases leads.bind_cases with ⟨p', inside, -⟩ | ⟨a, front, back, split, first, rest⟩
  · exact ⟨p', inside⟩
  · have nothing : back = [] := by
      cases rest with
      | here => rfl
      | record onward => exact onward.of_done.1
    rw [split, nothing, List.append_nil]
    exact ⟨_, first⟩

/-- A composition whose second part requests nothing executes what its first part does. -/
theorem Leads.of_bind {p : Program S α} {f : α → Program S β} (ends : ∀ a, ∃ b, f a = done b)
    {past : List (Answered S)} {q : Program S β} (leads : (p.bind f).Leads past q) :
    ∃ q', p.Leads past q' := by
  rcases leads.bind_cases with ⟨p', inside, -⟩ | ⟨a, front, back, split, first, rest⟩
  · exact ⟨p', inside⟩
  · obtain ⟨b, ends'⟩ := ends a
    rw [ends'] at rest
    rw [split, rest.of_done.1, List.append_nil]
    exact ⟨_, first⟩

theorem Leads.of_mapOk {f : α → β} {p : Program S (Except RepositoryError α)}
    {past : List (Answered S)} {q : Program S (Except RepositoryError β)}
    (leads : (p.mapOk f).Leads past q) : ∃ q', p.Leads past q' :=
  leads.of_bind fun _ => ⟨_, rfl⟩

/-- Whatever may be requested was requested over a course, and may be requested after it. -/
theorem Asks.leads {P : S → Bound → Prop} {p q : Program S α} {past : List (Answered S)}
    (asks : p.Asks P) (leads : p.Leads past q) :
    (∀ e ∈ past, P e.session e.bound) ∧ q.Asks P := by
  induction leads with
  | here p => exact ⟨fun e member => absurd member List.not_mem_nil, asks⟩
  | @execute session b next answer past rest _ ih =>
    obtain ⟨before, after⟩ := ih (asks.2 answer)
    refine ⟨fun e member => ?_, after⟩
    rcases List.mem_cons.mp member with rfl | later
    · exact asks.1
    · exact before e later
  | record _ ih => exact ih asks

end Program

/-! ### One statement -/

/-- An execution of a statement of a repository with some values. -/
def Answered.Is (r : Running S α) (kind : StatementKind) (values : List Value) (e : Answered S) :
    Prop :=
  e.session = r.session ∧ e.bound.template = r.schema.template kind ∧ e.bound.values = values

/-- An answer as a call sees it. -/
def Answered.reply (e : Answered S) : Except RepositoryError ResultSet :=
  e.answer.mapError .storage

theorem Answered.answer_of_reply {e : Answered S} {rows : ResultSet} (reply : e.reply = .ok rows) :
    e.answer = .ok rows := by
  unfold Answered.reply at reply
  cases answer : e.answer with
  | error cause =>
    rw [answer] at reply
    cases reply
  | ok rows' =>
    rw [answer] at reply
    cases reply
    rfl

/-- Whether a conditional delete took effect, if its answer says so. -/
def Answered.took? (e : Answered S) : Option Bool :=
  match e.answer with
  | .ok rows => (Running.readApplied rows).toOption
  | .error _ => none

namespace Running

variable {r : Running S α}

/-- A statement that takes its values is executed, and its result is the answer. -/
theorem submit_run_of_bind {σ : Type} {statement : Prepared} {values : List Value} {b : Bound}
    (bound : statement.bind values = .ok b) (h : Host σ S) (w : σ) :
    (r.submit statement values).run h w =
      ((h.execute r.session b w).1.mapError .storage, (h.execute r.session b w).2) := by
  unfold submit
  rw [bound]
  show Program.run h _ (h.execute r.session b w).2 = _
  cases (h.execute r.session b w).1 <;> rfl

/-- Values that fit are bound: the statement is executed once and its answer is the result. -/
theorem submit_leads (faithful : r.Faithful) (kind : StatementKind) {values : List Value}
    (kinds : values.map Value.kind = (r.schema.parameterSpecs kind).map ColumnSpec.kind)
    {past : List (Answered S)} {q : Program S (Except RepositoryError ResultSet)}
    (leads : (r.submit (r.statements.of kind) values).Leads past q) :
    (past = [] ∧ ∀ result, q ≠ .done result) ∨
      ∃ e, past = [e] ∧ e.Is r kind values ∧ q = .done e.reply := by
  obtain ⟨b, bound, statement, values'⟩ := Prepared.exists_bind (faithful kind) kinds
  unfold submit at leads
  rw [bound] at leads
  cases leads with
  | here =>
    left
    exact ⟨rfl, fun result resultEq => by cases resultEq⟩
  | @execute _ _ _ answer later _ onward =>
    right
    refine ⟨⟨r.session, b, answer⟩, ?_, ⟨rfl, ?_, values'⟩, ?_⟩
    · cases answer with
      | ok rows => rw [onward.of_done.1]
      | error cause => rw [onward.of_done.1]
    · show b.statement.template = _
      rw [statement]
      exact faithful kind
    · cases answer with
      | ok rows => exact onward.of_done.2
      | error cause => exact onward.of_done.2

/-- A statement that has been answered was executed once. -/
theorem submit_leads_done (faithful : r.Faithful) (kind : StatementKind) {values : List Value}
    (kinds : values.map Value.kind = (r.schema.parameterSpecs kind).map ColumnSpec.kind)
    {past : List (Answered S)} {result : Except RepositoryError ResultSet}
    (leads : (r.submit (r.statements.of kind) values).Leads past (.done result)) :
    ∃ e, past = [e] ∧ e.Is r kind values ∧ e.reply = result := by
  rcases submit_leads faithful kind kinds leads with ⟨-, unfinished⟩ | ⟨e, once, own, doneEq⟩
  · exact absurd rfl (unfinished result)
  · cases doneEq
    exact ⟨e, once, own, rfl⟩

/-! ### An add -/

/-- A result that can be encoded is inserted by one execution. -/
theorem insertResult_leads (faithful : r.Faithful) (key : String) (value : α)
    {past : List (Answered S)} {q : Program S (Except RepositoryError Unit)}
    (leads : (r.insertResult key value).Leads past q) :
    past = [] ∨ ∃ e payload, past = [e] ∧
      e.Is r .insert (r.schema.composeKey key ++
        [.text (r.repository.codec.exchangeId value), .blob payload]) := by
  unfold insertResult at leads
  cases written : r.repository.codec.marshal key value with
  | error cause =>
    rw [written] at leads
    exact .inl leads.of_done.1
  | ok payload =>
    rw [written] at leads
    obtain ⟨q', inside⟩ := Program.Leads.of_bind
      (fun result => by cases result <;> exact ⟨_, rfl⟩) leads
    rcases submit_leads faithful .insert (r.schema.insert_kinds key _ payload) inside with
      ⟨none, -⟩ | ⟨e, once, own, -⟩
    · exact .inl none
    · exact .inr ⟨e, payload, once, own⟩

/-- An insert that has come to an end has succeeded iff it was executed and accepted. -/
theorem insertResult_leads_done (faithful : r.Faithful) (key : String) (value : α)
    {past : List (Answered S)} {result : Except RepositoryError Unit}
    (leads : (r.insertResult key value).Leads past (.done result)) :
    result.isOk ↔ ∃ e ∈ past, e.answer.isOk := by
  unfold insertResult at leads
  cases written : r.repository.codec.marshal key value with
  | error cause =>
    rw [written] at leads
    obtain ⟨nothing, doneEq⟩ := leads.of_done
    cases doneEq
    simp [nothing, Except.isOk, Except.toBool]
  | ok payload =>
    rw [written] at leads
    have kinds := r.schema.insert_kinds key (r.repository.codec.exchangeId value) payload
    rcases Program.Leads.andThen_done leads with
      ⟨cause, first, failed⟩ | ⟨rows, front, back, split, first, rest⟩
    · obtain ⟨e, once, -, reply⟩ := submit_leads_done faithful .insert kinds first
      cases answer : e.answer with
      | error cause => simp [once, failed, answer, Except.isOk, Except.toBool]
      | ok rows =>
        rw [Answered.reply, answer] at reply
        cases reply
    · obtain ⟨e, once, -, reply⟩ := submit_leads_done faithful .insert kinds first
      obtain ⟨nothing, doneEq⟩ := rest.of_done
      cases doneEq
      have answer : e.answer = .ok rows := Answered.answer_of_reply reply
      simp [split, once, nothing, answer, Except.isOk, Except.toBool]

/-- An add executes at most one statement, its insert. -/
theorem add_leads (faithful : r.Faithful) (key : String) (value : α) {past : List (Answered S)}
    {q : Program S (Except RepositoryError (Reply α))}
    (leads : (r.perform (.add key value)).Leads past q) :
    past = [] ∨ ∃ e payload, past = [e] ∧
      e.Is r .insert (r.schema.composeKey key ++
        [.text (r.repository.codec.exchangeId value), .blob payload]) := by
  obtain ⟨q₁, leads⟩ := leads.of_mapOk
  obtain ⟨q₂, leads⟩ := leads.of_bind fun result => by cases result <;> exact ⟨_, rfl⟩
  obtain ⟨q₃, leads⟩ := leads.of_reported
  exact insertResult_leads faithful key value leads

/-- An add that has come to an end has succeeded iff its insert was executed and accepted. -/
theorem add_leads_done (faithful : r.Faithful) (key : String) (value : α)
    {past : List (Answered S)} {result : Except RepositoryError (Reply α)}
    (leads : (r.perform (.add key value)).Leads past (.done result)) :
    result.isOk ↔ ∃ e ∈ past, e.answer.isOk := by
  obtain ⟨first, finished, rfl⟩ := leads.mapOk_done
  rcases finished.andThen_done with ⟨cause, inserted, rfl⟩ | ⟨u, front, back, split, inserted, rest⟩
  · exact insertResult_leads_done faithful key value inserted.reported_done
  · obtain ⟨nothing, doneEq⟩ := rest.of_done
    cases doneEq
    rw [split, nothing, List.append_nil]
    exact insertResult_leads_done faithful key value inserted.reported_done

/-! ### A scan -/

/-- The identities that a scan finds in its answer. -/
def scanned (s : Schema) (e : Answered S) : Except RepositoryError (List Identity) :=
  match e.reply with
  | .error cause => .error cause
  | .ok rows => (readIdentities s rows.rows).mapError .ofRow

/-- What a scan does with its answer is to read the identities in it. -/
theorem scanIdentities_eq : r.scanIdentities =
    (r.submit (r.statements.of .selectKeyAndId) r.schema.prefixValues).andThen fun rows =>
      .done ((readIdentities r.schema rows.rows).mapError .ofRow) := by
  show Program.andThen _ _ = Program.andThen _ _
  congr 1
  funext rows
  cases readIdentities r.schema rows.rows <;> rfl

/-- A scan is one execution under the own prefix, and its result is what its answer lists. -/
theorem scanIdentities_leads (faithful : r.Faithful) {past : List (Answered S)}
    {q : Program S (Except RepositoryError (List Identity))}
    (leads : r.scanIdentities.Leads past q) :
    (past = [] ∧ ∀ result, q ≠ .done result) ∨
      ∃ e, past = [e] ∧ e.Is r .selectKeyAndId r.schema.prefixValues ∧
        q = .done (scanned r.schema e) := by
  rw [scanIdentities_eq] at leads
  have fits := r.schema.prefixValues_fits
  rcases leads.bind_cases with ⟨p', inside, left⟩ | ⟨answer, front, back, split, first, rest⟩
  · rcases submit_leads faithful .selectKeyAndId fits inside with
      ⟨none, unfinished⟩ | ⟨e, once, own, ends⟩
    · left
      refine ⟨none, fun result finished => ?_⟩
      rw [left] at finished
      cases p' with
      | done a => exact unfinished a rfl
      | connect => cases finished
      | prepare => cases finished
      | execute => cases finished
      | close => cases finished
      | record => cases finished
    · right
      refine ⟨e, once, own, ?_⟩
      rw [left, ends]
      unfold scanned
      cases e.reply <;> rfl
  · right
    obtain ⟨e, once, own, rfl⟩ := submit_leads_done faithful .selectKeyAndId fits first
    have finished : back = [] ∧ q = .done (scanned r.schema e) := by
      unfold scanned
      cases reply : e.reply with
      | error cause =>
        rw [reply] at rest
        exact rest.of_done
      | ok rows =>
        rw [reply] at rest
        exact rest.of_done
    refine ⟨e, ?_, own, finished.2⟩
    rw [split, once, finished.1, List.append_nil]

/-- A scan that has come to an end. -/
theorem scanIdentities_leads_done (faithful : r.Faithful) {past : List (Answered S)}
    {result : Except RepositoryError (List Identity)}
    (leads : r.scanIdentities.Leads past (.done result)) :
    ∃ e, past = [e] ∧ e.Is r .selectKeyAndId r.schema.prefixValues ∧
      scanned r.schema e = result := by
  rcases scanIdentities_leads faithful leads with ⟨-, unfinished⟩ | ⟨e, once, own, doneEq⟩
  · exact absurd rfl (unfinished result)
  · cases doneEq
    exact ⟨e, once, own, rfl⟩

/-! ### A confirmation -/

/-- The execution of the delete of a group while it carries an id. -/
def Drops (r : Running S α) (id key : String) (e : Answered S) : Prop :=
  e.Is r .conditionalDelete (r.schema.composeKey key ++ [.text id])

theorem template_of_drops {id : String} {keys : List String} {past : List (Answered S)}
    (drops : List.Forall₂ (r.Drops id) keys past) :
    ∀ e ∈ past, e.bound.template = r.schema.template .conditionalDelete := by
  induction drops with
  | nil => exact fun e member => absurd member List.not_mem_nil
  | cons first _ ih => exact List.forall_mem_cons.mpr ⟨first.2.1, ih⟩

/-- The deletes of a confirmation go through the groups in order, one execution each. -/
theorem dropEach_leads (faithful : r.Faithful) (id : String) (keys : List String)
    (counters : Confirmation) {past : List (Answered S)}
    {q : Program S (Except RepositoryError Confirmation)}
    (leads : (r.dropEach id keys counters).Leads past q) :
    ∃ n, List.Forall₂ (r.Drops id) (keys.take n) past := by
  induction keys generalizing counters past with
  | nil => exact ⟨0, by rw [leads.of_done.1]; exact .nil⟩
  | cons key rest ih =>
    have kinds := r.schema.conditionalDelete_kinds key id
    rcases leads.bind_cases with ⟨p', inside, -⟩ | ⟨answer, front, back, split, first, onward⟩
    · rcases submit_leads faithful .conditionalDelete kinds inside with ⟨none, -⟩ |
        ⟨e, once, own, -⟩
      · exact ⟨0, by rw [none]; exact .nil⟩
      · exact ⟨1, by rw [once]; exact .cons own .nil⟩
    · obtain ⟨e, once, own, rfl⟩ := submit_leads_done faithful .conditionalDelete kinds first
      have later : ∃ n, List.Forall₂ (r.Drops id) (rest.take n) back := by
        cases reply : e.reply with
        | error cause =>
          rw [reply] at onward
          exact ⟨0, by rw [onward.of_done.1]; exact .nil⟩
        | ok rows =>
          rw [reply] at onward
          simp only at onward
          cases applied : readApplied rows with
          | error cause =>
            rw [applied] at onward
            exact ⟨0, by rw [onward.of_done.1]; exact .nil⟩
          | ok took =>
            rw [applied] at onward
            exact ih _ onward
      obtain ⟨n, drops⟩ := later
      refine ⟨n + 1, ?_⟩
      rw [split, once]
      exact .cons own drops

/-- The answered deletes that took effect, or that did not. -/
def tally (took : Bool) (past : List (Answered S)) : Nat :=
  past.countP fun e => e.took? = some took

/-- Deletes that all succeed are one for each group, and each is counted by its answer. -/
theorem dropEach_leads_ok (faithful : r.Faithful) (id : String) (keys : List String)
    (counters : Confirmation) {past : List (Answered S)} {c : Confirmation}
    (leads : (r.dropEach id keys counters).Leads past (.done (.ok c))) :
    List.Forall₂ (r.Drops id) keys past ∧
      c = ⟨counters.matched + keys.length, counters.deleted + tally true past,
        counters.stale + tally false past⟩ := by
  induction keys generalizing counters past with
  | nil =>
    obtain ⟨nothing, doneEq⟩ := leads.of_done
    cases doneEq
    rw [nothing]
    exact ⟨.nil, rfl⟩
  | cons key rest ih =>
    obtain ⟨rows, front, back, split, first, onward⟩ := Program.Leads.andThen_ok leads
    obtain ⟨e, once, own, reply⟩ :=
      submit_leads_done faithful .conditionalDelete (r.schema.conditionalDelete_kinds key id) first
    have answer : e.answer = .ok rows := Answered.answer_of_reply reply
    cases applied : readApplied rows with
    | error cause =>
      rw [applied] at onward
      cases onward.of_done.2
    | ok took =>
      rw [applied] at onward
      obtain ⟨drops, counted⟩ := ih _ onward
      have took' : e.took? = some took := by
        unfold Answered.took?
        rw [answer]
        show (readApplied rows).toOption = some took
        rw [applied]
        rfl
      rw [split, once]
      refine ⟨.cons own drops, ?_⟩
      show c = ⟨counters.matched + (rest.length + 1), counters.deleted + tally true (e :: back),
        counters.stale + tally false (e :: back)⟩
      rw [counted]
      simp only [tally, List.countP_cons, took', Option.some.injEq, Confirmation.count]
      cases took with
      | true => simp [Nat.add_assoc, Nat.add_comm 1]
      | false => simp [Nat.add_assoc, Nat.add_comm 1]

/-- The groups of the identities that carry an id. -/
def carriers (id : String) (identities : List Identity) : List String :=
  (identities.filter fun identity => identity.exchangeId = id).map Identity.aggregationKey

/-- A confirmation scans once, and then deletes groups that the scan found under the id, in the
order in which it found them. -/
theorem confirm_leads (faithful : r.Faithful) (id : String) {past : List (Answered S)}
    {q : Program S (Except RepositoryError (Reply α))}
    (leads : (r.perform (.confirm id)).Leads past q) :
    past = [] ∨ ∃ scan drops, past = scan :: drops ∧
      scan.Is r .selectKeyAndId r.schema.prefixValues ∧
      (drops = [] ∨ ∃ identities n, scanned r.schema scan = .ok identities ∧
        List.Forall₂ (r.Drops id) ((carriers id identities).take n) drops) := by
  obtain ⟨q₁, leads⟩ := leads.of_mapOk
  obtain ⟨q₂, leads⟩ := leads.of_reported
  rcases leads.bind_cases with ⟨p', inside, -⟩ | ⟨found, front, back, split, first, onward⟩
  · rcases scanIdentities_leads faithful inside with ⟨none, -⟩ | ⟨scan, once, own, -⟩
    · exact .inl none
    · exact .inr ⟨scan, [], once, own, .inl rfl⟩
  · obtain ⟨scan, once, own, result⟩ := scanIdentities_leads_done faithful first
    right
    refine ⟨scan, back, by rw [split, once]; rfl, own, ?_⟩
    cases found with
    | error cause =>
      left
      exact onward.of_done.1
    | ok identities =>
      right
      obtain ⟨n, drops⟩ := dropEach_leads faithful id (carriers id identities) ⟨0, 0, 0⟩ onward
      exact ⟨identities, n, result, drops⟩

/-- A confirmation that has succeeded deleted, or found stale, each of the groups that its scan
found under the id. -/
theorem confirm_leads_ok (faithful : r.Faithful) (id : String) {past : List (Answered S)}
    {reply : Reply α} (leads : (r.perform (.confirm id)).Leads past (.done (.ok reply))) :
    ∃ scan drops identities, past = scan :: drops ∧
      scan.Is r .selectKeyAndId r.schema.prefixValues ∧
      scanned r.schema scan = .ok identities ∧
      List.Forall₂ (r.Drops id) (carriers id identities) drops ∧
      reply = .confirmed
        ⟨(carriers id identities).length, tally true drops, tally false drops⟩ := by
  obtain ⟨first, finished, replyIs⟩ := leads.mapOk_done
  cases first with
  | error cause => cases replyIs
  | ok c =>
    cases replyIs
    obtain ⟨identities, front, drops, split, scans, onward⟩ := finished.reported_done.andThen_ok
    obtain ⟨scan, once, own, result⟩ := scanIdentities_leads_done faithful scans
    obtain ⟨each, counted⟩ :=
      dropEach_leads_ok faithful id (carriers id identities) ⟨0, 0, 0⟩ onward
    refine ⟨scan, drops, identities, by rw [split, once]; rfl, own, result, each, ?_⟩
    rw [counted]
    simp only [Nat.zero_add]

end Running

end GroupStore

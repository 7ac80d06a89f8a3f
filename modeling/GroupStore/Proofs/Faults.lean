import GroupStore.Proofs.Journal
import GroupStore.Payload

/-!
# Which faults a call on an open memory session can end in

Repositories that have started on one memory session call it at the same time, each at any clock
reading.  Every statement that a call executes is answered as the statement means, whatever the
others do in between; and with answers that their statements mean, a call comes to a reply or to
the failure of its codec.  So no call ends in a fault of the session.

* `Program.Ensures` — what a program comes to as long as the answers are right;
* `Running.EndsIn` — the ends of a call: a reply, or the codec's own failure;
* `Running.perform_ensures` — a call comes to one of its ends;
* `Codec.Plain` — a codec that fails to write only by an encoding and to read only by a decoding;
* `Shared.Steady` — every call under way comes to one of its ends, whatever happens in between;
* `Journal.faults_only_of_codec`, `Journal.faults_of_payloads` — the faults that calls on one
  session can end in, with any codec and with that of exchanges.
-/

namespace GroupStore

open Memory

variable {S α β : Type}

/-! ### Programs that rely on their answers -/

namespace Program

/-- Every result that may be reached satisfies `Q`, as long as each execution is answered as `A`
says; apart from executions the program makes only reports. -/
def Ensures (A : Bound → Except SessionError ResultSet → Prop) (Q : α → Prop) :
    Program S α → Prop
  | done a => Q a
  | connect _ => False
  | prepare _ _ _ => False
  | execute _ b next => ∀ answer, A b answer → (next answer).Ensures A Q
  | close _ _ => False
  | record _ next => next.Ensures A Q

variable {A : Bound → Except SessionError ResultSet → Prop}

theorem Ensures.bind {Q : α → Prop} {R : β → Prop} {p : Program S α} {f : α → Program S β}
    (hp : p.Ensures A Q) (hf : ∀ a, Q a → (f a).Ensures A R) : (p.bind f).Ensures A R := by
  induction p with
  | done a => exact hf a hp
  | connect next ih => exact hp.elim
  | prepare s t next ih => exact hp.elim
  | execute s b next ih => exact fun answer right => ih answer (hp answer right)
  | close s next ih => exact hp.elim
  | record e next ih => exact ih hp

/-- Where the first part always succeeds, a composition comes to what its second part comes to. -/
theorem Ensures.andThen {ε : Type} {Q : α → Prop} {R : Except ε β → Prop}
    {p : Program S (Except ε α)} {f : α → Program S (Except ε β)}
    (hp : p.Ensures A fun result => ∃ a, result = .ok a ∧ Q a)
    (hf : ∀ a, Q a → (f a).Ensures A R) : (p.andThen f).Ensures A R := by
  refine hp.bind fun result good => ?_
  obtain ⟨a, rfl, holds⟩ := good
  exact hf a holds

theorem Ensures.reported {Q : Except RepositoryError β → Prop}
    {p : Program S (Except RepositoryError β)} (event : Except RepositoryError β → Audit.Event)
    (hp : p.Ensures A Q) : (Repository.reported event p).Ensures A Q :=
  hp.bind fun _ good => good

theorem Ensures.mapOk {f : α → β} {Q : Except RepositoryError α → Prop}
    {R : Except RepositoryError β → Prop} {p : Program S (Except RepositoryError α)}
    (hp : p.Ensures A Q) (maps : ∀ result, Q result → R (result.map f)) :
    (p.mapOk f).Ensures A R :=
  hp.bind fun result good => maps result good

/-- On a host that answers as `A` says, whatever the program may ask, its run comes to the same. -/
theorem Ensures.run {σ : Type} {Q : α → Prop} {P : S → Bound → Prop} {I : σ → Prop}
    {p : Program S α} (hp : p.Ensures A Q) (asks : p.Asks P) {h : Host σ S}
    (execute : ∀ s b w, P s b → I w → A b (h.execute s b w).1 ∧ I (h.execute s b w).2)
    (record : ∀ e w, I w → I (h.record e w)) {w : σ} (good : I w) : Q (p.run h w).1 := by
  induction p generalizing w with
  | done a => exact hp
  | connect k ih => exact hp.elim
  | prepare s t k ih => exact hp.elim
  | execute s b k ih =>
    obtain ⟨right, kept⟩ := execute s b w asks.1 good
    exact ih _ (hp _ right) (asks.2 _) kept
  | close s k ih => exact hp.elim
  | record e k ih => exact ih hp asks (record e w good)

/-- After a request that is answered as `A` says, the program comes to the same. -/
theorem Ensures.next {σ : Type} {Q : α → Prop} {p : Program S α} (hp : p.Ensures A Q)
    (h : Host σ S) (w : σ)
    (right : ∀ s b k, p = .execute s b k → A b (h.execute s b w).1) :
    (p.next h w).1.Ensures A Q := by
  cases p with
  | done a => exact hp
  | connect k => exact hp.elim
  | prepare s t k => exact hp.elim
  | execute s b k => exact hp _ (right s b k rfl)
  | close s k => exact hp.elim
  | record e k => exact hp

end Program

/-! ### The ends of a call -/

/-- An answer of a session that does what the statements of a schema mean. -/
def Schema.Right (s : Schema) (b : Bound) (answer : Except SessionError ResultSet) : Prop :=
  ∃ rows, answer = .ok rows ∧ ∀ kind, b.template = s.template kind →
    ∃ now c c', s.Means True now c kind b.values rows c'

namespace Running

/-- The ends that a call can come to: an add stores unless its value cannot be written, a get
replies with what some version reads as, and every other call has a reply. -/
def EndsIn (r : Running S α) : Call α → Except RepositoryError (Reply α) → Prop
  | .add key value, result =>
    match r.repository.codec.marshal key value with
    | .ok _ => result = .ok (.stored value)
    | .error e => result = .error (.ofCodec e)
  | .get key, result => ∃ held, result = Schema.readReply r.repository.codec key held
  | .confirm _, result => ∃ c, result = .ok (.confirmed c)
  | .remove _, result => result = .ok .removed
  | .getKeys, result => ∃ keys, result = .ok (.keys keys)
  | .scan, result => ∃ identities, result = .ok (.identities identities)

variable {r : Running S α}

/-- A statement that takes its values is answered, and the answer is what it means. -/
theorem submit_ensures (faithful : r.Faithful) (kind : StatementKind) {values : List Value}
    (kinds : values.map Value.kind = (r.schema.parameterSpecs kind).map ColumnSpec.kind) :
    (r.submit (r.statements.of kind) values).Ensures r.schema.Right fun result =>
      ∃ rows, result = .ok rows ∧ ∃ now c c', r.schema.Means True now c kind values rows c' := by
  obtain ⟨b, bound, statement, rfl⟩ := Prepared.exists_bind (faithful kind) kinds
  have template : b.template = r.schema.template kind := by
    rw [Bound.template, statement, faithful kind]
  unfold submit
  rw [bound]
  rintro answer ⟨rows, rfl, means⟩
  exact ⟨rows, rfl, means kind template⟩

theorem insertResult_ensures (faithful : r.Faithful) (key : String) (value : α) :
    (r.insertResult key value).Ensures r.schema.Right fun result =>
      match r.repository.codec.marshal key value with
      | .ok _ => result = .ok ()
      | .error e => result = .error (.ofCodec e) := by
  unfold insertResult
  cases written : r.repository.codec.marshal key value with
  | error e => rfl
  | ok payload =>
    have kinds := r.schema.insert_kinds key (r.repository.codec.exchangeId value) payload
    exact (submit_ensures faithful .insert kinds).andThen fun _ _ => rfl

theorem selectResult_ensures (faithful : r.Faithful) (key : String) :
    (r.selectResult key).Ensures r.schema.Right fun result =>
      ∃ held, result.map Reply.found = Schema.readReply r.repository.codec key held := by
  refine (submit_ensures faithful .selectByKey (r.schema.composeKey_fits key)).andThen ?_
  rintro rows ⟨now, c, c', rfl, -⟩
  exact ⟨_, readResult_held key _⟩

theorem deleteResult_ensures (faithful : r.Faithful) (key : String) :
    (r.deleteResult key).Ensures r.schema.Right (· = .ok ()) :=
  (submit_ensures faithful .deleteByKey (r.schema.composeKey_fits key)).andThen fun _ _ => rfl

theorem scanIdentities_ensures (faithful : r.Faithful) :
    r.scanIdentities.Ensures r.schema.Right fun result =>
      ∃ identities, result = .ok identities ∧ True := by
  rw [scanIdentities_eq]
  refine (submit_ensures faithful .selectKeyAndId r.schema.prefixValues_fits).andThen ?_
  rintro rows ⟨now, c, c', found, -, -, rfl, -⟩
  refine ⟨found.map fun entry => ⟨entry.1, entry.2.id⟩, ?_, trivial⟩
  rw [Schema.readIdentities_idRows]
  rfl

theorem dropEach_ensures (faithful : r.Faithful) (id : String) (keys : List String)
    (counters : Confirmation) :
    (r.dropEach id keys counters).Ensures r.schema.Right fun result => ∃ c, result = .ok c := by
  induction keys generalizing counters with
  | nil => exact ⟨counters, rfl⟩
  | cons key rest ih =>
    have kinds := r.schema.conditionalDelete_kinds key id
    refine (submit_ensures faithful .conditionalDelete kinds).andThen ?_
    rintro rows ⟨now, c, c', key', id', -, rfl, -⟩
    exact ih _

/-- With right answers a call comes to one of its ends. -/
theorem perform_ensures (faithful : r.Faithful) (call : Call α) :
    (r.perform call).Ensures r.schema.Right (r.EndsIn call) := by
  cases call with
  | add key value =>
    have inserted := (insertResult_ensures faithful key value).reported
      (r.repository.report .add (some key) (some (r.repository.codec.exchangeId value))
        Repository.plainly)
    cases written : r.repository.codec.marshal key value with
    | error e =>
      simp only [written] at inserted
      refine (inserted.bind (R := (· = .error (.ofCodec e))) ?_).mapOk ?_
      · rintro _ rfl
        rfl
      · rintro _ rfl
        simp only [EndsIn, written]
        rfl
    | ok payload =>
      simp only [written] at inserted
      refine (inserted.bind (R := (· = .ok value)) ?_).mapOk ?_
      · rintro _ rfl
        rfl
      · rintro _ rfl
        simp only [EndsIn, written]
        rfl
  | get key => exact ((selectResult_ensures faithful key).reported _).mapOk fun _ read => read
  | confirm id =>
    have whole : (r.confirmMatches id).Ensures r.schema.Right fun result => ∃ c, result = .ok c :=
      (scanIdentities_ensures faithful).andThen fun _ _ => dropEach_ensures faithful id _ _
    refine (whole.reported _).mapOk ?_
    rintro _ ⟨c, rfl⟩
    exact ⟨c, rfl⟩
  | remove key =>
    refine ((deleteResult_ensures faithful key).reported _).mapOk ?_
    rintro _ rfl
    rfl
  | getKeys =>
    have listed : (r.scanIdentities.andThen fun identities => .done (.ok ((Sorted.ofPairs
        (identities.map fun i : Identity => (i.aggregationKey, ()))).map Prod.fst))).Ensures
          r.schema.Right fun result => ∃ keys, result = .ok keys :=
      (scanIdentities_ensures faithful).andThen fun identities _ => ⟨_, rfl⟩
    refine (listed.reported _).mapOk ?_
    rintro _ ⟨keys, rfl⟩
    exact ⟨keys, rfl⟩
  | scan =>
    refine ((scanIdentities_ensures faithful).reported _).mapOk ?_
    rintro _ ⟨identities, rfl, -⟩
    exact ⟨identities, rfl⟩

/-- The only faults in which a call can end are its codec's: an add fails to write its value, or a
get to read a payload. -/
theorem EndsIn.fault {call : Call α} {e : RepositoryError} (ends : r.EndsIn call (.error e)) :
    (∃ key value cause, call = .add key value ∧
        r.repository.codec.marshal key value = .error cause ∧ e = .ofCodec cause) ∨
      ∃ key payload cause, call = .get key ∧
        r.repository.codec.unmarshal key payload = .error cause ∧ e = .ofCodec cause := by
  cases call with
  | add key value =>
    left
    unfold EndsIn at ends
    cases written : r.repository.codec.marshal key value with
    | ok payload =>
      simp only [written] at ends
      cases ends
    | error cause =>
      simp only [written] at ends
      cases ends
      exact ⟨key, value, cause, rfl, written, rfl⟩
  | get key =>
    right
    obtain ⟨held, replyIs⟩ := ends
    cases held with
    | none => cases replyIs
    | some v =>
      unfold Schema.readReply at replyIs
      cases read : r.repository.codec.unmarshal key v.payload with
      | ok value =>
        simp only [read] at replyIs
        cases replyIs
      | error cause =>
        simp only [read] at replyIs
        cases replyIs
        exact ⟨key, v.payload, cause, rfl, read, rfl⟩
  | confirm id =>
    obtain ⟨c, clash⟩ := ends
    cases clash
  | remove key => cases ends
  | getKeys =>
    obtain ⟨keys, clash⟩ := ends
    cases clash
  | scan =>
    obtain ⟨identities, clash⟩ := ends
    cases clash

end Running

/-! ### Codecs that say what failed -/

/-- A codec that fails to write only by an encoding and to read only by a decoding. -/
structure Codec.Plain (c : Codec α) : Prop where
  marshal : ∀ key value cause, c.marshal key value = .error cause → ∃ text, cause = .encode text
  unmarshal : ∀ key payload cause, c.unmarshal key payload = .error cause →
    ∃ text, cause = .decode text

/-- With such a codec an add ends in a fault of encoding, a get in one of decoding, and no other
call in any. -/
theorem Running.EndsIn.of_plain {r : Running S α} {call : Call α} {fault : RepositoryError}
    (ends : r.EndsIn call (.error fault)) (plain : r.repository.codec.Plain) :
    (∃ key value text, call = .add key value ∧ fault = .encode text) ∨
      ∃ key text, call = .get key ∧ fault = .decode text := by
  rcases ends.fault with
    ⟨key, value, cause, rfl, failed, rfl⟩ | ⟨key, payload, cause, rfl, failed, rfl⟩
  · obtain ⟨text, rfl⟩ := plain.marshal key value cause failed
    exact .inl ⟨key, value, text, rfl, rfl⟩
  · obtain ⟨text, rfl⟩ := plain.unmarshal key payload cause failed
    exact .inr ⟨key, text, rfl, rfl⟩

/-- The codec of exchanges is one. -/
theorem Payload.codec_plain (limit : Nat) : (Payload.codec limit).Plain where
  marshal key x cause failed := by
    simp only [codec] at failed
    cases written : write limit x with
    | ok payload =>
      rw [written] at failed
      cases failed
    | error fault =>
      rw [written] at failed
      cases failed
      exact ⟨_, rfl⟩
  unmarshal key payload cause failed := by
    simp only [codec] at failed
    cases found : read limit payload with
    | ok x =>
      rw [found] at failed
      cases failed
    | error fault =>
      rw [found] at failed
      cases failed
      exact ⟨_, rfl⟩

/-! ### Calls that share a session -/

namespace Shared

/-- The session is open and sound, and every call under way comes to one of its ends as long as it
is answered as its statements mean. -/
structure Steady (s : Shared S α) : Prop where
  coherent : s.Coherent
  tasks : ∀ t ∈ s.tasks, t.rest.Ensures t.running.schema.Right (t.running.EndsIn t.call)

variable {s : Shared S α}

theorem steady_initial (session : S) : (initial session : Shared S α).Steady where
  coherent := coherent_initial session
  tasks := fun _ member => absurd member List.not_mem_nil

theorem Steady.at (steady : s.Steady) (now : Nat) : ({ s with now := now }).Steady :=
  ⟨steady.coherent.at now, steady.tasks⟩

/-- A sound store answers a statement of a registered schema as it means. -/
theorem right_of_held {st : Store} (sound : st.Sound) {schema : Schema}
    (held : st.Holds schema.layout) {b : Bound} {kind : StatementKind}
    (template : b.template = schema.template kind) (now : Nat) :
    schema.Right b (st.execute b now).1 := by
  obtain ⟨rows, st', executed, -, -, means⟩ := Store.execute_means sound held template now
  rw [executed]
  refine ⟨rows, rfl, fun other templateEq => ?_⟩
  obtain rfl : kind = other := by
    rw [← schema.template_kind kind, ← template, templateEq, schema.template_kind]
  exact ⟨now, _, _, means⟩

theorem Steady.move (steady : s.Steady) (m : Move S α) : (s.move m).Steady := by
  refine ⟨steady.coherent.move m, ?_⟩
  cases m with
  | start repository =>
    have calls : (s.move (.start repository)).tasks = s.tasks := by
      simp only [Shared.move]
      split <;> rfl
    rw [calls]
    exact steady.tasks
  | call repository call =>
    cases started : s.running[repository]? with
    | none =>
      simp only [Shared.move, started]
      exact steady.tasks
    | some running =>
      simp only [Shared.move, started]
      have faithful := (steady.coherent.running running (List.mem_of_getElem? started)).1
      intro t member
      rcases List.mem_append.mp member with old | new
      · exact steady.tasks t old
      · obtain rfl := List.mem_singleton.mp new
        exact Running.perform_ensures faithful call
  | step task delay =>
    cases begun : s.tasks[task]? with
    | none =>
      simp only [Shared.move, begun]
      exact steady.tasks
    | some t =>
      have member := List.mem_of_getElem? begun
      obtain ⟨held, asks⟩ := steady.coherent.tasks t member
      simp only [Shared.move, begun]
      intro t' found
      rcases List.mem_or_eq_of_mem_set found with old | rfl
      · exact steady.tasks t' old
      · refine (steady.tasks t member).next (host s.session) _ fun session b k request => ?_
        rw [request] at asks
        obtain ⟨kind, template⟩ := Coherent.requests_template asks.1.2
        exact right_of_held steady.coherent.sound held template (s.now + delay)

/-- A call that has ended has come to one of its ends. -/
theorem Steady.ends (steady : s.Steady) {t : Task S α} (member : t ∈ s.tasks)
    {result : Except RepositoryError (Reply α)} (finished : t.rest = .done result) :
    t.running.EndsIn t.call result := by
  have good := steady.tasks t member
  rwa [finished] at good

/-- A call under way that is left alone from now on comes to one of its ends. -/
theorem Steady.run_alone (steady : s.Steady) {t : Task S α} (member : t ∈ s.tasks) (now : Nat) :
    t.running.EndsIn t.call (t.rest.run (host s.session) ⟨s.store, now⟩).1 := by
  obtain ⟨held, asks⟩ := steady.coherent.tasks t member
  refine (steady.tasks t member).run asks
    (I := fun w : Moment => w.store.Sound ∧ w.store.Holds t.running.schema.layout)
    (fun session b w requests good => ?_) (fun _ _ good => good)
    ⟨steady.coherent.sound, held⟩
  obtain ⟨kind, template⟩ := Coherent.requests_template requests.2
  obtain ⟨rows, st', executed, sound, layouts, -⟩ :=
    Store.execute_means good.1 good.2 template w.now
  refine ⟨right_of_held good.1 good.2 template w.now, ?_⟩
  simp only [host, executed]
  exact ⟨sound, (layouts _).mpr good.2⟩

end Shared

namespace Journal

theorem steady_run {j : Journal S α} (steady : j.shared.Steady)
    (happenings : List (Nat × Move S α)) : (j.run happenings).shared.Steady := by
  induction happenings generalizing j with
  | nil => exact steady
  | cons happening rest ih => exact ih ((steady.at happening.1).move happening.2)

/-- However the calls of repositories that have started on one open memory session are interleaved,
and whatever the clock reads: every statement that is executed is answered, a call under way comes
to an end when it is left alone, and the only faults that a call can end in are those of its codec.
With a codec that fails to write only by an encoding and to read only by a decoding these are the
encoding of an add and the decoding of a get. -/
theorem faults_only_of_codec (session : S) (happenings : List (Nat × Move S α)) :
    let s := ((initial session).run happenings).shared
    s.store.closed = false ∧
    (∀ m e, s.execution? m = some e → ∃ rows, e.answer = .ok rows) ∧
    ∀ t ∈ s.tasks,
      (∀ now, t.running.EndsIn t.call (t.rest.run (host s.session) ⟨s.store, now⟩).1) ∧
      (∀ result, t.rest = .done result → t.running.EndsIn t.call result) ∧
      ∀ fault, t.rest = .done (.error fault) → t.running.repository.codec.Plain →
        (∃ key value text, t.call = .add key value ∧ fault = .encode text) ∨
          ∃ key text, t.call = .get key ∧ fault = .decode text := by
  intro s
  have steady : s.Steady := steady_run (Shared.steady_initial session) happenings
  refine ⟨steady.coherent.sound.isOpen, fun m e made => ?_, fun t member => ?_⟩
  · obtain ⟨-, -, -, -, -, rows, -, answered, -⟩ := steady.coherent.execution_means made
    exact ⟨rows, answered⟩
  · exact ⟨steady.run_alone member, fun result => steady.ends member,
      fun fault finished plain => (steady.ends member finished).of_plain plain⟩

/-- Exchanges that are written as payloads of limited size: the only faults that a call can end in
are the encoding of an add and the decoding of a get. -/
theorem faults_of_payloads (session : S) (happenings : List (Nat × Move S Exchange)) (limit : Nat) :
    ∀ t ∈ ((initial session).run happenings).shared.tasks,
      t.running.repository.codec = Payload.codec limit →
      ∀ fault, t.rest = .done (.error fault) →
        (∃ key x text, t.call = .add key x ∧ fault = .encode text) ∨
          ∃ key text, t.call = .get key ∧ fault = .decode text := by
  intro t member codec fault finished
  have steady : ((initial session).run happenings).shared.Steady :=
    steady_run (Shared.steady_initial session) happenings
  exact (steady.ends member finished).of_plain (codec ▸ Payload.codec_plain limit)

end Journal

end GroupStore

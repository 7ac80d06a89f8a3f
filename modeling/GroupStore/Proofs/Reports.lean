import GroupStore.Proofs.Program

/-!
# What a run reports

A run records events.  A call on a started repository records one, after all its requests: the
report of how it ended.

* `Program.events` — the events of a run, first to last;
* `Program.Silent` — a program that records nothing, whatever it is answered;
* `Program.Within` — what a program may have prepared and executed;
* `Running.reportOf` — the report of a call that ended in some way;
* `Running.perform_events` — a call records its report and nothing else;
* `Repository.start_announces`, `Running.stop_reports` — what a start and a stop record;
* `Host.Mirrors`, `Host.Mirrors.run` — states from which a program runs alike.
-/

namespace GroupStore

variable {S α β σ : Type}

namespace Program

/-- The events that a run records. -/
def events (h : Host σ S) : Program S α → σ → List Audit.Event
  | done _, _ => []
  | connect k, w => (k (h.connect w).1).events h (h.connect w).2
  | prepare s t k, w => (k (h.prepare s t w).1).events h (h.prepare s t w).2
  | execute s b k, w => (k (h.execute s b w).1).events h (h.execute s b w).2
  | close s k, w => (k (h.close s w).1).events h (h.close s w).2
  | record e k, w => e :: k.events h (h.record e w)

theorem events_bind (h : Host σ S) (p : Program S α) (f : α → Program S β) (w : σ) :
    (p.bind f).events h w = p.events h w ++ (f (p.run h w).1).events h (p.run h w).2 := by
  induction p generalizing w with
  | done a => rfl
  | connect k ih => exact ih _ _
  | prepare s t k ih => exact ih _ _
  | execute s b k ih => exact ih _ _
  | close s k ih => exact ih _ _
  | record e k ih => exact congrArg (e :: ·) (ih _)

theorem events_reported (h : Host σ S) (event : Except RepositoryError β → Audit.Event)
    (p : Program S (Except RepositoryError β)) (w : σ) :
    (Repository.reported event p).events h w = p.events h w ++ [event (p.run h w).1] := by
  rw [Repository.reported, events_bind]
  rfl

theorem events_map (h : Host σ S) (p : Program S α) (f : α → β) (w : σ) :
    (p.map f).events h w = p.events h w := by
  rw [map, events_bind]
  exact List.append_nil _

theorem events_mapOk (h : Host σ S) (f : α → β) (p : Program S (Except RepositoryError α))
    (w : σ) : (p.mapOk f).events h w = p.events h w := events_map h p _ w

/-- Nothing is recorded, whatever the answers are. -/
def Silent : Program S α → Prop
  | done _ => True
  | connect next => ∀ answer, (next answer).Silent
  | prepare _ _ next => ∀ answer, (next answer).Silent
  | execute _ _ next => ∀ answer, (next answer).Silent
  | close _ next => ∀ answer, (next answer).Silent
  | record _ _ => False

theorem Silent.bind {p : Program S α} {f : α → Program S β} (hp : p.Silent)
    (hf : ∀ a, (f a).Silent) : (p.bind f).Silent := by
  induction p with
  | done a => exact hf a
  | connect next ih => exact fun answer => ih answer (hp answer)
  | prepare s t next ih => exact fun answer => ih answer (hp answer)
  | execute s b next ih => exact fun answer => ih answer (hp answer)
  | close s next ih => exact fun answer => ih answer (hp answer)
  | record e next ih => exact hp.elim

theorem Silent.andThen {ε : Type} {p : Program S (Except ε α)} {f : α → Program S (Except ε β)}
    (hp : p.Silent) (hf : ∀ a, (f a).Silent) : (p.andThen f).Silent := by
  refine hp.bind fun result => ?_
  cases result with
  | ok a => exact hf a
  | error e => trivial

theorem Silent.events {p : Program S α} (hp : p.Silent) (h : Host σ S) (w : σ) :
    p.events h w = [] := by
  induction p generalizing w with
  | done a => rfl
  | connect k ih => exact ih _ (hp _) _
  | prepare s t k ih => exact ih _ (hp _) _
  | execute s b k ih => exact ih _ (hp _) _
  | close s k ih => exact ih _ (hp _) _
  | record e k ih => exact hp.elim

/-- Whatever the answers are, every template that is prepared satisfies `T` and every execution
`B`. -/
def Within (T : Template → Prop) (B : Bound → Prop) : Program S α → Prop
  | done _ => True
  | connect next => ∀ answer, (next answer).Within T B
  | prepare _ t next => T t ∧ ∀ answer, (next answer).Within T B
  | execute _ b next => B b ∧ ∀ answer, (next answer).Within T B
  | close _ next => ∀ answer, (next answer).Within T B
  | record _ next => next.Within T B

theorem Within.bind {T : Template → Prop} {B : Bound → Prop} {p : Program S α}
    {f : α → Program S β} (hp : p.Within T B) (hf : ∀ a, (f a).Within T B) :
    (p.bind f).Within T B := by
  induction p with
  | done a => exact hf a
  | connect next ih => exact fun answer => ih answer (hp answer)
  | prepare s t next ih => exact ⟨hp.1, fun answer => ih answer (hp.2 answer)⟩
  | execute s b next ih => exact ⟨hp.1, fun answer => ih answer (hp.2 answer)⟩
  | close s next ih => exact fun answer => ih answer (hp answer)
  | record e next ih => exact ih hp

theorem Within.andThen {ε : Type} {T : Template → Prop} {B : Bound → Prop}
    {p : Program S (Except ε α)} {f : α → Program S (Except ε β)} (hp : p.Within T B)
    (hf : ∀ a, (f a).Within T B) : (p.andThen f).Within T B := by
  refine hp.bind fun result => ?_
  cases result with
  | ok a => exact hf a
  | error e => trivial

theorem Within.mono {T T' : Template → Prop} {B B' : Bound → Prop} {p : Program S α}
    (hp : p.Within T B) (templates : ∀ t, T t → T' t) (bounds : ∀ b, B b → B' b) :
    p.Within T' B' := by
  induction p with
  | done a => trivial
  | connect next ih => exact fun answer => ih answer (hp answer)
  | prepare s t next ih => exact ⟨templates t hp.1, fun answer => ih answer (hp.2 answer)⟩
  | execute s b next ih => exact ⟨bounds b hp.1, fun answer => ih answer (hp.2 answer)⟩
  | close s next ih => exact fun answer => ih answer (hp answer)
  | record e next ih => exact ih hp

/-- A program that only executes and reports prepares nothing. -/
theorem Asks.within {P : S → Bound → Prop} {T : Template → Prop} {B : Bound → Prop}
    {p : Program S α} (hp : p.Asks P) (bounds : ∀ s b, P s b → B b) : p.Within T B := by
  induction p with
  | done a => trivial
  | connect next ih => exact hp.elim
  | prepare s t next ih => exact hp.elim
  | execute s b next ih => exact ⟨bounds s b hp.1, fun answer => ih answer (hp.2 answer)⟩
  | close s next ih => exact hp.elim
  | record e next ih => exact ih hp

/-- What a program keeps to it keeps to after a request. -/
theorem Within.next {T : Template → Prop} {B : Bound → Prop} {p : Program S α}
    (hp : p.Within T B) (h : Host σ S) (w : σ) : (p.next h w).1.Within T B := by
  cases p with
  | done a => trivial
  | connect k => exact hp _
  | prepare s t k => exact hp.2 _
  | execute s b k => exact hp.2 _
  | close s k => exact hp _
  | record e k => exact hp

/-- The statement that a program executes next. -/
def executes? : Program S α → Option Bound
  | execute _ b _ => some b
  | _ => none

theorem Within.executes? {T : Template → Prop} {B : Bound → Prop} {p : Program S α}
    (hp : p.Within T B) {b : Bound} (next : p.executes? = some b) : B b := by
  cases p with
  | execute s b' k => exact Option.some.inj next ▸ hp.1
  | _ => cases next

/-- Nothing is asked of what any program prepares and executes. -/
theorem within_any (p : Program S α) : p.Within (fun _ => True) fun _ => True := by
  induction p with
  | done a => trivial
  | connect next ih => exact ih
  | prepare s t next ih => exact ⟨trivial, ih⟩
  | execute s b next ih => exact ⟨trivial, ih⟩
  | close s next ih => exact ih
  | record e next ih => exact ih

end Program

/-! ### Runs from two states -/

/-- Two related states give the same answers to some requests and are related afterwards. -/
structure Host.Mirrors (h : Host σ S) (T : Template → Prop) (B : Bound → Prop)
    (R : σ → σ → Prop) : Prop where
  connect : ∀ w v, R w v → (h.connect w).1 = (h.connect v).1 ∧ R (h.connect w).2 (h.connect v).2
  prepare : ∀ s t w v, T t → R w v → (h.prepare s t w).1 = (h.prepare s t v).1 ∧
    R (h.prepare s t w).2 (h.prepare s t v).2
  execute : ∀ s b w v, B b → R w v → (h.execute s b w).1 = (h.execute s b v).1 ∧
    R (h.execute s b w).2 (h.execute s b v).2
  close : ∀ s w v, R w v → (h.close s w).1 = (h.close s v).1 ∧
    R (h.close s w).2 (h.close s v).2
  record : ∀ e w v, R w v → R (h.record e w) (h.record e v)

/-- A program has the same result and records the same events from two states that give the same
answers, and leaves them so. -/
theorem Host.Mirrors.run {h : Host σ S} {T : Template → Prop} {B : Bound → Prop}
    {R : σ → σ → Prop} (mirrors : h.Mirrors T B R) {p : Program S α} (within : p.Within T B)
    {w v : σ} (related : R w v) :
    (p.run h w).1 = (p.run h v).1 ∧ p.events h w = p.events h v ∧
      R (p.run h w).2 (p.run h v).2 := by
  induction p generalizing w v with
  | done a => exact ⟨rfl, rfl, related⟩
  | connect next ih =>
    obtain ⟨answerEq, after⟩ := mirrors.connect w v related
    simp only [Program.run, Program.events, answerEq]
    exact ih _ (within _) after
  | prepare s t next ih =>
    obtain ⟨answerEq, after⟩ := mirrors.prepare s t w v within.1 related
    simp only [Program.run, Program.events, answerEq]
    exact ih _ (within.2 _) after
  | execute s b next ih =>
    obtain ⟨answerEq, after⟩ := mirrors.execute s b w v within.1 related
    simp only [Program.run, Program.events, answerEq]
    exact ih _ (within.2 _) after
  | close s next ih =>
    obtain ⟨answerEq, after⟩ := mirrors.close s w v related
    simp only [Program.run, Program.events, answerEq]
    exact ih _ (within _) after
  | record e next ih =>
    obtain ⟨result, events, after⟩ := ih within (mirrors.record e w v related)
    exact ⟨result, congrArg (e :: ·) events, after⟩

/-! ### What starts and stops ask -/

/-- A start has statements of its schema prepared and executes none. -/
theorem Repository.start_within (r : Repository S α) :
    r.start.Within (fun t => ∃ kind, t = r.schema.template kind) fun _ => False := by
  have one (session : S) (kind : StatementKind) : (r.prepareOne session kind).Within
      (fun t => ∃ kind, t = r.schema.template kind) fun _ => False :=
    ⟨⟨kind, rfl⟩, fun answer => by cases answer <;> trivial⟩
  have announced (statements : List Prepared) (result : Except RepositoryError (Running S α)) :
      (r.announce statements (.done result)).Within
        (fun t => ∃ kind, t = r.schema.template kind) fun _ => False := by
    induction statements with
    | nil => trivial
    | cons p rest ih => exact ih
  have obtained : r.obtain.Within (fun t => ∃ kind, t = r.schema.template kind)
      fun _ => False := by
    unfold Repository.obtain
    cases r.source with
    | borrowed session => trivial
    | owned =>
      intro answer
      cases answer <;> trivial
  refine Program.Within.bind (obtained.andThen fun session => ?_) fun result => trivial
  refine Program.Within.bind ?_ fun result => ?_
  · exact (one session _).andThen fun _ => (one session _).andThen fun _ =>
      (one session _).andThen fun _ => (one session _).andThen fun _ =>
      (one session _).andThen fun _ => trivial
  · cases result with
    | ok statements => exact announced _ _
    | error e =>
      show (r.giveUp session e.1 e.2).Within _ _
      unfold Repository.giveUp
      split
      · intro answer
        cases answer <;> trivial
      · trivial

theorem Running.stop_within (r : Running S α) (T : Template → Prop) :
    r.stop.Within T fun _ => False := by
  refine Program.Within.andThen (Program.Within.bind ?_ fun _ => trivial) fun _ => trivial
  split
  · intro answer
    cases answer <;> trivial
  · trivial

/-! ### The reports of a start and of a stop -/

namespace Repository

variable (r : Repository S α)

theorem obtain_silent : r.obtain.Silent := by
  unfold obtain
  split
  · trivial
  · intro answer
    cases answer <;> trivial

theorem prepareAll_silent (session : S) : (r.prepareAll session).Silent := by
  have one (kind : StatementKind) : (r.prepareOne session kind).Silent := by
    intro answer
    cases answer <;> trivial
  exact (one .insert).andThen fun _ => (one .selectByKey).andThen fun _ =>
    (one .deleteByKey).andThen fun _ => (one .selectKeyAndId).andThen fun _ =>
      (one .conditionalDelete).andThen fun _ => trivial

theorem giveUp_silent (session : S) (kind : StatementKind) (cause : SessionError) :
    (r.giveUp session kind cause : Program S (Except RepositoryError β)).Silent := by
  unfold giveUp
  split
  · intro answer
    cases answer <;> trivial
  · trivial

/-- The report of a statement. -/
def reportOf (p : Prepared) : Audit.Event :=
  .statement r.table p.template.kind p.native p.template.consistency

theorem announce_events (h : Host σ S) (statements : List Prepared) (result : β) (w : σ) :
    (r.announce statements (.done result)).events h w = statements.map r.reportOf := by
  induction statements generalizing w with
  | nil => rfl
  | cons p rest ih => exact congrArg (r.reportOf p :: ·) (ih _)

theorem announce_result (h : Host σ S) (statements : List Prepared) (result : β) (w : σ) :
    ((r.announce statements (.done result)).run h w).1 = result := by
  induction statements generalizing w with
  | nil => rfl
  | cons p rest ih => exact ih _

theorem giveUp_fails (h : Host σ S) (session : S) (kind : StatementKind) (cause : SessionError)
    (w : σ) : ∃ e, ((r.giveUp (β := β) session kind cause).run h w).1 = .error e := by
  unfold giveUp
  cases r.source.isOwned with
  | false => exact ⟨_, rfl⟩
  | true =>
    simp only [if_true, Program.run]
    cases (h.close session w).1 <;> exact ⟨_, rfl⟩

/-- The reports of the statements of a start that ended in some way. -/
def announced (r : Repository S α) : Except RepositoryError (Running S α) → List Audit.Event
  | .ok running => running.statements.toList.map r.reportOf
  | .error _ => []

/-- A start records its statements, if it has prepared them all, and then its report. -/
theorem start_announces (h : Host σ S) (w : σ) :
    r.start.events h w = r.announced (r.start.run h w).1 ++
      [r.report .start none none plainly (r.start.run h w).1] := by
  rw [start, Program.events_reported, Program.run_reported]
  suffices (r.obtain.andThen r.startOn).events h w =
      r.announced ((r.obtain.andThen r.startOn).run h w).1 by rw [this]
  rw [Program.andThen, Program.events_bind, Program.run_bind, r.obtain_silent.events,
    List.nil_append]
  rcases r.obtain.run h w with ⟨_ | session, w₁⟩
  · rfl
  · show (r.startOn session).events h w₁ = r.announced ((r.startOn session).run h w₁).1
    rw [startOn, Program.events_bind, Program.run_bind, (r.prepareAll_silent session).events,
      List.nil_append]
    rcases (r.prepareAll session).run h w₁ with ⟨e | statements, w₂⟩
    · obtain ⟨failure, failed⟩ := r.giveUp_fails (β := Running S α) h session e.1 e.2 w₂
      have silent := (r.giveUp_silent (β := Running S α) session e.1 e.2).events h w₂
      exact silent.trans (congrArg r.announced failed).symm
    · have started := r.announce_result h statements.toList
        (Except.ok (ε := RepositoryError) (⟨r, session, statements⟩ : Running S α)) w₂
      exact (r.announce_events h _ _ w₂).trans (congrArg r.announced started).symm

theorem start_events (h : Host σ S) (w : σ) : ∃ statements : List Prepared,
    r.start.events h w =
      statements.map r.reportOf ++ [r.report .start none none plainly (r.start.run h w).1] := by
  rw [start_announces]
  cases (r.start.run h w).1 with
  | error e => exact ⟨[], rfl⟩
  | ok running => exact ⟨running.statements.toList, rfl⟩

end Repository

/-- A stop may close its session; then it records its report and nothing else. -/
theorem Running.stop_reports (r : Running S α) (h : Host σ S) (w : σ) :
    let report := r.repository.report .stop none none Repository.plainly (r.stop.run h w).1
    ∃ w', (w' = w ∨ w' = (h.close r.session w).2) ∧ r.stop.events h w = [report] ∧
      (r.stop.run h w).2 = h.record report w' := by
  simp only [stop, Program.andThen, Program.events_bind, Program.events_reported, Program.run_bind,
    Program.run_reported]
  cases r.repository.source.isOwned with
  | false => exact ⟨w, .inl rfl, rfl, rfl⟩
  | true =>
    rcases answered : h.close r.session w with ⟨answer, w'⟩
    refine ⟨w', .inr rfl, ?_⟩
    simp only [if_true, Program.run, Program.events, answered]
    cases answer <;> exact ⟨rfl, rfl⟩

/-! ### The report of a call -/

namespace Running

variable (r : Running S α)

/-- How a reply is reported. -/
def outcomeOf : Reply α → Audit.Outcome × Option String
  | .found none => (.notFound, none)
  | .confirmed c => (c.outcome, some c.detail)
  | .stored _ | .found (some _) | .removed | .keys _ | .identities _ => (.ok, none)

/-- The report of a call that ended in some way.  It names the group and the id that the call was
given; that of a get names the id of the result that was found. -/
def reportOf (call : Call α) (result : Except RepositoryError (Reply α)) : Audit.Event :=
  match call with
  | .add key value =>
    r.repository.report .add (some key) (some (r.repository.codec.exchangeId value))
      outcomeOf result
  | .get key =>
    let id := match result with
      | .ok (.found (some value)) => some (r.repository.codec.exchangeId value)
      | _ => none
    r.repository.report .get (some key) id outcomeOf result
  | .confirm id => r.repository.report .confirm none (some id) outcomeOf result
  | .remove key => r.repository.report .remove (some key) none outcomeOf result
  | .getKeys => r.repository.report .getKeys none none outcomeOf result
  | .scan => r.repository.report .scan none none outcomeOf result

variable {r}

theorem submit_silent (statement : Prepared) (values : List Value) :
    (r.submit statement values).Silent := by
  unfold submit
  split
  · trivial
  · intro answer
    cases answer <;> trivial

theorem insertResult_silent (key : String) (value : α) : (r.insertResult key value).Silent := by
  unfold insertResult
  split
  · trivial
  · exact (submit_silent _ _).andThen fun _ => trivial

theorem scanIdentities_silent : r.scanIdentities.Silent := by
  refine (submit_silent _ _).andThen fun rows => ?_
  split <;> trivial

theorem dropEach_silent (id : String) (keys : List String) (counters : Confirmation) :
    (r.dropEach id keys counters).Silent := by
  induction keys generalizing counters with
  | nil => trivial
  | cons key rest ih =>
    refine (submit_silent _ _).andThen fun rows => ?_
    split
    · trivial
    · exact ih _

theorem scanned_silent {f : List Identity → β} :
    (r.scanIdentities.andThen fun identities => .done (.ok (f identities))).Silent :=
  scanIdentities_silent.andThen fun _ => by trivial

theorem selectResult_silent (key : String) : (r.selectResult key).Silent :=
  (submit_silent _ _).andThen fun _ => by trivial

theorem deleteResult_silent (key : String) : (r.deleteResult key).Silent :=
  (submit_silent _ _).andThen fun _ => by trivial

theorem confirmMatches_silent (id : String) : (r.confirmMatches id).Silent :=
  scanIdentities_silent.andThen fun _ => dropEach_silent id _ _

/-- What is left of a silent program that is reported is its result and the report. -/
theorem reported_of_silent {γ : Type} {p : Program S (Except RepositoryError β)} (silent : p.Silent)
    (event : Except RepositoryError β → Audit.Event) (f : β → γ) (h : Host σ S) (w : σ) :
    ((Repository.reported event p).mapOk f).events h w = [event (p.run h w).1] ∧
      (((Repository.reported event p).mapOk f).run h w).1 = (p.run h w).1.map f := by
  rw [Program.events_mapOk, Program.events_reported, silent.events, Program.mapOk, Program.run_map,
    Program.run_reported]
  exact ⟨rfl, rfl⟩

/-- A call records one event, the report of how it ended. -/
theorem perform_events (h : Host σ S) (call : Call α) (w : σ) :
    (r.perform call).events h w = [r.reportOf call ((r.perform call).run h w).1] := by
  cases call with
  | add key value =>
    have silent := (insertResult_silent (r := r) key value).events h w
    rw [perform, Program.events_mapOk, add, Program.andThen, Program.events_bind,
      Program.events_reported, silent, Program.mapOk, Program.run_map, Program.run_bind,
      Program.run_reported]
    cases ((r.insertResult key value).run h w).1 <;> rfl
  | get key =>
    obtain ⟨events, result⟩ := reported_of_silent (selectResult_silent key) (r.reportGet key)
      Reply.found h w
    rw [perform, get, events, result]
    rcases ((r.selectResult key).run h w).1 with e | found
    · rfl
    · cases found <;> rfl
  | confirm id =>
    obtain ⟨events, result⟩ := reported_of_silent (confirmMatches_silent id)
      (r.repository.report .confirm none (some id) fun c => (c.outcome, some c.detail))
      Reply.confirmed h w
    rw [perform, confirm, events, result]
    cases ((r.confirmMatches id).run h w).1 <;> rfl
  | remove key =>
    obtain ⟨events, result⟩ := reported_of_silent (deleteResult_silent key)
      (r.repository.report .remove (some key) none Repository.plainly) (fun _ => Reply.removed) h w
    rw [perform, remove, events, result]
    cases ((r.deleteResult key).run h w).1 <;> rfl
  | getKeys =>
    obtain ⟨events, result⟩ := reported_of_silent (scanned_silent (r := r)
      (f := fun identities => (Sorted.ofPairs (identities.map fun i : Identity =>
        (i.aggregationKey, ()))).map Prod.fst))
      (r.repository.report .getKeys none none Repository.plainly) Reply.keys h w
    rw [perform, getKeys, events, result]
    cases (Program.run h _ w).1 <;> rfl
  | scan =>
    obtain ⟨events, result⟩ := reported_of_silent (scanIdentities_silent (r := r))
      (r.repository.report .scan none none Repository.plainly) Reply.identities h w
    rw [perform, scan, events, result]
    cases (r.scanIdentities.run h w).1 <;> rfl

end Running

end GroupStore

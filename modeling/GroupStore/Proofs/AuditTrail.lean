import GroupStore.Proofs.Memory.Host
import GroupStore.Proofs.ReadBack
import GroupStore.Proofs.Replies
import GroupStore.Proofs.Reports
import GroupStore.Proofs.Startup

/-!
# The audit trail

Starting a repository, calling it and stopping it are the services that are reported.  Whatever
the codec does, and whatever the host answers, a service makes all its requests first and reports
afterwards: a start that succeeds reports its five statements, and every service then reports
once how it ended.

* `Program.course` — requests and reports of a run in one sequence;
* `Program.ReportsLast` — a program that requests nothing once it has reported;
* `Service`, `Ending` — what is reported, and what it gives back;
* `Service.Truthful` — when an outcome and a detail say how a service ended;
* `Service.audited` — the trail that a service leaves.
-/

namespace GroupStore

variable {S α β σ : Type}

/-! ### Requests and reports in one sequence -/

/-- What a run does: it makes a request, or it reports. -/
inductive Doing (S : Type) where
  | asked (request : Request S)
  | reported (event : Audit.Event)

namespace Program

/-- What a run does, first to last. -/
def course (h : Host σ S) : Program S α → σ → List (Doing S)
  | done _, _ => []
  | connect k, w =>
    .asked (.connect (h.connect w).1) :: (k (h.connect w).1).course h (h.connect w).2
  | prepare s t k, w =>
    .asked (.prepare s t (h.prepare s t w).1) ::
      (k (h.prepare s t w).1).course h (h.prepare s t w).2
  | execute s b k, w =>
    .asked (.execute ⟨s, b, (h.execute s b w).1⟩) ::
      (k (h.execute s b w).1).course h (h.execute s b w).2
  | close s k, w =>
    .asked (.close s (h.close s w).1) :: (k (h.close s w).1).course h (h.close s w).2
  | record e k, w => .reported e :: k.course h (h.record e w)

/-- Nothing is requested. -/
def OnlyReports : Program S α → Prop
  | done _ => True
  | record _ next => next.OnlyReports
  | connect _ | prepare _ _ _ | execute _ _ _ | close _ _ => False

/-- Nothing is requested after a report, whatever the answers are. -/
def ReportsLast : Program S α → Prop
  | done _ => True
  | connect next => ∀ answer, (next answer).ReportsLast
  | prepare _ _ next => ∀ answer, (next answer).ReportsLast
  | execute _ _ next => ∀ answer, (next answer).ReportsLast
  | close _ next => ∀ answer, (next answer).ReportsLast
  | record _ next => next.OnlyReports

theorem OnlyReports.bind {p : Program S α} {f : α → Program S β} (hp : p.OnlyReports)
    (hf : ∀ a, (f a).OnlyReports) : (p.bind f).OnlyReports := by
  induction p with
  | done a => exact hf a
  | record e next ih => exact ih hp
  | connect next ih => exact hp.elim
  | prepare s t next ih => exact hp.elim
  | execute s b next ih => exact hp.elim
  | close s next ih => exact hp.elim

theorem OnlyReports.reportsLast {p : Program S α} (hp : p.OnlyReports) : p.ReportsLast := by
  cases p with
  | done a => trivial
  | record e next => exact hp
  | connect next => exact hp.elim
  | prepare s t next => exact hp.elim
  | execute s b next => exact hp.elim
  | close s next => exact hp.elim

theorem ReportsLast.bind {p : Program S α} {f : α → Program S β} (hp : p.ReportsLast)
    (hf : ∀ a, (f a).OnlyReports) : (p.bind f).ReportsLast := by
  induction p with
  | done a => exact (hf a).reportsLast
  | connect next ih => exact fun answer => ih answer (hp answer)
  | prepare s t next ih => exact fun answer => ih answer (hp answer)
  | execute s b next ih => exact fun answer => ih answer (hp answer)
  | close s next ih => exact fun answer => ih answer (hp answer)
  | record e next ih => exact OnlyReports.bind hp hf

theorem ReportsLast.mapOk {p : Program S (Except RepositoryError α)} (hp : p.ReportsLast)
    (f : α → β) : (p.mapOk f).ReportsLast :=
  hp.bind fun _ => trivial

/-- Before its first report a program may do anything else. -/
theorem Silent.bind_reportsLast {p : Program S α} {f : α → Program S β} (hp : p.Silent)
    (hf : ∀ a, (f a).ReportsLast) : (p.bind f).ReportsLast := by
  induction p with
  | done a => exact hf a
  | connect next ih => exact fun answer => ih answer (hp answer)
  | prepare s t next ih => exact fun answer => ih answer (hp answer)
  | execute s b next ih => exact fun answer => ih answer (hp answer)
  | close s next ih => exact fun answer => ih answer (hp answer)
  | record e next ih => exact hp.elim

theorem Silent.reported {p : Program S (Except RepositoryError β)} (hp : p.Silent)
    (event : Except RepositoryError β → Audit.Event) :
    (Repository.reported event p).ReportsLast :=
  hp.bind_reportsLast fun _ => trivial

theorem OnlyReports.course {p : Program S α} (hp : p.OnlyReports) (h : Host σ S) (w : σ) :
    p.course h w = (p.events h w).map .reported := by
  induction p generalizing w with
  | done a => rfl
  | record e next ih => exact congrArg (_ :: ·) (ih hp _)
  | connect next ih => exact hp.elim
  | prepare s t next ih => exact hp.elim
  | execute s b next ih => exact hp.elim
  | close s next ih => exact hp.elim

theorem OnlyReports.trace {p : Program S α} (hp : p.OnlyReports) (h : Host σ S) (w : σ) :
    p.trace h w = [] := by
  induction p generalizing w with
  | done a => rfl
  | record e next ih => exact ih hp _
  | connect next ih => exact hp.elim
  | prepare s t next ih => exact hp.elim
  | execute s b next ih => exact hp.elim
  | close s next ih => exact hp.elim

/-- All requests come first, and then all reports. -/
theorem ReportsLast.course {p : Program S α} (hp : p.ReportsLast) (h : Host σ S) (w : σ) :
    p.course h w = (p.trace h w).map .asked ++ (p.events h w).map .reported := by
  induction p generalizing w with
  | done a => rfl
  | connect next ih => exact congrArg (_ :: ·) (ih _ (hp _) _)
  | prepare s t next ih => exact congrArg (_ :: ·) (ih _ (hp _) _)
  | execute s b next ih => exact congrArg (_ :: ·) (ih _ (hp _) _)
  | close s next ih => exact congrArg (_ :: ·) (ih _ (hp _) _)
  | record e next ih =>
    have only : (record e next).OnlyReports := hp
    rw [only.course, only.trace]
    rfl

end Program

/-! ### Starts, calls and stops report last -/

namespace Repository

variable (r : Repository S α)

theorem announce_onlyReports (statements : List Prepared) (result : β) :
    (r.announce (S := S) statements (.done result)).OnlyReports := by
  induction statements with
  | nil => trivial
  | cons p rest ih => exact ih

theorem start_reportsLast : r.start.ReportsLast := by
  have startOn (session : S) : (r.startOn session).ReportsLast := by
    refine (r.prepareAll_silent session).bind_reportsLast fun result => ?_
    cases result with
    | ok statements => exact (r.announce_onlyReports _ _).reportsLast
    | error e =>
      show (r.giveUp session e.1 e.2).ReportsLast
      unfold giveUp
      split
      · intro answer
        cases answer <;> trivial
      · trivial
  have started : (r.obtain.andThen r.startOn).ReportsLast := by
    refine r.obtain_silent.bind_reportsLast fun result => ?_
    cases result with
    | ok session => exact startOn session
    | error e => trivial
  exact started.bind fun _ => trivial

/-- Five preparations that succeed are the requests that were made. -/
theorem prepareAll_trace {h : Host σ S} {r : Repository S α} {session : S} {w w' : σ}
    {statements : Statements}
    (prepared : (r.prepareAll session).run h w = (.ok statements, w')) :
    (r.prepareAll session).trace h w =
      r.preparing session (StatementKind.all.map fun kind => (kind, statements.of kind)) := by
  have one {kind : StatementKind} {w w' : σ} {p : Prepared}
      (answered : h.prepare session (r.schema.template kind) w = (.ok p, w')) :
      (r.prepareOne session kind).run h w = (.ok p, w') ∧ (r.prepareOne session kind).trace h w =
        [.prepare session (r.schema.template kind) (.ok p)] := by
    refine ⟨prepareOne_eq_ok_iff.mpr answered, ?_⟩
    simp only [prepareOne, Program.trace, answered]
  obtain ⟨w₁, w₂, w₃, w₄, insert, selectByKey, deleteByKey, selectKeyAndId, conditionalDelete⟩ :=
    prepareAll_eq_ok_iff.mp prepared
  obtain ⟨run₁, trace₁⟩ := one insert
  obtain ⟨run₂, trace₂⟩ := one selectByKey
  obtain ⟨run₃, trace₃⟩ := one deleteByKey
  obtain ⟨run₄, trace₄⟩ := one selectKeyAndId
  obtain ⟨run₅, trace₅⟩ := one conditionalDelete
  rw [prepareAll, Program.trace_andThen_ok run₁, Program.trace_andThen_ok run₂,
    Program.trace_andThen_ok run₃, Program.trace_andThen_ok run₄, Program.trace_andThen_ok run₅,
    trace₁, trace₂, trace₃, trace₄, trace₅]
  rfl

/-- A start that succeeds has made its session's and its five statements' requests. -/
theorem start_trace {h : Host σ S} {r : Repository S α} {w w' : σ} {running : Running S α}
    (started : r.start.run h w = (.ok running, w')) :
    running.repository = r ∧ r.start.trace h w = r.source.obtaining running.session ++
      r.preparing running.session
        (StatementKind.all.map fun kind => (kind, running.statements.of kind)) := by
  obtain ⟨session, w₁, statements, w₂, obtained, prepared, rfl, -⟩ := start_eq_ok started
  refine ⟨rfl, ?_⟩
  rw [start, Program.trace_reported, Program.trace_andThen_ok obtained, startOn,
    Program.trace_bind, prepareAll_trace prepared, prepared]
  rcases obtain_cases (r := r) (h := h) w with ⟨cause, w', -, -, run⟩ | ⟨own, w', -, trace, run⟩
  · rw [run] at obtained
    cases obtained
  · rw [run] at obtained
    cases obtained
    show _ ++ (_ ++ (r.announce statements.toList _).trace h w₂) = _
    rw [trace, announce_trace, List.append_nil]

end Repository

namespace Running

variable (r : Running S α)

theorem perform_reportsLast (call : Call α) : (r.perform call).ReportsLast := by
  cases call with
  | add key value =>
    refine Program.ReportsLast.mapOk (((insertResult_silent key value).reported _).bind
      fun result => ?_) _
    cases result <;> trivial
  | get key => exact ((selectResult_silent key).reported _).mapOk _
  | confirm id => exact ((confirmMatches_silent id).reported _).mapOk _
  | remove key => exact ((deleteResult_silent key).reported _).mapOk _
  | getKeys => exact (scanned_silent.reported _).mapOk _
  | scan => exact (scanIdentities_silent.reported _).mapOk _

theorem stop_reportsLast : r.stop.ReportsLast := by
  refine Program.ReportsLast.bind (Program.Silent.reported ?_ _) fun result => ?_
  · split
    · intro answer
      cases answer <;> trivial
    · trivial
  · cases result <;> trivial

end Running

/-- The replies that a call may have. -/
def Call.Answers : Call α → Reply α → Prop
  | .add _ value, .stored stored => stored = value
  | .get _, .found _ | .confirm _, .confirmed _ | .remove _, .removed | .getKeys, .keys _
  | .scan, .identities _ => True
  | _, _ => False

/-- A call that succeeds has one of its replies. -/
theorem Running.perform_answers {h : Host σ S} {r : Running S α} {call : Call α} {w : σ}
    {reply : Reply α} (replied : ((r.perform call).run h w).1 = .ok reply) :
    call.Answers reply := by
  cases call with
  | add key value =>
    obtain ⟨stored, added, rfl⟩ := Program.exists_of_mapOk replied
    rw [Running.add, Program.andThen, Program.run_bind] at added
    cases result : (Program.run h (Repository.reported _ (r.insertResult key value)) w).1 with
    | ok done =>
      rw [result] at added
      cases added
      exact rfl
    | error e =>
      rw [result] at added
      cases added
  | get key | confirm id | remove key | getKeys | scan =>
    obtain ⟨value, -, rfl⟩ := Program.exists_of_mapOk replied
    trivial

/-! ### Services -/

/-- What is done with a repository: it is started, called and stopped. -/
inductive Service (S α : Type) where
  | start (repository : Repository S α)
  | call (running : Running S α) (request : Call α)
  | stop (running : Running S α)

/-- What a service gives back. -/
inductive Ending (S α : Type) where
  | started (running : Running S α)
  | replied (reply : Reply α)
  | stopped (repository : Repository S α)

namespace Service

/-- Do it. -/
def program : Service S α → Program S (Except RepositoryError (Ending S α))
  | start repository => repository.start.mapOk .started
  | call running request => (running.perform request).mapOk .replied
  | stop running => running.stop.mapOk .stopped

/-- The repository that it is done with. -/
def repository : Service S α → Repository S α
  | start repository => repository
  | call running _ | stop running => running.repository

/-- The operation as it is named in reports. -/
def operation : Service S α → Audit.Operation
  | start _ => .start
  | call _ (.add _ _) => .add
  | call _ (.get _) => .get
  | call _ (.confirm _) => .confirm
  | call _ (.remove _) => .remove
  | call _ .getKeys => .getKeys
  | call _ .scan => .scan
  | stop _ => .stop

/-- The group that it is about. -/
def key? : Service S α → Option String
  | call _ (.add key _) | call _ (.get key) | call _ (.remove key) => some key
  | call _ (.confirm _) | call _ .getKeys | call _ .scan | start _ | stop _ => none

/-- The exchange id that it is about; a get is about that of the result it returns. -/
def exchangeId? : Service S α → Except RepositoryError (Ending S α) → Option String
  | call running (.add _ value), _ => some (running.repository.codec.exchangeId value)
  | call _ (.confirm id), _ => some id
  | call running (.get _), .ok (.replied (.found (some value))) =>
    some (running.repository.codec.exchangeId value)
  | _, _ => none

/-- An outcome and a detail say how a service ended. -/
structure Truthful (s : Service S α) (result : Except RepositoryError (Ending S α))
    (outcome : Audit.Outcome) (detail : Option String) : Prop where
  error : outcome = .error ↔ ∃ e, result = .error e
  notFound : outcome = .notFound ↔
    (∃ r key, s = .call r (.get key) ∧ result = .ok (.replied (.found none))) ∨
    ∃ r id c, s = .call r (.confirm id) ∧ result = .ok (.replied (.confirmed c)) ∧ c.matched = 0
  stale : outcome = .stale ↔ ∃ r id c, s = .call r (.confirm id) ∧
    result = .ok (.replied (.confirmed c)) ∧ c.matched ≠ 0 ∧ c.deleted = 0
  message : ∀ e, result = .error e → detail = some e.message
  counters : ∀ r id c, s = .call r (.confirm id) → result = .ok (.replied (.confirmed c)) →
    detail = some ("matched=" ++ toString c.matched ++ " deleted=" ++ toString c.deleted ++
      " stale=" ++ toString c.stale)
  silence : (∀ e, result ≠ .error e) → (∀ r id, s ≠ .call r (.confirm id)) → detail = none

/-- How an ending is reported. -/
def outcomeOf : Ending S α → Audit.Outcome × Option String
  | .replied reply => Running.outcomeOf reply
  | .started _ | .stopped _ => (.ok, none)

/-- The report of a service that ended in some way. -/
def reportOf (s : Service S α) (result : Except RepositoryError (Ending S α)) : Audit.Event :=
  s.repository.report s.operation s.key? (s.exchangeId? result) outcomeOf result

theorem program_reportsLast (s : Service S α) : s.program.ReportsLast := by
  cases s with
  | start repository => exact repository.start_reportsLast.mapOk _
  | call running request => exact (running.perform_reportsLast request).mapOk _
  | stop running => exact running.stop_reportsLast.mapOk _

/-- The reports of the statements of a service that ended in some way. -/
def announced (s : Service S α) : Except RepositoryError (Ending S α) → List Audit.Event
  | .ok (.started running) => running.statements.toList.map s.repository.reportOf
  | _ => []

theorem announced_nil (s : Service S α) {result : Except RepositoryError (Ending S α)}
    (unstarted : ∀ running, result ≠ .ok (.started running)) : s.announced result = [] := by
  rcases result with e | ⟨running⟩ | ⟨reply⟩ | ⟨repository⟩
  · rfl
  · exact absurd rfl (unstarted running)
  · rfl
  · rfl

/-- A service reports its statements, if it has prepared them all, and then how it ended. -/
theorem program_events (s : Service S α) (h : Host σ S) (w : σ) :
    s.program.events h w =
      s.announced (s.program.run h w).1 ++ [s.reportOf (s.program.run h w).1] := by
  cases s with
  | start repository =>
    rw [program, Program.events_mapOk, Repository.start_announces, Program.mapOk, Program.run_map]
    cases (repository.start.run h w).1 <;> rfl
  | call running request =>
    rw [program, Program.events_mapOk, Running.perform_events, Program.mapOk, Program.run_map]
    rcases ((running.perform request).run h w).1 with e | reply
    · cases request <;> rfl
    · cases request with
      | get key =>
        cases reply with
        | found value => cases value <;> rfl
        | stored _ | confirmed _ | removed | keys _ | identities _ => rfl
      | add key value | confirm id | remove key | getKeys | scan => rfl
  | stop running =>
    obtain ⟨w', -, events, -⟩ := running.stop_reports h w
    rw [program, Program.events_mapOk, events, Program.mapOk, Program.run_map]
    cases (running.stop.run h w).1 <;> rfl

/-- Only a call has a reply, and it is one of its own. -/
theorem program_answers {s : Service S α} {h : Host σ S} {w : σ} {reply : Reply α}
    (replied : (s.program.run h w).1 = .ok (.replied reply)) :
    ∃ running request, s = .call running request ∧ request.Answers reply := by
  cases s with
  | start repository =>
    obtain ⟨running, -, clash⟩ := Program.exists_of_mapOk replied
    cases clash
  | stop running =>
    obtain ⟨repository, -, clash⟩ := Program.exists_of_mapOk replied
    cases clash
  | call running request =>
    obtain ⟨own, answered, repliedEq⟩ := Program.exists_of_mapOk replied
    cases repliedEq
    exact ⟨running, request, rfl, Running.perform_answers answered⟩

/-- The counters of a confirmation are reported, and whether it found and dropped something. -/
theorem truthful_confirm (running : Running S α) (id : String) (c : Confirmation) :
    (call running (.confirm id)).Truthful (.ok (.replied (.confirmed c))) c.outcome
      (some c.detail) where
  error := by
    unfold Confirmation.outcome
    split_ifs <;> simp
  notFound := by
    unfold Confirmation.outcome
    split_ifs <;> simp_all
  stale := by
    unfold Confirmation.outcome
    split_ifs <;> simp_all
  message := by simp
  counters := by
    rintro r id' c' - repliedEq
    cases repliedEq
    rfl
  silence := fun _ other => absurd rfl (other running id)

/-- The report of a service that ended in some way says how it ended. -/
theorem reportOf_truthful {s : Service S α} {result : Except RepositoryError (Ending S α)}
    (answers : ∀ reply, result = .ok (.replied reply) →
      ∃ running request, s = .call running request ∧ request.Answers reply) :
    ∃ outcome detail, s.reportOf result = .call s.repository.table s.operation s.key?
        (s.exchangeId? result) outcome detail ∧ s.Truthful result outcome detail := by
  rcases result with e | ⟨running⟩ | ⟨reply⟩ | ⟨repository⟩
  · refine ⟨.error, some e.message, rfl, ?_⟩
    constructor <;> simp
  · refine ⟨.ok, none, rfl, ?_⟩
    constructor <;> simp
  · obtain ⟨running, request, rfl, own⟩ := answers reply rfl
    cases request <;> cases reply <;> try exact own.elim
    case get.found key value =>
      cases value with
      | none =>
        refine ⟨.notFound, none, rfl, ?_⟩
        constructor <;> simp
      | some value =>
        refine ⟨.ok, none, rfl, ?_⟩
        constructor <;> simp
    case confirm.confirmed id c =>
      exact ⟨c.outcome, some c.detail, rfl, truthful_confirm running id c⟩
    all_goals
      refine ⟨.ok, none, rfl, ?_⟩
      constructor <;> simp
  · refine ⟨.ok, none, rfl, ?_⟩
    constructor <;> simp

/-- Whatever the codec and the host do, a service reports once, after all its requests, with its
operation, its table, its group and its exchange id, and with an outcome and a detail that say how
it ended.  A start that succeeds reports before that the five statements it has prepared, in their
order; nothing else is reported. -/
theorem audited (s : Service S α) (h : Host σ S) (w : σ) :
    let result := (s.program.run h w).1
    ∃ statements outcome detail,
      s.program.course h w = (s.program.trace h w).map .asked ++ statements.map .reported ++
        [.reported (.call s.repository.table s.operation s.key? (s.exchangeId? result) outcome
          detail)] ∧
      s.Truthful result outcome detail ∧
      ((∀ running, result ≠ .ok (.started running)) → statements = []) ∧
      ∀ running, result = .ok (.started running) →
        s = .start running.repository ∧
        s.program.trace h w = running.repository.source.obtaining running.session ++
          running.repository.preparing running.session
            (StatementKind.all.map fun kind => (kind, running.statements.of kind)) ∧
        statements = StatementKind.all.map fun kind =>
          let p := running.statements.of kind
          .statement s.repository.table p.template.kind p.native p.template.consistency := by
  intro result
  have answers : ∀ reply, result = .ok (.replied reply) →
      ∃ running request, s = .call running request ∧ request.Answers reply :=
    fun reply replied => program_answers replied
  obtain ⟨outcome, detail, event, truthful⟩ := reportOf_truthful answers
  refine ⟨s.announced result, outcome, detail, ?_, truthful, s.announced_nil, ?_⟩
  · rw [s.program_reportsLast.course, s.program_events, event, List.map_append, List.append_assoc]
    rfl
  · intro running started
    cases s with
    | start repository =>
      obtain ⟨own, ok, startedEq⟩ := Program.exists_of_mapOk started
      cases startedEq
      have run : repository.start.run h w = (.ok running, (repository.start.run h w).2) :=
        Prod.ext ok rfl
      obtain ⟨rfl, trace⟩ := Repository.start_trace run
      refine ⟨rfl, ?_, ?_⟩
      · rw [program, Program.mapOk, Program.trace_map, trace]
      · rw [started]
        rfl
    | call running' request =>
      obtain ⟨reply, -, clash⟩ := Program.exists_of_mapOk started
      cases clash
    | stop running' =>
      obtain ⟨repository, -, clash⟩ := Program.exists_of_mapOk started
      cases clash

/-- The plain repository starts on an empty memory session: its five statements are reported, and
then that it has started. -/
theorem audited_plain : ∃ running w,
    plainRepository.start.run (Memory.host ()) ⟨.empty, 0⟩ = (.ok running, w) ∧
    (start plainRepository).program.course (Memory.host ()) ⟨.empty, 0⟩ =
      ((start plainRepository).program.trace (Memory.host ()) ⟨.empty, 0⟩).map .asked ++
        (StatementKind.all.map fun kind =>
          let p := running.statements.of kind
          Doing.reported (.statement "results" p.template.kind p.native p.template.consistency)) ++
        [.reported (.call "results" .start none none .ok none)] := by
  obtain ⟨running, w, started⟩ := (Memory.start_iff () 0 (r := plainRepository)
    Memory.Store.sound_empty).mpr fun _ found => by cases found
  obtain ⟨statements, outcome, detail, course, truthful, -, reported⟩ :=
    audited (start plainRepository) (Memory.host ()) ⟨.empty, 0⟩
  have result : ((start plainRepository).program.run (Memory.host ()) ⟨.empty, 0⟩).1 =
      .ok (.started running) := by
    rw [program, Program.mapOk, Program.run_map, started]
    rfl
  obtain ⟨-, -, rfl⟩ := reported running result
  rw [result] at truthful course
  obtain rfl : outcome = .ok := by
    have failed := truthful.error
    have empty := truthful.notFound
    have stale := truthful.stale
    cases outcome <;> simp at failed empty stale ⊢
  obtain rfl : detail = none := truthful.silence (by simp) (by simp)
  exact ⟨running, w, started, by rw [course, List.map_map]; rfl⟩

end Service

end GroupStore

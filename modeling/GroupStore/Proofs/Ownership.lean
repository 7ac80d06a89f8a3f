import GroupStore.Proofs.Startup
import GroupStore.Proofs.Twins

/-!
# Who closes a session

A repository is started, called and stopped, and perhaps started again.  Its sessions may fail it
at any time, and a connection may yield a session that it yielded before.  A log of its requests
shows what becomes of each session: it is a sequence of tenures, from one start to the next, and in
a tenure that is over the session was closed exactly if it was the repository's own, once and last.

* `Tenure`, `Tenure.occurrences` — what may happen from one start to the next;
* `Career`, `Career.run` — starts, calls request by request, and stops, with a log;
* `Career.Orderly.take` — every deed keeps the log a sequence of tenures;
* `Career.Owns`, `session_ownership` — what becomes of the sessions, for every career.
-/

namespace GroupStore

variable {σ S α β : Type}

/-! ### Logs -/

/-- What is logged: a request, or how a start or a stop ended. -/
inductive Occurrence (S : Type) where
  | request (request : Request S)
  | started (failure : Option RepositoryError)
  | stopped (failure : Option RepositoryError)

/-- A preparation or an execution on a session. -/
def Request.Uses (session : S) : Request S → Prop
  | .prepare other _ _ => other = session
  | .execute execution => execution.session = session
  | .connect _ | .close _ _ => False

namespace Occurrence

/-- What happens while a session is kept. -/
def Uses (session : S) : Occurrence S → Prop
  | request q => q.Uses session
  | started none => True
  | started (some _) | stopped _ => False

/-- A session is asked for. -/
def Connects : Occurrence S → Prop
  | request (.connect _) => True
  | _ => False

/-- The end of the start that failed, or else of the stop that followed the start. -/
def Ends (during : List (Occurrence S)) : Occurrence S → Prop
  | started (some e) => (∃ cause, e = .startup cause) ∧ .started none ∉ during
  | stopped _ => .started none ∈ during
  | _ => False

/-- Some session was obtained. -/
def obtains (which : S → Bool) : Occurrence S → Bool
  | request (.connect (.ok session)) => which session
  | _ => false

/-- Some session was closed. -/
def closes (which : S → Bool) : Occurrence S → Bool
  | request (.close session _) => which session
  | _ => false

@[simp]
theorem obtains_connect (which : S → Bool) (session : S) :
    (request (.connect (.ok session))).obtains which = which session := rfl

@[simp]
theorem obtains_close (which : S → Bool) (session : S) (answer : Except SessionError Unit) :
    (request (.close session answer)).obtains which = false := rfl

@[simp]
theorem closes_connect (which : S → Bool) (answer : Except SessionError S) :
    (request (.connect answer)).closes which = false := rfl

@[simp]
theorem closes_close (which : S → Bool) (session : S) (answer : Except SessionError Unit) :
    (request (.close session answer)).closes which = which session := rfl

variable {session : S} {o : Occurrence S}

theorem Uses.not_connects (uses : o.Uses session) : ¬ o.Connects := by
  cases o with
  | request q => cases q <;> first | exact id | exact uses.elim
  | started failure => exact id
  | stopped failure => exact id

theorem Uses.not_obtains (uses : o.Uses session) (which : S → Bool) : ¬ o.obtains which := by
  cases o with
  | request q => cases q <;> first | exact Bool.false_ne_true | exact uses.elim
  | started failure => exact Bool.false_ne_true
  | stopped failure => exact Bool.false_ne_true

theorem Uses.not_closes (uses : o.Uses session) (which : S → Bool) : ¬ o.closes which := by
  cases o with
  | request q => cases q <;> first | exact Bool.false_ne_true | exact uses.elim
  | started failure => exact Bool.false_ne_true
  | stopped failure => exact Bool.false_ne_true

end Occurrence

/-- How a session is given up: it was used, it is closed, and the start or the stop that closed it
ends. -/
def Settles (session : S) (block : List (Occurrence S)) : Prop :=
  ∃ during answer ending, block = during ++ [.request (.close session answer), ending] ∧
    (∀ o ∈ during, o.Uses session) ∧ ending.Ends during

/-! ### Tenures -/

/-- What may happen from one start to the next. -/
inductive Tenure (S : Type) where
  /-- No session was obtained. -/
  | unreachable (cause : SessionError)
  /-- A statement was refused when some had been accepted, and the session was given up. -/
  | refused (session : S) (accepted : List (StatementKind × Prepared)) (kind : StatementKind)
    (cause : SessionError) (closing : Option (Except SessionError Unit))
  /-- The repository runs on its session. -/
  | serving (session : S) (accepted : List (StatementKind × Prepared))
    (executed : List (Answered S))
  /-- It ran on its session and was stopped. -/
  | served (session : S) (accepted : List (StatementKind × Prepared))
    (executed : List (Answered S)) (closing : Option (Except SessionError Unit))

namespace Tenure

variable (r : Repository S α)

/-- What is logged of a repository that runs, once it has its session. -/
def service (session : S) (accepted : List (StatementKind × Prepared))
    (executed : List (Answered S)) : List (Occurrence S) :=
  (r.preparing session accepted).map .request ++
    .started none :: executed.map fun e => .request (.execute e)

/-- What is logged of a tenure. -/
def occurrences : Tenure S → List (Occurrence S)
  | unreachable cause =>
    [.request (.connect (.error cause)), .started (some (.startup (.unreachable cause)))]
  | refused session accepted kind cause closing =>
    (r.source.obtaining session ++ (r.preparing session accepted ++
      .prepare session (r.schema.template kind) (.error cause) ::
        closings session closing)).map .request ++
      [.started (some (.startup (.refused kind cause (closingFailure closing))))]
  | serving session accepted executed =>
    (r.source.obtaining session).map .request ++ service r session accepted executed
  | served session accepted executed closing =>
    (r.source.obtaining session).map .request ++ service r session accepted executed ++
      (closings session closing).map .request ++
        [.stopped ((closingFailure closing).map .storage)]

/-- The session is one that the source yields, the five statements were accepted up to the one that
was refused, every execution was on the session, and it was closed iff it was the repository's
own. -/
def Proper : Tenure S → Prop
  | unreachable _ => r.source = .owned
  | refused session accepted kind _ closing => r.source.Yields session ∧
      accepted.map Prod.fst ++ [kind] <+: StatementKind.all ∧ closing.isSome = r.source.isOwned
  | serving session accepted executed => r.source.Yields session ∧
      accepted.map Prod.fst = StatementKind.all ∧ ∀ e ∈ executed, e.session = session
  | served session accepted executed closing => r.source.Yields session ∧
      accepted.map Prod.fst = StatementKind.all ∧ (∀ e ∈ executed, e.session = session) ∧
      closing.isSome = r.source.isOwned

/-- The repository does not run any more. -/
def Over : Tenure S → Prop
  | serving _ _ _ => False
  | _ => True

end Tenure

/-! ### Careers -/

/-- Where a repository is in its life. -/
inductive Phase (S α : Type) where
  | stopped (repository : Repository S α)
  /-- It runs, and these calls have begun. -/
  | running (running : Running S α) (tasks : List (Program S (Except RepositoryError (Reply α))))
  /-- A start or a stop has failed and has not given it back. -/
  | gone

/-- The session that is kept. -/
def Phase.session? : Phase S α → Option S
  | running r _ => some r.session
  | stopped _ | gone => none

/-- A repository among its sessions, with the log of what it did. -/
structure Career (σ S α : Type) where
  world : σ
  phase : Phase S α
  log : List (Occurrence S)

/-- What may be done next. -/
inductive Deed (σ α : Type) where
  | start
  /-- Begin a call. -/
  | call (call : Call α)
  /-- A call that has begun makes its next request. -/
  | step (task : Nat)
  | stop
  /-- Make the repository anew after it was not given back. -/
  | renew
  /-- Something else happens to the sessions. -/
  | elsewhere (world : σ)

namespace Career

variable (h : Host σ S) (r : Repository S α)

/-- The career of a repository that was made just now. -/
def fresh (w : σ) : Career σ S α := ⟨w, .stopped r, []⟩

/-- The requests of a start and its end. -/
def start (c : Career σ S α) (repository : Repository S α) : Career σ S α :=
  let log := c.log ++ (repository.start.trace h c.world).map .request
  match repository.start.run h c.world with
  | (.ok running, w) => ⟨w, .running running [], log ++ [.started none]⟩
  | (.error e, w) => ⟨w, .gone, log ++ [.started (some e)]⟩

/-- The requests of a stop and its end. -/
def stop (c : Career σ S α) (running : Running S α) : Career σ S α :=
  let log := c.log ++ (running.stop.trace h c.world).map .request
  match running.stop.run h c.world with
  | (.ok repository, w) => ⟨w, .stopped repository, log ++ [.stopped none]⟩
  | (.error e, w) => ⟨w, .gone, log ++ [.stopped (some e)]⟩

/-- Do something; what is impossible now changes nothing.  A repository is stopped only when its
calls have come to their ends. -/
def take (c : Career σ S α) (deed : Deed σ α) : Career σ S α :=
  match deed, c.phase with
  | .start, .stopped repository => c.start h repository
  | .call call, .running running tasks =>
    { c with phase := .running running (tasks ++ [running.perform call]) }
  | .step task, .running running tasks =>
    match tasks[task]? with
    | none => c
    | some p =>
      ⟨(p.next h c.world).2, .running running (tasks.set task (p.next h c.world).1),
        c.log ++ (p.asked h c.world).map .request⟩
  | .stop, .running running tasks =>
    if tasks.all fun p => p.result?.isSome then c.stop h running else c
  | .renew, .gone => { c with phase := .stopped r }
  | .elsewhere world, _ => { c with world := world }
  | _, _ => c

/-- Do some things, first to last. -/
def run (c : Career σ S α) (deeds : List (Deed σ α)) : Career σ S α :=
  deeds.foldl (take h r) c

/-- The log is a sequence of tenures that are over, and of the present one of a repository that
runs; and its calls have nothing to ask but executions on its session. -/
inductive Orderly : Career σ S α → Prop where
  | stopped (w : σ) (past : List (Tenure S)) (settled : ∀ t ∈ past, t.Proper r ∧ t.Over) :
      Orderly ⟨w, .stopped r, past.flatMap (Tenure.occurrences r)⟩
  | gone (w : σ) (past : List (Tenure S)) (settled : ∀ t ∈ past, t.Proper r ∧ t.Over) :
      Orderly ⟨w, .gone, past.flatMap (Tenure.occurrences r)⟩
  | running (w : σ) (past : List (Tenure S)) (settled : ∀ t ∈ past, t.Proper r ∧ t.Over)
      (running : Running S α) (own : running.repository = r)
      (tasks : List (Program S (Except RepositoryError (Reply α))))
      (asks : ∀ p ∈ tasks, p.Asks fun session _ => session = running.session)
      (accepted : List (StatementKind × Prepared)) (executed : List (Answered S))
      (proper : (Tenure.serving running.session accepted executed).Proper r) :
      Orderly ⟨w, .running running tasks, past.flatMap (Tenure.occurrences r) ++
        Tenure.occurrences r (.serving running.session accepted executed)⟩

variable {h r} {c : Career σ S α}

theorem settled_append {past : List (Tenure S)} (settled : ∀ t ∈ past, t.Proper r ∧ t.Over)
    {t : Tenure S} (proper : t.Proper r) (ended : t.Over) :
    ∀ t' ∈ past ++ [t], t'.Proper r ∧ t'.Over := by
  intro t' member
  rcases List.mem_append.mp member with old | new
  · exact settled t' old
  · rw [List.mem_singleton.mp new]
    exact ⟨proper, ended⟩

theorem flatMap_append_one (past : List (Tenure S)) (t : Tenure S) :
    (past ++ [t]).flatMap (Tenure.occurrences r) =
      past.flatMap (Tenure.occurrences r) ++ t.occurrences r := by
  rw [List.flatMap_append, List.flatMap_singleton]

/-- A start adds a tenure that is over, or one that serves. -/
theorem Orderly.start (w : σ) {past : List (Tenure S)}
    (settled : ∀ t ∈ past, t.Proper r ∧ t.Over) :
    Orderly r (Career.start h ⟨w, .stopped r, past.flatMap (Tenure.occurrences r)⟩ r) := by
  unfold Career.start
  rcases run : r.start.run h w with ⟨result, w'⟩
  rcases r.start_cases h w with
    ⟨cause, own, trace, failed⟩ |
    ⟨session, accepted, kind, cause, closing, yields, tried, owned, trace, failed⟩ |
    ⟨session, accepted, statements, yields, all, trace, ok⟩
  · rw [run] at failed
    obtain rfl : result = _ := failed
    simp only [trace, List.append_assoc]
    have tenure := flatMap_append_one (r := r) past (.unreachable cause)
    exact tenure ▸ Orderly.gone w' _ (settled_append settled own trivial)
  · rw [run] at failed
    obtain rfl : result = _ := failed
    simp only [trace, List.append_assoc]
    have tenure := flatMap_append_one (r := r) past
      (.refused session accepted kind cause closing)
    exact tenure ▸ Orderly.gone w' _ (settled_append settled ⟨yields, tried, owned⟩ trivial)
  · rw [run] at ok
    obtain rfl : result = _ := ok
    simp only [trace, List.map_append, List.append_assoc]
    exact Orderly.running w' past settled ⟨r, session, statements⟩ rfl []
      (fun _ member => absurd member List.not_mem_nil) accepted []
      ⟨yields, all, fun _ member => absurd member List.not_mem_nil⟩

/-- A stop turns the tenure that serves into one that is over. -/
theorem Orderly.stop (w : σ) {past : List (Tenure S)}
    (settled : ∀ t ∈ past, t.Proper r ∧ t.Over) {running : Running S α}
    (own : running.repository = r)
    {tasks : List (Program S (Except RepositoryError (Reply α)))}
    {accepted : List (StatementKind × Prepared)} {executed : List (Answered S)}
    (proper : (Tenure.serving running.session accepted executed).Proper r) :
    Orderly r (Career.stop h ⟨w, .running running tasks, past.flatMap (Tenure.occurrences r) ++
      Tenure.occurrences r (.serving running.session accepted executed)⟩ running) := by
  obtain ⟨yields, all, executions⟩ := proper
  obtain ⟨closing, owned, trace, result⟩ := running.stop_cases h w
  rw [own] at owned
  have tenure := flatMap_append_one (r := r) past
    (.served running.session accepted executed closing)
  have settled' := settled_append settled (t := .served running.session accepted executed closing)
    ⟨yields, all, executions, owned⟩ trivial
  unfold Career.stop
  rcases run : running.stop.run h w with ⟨answer, w'⟩
  rw [run] at result
  obtain rfl : answer = _ := result
  simp only [trace, Running.stopping, Tenure.occurrences, List.append_assoc]
  cases failure : closingFailure closing with
  | none =>
    simp only [Tenure.occurrences, failure, Option.map_none, List.append_assoc] at tenure
    have stopped := Orderly.stopped w' _ settled'
    rw [tenure] at stopped
    rw [own]
    exact stopped
  | some cause =>
    simp only [Tenure.occurrences, failure, Option.map_some, List.append_assoc] at tenure
    have gone := Orderly.gone w' _ settled'
    rw [tenure] at gone
    exact gone

/-- Every deed keeps the log a sequence of tenures. -/
theorem Orderly.take (orderly : c.Orderly r) (deed : Deed σ α) : (c.take h r deed).Orderly r := by
  cases orderly with
  | stopped w past settled =>
    cases deed with
    | start => exact Orderly.start w settled
    | elsewhere world => exact Orderly.stopped world past settled
    | call _ | step _ | stop | renew => exact Orderly.stopped w past settled
  | gone w past settled =>
    cases deed with
    | renew => exact Orderly.stopped w past settled
    | elsewhere world => exact Orderly.gone world past settled
    | start | call _ | step _ | stop => exact Orderly.gone w past settled
  | running w past settled running own tasks asks accepted executed proper =>
    have orderly' := Orderly.running w past settled running own tasks asks accepted executed proper
    cases deed with
    | start | renew => exact orderly'
    | elsewhere world =>
      exact Orderly.running world past settled running own tasks asks accepted executed proper
    | call call =>
      refine Orderly.running w past settled running own _ (fun p member => ?_) accepted executed
        proper
      rcases List.mem_append.mp member with old | new
      · exact asks p old
      · rw [List.mem_singleton.mp new]
        exact running.perform_session call
    | stop =>
      simp only [Career.take]
      split
      · exact Orderly.stop w settled own proper
      · exact orderly'
    | step task =>
      simp only [Career.take]
      cases found : tasks[task]? with
      | none => exact orderly'
      | some p =>
        have asks' := asks p (List.mem_of_getElem? found)
        obtain ⟨more, asked, own'⟩ := asks'.asked h w
        obtain ⟨yields, all, executions⟩ := proper
        have longer : Tenure.occurrences r (.serving running.session accepted executed) ++
            (p.asked h w).map .request =
              Tenure.occurrences r (.serving running.session accepted (executed ++ more)) := by
          simp only [asked, Tenure.occurrences, Tenure.service, List.map_append, List.map_map,
            List.append_assoc, List.cons_append]
          rfl
        simp only [List.append_assoc, longer]
        refine Orderly.running _ past settled running own _ (fun p' member => ?_) accepted _
          ⟨yields, all, fun e member => ?_⟩
        · rcases List.mem_or_eq_of_mem_set member with old | rfl
          · exact asks p' old
          · exact asks'.next h w
        · rcases List.mem_append.mp member with old | new
          · exact executions e old
          · exact own' e new

theorem Orderly.run (orderly : c.Orderly r) (deeds : List (Deed σ α)) :
    (c.run h r deeds).Orderly r := by
  induction deeds generalizing c with
  | nil => exact orderly
  | cons deed rest ih => exact ih (orderly.take deed)

end Career

/-! ### What becomes of the sessions -/

/-- What a repository has done with its sessions. -/
structure Career.Owns (r : Repository S α) (c : Career σ S α) : Prop where
  /-- The log is a sequence of tenures. -/
  orderly : c.Orderly r
  /-- Each session that was obtained is either still kept, and was used only, or it was given up:
  it was closed once, at the end of its use, and then nothing was asked before the next
  connection. -/
  obtained : r.source = .owned → ∀ before session after,
    c.log = before ++ .request (.connect (.ok session)) :: after →
      (c.phase.session? = some session ∧ ∀ o ∈ after, o.Uses session) ∨
      ∃ block later, after = block ++ later ∧ Settles session block ∧
        ∀ o ∈ later.head?, o.Connects
  /-- Of any sessions, as many were closed as were obtained, but for the one that is kept. -/
  balanced : r.source = .owned → ∀ which : S → Bool,
    c.log.countP (·.obtains which) =
      c.log.countP (·.closes which) + c.phase.session?.toList.countP which
  /-- A session that belongs to someone else is used only. -/
  borrowed : ∀ session, r.source = .borrowed session →
    ∀ q, .request q ∈ c.log → q.Uses session

namespace Tenure

variable {r : Repository S α} {t : Tenure S}

theorem uses_preparing {session : S} {accepted : List (StatementKind × Prepared)}
    {q : Request S} (member : q ∈ r.preparing session accepted) : q.Uses session := by
  obtain ⟨statement, -, rfl⟩ := List.mem_map.mp member
  exact rfl

theorem uses_service {session : S} {accepted : List (StatementKind × Prepared)}
    {executed : List (Answered S)} (executions : ∀ e ∈ executed, e.session = session)
    {o : Occurrence S} (member : o ∈ service r session accepted executed) : o.Uses session := by
  rcases List.mem_append.mp member with prepared | after
  · obtain ⟨q, request, rfl⟩ := List.mem_map.mp prepared
    exact uses_preparing request
  · rcases List.mem_cons.mp after with rfl | executed'
    · trivial
    · obtain ⟨e, own, rfl⟩ := List.mem_map.mp executed'
      exact executions e own

/-- A tenure of a repository that owns its sessions: it obtained none, or one that it gave up. -/
theorem owned_cases (own : r.source = .owned) (proper : t.Proper r) (ended : t.Over) :
    (∃ cause, t.occurrences r =
      [.request (.connect (.error cause)), .started (some (.startup (.unreachable cause)))]) ∨
    ∃ session block, t.occurrences r = .request (.connect (.ok session)) :: block ∧
      Settles session block := by
  cases t with
  | unreachable cause => exact .inl ⟨cause, rfl⟩
  | serving session accepted executed => exact ended.elim
  | refused session accepted kind cause closing =>
    obtain ⟨-, -, closed⟩ := proper
    rw [own] at closed
    obtain ⟨answer, rfl⟩ := Option.isSome_iff_exists.mp closed
    let requests := r.preparing session accepted ++
      [.prepare session (r.schema.template kind) (.error cause)]
    let ending : Occurrence S := .started (some (.startup (.refused kind cause
      (closingFailure (some answer)))))
    refine .inr ⟨session, _, ?_, requests.map .request, answer, ending, rfl, fun o member => ?_,
      ⟨_, rfl⟩, fun started => ?_⟩
    · simp only [occurrences, own, Source.obtaining, closings, Option.toList, List.map_append,
        List.map_cons, List.map_nil, List.cons_append, List.nil_append, List.append_assoc,
        requests, ending]
    · obtain ⟨q, request, rfl⟩ := List.mem_map.mp member
      rcases List.mem_append.mp request with prepared | refused
      · exact uses_preparing prepared
      · rw [List.mem_singleton.mp refused]
        exact rfl
    · obtain ⟨q, -, clash⟩ := List.mem_map.mp started
      cases clash
  | served session accepted executed closing =>
    obtain ⟨-, -, executions, closed⟩ := proper
    rw [own] at closed
    obtain ⟨answer, rfl⟩ := Option.isSome_iff_exists.mp closed
    let ending : Occurrence S := .stopped ((closingFailure (some answer)).map .storage)
    refine .inr ⟨session, _, ?_, service r session accepted executed, answer, ending, rfl,
      fun o member => uses_service executions member, ?_⟩
    · simp only [occurrences, own, Source.obtaining, closings, Option.toList, List.map_cons,
        List.map_nil, List.cons_append, List.nil_append, List.append_assoc, ending]
    · exact List.mem_append_right _ List.mem_cons_self

/-- A repository that owns its session and runs has only used it. -/
theorem serving_cases (own : r.source = .owned) {session : S}
    {accepted : List (StatementKind × Prepared)} {executed : List (Answered S)}
    (proper : (serving session accepted executed).Proper r) :
    ∃ during, (serving session accepted executed).occurrences r =
      .request (.connect (.ok session)) :: during ∧ ∀ o ∈ during, o.Uses session := by
  refine ⟨service r session accepted executed, ?_, fun o member =>
    uses_service proper.2.2 member⟩
  rw [occurrences, own]
  rfl

/-- What a source that lends its session leaves to ask: a close is not made. -/
theorem closing_eq_none {session : S} {closing : Option (Except SessionError Unit)}
    (source : r.source = .borrowed session) (closed : closing.isSome = r.source.isOwned) :
    closing = none := by
  rw [source] at closed
  exact Option.not_isSome_iff_eq_none.mp (Bool.eq_false_iff.mp closed)

/-- A repository that borrows its session only uses it. -/
theorem borrowed_uses {session : S} (source : r.source = .borrowed session)
    (proper : t.Proper r) {q : Request S} (member : .request q ∈ t.occurrences r) :
    q.Uses session := by
  cases t with
  | unreachable cause => cases source.symm.trans proper
  | refused other accepted kind cause closing =>
    obtain ⟨yields, -, closed⟩ := proper
    obtain rfl := closing_eq_none source closed
    rw [source] at yields
    obtain rfl : other = session := yields
    simp only [occurrences, source, Source.obtaining, closings, Option.toList, List.map_nil,
      List.nil_append] at member
    rcases List.mem_append.mp member with request | ending
    · obtain ⟨q', asked, requestEq⟩ := List.mem_map.mp request
      obtain rfl := Occurrence.request.inj requestEq
      rcases List.mem_append.mp asked with prepared | refused
      · exact uses_preparing prepared
      · rw [List.mem_singleton.mp refused]
        exact rfl
    · cases List.mem_singleton.mp ending
  | serving other accepted executed =>
    obtain ⟨yields, -, executions⟩ := proper
    rw [source] at yields
    obtain rfl : other = session := yields
    simp only [occurrences, source, Source.obtaining, List.map_nil, List.nil_append] at member
    exact uses_service executions member
  | served other accepted executed closing =>
    obtain ⟨yields, -, executions, closed⟩ := proper
    obtain rfl := closing_eq_none source closed
    rw [source] at yields
    obtain rfl : other = session := yields
    simp only [occurrences, source, Source.obtaining, closings, Option.toList, List.map_nil,
      List.nil_append, List.append_nil] at member
    rcases List.mem_append.mp member with used | ending
    · exact uses_service executions used
    · cases List.mem_singleton.mp ending

end Tenure

/-! ### Blocks -/

/-- A connection and what follows it up to the next. -/
def Opens (block : List (Occurrence S)) : Prop :=
  ∃ answer body, block = .request (.connect answer) :: body ∧ ∀ o ∈ body, ¬ o.Connects

theorem Settles.not_connects {session : S} {block : List (Occurrence S)}
    (settles : Settles session block) : ∀ o ∈ block, ¬ o.Connects := by
  obtain ⟨during, answer, ending, rfl, uses, ends⟩ := settles
  intro o member
  rcases List.mem_append.mp member with used | last
  · exact (uses o used).not_connects
  · rcases List.mem_cons.mp last with rfl | last
    · exact id
    · rw [List.mem_singleton.mp last]
      cases ending with
      | request q => exact ends.elim
      | started failure => exact id
      | stopped failure => exact id

theorem Tenure.opens {r : Repository S α} {t : Tenure S} (own : r.source = .owned)
    (proper : t.Proper r) : Opens (t.occurrences r) := by
  by_cases ended : t.Over
  · rcases owned_cases own proper ended with ⟨cause, closed⟩ | ⟨session, block, serves, settles⟩
    · refine ⟨_, _, closed, fun o member => ?_⟩
      rw [List.mem_singleton.mp member]
      exact id
    · exact ⟨_, _, serves, settles.not_connects⟩
  · cases t with
    | serving session accepted executed =>
      obtain ⟨during, all, uses⟩ := serving_cases own proper
      exact ⟨_, _, all, fun o member => (uses o member).not_connects⟩
    | unreachable cause => exact absurd trivial ended
    | refused session accepted kind cause closing => exact absurd trivial ended
    | served session accepted executed closing => exact absurd trivial ended

/-- A log of blocks goes on with a connection wherever a block ends. -/
theorem connects_head {blocks : List (List (Occurrence S))} (opens : ∀ b ∈ blocks, Opens b) :
    ∀ o ∈ blocks.flatten.head?, o.Connects := by
  cases blocks with
  | nil => exact fun o absent => by cases absent
  | cons b rest =>
    obtain ⟨answer, body, rfl, -⟩ := opens b List.mem_cons_self
    intro o head
    cases head
    trivial

/-- Every connection in a log of blocks is the head of one. -/
theorem block_of_connection {blocks : List (List (Occurrence S))} (opens : ∀ b ∈ blocks, Opens b)
    {before after : List (Occurrence S)} {answer : Except SessionError S}
    (log : blocks.flatten = before ++ .request (.connect answer) :: after) :
    ∃ front body rest, blocks = front ++ (.request (.connect answer) :: body) :: rest ∧
      after = body ++ rest.flatten := by
  induction blocks generalizing before with
  | nil => simp at log
  | cons b rest ih =>
    obtain ⟨answer', body, rfl, quiet⟩ := opens b List.mem_cons_self
    rw [List.flatten_cons, List.cons_append] at log
    cases before with
    | nil =>
      obtain ⟨requestEq, rfl⟩ := List.cons.inj log
      cases requestEq
      exact ⟨[], body, rest, rfl, rfl⟩
    | cons o before =>
      have later := (List.cons.inj log).2
      -- the connection is not in the first block, so it is in the others
      rcases List.append_eq_append_iff.mp later with ⟨skipped, -, others⟩ | ⟨within, split, first⟩
      · obtain ⟨front, body', rest', rfl, afterEq⟩ :=
          ih (fun b member => opens b (List.mem_cons_of_mem _ member)) others
        exact ⟨_ :: front, body', rest', rfl, afterEq⟩
      · cases within with
        | nil =>
          have others : rest.flatten = [] ++ .request (.connect answer) :: after := first.symm
          obtain ⟨front, body', rest', rfl, afterEq⟩ :=
            ih (fun b member => opens b (List.mem_cons_of_mem _ member)) others
          exact ⟨_ :: front, body', rest', rfl, afterEq⟩
        | cons o' within =>
          obtain rfl := (List.cons.inj first).1
          have inside : Occurrence.request (.connect answer) ∈ body := by
            rw [split]
            exact List.mem_append_right _ List.mem_cons_self
          exact absurd trivial (quiet _ inside)

namespace Career

variable {r : Repository S α} {c : Career σ S α}

/-- Every connection in a log of tenures is the head of one. -/
theorem tenure_of_connection (own : r.source = .owned) {tenures : List (Tenure S)}
    (proper : ∀ t ∈ tenures, t.Proper r) {before after : List (Occurrence S)}
    {answer : Except SessionError S}
    (log : tenures.flatMap (Tenure.occurrences r) =
      before ++ .request (.connect answer) :: after) :
    ∃ earlier t later body, tenures = earlier ++ t :: later ∧
      t.occurrences r = .request (.connect answer) :: body ∧
      after = body ++ later.flatMap (Tenure.occurrences r) ∧
      ∀ o ∈ (later.flatMap (Tenure.occurrences r)).head?, o.Connects := by
  have opens : ∀ b ∈ tenures.map (Tenure.occurrences r), Opens b := by
    intro b member
    obtain ⟨t, own', rfl⟩ := List.mem_map.mp member
    exact Tenure.opens own (proper t own')
  rw [List.flatMap_def] at log
  obtain ⟨front, body, rest, split, afterEq⟩ := block_of_connection opens log
  obtain ⟨earlier, others, rfl, -, block⟩ := List.map_eq_append_iff.mp split
  obtain ⟨t, later, rfl, occurrences, rfl⟩ := List.map_eq_cons_iff.mp block
  refine ⟨earlier, t, later, body, rfl, occurrences, ?_, ?_⟩
  · rw [List.flatMap_def]
    exact afterEq
  · rw [List.flatMap_def]
    refine connects_head fun b member => opens b ?_
    rw [List.map_append, List.map_cons]
    exact List.mem_append_right _ (List.mem_cons_of_mem _ member)

/-- A session that was obtained in a tenure that is over was given up in it. -/
theorem settles_of_over (own : r.source = .owned) {t : Tenure S} (proper : t.Proper r)
    (ended : t.Over) {session : S} {body : List (Occurrence S)}
    (obtained : t.occurrences r = .request (.connect (.ok session)) :: body) :
    Settles session body := by
  rcases Tenure.owned_cases own proper ended with
    ⟨cause, failed⟩ | ⟨session', block, connected, settles⟩
  · cases failed.symm.trans obtained
  · cases connected.symm.trans obtained
    exact settles

theorem Orderly.obtained (orderly : c.Orderly r) (own : r.source = .owned)
    {before after : List (Occurrence S)} {session : S}
    (log : c.log = before ++ .request (.connect (.ok session)) :: after) :
    (c.phase.session? = some session ∧ ∀ o ∈ after, o.Uses session) ∨
    ∃ block later, after = block ++ later ∧ Settles session block ∧
      ∀ o ∈ later.head?, o.Connects := by
  cases orderly with
  | stopped w past settled | gone w past settled =>
    obtain ⟨earlier, t, later, body, rfl, occurrences, afterEq, next⟩ :=
      tenure_of_connection own (fun t member => (settled t member).1) log
    obtain ⟨proper, ended⟩ := settled t (List.mem_append_right _ List.mem_cons_self)
    exact .inr ⟨body, _, afterEq, settles_of_over own proper ended occurrences, next⟩
  | running w past settled running own' tasks asks accepted executed proper =>
    let present := Tenure.serving running.session accepted executed
    have propers : ∀ t ∈ past ++ [present], t.Proper r := by
      intro t member
      rcases List.mem_append.mp member with old | new
      · exact (settled t old).1
      · rw [List.mem_singleton.mp new]
        exact proper
    obtain ⟨earlier, t, later, body, split, occurrences, afterEq, next⟩ :=
      tenure_of_connection own propers ((flatMap_append_one past present).trans log)
    rcases List.eq_nil_or_concat later with rfl | ⟨between, last, rfl⟩
    · -- the connection of the present tenure
      obtain ⟨rfl, here⟩ := List.append_inj' split rfl
      obtain rfl := (List.cons.inj here).1
      obtain ⟨during, all, uses⟩ := Tenure.serving_cases own proper
      cases all.symm.trans occurrences
      rw [List.flatMap_nil, List.append_nil] at afterEq
      exact .inl ⟨rfl, afterEq ▸ uses⟩
    · have old : t ∈ past := by
        rw [List.concat_eq_append, ← List.cons_append, ← List.append_assoc] at split
        rw [(List.append_inj' split rfl).1]
        exact List.mem_append_right _ List.mem_cons_self
      obtain ⟨proper', ended⟩ := settled t old
      exact .inr ⟨body, _, afterEq, settles_of_over own proper' ended occurrences, next⟩

/-- What is used is neither obtained nor closed. -/
theorem countP_uses {during : List (Occurrence S)} {session : S}
    (uses : ∀ o ∈ during, o.Uses session) (which : S → Bool) :
    during.countP (·.obtains which) = 0 ∧ during.countP (·.closes which) = 0 :=
  ⟨List.countP_eq_zero.mpr fun o member => (uses o member).not_obtains which,
    List.countP_eq_zero.mpr fun o member => (uses o member).not_closes which⟩

/-- A tenure that is over has obtained and closed alike. -/
theorem balanced_of_over (own : r.source = .owned) {t : Tenure S} (proper : t.Proper r)
    (ended : t.Over) (which : S → Bool) :
    (t.occurrences r).countP (·.obtains which) = (t.occurrences r).countP (·.closes which) := by
  rcases Tenure.owned_cases own proper ended with
    ⟨cause, occurrences⟩ | ⟨session, block, occurrences, during, answer, ending, rfl, uses, ends⟩
  · rw [occurrences]
    rfl
  · obtain ⟨obtains, closes⟩ := countP_uses uses which
    have last : ending.obtains which = false ∧ ending.closes which = false := by
      cases ending with
      | request q => exact ends.elim
      | started failure => exact ⟨rfl, rfl⟩
      | stopped failure => exact ⟨rfl, rfl⟩
    cases chosen : which session <;>
      simp [occurrences, List.countP_append, obtains, closes, last, chosen]

theorem Orderly.balanced (orderly : c.Orderly r) (own : r.source = .owned) (which : S → Bool) :
    c.log.countP (·.obtains which) =
      c.log.countP (·.closes which) + c.phase.session?.toList.countP which := by
  have ended {past : List (Tenure S)} (settled : ∀ t ∈ past, t.Proper r ∧ t.Over) :
      (past.flatMap (Tenure.occurrences r)).countP (·.obtains which) =
        (past.flatMap (Tenure.occurrences r)).countP (·.closes which) := by
    rw [List.countP_flatMap, List.countP_flatMap]
    exact congrArg List.sum (List.map_congr_left fun t member =>
      balanced_of_over own (settled t member).1 (settled t member).2 which)
  cases orderly with
  | stopped w past settled | gone w past settled => exact ended settled
  | running w past settled running own' tasks asks accepted executed proper =>
    obtain ⟨during, all, uses⟩ := Tenure.serving_cases own proper
    obtain ⟨obtains, closes⟩ := countP_uses uses which
    cases chosen : which running.session <;>
      simp [Phase.session?, ended settled, all, obtains, closes, chosen]

theorem Orderly.borrowed (orderly : c.Orderly r) {session : S}
    (source : r.source = .borrowed session) {q : Request S} (member : .request q ∈ c.log) :
    q.Uses session := by
  have ended {past : List (Tenure S)} (settled : ∀ t ∈ past, t.Proper r ∧ t.Over)
      (member : .request q ∈ past.flatMap (Tenure.occurrences r)) : q.Uses session := by
    obtain ⟨t, old, own⟩ := List.mem_flatMap.mp member
    exact Tenure.borrowed_uses source (settled t old).1 own
  cases orderly with
  | stopped w past settled | gone w past settled => exact ended settled member
  | running w past settled running own' tasks asks accepted executed proper =>
    rcases List.mem_append.mp member with old | present
    · exact ended settled old
    · exact Tenure.borrowed_uses source proper present

theorem Orderly.owns (orderly : c.Orderly r) : c.Owns r where
  orderly := orderly
  obtained := fun own _ _ _ => orderly.obtained own
  balanced := fun own => orderly.balanced own
  borrowed := fun _ source _ => orderly.borrowed source

end Career

/-- Whatever the connector and its sessions answer, and however often a repository is started,
called, stopped and made anew: a session that it owns is closed once for each connection that
yielded it, by the start that fails after it or else by the stop, and a session that it borrows is
never closed.  A start fails exactly if a request of its own fails, and prepares nothing after that;
a stop fails exactly if it has a session to close and that fails. -/
theorem session_ownership (h : Host σ S) (r : Repository S α) (w : σ) (deeds : List (Deed σ α)) :
    ((Career.fresh r w).run h r deeds).Owns r ∧ (∀ w, r.StartsOrderly h w) ∧
      ∀ (running : Running S α) (w : σ), (∃ e, (running.stop.run h w).1 = .error e) ↔
        running.repository.source = .owned ∧
          ∃ cause, (h.close running.session w).1 = .error cause := by
  have fresh : (Career.fresh (σ := σ) r w).Orderly r :=
    Career.Orderly.stopped w [] fun _ member => absurd member List.not_mem_nil
  exact ⟨(fresh.run deeds).owns, r.startsOrderly h, fun running => running.stop_fails_iff h⟩

/-! ### One session, twice -/

/-- A repository that obtains its sessions. -/
def obtainer : Repository Unit Unit where
  schema := ⟨{ table := Repository.resultsTable, fixedPrefix := Repository.tenantPrefix "a" }, rfl⟩
  codec := ⟨fun _ => "e", fun _ _ => .ok .empty, fun _ _ => .ok ()⟩
  source := .owned

/-- A connector that has only one session, which refuses the fourth statement and no other. -/
def stubborn : Host Nat Unit where
  connect n := (.ok (), n)
  prepare _ t n := (if n = 3 then .error .closed else .ok ⟨t, ""⟩, n + 1)
  execute _ _ n := (.ok .empty, n)
  close _ n := (.ok (), n)
  record _ n := n

/-- Whether the session was obtained or closed, whenever one of these happened. -/
def Occurrence.turn (o : Occurrence Unit) : Option Bool :=
  if o.obtains fun _ => true then some true
  else if o.closes fun _ => true then some false else none

/-- It is closed by the start that fails, and again by the stop after the next start. -/
example : ((Career.fresh obtainer 0).run stubborn obtainer
      [.start, .renew, .start, .call .scan, .stop, .step 0, .step 0, .stop]).log.filterMap
        Occurrence.turn = [true, false, true, false] :=
  rfl

end GroupStore

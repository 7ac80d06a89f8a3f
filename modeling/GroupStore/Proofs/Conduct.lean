import GroupStore.Proofs.Building
import GroupStore.Proofs.Files
import GroupStore.Proofs.Output
import GroupStore.Proofs.Reports
import GroupStore.Proofs.Startup

/-!
# What a command does

A command loads a configuration, builds the repository that it describes and starts it.  Once it
has started it, it makes one call and then one stop, whether the call succeeds or not.  Closing the
session and reporting the stop leave everything that is stored, so the stores are those that the
call leaves.  The first failure is the one that is reported.

* `World.SameStores`, `Running.stop_sameStores` — a stop leaves what is stored;
* `Command.Opens` — a command comes to the repository of its configuration;
* `Command.Serves` — what a command does with a repository that it has started;
* `Command.conducted` — every command does so, and succeeds if all its steps do.
-/

namespace GroupStore

variable {α : Type}

/-! ### What a stop leaves -/

namespace World

/-- The same is stored: the same databases in files and in sessions, and the same tables in memory
sessions. -/
structure SameStores (w v : World) : Prop where
  files : ∀ place db, v.files.at? place = some (.database db) ↔
    w.files.at? place = some (.database db)
  homes : v.databases.map DatabaseLink.home = w.databases.map DatabaseLink.home
  tables : (v.memories.map fun link => link.store.tables) =
    w.memories.map fun link => link.store.tables

theorem SameStores.refl (w : World) : w.SameStores w := ⟨fun _ _ => Iff.rfl, rfl, rfl⟩

theorem SameStores.trans {w v u : World} (first : w.SameStores v) (second : v.SameStores u) :
    w.SameStores u where
  files place db := (second.files place db).trans (first.files place db)
  homes := second.homes.trans first.homes
  tables := second.tables.trans first.tables

/-- Replacing an entry by one that looks the same does not change how the entries look. -/
theorem map_set_of_same {β : Type} {f : α → β} {l : List α} {i : Nat} {a b : α}
    (atIndex : l[i]? = some a) (imageEq : f b = f a) : (l.set i b).map f = l.map f := by
  obtain ⟨inside, rfl⟩ := List.getElem?_eq_some_iff.mp atIndex
  rw [List.map_set, imageEq, ← List.getElem_map f (h := by simpa using inside),
    List.set_getElem_self]

/-- Closing a session leaves what is stored. -/
theorem close_sameStores (session : Handle) (w : World) : w.SameStores (close session w).2 := by
  induction session with
  | memory i =>
    unfold close
    split
    · exact .refl w
    · rename_i link linked
      exact ⟨fun _ _ => Iff.rfl, rfl, map_set_of_same linked rfl⟩
  | sqlite i =>
    unfold close
    split
    · exact .refl w
    · rename_i link linked
      exact ⟨fun _ _ => Iff.rfl, map_set_of_same linked rfl, rfl⟩
  | faulty i inner ih =>
    unfold close
    split
    · exact .refl w
    · dsimp only
      split <;> exact ih

/-- A report leaves what is stored. -/
theorem record_sameStores (sink : Audit.Sink) (e : Audit.Event) (w : World) :
    w.SameStores (record sink e w) := by
  cases sink with
  | none => exact .refl w
  | errorOutput => exact ⟨fun _ _ => Iff.rfl, rfl, rfl⟩
  | file log => exact ⟨w.files.append_database_iff log _, rfl, rfl⟩
  | recorder number => exact ⟨fun _ _ => Iff.rfl, rfl, rfl⟩

end World

/-- A stop leaves what is stored. -/
theorem Running.stop_sameStores (r : Running Handle α) (depth : Nat) (ties : Ties) (w : World) :
    w.SameStores (r.stop.run (World.hostAt depth ties) w).2 := by
  obtain ⟨v, closed, -, left⟩ := r.stop_reports (World.hostAt depth ties) w
  have kept : w.SameStores v := by
    rcases closed with rfl | rfl
    · exact .refl v
    · cases depth <;> exact World.close_sameStores r.session w
  rw [left]
  cases depth <;> exact kept.trans (World.record_sameStores ties.sink _ v)

/-! ### Events and requests to be counted -/

/-- Whether an event is the report of a stop. -/
def Audit.Event.isStop : Audit.Event → Bool
  | .call _ .stop .. => true
  | _ => false

/-- Whether a request closes a session. -/
def Request.isClose {S : Type} : Request S → Bool
  | .close .. => true
  | _ => false

section Counts

variable {S σ : Type}

theorem Repository.isStop_report {β : Type} (r : Repository S α) (operation : Audit.Operation)
    (key id : Option String) (onOk : β → Audit.Outcome × Option String)
    (result : Except RepositoryError β) :
    (r.report operation key id onOk result).isStop = decide (operation = .stop) := by
  cases result <;> cases operation <;> rfl

/-- A start reports no stop. -/
theorem Repository.countP_isStop_start (r : Repository S α) (h : Host σ S) (w : σ) :
    (r.start.events h w).countP Audit.Event.isStop = 0 := by
  obtain ⟨statements, events⟩ := r.start_events h w
  have own : (r.report .start none none Repository.plainly (r.start.run h w).1).isStop = false :=
    r.isStop_report ..
  rw [events, List.countP_eq_zero]
  intro event member
  rcases List.mem_append.mp member with statement | report
  · obtain ⟨p, -, rfl⟩ := List.mem_map.mp statement
    exact Bool.false_ne_true
  · rw [List.mem_singleton.mp report, own]
    exact Bool.false_ne_true

/-- A call reports no stop. -/
theorem Running.countP_isStop_perform (r : Running S α) (call : Call α) (h : Host σ S) (w : σ) :
    ((r.perform call).events h w).countP Audit.Event.isStop = 0 := by
  have own (result : Except RepositoryError (Reply α)) :
      (r.reportOf call result).isStop = false := by
    cases call <;> exact r.repository.isStop_report ..
  rw [Running.perform_events, List.countP_singleton, own]
  rfl

/-- A call closes no session. -/
theorem Running.countP_isClose_perform (r : Running S α) (call : Call α) (h : Host σ S) (w : σ) :
    ((r.perform call).trace h w).countP Request.isClose = 0 := by
  rw [List.countP_eq_zero]
  intro q member
  obtain ⟨e, rfl, -⟩ := (r.perform_session call).trace h w q member
  exact Bool.false_ne_true

/-- A start that succeeds closes no session. -/
theorem Repository.countP_isClose_start {r : Repository S α} {h : Host σ S} {w w' : σ}
    {running : Running S α} (started : r.start.run h w = (.ok running, w')) :
    (r.start.trace h w).countP Request.isClose = 0 := by
  have ok : (r.start.run h w).1 = .ok running := congrArg Prod.fst started
  rcases start_cases r h w with
    ⟨cause, -, -, failed⟩ | ⟨session, accepted, kind, cause, closing, -, -, -, -, failed⟩ |
    ⟨session, accepted, statements, -, -, trace, -⟩
  · cases failed.symm.trans ok
  · cases failed.symm.trans ok
  · rw [trace, List.countP_append, List.countP_eq_zero.mpr, List.countP_eq_zero.mpr]
    · intro q member
      obtain ⟨statement, -, rfl⟩ := List.mem_map.mp member
      exact Bool.false_ne_true
    · intro q member
      cases source : r.source with
      | borrowed own =>
        rw [source] at member
        cases member
      | owned =>
        rw [source] at member
        rw [List.mem_singleton.mp member]
        exact Bool.false_ne_true

/-- The stop of a repository that owns its session closes one. -/
theorem Running.countP_isClose_stop {r : Running S α} (own : r.repository.source = .owned)
    (h : Host σ S) (w : σ) : (r.stop.trace h w).countP Request.isClose = 1 := by
  obtain ⟨closing, made, trace, -⟩ := r.stop_cases h w
  rw [own] at made
  obtain ⟨answer, rfl⟩ := Option.isSome_iff_exists.mp made
  rw [trace]
  rfl

/-- A stop is reported once. -/
theorem Running.countP_isStop_stop (r : Running S α) (h : Host σ S) (w : σ) :
    (r.stop.events h w).countP Audit.Event.isStop = 1 := by
  obtain ⟨-, -, events, -⟩ := r.stop_reports h w
  have own : (r.repository.report .stop none none Repository.plainly (r.stop.run h w).1).isStop =
      true := r.repository.isStop_report ..
  rw [events, List.countP_singleton, own]
  rfl

end Counts

namespace Command

open Json (OneLine)

/-! ### The repository of a configuration -/

/-- The repository that a configuration describes owns its session and has the codec. -/
theorem build_ok {c : Config} {codec : Codec Exchange} {registry : Registry} {files files' : Files}
    {a : Assembly} (built : c.build codec registry files = (.ok a, files')) :
    a.repository.source = .owned ∧ a.repository.codec = codec := by
  cases accepted : c.validate registry files with
  | error e => cases (Config.build_of_refused accepted).symm.trans built
  | ok =>
    obtain ⟨⟨schema, described⟩, ⟨connector, made⟩, -⟩ := Config.validate_eq_ok_iff.mp accepted
    have whole := (Config.build_of_accepted accepted described made).symm.trans built
    obtain ⟨sink, -, rfl⟩ := map_eq_ok_iff.mp (congrArg Prod.fst whole)
    exact ⟨rfl, rfl⟩

/-- A command comes to the repository of its configuration, in a world where it has been built. -/
def Opens (c : Command) (environment : Option String) (w : World) (a : Assembly) (opened : World) :
    Prop :=
  ∃ config files, Config.load c.config environment w.files = .ok config ∧
    config.build codec .standard w.files = (.ok a, files) ∧ opened = { w with files }

/-- The answers of a world to the repository of an assembly. -/
def answers (a : Assembly) (opened : World) : Host World Handle :=
  World.hostAt opened.pendingCount ⟨a.connector, .system, a.sink⟩

/-- A repository that a command has started. -/
structure Started (c : Command) (environment : Option String) (w : World) where
  /-- What its configuration describes. -/
  assembly : Assembly
  /-- The world in which that is built. -/
  opened : World
  /-- The repository as its start yields it. -/
  running : Running Handle Exchange
  /-- The world after the start. -/
  world : World
  opens : c.Opens environment w assembly opened
  starts : assembly.repository.start.run (answers assembly opened) opened = (.ok running, world)

namespace Started

variable {c : Command} {environment : Option String} {w : World} (s : c.Started environment w)

/-- The answers that the repository gets. -/
def host : Host World Handle := answers s.assembly s.opened

/-- The result of a call and the world after it. -/
def called (call : Call Exchange) : Except RepositoryError (Reply Exchange) × World :=
  (s.running.perform call).run s.host s.world

/-- The result of a stop after a call and the world after it. -/
def stopped (call : Call Exchange) :
    Except RepositoryError (Repository Handle Exchange) × World :=
  s.running.stop.run s.host (s.called call).2

/-- Why a stop after a call fails, if it does. -/
def stopCause? (call : Call Exchange) : Option RepositoryError :=
  match (s.stopped call).1 with
  | .ok _ => none
  | .error e => some e

/-- The command from its start on. -/
def program (out : Output) : Program Handle Report := session out s.assembly.repository c.action

/-- What a command does with a repository that it has started: it makes its call and then one stop,
and reports the first failure. -/
structure Serves (out : Output) (task : Task) : Prop where
  run : c.run out environment w = (s.program out).run s.host s.opened
  /-- What is requested is requested by the start, by the call and by a stop after it. -/
  requests : (s.program out).trace s.host s.opened =
    s.assembly.repository.start.trace s.host s.opened ++
      ((s.running.perform task.call).trace s.host s.world ++
        s.running.stop.trace s.host (s.called task.call).2)
  /-- What is reported is reported by these. -/
  events : (s.program out).events s.host s.opened =
    s.assembly.repository.start.events s.host s.opened ++
      ((s.running.perform task.call).events s.host s.world ++
        s.running.stop.events s.host (s.called task.call).2)
  /-- One session is closed. -/
  closes : ((s.program out).trace s.host s.opened).countP Request.isClose = 1
  /-- One stop is reported. -/
  stops : ((s.program out).events s.host s.opened).countP Audit.Event.isStop = 1
  /-- The world is the one after the stop. -/
  world : (c.run out environment w).2 = (s.stopped task.call).2
  /-- What is stored is what the call leaves. -/
  stores : (s.called task.call).2.SameStores (c.run out environment w).2
  /-- A call that fails prints nothing, and its failure is reported however the stop ends. -/
  failed : ∀ e, (s.called task.call).1 = .error e →
    (c.run out environment w).1 = ⟨[], some (task.failure e)⟩
  /-- The lines of a call that succeeds are printed as far as the output takes them. -/
  printed : ∀ reply, (s.called task.call).1 = .ok reply →
    ∃ refusal, out.Takes (task.lines reply) (c.run out environment w).1.lines refusal ∧
      (c.run out environment w).1.failure =
        (refusal.map .output).or ((s.stopCause? task.call).map .stop)
  /-- These lines have no line end inside and read back to the reply. -/
  reads : ∀ reply, (s.called task.call).1 = .ok reply →
    (∀ line ∈ task.lines reply, OneLine line) ∧ Reads (task.lines reply) c.action reply
  /-- A get finds a result exactly if a row is returned. -/
  found : ∀ key value, c.action = .get key → (s.called task.call).1 = .ok (.found value) →
    ∃ bound rows, (s.running.perform task.call).trace s.host s.world =
      [.execute ⟨s.running.session, bound, .ok rows⟩] ∧ (value.isSome ↔ rows.rows ≠ [])

end Started

/-- The conduct of a command with a task. -/
structure Conduct (c : Command) (task : Task) (out : Output) (environment : Option String)
    (w : World) : Prop where
  /-- Without a configuration nothing is done. -/
  unloaded : ∀ e, Config.load c.config environment w.files = .error e →
    c.run out environment w = (⟨[], some (.load e)⟩, w)
  /-- Without a repository nothing is started. -/
  unbuilt : ∀ config e files, Config.load c.config environment w.files = .ok config →
    config.build codec .standard w.files = (.error e, files) →
    c.run out environment w = (⟨[], some (.build e)⟩, { w with files })
  /-- After a start that fails nothing is called and nothing is stopped. -/
  unstarted : ∀ a opened e w', c.Opens environment w a opened →
    a.repository.start.run (answers a opened) opened = (.error e, w') →
    c.run out environment w = (⟨[], some (.start e)⟩, w')
  /-- After a start that succeeds come the call and one stop. -/
  serves : ∀ s : c.Started environment w, s.Serves out task
  /-- A command succeeds exactly if it comes to its configuration and repository, starts it, and the
  call, the printing of its reply and the stop succeed. -/
  succeeds : (c.run out environment w).1.exitCode = 0 ↔
    ∃ s : c.Started environment w, ∃ reply, (s.called task.call).1 = .ok reply ∧
      out.TakesAll (task.lines reply) ∧ ∃ r, (s.stopped task.call).1 = .ok r

/-! ### Every command -/

variable {c : Command} {environment : Option String} {w : World}

theorem run_of_load {task : Task} (asks : c.action.task? = some task) {config : Config}
    (loaded : Config.load c.config environment w.files = .ok config) (out : Output) :
    c.run out environment w = runConfigured out config c.action w := by
  unfold run
  rw [loaded]
  cases action : c.action with
  | validate =>
    rw [action] at asks
    cases asks
  | _ => rfl

/-- A command that comes to a repository is its session with it. -/
theorem run_of_opens {task : Task} (asks : c.action.task? = some task) {a : Assembly}
    {opened : World}
    (opens : c.Opens environment w a opened) (out : Output) :
    c.run out environment w =
      (session out a.repository c.action).run (answers a opened) opened := by
  obtain ⟨config, files, loaded, built, rfl⟩ := opens
  rw [run_of_load asks loaded, runConfigured, built]
  rfl

theorem run_of_start_error {task : Task} (asks : c.action.task? = some task) {a : Assembly}
    {opened w' : World} {e : RepositoryError} (opens : c.Opens environment w a opened)
    (failed : a.repository.start.run (answers a opened) opened = (.error e, w')) (out : Output) :
    c.run out environment w = (⟨[], some (.start e)⟩, w') := by
  rw [run_of_opens asks opens, session, Program.run_bind, failed]
  rfl

namespace Started

variable (s : c.Started environment w)

theorem owned : s.running.repository.source = .owned ∧ s.running.repository.codec = codec := by
  obtain ⟨config, files, -, built, -⟩ := s.opens
  obtain ⟨session, w₁, statements, w₂, -, -, isRunning, -⟩ := Repository.start_eq_ok s.starts
  rw [isRunning]
  exact build_ok built

/-- What the command does after its start. -/
def rest (out : Output) : Program Handle Report :=
  (perform s.running c.action).bind fun outcome => s.running.stop.bind fun
    | .ok _ => .done (report out outcome none)
    | .error e => .done (report out outcome (some e))

/-- The outcome of the command's call. -/
def outcome (task : Task) : Outcome := ((s.called task.call).1.map task.lines).mapError task.failure

variable {task : Task}

section Task

variable (asks : c.action.task? = some task)
include asks

theorem perform_run : (perform s.running c.action).run s.host s.world =
    (s.outcome task, (s.called task.call).2) := by
  rw [perform_eq s.running asks, Program.run_map]
  rfl

/-- The command ends with a report of the outcome of its call and of the stop. -/
theorem program_run (out : Output) : (s.program out).run s.host s.opened =
    (report out (s.outcome task) (s.stopCause? task.call), (s.stopped task.call).2) := by
  -- the start, then the call with its outcome, then the stop whatever the outcome is
  have started : (s.program out).run s.host s.opened = (s.rest out).run s.host s.world := by
    rw [program, session, Program.run_bind, host, s.starts]
    rfl
  have stopped : (s.rest out).run s.host s.world = Program.run s.host
      (match (s.stopped task.call).1 with
        | .ok _ => .done (report out (s.outcome task) none)
        | .error e => .done (report out (s.outcome task) (some e)))
      (s.stopped task.call).2 := by
    rw [rest, Program.run_bind, s.perform_run asks, Program.run_bind]
    rfl
  rw [started, stopped, stopCause?]
  cases (s.stopped task.call).1 <;> rfl

theorem run_eq (out : Output) : c.run out environment w =
    (report out (s.outcome task) (s.stopCause? task.call), (s.stopped task.call).2) :=
  (run_of_opens asks s.opens out).trans (s.program_run asks out)

theorem program_trace (out : Output) : (s.program out).trace s.host s.opened =
    s.assembly.repository.start.trace s.host s.opened ++
      ((s.running.perform task.call).trace s.host s.world ++
        s.running.stop.trace s.host (s.called task.call).2) := by
  have started : (s.program out).trace s.host s.opened =
      s.assembly.repository.start.trace s.host s.opened ++ (s.rest out).trace s.host s.world := by
    rw [program, session, Program.trace_bind, host, s.starts]
    rfl
  rw [started, rest, Program.trace_bind, s.perform_run asks, perform_eq s.running asks,
    Program.trace_map, Program.trace_bind]
  congr 2
  cases (s.running.stop.run s.host (s.called task.call).2).1 <;> exact List.append_nil _

theorem program_events (out : Output) : (s.program out).events s.host s.opened =
    s.assembly.repository.start.events s.host s.opened ++
      ((s.running.perform task.call).events s.host s.world ++
        s.running.stop.events s.host (s.called task.call).2) := by
  have started : (s.program out).events s.host s.opened =
      s.assembly.repository.start.events s.host s.opened ++ (s.rest out).events s.host s.world := by
    rw [program, session, Program.events_bind, host, s.starts]
    rfl
  rw [started, rest, Program.events_bind, s.perform_run asks, perform_eq s.running asks,
    Program.events_map, Program.events_bind]
  congr 2
  cases (s.running.stop.run s.host (s.called task.call).2).1 <;> exact List.append_nil _

theorem serves (out : Output) : s.Serves out task where
  run := run_of_opens asks s.opens out
  requests := s.program_trace asks out
  events := s.program_events asks out
  closes := by
    have started : (s.assembly.repository.start.trace s.host s.opened).countP Request.isClose = 0 :=
      Repository.countP_isClose_start s.starts
    rw [s.program_trace asks out, List.countP_append, List.countP_append, started,
      Running.countP_isClose_perform, Running.countP_isClose_stop s.owned.1]
  stops := by
    rw [s.program_events asks out, List.countP_append, List.countP_append,
      Repository.countP_isStop_start, Running.countP_isStop_perform, Running.countP_isStop_stop]
  world := by rw [s.run_eq asks]
  stores := by
    rw [s.run_eq asks]
    exact s.running.stop_sameStores _ _ _
  failed e failure := by
    rw [s.run_eq asks, outcome, failure]
    rfl
  printed reply replied := by
    obtain ⟨refusal, takes, refused⟩ := print_takes out (Output.takesAll_nil out) (task.lines reply)
    refine ⟨refusal, ?_, ?_⟩
    · rw [s.run_eq asks, outcome, replied]
      exact takes
    · rw [s.run_eq asks, outcome, replied, ← refused]
      rfl
  reads reply replied :=
    ⟨oneLine_of_task asks reply, reads_of_perform s.owned.2 asks replied⟩
  found key value action replied := by
    rw [action] at asks
    cases asks
    obtain ⟨value', got, foundEq⟩ := Program.exists_of_mapOk replied
    cases foundEq
    obtain ⟨bound, rows, trace, read⟩ := s.running.get_rows got
    exact ⟨bound, rows, (Program.trace_map _ _ _ _).trans trace,
      Running.isSome_iff_of_readResult read⟩

/-- A command whose repository has been started fails unless the call, the printing of its reply and
the stop succeed. -/
theorem failure_eq_none_iff (out : Output) : (c.run out environment w).1.failure = none ↔
    ∃ reply, (s.called task.call).1 = .ok reply ∧ out.TakesAll (task.lines reply) ∧
      ∃ r, (s.stopped task.call).1 = .ok r := by
  have serves := s.serves asks out
  have stops : s.stopCause? task.call = none ↔ ∃ r, (s.stopped task.call).1 = .ok r := by
    unfold stopCause?
    cases (s.stopped task.call).1 <;> simp
  cases called : (s.called task.call).1 with
  | error e =>
    rw [serves.failed e called]
    simp
  | ok reply =>
    obtain ⟨refusal, takes, failure⟩ := serves.printed reply called
    rw [failure, Option.or_eq_none_iff, Option.map_eq_none_iff, Option.map_eq_none_iff,
      takes.refusal_eq_none_iff, stops]
    simp

end Task

end Started

theorem Report.exitCode_eq_zero_iff (r : Report) : r.exitCode = 0 ↔ r.failure = none := by
  obtain ⟨lines, failure⟩ := r
  cases failure <;> simp [exitCode]

/-- Every command loads its configuration, builds and starts its repository, makes its call, prints
the reply and stops the repository whatever came of the call; it fails with the first failure. -/
theorem stops_after_its_call (c : Command) {task : Task} (asks : c.action.task? = some task)
    (out : Output) (environment : Option String) (w : World) :
    c.Conduct task out environment w where
  unloaded e failed := by rw [run, failed]
  unbuilt config e files loaded failed := by rw [run_of_load asks loaded, runConfigured, failed]
  unstarted a opened e w' opens failed := run_of_start_error asks opens failed out
  serves s := s.serves asks out
  succeeds := by
    rw [Report.exitCode_eq_zero_iff]
    constructor
    · -- every stage that fails is reported, so a command without a failure has passed them all
      intro succeeds
      rcases loaded : Config.load c.config environment w.files with e | config
      · rw [run, loaded] at succeeds
        cases succeeds
      rcases built : config.build codec .standard w.files with ⟨e | a, files⟩
      · rw [run_of_load asks loaded, runConfigured, built] at succeeds
        cases succeeds
      have opens : c.Opens environment w a { w with files } := ⟨config, files, loaded, built, rfl⟩
      rcases started : a.repository.start.run (answers a _) { w with files } with ⟨e | running, w'⟩
      · rw [run_of_start_error asks opens started] at succeeds
        cases succeeds
      let s : c.Started environment w := ⟨a, _, running, w', opens, started⟩
      exact ⟨s, (s.failure_eq_none_iff asks out).mp succeeds⟩
    · rintro ⟨s, all⟩
      exact (s.failure_eq_none_iff asks out).mpr all

/-- A world with a configuration of a repository in memory. -/
def configuredWorld : World :=
  let text := "[repository]\ntable = \"t\"\n[session]\nbackend = \"memory\"\n"
  .fresh 0 0 (Files.fresh.put ["work", Config.defaultPath] (.bytes text.toUTF8))

/-- A get in this world, which finds nothing and succeeds. -/
theorem stops_after_its_call_get : ∃ task,
    (⟨.get "a", none⟩ : Command).action.task? = some task ∧
    (⟨.get "a", none⟩ : Command).Conduct task .reliable none configuredWorld ∧
    ((⟨.get "a", none⟩ : Command).run .reliable none configuredWorld).1.exitCode = 0 :=
  ⟨_, rfl, stops_after_its_call ⟨.get "a", none⟩ rfl .reliable none configuredWorld,
    by decide +kernel⟩

end Command

end GroupStore

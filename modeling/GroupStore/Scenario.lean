import GroupStore.Command
import GroupStore.Statement.Draft

/-!
# Scenarios: scripted use of sessions and repositories

A scenario is a world in which sessions, prepared statements and repositories have names, and a
step does one thing to it.  Steps open and wrap sessions, start and stop repositories and call
them, run single statements, look at what sessions store and at what was reported, and touch
files.

* `Scenario` — the state;
* `Scenario.Step` and `Scenario.Answer` — what can be done and what it gives back;
* `Scenario.step` — the transition.
-/

namespace GroupStore

/-! ### State -/

/-- A stopped repository with its ties. -/
structure Scenario.Stopped where
  repository : Repository Handle Exchange
  ties : Ties
  /-- How many sessions it has obtained. -/
  connections : Nat

/-- A started repository with its ties. -/
structure Scenario.Started where
  running : Running Handle Exchange
  ties : Ties
  /-- How many sessions it has obtained. -/
  connections : Nat

/-- A world with names. -/
structure Scenario where
  world : World
  sessions : List (String × Handle)
  statements : List (String × Prepared)
  stopped : List (String × Scenario.Stopped)
  started : List (String × Scenario.Started)
  /-- The number of the next recorder of events. -/
  nextRecorder : Nat

namespace Scenario

/-- A scenario in a world where nothing has a name. -/
def start (w : World) : Scenario := ⟨w, [], [], [], [], 0⟩

/-! ### Steps -/

/-- How a repository that owns its session obtains it. -/
inductive Supply where
  | memory
  | unreachable (text : String)
  /-- The session of a name, each time. -/
  | named (session : String)
  | sqlite (config : Sqlite.Config)

/-- One thing to do. -/
inductive Step where
  | advance (milliseconds : Nat)
  | setClock (reading : Nat)
  | openMemory (name : String)
  | openSqlite (name : String) (config : Sqlite.Config)
  /-- Put a session that injects faults before another one. -/
  | wrap (name inner : String) (fault : Fault)
  /-- Set acts to be done on a repository before a faulty session's next execution of a kind. -/
  | interrupt (session : String) (before : StatementKind) (repository : String) (acts : List Act)
  | borrow (name : String) (settings : Settings.Draft) (limit : Nat) (session : String)
  | own (name : String) (settings : Settings.Draft) (limit : Nat) (supply : Supply)
  | configure (name : String) (document : String) (limit : Nat)
  | start (repository : String)
  | stop (repository : String)
  | call (repository : String) (c : Call Exchange)
  | events (repository : String)
  | connections (repository : String)
  /-- Name the session of a started repository. -/
  | adopt (repository name : String)
  | prepare (session name : String) (draft : Template.Draft)
  | execute (session statement : String) (values : List Value)
  | rowCount (session table : String)
  | usage (session : String)
  | isClosed (session : String)
  | close (session : String)
  | purge (session : String)
  | schema (path : String)
  /-- Put a row into a table of a database file. -/
  | plant (path table : String) (row : List (String × Sqlite.Cell))
  | write (path : String) (content : ByteArray)
  | makeDirectory (path : String)
  | exists (path : String)
  | readLog (path : String)
  | load (path : Option String)
  | command (arguments : List String) (environment : Option String)

/-- What a step gives back. -/
inductive Answer where
  | done
  | reading (now : Nat)
  | number (n : Nat)
  | flag (b : Bool)
  | count (n : Nat)
  | opened (config : Sqlite.Config)
  | owns (b : Bool)
  | started (natives : List String) (table : String)
  /-- The result of a call; `unordered` says that scanned results come in no particular order. -/
  | called (c : Call Exchange) (result : Except RepositoryError (Reply Exchange))
      (unordered : Bool)
  /-- A failed start or stop, with the events since the last look. -/
  | failed (cause : RepositoryError) (events : List Audit.Event)
  | events (events : List Audit.Event)
  | log (lines : List Json)
  | texts (texts : List String)
  | native (text : String)
  /-- Returned rows; `unordered` says that they come in no particular order. -/
  | rows (rows : List Row) (unordered : Bool)
  | usage (entries : List (StatementKind × Consistency × Nat))
  | table (text : String)
  /-- The report of a command, with what it put on the error output. -/
  | report (r : Command.Report) (events : List Audit.Event)
  /-- The command line was not well formed. -/
  | misuse
  | settingsError (e : SettingsError)
  | sessionError (e : SessionError)
  | openError (e : Sqlite.OpenError)
  | repositoryError (e : RepositoryError)
  | configError (e : ConfigError)
  /-- The step ran into interruptions, which did these acts. -/
  | interrupted (acts : List (Act × ActReply)) (answer : Answer)
  /-- The step names something that is not there. -/
  | unknown

/-! ### Names -/

/-- The session of a name. -/
def session? (s : Scenario) (name : String) : Option Handle := Sorted.get? name s.sessions

/-- Name a session. -/
def nameSession (s : Scenario) (name : String) (h : Handle) : Scenario :=
  { s with sessions := Sorted.put name h s.sessions }

/-- Replace the world. -/
def inWorld (s : Scenario) (w : World) : Scenario := { s with world := w }

/-- Whether a session stands over a database. -/
def isOverDatabase : Handle → Bool
  | .memory _ => false
  | .sqlite _ => true
  | .faulty _ inner => isOverDatabase inner

/-- The events that a sink has recorded since the last look, first to last. -/
def takeEvents (w : World) : Audit.Sink → List Audit.Event × World
  | .recorder number =>
    ((w.recorded.filter fun entry => entry.1 = number).reverse.map Prod.snd,
      { w with recorded := w.recorded.filter fun entry => entry.1 ≠ number })
  | _ => ([], w)

/-! ### Repositories -/

/-- Add a stopped repository. -/
def addStopped (s : Scenario) (name : String) (r : Stopped) : Scenario :=
  { s with stopped := Sorted.put name r s.stopped }

/-- Add a repository whose events are recorded. -/
def addRecorded (s : Scenario) (name : String) (draft : Settings.Draft) (limit : Nat)
    (source : Source Handle) (connector : Connector) (clock : ClockSource) : Answer × Scenario :=
  match draft.settings with
  | .error e => (.settingsError e, s)
  | .ok settings =>
    match Repository.ofSettings settings (Payload.codec limit) source with
    | .error e => (.repositoryError e, s)
    | .ok repository =>
      (.owns source.isOwned,
        { s.addStopped name ⟨repository, ⟨connector, clock, .recorder s.nextRecorder⟩, 0⟩ with
          nextRecorder := s.nextRecorder + 1 })

/-- The connector of a supply and the clock of the sessions that it makes. -/
def supplied? (s : Scenario) : Supply → Option (Connector × ClockSource)
  | .memory => some (.memory, .system)
  | .unreachable text => some (.unreachable text, .manual)
  | .named session => (s.session? session).map fun h => (.fixed h, .manual)
  | .sqlite config => some (.sqlite config, .manual)

/-- Add a repository that a configuration document describes. -/
def addConfigured (s : Scenario) (name document : String) (limit : Nat) : Answer × Scenario :=
  match Config.ofText document s.world.files with
  | .error e => (.configError e, s)
  | .ok config =>
    match config.build (Payload.codec limit) .standard s.world.files with
    | (.error e, files) => (.configError e, s.inWorld { s.world with files })
    | (.ok a, files) =>
      (.owns a.repository.source.isOwned,
        (s.inWorld { s.world with files }).addStopped name
          ⟨a.repository, ⟨a.connector, .system, a.sink⟩, 0⟩)

/-- Start a repository; one that does not start is gone. -/
def startRepository (s : Scenario) (name : String) (r : Stopped) : Answer × Scenario :=
  let s := { s with stopped := Sorted.drop name s.stopped }
  let connections := r.connections + if r.repository.source.isOwned then 1 else 0
  match s.world.run r.ties r.repository.start with
  | (.error e, w) =>
    let (events, w) := takeEvents w r.ties.sink
    (.failed e events, s.inWorld w)
  | (.ok running, w) =>
    (.started (running.statements.toList.map Prepared.native) r.repository.table,
      { s.inWorld w with
        started := Sorted.put name ⟨running, r.ties, connections⟩ s.started })

/-- Stop a repository; one that does not stop is gone. -/
def stopRepository (s : Scenario) (name : String) (r : Started) : Answer × Scenario :=
  let s := { s with started := Sorted.drop name s.started }
  match s.world.run r.ties r.running.stop with
  | (.error e, w) =>
    let (events, w) := takeEvents w r.ties.sink
    (.failed e events, s.inWorld w)
  | (.ok repository, w) =>
    (.owns repository.source.isOwned,
      (s.inWorld w).addStopped name ⟨repository, r.ties, r.connections⟩)

/-- Call a repository. -/
def callRepository (s : Scenario) (r : Started) (c : Call Exchange) : Answer × Scenario :=
  let (result, w) := s.world.run r.ties (r.running.perform c)
  (.called c result (isOverDatabase r.running.session), s.inWorld w)

/-- The ties of a repository, started or not, and how many sessions it has obtained. -/
def ties? (s : Scenario) (name : String) : Option (Ties × Nat) :=
  match Sorted.get? name s.started, Sorted.get? name s.stopped with
  | some r, _ => some (r.ties, r.connections)
  | none, some r => some (r.ties, r.connections)
  | none, none => none

/-! ### Sessions -/

/-- Add an interruption to a faulty session. -/
def addInterruption (w : World) (i : Interruption) : Handle → Option World
  | .faulty index _ =>
    w.faults[index]?.map fun f =>
      { w with faults := w.faults.set index { f with pending := f.pending ++ [i] } }
  | _ => none

/-- Prepare a statement on a session and name it. -/
def prepareStatement (s : Scenario) (session : Handle) (name : String) (draft : Template.Draft) :
    Answer × Scenario :=
  match draft.template with
  | .error e => (.settingsError e, s)
  | .ok t =>
    match World.prepare session t s.world with
    | (.error e, w) => (.sessionError e, s.inWorld w)
    | (.ok p, w) =>
      (.native p.native, { s.inWorld w with statements := Sorted.put name p s.statements })

/-- Bind values to a prepared statement and execute it on a session. -/
def executeStatement (s : Scenario) (session : Handle) (p : Prepared) (values : List Value) :
    Answer × Scenario :=
  match p.bind values with
  | .error e => (.sessionError (.execution e.message), s)
  | .ok bound =>
    match s.world.executeOn session bound with
    | (.error e, w) => (.sessionError e, s.inWorld w)
    | (.ok rows, w) => (.rows rows.rows (isOverDatabase session), s.inWorld w)

/-- The memory session of a handle. -/
def memory? (w : World) : Handle → Option MemoryLink
  | .memory i => w.memories[i]?
  | _ => none

/-- Delete expired rows through a session over a database. -/
def purgeSession (w : World) : Handle → Option (Answer × World)
  | .sqlite i =>
    match w.databases[i]? with
    | none => none
    | some link =>
      if link.connection.closed then some (.openError (.engine "session closed"), w)
      else
        match w.database? link.home with
        | none => some (.openError (.engine "file is not a database"), w)
        | some db =>
          match Sqlite.purge (w.reading link.clock) link.connection db with
          | none => some (.openError (.engine "session closed"), w)
          | some (count, after) =>
            match w.finish i link link.connection db after Sqlite.OpenError.engine (.ok count) with
            | (.ok count, w) => some (.count count, w)
            | (.error e, w) => some (.openError e, w)
  | _ => none

/-! ### Files -/

/-- The place and the database of a database file. -/
def databaseAt? (files : Files) (path : String) : Option (Place × Sqlite.Database) :=
  match files.locate path with
  | none => none
  | some place => (files.databaseAt? place).map fun db => (place, db)

/-- A line of a log without the moment of its event. -/
def withoutMoment : Json → Json
  | .object fields => .object (fields.filter fun field => field.1 ≠ "timestamp_ms")
  | v => v

/-- The lines of a text; what follows the last line end is a line if it is not empty. -/
def lines (text : String) : List String :=
  let parts := text.splitOn "\n"
  if parts.getLast? = some "" then parts.dropLast else parts

/-- The events in a log file, one a line; none if a line is no JSON text. -/
def readLog? (files : Files) (path : String) : Option (List Json) :=
  match (files.read? path).bind fun content => String.fromUTF8? content with
  | none => none
  | some text => (lines text).mapM fun line => (Json.ofText? line).map withoutMoment

/-! ### Steps -/

/-- Run a command as a program of its own. -/
def runCommand (s : Scenario) (arguments : List String) (environment : Option String) :
    Answer × Scenario :=
  match Command.ofArguments? arguments with
  | none => (.misuse, s)
  | some c =>
    let (r, w) := c.run .reliable environment { s.world with errorOutput := [] }
    (.report r w.errorOutput.reverse, s.inWorld { w with errorOutput := s.world.errorOutput })

/-- What a step does, interruptions not yet reported. -/
def perform (s : Scenario) : Step → Answer × Scenario
  | .advance milliseconds =>
    let w := s.world.advance milliseconds
    (.reading w.clock, s.inWorld w)
  | .setClock reading => (.reading reading, s.inWorld { s.world with clock := reading })
  | .openMemory name =>
    let (h, w) := s.world.openMemory .manual
    (.done, (s.inWorld w).nameSession name h)
  | .openSqlite name config =>
    match s.world.openSqlite .manual config with
    | (.error e, w) => (.openError e, s.inWorld w)
    | (.ok h, w) => (.opened config, (s.inWorld w).nameSession name h)
  | .wrap name inner fault =>
    match s.session? inner with
    | none => (.unknown, s)
    | some h =>
      let (h, w) := s.world.wrap h fault
      (.done, (s.inWorld w).nameSession name h)
  | .interrupt session before repository acts =>
    match s.session? session, Sorted.get? repository s.started with
    | some h, some r =>
      match addInterruption s.world ⟨before, r.running, r.ties, acts⟩ h with
      | none => (.unknown, s)
      | some w => (.done, s.inWorld w)
    | _, _ => (.unknown, s)
  | .borrow name settings limit session =>
    match s.session? session with
    | none => (.unknown, s)
    | some h => s.addRecorded name settings limit (.borrowed h) (.fixed h) .manual
  | .own name settings limit supply =>
    match s.supplied? supply with
    | none => (.unknown, s)
    | some (connector, clock) => s.addRecorded name settings limit .owned connector clock
  | .configure name document limit => s.addConfigured name document limit
  | .start name =>
    match Sorted.get? name s.stopped with
    | none => (.unknown, s)
    | some r => s.startRepository name r
  | .stop name =>
    match Sorted.get? name s.started with
    | none => (.unknown, s)
    | some r => s.stopRepository name r
  | .call name c =>
    match Sorted.get? name s.started with
    | none => (.unknown, s)
    | some r => s.callRepository r c
  | .events name =>
    match s.ties? name with
    | none => (.unknown, s)
    | some (ties, _) =>
      let (events, w) := takeEvents s.world ties.sink
      (.events events, s.inWorld w)
  | .connections name =>
    match s.ties? name with
    | none => (.unknown, s)
    | some (_, connections) => (.number connections, s)
  | .adopt repository name =>
    match Sorted.get? repository s.started with
    | none => (.unknown, s)
    | some r => (.done, s.nameSession name r.running.session)
  | .prepare session name draft =>
    match s.session? session with
    | none => (.unknown, s)
    | some h => s.prepareStatement h name draft
  | .execute session statement values =>
    match s.session? session, Sorted.get? statement s.statements with
    | some h, some p => s.executeStatement h p values
    | _, _ => (.unknown, s)
  | .rowCount session table =>
    match (s.session? session).bind (memory? s.world) with
    | none => (.unknown, s)
    | some link => (.count (link.store.rowCount table (s.world.reading link.clock)), s)
  | .usage session =>
    match (s.session? session).bind (memory? s.world) with
    | none => (.unknown, s)
    | some link => (.usage link.store.usage, s)
  | .isClosed session =>
    match (s.session? session).bind (memory? s.world) with
    | none => (.unknown, s)
    | some link => (.flag link.store.closed, s)
  | .close session =>
    match s.session? session with
    | none => (.unknown, s)
    | some h =>
      match World.close h s.world with
      | (.error e, w) => (.sessionError e, s.inWorld w)
      | (.ok (), w) => (.done, s.inWorld w)
  | .purge session =>
    match (s.session? session).bind (purgeSession s.world) with
    | none => (.unknown, s)
    | some (answer, w) => (answer, s.inWorld w)
  | .schema path =>
    match databaseAt? s.world.files path with
    | none => (.unknown, s)
    | some (_, db) => (.texts db.schema, s)
  | .plant path table row =>
    match databaseAt? s.world.files path with
    | none => (.unknown, s)
    | some (place, db) =>
      match db.run (.upsert table (row.map Prod.fst)) (row.map Prod.snd) with
      | .error _ => (.unknown, s)
      | .ok (_, db) =>
        (.done, s.inWorld { s.world with files := s.world.files.put place (.database db) })
  | .write path content =>
    match s.world.files.write? path content with
    | none => (.unknown, s)
    | some files => (.done, s.inWorld { s.world with files })
  | .makeDirectory path =>
    match s.world.files.createAll? path with
    | none => (.unknown, s)
    | some files => (.done, s.inWorld { s.world with files })
  | .exists path => (.flag (s.world.files.has path), s)
  | .readLog path =>
    match readLog? s.world.files path with
    | none => (.unknown, s)
    | some lines => (.log lines, s)
  | .load path =>
    match Config.load path none s.world.files with
    | .error e => (.configError e, s)
    | .ok config => (.table config.repository.table, s)
  | .command arguments environment => s.runCommand arguments environment

/-- Do a step, and report the interruptions that it ran into. -/
def step (s : Scenario) (what : Step) : Answer × Scenario :=
  let (answer, s) := s.perform what
  match s.world.interludes with
  | [] => (answer, s)
  | interludes =>
    (.interrupted interludes.reverse.flatten answer, s.inWorld { s.world with interludes := [] })

/-- Do some steps, first to last. -/
def steps (s : Scenario) : List Step → List Answer × Scenario
  | [] => ([], s)
  | what :: rest =>
    let (answer, s) := s.step what
    let (answers, s) := s.steps rest
    (answer :: answers, s)

end Scenario

end GroupStore

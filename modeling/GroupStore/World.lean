import GroupStore.Memory
import GroupStore.Sqlite.Session
import GroupStore.Connector
import GroupStore.Audit.Sink
import GroupStore.Repository.Call
import GroupStore.Payload

/-!
# Worlds: every session on one clock and one file tree

A world holds all sessions, the file tree, the reading of the clock and what was reported.  Its
transitions answer the requests of programs.

Sessions read one of two clocks: one that only moves when it is told to, and the system's.

A session that injects faults stands before another session.  It may refuse statements, fail
executions, replace or extend returned rows, fail to close, and run calls of another repository
just before an execution.

* `World.host` — the answers of a world, given what an interruption does;
* `World.run` — run a program; the number of interruptions still to come bounds their nesting.
-/

namespace GroupStore

/-! ### State -/

/-- Which clock a session reads. -/
inductive ClockSource where
  | manual
  | system
deriving DecidableEq

/-- A memory session. -/
structure MemoryLink where
  clock : ClockSource
  store : Memory.Store

/-- Where the database of a session is. -/
inductive Home where
  /-- Nowhere else: it is the session's own. -/
  | inMemory (db : Sqlite.Database)
  | file (place : Place)

/-- How changes get into the file of a database. -/
inductive Changing where
  /-- Through a journal that is written for each change. -/
  | journaled
  /-- Through a log that is open. -/
  | logged
  /-- Not at all, because the index of the log cannot be written. -/
  | refused
deriving DecidableEq

/-- A session over a database. -/
structure DatabaseLink where
  clock : ClockSource
  connection : Sqlite.Connection
  changing : Changing
  home : Home

/-- What a repository is tied to: where its session comes from, which clock that session reads,
and where events go. -/
structure Ties where
  connector : Connector
  clock : ClockSource
  sink : Audit.Sink

/-- What an interruption does. -/
inductive Act where
  | call (c : Call Exchange)
  | advance (milliseconds : Nat)

/-- What an act of an interruption gives back. -/
inductive ActReply where
  | call (result : Except RepositoryError (Reply Exchange))
  /-- The reading before the clock was advanced. -/
  | reading (now : Nat)

/-- Acts to be done once, just before the next execution of a kind of statement. -/
structure Interruption where
  before : StatementKind
  repository : Running Handle Exchange
  ties : Ties
  acts : List Act

/-- What a session that injects faults does. -/
structure Fault where
  /-- Kinds that it refuses to prepare. -/
  reject : List StatementKind := []
  /-- Kinds whose execution it fails, with the text of the failure. -/
  fail : List (StatementKind × String) := []
  /-- Rows that it returns in place of those of a kind. -/
  replace : List (StatementKind × List Row) := []
  /-- Rows that it adds to those of a kind. -/
  append : List (StatementKind × List Row) := []
  /-- The failure of its closing. -/
  closeError : Option String := none
  /-- Interruptions to come. -/
  pending : List Interruption := []

/-- The first of some interruptions that comes before a kind, and the others. -/
def Interruption.take? (kind : StatementKind) :
    List Interruption → Option (Interruption × List Interruption)
  | [] => none
  | i :: rest =>
    if i.before = kind then some (i, rest)
    else (take? kind rest).map fun (found, others) => (found, i :: others)

/-- The rows that a faulty session returns in place of others. -/
def Fault.rows (f : Fault) (kind : StatementKind) (r : ResultSet) : ResultSet :=
  ⟨(Sorted.get? kind f.replace).getD r.rows ++ (Sorted.get? kind f.append).getD []⟩

/-- Everything there is. -/
structure World where
  /-- The manual clock, in milliseconds. -/
  clock : Nat
  /-- The system's clock, in milliseconds. -/
  systemTime : Nat
  files : Files
  memories : List MemoryLink
  databases : List DatabaseLink
  faults : List Fault
  /-- Recorded events with the numbers of their recorders, latest first. -/
  recorded : List (Nat × Audit.Event)
  /-- Events on the error output, latest first. -/
  errorOutput : List Audit.Event
  /-- What interruptions did, latest first. -/
  interludes : List (List (Act × ActReply))

namespace World

/-- A world without sessions. -/
def fresh (clock systemTime : Nat) (files : Files) : World :=
  ⟨clock, systemTime, files, [], [], [], [], [], []⟩

/-- The reading of a clock. -/
def reading (w : World) : ClockSource → Nat
  | .manual => w.clock
  | .system => w.systemTime

/-- Advance the manual clock; it wraps after its greatest reading. -/
def advance (w : World) (milliseconds : Nat) : World :=
  { w with clock := (w.clock + milliseconds) % (Memory.maxTime + 1) }

/-! ### Opening sessions -/

/-- The path that stands for a database of one's own, in memory. -/
def privatePath : String := ":memory:"

/-- How the name of a journal goes on after that of its database. -/
def journalEnding : String := "-journal"

/-- How the name of a log goes on after that of its database. -/
def logEnding : String := "-wal"

/-- How the name of the index of a log goes on after that of its database. -/
def indexEnding : String := "-shm"

/-- The longest path of a journal in bytes, counted from the root. -/
def maxJournalPathBytes : Nat := 512

/-- The length of a place as a path in bytes. -/
def placeBytes (place : Place) : Nat :=
  place.foldl (fun bytes part => bytes + part.utf8ByteSize + 1) 0

/-- Whether a journal beside a database has too long a path. -/
def isTooFar (place : Place) : Bool :=
  maxJournalPathBytes < placeBytes place + journalEnding.utf8ByteSize

/-- Whether a journal beside a database has too long a name. -/
def isTooLong (place : Place) : Bool :=
  match place.getLast? with
  | some name => Path.maxComponentBytes < name.utf8ByteSize + journalEnding.utf8ByteSize
  | none => false

/-- Whether a journal can be written beside a database. -/
def canJournal (files : Files) (place : Place) : Bool :=
  !isTooLong place && !files.isBlocked place journalEnding

/-- The longest waiting time of a database session. -/
def maxBusyTimeout : Nat := 2147483647

/-- Add a memory session. -/
def openMemory (w : World) (clock : ClockSource) : Handle × World :=
  (.memory w.memories.length, { w with memories := w.memories ++ [⟨clock, .empty⟩] })

/-- Add a session over a database. -/
def openDatabase (w : World) (clock : ClockSource) (changing : Changing) (home : Home) :
    Handle × World :=
  (.sqlite w.databases.length,
    { w with databases := w.databases ++ [⟨clock, .fresh, changing, home⟩] })

/-- The engine's text for a file that it cannot open. -/
def cannotOpen : String := "unable to open database file"

/-- The engine's text for a file that it cannot write. -/
def cannotWrite : String := "attempt to write a readonly database"

/-- The engine's text for a file that holds something else. -/
def noDatabase : String := "file is not a database"

/-- What stands for the panic of the driver over a waiting time that it cannot take. -/
def tooPatient : Sqlite.OpenError := .engine "too big"

/-- Whether a database can be read that has just been opened.  The engine looks for a log in either
mode, and for a journal once something has been written.  Turning on the write-ahead mode needs a
journal once.  In which mode an earlier session has left the database makes no difference here. -/
def canRead (files : Files) (mode : Sqlite.JournalMode) (place : Place) : Bool :=
  !files.isBlocked place logEnding &&
    match mode with
    | .wal => canJournal files place
    | .delete => !(files.isWritten place && files.isBlocked place journalEnding)

/-- How changes get into a database file. -/
def changingOf (files : Files) (mode : Sqlite.JournalMode) (place : Place) : Changing :=
  match mode with
  | .delete => .journaled
  | .wal => if files.isBlocked place indexEnding then .refused else .logged

/-- Turn on a mode; the write-ahead mode is written to the file. -/
def turnOn (mode : Sqlite.JournalMode) (files : Files) (place : Place) (db : Sqlite.Database) :
    Files :=
  match mode with
  | .wal => files.put place (.database db)
  | .delete => files

/-- The home of a configured database and how it is changed; the file and its directories are
created unless they are there.  A path that begins with `file:` is taken for a path like any
other. -/
def prepareHome (files : Files) (c : Sqlite.Config) :
    Except Sqlite.OpenError (Home × Changing) × Files :=
  if c.path = privatePath then (.ok (.inMemory .empty, .logged), files)
  else
    match files.createParents? c.path with
    | none => (.error .directories, files)
    | some files =>
      match files.locate c.path with
      | none => (.error (.engine cannotOpen), files)
      | some place =>
        if isTooFar place then (.error (.engine cannotOpen), files)
        else
          match files.openDatabase? place with
          | none => (.error (.engine noDatabase), files)
          | some (db, files) =>
            if canRead files c.journal place then
              (.ok (.file place, changingOf files c.journal place),
                turnOn c.journal files place db)
            else (.error (.engine cannotOpen), files)

/-- Open a session over a configured database.  The waiting time is set last. -/
def openSqlite (w : World) (clock : ClockSource) (c : Sqlite.Config) :
    Except Sqlite.OpenError Handle × World :=
  match c.check w.files with
  | .error fault => (.error (.path fault), w)
  | .ok () =>
    match prepareHome w.files c with
    | (.error e, files) => (.error e, { w with files })
    | (.ok (home, changing), files) =>
      let w := { w with files }
      if maxBusyTimeout < c.busyTimeout then (.error tooPatient, w)
      else
        let (handle, w) := w.openDatabase clock changing home
        (.ok handle, w)

/-- Put a session that injects faults before another one. -/
def wrap (w : World) (inner : Handle) (f : Fault) : Handle × World :=
  (.faulty w.faults.length inner, { w with faults := w.faults ++ [f] })

/-- Obtain a session through a connector. -/
def connect (w : World) (clock : ClockSource) : Connector → Except SessionError Handle × World
  | .memory =>
    let (handle, w) := w.openMemory .system
    (.ok handle, w)
  | .sqlite c =>
    let (result, w) := w.openSqlite clock c
    (result.mapError Sqlite.OpenError.toSessionError, w)
  | .unreachable text => (.error (.connection text), w)
  | .fixed session => (.ok session, w)

/-! ### Sessions over databases -/

/-- The database of a home. -/
def database? (w : World) : Home → Option Sqlite.Database
  | .inMemory db => some db
  | .file place => w.files.databaseAt? place

/-- Put back a session and its database, which a request has changed. -/
def putDatabase (w : World) (index : Nat) (link : DatabaseLink) (db : Sqlite.Database) : World :=
  match link.home with
  | .inMemory _ => { w with databases := w.databases.set index { link with home := .inMemory db } }
  | .file place =>
    { w with
      databases := w.databases.set index link
      files := w.files.put place (.database db) }

/-- Why the database of a session cannot be changed, in the engine's words. -/
def changeFault? (w : World) (link : DatabaseLink) : Option String :=
  match link.home, link.changing with
  | .file place, .journaled => if canJournal w.files place then none else some cannotOpen
  | .file _, .refused => some cannotWrite
  | _, _ => none

/-- Finish a request to a session: a change of the database is refused as `refuse` says if it cannot
be made, and then the session stays as it was as well. -/
def finish {ε β : Type} (w : World) (index : Nat) (link : DatabaseLink)
    (connection : Sqlite.Connection) (before after : Sqlite.Database) (refuse : String → ε)
    (answer : Except ε β) : Except ε β × World :=
  let link' : DatabaseLink := { link with connection }
  if after = before then (answer, { w with databases := w.databases.set index link' })
  else
    match w.changeFault? link with
    | some text => (.error (refuse text), w)
    | none => (answer, w.putDatabase index link' after)

/-- What a session without its database answers. -/
def databaseLost : SessionError := .execution noDatabase

/-- A handle that names no session. -/
def noSession : SessionError := .connection "no such session"

/-! ### Requests -/

/-- Prepare a template. -/
def prepare : Handle → Template → World → Except SessionError Prepared × World
  | .memory i, t, w =>
    match w.memories[i]? with
    | none => (.error noSession, w)
    | some link =>
      let (answer, store) := link.store.prepare t
      (answer, { w with memories := w.memories.set i { link with store } })
  | .sqlite i, t, w =>
    match w.databases[i]? with
    | none => (.error noSession, w)
    | some link =>
      match w.database? link.home with
      | none => (.error databaseLost, w)
      | some db =>
        let (answer, connection, after) := Sqlite.prepare t link.connection db
        w.finish i link connection db after .prepare answer
  | .faulty i inner, t, w =>
    match w.faults[i]? with
    | none => (.error noSession, w)
    | some f =>
      if t.kind ∈ f.reject then (.error (.prepare (t.kind.label ++ " rejected")), w)
      else prepare inner t w

/-- Execute a bound statement; `interrupt` says what an interruption does to the world. -/
def execute (interrupt : Interruption → World → World) :
    Handle → Bound → World → Except SessionError ResultSet × World
  | .memory i, b, w =>
    match w.memories[i]? with
    | none => (.error noSession, w)
    | some link =>
      let (answer, store) := link.store.execute b (w.reading link.clock)
      (answer, { w with memories := w.memories.set i { link with store } })
  | .sqlite i, b, w =>
    match w.databases[i]? with
    | none => (.error noSession, w)
    | some link =>
      match w.database? link.home with
      | none => (.error databaseLost, w)
      | some db =>
        let (answer, after) := Sqlite.execute b (w.reading link.clock) link.connection db
        w.finish i link link.connection db after .execution answer
  | .faulty i inner, b, w =>
    match w.faults[i]? with
    | none => (.error noSession, w)
    | some f =>
      let kind := b.template.kind
      let w := match Interruption.take? kind f.pending with
        | none => w
        | some (next, others) =>
          interrupt next { w with faults := w.faults.set i { f with pending := others } }
      match Sorted.get? kind f.fail with
      | some text => (.error (.execution text), w)
      | none =>
        let (answer, w) := execute interrupt inner b w
        (answer.map (f.rows kind), w)

/-- Close a session. -/
def close : Handle → World → Except SessionError Unit × World
  | .memory i, w =>
    match w.memories[i]? with
    | none => (.error noSession, w)
    | some link =>
      let (answer, store) := link.store.close
      (answer, { w with memories := w.memories.set i { link with store } })
  | .sqlite i, w =>
    match w.databases[i]? with
    | none => (.error noSession, w)
    | some link =>
      (.ok (), { w with
        databases := w.databases.set i { link with connection := Sqlite.close link.connection } })
  | .faulty i inner, w =>
    match w.faults[i]? with
    | none => (.error noSession, w)
    | some f =>
      let (answer, w) := close inner w
      match f.closeError with
      | some text => (.error (.connection text), w)
      | none => (answer, w)

/-- Report an event to a sink. -/
def record (sink : Audit.Sink) (e : Audit.Event) (w : World) : World :=
  match sink with
  | .none => w
  | .errorOutput => { w with errorOutput := e :: w.errorOutput }
  | .file place => { w with files := w.files.append place (e.line w.systemTime) }
  | .recorder number => { w with recorded := (number, e) :: w.recorded }

/-! ### Programs -/

/-- The answers of a world to a repository with certain ties. -/
def host (interrupt : Interruption → World → World) (ties : Ties) : Host World Handle where
  connect w := w.connect ties.clock ties.connector
  prepare := prepare
  execute := execute interrupt
  close := close
  record := record ties.sink

/-- Do one act of an interruption. -/
def act (h : Host World Handle) (r : Running Handle Exchange) (a : Act) (w : World) :
    ActReply × World :=
  match a with
  | .call c =>
    let (result, w) := (r.perform c).run h w
    (.call result, w)
  | .advance milliseconds => (.reading w.clock, w.advance milliseconds)

/-- Do the acts of an interruption, first to last. -/
def actAll (h : Host World Handle) (r : Running Handle Exchange) :
    List Act → World → List (Act × ActReply) × World
  | [], w => ([], w)
  | a :: rest, w =>
    let (reply, w) := act h r a w
    let (replies, w) := actAll h r rest w
    ((a, reply) :: replies, w)

/-- The answers of a world in which interruptions nest at most so deep. -/
def hostAt : Nat → Ties → Host World Handle
  | 0, ties => host (fun _ w => w) ties
  | depth + 1, ties =>
    host (fun i w =>
      let (replies, w) := actAll (hostAt depth i.ties) i.repository i.acts w
      { w with interludes := replies :: w.interludes }) ties

/-- The number of interruptions still to come. -/
def pendingCount (w : World) : Nat := w.faults.foldl (fun count f => count + f.pending.length) 0

/-- Run a program of a repository with certain ties. -/
def run {α : Type} (w : World) (ties : Ties) (p : Program Handle α) : α × World :=
  p.run (hostAt w.pendingCount ties) w

/-- Execute a statement outside of any repository. -/
def executeOn (w : World) (session : Handle) (b : Bound) : Except SessionError ResultSet × World :=
  (hostAt w.pendingCount ⟨.fixed session, .manual, .none⟩).execute session b w

end World

end GroupStore

import GroupStore.Proofs.Files
import GroupStore.Proofs.Memory.Host
import GroupStore.Proofs.Sqlite.Host

/-!
# The sessions of a world

A program that keeps to one session of a world runs there as it does on that session alone: it has
the same result, and the session is left in the same state.  Whatever else the world holds, its
other sessions, its files and what was reported, makes no difference.  Of the files, a session over
a database sees only whether a directory stands where the engine needs a file: then changes are
refused.

* `Program.On` — every request goes to one session;
* `Host.Alike` — two hosts that answer the requests to a session alike;
* `World.run_on_memory` — a world and a memory session alone;
* `Sqlite.Moment.settle` — a request to a database that perhaps cannot be changed;
* `World.Open` — a session over a database of a world, kept by each request and each report.
-/

namespace GroupStore

variable {S α β σ τ : Type}

/-! ### Programs on one session -/

/-- Every request of a program goes to one session, which is also the one that it obtains. -/
def Program.On (session : S) : Program S α → Prop
  | done _ => True
  | connect next => (next (.ok session)).On session
  | prepare s _ next => s = session ∧ ∀ answer, (next answer).On session
  | execute s _ next => s = session ∧ ∀ answer, (next answer).On session
  | close s next => s = session ∧ ∀ answer, (next answer).On session
  | record _ next => next.On session

namespace Program

variable {session : S}

theorem On.bind {p : Program S α} {f : α → Program S β} (hp : p.On session)
    (hf : ∀ a, (f a).On session) : (p.bind f).On session := by
  induction p with
  | done a => exact hf a
  | connect next ih => exact ih _ hp
  | prepare s t next ih => exact ⟨hp.1, fun answer => ih answer (hp.2 answer)⟩
  | execute s b next ih => exact ⟨hp.1, fun answer => ih answer (hp.2 answer)⟩
  | close s next ih => exact ⟨hp.1, fun answer => ih answer (hp.2 answer)⟩
  | record e next ih => exact ih hp

theorem On.andThen {ε : Type} {p : Program S (Except ε α)} {f : α → Program S (Except ε β)}
    (hp : p.On session) (hf : ∀ a, (f a).On session) : (p.andThen f).On session := by
  refine hp.bind fun result => ?_
  cases result with
  | ok a => exact hf a
  | error e => trivial

end Program

namespace Repository

variable {r : Repository S α} {session : S}

theorem prepareAll_on : (r.prepareAll session).On session := by
  have one (kind : StatementKind) : (r.prepareOne session kind).On session := by
    refine ⟨rfl, fun answer => ?_⟩
    cases answer <;> trivial
  unfold prepareAll
  refine (one .insert).andThen fun _ => (one .selectByKey).andThen fun _ => ?_
  refine (one .deleteByKey).andThen fun _ => (one .selectKeyAndId).andThen fun _ => ?_
  exact (one .conditionalDelete).andThen fun _ => trivial

theorem announce_on (statements : List Prepared) {next : Program S β} (hn : next.On session) :
    (r.announce statements next).On session := by
  induction statements with
  | nil => exact hn
  | cons p rest ih => exact ih

theorem giveUp_on (kind : StatementKind) (cause : SessionError) :
    (r.giveUp session kind cause : Program S (Except RepositoryError β)).On session := by
  unfold giveUp
  split
  · refine ⟨rfl, fun answer => ?_⟩
    cases answer <;> trivial
  · trivial

/-- A start is on its own session, borrowed or obtained. -/
theorem start_on (own : ∀ other, r.source = .borrowed other → other = session) :
    r.start.On session := by
  have startOn : (r.startOn session).On session := by
    refine prepareAll_on.bind fun result => ?_
    cases result with
    | error e => exact giveUp_on e.1 e.2
    | ok statements => exact announce_on _ trivial
  refine Program.On.bind ?_ fun _ => trivial
  unfold obtain
  cases source : r.source with
  | borrowed other =>
    obtain rfl := own other source
    exact startOn
  | owned => exact startOn

end Repository

/-! ### Hosts that answer alike -/

/-- While their states are related, two hosts give equal answers to requests to a session, which is
the one that both open. -/
structure Host.Alike (h : Host σ S) (k : Host τ S) (session : S) (R : σ → τ → Prop) : Prop where
  connect : ∀ w v, R w v → (h.connect w).1 = .ok session ∧ (k.connect v).1 = .ok session ∧
    R (h.connect w).2 (k.connect v).2
  prepare : ∀ t w v, R w v → (h.prepare session t w).1 = (k.prepare session t v).1 ∧
    R (h.prepare session t w).2 (k.prepare session t v).2
  execute : ∀ b w v, R w v → (h.execute session b w).1 = (k.execute session b v).1 ∧
    R (h.execute session b w).2 (k.execute session b v).2
  close : ∀ w v, R w v → (h.close session w).1 = (k.close session v).1 ∧
    R (h.close session w).2 (k.close session v).2
  record : ∀ e w v, R w v → R (h.record e w) (k.record e v)

/-- A program on the session has the same result on both hosts and leaves their states related. -/
theorem Host.Alike.run {h : Host σ S} {k : Host τ S} {session : S} {R : σ → τ → Prop}
    (alike : h.Alike k session R) {p : Program S α} (on : p.On session) {w : σ} {v : τ}
    (related : R w v) : (p.run h w).1 = (p.run k v).1 ∧ R (p.run h w).2 (p.run k v).2 := by
  induction p generalizing w v with
  | done a => exact ⟨rfl, related⟩
  | connect next ih =>
    obtain ⟨one, other, after⟩ := alike.connect w v related
    simp only [Program.run, one, other]
    exact ih _ on after
  | prepare s t next ih =>
    obtain ⟨rfl, on⟩ := on
    obtain ⟨answerEq, after⟩ := alike.prepare t w v related
    simp only [Program.run, answerEq]
    exact ih _ (on _) after
  | execute s b next ih =>
    obtain ⟨rfl, on⟩ := on
    obtain ⟨answerEq, after⟩ := alike.execute b w v related
    simp only [Program.run, answerEq]
    exact ih _ (on _) after
  | close s next ih =>
    obtain ⟨rfl, on⟩ := on
    obtain ⟨answerEq, after⟩ := alike.close w v related
    simp only [Program.run, answerEq]
    exact ih _ (on _) after
  | record e next ih => exact ih on (alike.record e w v related)

namespace Sqlite.Moment

/-- What comes of a request to a session over a database: a change of the database is refused as
`refuse` says if there is a fault, and then the session stays as it was as well. -/
def settle {ε β : Type} (m : Moment) (fault? : Option String) (refuse : String → ε) (c : Connection)
    (after : Database) (answer : Except ε β) : Except ε β × Moment :=
  if after = m.database then (answer, { m with connection := c })
  else
    match fault? with
    | some text => (.error (refuse text), m)
    | none => (answer, ⟨c, after, m.now⟩)

/-- What comes of a preparation. -/
def prepare (m : Moment) (fault? : Option String) (t : Template) :
    Except SessionError Prepared × Moment :=
  let (answer, c, after) := Sqlite.prepare t m.connection m.database
  m.settle fault? .prepare c after answer

/-- What comes of an execution. -/
def execute (m : Moment) (fault? : Option String) (b : Bound) :
    Except SessionError ResultSet × Moment :=
  let (answer, after) := Sqlite.execute b m.now m.connection m.database
  m.settle fault? .execution m.connection after answer

/-- Without a fault a preparation comes to what it comes to on the session alone. -/
theorem prepare_free (m : Moment) (t : Template) :
    m.prepare none t = ((Sqlite.prepare t m.connection m.database).1,
      { m with
        connection := (Sqlite.prepare t m.connection m.database).2.1
        database := (Sqlite.prepare t m.connection m.database).2.2 }) := by
  simp only [prepare, settle]
  split
  · rename_i unchanged
    rw [unchanged]
  · rfl

/-- A preparation that succeeds comes to what it comes to on the session alone. -/
theorem prepare_eq_ok {m : Moment} {fault? : Option String} {t : Template} {p : Prepared}
    (prepared : (m.prepare fault? t).1 = .ok p) :
    (Sqlite.prepare t m.connection m.database).1 = .ok p ∧ (m.prepare fault? t).2 = { m with
      connection := (Sqlite.prepare t m.connection m.database).2.1
      database := (Sqlite.prepare t m.connection m.database).2.2 } := by
  simp only [prepare, settle] at prepared ⊢
  by_cases kept : (Sqlite.prepare t m.connection m.database).2.2 = m.database
  · rw [if_pos kept] at prepared ⊢
    exact ⟨prepared, by rw [kept]⟩
  · rw [if_neg kept] at prepared ⊢
    cases fault? with
    | none => exact ⟨prepared, rfl⟩
    | some text => cases prepared

/-- A preparation that leaves the database comes to the same whether there is a fault or not. -/
theorem prepare_kept {m : Moment} {t : Template} {answer : Except SessionError Prepared}
    {c : Connection} (fault? : Option String)
    (prepared : Sqlite.prepare t m.connection m.database = (answer, c, m.database)) :
    m.prepare fault? t = (answer, { m with connection := c }) := by
  simp only [prepare, prepared, settle, if_true]

end Sqlite.Moment

namespace World

/-! ### A memory session -/

/-- The state of a memory session of a world, and the reading of its clock. -/
def Shows (i : Nat) (clock : ClockSource) (w : World) (m : Memory.Moment) : Prop :=
  w.memories[i]? = some ⟨clock, m.store⟩ ∧ w.reading clock = m.now

variable {i : Nat} {clock : ClockSource} {interrupt : Interruption → World → World} {ties : Ties}

theorem reading_of_clocks {w w' : World} (manual : w'.clock = w.clock)
    (system : w'.systemTime = w.systemTime) : w'.reading clock = w.reading clock := by
  cases clock with
  | manual => exact manual
  | system => exact system

/-- A report touches neither sessions nor clocks, and of the files only a plain one. -/
theorem record_keeps (clock : ClockSource) (sink : Audit.Sink) (e : Audit.Event) (w : World) :
    (record sink e w).memories = w.memories ∧ (record sink e w).databases = w.databases ∧
      (record sink e w).reading clock = w.reading clock := by
  cases sink with
  | none => exact ⟨rfl, rfl, rfl⟩
  | errorOutput => exact ⟨rfl, rfl, reading_of_clocks rfl rfl⟩
  | file place => exact ⟨rfl, rfl, reading_of_clocks rfl rfl⟩
  | recorder number => exact ⟨rfl, rfl, reading_of_clocks rfl rfl⟩

theorem Shows.set {w : World} {m : Memory.Moment} (shows' : Shows i clock w m)
    (store : Memory.Store) :
    Shows i clock { w with memories := w.memories.set i ⟨clock, store⟩ } { m with store } := by
  obtain ⟨found, now⟩ := shows'
  obtain ⟨inside, -⟩ := List.getElem?_eq_some_iff.mp found
  exact ⟨List.getElem?_set_self inside, (reading_of_clocks rfl rfl).trans now⟩

/-- A world answers requests to a memory session as the session alone does. -/
theorem host_alike_memory (fixed : ties.connector = .fixed (.memory i)) :
    (host interrupt ties).Alike (Memory.host (.memory i)) (.memory i) (Shows i clock) where
  connect w m shows' := by
    simp only [host, connect, fixed, Memory.host]
    exact ⟨trivial, trivial, shows'⟩
  prepare t w m shows' := by
    simp only [host, prepare, shows'.1, Memory.host]
    exact ⟨trivial, shows'.set _⟩
  execute b w m shows' := by
    simp only [host, execute, shows'.1, shows'.2, Memory.host]
    exact ⟨trivial, shows'.set _⟩
  close w m shows' := by
    simp only [host, close, shows'.1, Memory.host]
    exact ⟨trivial, shows'.set _⟩
  record e w m shows' := by
    obtain ⟨memories, -, now⟩ := record_keeps clock ties.sink e w
    exact ⟨memories ▸ shows'.1, now.trans shows'.2⟩

/-- A program on a memory session of a world has the result that it has on the session alone, and
leaves the session as it does there. -/
theorem run_on_memory {w : World} {link : MemoryLink} (linked : w.memories[i]? = some link)
    (fixed : ties.connector = .fixed (.memory i)) {p : Program Handle α} (on : p.On (.memory i)) :
    let alone := p.run (Memory.host (.memory i)) ⟨link.store, w.reading link.clock⟩
    (w.run ties p).1 = alone.1 ∧
      (w.run ties p).2.memories[i]? = some { link with store := alone.2.store } ∧
      (w.run ties p).2.reading link.clock = alone.2.now := by
  have shows' : Shows i link.clock w ⟨link.store, w.reading link.clock⟩ := ⟨linked, rfl⟩
  unfold World.run
  cases w.pendingCount <;> exact (host_alike_memory fixed).run on shows'

/-! ### A session over a database -/

/-- What changes of a database need beside its file can be written there. -/
def Writable (files : Files) (mode : Sqlite.JournalMode) (place : Place) : Prop :=
  match mode with
  | .delete => canJournal files place = true
  | .wal => files.isBlocked place indexEnding = false

/-- Where a database is: the directories around it, the mode of its journal, its file unless it is a
session's own, and the clock of the sessions over it. -/
structure Site where
  directories : Files
  mode : Sqlite.JournalMode
  place? : Option Place
  clock : ClockSource

namespace Site

/-- The home of a database. -/
def home (site : Site) (db : Sqlite.Database) : Home :=
  match site.place? with
  | none => .inMemory db
  | some place => .file place

/-- How the database is changed. -/
def changing (site : Site) : Changing :=
  match site.place? with
  | none => .logged
  | some place => changingOf site.directories site.mode place

/-- Why the database cannot be changed. -/
def fault? (site : Site) : Option String :=
  match site.place? with
  | none => none
  | some place =>
    match site.changing with
    | .journaled => if canJournal site.directories place then none else some cannotOpen
    | .logged => none
    | .refused => some cannotWrite

/-- A database in a file can be changed where the engine can write a journal, or a log with an
index. -/
theorem fault?_eq_none_iff {site : Site} {place : Place} (inFile : site.place? = some place) :
    site.fault? = none ↔ Writable site.directories site.mode place := by
  simp only [fault?, changing, inFile, Writable]
  cases site.mode with
  | delete =>
    show (if canJournal site.directories place then none else some cannotOpen) = none ↔ _
    split <;> simp [*]
  | wal =>
    cases blocked : site.directories.isBlocked place indexEnding <;> simp [changingOf, blocked]

end Site

/-- A session of a world over a database that is at a site, its state and the reading of its clock;
the directories are as they were. -/
structure Open (site : Site) (i : Nat) (w : World) (m : Sqlite.Moment) : Prop where
  link : w.databases[i]? = some ⟨site.clock, m.connection, site.changing, site.home m.database⟩
  held : w.database? (site.home m.database) = some m.database
  readable : ∀ place, site.place? = some place → canRead w.files site.mode place = true
  reading : w.reading site.clock = m.now
  alike : site.directories.Alike w.files

variable {site : Site} {w : World} {m : Sqlite.Moment}

/-- A database is in its file, where it can be read. -/
theorem Open.inFile (isOpen : w.Open site i m) {place : Place} (inFile : site.place? = some place) :
    w.files.databaseAt? place = some m.database ∧ canRead w.files site.mode place = true := by
  have held := isOpen.held
  rw [Site.home, inFile] at held
  exact ⟨held, isOpen.readable place inFile⟩

/-- While the directories stay, so does what keeps a database from being changed. -/
theorem Open.changeFault? (isOpen : w.Open site i m) (c : Sqlite.Connection) :
    w.changeFault? ⟨site.clock, c, site.changing, site.home m.database⟩ = site.fault? := by
  unfold World.changeFault? Site.fault? Site.home
  cases site.place? with
  | none => cases site.changing <;> rfl
  | some place =>
    cases site.changing with
    | journaled => simp only [canJournal_alike isOpen.alike]
    | logged => rfl
    | refused => rfl

/-- A database that has been changed is seen as such. -/
theorem Open.put (isOpen : w.Open site i m) (free : site.fault? = none) (c : Sqlite.Connection)
    (db : Sqlite.Database) :
    (w.putDatabase i ⟨site.clock, c, site.changing, site.home m.database⟩ db).Open site i
      ⟨c, db, m.now⟩ := by
  obtain ⟨inside, -⟩ := List.getElem?_eq_some_iff.mp isOpen.link
  obtain ⟨directories, mode, place?, clock⟩ := site
  cases place? with
  | none =>
    exact ⟨List.getElem?_set_self inside, rfl, (fun place inFile => by cases inFile),
      (reading_of_clocks rfl rfl).trans isOpen.reading, isOpen.alike⟩
  | some place =>
    obtain ⟨held, readable⟩ := isOpen.inFile (show some place = some place from rfl)
    have other := Files.not_directory_of_databaseAt? held
    have alike : w.files.Alike (w.files.put place (.database db)) :=
      Files.alike_put other fun clash => by cases clash
    refine ⟨List.getElem?_set_self inside, Files.databaseAt?_put other db, fun _ inFile => ?_,
      (reading_of_clocks rfl rfl).trans isOpen.reading, isOpen.alike.trans alike⟩
    cases inFile
    have mayChange := (Site.fault?_eq_none_iff rfl).mp free
    cases mode with
    | wal => exact (canRead_wal alike).trans readable
    | delete =>
      exact canRead_journal alike readable ((canJournal_alike isOpen.alike place).trans mayChange)

/-- A session that comes to be in another state is seen as such. -/
theorem Open.set (isOpen : w.Open site i m) (c : Sqlite.Connection) :
    let link : DatabaseLink := ⟨site.clock, c, site.changing, site.home m.database⟩
    Open site i { w with databases := w.databases.set i link } { m with connection := c } where
  link := List.getElem?_set_self (List.getElem?_eq_some_iff.mp isOpen.link).1
  held := isOpen.held
  readable := isOpen.readable
  reading := (reading_of_clocks rfl rfl).trans isOpen.reading
  alike := isOpen.alike

/-- The outcome of a request is the one on the session alone, unless the change is refused. -/
theorem Open.finish {ε β : Type} (isOpen : w.Open site i m) (c : Sqlite.Connection)
    (after : Sqlite.Database) (refuse : String → ε) (answer : Except ε β) :
    let settled := m.settle site.fault? refuse c after answer
    ∃ w', w.finish i ⟨site.clock, m.connection, site.changing, site.home m.database⟩ c m.database
      after refuse answer = (settled.1, w') ∧ w'.Open site i settled.2 := by
  unfold World.finish Sqlite.Moment.settle
  by_cases unchanged : after = m.database
  · simp only [if_pos unchanged]
    exact ⟨_, rfl, isOpen.set c⟩
  · simp only [if_neg unchanged, isOpen.changeFault?]
    cases free : site.fault? with
    | some text => exact ⟨w, rfl, isOpen⟩
    | none => exact ⟨_, rfl, isOpen.put free c after⟩

theorem Open.prepare (isOpen : w.Open site i m) (t : Template) :
    ∃ w', World.prepare (.sqlite i) t w = ((m.prepare site.fault? t).1, w') ∧
      w'.Open site i (m.prepare site.fault? t).2 := by
  simp only [World.prepare, isOpen.link, isOpen.held]
  exact isOpen.finish _ _ _ _

theorem Open.execute (isOpen : w.Open site i m) (interrupt : Interruption → World → World)
    (b : Bound) :
    ∃ w', World.execute interrupt (.sqlite i) b w = ((m.execute site.fault? b).1, w') ∧
      w'.Open site i (m.execute site.fault? b).2 := by
  simp only [World.execute, isOpen.link, isOpen.held, isOpen.reading]
  exact isOpen.finish _ _ _ _

theorem Open.close (isOpen : w.Open site i m) :
    ∃ w', World.close (.sqlite i) w = (.ok (), w') ∧
      w'.Open site i { m with connection := Sqlite.close m.connection } := by
  simp only [World.close, isOpen.link]
  exact ⟨_, rfl, isOpen.set _⟩

/-- A report leaves every database that has been written: its file is no plain one. -/
theorem Open.record (isOpen : w.Open site i m) (filled : m.database ≠ .empty) (sink : Audit.Sink)
    (e : Audit.Event) : (World.record sink e w).Open site i m := by
  obtain ⟨-, databases, reading⟩ := record_keeps site.clock sink e w
  have link : (World.record sink e w).databases[i]? = _ := databases ▸ isOpen.link
  cases sink with
  | none => exact isOpen
  | errorOutput =>
    exact ⟨link, isOpen.held, isOpen.readable, reading.trans isOpen.reading, isOpen.alike⟩
  | recorder number =>
    exact ⟨link, isOpen.held, isOpen.readable, reading.trans isOpen.reading, isOpen.alike⟩
  | file log =>
    have alike : w.files.Alike (w.files.append log (e.line w.systemTime)) :=
      Files.alike_append log _
    obtain ⟨directories, mode, place?, clock⟩ := site
    cases place? with
    | none =>
      exact ⟨link, rfl, (fun place inFile => by cases inFile), reading.trans isOpen.reading,
        isOpen.alike.trans alike⟩
    | some place =>
      obtain ⟨held, readable⟩ := isOpen.inFile rfl
      have isDatabase := Files.at?_of_databaseAt? held filled
      have still := (w.files.append_database_iff log (e.line w.systemTime) place m.database).mpr
        isDatabase
      refine ⟨link, ?_, fun _ inFile => ?_, reading.trans isOpen.reading,
        isOpen.alike.trans alike⟩
      · show (w.files.append log _).databaseAt? place = some m.database
        rw [Files.databaseAt?, still]
      · cases inFile
        refine (canRead_alike alike ?_).trans readable
        rw [Files.isWritten, Files.isWritten, still, isDatabase]

/-- Whatever the clocks are set to, the session is open. -/
theorem Open.atClocks (isOpen : w.Open site i m) (manual system : Nat) {now : Nat}
    (reading : ({ w with clock := manual, systemTime := system }).reading site.clock = now) :
    ({ w with clock := manual, systemTime := system }).Open site i { m with now } :=
  ⟨isOpen.link, isOpen.held, isOpen.readable, reading, isOpen.alike⟩

end World

end GroupStore

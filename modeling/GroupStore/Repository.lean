import GroupStore.Codec
import GroupStore.Program
import GroupStore.Statement.Repertoire

/-!
# Repositories: keyed results with confirmation

A repository keeps at most one result per group.  Adding replaces the group's result, getting
reads it, removing drops it; confirming an exchange id drops every result that still carries that
id, and only while it does, so a result written meanwhile under another id survives.

* `Repository.start` — obtain a session, prepare the five statements, report them;
* `Running.add`, `get`, `confirm`, `remove`, `getKeys`, `scan` — the calls;
* `Running.stop` — close the session if the repository owns it.

Every call ends with exactly one report of how it went.
-/

namespace GroupStore

/-! ### Failures -/

/-- Why a start fails. -/
inductive StartupError where
  /-- The session could not be obtained. -/
  | unreachable (cause : SessionError)
  /-- A statement was refused; an owned session is closed then, which may fail as well. -/
  | refused (kind : StatementKind) (cause : SessionError) (closing : Option SessionError)
deriving DecidableEq

/-- The wording of a failed start. -/
def StartupError.message : StartupError → String
  | unreachable cause => cause.message
  | refused kind cause closing =>
    "failed to prepare " ++ kind.label ++ " statement: " ++ cause.message
      ++ match closing with
        | none => ""
        | some failure => "; close failed: " ++ failure.message

/-- Why a repository call fails. -/
inductive RepositoryError where
  | storage (cause : SessionError)
  | encode (text : String)
  | decode (text : String)
  | startup (cause : StartupError)
  | invalid (cause : SettingsError)
deriving DecidableEq

/-- The wording of a failed call. -/
def RepositoryError.message : RepositoryError → String
  | storage cause => "storage error: " ++ cause.message
  | encode text => "encode error: " ++ text
  | decode text => "decode error: " ++ text
  | startup cause => "startup error: " ++ cause.message
  | invalid cause => "invalid repository settings: " ++ cause.message

/-- A codec's failure as the call reports it. -/
def RepositoryError.ofCodec : CodecError → RepositoryError
  | .encode text => encode text
  | .decode text => decode text

/-- A failed read of a row as the call reports it. -/
def RepositoryError.ofRow (e : RowError) : RepositoryError := storage e.toSessionError

/-! ### Repositories -/

/-- Where a repository's session comes from. -/
inductive Source (S : Type) where
  /-- A session that belongs to someone else and is never closed here. -/
  | borrowed (session : S)
  /-- A session obtained at start and closed at stop. -/
  | owned

/-- Whether the session is the repository's own. -/
def Source.isOwned {S : Type} : Source S → Bool
  | .borrowed _ => false
  | .owned => true

/-- A stopped repository. -/
structure Repository (S α : Type) where
  /-- Table, columns and statements. -/
  schema : Schema
  /-- How results are stored. -/
  codec : Codec α
  /-- Where the session comes from. -/
  source : Source S

/-- The five statements of a started repository. -/
structure Statements where
  insert : Prepared
  selectByKey : Prepared
  deleteByKey : Prepared
  selectKeyAndId : Prepared
  conditionalDelete : Prepared

/-- The statements in the order in which they were prepared. -/
def Statements.toList (s : Statements) : List Prepared :=
  [s.insert, s.selectByKey, s.deleteByKey, s.selectKeyAndId, s.conditionalDelete]

/-- A started repository. -/
structure Running (S α : Type) where
  /-- The repository. -/
  repository : Repository S α
  /-- Its session. -/
  session : S
  /-- Its prepared statements. -/
  statements : Statements

/-- The group key and the exchange id of a stored result. -/
structure Identity where
  aggregationKey : String
  exchangeId : String
deriving DecidableEq

/-- Results are ordered by group, then by exchange id. -/
instance : Ord Identity :=
  ⟨fun a b => (compare a.aggregationKey b.aggregationKey).then (compare a.exchangeId b.exchangeId)⟩

/-- What a confirmation did. -/
structure Confirmation where
  /-- Results that the scan found under the id. -/
  matched : Nat
  /-- Results dropped. -/
  deleted : Nat
  /-- Results that no longer carried the id when it was their turn. -/
  stale : Nat
deriving DecidableEq

/-- The counters as they are reported. -/
def Confirmation.detail (c : Confirmation) : String :=
  "matched=" ++ toString c.matched ++ " deleted=" ++ toString c.deleted ++ " stale="
    ++ toString c.stale

/-- Count one answered delete. -/
def Confirmation.count (c : Confirmation) (took : Bool) : Confirmation :=
  if took then { c with matched := c.matched + 1, deleted := c.deleted + 1 }
  else { c with matched := c.matched + 1, stale := c.stale + 1 }

/-- How a confirmation went: nothing matched, nothing was left to drop, or something was. -/
def Confirmation.outcome (c : Confirmation) : Audit.Outcome :=
  if c.matched = 0 then .notFound else if c.deleted = 0 then .stale else .ok

namespace Repository

variable {S α β : Type}

/-- A repository over settings that pass validation. -/
def ofSettings (settings : Settings) (codec : Codec α) (source : Source S) :
    Except RepositoryError (Repository S α) :=
  match Schema.ofSettings settings with
  | .ok schema => .ok ⟨schema, codec, source⟩
  | .error e => .error (.invalid e)

/-- The table as it is written in reports. -/
def table (r : Repository S α) : String := r.schema.settings.table.text

/-! ### Reports -/

/-- The report of a call: a failure with its wording, a success as `onOk` describes it. -/
def report (r : Repository S α) (operation : Audit.Operation) (key : Option String)
    (id : Option String) (onOk : β → Audit.Outcome × Option String) :
    Except RepositoryError β → Audit.Event
  | .error e => .call r.table operation key id .error (some e.message)
  | .ok b => .call r.table operation key id (onOk b).1 (onOk b).2

/-- Report the end of a call and hand its result on. -/
def reported (event : Except RepositoryError β → Audit.Event)
    (p : Program S (Except RepositoryError β)) : Program S (Except RepositoryError β) :=
  p.bind fun result => .record (event result) (.done result)

/-- A success that needs no detail. -/
def plainly (_ : β) : Audit.Outcome × Option String := (.ok, none)

/-! ### Starting -/

/-- Prepare the statement of one kind. -/
def prepareOne (r : Repository S α) (session : S) (kind : StatementKind) :
    Program S (Except (StatementKind × SessionError) Prepared) :=
  .prepare session (r.schema.template kind) fun
    | .ok prepared => .done (.ok prepared)
    | .error e => .done (.error (kind, e))

/-- Prepare the five statements in order, up to the first that is refused. -/
def prepareAll (r : Repository S α) (session : S) :
    Program S (Except (StatementKind × SessionError) Statements) :=
  (r.prepareOne session .insert).andThen fun insert =>
  (r.prepareOne session .selectByKey).andThen fun selectByKey =>
  (r.prepareOne session .deleteByKey).andThen fun deleteByKey =>
  (r.prepareOne session .selectKeyAndId).andThen fun selectKeyAndId =>
  (r.prepareOne session .conditionalDelete).andThen fun conditionalDelete =>
  .done (.ok ⟨insert, selectByKey, deleteByKey, selectKeyAndId, conditionalDelete⟩)

/-- Report each prepared statement, then go on. -/
def announce (r : Repository S α) : List Prepared → Program S β → Program S β
  | [], next => next
  | p :: rest, next =>
    .record (.statement r.table p.template.kind p.native p.template.consistency)
      (r.announce rest next)

/-- Obtain the session. -/
def obtain (r : Repository S α) : Program S (Except RepositoryError S) :=
  match r.source with
  | .borrowed session => .done (.ok session)
  | .owned => .connect fun
    | .ok session => .done (.ok session)
    | .error e => .done (.error (.startup (.unreachable e)))

/-- Give up a session on which a statement was refused; one's own session is closed. -/
def giveUp (r : Repository S α) (session : S) (kind : StatementKind) (cause : SessionError) :
    Program S (Except RepositoryError β) :=
  if r.source.isOwned then
    .close session fun
      | .ok () => .done (.error (.startup (.refused kind cause none)))
      | .error e => .done (.error (.startup (.refused kind cause (some e))))
  else .done (.error (.startup (.refused kind cause none)))

/-- Prepare the statements on a session and report them. -/
def startOn (r : Repository S α) (session : S) :
    Program S (Except RepositoryError (Running S α)) :=
  (r.prepareAll session).bind fun
    | .error (kind, cause) => r.giveUp session kind cause
    | .ok statements =>
      r.announce statements.toList (.done (.ok ⟨r, session, statements⟩))

/-- Start the repository. -/
def start (r : Repository S α) : Program S (Except RepositoryError (Running S α)) :=
  reported (r.report .start none none plainly) (r.obtain.andThen r.startOn)

end Repository

/-! ### Calls -/

namespace Running

variable {S α : Type}

/-- The schema of the repository. -/
def schema (r : Running S α) : Schema := r.repository.schema

/-- Bind values to a statement and execute it. -/
def submit (r : Running S α) (statement : Prepared) (values : List Value) :
    Program S (Except RepositoryError ResultSet) :=
  match statement.bind values with
  | .error e => .done (.error (.storage (.execution e.message)))
  | .ok bound => .execute r.session bound fun
    | .ok rows => .done (.ok rows)
    | .error e => .done (.error (.storage e))

/-- Store a result, replacing the group's former one. -/
def insertResult (r : Running S α) (key : String) (value : α) :
    Program S (Except RepositoryError Unit) :=
  match r.repository.codec.marshal key value with
  | .error e => .done (.error (.ofCodec e))
  | .ok payload =>
    let id := r.repository.codec.exchangeId value
    (r.submit r.statements.insert (r.schema.composeKey key ++ [.text id, .blob payload])).andThen
      fun _ => .done (.ok ())

/-- The result in the first of the returned rows. -/
def readResult (r : Running S α) (key : String) (rows : ResultSet) :
    Except RepositoryError (Option α) :=
  match rows.rows with
  | [] => .ok none
  | row :: _ =>
    match row.blob r.schema.payloadColumn.text with
    | .error e => .error (.ofRow e)
    | .ok payload =>
      match r.repository.codec.unmarshal key payload with
      | .error e => .error (.ofCodec e)
      | .ok value => .ok (some value)

/-- Read the group's result. -/
def selectResult (r : Running S α) (key : String) :
    Program S (Except RepositoryError (Option α)) :=
  (r.submit r.statements.selectByKey (r.schema.composeKey key)).andThen fun rows =>
    .done (r.readResult key rows)

/-- Drop the group's result. -/
def deleteResult (r : Running S α) (key : String) : Program S (Except RepositoryError Unit) :=
  (r.submit r.statements.deleteByKey (r.schema.composeKey key)).andThen fun _ => .done (.ok ())

/-- The key that a scanned row claims: each prefix column of the row, or this repository's value
where the row has none, then the group key. -/
def claimedKey (s : Schema) (row : Row) (key : String) : List Value :=
  s.settings.fixedPrefix.entries.map (fun entry => (row.get? entry.column.text).getD entry.value)
    ++ [.text key]

/-- The identity in a scanned row; none for a row under the prefix of another repository. -/
def readIdentity (s : Schema) (row : Row) : Except RowError (Option Identity) := do
  let key ← row.text s.keyColumn.text
  match s.decomposeKey (claimedKey s row key) with
  | none => return none
  | some key =>
    let id ← row.text s.exchangeIdColumn.text
    return some ⟨key, id⟩

/-- The identities in scanned rows, in row order. -/
def readIdentities (s : Schema) : List Row → Except RowError (List Identity)
  | [] => .ok []
  | row :: rest => do
    let identity ← readIdentity s row
    let others ← readIdentities s rest
    return identity.toList ++ others

/-- Scan the rows under the prefix. -/
def scanIdentities (r : Running S α) : Program S (Except RepositoryError (List Identity)) :=
  (r.submit r.statements.selectKeyAndId r.schema.prefixValues).andThen fun rows =>
    match readIdentities r.schema rows.rows with
    | .ok identities => .done (.ok identities)
    | .error e => .done (.error (.ofRow e))

/-- Whether a conditional delete took effect. -/
def readApplied (rows : ResultSet) : Except RepositoryError Bool :=
  match rows.applied? with
  | .error e => .error (.ofRow e)
  | .ok none => .error (.storage (.execution "conditional delete returned no applied flag"))
  | .ok (some took) => .ok took

/-- Drop the results of some groups while they carry the id, one after the other. -/
def dropEach (r : Running S α) (id : String) :
    List String → Confirmation → Program S (Except RepositoryError Confirmation)
  | [], counters => .done (.ok counters)
  | key :: rest, counters =>
    (r.submit r.statements.conditionalDelete (r.schema.composeKey key ++ [.text id])).andThen
      fun rows =>
        match readApplied rows with
        | .error e => .done (.error e)
        | .ok took => r.dropEach id rest (counters.count took)

/-- Drop every result that a scan finds under the id. -/
def confirmMatches (r : Running S α) (id : String) :
    Program S (Except RepositoryError Confirmation) :=
  r.scanIdentities.andThen fun identities =>
    let keys := (identities.filter fun identity => identity.exchangeId = id).map
      Identity.aggregationKey
    r.dropEach id keys ⟨0, 0, 0⟩

/-! ### The public calls -/

/-- Store a result for a group and return it. -/
def add (r : Running S α) (key : String) (value : α) : Program S (Except RepositoryError α) :=
  (Repository.reported
    (r.repository.report .add (some key) (some (r.repository.codec.exchangeId value))
      Repository.plainly)
    (r.insertResult key value)).andThen fun _ => .done (.ok value)

/-- The report of a read; it names the id of the result that was found. -/
def reportGet (r : Running S α) (key : String) (result : Except RepositoryError (Option α)) :
    Audit.Event :=
  let id := match result with
    | .ok (some value) => some (r.repository.codec.exchangeId value)
    | _ => none
  r.repository.report .get (some key) id
    (fun found => (if found.isSome then .ok else .notFound, none)) result

/-- Read the result of a group. -/
def get (r : Running S α) (key : String) : Program S (Except RepositoryError (Option α)) :=
  Repository.reported (r.reportGet key) (r.selectResult key)

/-- Drop every result that carries the id. -/
def confirm (r : Running S α) (id : String) : Program S (Except RepositoryError Confirmation) :=
  Repository.reported
    (r.repository.report .confirm none (some id) fun c => (c.outcome, some c.detail))
    (r.confirmMatches id)

/-- Drop the result of a group. -/
def remove (r : Running S α) (key : String) : Program S (Except RepositoryError Unit) :=
  Repository.reported (r.repository.report .remove (some key) none Repository.plainly)
    (r.deleteResult key)

/-- The groups that have a result, in order, each once. -/
def getKeys (r : Running S α) : Program S (Except RepositoryError (List String)) :=
  Repository.reported (r.repository.report .getKeys none none Repository.plainly)
    (r.scanIdentities.andThen fun identities =>
      .done (.ok ((Sorted.ofPairs (identities.map fun i => (i.aggregationKey, ()))).map Prod.fst)))

/-- The identities of all results, in the session's row order. -/
def scan (r : Running S α) : Program S (Except RepositoryError (List Identity)) :=
  Repository.reported (r.repository.report .scan none none Repository.plainly) r.scanIdentities

/-- Stop the repository; only its own session is closed. -/
def stop (r : Running S α) : Program S (Except RepositoryError (Repository S α)) :=
  (Repository.reported (r.repository.report .stop none none Repository.plainly)
    (if r.repository.source.isOwned then
      .close r.session fun
        | .ok () => .done (.ok ())
        | .error e => .done (.error (.storage e))
    else .done (.ok ()))).andThen fun _ => .done (.ok r.repository)

end Running

end GroupStore

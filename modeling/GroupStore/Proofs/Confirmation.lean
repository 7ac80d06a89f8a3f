import GroupStore.Proofs.Confinement
import GroupStore.Proofs.Trace

/-!
# What a confirmation executes, and how it counts

A confirmation is a scan and then a loop of conditional deletes that stops at the first answer it
cannot use.  A session may answer each of these with anything, and its statements need not be
those that it was asked to prepare; what the confirmation executes, when it gives up and what it
counts are decided by the answers alone.

* `Schema.Readable`, `Answered.Tells` — answers that a scan and a delete can use;
* `Schema.readIdentities_ok_iff`, `Running.readApplied_eq_ok_iff` — no others are used;
* `Running.dropEach_trace` — the loop, for any groups and any counters;
* `Running.Accounts`, `confirm_accounts` — the confirmation as a whole.
-/

namespace GroupStore

variable {σ S α : Type}

/-! ### Answers that can be used -/

theorem Row.text_eq_ok_iff {row : Row} {column text : String} :
    row.text column = .ok text ↔ row.get? column = some (.text text) := by
  unfold Row.text Row.read
  cases row.get? column with
  | none => simp
  | some v => cases v <;> simp [Value.text?]

theorem Row.boolean_eq_ok_iff {row : Row} {column : String} {flag : Bool} :
    row.boolean column = .ok flag ↔ row.get? column = some (.boolean flag) := by
  unfold Row.boolean Row.read
  cases row.get? column with
  | none => simp
  | some v => cases v <;> simp [Value.boolean?]

/-- Every row names its group, and every own one its exchange id. -/
def Schema.Readable (s : Schema) (rows : ResultSet) : Prop :=
  ∀ row ∈ rows.rows, (∃ key, row.get? s.keyColumn.text = some (.text key)) ∧
    (s.Owns row → ∃ id, row.get? s.exchangeIdColumn.text = some (.text id))

/-- The first row of an answer says whether a conditional statement took effect. -/
def Answered.Tells (took : Bool) (e : Answered S) : Prop :=
  ∃ row others, e.answer = .ok ⟨row :: others⟩ ∧ row.get? appliedColumn = some (.boolean took)

theorem Schema.readIdentity_ok_iff (s : Schema) (row : Row) :
    (∃ found, Running.readIdentity s row = .ok found) ↔
      (∃ key, row.get? s.keyColumn.text = some (.text key)) ∧
        (s.Owns row → ∃ id, row.get? s.exchangeIdColumn.text = some (.text id)) := by
  simp only [← Row.text_eq_ok_iff]
  cases named : row.text s.keyColumn.text with
  | error e => simp [s.readIdentity_unnamed named]
  | ok key =>
    by_cases own : s.Owns row
    · rw [s.readIdentity_own named own]
      cases row.text s.exchangeIdColumn.text with
      | error e => simp [own, Except.map]
      | ok id => simp [Except.map]
    · simp [s.readIdentity_foreign named own, own]

/-- A scan can use an answer iff it can use each of its rows. -/
theorem Schema.readIdentities_ok_iff (s : Schema) (rows : ResultSet) :
    (∃ identities, Running.readIdentities s rows.rows = .ok identities) ↔ s.Readable rows := by
  obtain ⟨rows⟩ := rows
  show _ ↔ ∀ row ∈ rows, _
  induction rows with
  | nil => simp [Running.readIdentities]
  | cons row rest ih =>
    rw [List.forall_mem_cons, ← s.readIdentity_ok_iff row, ← ih]
    show (∃ identities, (Running.readIdentity s row).bind _ = .ok identities) ↔ _
    cases Running.readIdentity s row with
    | error e => simp [Except.bind]
    | ok found =>
      show (∃ identities, (Running.readIdentities s rest).bind _ = .ok identities) ↔ _
      cases Running.readIdentities s rest with
      | error e => simp [Except.bind]
      | ok others => exact ⟨fun _ => ⟨⟨found, rfl⟩, ⟨others, rfl⟩⟩, fun _ => ⟨_, rfl⟩⟩

/-- A delete can use an answer iff its first row has the flag. -/
theorem Running.readApplied_eq_ok_iff {rows : ResultSet} {took : Bool} :
    readApplied rows = .ok took ↔
      ∃ row others, rows = ⟨row :: others⟩ ∧ row.get? appliedColumn = some (.boolean took) := by
  obtain ⟨rows⟩ := rows
  cases rows with
  | nil => simp [readApplied, ResultSet.applied?]
  | cons row others =>
    have foundIff : (∃ row' others', (⟨row :: others⟩ : ResultSet) = ⟨row' :: others'⟩ ∧
        row'.get? appliedColumn = some (.boolean took)) ↔ row.boolean appliedColumn = .ok took := by
      rw [Row.boolean_eq_ok_iff]
      constructor
      · rintro ⟨row', others', rowsEq, flag⟩
        cases rowsEq
        exact flag
      · exact fun flag => ⟨row, others, rfl, flag⟩
    rw [foundIff]
    simp only [readApplied, ResultSet.applied?]
    cases row.boolean appliedColumn <;> simp [Except.map]

/-- What cannot be used is a failure of the storage. -/
theorem Running.readApplied_error {rows : ResultSet} {e : RepositoryError}
    (failed : readApplied rows = .error e) : ∃ cause, e = .storage cause := by
  unfold readApplied at failed
  split at failed <;> cases failed <;> exact ⟨_, rfl⟩

theorem Answered.took?_eq_some_iff {e : Answered S} {took : Bool} :
    e.took? = some took ↔ e.Tells took := by
  unfold took? Tells
  cases e.answer with
  | error cause => simp
  | ok rows =>
    simp only [Except.ok.injEq, ← Running.readApplied_eq_ok_iff]
    cases Running.readApplied rows <;> simp [Except.toOption]

instance (took : Bool) (e : Answered S) : Decidable (e.Tells took) :=
  decidable_of_iff _ Answered.took?_eq_some_iff

/-- The deletes that are tallied are those whose answers tell it. -/
theorem Running.tally_eq (took : Bool) (past : List (Answered S)) :
    tally took past = past.countP fun e => e.Tells took := by
  refine List.countP_congr fun e _ => ?_
  simp [Answered.took?_eq_some_iff]

/-- Where every answer tells, it tells one of two things. -/
theorem Running.tally_add {past : List (Answered S)} (all : ∀ e ∈ past, ∃ took, e.Tells took) :
    tally true past + tally false past = past.length := by
  induction past with
  | nil => rfl
  | cons e rest ih =>
    obtain ⟨⟨took, tells⟩, later⟩ := List.forall_mem_cons.mp all
    have rest := ih later
    simp only [tally, List.countP_cons, Answered.took?_eq_some_iff.mpr tells,
      List.length_cons] at rest ⊢
    cases took <;> simp <;> omega

/-! ### One statement -/

/-- An execution of a repository's statement of one kind, with some values. -/
def Answered.Runs (r : Running S α) (kind : StatementKind) (values : List Value)
    (e : Answered S) : Prop :=
  e.session = r.session ∧ e.bound.statement = r.statements.of kind ∧ e.bound.values = values

namespace Running

variable {r : Running S α} {h : Host σ S}

/-- A statement is executed once and its answer is the result, unless it does not take the
values. -/
theorem submit_trace (kind : StatementKind) (values : List Value) (w : σ) :
    (∃ cause, (r.statements.of kind).bind values = .error cause ∧
      (r.submit (r.statements.of kind) values).trace h w = [] ∧
      (r.submit (r.statements.of kind) values).run h w =
        (.error (.storage (.execution cause.message)), w)) ∨
    ∃ e w', e.Runs r kind values ∧
      (r.submit (r.statements.of kind) values).trace h w = [.execute e] ∧
      (r.submit (r.statements.of kind) values).run h w = (e.reply, w') := by
  cases bound : (r.statements.of kind).bind values with
  | error cause =>
    unfold submit
    rw [bound]
    exact .inl ⟨cause, rfl, rfl, rfl⟩
  | ok b =>
    obtain ⟨statement, own⟩ := Prepared.bind_ok bound
    refine .inr ⟨⟨r.session, b, (h.execute r.session b w).1⟩, (h.execute r.session b w).2,
      ⟨rfl, statement, own⟩, ?_, submit_run_of_bind bound h w⟩
    unfold submit
    rw [bound]
    show [_] ++ _ = _
    cases (h.execute r.session b w).1 <;> rfl

/-- A statement of the schema takes the values that belong to it. -/
theorem Faithful.takes (faithful : r.Faithful) (kind : StatementKind) {values : List Value}
    (kinds : values.map Value.kind = (r.schema.parameterSpecs kind).map ColumnSpec.kind)
    (cause : BindError) : (r.statements.of kind).bind values ≠ .error cause := by
  obtain ⟨b, bound, -⟩ := Prepared.exists_bind (faithful kind) kinds
  rw [bound]
  exact nofun

/-- A failed answer is a failure of the storage. -/
theorem reply_error {e : Answered S} {cause : RepositoryError} (failed : e.reply = .error cause) :
    ∃ inner, cause = .storage inner := by
  unfold Answered.reply at failed
  cases answer : e.answer with
  | error inner =>
    rw [answer] at failed
    cases failed
    exact ⟨inner, rfl⟩
  | ok rows =>
    rw [answer] at failed
    cases failed

/-! ### The deletes -/

/-- The deletes of a confirmation over some groups, and how they end: all are answered and
counted; or one answer does not say whether it took effect, and nothing follows it; or the
statement does not take its values. -/
def DropsEach (r : Running S α) (id : String) (keys : List String) (counters : Confirmation)
    (drops : List (Answered S)) (result : Except RepositoryError Confirmation) : Prop :=
  List.Forall₂ (fun key e => e.Runs r .conditionalDelete (r.schema.composeKey key ++ [.text id]))
      (keys.take drops.length) drops ∧
    (((∀ d ∈ drops, ∃ took, d.Tells took) ∧ drops.length = keys.length ∧
        result = .ok ⟨counters.matched + keys.length, counters.deleted + tally true drops,
          counters.stale + tally false drops⟩) ∨
      ∃ cause, result = .error (.storage cause) ∧
        ((∃ before last, drops = before ++ [last] ∧ (∀ d ∈ before, ∃ took, d.Tells took) ∧
            ∀ took, ¬last.Tells took) ∨
          ((∀ d ∈ drops, ∃ took, d.Tells took) ∧
            ∃ key refusal, r.statements.conditionalDelete.bind
              (r.schema.composeKey key ++ [.text id]) = .error refusal)))

/-- A first delete whose answer is used is counted, and the others follow. -/
theorem DropsEach.cons {id key : String} {keys : List String} {counters : Confirmation}
    {e : Answered S} {drops : List (Answered S)} {result : Except RepositoryError Confirmation}
    {took : Bool}
    (first : e.Runs r .conditionalDelete (r.schema.composeKey key ++ [.text id]))
    (tells : e.Tells took) (later : r.DropsEach id keys (counters.count took) drops result) :
    r.DropsEach id (key :: keys) counters (e :: drops) result := by
  obtain ⟨each, ends⟩ := later
  refine ⟨.cons first each, ?_⟩
  have counted (b : Bool) : tally b (e :: drops) = tally b drops + if took = b then 1 else 0 := by
    simp [tally, List.countP_cons, Answered.took?_eq_some_iff.mpr tells]
  have known {said : List (Answered S)} (all : ∀ d ∈ said, ∃ took, d.Tells took) :
      ∀ d ∈ e :: said, ∃ took, d.Tells took :=
    List.forall_mem_cons.mpr ⟨⟨took, tells⟩, all⟩
  rcases ends with ⟨all, length, ok⟩ |
    ⟨cause, failed, ⟨before, last, split, all, silent⟩ | ⟨all, refused⟩⟩
  · refine .inl ⟨known all, congrArg Nat.succ length, ?_⟩
    rw [ok, counted, counted]
    cases took <;> simp [Confirmation.count, Nat.add_assoc, Nat.add_comm 1]
  · refine .inr ⟨cause, failed, .inl ⟨e :: before, last, ?_, known all, silent⟩⟩
    rw [split, List.cons_append]
  · exact .inr ⟨cause, failed, .inr ⟨known all, refused⟩⟩

/-- The loop of deletes executes nothing else, whatever it is answered. -/
theorem dropEach_trace (id : String) (keys : List String) (counters : Confirmation) (w : σ) :
    ∃ drops, (r.dropEach id keys counters).trace h w = drops.map .execute ∧
      r.DropsEach id keys counters drops ((r.dropEach id keys counters).run h w).1 := by
  -- One group after the other; the counters and the state are those left by the groups before.
  induction keys generalizing counters w with
  | nil => exact ⟨[], rfl, .nil, .inl ⟨fun d member => absurd member List.not_mem_nil, rfl, rfl⟩⟩
  | cons key rest ih =>
    rw [dropEach_cons]
    rcases submit_trace (r := r) (h := h) .conditionalDelete
      (r.schema.composeKey key ++ [.text id]) w with
      ⟨refusal, refused, nothing, run⟩ | ⟨e, w', own, once, run⟩
    · refine ⟨[], ?_, .nil, ?_⟩
      · exact (Program.trace_andThen_error run).trans nothing
      · refine .inr ⟨.execution refusal.message, ?_, .inr
          ⟨fun d member => absurd member List.not_mem_nil, key, refusal, refused⟩⟩
        exact congrArg Prod.fst (Program.run_andThen_error run)
    -- The delete was executed: an answer that cannot be used ends the loop.
    have stopped {cause : RepositoryError} {past : List (Answered S)}
        {result : Except RepositoryError Confirmation} (storage : ∃ inner, cause = .storage inner)
        (silent : ∀ took, ¬e.Tells took) (alone : past = [e]) (failed : result = .error cause) :
        r.DropsEach id (key :: rest) counters past result := by
      obtain ⟨inner, rfl⟩ := storage
      rw [alone]
      exact ⟨.cons own .nil, .inr ⟨inner, failed, .inl
        ⟨[], e, rfl, fun d member => absurd member List.not_mem_nil, silent⟩⟩⟩
    cases reply : e.reply with
    | error cause =>
      rw [reply] at run
      refine ⟨[e], (Program.trace_andThen_error run).trans once, stopped (reply_error reply) ?_ rfl
        (congrArg Prod.fst (Program.run_andThen_error run))⟩
      rintro took ⟨row, others, answer, -⟩
      rw [Answered.reply, answer] at reply
      cases reply
    | ok rows =>
      rw [reply] at run
      rw [Program.trace_andThen_ok run, Program.run_andThen_ok run]
      have answer : e.answer = .ok rows := Answered.answer_of_reply reply
      have tells (took : Bool) : e.Tells took ↔ readApplied rows = .ok took := by
        rw [readApplied_eq_ok_iff, Answered.Tells, answer]
        simp only [Except.ok.injEq]
      cases applied : readApplied rows with
      | error cause =>
        refine ⟨[e], ?_, stopped (readApplied_error applied) (fun took => ?_) rfl rfl⟩
        · exact (List.append_nil _).trans once
        · rw [tells, applied]
          intro clash
          cases clash
      | ok took =>
        obtain ⟨drops, trace, later⟩ := ih (counters.count took) w'
        refine ⟨e :: drops, ?_, later.cons own ((tells took).mpr applied)⟩
        show _ ++ (r.dropEach id rest (counters.count took)).trace h w' = _
        rw [once, trace]
        rfl

/-! ### The scan -/

/-- A scan that cannot use its answer fails, and the storage is to blame. -/
theorem scanned_error {s : Schema} {e : Answered S} {cause : RepositoryError}
    (failed : scanned s e = .error cause) :
    (∃ inner, cause = .storage inner) ∧ ∀ rows, e.answer = .ok rows → ¬s.Readable rows := by
  unfold scanned at failed
  cases reply : e.reply with
  | error cause' =>
    rw [reply] at failed
    cases failed
    refine ⟨reply_error reply, fun rows answer => ?_⟩
    rw [Answered.reply, answer] at reply
    cases reply
  | ok rows =>
    rw [reply] at failed
    simp only at failed
    cases read : readIdentities s rows.rows with
    | ok identities =>
      rw [read] at failed
      cases failed
    | error e' =>
      rw [read] at failed
      cases failed
      refine ⟨⟨_, rfl⟩, fun rows' answer readable => ?_⟩
      rw [Answered.answer_of_reply reply] at answer
      cases answer
      obtain ⟨identities, found⟩ := (s.readIdentities_ok_iff rows).mpr readable
      rw [read] at found
      cases found

/-- A scan that found identities could read its answer. -/
theorem readable_of_scanned {s : Schema} {e : Answered S} {identities : List Identity}
    {rows : ResultSet} (found : scanned s e = .ok identities) (answer : e.answer = .ok rows) :
    s.Readable rows := by
  rw [← s.readIdentities_ok_iff]
  cases read : readIdentities s rows.rows with
  | ok identities' => exact ⟨identities', rfl⟩
  | error e' =>
    simp only [scanned, Answered.reply, answer, Except.mapError, read] at found
    cases found

/-- A scan is executed once, unless its statement does not take the prefix. -/
theorem scanIdentities_trace (w : σ) :
    (∃ cause refusal, r.statements.selectKeyAndId.bind r.schema.prefixValues = .error refusal ∧
      r.scanIdentities.trace h w = [] ∧
      r.scanIdentities.run h w = (.error (.storage cause), w)) ∨
    ∃ e w', e.Runs r .selectKeyAndId r.schema.prefixValues ∧
      r.scanIdentities.trace h w = [.execute e] ∧
      r.scanIdentities.run h w = (scanned r.schema e, w') := by
  rw [scanIdentities_eq]
  rcases submit_trace (r := r) (h := h) .selectKeyAndId r.schema.prefixValues w with
    ⟨refusal, refused, nothing, run⟩ | ⟨e, w', own, once, run⟩
  · refine .inl ⟨.execution refusal.message, refusal, refused, ?_, ?_⟩
    · exact (Program.trace_andThen_error run).trans nothing
    · exact Program.run_andThen_error run
  · refine .inr ⟨e, w', own, ?_, ?_⟩
    · rw [Program.andThen, Program.trace_bind, once, run]
      cases e.reply <;> rfl
    · rw [Program.andThen, Program.run_bind, run]
      unfold scanned
      cases e.reply <;> rfl

/-! ### The confirmation -/

/-- The execution of the conditional delete for the group that a row names. -/
def DropsRow (r : Running S α) (id : String) (row : Row) (e : Answered S) : Prop :=
  ∃ key, row.get? r.schema.keyColumn.text = some (.text key) ∧
    e.Runs r .conditionalDelete (r.schema.composeKey key ++ [.text id])

/-- What a confirmation that executes `past` and comes to `result` accounts for. -/
structure Accounts (r : Running S α) (id : String) (past : List (Answered S))
    (result : Except RepositoryError Confirmation) : Prop where
  /-- A scan under the own prefix, and then one conditional delete for each row of its answer that
  is an own one and carries the id, in the order of the rows. -/
  executes : past = [] ∨ ∃ scan drops, past = scan :: drops ∧
    scan.Runs r .selectKeyAndId r.schema.prefixValues ∧
    (drops = [] ∨ ∃ rows, scan.answer = .ok rows ∧ r.schema.Readable rows ∧
      List.Forall₂ (r.DropsRow id) ((r.schema.carrying id rows).take drops.length) drops)
  /-- Nothing at all is executed only if the statement of the scan does not take the prefix. -/
  refused : past = [] →
    (∃ refusal, r.statements.selectKeyAndId.bind r.schema.prefixValues = .error refusal) ∧
    ∃ cause, result = .error (.storage cause)
  /-- A success has executed them all, and counts the answers. -/
  counts : ∀ c, result = .ok c → ∃ scan drops rows, past = scan :: drops ∧
    scan.answer = .ok rows ∧ r.schema.Readable rows ∧
    List.Forall₂ (r.DropsRow id) (r.schema.carrying id rows) drops ∧
    (∀ d ∈ drops, ∃ took, d.Tells took) ∧
    c.matched = (r.schema.carrying id rows).length ∧ c.matched = c.deleted + c.stale ∧
    c.deleted = drops.countP fun d => d.Tells true
  /-- A scan that fails, or that cannot be read, is all that is executed. -/
  unreadable : ∀ scan drops, past = scan :: drops →
    (∀ rows, scan.answer = .ok rows → ¬r.schema.Readable rows) →
    drops = [] ∧ ∃ cause, result = .error (.storage cause)
  /-- A delete that fails, or that does not say whether it took effect, is the last. -/
  silent : ∀ scan before d after, past = scan :: (before ++ d :: after) →
    (∀ took, ¬d.Tells took) → after = [] ∧ ∃ cause, result = .error (.storage cause)
  /-- Whatever fails, it is the storage. -/
  fails : ∀ e, result = .error e → ∃ cause, e = .storage cause
  /-- Statements that were prepared as asked are never in the way. -/
  completes : r.Faithful → ∃ scan drops, past = scan :: drops ∧
    ∀ rows, scan.answer = .ok rows → r.schema.Readable rows →
      (∀ d ∈ drops, ∃ took, d.Tells took) → ∃ c, result = .ok c

variable {id : String} {scan : Answered S} {result : Except RepositoryError Confirmation}

/-- Nothing was executed, because the statement of the scan does not take the prefix. -/
theorem Accounts.unscanned {cause : SessionError} {refusal : BindError}
    (refused : r.statements.selectKeyAndId.bind r.schema.prefixValues = .error refusal) :
    r.Accounts id [] (.error (.storage cause)) where
  executes := .inl rfl
  refused _ := ⟨⟨refusal, refused⟩, cause, rfl⟩
  counts _ clash := nomatch clash
  unreadable _ _ clash := nomatch clash
  silent _ _ _ _ clash := nomatch clash
  fails _ causeEq := ⟨cause, (Except.error.inj causeEq).symm⟩
  completes faithful :=
    absurd refused (faithful.takes .selectKeyAndId r.schema.prefixValues_fits refusal)

/-- The scan could not be used. -/
theorem Accounts.scanned {cause : SessionError}
    (own : scan.Runs r .selectKeyAndId r.schema.prefixValues)
    (unread : ∀ rows, scan.answer = .ok rows → ¬r.schema.Readable rows) :
    r.Accounts id [scan] (.error (.storage cause)) where
  executes := .inr ⟨scan, [], rfl, own, .inl rfl⟩
  refused clash := nomatch clash
  counts _ clash := nomatch clash
  unreadable _ _ consEq _ := ⟨(List.cons.inj consEq).2.symm, cause, rfl⟩
  silent _ before _ _ consEq := by
    have nothing := (List.cons.inj consEq).2
    cases before <;> cases nothing
  fails _ causeEq := ⟨cause, (Except.error.inj causeEq).symm⟩
  completes _ := ⟨scan, [], rfl, fun rows answer readable => absurd readable (unread rows answer)⟩

/-- The scan found identities, and the deletes of those that carry the id ended somehow. -/
theorem Accounts.dropped {rows : ResultSet} {keys : List String} {drops : List (Answered S)}
    (own : scan.Runs r .selectKeyAndId r.schema.prefixValues) (answer : scan.answer = .ok rows)
    (readable : r.schema.Readable rows)
    (carried : List.Forall₂ (fun row key => row.text r.schema.keyColumn.text = .ok key)
      (r.schema.carrying id rows) keys)
    (deletes : r.DropsEach id keys ⟨0, 0, 0⟩ drops result) :
    r.Accounts id (scan :: drops) result := by
  obtain ⟨each, ends⟩ := deletes
  have named : List.Forall₂ (r.DropsRow id) ((r.schema.carrying id rows).take drops.length)
      drops := by
    refine (forall₂_through (List.forall₂_take drops.length carried) each).imp ?_
    rintro row d ⟨key, named, runs⟩
    exact ⟨key, Row.text_eq_ok_iff.mp named, runs⟩
  refine ⟨.inr ⟨scan, drops, rfl, own, .inr ⟨rows, answer, readable, named⟩⟩, nofun,
    ?_, ?_, ?_, ?_, ?_⟩
  · rintro c rfl
    rcases ends with ⟨all, length, countersEq⟩ | ⟨cause, failed, -⟩
    · refine ⟨scan, drops, rows, rfl, answer, readable, ?_, all, ?_⟩
      · rwa [length, ← carried.length_eq, List.take_length] at named
      · cases countersEq
        rw [← tally_eq, carried.length_eq]
        simp only [Nat.zero_add, tally_add all, length, and_self]
    · cases failed
  · rintro scan' drops' consEq unread
    cases consEq
    exact absurd readable (unread rows answer)
  · rintro scan' before d after consEq silent
    cases consEq
    have member : d ∈ before ++ d :: after := List.mem_append_right _ List.mem_cons_self
    have unheard {said : List (Answered S)} (all : ∀ e ∈ said, ∃ took, e.Tells took) : d ∉ said :=
      fun inside => (all d inside).elim silent
    rcases ends with ⟨all, -⟩ | ⟨cause, failed, ⟨front, last, split, all, -⟩ | ⟨all, -⟩⟩
    · exact absurd member (unheard all)
    · refine ⟨?_, cause, failed⟩
      -- Anything after the delete would make it one of those that were heard.
      rcases List.eq_nil_or_concat after with last | ⟨others, final, rfl⟩
      · exact last
      · rw [List.concat_eq_append, ← List.cons_append, ← List.append_assoc] at split
        have heard := (List.append_inj' split rfl).1
        refine absurd ?_ (unheard all)
        rw [← heard]
        exact List.mem_append_right _ List.mem_cons_self
    · exact absurd member (unheard all)
  · rintro e rfl
    rcases ends with ⟨-, -, clash⟩ | ⟨cause, failed, -⟩
    · cases clash
    · exact ⟨cause, Except.error.inj failed⟩
  · refine fun faithful => ⟨scan, drops, rfl, fun _ _ _ all => ?_⟩
    rcases ends with
      ⟨-, -, resultIs⟩ | ⟨-, -, ⟨front, last, split, -, silent⟩ | ⟨-, key, refusal, refused⟩⟩
    · exact ⟨_, resultIs⟩
    · have member : last ∈ drops := split ▸ List.mem_append_right _ List.mem_cons_self
      exact absurd (all last member) fun ⟨took, tells⟩ => silent took tells
    · exact absurd refused (faithful.takes .conditionalDelete
        (r.schema.conditionalDelete_kinds key id) refusal)

end Running

/-- On any session and from any state of it, a confirmation executes one scan under the own prefix
and then conditional deletes only, one for each own row of the answer that carries the id, in
order, as long as each says whether it took effect; it succeeds with the right counts, or it fails
with a storage error at the first answer that it cannot use. -/
theorem confirm_accounts (h : Host σ S) (r : Running S α) (id : String) (w : σ) :
    ∃ past, (r.confirm id).trace h w = past.map .execute ∧
      r.Accounts id past ((r.confirm id).run h w).1 := by
  rw [Running.confirm, Program.trace_reported, Program.run_reported]
  show ∃ past, _ ∧ r.Accounts id past ((r.confirmMatches id).run h w).1
  unfold Running.confirmMatches
  rcases Running.scanIdentities_trace (r := r) (h := h) w with
    ⟨cause, refusal, refused, nothing, run⟩ | ⟨scan, w', own, once, run⟩
  · refine ⟨[], (Program.trace_andThen_error run).trans nothing, ?_⟩
    rw [Program.run_andThen_error run]
    exact .unscanned refused
  · cases found : Running.scanned r.schema scan with
    | error e =>
      rw [found] at run
      obtain ⟨⟨cause, rfl⟩, unread⟩ := Running.scanned_error found
      refine ⟨[scan], (Program.trace_andThen_error run).trans once, ?_⟩
      rw [Program.run_andThen_error run]
      exact .scanned own unread
    | ok identities =>
      rw [found] at run
      obtain ⟨rows, answer, names⟩ := Running.scanned_eq_ok found
      obtain ⟨drops, trace, deletes⟩ := Running.dropEach_trace (r := r) (h := h) id
        (Running.carriers id identities) ⟨0, 0, 0⟩ w'
      refine ⟨scan :: drops, ?_, ?_⟩
      · rw [Program.trace_andThen_ok run, once]
        exact congrArg (_ :: ·) trace
      · rw [Program.run_andThen_ok run]
        exact .dropped own answer (Running.readable_of_scanned found answer)
          (r.schema.carriers_names id names) deletes

/-- A session that answers a scan with a group twice and with a group of another exchange, takes
the first delete, rejects the second and answers all others without a flag. -/
def wavering : Host Nat Unit where
  connect n := (.ok (), n)
  prepare _ t n := (.ok ⟨t, ""⟩, n)
  execute _ b n :=
    (.ok (match b.template.kind, n with
      | .selectKeyAndId, _ =>
        ⟨[⟨[("aggregation_key", .text "k1"), ("exchange_id", .text "x")]⟩,
          ⟨[("aggregation_key", .text "k2"), ("exchange_id", .text "y")]⟩,
          ⟨[("aggregation_key", .text "k1"), ("exchange_id", .text "x")]⟩,
          ⟨[("aggregation_key", .text "k3"), ("exchange_id", .text "x")]⟩,
          ⟨[("aggregation_key", .text "k4"), ("exchange_id", .text "x")]⟩]⟩
      | _, 1 => .flag true
      | _, 2 => .flag false
      | _, _ => .empty), n + 1)
  close _ n := (.ok (), n)
  record _ n := n

/-- The third delete is the last. -/
example : ((leakyTenant.confirm "x").run wavering 0).1 =
      .error (.storage (.execution "conditional delete returned no applied flag")) ∧
    ((leakyTenant.confirm "x").trace wavering 0).length = 4 :=
  ⟨rfl, rfl⟩

end GroupStore

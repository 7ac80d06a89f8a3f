import GroupStore.Proofs.Course
import GroupStore.Proofs.Start
import GroupStore.Payload

/-!
# A repository keeps to its prefix, whatever its session answers

A session may answer an execution with any error and any rows, under whatever prefix; all that is
asked of it here is that a prepared statement is the template that was given.  Over such a session
a repository binds nothing but its own prefix, and of the rows that come back it uses those in
which no prefix column differs from its own value, and only those.

* `Schema.Binds` — what an execution binds to its leading parameters;
* `Schema.Owns`, `Schema.owned` — the rows that are used;
* `readIdentities_names` — a scan reads one identity from each of them and none from any other;
* `Running.Uses`, `Running.Deletes` — what a reply and the deletes of a confirmation come from;
* `prefix_confined` — the result, for calls in any interleaving.
-/

namespace GroupStore

open Std

variable {σ S α : Type}

/-- Lists that are related elementwise to one list are related to each other through it. -/
theorem forall₂_through {β γ δ : Type} {R : β → γ → Prop} {T : γ → δ → Prop} {l₁ : List β}
    {l₂ : List γ} {l₃ : List δ} (first : List.Forall₂ R l₁ l₂) (second : List.Forall₂ T l₂ l₃) :
    List.Forall₂ (fun x z => ∃ y, R x y ∧ T y z) l₁ l₃ := by
  induction first generalizing l₃ with
  | nil =>
    cases second
    exact .nil
  | cons head _ ih =>
    cases second with
    | cons head' tail' => exact .cons ⟨_, head, head'⟩ (ih tail')

namespace Schema

variable (s : Schema)

/-! ### What is bound -/

/-- The leading parameters are the prefix columns, in order, and get the own values; unless the
statement is the scan, the group column comes next and gets a group. -/
def Binds (b : Bound) : Prop :=
  ∃ columns values, b.template.parameterColumns = s.prefixColumns ++ columns ∧
    b.values = s.prefixValues ++ values ∧
    ((b.template.kind = .selectKeyAndId ∧ columns = [] ∧ values = []) ∨
      ∃ group columns' values', columns = s.keyColumn :: columns' ∧
        values = .text group :: values')

variable {s} in
/-- A scan under the own prefix. -/
theorem binds_scan {b : Bound} (template : b.template = s.template .selectKeyAndId)
    (values : b.values = s.prefixValues) : s.Binds b := by
  refine ⟨[], [], ?_, ?_, .inl ⟨?_, rfl, rfl⟩⟩
  · rw [template]
    rfl
  · rw [values, List.append_nil]
  · rw [template]
    exact s.template_kind .selectKeyAndId

variable {s} in
/-- A statement on one group: the key comes first, and anything else after it. -/
theorem binds_point {b : Bound} {kind : StatementKind} {columns : List Identifier}
    {group : String} {others : List Value} (template : b.template = s.template kind)
    (parameters : (s.template kind).parameterColumns = s.primaryKey ++ columns)
    (values : b.values = s.composeKey group ++ others) : s.Binds b := by
  refine ⟨s.keyColumn :: columns, .text group :: others, ?_, ?_,
    .inr ⟨group, columns, others, rfl, rfl⟩⟩
  · rw [template, parameters, primaryKey, List.append_assoc]
    rfl
  · rw [values, composeKey, List.append_assoc]
    rfl

end Schema

/-- Whatever a call may request binds the own prefix. -/
theorem Running.Requests.binds {r : Running S α} {call : Call α} {b : Bound}
    (requests : r.Requests call b) : r.schema.Binds b := by
  cases call with
  | add key value =>
    obtain ⟨template, payload, -, values⟩ := requests
    exact Schema.binds_point template rfl values
  | get key =>
    obtain ⟨template, values⟩ := requests
    exact Schema.binds_point template rfl (values.trans (List.append_nil _).symm)
  | confirm id =>
    rcases requests with ⟨template, values⟩ | ⟨template, key, values⟩
    · exact Schema.binds_scan template values
    · exact Schema.binds_point template rfl values
  | remove key =>
    obtain ⟨template, values⟩ := requests
    exact Schema.binds_point template rfl (values.trans (List.append_nil _).symm)
  | getKeys => exact Schema.binds_scan requests.1 requests.2
  | scan => exact Schema.binds_scan requests.1 requests.2

namespace Schema

variable (s : Schema)

/-! ### What is used -/

/-- No prefix column that a row has differs from the own value. -/
def Owns (row : Row) : Prop :=
  ∀ entry ∈ s.settings.fixedPrefix.entries, ∀ v ∈ row.get? entry.column.text, v = entry.value

instance : DecidablePred s.Owns := fun row =>
  inferInstanceAs (Decidable (∀ entry ∈ s.settings.fixedPrefix.entries,
    ∀ v ∈ row.get? entry.column.text, v = entry.value))

/-- The rows of an answer that are the own ones. -/
def owned (rows : ResultSet) : List Row := rows.rows.filter fun row => s.Owns row

/-- The own rows of an answer that carry an exchange id. -/
def carrying (id : String) (rows : ResultSet) : List Row :=
  (s.owned rows).filter fun row => (row.text s.exchangeIdColumn.text).toOption = some id

/-- An identity is what a row says in its group and exchange id columns. -/
def Names (row : Row) (identity : Identity) : Prop :=
  row.text s.keyColumn.text = .ok identity.aggregationKey ∧
    row.text s.exchangeIdColumn.text = .ok identity.exchangeId

/-- The key that a row claims is one of the repository's iff the row is an own one. -/
theorem claimedKey_eq_iff {row : Row} {key group : String} :
    Running.claimedKey s row key = s.composeKey group ↔ s.Owns row ∧ key = group := by
  have fronts : s.settings.fixedPrefix.entries.map
        (fun entry => (row.get? entry.column.text).getD entry.value) = s.prefixValues ↔
      s.Owns row := by
    show List.map _ _ = List.map _ _ ↔ _
    rw [List.map_inj_left]
    apply forall₂_congr
    intro entry _
    cases row.get? entry.column.text with
    | none => simp
    | some v => simp
  unfold Running.claimedKey composeKey
  rw [← fronts]
  constructor
  · intro valuesEq
    obtain ⟨front, last⟩ := List.append_inj' valuesEq rfl
    exact ⟨front, Value.text.inj (List.singleton_inj.mp last)⟩
  · rintro ⟨front, rfl⟩
    rw [front]

/-- A row of another prefix is passed over, whatever its exchange id is. -/
theorem readIdentity_foreign {row : Row} {key : String}
    (named : row.text s.keyColumn.text = .ok key) (foreign : ¬s.Owns row) :
    Running.readIdentity s row = .ok none := by
  have other : s.decomposeKey (Running.claimedKey s row key) = none := by
    rw [Option.eq_none_iff_forall_ne_some]
    intro group decomposed
    rw [decomposeKey_eq_some_iff, claimedKey_eq_iff] at decomposed
    exact foreign decomposed.1
  simp only [Running.readIdentity, named, bind, Except.bind, other]
  rfl

/-- An own row yields its group with its exchange id, if that is there. -/
theorem readIdentity_own {row : Row} {key : String}
    (named : row.text s.keyColumn.text = .ok key) (own : s.Owns row) :
    Running.readIdentity s row =
      (row.text s.exchangeIdColumn.text).map fun id => some ⟨key, id⟩ := by
  have decomposed : s.decomposeKey (Running.claimedKey s row key) = some key := by
    rw [decomposeKey_eq_some_iff, claimedKey_eq_iff]
    exact ⟨own, rfl⟩
  simp only [Running.readIdentity, named, bind, Except.bind, decomposed]
  cases row.text s.exchangeIdColumn.text <;> rfl

theorem readIdentity_unnamed {row : Row} {e : RowError}
    (unnamed : row.text s.keyColumn.text = .error e) :
    Running.readIdentity s row = .error e := by
  show (row.text s.keyColumn.text).bind _ = _
  rw [unnamed]
  rfl

/-- Reading a row that has an identity in it, or has none, reveals which. -/
theorem readIdentity_eq_ok {row : Row} {found : Option Identity}
    (read : Running.readIdentity s row = .ok found) :
    match found with
    | none => ¬s.Owns row
    | some identity => s.Owns row ∧ s.Names row identity := by
  cases named : row.text s.keyColumn.text with
  | error e =>
    rw [s.readIdentity_unnamed named] at read
    cases read
  | ok key =>
    by_cases own : s.Owns row
    · rw [readIdentity_own s named own] at read
      cases carried : row.text s.exchangeIdColumn.text with
      | error e =>
        rw [carried] at read
        cases read
      | ok id =>
        rw [carried] at read
        cases read
        exact ⟨own, named, carried⟩
    · rw [readIdentity_foreign s named own] at read
      cases read
      exact own

/-- The identities that are read are those of the own rows, one for each, in their order. -/
theorem readIdentities_names {rows : List Row} {identities : List Identity}
    (read : Running.readIdentities s rows = .ok identities) :
    List.Forall₂ s.Names (rows.filter fun row => s.Owns row) identities := by
  induction rows generalizing identities with
  | nil =>
    cases read
    exact .nil
  | cons row rest ih =>
    have read : (Running.readIdentity s row).bind (fun found =>
        (Running.readIdentities s rest).bind fun others => .ok (found.toList ++ others)) =
          .ok identities := read
    cases first : Running.readIdentity s row with
    | error e =>
      rw [first] at read
      cases read
    | ok found =>
      cases others : Running.readIdentities s rest with
      | error e =>
        rw [first, others] at read
        cases read
      | ok later =>
        rw [first, others] at read
        cases read
        have known := readIdentity_eq_ok s first
        cases found with
        | none =>
          rw [List.filter_cons_of_neg (by simpa using known)]
          exact ih others
        | some identity =>
          rw [List.filter_cons_of_pos (by simpa using known.1)]
          exact .cons known.2 (ih others)

/-- The identities that carry an id are those of the rows that carry it. -/
theorem carriers_names {rows : List Row} {identities : List Identity} (id : String)
    (names : List.Forall₂ s.Names rows identities) :
    List.Forall₂ (fun row key => row.text s.keyColumn.text = .ok key)
      (rows.filter fun row => (row.text s.exchangeIdColumn.text).toOption = some id)
      (Running.carriers id identities) := by
  unfold Running.carriers
  induction names with
  | nil => exact .nil
  | @cons row identity _ _ first _ ih =>
    have carried : (row.text s.exchangeIdColumn.text).toOption = some identity.exchangeId := by
      rw [first.2]
      rfl
    by_cases idEq : identity.exchangeId = id
    · rw [List.filter_cons_of_pos (by simpa [carried] using idEq),
        List.filter_cons_of_pos (by simpa using idEq)]
      exact .cons first.1 ih
    · rw [List.filter_cons_of_neg (by simpa [carried] using idEq),
        List.filter_cons_of_neg (by simpa using idEq)]
      exact ih

/-- The groups of the identities are those of the rows. -/
theorem groups_names {rows : List Row} {identities : List Identity}
    (names : List.Forall₂ s.Names rows identities) (group : String) :
    group ∈ identities.map Identity.aggregationKey ↔
      ∃ row ∈ rows, row.text s.keyColumn.text = .ok group := by
  induction names with
  | nil => simp
  | @cons row identity _ _ first _ ih =>
    rw [List.map_cons, List.mem_cons, ih, List.exists_mem_cons_iff, first.1, Except.ok.injEq,
      eq_comm]

end Schema

/-! ### Replies and deletes -/

namespace Running

variable (r : Running S α)

/-- The execution of the delete of a row's group while it carries an id. -/
def DropsFor (id : String) (row : Row) (e : Answered S) : Prop :=
  ∃ key, row.text r.schema.keyColumn.text = .ok key ∧ r.Drops id key e

/-- What a successful reply comes from: a scan lists what the own rows of its only answer name,
the groups are those that they name, and a confirmation has matched the own rows that carry its
id. -/
def Uses (call : Call α) (past : List (Answered S)) (reply : Reply α) : Prop :=
  match call with
  | .scan => ∃ e rows identities, past = [e] ∧ e.answer = .ok rows ∧
      reply = .identities identities ∧ List.Forall₂ r.schema.Names (r.schema.owned rows) identities
  | .getKeys => ∃ e rows groups, past = [e] ∧ e.answer = .ok rows ∧ reply = .keys groups ∧
      groups.Pairwise (fun a b => compare a b = .lt) ∧
      ∀ group, group ∈ groups ↔
        ∃ row ∈ r.schema.owned rows, row.text r.schema.keyColumn.text = .ok group
  | .confirm id => ∃ scan drops rows, past = scan :: drops ∧ scan.answer = .ok rows ∧
      List.Forall₂ (r.DropsFor id) (r.schema.carrying id rows) drops ∧
      reply = .confirmed ⟨(r.schema.carrying id rows).length, tally true drops, tally false drops⟩
  | .add _ _ | .get _ | .remove _ => True

/-- What the deletes of a confirmation come from, finished or not: each is for the group of an own
row of its scan that carries the id, in the order of the rows. -/
def Deletes (id : String) (past : List (Answered S)) : Prop :=
  past = [] ∨ ∃ scan drops, past = scan :: drops ∧
    scan.Is r .selectKeyAndId r.schema.prefixValues ∧
    (drops = [] ∨ ∃ rows n, scan.answer = .ok rows ∧
      List.Forall₂ (r.DropsFor id) ((r.schema.carrying id rows).take n) drops)

variable {r}

/-- A scan that found identities was answered with rows, the own ones of which name them. -/
theorem scanned_eq_ok {s : Schema} {e : Answered S} {identities : List Identity}
    (found : scanned s e = .ok identities) :
    ∃ rows, e.answer = .ok rows ∧ List.Forall₂ s.Names (s.owned rows) identities := by
  unfold scanned at found
  cases reply : e.reply with
  | error cause =>
    rw [reply] at found
    cases found
  | ok rows =>
    rw [reply] at found
    cases read : readIdentities s rows.rows with
    | error cause =>
      simp only [read] at found
      cases found
    | ok identities' =>
      simp only [read] at found
      cases found
      exact ⟨rows, Answered.answer_of_reply reply, s.readIdentities_names read⟩

/-- Whatever a confirmation has been answered so far, its deletes come from own rows. -/
theorem deletes_of_leads (faithful : r.Faithful) (id : String) {past : List (Answered S)}
    {q : Program S (Except RepositoryError (Reply α))}
    (leads : (r.perform (.confirm id)).Leads past q) : r.Deletes id past := by
  rcases confirm_leads faithful id leads with silent | ⟨scan, drops, split, own, each⟩
  · exact .inl silent
  · refine .inr ⟨scan, drops, split, own, ?_⟩
    rcases each with silent | ⟨identities, n, found, each⟩
    · exact .inl silent
    · obtain ⟨rows, answer, names⟩ := scanned_eq_ok found
      refine .inr ⟨rows, n, answer, ?_⟩
      have taken := List.forall₂_take n (r.schema.carriers_names id names)
      exact forall₂_through taken each

/-- A call that has succeeded used own rows only, and all of them. -/
theorem uses_of_leads (faithful : r.Faithful) (call : Call α) {past : List (Answered S)}
    {reply : Reply α} (leads : (r.perform call).Leads past (.done (.ok reply))) :
    r.Uses call past reply := by
  cases call with
  | add key value => trivial
  | get key => trivial
  | remove key => trivial
  | scan =>
    obtain ⟨first, finished, replyIs⟩ := leads.mapOk_done
    cases first with
    | error cause => cases replyIs
    | ok identities =>
      cases replyIs
      obtain ⟨e, once, -, found⟩ := scanIdentities_leads_done faithful finished.reported_done
      obtain ⟨rows, answer, names⟩ := scanned_eq_ok found
      exact ⟨e, rows, identities, once, answer, rfl, names⟩
  | getKeys =>
    obtain ⟨first, finished, replyIs⟩ := leads.mapOk_done
    cases first with
    | error cause => cases replyIs
    | ok groups =>
      cases replyIs
      obtain ⟨identities, front, back, split, scans, onward⟩ := finished.reported_done.andThen_ok
      obtain ⟨e, once, -, found⟩ := scanIdentities_leads_done faithful scans
      obtain ⟨rows, answer, names⟩ := scanned_eq_ok found
      obtain ⟨rest, doneEq⟩ := onward.of_done
      cases doneEq
      refine ⟨e, rows, _, by rw [split, once, rest]; rfl, answer, rfl, ?_, ?_⟩
      · exact List.pairwise_map.mpr (Sorted.ascending_ofPairs _)
      · intro group
        rw [Sorted.mem_keys_ofPairs, List.map_map]
        exact r.schema.groups_names names group
  | confirm id =>
    obtain ⟨scan, drops, identities, split, -, found, each, replyIs⟩ :=
      confirm_leads_ok faithful id leads
    obtain ⟨rows, answer, names⟩ := scanned_eq_ok found
    have carried : List.Forall₂ _ (r.schema.carrying id rows) (carriers id identities) :=
      r.schema.carriers_names id names
    refine ⟨scan, drops, rows, split, answer, forall₂_through carried each, ?_⟩
    rw [carried.length_eq]
    exact replyIs

end Running

/-! ### Calls in any interleaving -/

/-- A call under way, with the executions that it made and their answers. -/
structure Thread (S α : Type) where
  call : Call α
  /-- What it was answered, first to last. -/
  past : List (Answered S)
  /-- What is left to do. -/
  rest : Program S (Except RepositoryError (Reply α))

/-- A session in some state, and the calls of one repository on it. -/
structure Usage (σ S α : Type) where
  world : σ
  threads : List (Thread S α)

/-- What may happen next. -/
inductive Turn (σ α : Type) where
  /-- A call begins. -/
  | call (call : Call α)
  /-- A call makes its next request. -/
  | step (thread : Nat)
  /-- Somebody else changes the state of the session. -/
  | elsewhere (world : σ)

namespace Usage

/-- Take a turn; a turn that names nothing changes nothing. -/
def turn (h : Host σ S) (running : Running S α) (u : Usage σ S α) : Turn σ α → Usage σ S α
  | .call call => { u with threads := u.threads ++ [⟨call, [], running.perform call⟩] }
  | .step thread =>
    match u.threads[thread]? with
    | none => u
    | some t =>
      let after := t.rest.next h u.world
      let past := t.past ++ t.rest.answered h u.world
      ⟨after.2, u.threads.set thread { t with past := past, rest := after.1 }⟩
  | .elsewhere world => { u with world := world }

/-- Take some turns, first to last. -/
def run (h : Host σ S) (running : Running S α) (u : Usage σ S α) (turns : List (Turn σ α)) :
    Usage σ S α :=
  turns.foldl (turn h running) u

/-- Every call is on its course. -/
def OnCourse (running : Running S α) (u : Usage σ S α) : Prop :=
  ∀ t ∈ u.threads, (running.perform t.call).Leads t.past t.rest

variable {h : Host σ S} {running : Running S α} {u : Usage σ S α}

theorem OnCourse.turn (faithful : running.Faithful) (onCourse : u.OnCourse running)
    (m : Turn σ α) : (u.turn h running m).OnCourse running := by
  cases m with
  | call call =>
    intro t member
    rcases List.mem_append.mp member with old | new
    · exact onCourse t old
    · rw [List.mem_singleton.mp new]
      exact .here _
  | elsewhere world => exact onCourse
  | step thread =>
    simp only [Usage.turn]
    cases found : u.threads[thread]? with
    | none => exact onCourse
    | some t =>
      intro t' member
      rcases List.mem_or_eq_of_mem_set member with old | rfl
      · exact onCourse t' old
      · have leads := onCourse t (List.mem_of_getElem? found)
        exact leads.next ((Running.perform_asks faithful t.call).leads leads).2 h u.world

theorem OnCourse.run (faithful : running.Faithful) (onCourse : u.OnCourse running)
    (turns : List (Turn σ α)) : (u.run h running turns).OnCourse running := by
  induction turns generalizing u with
  | nil => exact onCourse
  | cons m rest ih => exact ih (onCourse.turn faithful m)

end Usage

/-- On a session that prepares what it is given, every start yields statements of the schema. -/
theorem Repository.start_faithful {h : Host σ S}
    (prepares : ∀ session t w p w', h.prepare session t w = (.ok p, w') → p.template = t)
    {repository : Repository S α} {running : Running S α} {w w' : σ}
    (started : repository.start.run h w = (.ok running, w')) :
    running.repository = repository ∧ running.Faithful := by
  obtain ⟨own, faithful, -⟩ := start_inv
    (fun kind p => p.template = repository.schema.template kind) (fun _ => True) (fun _ => True)
    (fun _ _ _ _ _ => trivial)
    (fun session kind w p w' _ prepared => ⟨prepares session _ w p w' prepared, trivial⟩)
    (fun _ _ => trivial) (fun _ _ _ => trivial) trivial started
  refine ⟨own, fun kind => ?_⟩
  rw [Running.schema, own]
  exact faithful kind

/-- On any session that prepares what it is given, in any interleaving of the calls of a repository
with one another and with whatever else happens to the session: every execution is one that its
call requests and binds the own prefix, the deletes of a confirmation are for own rows of its scan
that carry its id, and a call that succeeds has used the own rows that it was given and no
others. -/
theorem prefix_confined (h : Host σ S)
    (prepares : ∀ session t w p w', h.prepare session t w = (.ok p, w') → p.template = t)
    (repository : Repository S α) (running : Running S α) (w w' : σ)
    (started : repository.start.run h w = (.ok running, w')) (turns : List (Turn σ α)) :
    ∀ t ∈ (Usage.run h running ⟨w', []⟩ turns).threads,
      (∀ e ∈ t.past, e.session = running.session ∧ running.Requests t.call e.bound ∧
        running.schema.Binds e.bound) ∧
      (∀ id, t.call = .confirm id → running.Deletes id t.past) ∧
      ∀ reply, t.rest = .done (.ok reply) → running.Uses t.call t.past reply := by
  obtain ⟨-, faithful⟩ := Repository.start_faithful prepares started
  have onCourse : (⟨w', []⟩ : Usage σ S α).OnCourse running :=
    fun t member => absurd member List.not_mem_nil
  intro t member
  have leads := (onCourse.run faithful turns) t member
  refine ⟨fun e asked => ?_, fun id call => ?_, fun reply finished => ?_⟩
  · obtain ⟨session, requests⟩ := ((Running.perform_asks faithful t.call).leads leads).1 e asked
    exact ⟨session, requests, requests.binds⟩
  · rw [call] at leads
    exact Running.deletes_of_leads faithful id leads
  · rw [finished] at leads
    exact Running.uses_of_leads faithful t.call leads

/-! ### A session that leaks -/

/-- The repository of one of several tenants of a table. -/
def tenantRepository (tenant : String) : Repository Unit Exchange where
  schema :=
    ⟨{ table := Repository.resultsTable, fixedPrefix := Repository.tenantPrefix tenant }, rfl⟩
  codec := Payload.codec Payload.defaultLimit
  source := .borrowed ()

/-- A session that accepts everything, and answers a scan with rows of two tenants and with one
that does not say whose it is. -/
def leaky : Host Unit Unit where
  connect _ := (.ok (), ())
  prepare _ t _ := (.ok ⟨t, ""⟩, ())
  execute _ b _ :=
    (.ok (match b.template.kind with
      | .selectKeyAndId =>
        ⟨[⟨[("aggregation_key", .text "k1"), ("exchange_id", .text "x"), ("tenant", .text "b")]⟩,
          ⟨[("aggregation_key", .text "k2"), ("exchange_id", .text "x"), ("tenant", .text "a")]⟩,
          ⟨[("aggregation_key", .text "k3"), ("exchange_id", .text "x")]⟩]⟩
      | .conditionalDelete => .flag true
      | _ => .empty), ())
  close _ _ := (.ok (), ())
  record _ _ := ()

/-- A repository started on the session that leaks. -/
def leakyTenant : Running Unit Exchange :=
  ⟨tenantRepository "a", (), ⟨⟨(tenantRepository "a").schema.template .insert, ""⟩,
    ⟨(tenantRepository "a").schema.template .selectByKey, ""⟩,
    ⟨(tenantRepository "a").schema.template .deleteByKey, ""⟩,
    ⟨(tenantRepository "a").schema.template .selectKeyAndId, ""⟩,
    ⟨(tenantRepository "a").schema.template .conditionalDelete, ""⟩⟩⟩

/-- A scan and a confirmation, one request of each in turn. -/
def leakyTurns : List (Turn Unit Exchange) :=
  [.call .scan, .call (.confirm "x"), .step 0, .step 1, .step 0, .step 1, .step 1, .step 1]

/-- The scan passes over the row of the other tenant, and the confirmation deletes the two other
rows only. -/
theorem prefix_confined_leaky :
    (tenantRepository "a").start.run leaky () = (.ok leakyTenant, ()) ∧
      (Usage.run leaky leakyTenant ⟨(), []⟩ leakyTurns).threads.map Thread.rest =
        [.done (.ok (.identities [⟨"k2", "x"⟩, ⟨"k3", "x"⟩])),
          .done (.ok (.confirmed ⟨2, 2, 0⟩))] ∧
      ∀ t ∈ (Usage.run leaky leakyTenant ⟨(), []⟩ leakyTurns).threads,
        (∀ e ∈ t.past, leakyTenant.schema.Binds e.bound) ∧
        (∀ id, t.call = .confirm id → leakyTenant.Deletes id t.past) ∧
        ∀ reply, t.rest = .done (.ok reply) → leakyTenant.Uses t.call t.past reply := by
  have started : (tenantRepository "a").start.run leaky () = (.ok leakyTenant, ()) := rfl
  have prepares (session : Unit) (t : Template) (w : Unit) (p : Prepared) (w' : Unit)
      (prepared : leaky.prepare session t w = (.ok p, w')) : p.template = t := by
    cases prepared
    rfl
  refine ⟨started, rfl, fun t member => ?_⟩
  obtain ⟨asked, deletes, uses⟩ :=
    prefix_confined leaky prepares _ _ _ _ started leakyTurns t member
  exact ⟨fun e made => (asked e made).2.2, deletes, uses⟩

end GroupStore

import GroupStore.Proofs.Journal

/-!
# A stored version is deleted at most once

Every insert stores a new version under its key, even if it repeats an earlier one to the letter.
A conditional delete that takes effect removes the version that stands under its key, which is that
of the latest insert there.  No version is removed twice, so what confirmations count as deleted is
neither more nor less than the versions of their exchange id that are gone through them.

* `versions`, `removed` — the versions ever stored, and those that conditional deletes removed;
* `Journal.Accounts` — what is stored stands, and nothing is removed twice;
* `Journal.deleted_at_most_once` — the result, for every interleaving of calls and every clock.
-/

namespace GroupStore

open Memory

variable {S α : Type}

namespace Answered

/-! ### What an execution stores or takes -/

/-- The table and the primary key that an execution on one group binds. -/
def place (e : Answered S) : TableName × List Value :=
  (e.bound.template.layout.table, e.bound.values.take e.bound.template.layout.primaryKey.length)

/-- What an execution binds besides the primary key. -/
def others (e : Answered S) : List Value :=
  e.bound.values.drop e.bound.template.layout.primaryKey.length

/-- An insert that was accepted. -/
def stored (e : Answered S) : Bool := e.bound.template.kind = .insert && e.answer.isOk

/-- A conditional delete that took effect. -/
def took (e : Answered S) : Bool :=
  e.bound.template.kind = .conditionalDelete && e.took? = some true

/-- An execution binds an exchange id right after the key. -/
def Carries (e : Answered S) (id : String) : Prop := e.others.head? = some (.text id)

instance (e : Answered S) (id : String) : Decidable (e.Carries id) :=
  inferInstanceAs (Decidable (_ = _))

theorem stored_kind {e : Answered S} (stored : e.stored) : e.bound.template.kind = .insert := by
  rw [Answered.stored, Bool.and_eq_true] at stored
  simpa using stored.1

theorem took_kind {e : Answered S} (took : e.took) :
    e.bound.template.kind = .conditionalDelete := by
  rw [Answered.took, Bool.and_eq_true] at took
  simpa using took.1

/-- A conditional delete that took effect was answered so. -/
theorem took_answer {e : Answered S} (took : e.took) {rows : ResultSet}
    (answer : e.answer = .ok rows) : Running.readApplied rows = .ok true := by
  rw [Answered.took, Bool.and_eq_true, decide_eq_true_eq, decide_eq_true_eq, took?, answer] at took
  have said : (Running.readApplied rows).toOption = some true := took.2
  cases applied : Running.readApplied rows with
  | error cause =>
    rw [applied] at said
    cases said
  | ok flag =>
    rw [applied] at said
    cases said
    rfl

/-- What takes stores nothing. -/
theorem stored_eq_false {e : Answered S} (took : e.took) : e.stored = false := by
  rw [Answered.stored, took_kind took]
  rfl

/-- The key that is bound to a statement of a schema, and what comes after it. -/
theorem place_eq {e : Answered S} {s : Schema} {kind : StatementKind} {key rest : List Value}
    (template : e.bound.template = s.template kind) (values : e.bound.values = key ++ rest)
    (fits : s.FitsKey key) : e.place = (s.settings.table, key) ∧ e.others = rest := by
  have layout : e.bound.template.layout = s.layout := by rw [template, s.template_layout]
  rw [place, others, layout, values, ← fits.length]
  exact ⟨by rw [List.take_left]; rfl, List.drop_left⟩

end Answered

namespace Running

variable {r : Running S α} {call : Call α} {e : Answered S}

/-- Only an add stores, and it stores its own result under its own key. -/
theorem Requests.stored (requests : r.Requests call e.bound) (stored : e.stored) :
    ∃ key value, call = .add key value ∧ e.Carries (r.repository.codec.exchangeId value) := by
  have kind := Answered.stored_kind stored
  cases call with
  | add key value =>
    obtain ⟨template, payload, -, values⟩ := requests
    refine ⟨key, value, rfl, ?_⟩
    rw [Answered.Carries, (Answered.place_eq template values (r.schema.composeKey_fits key)).2]
    rfl
  | get key => rw [requests.1] at kind; cases kind
  | remove key => rw [requests.1] at kind; cases kind
  | getKeys => rw [requests.1] at kind; cases kind
  | scan => rw [requests.1] at kind; cases kind
  | confirm id =>
    rcases requests with ⟨template, -⟩ | ⟨template, -⟩
    · rw [template] at kind
      cases kind
    · rw [template] at kind
      cases kind

/-- Only a confirmation takes, and it takes what it confirms. -/
theorem Requests.took (requests : r.Requests call e.bound) (took : e.took) :
    ∃ id, call = .confirm id ∧ e.Carries id := by
  have kind := Answered.took_kind took
  cases call with
  | add key value => rw [requests.1] at kind; cases kind
  | get key => rw [requests.1] at kind; cases kind
  | remove key => rw [requests.1] at kind; cases kind
  | getKeys => rw [requests.1] at kind; cases kind
  | scan => rw [requests.1] at kind; cases kind
  | confirm id =>
    refine ⟨id, rfl, ?_⟩
    rcases requests with ⟨template, -⟩ | ⟨template, key, values⟩
    · rw [template] at kind
      cases kind
    · rw [Answered.Carries, (Answered.place_eq template values (r.schema.composeKey_fits key)).2]
      rfl

end Running

namespace Shared

variable {s : Shared S α} {m : Move S α} {e : Execution S α}

/-- A conditional delete that took effect found a row under its key that carries its id, and left
none there. -/
theorem Coherent.row_taken (coherent : s.Coherent) (made : s.execution? m = some e)
    (took : e.answered.took) :
    (∃ row, s.store.entry? e.answered.place.1 e.answered.place.2 = some row ∧
      (row.values.map Prod.snd).head? = e.answered.others.head?) ∧
    (s.move m).store.entry? e.answered.place.1 e.answered.place.2 = none := by
  obtain ⟨-, held, layouts, -, kind, answer, hb, answered, executed, means⟩ :=
    coherent.execution_means made
  obtain rfl : kind = .conditionalDelete := by
    have known := Answered.took_kind took
    rw [show e.answered.bound.template = e.bound.template from rfl, hb,
      Schema.template_kind] at known
    exact known
  obtain ⟨key, id, values, fits⟩ := Bound.conditionalDelete_values hb
  obtain ⟨place, others⟩ := Answered.place_eq (e := e.answered) hb values fits
  rw [place, others]
  rw [values] at means
  have reads : e.bound.template.kind ≠ .insert := by
    rw [hb, Schema.template_kind]
    exact StatementKind.noConfusion
  obtain ⟨key', id', split, flag, left⟩ := means
  obtain ⟨rfl, idEq⟩ := List.append_inj' split rfl
  obtain rfl : id = id' := by simpa using idEq
  have said := Answered.took_answer (e := e.answered) took answered
  rw [flag] at said
  have present : (s.store.contents e.now e.running.schema.settings.table key).any
      (·.id = id) = true := Except.ok.inj said
  rw [if_pos present] at left
  cases held' : s.store.contents e.now e.running.schema.settings.table key with
  | none =>
    rw [held'] at present
    cases present
  | some v =>
    rw [held'] at present
    have carries : v.id = id := by simpa using present
    have stored := (coherent.sound.contents_eq_some_iff held).mp held'
    refine ⟨⟨_, stored.1, by rw [← carries]; rfl⟩, ?_⟩
    -- A row that were left would be the one that was found, and the contents have none.
    cases after : (s.move m).store.entry? e.running.schema.settings.table key with
    | none => rfl
    | some row =>
      have before := Store.entry?_of_execute coherent.sound reads executed after
      rw [stored.1] at before
      cases before
      have kept := ((coherent.move m).sound.contents_eq_some_iff ((layouts _).mpr held)).mpr
        ⟨after, stored.2⟩
      rw [left, Contents.set_self] at kept
      cases kept

/-- A row that is there after an execution was put there by it, or was there before and has not been
touched. -/
theorem Coherent.row_after (coherent : s.Coherent) (made : s.execution? m = some e)
    {table : TableName} {key : List Value} {row : Entry}
    (stored : (s.move m).store.entry? table key = some row) :
    (e.answered.stored = true ∧ e.answered.place = (table, key) ∧
      row.values.map Prod.snd = e.answered.others) ∨
    s.store.entry? table key = some row ∧
      (e.answered.place = (table, key) → e.answered.stored = false ∧ e.answered.took = false) := by
  obtain ⟨-, held, -, -, kind, answer, hb, answered, executed, -⟩ := coherent.execution_means made
  by_cases inserts : kind = .insert
  · subst inserts
    obtain ⟨own, id, payload, values, fits⟩ := Bound.insert_values hb
    obtain ⟨place, others⟩ := Answered.place_eq (e := e.answered) hb values fits
    rw [place, others]
    rw [Store.entry?_of_insert coherent.sound held hb values fits executed] at stored
    by_cases hit : table = e.running.schema.settings.table ∧ key = own
    · left
      rw [if_pos hit] at stored
      cases stored
      refine ⟨?_, by rw [hit.1, hit.2], rfl⟩
      show (decide (e.bound.template.kind = .insert) && e.answer.isOk) = true
      rw [hb, Schema.template_kind, answered]
      rfl
    · right
      rw [if_neg hit] at stored
      refine ⟨stored, fun placeEq => ?_⟩
      obtain ⟨tables, keys⟩ := Prod.mk.inj placeEq
      exact absurd ⟨tables.symm, keys.symm⟩ hit
  · right
    have reads : e.bound.template.kind ≠ .insert := by
      rw [hb, Schema.template_kind]
      exact inserts
    refine ⟨Store.entry?_of_execute coherent.sound reads executed stored, fun placeIs => ⟨?_, ?_⟩⟩
    · show (decide (e.bound.template.kind = .insert) && _) = false
      rw [decide_eq_false reads, Bool.false_and]
    · by_contra took
      have gone := (coherent.row_taken made (Bool.eq_true_of_not_eq_false took)).2
      rw [placeIs, stored] at gone
      cases gone

end Shared

/-! ### Versions -/

/-- The versions ever stored, latest first, each with its number. -/
def versions : List (Logged S) → List (Nat × Logged S)
  | [] => []
  | e :: earlier => if e.stored then (earlier.length, e) :: versions earlier else versions earlier

/-- The version that stands under a key: the latest one stored there. -/
def standing? (log : List (Logged S)) (place : TableName × List Value) :
    Option (Nat × Logged S) :=
  (versions log).find? fun v => v.2.place = place

/-- The versions that conditional deletes removed, latest first: each removed what stood under its
key. -/
def removed : List (Logged S) → List (Nat × Logged S)
  | [] => []
  | e :: earlier =>
    if e.took then (standing? earlier e.place).toList ++ removed earlier else removed earlier

theorem standing?_cons (e : Logged S) (earlier : List (Logged S))
    (place : TableName × List Value) :
    standing? (e :: earlier) place =
      if e.stored = true ∧ e.place = place then some (earlier.length, e)
      else standing? earlier place := by
  unfold standing?
  rw [versions]
  cases stored : e.stored with
  | true =>
    by_cases placeEq : e.place = place
    · simp [placeEq]
    · simp [placeEq]
  | false => simp

/-- The version that stands under a key was stored there. -/
theorem standing?_place {log : List (Logged S)} {place : TableName × List Value}
    {v : Nat × Logged S} (stands : standing? log place = some v) : v.2.place = place := by
  simpa using List.find?_some stands

theorem lt_length_of_mem_versions {log : List (Logged S)} {v : Nat × Logged S}
    (member : v ∈ versions log) : v.1 < log.length := by
  induction log with
  | nil => cases member
  | cons e earlier ih =>
    rw [versions] at member
    rw [List.length_cons]
    split at member
    · rcases List.mem_cons.mp member with rfl | old
      · exact Nat.lt_succ_self _
      · exact Nat.lt_succ_of_lt (ih old)
    · exact Nat.lt_succ_of_lt (ih member)

/-- Only stored versions are removed. -/
theorem removed_subset (log : List (Logged S)) : removed log ⊆ versions log := by
  induction log with
  | nil => exact fun v member => member
  | cons e earlier ih =>
    intro v member
    have old : v ∈ versions earlier := by
      rw [removed] at member
      split at member
      · rcases List.mem_append.mp member with stood | before
        · exact List.mem_of_find?_eq_some (Option.mem_toList.mp stood)
        · exact ih before
      · exact ih member
    rw [versions]
    split
    · exact List.mem_cons_of_mem _ old
    · exact old

/-- There is a version for every execution that stored one. -/
theorem countP_versions (log : List (Logged S)) (p : Answered S → Bool) :
    (versions log).countP (fun v => p v.2.toAnswered) =
      log.countP fun e => e.stored && p e.toAnswered := by
  induction log with
  | nil => rfl
  | cons e earlier ih =>
    rw [versions, List.countP_cons]
    cases stored : e.stored with
    | true => simp [List.countP_cons, ih]
    | false => simp [ih]

namespace Journal

/-! ### What the journal says of the store -/

/-- What is stored under a key is the version that stands there, and it has not been removed;
every conditional delete that took effect removed another version, and one with its exchange id. -/
structure Accounts (j : Journal S α) : Prop where
  coherent : j.shared.Coherent
  stands : ∀ table key row, j.shared.store.entry? table key = some row →
    ∃ v, standing? j.log (table, key) = some v ∧ row.values.map Prod.snd = v.2.others ∧
      v ∉ removed j.log
  once : (removed j.log).Nodup
  each : ∀ p : Option Value → Bool, (removed j.log).countP (fun v => p v.2.others.head?) =
    j.log.countP fun e => e.took && p e.others.head?

theorem accounts_initial (session : S) : (initial session : Journal S α).Accounts where
  coherent := Shared.coherent_initial session
  stands := fun table key row stored => by cases stored
  once := List.nodup_nil
  each := fun p => rfl

section Advance

variable {j : Journal S α} (accounts : j.Accounts) {now : Nat} {m : Move S α} {task : Nat}
  {e : Execution S α} (made : ({ j.shared with now := now }).execution? m = some e)
  (longer : (j.advance (now, m)).log = ⟨e.answered, task⟩ :: j.log)

include accounts made longer

/-- A conditional delete that takes effect removes the version that stands. -/
theorem Accounts.advance_took (took : e.answered.took = true) :
    (j.advance (now, m)).Accounts := by
  have coherent : ({ j.shared with now := now }).Coherent := accounts.coherent.at now
  obtain ⟨⟨row, before, carries⟩, -⟩ := coherent.row_taken made took
  obtain ⟨v, stood, others, fresh⟩ := accounts.stands _ _ row before
  have stores : e.answered.stored = false := Answered.stored_eq_false took
  have gone : removed (j.advance (now, m)).log = v :: removed j.log := by
    rw [longer, removed, if_pos took]
    show (standing? j.log e.answered.place).toList ++ _ = _
    rw [stood]
    rfl
  refine ⟨coherent.move m, fun table key row' stored => ?_, ?_, fun p => ?_⟩
  · rcases coherent.row_after made stored with ⟨new, -⟩ | ⟨old, untouched⟩
    · rw [stores] at new
      cases new
    · obtain ⟨v', stood', others', fresh'⟩ := accounts.stands table key row' old
      refine ⟨v', ?_, others', ?_⟩
      · rw [longer, standing?_cons, if_neg fun both => by simp [stores] at both, stood']
      · rw [gone, List.mem_cons, not_or]
        refine ⟨?_, fresh'⟩
        rintro rfl
        have placeEq := (standing?_place stood).symm.trans (standing?_place stood')
        rw [(untouched placeEq).2] at took
        cases took
  · rw [gone]
    exact List.nodup_cons.mpr ⟨fresh, accounts.once⟩
  · rw [gone, longer, List.countP_cons, List.countP_cons, accounts.each p, ← others, carries]
    congr 1
    simp [took]

/-- Any other execution removes no version. -/
theorem Accounts.advance_other (took : ¬e.answered.took = true) :
    (j.advance (now, m)).Accounts := by
  have coherent : ({ j.shared with now := now }).Coherent := accounts.coherent.at now
  have gone : removed (j.advance (now, m)).log = removed j.log := by
    rw [longer, removed, if_neg took]
  refine ⟨coherent.move m, fun table key row stored => ?_, ?_, fun p => ?_⟩
  · rw [gone, longer, standing?_cons]
    rcases coherent.row_after made stored with ⟨stores, place, others⟩ | ⟨old, untouched⟩
    · rw [if_pos ⟨stores, place⟩]
      refine ⟨_, rfl, others, fun member => ?_⟩
      exact absurd (lt_length_of_mem_versions (removed_subset _ member)) (Nat.lt_irrefl _)
    · rw [if_neg fun both => by simp [(untouched both.2).1] at both]
      exact accounts.stands table key row old
  · rw [gone]
    exact accounts.once
  · rw [gone, longer, List.countP_cons, accounts.each p]
    simp [took]

end Advance

theorem Accounts.advance {j : Journal S α} (accounts : j.Accounts) (happening : Nat × Move S α) :
    (j.advance happening).Accounts := by
  obtain ⟨now, m⟩ := happening
  let s : Shared S α := { j.shared with now := now }
  have coherent : s.Coherent := accounts.coherent.at now
  rcases coherent.logged_cases m with ⟨nothing, quiet⟩ | ⟨task, e, noted, made⟩
  · have logEq : (j.advance (now, m)).log = j.log := by
      show s.logged m ++ j.log = j.log
      rw [nothing, List.nil_append]
    refine ⟨coherent.move m, ?_, ?_, ?_⟩
    · intro table key row stored
      rw [logEq]
      exact accounts.stands table key row (((coherent.quiet quiet).1 table key).symm.trans stored)
    · rw [logEq]
      exact accounts.once
    · rw [logEq]
      exact accounts.each
  · have longer : (j.advance (now, m)).log = ⟨e.answered, task⟩ :: j.log := by
      show s.logged m ++ j.log = _
      rw [noted]
      rfl
    by_cases took : e.answered.took = true
    · exact accounts.advance_took made longer took
    · exact accounts.advance_other made longer took

theorem Accounts.run {j : Journal S α} (accounts : j.Accounts)
    (happenings : List (Nat × Move S α)) : (j.run happenings).Accounts := by
  induction happenings generalizing j with
  | nil => exact accounts
  | cons happening rest ih => exact ih (accounts.advance happening)

end Journal

/-! ### What calls count -/

namespace Task

/-- A confirmation of an id. -/
def Confirms (t : Task S α) (id : String) : Prop :=
  match t.call with
  | .confirm id' => id' = id
  | _ => False

instance (t : Task S α) (id : String) : Decidable (t.Confirms id) := by
  unfold Confirms
  split <;> infer_instance

/-- An add of a result that carries an id. -/
def Adds (t : Task S α) (id : String) : Prop :=
  match t.call with
  | .add _ value => t.running.repository.codec.exchangeId value = id
  | _ => False

instance (t : Task S α) (id : String) : Decidable (t.Adds id) := by
  unfold Adds
  split <;> infer_instance

theorem confirms_iff {t : Task S α} {id : String} : t.Confirms id ↔ t.call = .confirm id := by
  unfold Confirms
  cases t.call <;> simp

theorem adds_iff {t : Task S α} {id : String} :
    t.Adds id ↔ ∃ key value, t.call = .add key value ∧
      t.running.repository.codec.exchangeId value = id := by
  unfold Adds
  cases t.call <;> simp

/-- What a confirmation counts as deleted if it succeeded, and otherwise how many of its deletes
took effect. -/
def deleted (t : Task S α) (past : List (Answered S)) : Nat :=
  match t.rest with
  | .done (.ok (.confirmed c)) => c.deleted
  | _ => past.countP Answered.took

/-- A bound exchange id is one text. -/
theorem carries_inj {e : Answered S} {id id' : String} (carries : e.Carries id)
    (carries' : e.Carries id') : id = id' :=
  Value.text.inj (Option.some.inj (carries.symm.trans carries'))

section Courses

variable {t : Task S α} {past : List (Answered S)} (faithful : t.running.Faithful)
  (leads : (t.running.perform t.call).Leads past t.rest)

include faithful leads

/-- A confirmation that succeeded counts the deletes that took effect. -/
theorem deleted_eq {id : String} (confirms : t.call = .confirm id) :
    t.deleted past = past.countP Answered.took := by
  unfold deleted
  split
  · rename_i c finished
    rw [confirms, finished] at leads
    obtain ⟨scan, drops, identities, split, own, -, each, confirmedEq⟩ :=
      Running.confirm_leads_ok faithful id leads
    cases confirmedEq
    have scans : scan.took = false := by
      rw [Answered.took, own.2.1, Schema.template_kind]
      rfl
    rw [split, List.countP_cons, scans]
    show Running.tally true drops = drops.countP Answered.took + 0
    apply List.countP_congr
    intro e member
    rw [Answered.took, Running.template_of_drops each e member, Schema.template_kind]
    simp
  · rfl

/-- What a confirmation of an id has deleted are the deletes under that id that took effect. -/
theorem countP_took (id : String) :
    past.countP (fun e => e.took && decide (e.Carries id)) =
      if t.Confirms id then t.deleted past else 0 := by
  have requests := ((Running.perform_asks faithful t.call).leads leads).1
  by_cases confirms : t.call = .confirm id
  · rw [if_pos (confirms_iff.mpr confirms), deleted_eq faithful leads confirms]
    apply List.countP_congr
    intro e member
    rw [Bool.and_eq_true, decide_eq_true_eq, and_iff_left_iff_imp]
    intro took
    obtain ⟨id', call, carries⟩ := (requests e member).2.took took
    rw [confirms] at call
    cases call
    exact carries
  · rw [if_neg (confirms_iff.not.mpr confirms), List.countP_eq_zero]
    intro e member both
    rw [Bool.and_eq_true, decide_eq_true_eq] at both
    obtain ⟨id', call, carries⟩ := (requests e member).2.took both.1
    rw [carries_inj carries both.2] at call
    exact confirms call

/-- An add stores at most one version, and that under the id of its result. -/
theorem countP_stored (id : String) :
    past.countP (fun e => e.stored && decide (e.Carries id)) =
      if t.Adds id ∧ past.any Answered.stored = true then 1 else 0 := by
  have requests := ((Running.perform_asks faithful t.call).leads leads).1
  by_cases adds : t.Adds id
  · obtain ⟨key, value, call, exchangeIdIs⟩ := adds_iff.mp adds
    rw [call] at leads requests
    rcases Running.add_leads faithful key value leads with nothing | ⟨e, payload, once, -⟩
    · simp [nothing]
    · have carries (stored : e.stored = true) : e.Carries id := by
        obtain ⟨key', value', call', carries⟩ :=
          (requests e (once ▸ List.mem_singleton_self e)).2.stored stored
        cases call'
        exact exchangeIdIs ▸ carries
      cases stored : e.stored with
      | true => simp [once, stored, adds, carries stored]
      | false => simp [once, stored]
  · rw [if_neg fun both => adds both.1, List.countP_eq_zero]
    intro e member both
    rw [Bool.and_eq_true, decide_eq_true_eq] at both
    obtain ⟨key, value, call, carries⟩ := (requests e member).2.stored both.1
    exact adds (adds_iff.mpr ⟨key, value, call, carries_inj carries both.2⟩)

/-- An add that has come to its end has succeeded iff it stored its result. -/
theorem stored_iff {key : String} {value : α} (call : t.call = .add key value)
    {result : Except RepositoryError (Reply α)} (finished : t.rest = .done result) :
    result.isOk ↔ past.any Answered.stored = true := by
  rw [call, finished] at leads
  rw [Running.add_leads_done faithful key value leads, List.any_eq_true]
  rcases Running.add_leads faithful key value leads with nothing | ⟨e, payload, once, own⟩
  · simp [nothing]
  · have stores : e.stored = e.answer.isOk := by
      rw [Answered.stored, own.2.1, Schema.template_kind]
      rfl
    simp [once, stores]

end Courses

end Task

/-! ### The result -/

/-- Any number of clients share a session, and their requests interleave in any way, at clock
readings in any order.  No version is removed twice by conditional deletes, each of which removes
the version that stands under its key, which is the one stored there.  What the confirmations of an
id count as deleted, or have deleted if they did not succeed, is the number of versions with that id
that were removed so, and that is at most the number of adds that stored a result with that id. -/
theorem Journal.deleted_at_most_once (session : S) (happenings : List (Nat × Move S α)) :
    let j := (initial session : Journal S α).run happenings
    let calls := j.shared.tasks
    (removed j.log).Nodup ∧ (removed j.log).length = j.log.countP (fun e => e.took) ∧
    (∀ table key row, j.shared.store.entry? table key = some row →
      ∃ v, standing? j.log (table, key) = some v ∧ row.values.map Prod.snd = v.2.others ∧
        v ∉ removed j.log) ∧
    (∀ id : String,
      (∑ i : Fin calls.length, if calls[i].Confirms id then calls[i].deleted (j.past i) else 0) =
          (removed j.log).countP (fun v => v.2.Carries id) ∧
        (removed j.log).countP (fun v => v.2.Carries id) ≤
          (Finset.univ.filter fun i : Fin calls.length =>
            calls[i].Adds id ∧ (j.past i).any Answered.stored = true).card) ∧
    ∀ (i : Fin calls.length) key value result, calls[i].call = .add key value →
      calls[i].rest = .done result → (result.isOk ↔ (j.past i).any Answered.stored = true) := by
  intro j calls
  have accounts : j.Accounts := (accounts_initial session).run happenings
  have onCourse : j.OnCourse := (onCourse_initial session).run happenings
  have course (i : Fin calls.length) : calls[i].running.Faithful ∧
      (calls[i].running.perform calls[i].call).Leads (j.past i) calls[i].rest :=
    onCourse.tasks i calls[i] (List.getElem?_eq_getElem i.isLt)
  refine ⟨accounts.once, ?_, accounts.stands, fun id => ⟨?_, ?_⟩, ?_⟩
  · have all := accounts.each fun _ => true
    simpa using all
  · have each : (removed j.log).countP (fun v => v.2.Carries id) =
        j.log.countP fun e => e.took && decide (e.Carries id) :=
      accounts.each fun bound => bound = some (.text id)
    rw [each, ← sum_past onCourse.known fun e => e.took && decide (e.Carries id)]
    apply Finset.sum_congr rfl
    intro i _
    exact (Task.countP_took (course i).1 (course i).2 id).symm
  · have some_of : (removed j.log).countP (fun v => v.2.Carries id) ≤
        (versions j.log).countP fun v => v.2.Carries id :=
      (List.subperm_of_subset accounts.once (removed_subset j.log)).countP_le _
    refine Nat.le_trans some_of (Nat.le_of_eq ?_)
    rw [countP_versions j.log fun e => decide (e.Carries id), Finset.card_filter,
      ← sum_past onCourse.known fun e => e.stored && decide (e.Carries id)]
    apply Finset.sum_congr rfl
    intro i _
    exact Task.countP_stored (course i).1 (course i).2 id
  · intro i key value result call finished
    exact Task.stored_iff (course i).1 (course i).2 call finished

end GroupStore

import GroupStore.Proofs.Memory.Legible
import GroupStore.Proofs.ReadBack
import GroupStore.Proofs.Start

/-!
# Confirming again after a failure

A confirmation is not a transaction: when one of its executions fails, the deletes that came before
it stay done.  On a memory session, whoever else has used it and for whatever, they can only have
taken what the confirmation is for.  So the confirmation may be made again, and then the two leave
together what one undisturbed confirmation leaves.

* `Memory.Trial`, `Memory.trying` — a memory session some of whose executions fail;
* `Running.Attempted` — what is known of a confirmation on it, wherever it is cut off;
* `Running.dropEach_tries`, `Running.confirm_tries` — every confirmation is attempted in this sense;
* `failed_confirm_retried` — the failed attempt, and the next one.
-/

namespace GroupStore

open Memory

variable {S α : Type}

/-! ### A session some of whose executions fail -/

namespace Memory

/-- A memory session, its clock, and what is to become of the executions to come: each happens
after a delay, and either it takes effect or it fails before it does. -/
structure Trial where
  store : Store
  now : Nat
  /-- A delay and perhaps a failure for each execution to come; later ones take effect at once. -/
  ahead : List (Nat × Option SessionError)

namespace Trial

/-- The reading of the clock at the next execution. -/
def reading (w : Trial) : Nat := w.now + (w.ahead.headD (0, none)).1

/-- The failure of the next execution, if it is to fail. -/
def fault (w : Trial) : Option SessionError := (w.ahead.headD (0, none)).2

/-- After the next execution, which leaves some store. -/
def next (w : Trial) (store : Store) : Trial := ⟨store, w.reading, w.ahead.tail⟩

/-- No execution to come fails. -/
def Faultless (w : Trial) : Prop := ∀ step ∈ w.ahead, step.2 = none

theorem Faultless.fault {w : Trial} (faultless : w.Faultless) : w.fault = none := by
  unfold Trial.fault
  cases ahead : w.ahead with
  | nil => rfl
  | cons step rest => exact faultless step (ahead ▸ List.mem_cons_self)

end Trial

/-- The answers of such a session. -/
def trying (self : S) : Host Trial S where
  connect w := (.ok self, w)
  prepare _ t w := ((w.store.prepare t).1, { w with store := (w.store.prepare t).2 })
  execute _ b w :=
    match w.fault with
    | some e => (.error e, w.next w.store)
    | none => ((w.store.execute b w.reading).1, w.next (w.store.execute b w.reading).2)
  close _ w := (w.store.close.1, { w with store := w.store.close.2 })
  record _ w := w

/-- What any number of executions leave of a session: the clock has not gone back, failures have
not become more, and the session is as open and has the tables that it had. -/
structure Trial.Onward (w w' : Trial) : Prop where
  clock : w.now ≤ w'.now
  faultless : w.Faultless → w'.Faultless
  store : w.store.Onward w'.store
  closed : w'.store.closed = w.store.closed

theorem Trial.Onward.refl (w : Trial) : w.Onward w := ⟨Nat.le_refl _, id, .refl _, rfl⟩

theorem Trial.Onward.trans {w w' w'' : Trial} (first : w.Onward w') (later : w'.Onward w'') :
    w.Onward w'' where
  clock := Nat.le_trans first.clock later.clock
  faultless := fun before => later.faultless (first.faultless before)
  store := first.store.trans later.store
  closed := later.closed.trans first.closed

/-- The next execution has taken place, with effect or without. -/
theorem Trial.Onward.next {w : Trial} {store : Store} (onward : w.store.Onward store)
    (closed : store.closed = w.store.closed) : w.Onward (w.next store) where
  clock := Nat.le_add_right _ _
  faultless := fun before step member => before step (List.mem_of_mem_tail member)
  store := onward
  closed := closed

/-- A repository that was started on such a session has its own statements, and its table is
registered. -/
theorem started_on {self : S} {repository : Repository S α} {running : Running S α}
    {w w' : Trial} (shaped : w.store.Shaped)
    (started : repository.start.run (trying self) w = (.ok running, w')) :
    running.Faithful ∧ w'.store.Shaped ∧ w'.store.Holds running.schema.layout := by
  suffices inverted : running.repository = repository ∧
      (∀ kind, (running.statements.of kind).template = repository.schema.template kind) ∧
        w'.store.Shaped ∧ w'.store.Holds repository.schema.layout by
    obtain ⟨rfl, faithful, after⟩ := inverted
    exact ⟨faithful, after⟩
  refine Repository.start_inv (fun kind p => p.template = repository.schema.template kind)
    (fun w => w.store.Shaped)
    (fun w => w.store.Shaped ∧ w.store.Holds repository.schema.layout)
    (fun w session w' good obtained => ?_) (fun session kind w p w' good prepared => ?_)
    (fun w good => good.1) (fun event w good => good) shaped started
  · obtain ⟨handle, obtains⟩ :=
      Repository.obtain_run (r := repository) (h := trying self) (fun _ => rfl) w
    rw [obtains] at obtained
    cases obtained
    exact good
  · have steps := Prod.mk.inj prepared
    have prepares : w.store.prepare (repository.schema.template kind) = (.ok p, w'.store) :=
      Prod.ext steps.1 (congrArg Trial.store steps.2)
    obtain ⟨own, held⟩ := Store.holds_prepare prepares
    have onward := (w.store.prepare_leaves (repository.schema.template kind)).1
    rw [prepares] at onward
    rw [repository.schema.template_layout] at held
    exact ⟨own, onward.shaped good, held⟩

end Memory

/-! ### A confirmation on such a session -/

namespace Running

variable {r : Running S α} {w : Trial}

/-- A statement of the schema is executed, or the execution fails before it takes effect. -/
theorem submit_tries (self : S) (faithful : r.Faithful) (kind : StatementKind)
    {values : List Value}
    (kinds : values.map Value.kind = (r.schema.parameterSpecs kind).map ColumnSpec.kind) :
    ∃ b, b.template = r.schema.template kind ∧ b.values = values ∧
      (r.submit (r.statements.of kind) values).run (trying self) w =
        match w.fault with
        | some e => (.error (.storage e), w.next w.store)
        | none => ((w.store.execute b w.reading).1.mapError RepositoryError.storage,
            w.next (w.store.execute b w.reading).2) := by
  obtain ⟨b, bound, statement, own⟩ := Prepared.exists_bind (faithful kind) kinds
  have template : b.template = r.schema.template kind := by
    rw [Bound.template, statement, faithful kind]
  refine ⟨b, template, own, ?_⟩
  rw [submit_run_of_bind bound]
  cases fault : w.fault with
  | some e =>
    simp only [trying, fault]
    rfl
  | none =>
    simp only [trying, fault]

/-- The session is open, and what the next execution can see is legible. -/
def Ready (r : Running S α) (w : Trial) : Prop :=
  w.store.closed = false ∧ r.schema.Legible (w.store.live w.reading)

/-- A scan fails and changes nothing, or the session was ready for it and it names all groups. -/
theorem scan_tries (self : S) (faithful : r.Faithful) (shaped : w.store.Shaped)
    (held : w.store.Holds r.schema.layout) :
    ∃ result w', r.scanIdentities.run (trying self) w = (result, w') ∧ w.Onward w' ∧
      w'.now = w.reading ∧ (∀ t, w'.now ≤ t → w'.store.live t = w.store.live t) ∧
      ((∃ e, result = .error e ∧ (w.Faultless → ¬r.Ready w)) ∨
        ∃ identities, result = .ok identities ∧ r.Ready w ∧
          ∀ group row id,
            w.store.live w.reading r.schema.settings.table (r.schema.composeKey group) = some row →
            r.schema.Carries id row → ⟨group, id⟩ ∈ identities) := by
  obtain ⟨b, template, values, run⟩ := submit_tries (r := r) (w := w) self faithful
    .selectKeyAndId r.schema.prefixValues_fits
  have reads : b.template.kind = .selectKeyAndId := by rw [template, r.schema.template_kind]
  have silent : ¬w.store.Writes b w.reading := by
    rintro ⟨-, -, writes, -⟩
    rw [reads] at writes
    cases writes
  rw [scanIdentities_eq]
  cases fault : w.fault with
  | some e =>
    rw [fault] at run
    refine ⟨_, _, Program.run_andThen_error run, .next (.refl _) rfl, rfl, fun _ _ => rfl,
      .inl ⟨_, rfl, fun faultless => ?_⟩⟩
    rw [faultless.fault] at fault
    cases fault
  | none =>
    rw [fault] at run
    have onward : w.Onward (w.next (w.store.execute b w.reading).2) :=
      .next (Store.onward_execute shaped b w.reading) (w.store.closed_execute b w.reading)
    have live (t : Nat) (order : w.reading ≤ t) :
        (w.store.execute b w.reading).2.live t = w.store.live t :=
      Store.live_execute shaped silent order
    cases closed : w.store.closed with
    | true =>
      have refused : w.store.execute b w.reading = (.error .closed, w.store) := if_pos closed
      rw [refused] at run onward live
      refine ⟨_, _, Program.run_andThen_error run, onward, rfl, live, .inl ⟨_, rfl, ?_⟩⟩
      rintro - ⟨isOpen, -⟩
      rw [closed] at isOpen
      cases isOpen
    | false =>
      obtain ⟨answer, answered, readable, names⟩ :=
        Store.execute_scan w.reading shaped held closed template values
      rw [answered] at run
      refine ⟨_, _, Program.run_andThen_ok run, onward, rfl, live, ?_⟩
      cases read : readIdentities r.schema answer.rows with
      | ok identities =>
        have legible := readable.mp ((r.schema.readIdentities_ok_iff answer).mp ⟨_, read⟩)
        exact .inr ⟨identities, rfl, ⟨closed, legible⟩, names identities read⟩
      | error e =>
        refine .inl ⟨_, rfl, fun _ ready => ?_⟩
        obtain ⟨identities, found⟩ :=
          (r.schema.readIdentities_ok_iff answer).mpr (readable.mpr ready.2)
        rw [read] at found
        cases found

/-- The loop of deletes has dropped a first part of its groups, and without a failure all. -/
theorem dropEach_tries (self : S) (faithful : r.Faithful) (id : String) (keys : List String)
    (counters : Confirmation) (shaped : w.store.Shaped) (held : w.store.Holds r.schema.layout)
    (isOpen : w.store.closed = false) :
    ∃ result w' n, (r.dropEach id keys counters).run (trying self) w = (result, w') ∧
      w.Onward w' ∧
      (∀ t, w'.now ≤ t → w'.store.live t = r.schema.dropping (w.store.live t) id (keys.take n)) ∧
      ((∃ e, result = .error e ∧ ¬w.Faultless) ∨ ∃ c, result = .ok c ∧ keys.length ≤ n) := by
  -- The groups before the first one were dropped from what the store held then; what the rest of
  -- the loop drops is dropped from what that has left.
  induction keys generalizing w counters with
  | nil =>
    refine ⟨_, w, 0, rfl, .refl w, fun t _ => ?_, .inr ⟨counters, rfl, Nat.le_refl _⟩⟩
    rw [List.take_nil, Schema.dropping_nil]
  | cons key rest ih =>
    obtain ⟨b, template, values, run⟩ := submit_tries (r := r) (w := w) self faithful
      .conditionalDelete (r.schema.conditionalDelete_kinds key id)
    rw [dropEach_cons]
    cases fault : w.fault with
    | some e =>
      rw [fault] at run
      refine ⟨_, _, 0, Program.run_andThen_error run, .next (.refl _) rfl, fun t _ => ?_,
        .inl ⟨_, rfl, fun faultless => ?_⟩⟩
      · rw [List.take_zero, Schema.dropping_nil]
        rfl
      · rw [faultless.fault] at fault
        cases fault
    | none =>
      rw [fault] at run
      obtain ⟨took, answered, dropped⟩ :=
        Store.execute_drop w.reading shaped held isOpen template values
      rw [answered] at run
      have onward : w.Onward (w.next (w.store.execute b w.reading).2) :=
        .next (Store.onward_execute shaped b w.reading) (w.store.closed_execute b w.reading)
      obtain ⟨result, w', n, runRest, onward', left, ends⟩ := ih (counters.count took)
        (onward.store.shaped shaped) (onward.store.holds _ held) (onward.closed.trans isOpen)
      have read : readApplied (.flag took) = .ok took := rfl
      refine ⟨result, w', n + 1, ?_, onward.trans onward', fun t order => ?_, ?_⟩
      · rw [Program.run_andThen_ok run]
        simp only [read, runRest]
      · have later : w.reading ≤ t := Nat.le_trans onward'.clock order
        rw [left t order]
        show r.schema.dropping ((w.store.execute b w.reading).2.live t) _ _ = _
        rw [dropped t later, Schema.dropping_cons]
        rfl
      · rcases ends with ⟨e, failed, faulty⟩ | ⟨c, ok, all⟩
        · exact .inl ⟨e, failed, fun before => faulty (onward.faultless before)⟩
        · exact .inr ⟨c, ok, Nat.succ_le_succ all⟩

/-- What is known of a confirmation, wherever it is cut off: it has dropped some groups under its
id and nothing else, and none unless the session was ready; if it succeeds, it has dropped all; and
it does succeed on a session that is ready if no execution fails. -/
structure Attempted (r : Running S α) (id : String) (w : Trial)
    (result : Except RepositoryError Confirmation) (w' : Trial) : Prop where
  onward : w.Onward w'
  clock : w.reading ≤ w'.now
  left : ∃ groups, (groups = [] ∨ r.Ready w) ∧
    ∀ t, w'.now ≤ t → w'.store.live t = r.schema.dropping (w.store.live t) id groups
  whole : result.isOk → r.Ready w ∧
    ∀ t, w'.now ≤ t → w'.store.live t = r.schema.cleared (w.store.live t) id
  succeeds : w.Faultless → r.Ready w → result.isOk

/-- Every confirmation is attempted so. -/
theorem confirm_tries (self : S) (faithful : r.Faithful) (id : String) (shaped : w.store.Shaped)
    (held : w.store.Holds r.schema.layout) :
    r.Attempted id w ((r.confirm id).run (trying self) w).1
      ((r.confirm id).run (trying self) w).2 := by
  suffices inside : r.Attempted id w ((r.confirmMatches id).run (trying self) w).1
      ((r.confirmMatches id).run (trying self) w).2 by
    rw [confirm, Program.run_reported]
    exact inside
  obtain ⟨result, w₁, run, onward, clock, liveEq, ends⟩ :=
    scan_tries (r := r) (w := w) self faithful shaped held
  rcases ends with ⟨e, rfl, unready⟩ | ⟨identities, rfl, ready, names⟩
  · have failed : (r.confirmMatches id).run (trying self) w = (.error e, w₁) :=
      Program.run_andThen_error run
    rw [failed]
    refine ⟨onward, Nat.le_of_eq clock.symm, ⟨[], .inl rfl, fun t order => ?_⟩,
      fun ok => (by cases ok), fun faultless ready => absurd ready (unready faultless)⟩
    rw [liveEq t order, Schema.dropping_nil]
  · obtain ⟨result, w', n, runRest, onward', left, ends⟩ := dropEach_tries (w := w₁) self faithful
      id (carriers id identities) ⟨0, 0, 0⟩ (onward.store.shaped shaped)
      (onward.store.holds _ held) (onward.closed.trans ready.1)
    have dropped (t : Nat) (order : w'.now ≤ t) : w'.store.live t =
        r.schema.dropping (w.store.live t) id ((carriers id identities).take n) := by
      rw [left t order, liveEq t (Nat.le_trans onward'.clock order)]
    have scanned : (r.confirmMatches id).run (trying self) w = (result, w') :=
      (Program.run_andThen_ok run).trans runRest
    rw [scanned]
    refine ⟨onward.trans onward', clock ▸ onward'.clock, ⟨_, .inr ready, dropped⟩,
      fun ok => ⟨ready, fun t order => ?_⟩, fun faultless _ => ?_⟩
    · rcases ends with ⟨e, rfl, -⟩ | ⟨c, -, all⟩
      · cases ok
      · rw [dropped t order, List.take_of_length_le all]
        refine Schema.dropping_eq_cleared fun group row stored carries => ?_
        -- What carries the id later was there for the scan.
        have before := Store.live_earlier
          (Nat.le_trans (Nat.le_of_eq clock.symm) (Nat.le_trans onward'.clock order)) stored
        exact List.mem_map.mpr ⟨⟨group, id⟩,
          List.mem_filter.mpr ⟨names group row id before carries, by simp⟩, rfl⟩
    · rcases ends with ⟨e, -, faulty⟩ | ⟨c, rfl, -⟩
      · exact absurd (onward.faultless faultless) faulty
      · rfl

end Running

/-! ### The next attempt -/

/-- Executions that all take effect, after some pauses. -/
def steadily (pauses : List Nat) : List (Nat × Option SessionError) :=
  pauses.map fun pause => (pause, none)

theorem steadily_faultless (st : Store) (now : Nat) (pauses : List Nat) :
    (⟨st, now, steadily pauses⟩ : Trial).Faultless := by
  intro step member
  obtain ⟨pause, -, rfl⟩ := List.mem_map.mp member
  rfl

theorem steadily_reading (st : Store) (now : Nat) (pauses : List Nat) :
    (⟨st, now, steadily pauses⟩ : Trial).reading = now + pauses.headD 0 := by
  cases pauses <;> rfl

/-- A session that goes on after another one: time may have passed, but nothing was written. -/
structure Memory.Trial.Resumes (w w' : Trial) : Prop where
  clock : w.now ≤ w'.now
  closed : w'.store.closed = w.store.closed
  live : ∀ t, w'.now ≤ t → w'.store.live t = w.store.live t

namespace Running

variable {r : Running S α} {id : String} {w w' : Trial}
variable {result : Except RepositoryError Confirmation}

/-- An attempt without failures succeeds iff the session is ready for it. -/
theorem Attempted.isOk_iff (attempted : r.Attempted id w result w') (faultless : w.Faultless) :
    result.isOk ↔ r.Ready w :=
  ⟨fun ok => (attempted.whole ok).1, attempted.succeeds faultless⟩

variable {again again' once once' : Trial}
variable {result₁ result₂ : Except RepositoryError Confirmation}

/-- What the next attempt sees is what the first has left of what one attempt would see. -/
theorem Attempted.exists_seen (first : r.Attempted id w result w') (resumes : w'.Resumes again)
    (origin : once.store = w.store) :
    ∃ groups, (groups = [] ∨ r.Ready w) ∧ ∀ t, again.now ≤ t →
      again.store.live t = r.schema.dropping (once.store.live t) id groups := by
  obtain ⟨groups, ready, left⟩ := first.left
  refine ⟨groups, ready, fun t order => ?_⟩
  rw [resumes.live t order, left t (Nat.le_trans resumes.clock order), origin]

/-- At the same moment the session is as ready for the next attempt as it would be for one attempt
in the place of both. -/
theorem Attempted.ready_iff (first : r.Attempted id w result w') (resumes : w'.Resumes again)
    (origin : once.store = w.store) (readingEq : again.reading = once.reading) :
    r.Ready again ↔ r.Ready once := by
  obtain ⟨groups, -, seen⟩ := first.exists_seen resumes origin
  have later : again.now ≤ again.reading := Nat.le_add_right _ _
  unfold Ready
  rw [seen _ later, Schema.legible_dropping, readingEq, resumes.closed,
    first.onward.closed, origin]

/-- If the next attempt and one attempt in the place of both succeed, they leave the same. -/
theorem Attempted.alike_of_ok (first : r.Attempted id w result w') (resumes : w'.Resumes again)
    (origin : once.store = w.store) (second : r.Attempted id again result₁ again')
    (single : r.Attempted id once result₂ once') (ok₁ : result₁.isOk) (ok₂ : result₂.isOk)
    {t : Nat} (order₁ : again'.now ≤ t) (order₂ : once'.now ≤ t) :
    again'.store.live t = once'.store.live t := by
  obtain ⟨groups, -, seen⟩ := first.exists_seen resumes origin
  have reading : again.now ≤ t := Nat.le_trans second.onward.clock order₁
  rw [(second.whole ok₁).2 t order₁, (single.whole ok₂).2 t order₂, seen t reading,
    Schema.cleared_dropping]

/-- If one attempt in the place of both succeeds at an earlier moment, so does the next one. -/
theorem Attempted.succeeds_later (first : r.Attempted id w result w') (resumes : w'.Resumes again)
    (origin : once.store = w.store) (second : r.Attempted id again result₁ again')
    (single : r.Attempted id once result₂ once') (calm : again.Faultless)
    (earlier : once.reading ≤ again.reading) (ok : result₂.isOk) : result₁.isOk := by
  obtain ⟨isOpen, legible⟩ := (single.whole ok).1
  -- An attempt in the place of both that scans when the next one does would find all legible, too.
  let delayed : Trial := ⟨once.store, again.reading, []⟩
  have ready : r.Ready again ↔ r.Ready delayed := first.ready_iff resumes origin rfl
  exact second.succeeds calm (ready.mpr ⟨isOpen, legible.later earlier⟩)

/-- At the same moment, without failures, the next attempt and one attempt in the place of both
fare and leave the same. -/
theorem Attempted.alike_of_reading (first : r.Attempted id w result w')
    (resumes : w'.Resumes again) (origin : once.store = w.store)
    (second : r.Attempted id again result₁ again') (single : r.Attempted id once result₂ once')
    (calm₁ : again.Faultless) (calm₂ : once.Faultless) (readingEq : again.reading = once.reading) :
    result₁.isOk = result₂.isOk ∧ ∀ t, again'.now ≤ t → once'.now ≤ t →
      again'.store.live t = once'.store.live t := by
  have ready := first.ready_iff resumes origin readingEq
  have fares : result₁.isOk = true ↔ result₂.isOk = true := by
    rw [second.isOk_iff calm₁, ready, single.isOk_iff calm₂]
  refine ⟨Bool.eq_iff_iff.mpr fares, fun t order₁ order₂ => ?_⟩
  by_cases readyNow : r.Ready once
  · exact first.alike_of_ok resumes origin second single
      (second.succeeds calm₁ (ready.mpr readyNow))
      (single.succeeds calm₂ readyNow) order₁ order₂
  · -- What cannot be read now could not be read by the first attempt: none of the three has
    -- dropped anything.
    obtain ⟨groups, before, seen⟩ := first.exists_seen resumes origin
    obtain ⟨groups₁, now₁, left₁⟩ := second.left
    obtain ⟨groups₂, now₂, left₂⟩ := single.left
    have untouched : groups = [] := by
      refine before.resolve_right fun readyThen => readyNow ⟨origin ▸ readyThen.1, ?_⟩
      rw [origin, ← readingEq]
      refine readyThen.2.later (Nat.le_trans first.clock ?_)
      exact Nat.le_trans resumes.clock (Nat.le_add_right _ _)
    rw [left₁ t order₁, left₂ t order₂, seen t (Nat.le_trans second.onward.clock order₁), untouched,
      now₁.resolve_right fun readyAgain => readyNow (ready.mp readyAgain),
      now₂.resolve_right readyNow]
    simp

end Running

/-- A confirmation on a memory session on which anything may have happened before, during which any
execution may fail before it takes effect.  If the confirmation fails, it has removed nothing but
live rows under its own table and prefix that have its id, and changed no others.  When it is made
again without failures, after anything that neither writes nor closes the session, it fares and
leaves the same live rows as one confirmation without failures, at the same moment, in the place of
both.  As one at another moment it leaves the same live rows if both succeed, and it does succeed
if that one did at an earlier moment.  What a confirmation without failures needs to succeed is an
open session and, at its scan, no live row under its prefix that is not the row of a group or has
no id. -/
theorem failed_confirm_retried (session : S) (repository : Repository S α)
    (before after : List Demand)
    (start : Nat) (plan : List (Nat × Option SessionError)) :
    ∀ r w₀, repository.start.run (trying session) ⟨Store.empty.serveAll before, start, plan⟩ =
      (.ok r, w₀) → ∀ id,
    let st := w₀.store.serveAll after
    let confirm (w : Trial) := (r.confirm id).run (trying session) w
    ∀ now ahead e w, confirm ⟨st, now, ahead⟩ = (.error e, w) →
      (∀ t, w.now ≤ t → ∀ table key, w.store.live t table key = st.live t table key ∨
        (w.store.live t table key = none ∧ table = r.schema.settings.table ∧
          (∃ group, key = r.schema.composeKey group) ∧
          ∃ row, st.live t table key = some row ∧ r.schema.Carries id row)) ∧
      ∀ between later, w.store.Idle w.now between later → ∀ pauses now' pauses',
        let again := confirm ⟨w.store.serveAll between, later, steadily pauses⟩
        let once := confirm ⟨st, now', steadily pauses'⟩
        let scanAgain := later + pauses.headD 0
        let scanOnce := now' + pauses'.headD 0
        let alike := ∀ t, again.2.now ≤ t → once.2.now ≤ t →
          again.2.store.live t = once.2.store.live t
        (scanOnce = scanAgain → again.1.isOk = once.1.isOk ∧ alike) ∧
        (again.1.isOk → once.1.isOk → alike) ∧
        (scanOnce ≤ scanAgain → once.1.isOk → again.1.isOk) ∧
        (once.1.isOk ↔ st.closed = false ∧ r.schema.Legible (st.live scanOnce)) := by
  intro r w₀ started id st confirm now ahead e w failed
  obtain ⟨faithful, shaped₀, held₀⟩ :=
    started_on
      (Store.onward_serveAll Store.shaped_empty before |>.shaped Store.shaped_empty) started
  have reached := Store.onward_serveAll shaped₀ after
  have shaped : st.Shaped := reached.shaped shaped₀
  have held : st.Holds r.schema.layout := reached.holds _ held₀
  have first := Running.confirm_tries (w := ⟨st, now, ahead⟩) session faithful id shaped held
  rw [show (r.confirm id).run (trying session) ⟨st, now, ahead⟩ = _ from failed] at first
  refine ⟨fun t order table key => ?_, fun between later idle pauses now' pauses' => ?_⟩
  · obtain ⟨groups, -, left⟩ := first.left
    rw [left t order]
    exact r.schema.dropping_cases _ id groups table key
  · have shaped₁ := first.onward.store.shaped shaped
    obtain ⟨order, closed, live⟩ := idle.leaves shaped₁
    have idled := Store.onward_serveAll shaped₁ between
    have second := Running.confirm_tries (w := ⟨w.store.serveAll between, later, steadily pauses⟩)
      session faithful id (idled.shaped shaped₁) (idled.holds _ (first.onward.store.holds _ held))
    have single := Running.confirm_tries (w := ⟨st, now', steadily pauses'⟩) session faithful id
      shaped held
    have resumes : w.Resumes ⟨w.store.serveAll between, later, steadily pauses⟩ :=
      ⟨order, closed, live⟩
    have origin : (⟨st, now', steadily pauses'⟩ : Trial).store =
      (⟨st, now, ahead⟩ : Trial).store := rfl
    have calm := steadily_faultless st now' pauses'
    have calm' := steadily_faultless (w.store.serveAll between) later pauses
    intro again once scanAgain scanOnce alike
    have readsOnce : (⟨st, now', steadily pauses'⟩ : Trial).reading = scanOnce :=
      steadily_reading st now' pauses'
    have readsAgain : (⟨w.store.serveAll between, later, steadily pauses⟩ : Trial).reading =
        scanAgain := steadily_reading _ later pauses
    refine ⟨fun scansEq => ?_, fun ok ok' t order order' => ?_, fun earlier ok => ?_, ?_⟩
    · exact first.alike_of_reading resumes origin second single calm' calm
        (readsAgain.trans (scansEq.symm.trans readsOnce.symm))
    · exact first.alike_of_ok resumes origin second single ok ok' order order'
    · rw [← readsOnce, ← readsAgain] at earlier
      exact first.succeeds_later resumes origin second single calm' earlier ok
    · rw [← readsOnce]
      exact single.isOk_iff calm

/-! ### Two groups of one exchange -/

/-- A repository whose results all belong to one exchange. -/
def marked : Repository Unit Unit where
  schema := plainRepository.schema
  codec := ⟨fun _ => "e", fun _ _ => .ok .empty, fun _ _ => .ok ()⟩
  source := .owned

/-- The insert of a result of an exchange for a group. -/
def insertion (s : Schema) (group id : String) : Bound where
  statement := ⟨s.template .insert, ""⟩
  values := s.composeKey group ++ [.text id, .blob .empty]
  admitted := (s.accept_iff .insert _).mpr (s.insert_kinds group id .empty)

/-- A result of the exchange for each of two groups, and one of another exchange. -/
def insertions : List Demand :=
  [("k1", "e"), ("k2", "e"), ("k3", "other")].map fun (group, id) =>
    .execute (insertion marked.schema group id) 0

/-- The scan and the first delete take effect, and the second delete fails. -/
def halfway : List (Nat × Option SessionError) := [(0, none), (5, none), (5, some .closed)]

/-- Whether a confirmation of the exchange succeeds, and which of the groups it leaves. -/
def fares (r : Running Unit Unit) (w : Trial) : Bool × List Bool :=
  let (result, w') := (r.confirm "e").run (trying ()) w
  (result.isOk, ["k1", "k2", "k3"].map fun group =>
    (w'.store.live w'.now r.schema.settings.table (r.schema.composeKey group)).isSome)

/-- How an attempt that is cut off halfway and the next one fare. -/
def attemptedTwice : Option ((Bool × List Bool) × (Bool × List Bool)) :=
  match marked.start.run (trying ()) ⟨Store.empty.serveAll [], 0, []⟩ with
  | (.ok r, w₀) =>
    let w : Trial := ⟨w₀.store.serveAll insertions, 10, halfway⟩
    let w' := ((r.confirm "e").run (trying ()) w).2
    some (fares r w, fares r ⟨w'.store, w'.now, steadily [5, 5]⟩)
  | _ => none

/-- An attempt that has removed the first group only, and the next one. -/
theorem failed_confirm_retried_halfway :
    attemptedTwice = some ((false, [false, true, true]), (true, [false, false, true])) ∧
      ∃ r w₀ e w,
        marked.start.run (trying ()) ⟨Store.empty.serveAll [], 0, []⟩ = (.ok r, w₀) ∧
        (r.confirm "e").run (trying ()) ⟨w₀.store.serveAll insertions, 10, halfway⟩ =
          (.error e, w) ∧
        w.store.Idle w.now [] w.now ∧
        let again := (r.confirm "e").run (trying ()) ⟨w.store, w.now, steadily [5, 5]⟩
        let once := (r.confirm "e").run (trying ())
          ⟨w₀.store.serveAll insertions, w.now, steadily [5]⟩
        again.1.isOk = once.1.isOk ∧ ∀ t, again.2.now ≤ t → once.2.now ≤ t →
          again.2.store.live t = once.2.store.live t := by
  have outcome : attemptedTwice =
      some ((false, [false, true, true]), (true, [false, false, true])) := by decide +kernel
  refine ⟨outcome, ?_⟩
  rcases started : marked.start.run (trying ()) ⟨Store.empty.serveAll [], 0, []⟩ with ⟨result, w₀⟩
  rw [attemptedTwice, started] at outcome
  cases result with
  | error e => cases outcome
  | ok r =>
    have fared := congrArg Prod.fst (Option.some.inj outcome)
    rcases tried : (r.confirm "e").run (trying ()) ⟨w₀.store.serveAll insertions, 10, halfway⟩
      with ⟨result, w⟩
    rw [fares, tried] at fared
    cases result with
    | ok c => cases congrArg Prod.fst fared
    | error e =>
      have idle : w.store.Idle w.now [] w.now := Nat.le_refl _
      obtain ⟨-, retried⟩ := failed_confirm_retried () marked [] insertions 0 [] r w₀ started "e"
        10 halfway e w tried
      exact ⟨r, w₀, e, w, rfl, tried, idle, (retried [] w.now idle [5, 5] w.now [5]).1 rfl⟩

end GroupStore

import GroupStore.Proofs.Calls

/-!
# Starting a repository

A start obtains the session, has the five statements prepared one after the other and reports
them.  What it leaves is decided by what each preparation leaves.

* `Repository.start_inv` — a successful start leaves what successful preparations leave, and its
  statements are those of the schema;
* `Repository.start_run`, `Repository.start_ok` — a start succeeds if every preparation does;
* `Repository.start_yields` — a start that goes request by request, among others.
-/

namespace GroupStore.Repository

variable {S α σ : Type} {h : Host σ S} {r : Repository S α}

/-- A session is obtained at once where every connection succeeds. -/
theorem obtain_run {self : S} (connects : ∀ w, h.connect w = (.ok self, w)) (w : σ) :
    ∃ session, r.obtain.run h w = (.ok session, w) := by
  unfold obtain
  cases r.source with
  | borrowed session => exact ⟨session, rfl⟩
  | owned => exact ⟨self, by simp only [Program.run, connects]⟩

theorem prepareOne_eq_ok_iff {session : S} {kind : StatementKind} {w w' : σ} {p : Prepared} :
    (r.prepareOne session kind).run h w = (.ok p, w') ↔
      h.prepare session (r.schema.template kind) w = (.ok p, w') := by
  rcases prepared : h.prepare session (r.schema.template kind) w with ⟨answer, w₁⟩
  simp only [prepareOne, Program.run, prepared]
  cases answer <;> simp [Program.run]

/-- The five preparations, one after the other. -/
theorem prepareAll_eq_ok_iff {session : S} {w w' : σ} {p : Statements} :
    (r.prepareAll session).run h w = (.ok p, w') ↔
      ∃ w₁ w₂ w₃ w₄,
        h.prepare session (r.schema.template .insert) w = (.ok p.insert, w₁) ∧
        h.prepare session (r.schema.template .selectByKey) w₁ = (.ok p.selectByKey, w₂) ∧
        h.prepare session (r.schema.template .deleteByKey) w₂ = (.ok p.deleteByKey, w₃) ∧
        h.prepare session (r.schema.template .selectKeyAndId) w₃ = (.ok p.selectKeyAndId, w₄) ∧
        h.prepare session (r.schema.template .conditionalDelete) w₄ =
          (.ok p.conditionalDelete, w') := by
  simp only [prepareAll, Program.run_andThen_eq_ok_iff, prepareOne_eq_ok_iff]
  constructor
  · rintro ⟨p₁, w₁, one, p₂, w₂, two, p₃, w₃, three, p₄, w₄, four, p₅, w₅, five, all⟩
    cases all
    exact ⟨w₁, w₂, w₃, w₄, one, two, three, four, five⟩
  · rintro ⟨w₁, w₂, w₃, w₄, one, two, three, four, five⟩
    exact ⟨_, w₁, one, _, w₂, two, _, w₃, three, _, w₄, four, _, w', five, rfl⟩

/-- Announcing statements keeps what every report keeps. -/
theorem announce_run {I : σ → Prop} (record : ∀ event w, I w → I (h.record event w)) {β : Type}
    (statements : List Prepared) (result : β) {w : σ} (good : I w) :
    ∃ w', (r.announce statements (.done result)).run h w = (result, w') ∧ I w' := by
  induction statements generalizing w with
  | nil => exact ⟨w, rfl, good⟩
  | cons p rest ih => exact ih (record _ w good)

/-- A start is a session, five preparations and reports. -/
theorem start_eq_ok {w w' : σ} {running : Running S α} (run : r.start.run h w = (.ok running, w')) :
    ∃ session w₁ statements w₂, r.obtain.run h w = (.ok session, w₁) ∧
      (r.prepareAll session).run h w₁ = (.ok statements, w₂) ∧
      running = ⟨r, session, statements⟩ ∧
      ∀ I : σ → Prop, (∀ event w, I w → I (h.record event w)) → I w₂ → I w' := by
  rw [start, Program.run_reported] at run
  rcases whole : (r.obtain.andThen r.startOn).run h w with ⟨result, w₃⟩
  rw [whole] at run
  obtain ⟨rfl, rfl⟩ := Prod.mk.inj run
  obtain ⟨session, w₁, obtained, started⟩ := Program.run_andThen_eq_ok_iff.mp whole
  rw [startOn, Program.run_bind] at started
  rcases prepared : (r.prepareAll session).run h w₁ with ⟨outcome, w₂⟩
  rw [prepared] at started
  cases outcome with
  | error e =>
    have refused : (r.giveUp session e.1 e.2).run h w₂ = (.ok running, w₃) := started
    unfold giveUp at refused
    split at refused
    · rw [Program.run] at refused
      rcases closing : h.close session w₂ with ⟨answer, w₄⟩
      rw [closing] at refused
      cases answer <;> cases refused
    · cases refused
  | ok statements =>
    refine ⟨session, w₁, statements, w₂, obtained, prepared, ?_, fun I record good => ?_⟩
    · obtain ⟨w₄, announced, -⟩ := announce_run (I := fun _ => True) (h := h) (r := r)
        (fun _ _ _ => trivial) statements.toList
        (Except.ok (ε := RepositoryError) (⟨r, session, statements⟩ : Running S α))
        (w := w₂) trivial
      have startedEq := Prod.mk.inj (announced.symm.trans started)
      exact (Except.ok.inj startedEq.1).symm
    · obtain ⟨w₄, announced, good'⟩ := announce_run (h := h) (r := r) record statements.toList
        (Except.ok (ε := RepositoryError) (⟨r, session, statements⟩ : Running S α)) good
      have startedEq := Prod.mk.inj (announced.symm.trans started)
      exact record _ _ (startedEq.2 ▸ good')

/-- What successful preparations yield and leave, all of them together. -/
theorem prepareAll_inv (P : StatementKind → Prepared → Prop) (Before After : σ → Prop)
    {session : S} (prepares : ∀ kind w p w', Before w →
      h.prepare session (r.schema.template kind) w = (.ok p, w') → P kind p ∧ After w')
    (before : ∀ w, After w → Before w) {w w' : σ} {statements : Statements} (good : Before w)
    (prepared : (r.prepareAll session).run h w = (.ok statements, w')) :
    (∀ kind, P kind (statements.of kind)) ∧ After w' := by
  obtain ⟨w₁, w₂, w₃, w₄, one, two, three, four, five⟩ := prepareAll_eq_ok_iff.mp prepared
  obtain ⟨insert, good₁⟩ := prepares .insert w _ w₁ good one
  obtain ⟨selectByKey, good₂⟩ := prepares .selectByKey w₁ _ w₂ (before _ good₁) two
  obtain ⟨deleteByKey, good₃⟩ := prepares .deleteByKey w₂ _ w₃ (before _ good₂) three
  obtain ⟨selectKeyAndId, good₄⟩ := prepares .selectKeyAndId w₃ _ w₄ (before _ good₃) four
  obtain ⟨conditionalDelete, good₅⟩ :=
    prepares .conditionalDelete w₄ _ w' (before _ good₄) five
  refine ⟨fun kind => ?_, good₅⟩
  cases kind with
  | insert => exact insert
  | selectByKey => exact selectByKey
  | deleteByKey => exact deleteByKey
  | selectKeyAndId => exact selectKeyAndId
  | conditionalDelete => exact conditionalDelete

/-- A successful start leaves what each successful preparation leaves, and its statements are what
these yield. -/
theorem start_inv (P : StatementKind → Prepared → Prop) (Before After : σ → Prop)
    (obtains : ∀ w session w', Before w → r.obtain.run h w = (.ok session, w') → Before w')
    (prepares : ∀ session kind w p w', Before w →
      h.prepare session (r.schema.template kind) w = (.ok p, w') → P kind p ∧ After w')
    (before : ∀ w, After w → Before w) (record : ∀ event w, After w → After (h.record event w))
    {w w' : σ} {running : Running S α} (good : Before w)
    (run : r.start.run h w = (.ok running, w')) :
    running.repository = r ∧ (∀ kind, P kind (running.statements.of kind)) ∧ After w' := by
  obtain ⟨session, w₁, statements, w₂, obtained, prepared, rfl, reports⟩ := start_eq_ok run
  obtain ⟨each, after⟩ := prepareAll_inv P Before After (prepares session) before
    (obtains w session w₁ good obtained) prepared
  exact ⟨rfl, each, reports After record after⟩

/-- Where every preparation succeeds, all do one after the other. -/
theorem prepareAll_ok (P : StatementKind → Prepared → Prop) (Good : σ → Prop) {session : S}
    (prepares : ∀ kind w, Good w →
      ∃ p w', h.prepare session (r.schema.template kind) w = (.ok p, w') ∧ P kind p ∧ Good w')
    {w : σ} (good : Good w) :
    ∃ statements w', (r.prepareAll session).run h w = (.ok statements, w') ∧
      (∀ kind, P kind (statements.of kind)) ∧ Good w' := by
  obtain ⟨p₁, w₁, one, yields₁, good₁⟩ := prepares .insert w good
  obtain ⟨p₂, w₂, two, yields₂, good₂⟩ := prepares .selectByKey w₁ good₁
  obtain ⟨p₃, w₃, three, yields₃, good₃⟩ := prepares .deleteByKey w₂ good₂
  obtain ⟨p₄, w₄, four, yields₄, good₄⟩ := prepares .selectKeyAndId w₃ good₃
  obtain ⟨p₅, w₅, five, yields₅, good₅⟩ := prepares .conditionalDelete w₄ good₄
  refine ⟨⟨p₁, p₂, p₃, p₄, p₅⟩, w₅,
    prepareAll_eq_ok_iff.mpr ⟨w₁, w₂, w₃, w₄, one, two, three, four, five⟩, fun kind => ?_, good₅⟩
  cases kind with
  | insert => exact yields₁
  | selectByKey => exact yields₂
  | deleteByKey => exact yields₃
  | selectKeyAndId => exact yields₄
  | conditionalDelete => exact yields₅

/-- Prepared statements are announced, and with them a repository has started on its session. -/
theorem startOn_run {session : S} {w w₁ : σ} {statements : Statements}
    (prepared : (r.prepareAll session).run h w = (.ok statements, w₁)) {I : σ → Prop}
    (record : ∀ event w, I w → I (h.record event w)) (good : I w₁) :
    ∃ w', (r.startOn session).run h w = (.ok ⟨r, session, statements⟩, w') ∧ I w' := by
  obtain ⟨w', announced, good'⟩ := announce_run (h := h) (r := r) record statements.toList
    (Except.ok (ε := RepositoryError) (⟨r, session, statements⟩ : Running S α)) good
  refine ⟨w', ?_, good'⟩
  rw [startOn, Program.run_bind, prepared]
  exact announced

/-- A start succeeds once its session is obtained and its statements are prepared. -/
theorem start_run {session : S} {w w₁ w₂ : σ} {statements : Statements}
    (obtained : r.obtain.run h w = (.ok session, w₁))
    (prepared : (r.prepareAll session).run h w₁ = (.ok statements, w₂)) {I : σ → Prop}
    (record : ∀ event w, I w → I (h.record event w)) (good : I w₂) :
    ∃ w', r.start.run h w = (.ok ⟨r, session, statements⟩, w') ∧ I w' := by
  obtain ⟨w₃, started, good₃⟩ := startOn_run prepared record good
  let event := r.report (β := Running S α) .start none none plainly (.ok ⟨r, session, statements⟩)
  refine ⟨h.record event w₃, ?_, record event w₃ good₃⟩
  rw [start, Program.run_reported, Program.run_andThen_ok obtained, started]

/-- A start succeeds if a session is obtained and every preparation succeeds. -/
theorem start_ok (Good : σ → Prop)
    (obtains : ∀ w, Good w → ∃ session w', r.obtain.run h w = (.ok session, w') ∧ Good w')
    (prepares : ∀ session kind w, Good w →
      ∃ p w', h.prepare session (r.schema.template kind) w = (.ok p, w') ∧ Good w')
    {w : σ} (good : Good w) : ∃ running w', r.start.run h w = (.ok running, w') := by
  obtain ⟨session, w₁, obtained, good₁⟩ := obtains w good
  obtain ⟨statements, w₂, prepared, -, -⟩ := prepareAll_ok (fun _ _ => True) Good
    (fun kind w good => (prepares session kind w good).imp fun p ⟨w', prepared, good'⟩ =>
      ⟨w', prepared, trivial, good'⟩) good₁
  obtain ⟨w', started, -⟩ := start_run (I := fun _ => True) obtained prepared
    (fun _ _ _ => trivial) trivial
  exact ⟨_, w', started⟩

/-- The statements that all preparations yield. -/
theorem prepareAll_yields {session : S} {P : S → Template → Prepared → Prop} :
    (r.prepareAll session).Yields P fun result => ∀ statements, result = .ok statements →
      ∀ kind, P session (r.schema.template kind) (statements.of kind) := by
  have one (kind : StatementKind) : (r.prepareOne session kind).Yields P fun result =>
      ∀ p, result = .ok p → P session (r.schema.template kind) p := by
    refine ⟨fun e p clash => (by cases clash), fun p accepted p' preparedEq => ?_⟩
    cases preparedEq
    exact accepted
  unfold prepareAll
  refine (one .insert).andThen (fun _ _ clash => by cases clash) fun insert first => ?_
  refine (one .selectByKey).andThen (fun _ _ clash => by cases clash) fun selectByKey second => ?_
  refine (one .deleteByKey).andThen (fun _ _ clash => by cases clash) fun deleteByKey third => ?_
  refine (one .selectKeyAndId).andThen (fun _ _ clash => by cases clash)
    fun selectKeyAndId fourth => ?_
  refine (one .conditionalDelete).andThen (fun _ _ clash => by cases clash)
    fun conditionalDelete fifth => ?_
  intro statements statementsEq kind
  cases statementsEq
  cases kind with
  | insert => exact first
  | selectByKey => exact second
  | deleteByKey => exact third
  | selectKeyAndId => exact fourth
  | conditionalDelete => exact fifth

theorem announce_yields {β : Type} {P : S → Template → Prepared → Prop} {Q : β → Prop}
    (statements : List Prepared) {next : Program S β} (hn : next.Yields P Q) :
    (r.announce statements next).Yields P Q := by
  induction statements with
  | nil => exact hn
  | cons p rest ih => exact ih

/-- Whatever happens between the requests of a start, if it succeeds, its statements are what the
preparations of the schema's templates on its session yielded. -/
theorem start_yields (r : Repository S α) (P : S → Template → Prepared → Prop) :
    r.start.Yields P fun result => ∀ running, result = .ok running → running.repository = r ∧
      ∀ kind, P running.session (r.schema.template kind) (running.statements.of kind) := by
  let Q (result : Except RepositoryError (Running S α)) : Prop :=
    ∀ running, result = .ok running → running.repository = r ∧
      ∀ kind, P running.session (r.schema.template kind) (running.statements.of kind)
  have refused (e : RepositoryError) : Q (.error e) := fun running clash => by cases clash
  have startOn (session : S) : (r.startOn session).Yields P Q := by
    refine prepareAll_yields.bind fun result accepted => ?_
    cases result with
    | ok statements =>
      refine announce_yields _ fun running runningEq => ?_
      cases runningEq
      exact ⟨rfl, accepted statements rfl⟩
    | error e =>
      show (r.giveUp session e.1 e.2).Yields P Q
      unfold giveUp
      split
      · intro answer
        cases answer <;> exact refused _
      · exact refused _
  have obtained : (r.obtain.andThen r.startOn).Yields P Q := by
    unfold obtain
    cases r.source with
    | borrowed session => exact startOn session
    | owned =>
      intro answer
      cases answer with
      | ok session => exact startOn session
      | error e => exact refused _
  exact obtained.bind fun result good => good

/-- A table for the results of a repository. -/
def resultsTable : TableName := ⟨none, ⟨"results", by decide +kernel, by decide +kernel⟩⟩

/-- The column that says whose row it is where several tenants share a table. -/
def tenantColumn : Identifier := ⟨"tenant", by decide +kernel, by decide +kernel⟩

/-- The prefix of one of several tenants that share a table. -/
def tenantPrefix (tenant : String) : FixedPrefix := ⟨[⟨tenantColumn, .text tenant⟩], rfl⟩

end GroupStore.Repository

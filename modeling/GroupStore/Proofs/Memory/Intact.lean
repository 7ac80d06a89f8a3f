import GroupStore.Proofs.Memory.Host
import GroupStore.Proofs.Memory.Rows
import GroupStore.Proofs.ReadBack
import GroupStore.Proofs.Reports
import GroupStore.Proofs.Trace

/-!
# What failures leave of a memory session

A statement that is refused or that fails writes nothing, whatever it was prepared for and whoever
prepared it.  A call that submits one statement therefore leaves every table as it was if it fails:
an add and a remove fail with their statement, and a get that has found a row has not purged one.

* `Memory.Store.SameTables` — the tables have the layouts and the rows that they had;
* `Memory.Store.execute_found` — a point read that finds something changes nothing;
* `Memory.FailsIntact` — programs whose failures change nothing;
* `Memory.failures_leave_tables` — statements, calls, and adds that cannot be marshalled.
-/

namespace GroupStore.Memory

variable {S α β : Type}

/-- Under every name there is the table that was there, with its layout and its rows. -/
def Store.SameTables (st st' : Store) : Prop := ∀ name, st'.table? name = st.table? name

section Statements

variable {st : Store} {b : Bound} {t : Template} {now : Nat}

theorem Store.sameTables_of_tables {st' : Store} (tablesEq : st'.tables = st.tables) :
    st.SameTables st' := by
  intro name
  unfold Store.table?
  rw [tablesEq]

/-- A preparation that fails leaves the store. -/
theorem Store.prepare_failed {e : SessionError} (failed : (st.prepare t).1 = .error e) :
    (st.prepare t).2 = st := by
  rcases st.prepare_cases t with ⟨e', run⟩ | ⟨st', -, run⟩
  · rw [run]
  · rw [run] at failed
    cases failed

/-- An execution that fails leaves the tables. -/
theorem Store.execute_failed {e : SessionError} (failed : (st.execute b now).1 = .error e) :
    (st.execute b now).2.tables = st.tables := by
  rcases st.execute_cases b now with ⟨e', st', run, tablesEq, -⟩ | ⟨t, t', answer, -, -, -, run⟩
  · rw [run]
    exact tablesEq
  · rw [run] at failed
    cases failed

/-- A point read drops only what it does not return. -/
theorem Table.selectByKey_found {t : Table} (found : (t.selectByKey b now).1.rows ≠ []) :
    (t.selectByKey b now).2 = t := by
  unfold Table.selectByKey at found ⊢
  split at found
  · exact absurd rfl found
  · split at found
    · exact absurd rfl found
    · rename_i row stored live
      simp only [if_neg live]

/-- A point read that finds something leaves the tables. -/
theorem Store.execute_found (kind : b.template.kind = .selectByKey) {answer : ResultSet}
    (read : (st.execute b now).1 = .ok answer) (found : answer.rows ≠ []) :
    st.SameTables (st.execute b now).2 := by
  rcases st.execute_cases b now with ⟨e, st', run, -, -⟩ | ⟨t, t', answer', -, held, executed, run⟩
  · rw [run] at read
    cases read
  · rw [run] at read ⊢
    cases read
    simp only [Table.execute, kind, Except.ok.injEq, Prod.ext_iff] at executed
    obtain ⟨rows, left⟩ := executed
    have tableEq : t' = t := left.symm.trans (Table.selectByKey_found (rows ▸ found))
    intro name
    rw [Store.table?_executed (tableEq ▸ rfl) held, tableEq]
    by_cases own : name = b.template.layout.table
    · rw [own, held]
      simp
    · simp [own]

end Statements

/-! ### Programs -/

/-- Wherever the program fails on a memory session, the tables are as they were. -/
def FailsIntact {ε : Type} (self : S) (p : Program S (Except ε β)) : Prop :=
  ∀ m e, (p.run (host self) m).1 = .error e → m.store.SameTables (p.run (host self) m).2.store

section Programs

variable {self : S} {r : Running S α}

theorem FailsIntact.done {ε : Type} (result : Except ε β) :
    FailsIntact self (.done result : Program S (Except ε β)) := fun _ _ _ _ => rfl

/-- What is made of a success may fail where the success has changed nothing. -/
theorem FailsIntact.andThen {γ ε : Type} {p : Program S (Except ε β)} {f : β → Except ε γ}
    (intact : FailsIntact self p) (kept : ∀ m b e, (p.run (host self) m).1 = .ok b →
      f b = .error e → m.store.SameTables (p.run (host self) m).2.store) :
    FailsIntact self (p.andThen fun b => .done (f b)) := by
  intro m e failed
  have kept := kept m
  have intact := intact m
  rw [Program.andThen, Program.run_bind] at failed ⊢
  generalize p.run (host self) m = left at kept intact failed ⊢
  obtain ⟨result, m'⟩ := left
  cases result with
  | ok b => exact kept b e rfl failed
  | error e' => exact intact e' rfl

/-- Nothing else fails where only the value of a success is changed. -/
theorem FailsIntact.andThen_ok {γ ε : Type} {p : Program S (Except ε β)}
    (intact : FailsIntact self p) (f : β → γ) :
    FailsIntact self (p.andThen fun b => .done (.ok (f b))) :=
  intact.andThen fun _ _ _ _ failed => by cases failed

theorem FailsIntact.reported {p : Program S (Except RepositoryError β)}
    (intact : FailsIntact self p) (event : Except RepositoryError β → Audit.Event) :
    FailsIntact self (Repository.reported event p) := by
  intro m e failed
  rw [Program.run_reported] at failed ⊢
  exact intact m e failed

theorem FailsIntact.mapOk {γ : Type} {p : Program S (Except RepositoryError β)}
    (intact : FailsIntact self p) (f : β → γ) : FailsIntact self (p.mapOk f) := by
  have mapOkEq : p.mapOk f = p.andThen fun b => .done (.ok (f b)) := by
    unfold Program.mapOk Program.map Program.andThen
    congr 1
    funext result
    cases result <;> rfl
  rw [mapOkEq]
  exact intact.andThen_ok f

/-- A submission fails before anything is written. -/
theorem submit_intact (statement : Prepared) (values : List Value) :
    FailsIntact self (r.submit statement values) := by
  intro m e failed
  cases bound : statement.bind values with
  | error refused =>
    rw [Running.submit, bound]
    exact fun _ => rfl
  | ok b =>
    rw [Running.submit_run_of_bind bound] at failed ⊢
    cases answer : ((host self).execute r.session b m).1 with
    | ok rows =>
      rw [answer] at failed
      cases failed
    | error cause => exact Store.sameTables_of_tables (Store.execute_failed answer)

/-- A get has no rows to fail on, or it has found one and purged none. -/
theorem selectResult_intact (faithful : r.Faithful) (key : String) :
    FailsIntact self (r.selectResult key) := by
  refine (submit_intact r.statements.selectByKey (r.schema.composeKey key)).andThen
    fun m rows e submitted failed => ?_
  have found : rows.rows ≠ [] := by
    intro empty
    simp only [Running.readResult, empty, reduceCtorEq] at failed
  cases bound : r.statements.selectByKey.bind (r.schema.composeKey key) with
  | error refused =>
    rw [Running.submit, bound] at submitted
    cases submitted
  | ok b =>
    have kind : b.template.kind = .selectByKey := by
      rw [(faithful.bound .selectByKey bound).1, Schema.template_kind]
    rw [Running.submit_run_of_bind bound] at submitted ⊢
    cases answer : ((host self).execute r.session b m).1 with
    | error cause =>
      rw [answer] at submitted
      cases submitted
    | ok rows' =>
      rw [answer] at submitted
      cases submitted
      exact Store.execute_found kind answer found

theorem add_intact (key : String) (value : α) :
    FailsIntact self (r.perform (.add key value)) := by
  have inserted : FailsIntact self (r.insertResult key value) := by
    unfold Running.insertResult
    cases r.repository.codec.marshal key value with
    | error fault => exact .done _
    | ok payload => exact (submit_intact _ _).andThen_ok _
  exact ((inserted.reported _).andThen_ok _).mapOk _

theorem get_intact (faithful : r.Faithful) (key : String) :
    FailsIntact self (r.perform (.get key)) :=
  ((selectResult_intact faithful key).reported _).mapOk _

theorem remove_intact (key : String) : FailsIntact self (r.perform (.remove key)) := by
  have dropped : FailsIntact self (r.deleteResult key) := (submit_intact _ _).andThen_ok _
  exact (dropped.reported _).mapOk _

/-- The statements of a repository that has started on a memory session are its schema's. -/
theorem start_faithful {q : Repository S α} {running : Running S α} {m m' : Moment}
    (started : q.start.run (host self) m = (.ok running, m')) :
    running.repository = q ∧ running.Faithful := by
  have prepares : ∀ (session : S) kind m p m', True →
      (host self).prepare session (q.schema.template kind) m = (.ok p, m') →
        p.template = q.schema.template kind ∧ True := by
    intro session kind m p m' _ prepared
    obtain ⟨answer, -⟩ := Prod.mk.inj prepared
    rcases m.store.prepare_cases (q.schema.template kind) with ⟨e, run⟩ | ⟨st', -, run⟩
    · rw [run] at answer
      cases answer
    · rw [run] at answer
      cases answer
      exact ⟨rfl, trivial⟩
  obtain ⟨rfl, own, -⟩ := Repository.start_inv _ (fun _ => True) (fun _ => True)
    (fun _ _ _ _ _ => trivial) prepares (fun _ _ => trivial) (fun _ _ _ => trivial) trivial started
  exact ⟨rfl, own⟩

end Programs

/-! ### The theorem -/

/-- Whatever a memory session holds, and whatever it was used for: a preparation that fails leaves
it, and an execution that fails leaves every table; so does an add, a get or a remove that fails,
of any repository that has started there.  On any host, an add that cannot be marshalled requests
nothing: it fails with the codec's failure and leaves its report. -/
theorem failures_leave_tables (q : Repository S α) (self : S) :
    (∀ (st : Store) (t : Template) e, (st.prepare t).1 = .error e → (st.prepare t).2 = st) ∧
    (∀ (st : Store) (b : Bound) now e, (st.execute b now).1 = .error e →
      (st.execute b now).2.tables = st.tables) ∧
    (∀ running m₀ m₁, q.start.run (host self) m₀ = (.ok running, m₁) → ∀ key,
      (∀ value, FailsIntact self (running.perform (.add key value))) ∧
      FailsIntact self (running.perform (.get key)) ∧
      FailsIntact self (running.perform (.remove key))) ∧
    ∀ (running : Running S α) key value fault,
      running.repository.codec.marshal key value = .error fault →
      ∀ {σ : Type} (h : Host σ S) (w : σ),
        (running.perform (.add key value)).trace h w = [] ∧
        (running.perform (.add key value)).run h w = (.error (.ofCodec fault),
          h.record (running.reportOf (.add key value) (.error (.ofCodec fault))) w) := by
  refine ⟨fun _ _ _ => Store.prepare_failed, fun _ _ _ _ => Store.execute_failed,
    fun running m₀ m₁ started key => ?_, fun running key value fault refused σ h w => ?_⟩
  · obtain ⟨-, faithful⟩ := start_faithful started
    exact ⟨fun value => add_intact key value, get_intact faithful key, remove_intact key⟩
  · have inserted : running.insertResult key value = .done (.error (.ofCodec fault)) := by
      rw [Running.insertResult, refused]
    rw [Running.perform, Running.add, inserted]
    exact ⟨rfl, rfl⟩

/-- Of two values one cannot be written, and nothing that was written can be read. -/
def unreadable : Codec Bool where
  exchangeId _ := "id"
  marshal _ value := if value then .ok ByteArray.empty else .error (.encode "refused")
  unmarshal _ _ := .error (.decode "unreadable")

/-- A repository of results that cannot be read. -/
def unreadableRepository : Repository Unit Bool where
  schema := plainRepository.schema
  codec := unreadable
  source := .borrowed ()

/-- A result has been added and cannot be read; the failed get leaves its row.  The other value
is refused without a request. -/
theorem unreadable_row_kept : ∃ (running : Running Unit Bool) (m₀ m : Moment),
    unreadableRepository.start.run (host ()) ⟨.empty, 0⟩ = (.ok running, m₀) ∧
      ((running.perform (.get "group")).run (host ()) m).1 = .error (.decode "unreadable") ∧
      m.store.contents m.now Repository.resultsTable [.text "group"] =
        some ⟨"id", ByteArray.empty, none⟩ ∧
      m.store.SameTables ((running.perform (.get "group")).run (host ()) m).2.store ∧
      (running.perform (.add "group" false)).trace (host ()) m = [] := by
  obtain ⟨running, m₀, started⟩ := (start_iff () 0 (r := unreadableRepository)
    Store.sound_empty).mpr fun _ found => by cases found
  obtain ⟨own, faithful, -, gains⟩ := start_leaves Store.sound_empty started
  have held : m₀.store.Holds running.schema.layout := by
    rw [Running.schema, own]
    exact gains.held
  have keeps := host_keeps () held m₀.now
  obtain ⟨_, m, c, -, good, means⟩ := Running.perform_means faithful (fun _ => trivial) keeps
    (.add "group" true) (w := m₀) ⟨rfl, gains.sound, fun _ => Iff.rfl, rfl⟩
  obtain ⟨reply, m', -, read, -, replied, -⟩ := Running.perform_means faithful
    (fun _ => trivial) keeps (.get "group") good
  have stored : c Repository.resultsTable [.text "group"] = some ⟨"id", ByteArray.empty, none⟩ := by
    have written : running.repository.codec.marshal "group" true = .ok ByteArray.empty := by
      rw [own]
      rfl
    simp only [Running.CallMeans, written] at means
    rw [means.2, Running.schema, own]
    exact Contents.set_self _ _ _ _
  have failed : ((running.perform (.get "group")).run (host ()) m).1 =
      .error (.decode "unreadable") := by
    rw [read, replied, Running.schema, own]
    show Schema.readReply unreadable "group" (c Repository.resultsTable [.text "group"]) = _
    rw [stored]
    rfl
  obtain ⟨-, -, calls, adds⟩ := failures_leave_tables unreadableRepository ()
  refine ⟨running, m₀, m, started, failed, ?_, ?_, ?_⟩
  · rw [good.clock, good.contents, stored]
  · exact (calls running _ _ started "group").2.1 m _ failed
  · exact (adds running "group" false (.encode "refused") (by rw [own]; rfl) (host ()) m).1

end GroupStore.Memory

import GroupStore.Proofs.Ledger
import GroupStore.Proofs.Memory.Host

/-!
# The memory-backed repository is the keyed store

Orders start repositories on one open memory session and call them, one after the other, while the
clock goes on.  Whatever the orders are, every outcome is that of the reference: a ledger, on which
a start succeeds unless its table is in use with other columns.

* `Order`, `Outcome` — what is asked, and how it ends;
* `Served`, `Books` — the session and the reference, each with its `obey` and `run`;
* `Served.Follows` — the simulation relation, kept by every order in `Served.Follows.obey`;
* `memory_repository_is_keyed_store` — all outcomes agree.
-/

namespace GroupStore

open Memory

variable {S α : Type}

/-! ### Orders -/

/-- What is asked of a session. -/
inductive Order (S α : Type) where
  /-- Start a repository. -/
  | start (repository : Repository S α)
  /-- Call a started repository after a delay. -/
  | call (repository : Nat) (delay : Nat) (call : Call α)

/-- How an order ends. -/
inductive Outcome (α : Type) where
  | started (success : Bool)
  | replied (reply : Except RepositoryError (Reply α))
  /-- No such repository has been started. -/
  | ignored

/-! ### The session -/

/-- An open memory session, its clock and the repositories started on it. -/
structure Served (S α : Type) where
  /-- The handle that connecting yields. -/
  session : S
  store : Store
  now : Nat
  running : List (Running S α)

namespace Served

/-- A fresh session that nobody uses yet. -/
def initial (session : S) : Served S α := ⟨session, .empty, 0, []⟩

/-- Obey an order; a start that fails leaves the session open and as it was. -/
def obey (s : Served S α) : Order S α → Outcome α × Served S α
  | .start repository =>
    match repository.start.run (host s.session) ⟨s.store, s.now⟩ with
    | (.ok running, w) =>
      (.started true, { s with store := w.store, running := s.running ++ [running] })
    | (.error _, _) => (.started false, s)
  | .call repository delay call =>
    match s.running[repository]? with
    | none => (.ignored, s)
    | some running =>
      let after := (running.perform call).run (host s.session) ⟨s.store, s.now + delay⟩
      (.replied after.1, { s with store := after.2.store, now := after.2.now })

/-- The outcomes of some orders, first to last. -/
def run (s : Served S α) : List (Order S α) → List (Outcome α)
  | [] => []
  | order :: rest => (s.obey order).1 :: (s.obey order).2.run rest

end Served

/-! ### The reference -/

/-- A ledger, its clock and the repositories that use it. -/
structure Books (S α : Type) where
  ledger : Ledger
  now : Nat
  repositories : List (Repository S α)

namespace Books

/-- An empty ledger that nobody uses yet. -/
def initial : Books S α := ⟨.empty, 0, []⟩

/-- Whether a repository may use a ledger: who uses its table already has the same columns. -/
def admits (b : Books S α) (r : Repository S α) : Bool :=
  b.repositories.all fun other =>
    other.schema.layout.table ≠ r.schema.layout.table ∨ other.schema.layout = r.schema.layout

/-- Obey an order. -/
def obey (b : Books S α) : Order S α → Outcome α × Books S α
  | .start repository =>
    if b.admits repository then
      (.started true, { b with repositories := b.repositories ++ [repository] })
    else (.started false, b)
  | .call repository delay call =>
    match b.repositories[repository]? with
    | none => (.ignored, b)
    | some r =>
      let after := b.ledger.perform r (b.now + delay) call
      (.replied after.1, { b with ledger := after.2, now := b.now + delay })

/-- The outcomes of some orders, first to last. -/
def run (b : Books S α) : List (Order S α) → List (Outcome α)
  | [] => []
  | order :: rest => (b.obey order).1 :: (b.obey order).2.run rest

end Books

/-! ### The simulation -/

/-- A session follows a reference: they have the same clock and the same repositories, exactly the
layouts of these are registered, and the store's contents are what the ledger has unexpired. -/
structure Served.Follows (s : Served S α) (b : Books S α) : Prop where
  now : s.now = b.now
  sound : s.store.Sound
  repositories : s.running.map Running.repository = b.repositories
  faithful : ∀ r ∈ s.running, r.Faithful
  layouts : ∀ l, s.store.Holds l ↔ ∃ r ∈ b.repositories, r.schema.layout = l
  agrees : b.ledger.Agrees s.now (s.store.contents s.now)

/-- Contents that agree with a ledger agree with it later. -/
theorem Ledger.Agrees.later {l : Ledger} {st : Store} {now later : Nat} (order : now ≤ later)
    (agrees : l.Agrees now (st.contents now)) : l.Agrees later (st.contents later) := by
  intro slot
  rw [Store.contents_later st order, agrees slot, Version.filter_later order]

namespace Served

theorem follows_initial (session : S) : (initial session : Served S α).Follows Books.initial where
  now := rfl
  sound := Store.sound_empty
  repositories := rfl
  faithful := fun _ member => absurd member List.not_mem_nil
  layouts := fun l => by simp [Store.Holds, Store.table?, initial, Store.empty, Books.initial]
  agrees := fun _ => rfl

variable {s : Served S α} {b : Books S α}

/-- A ledger admits a repository iff the store admits its layout. -/
theorem Follows.admits_iff (follows : s.Follows b) (r : Repository S α) :
    b.admits r = true ↔ s.store.Admits r.schema.layout := by
  simp only [Books.admits, List.all_eq_true, decide_eq_true_eq]
  constructor
  · intro all t found
    have table := Store.table?_layout found
    obtain ⟨other, member, layout⟩ := (follows.layouts t.layout).mp ⟨t, table ▸ found, rfl⟩
    rcases all other member with differs | layoutEq
    · exact absurd (layout ▸ table) differs
    · exact layout.symm.trans layoutEq
  · intro admits other member
    by_cases tableEq : other.schema.layout.table = r.schema.layout.table
    · obtain ⟨t, found, layout⟩ := (follows.layouts _).mpr ⟨other, member, rfl⟩
      exact .inr (layout.symm.trans (admits t (tableEq ▸ found)))
    · exact .inl tableEq

/-- An order has the same outcome on both sides and keeps the relation. -/
theorem Follows.obey (follows : s.Follows b) (order : Order S α) :
    (s.obey order).1 = (b.obey order).1 ∧ (s.obey order).2.Follows (b.obey order).2 := by
  cases order with
  | start repository =>
    by_cases admits : b.admits repository = true
    · obtain ⟨running, w, run⟩ := (start_iff s.session s.now
        follows.sound).mpr ((follows.admits_iff repository).mp admits)
      obtain ⟨repositoryEq, faithful, -, gains⟩ := start_leaves follows.sound run
      simp only [Served.obey, run, Books.obey, admits, if_true, true_and]
      refine ⟨follows.now, gains.sound, ?_, fun r member => ?_, fun l => ?_, ?_⟩
      · rw [List.map_append, follows.repositories, List.map_singleton, repositoryEq]
      · rcases List.mem_append.mp member with old | new
        · exact follows.faithful r old
        · rw [List.mem_singleton.mp new]
          exact faithful
      · rw [gains.holds, follows.layouts]
        simp [or_and_right, exists_or, eq_comm]
      · rw [gains.contents]
        exact follows.agrees
    · rcases run : repository.start.run (host s.session) ⟨s.store, s.now⟩ with ⟨result, w⟩
      cases result with
      | ok running =>
        exact absurd ((follows.admits_iff repository).mpr
          ((start_iff s.session s.now follows.sound).mp ⟨running, w, run⟩)) admits
      | error e =>
        simp only [Served.obey, run, Books.obey, if_neg admits, true_and]
        exact follows
  | call repository delay call =>
    have found : b.repositories[repository]? = s.running[repository]?.map Running.repository := by
      rw [← follows.repositories, List.getElem?_map]
    cases known : s.running[repository]? with
    | none =>
      rw [known] at found
      simp only [Served.obey, known, Books.obey, found, Option.map_none, true_and]
      exact follows
    | some running =>
      rw [known] at found
      have member := List.mem_of_getElem? known
      have held : s.store.Holds running.schema.layout :=
        (follows.layouts _).mpr ⟨running.repository, List.mem_of_getElem? found, rfl⟩
      obtain ⟨reply, w, c, run, ⟨clock, sound, layouts, contents⟩, means⟩ :=
        Running.perform_means (r := running) (follows.faithful running member)
          (fun _ => trivial)
          (host_keeps s.session held (s.now + delay)) call
          (w := ⟨s.store, s.now + delay⟩) ⟨rfl, follows.sound, fun _ => Iff.rfl, rfl⟩
      obtain ⟨replies, agrees⟩ :=
        Ledger.perform_agrees (follows.agrees.later (Nat.le_add_right _ delay)) means
      simp only [Served.obey, known, run, Books.obey, found, Option.map_some]
      refine ⟨by rw [replies, follows.now], ?_, sound, follows.repositories, follows.faithful,
        fun l => (layouts l).trans (follows.layouts l), ?_⟩
      · rw [clock, follows.now]
      · rw [clock, contents, ← follows.now]
        exact agrees

/-- Any run has the same outcomes on both sides. -/
theorem Follows.run (follows : s.Follows b) (orders : List (Order S α)) :
    s.run orders = b.run orders := by
  induction orders generalizing s b with
  | nil => rfl
  | cons order rest ih =>
    obtain ⟨outcome, later⟩ := follows.obey order
    rw [Served.run, Books.run, outcome, ih later]

end Served

/-- Every run of starts and calls on one open memory session has the outcomes of the reference; and
in the reference a repeated confirmation counts nothing and changes nothing. -/
theorem memory_repository_is_keyed_store (session : S) (orders : List (Order S α)) :
    (Served.initial session).run orders = Books.initial.run orders ∧
      ∀ (l : Ledger) (r : Repository S α) (now : Nat) (id : String),
        let after := (l.perform r now (.confirm id)).2
        after.perform r now (.confirm id) = (.ok (.confirmed ⟨0, 0, 0⟩), after) :=
  ⟨(Served.follows_initial session).run orders, Ledger.perform_confirm_twice⟩

end GroupStore

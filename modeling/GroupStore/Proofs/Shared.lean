import GroupStore.Proofs.Memory.Host

/-!
# Clients that share one memory session

Any number of started repositories work on one open memory session.  Their calls are under way at
the same time: a move makes one request of one of them, after the clock has gone on by some delay,
so between any two requests of a call anything may happen that the others can do.

* `Shared`, `Move`, `Shared.move` — the system and its moves;
* `Execution`, `Shared.execution?` — the statement execution that a move makes;
* `Shared.Coherent` — the invariant: the store is sound, every repository's layout is registered,
  and every call under way requests only its own statements; `Shared.Coherent.move` keeps it;
* `Shared.Coherent.execution_means` — an execution does what its statement means.
-/

namespace GroupStore

open Memory

variable {S α : Type}

/-! ### The system -/

/-- A call under way. -/
structure Task (S α : Type) where
  /-- The repository that is called. -/
  running : Running S α
  call : Call α
  /-- What is left to do. -/
  rest : Program S (Except RepositoryError (Reply α))

/-- A memory session, its clock, the repositories started on it and the calls begun. -/
structure Shared (S α : Type) where
  /-- The handle that connecting yields. -/
  session : S
  store : Store
  now : Nat
  running : List (Running S α)
  tasks : List (Task S α)

/-- What may happen next. -/
inductive Move (S α : Type) where
  /-- A repository is started. -/
  | start (repository : Repository S α)
  /-- A call on a started repository begins. -/
  | call (repository : Nat) (call : Call α)
  /-- A call makes its next request after a delay. -/
  | step (task : Nat) (delay : Nat)

/-- A statement executed for a call, at a reading, with its answer. -/
structure Execution (S α : Type) where
  running : Running S α
  call : Call α
  bound : Bound
  now : Nat
  answer : Except SessionError ResultSet

namespace Shared

/-- A fresh session that nobody uses yet. -/
def initial (session : S) : Shared S α := ⟨session, .empty, 0, [], []⟩

/-- Make a move.  A start that fails leaves the session open and as it was; a move that names
nothing changes nothing. -/
def move (s : Shared S α) : Move S α → Shared S α
  | .start repository =>
    match repository.start.run (host s.session) ⟨s.store, s.now⟩ with
    | (.ok running, w) => { s with store := w.store, running := s.running ++ [running] }
    | (.error _, _) => s
  | .call repository call =>
    match s.running[repository]? with
    | none => s
    | some running => { s with tasks := s.tasks ++ [⟨running, call, running.perform call⟩] }
  | .step task delay =>
    match s.tasks[task]? with
    | none => s
    | some t =>
      let after := t.rest.next (host s.session) ⟨s.store, s.now + delay⟩
      { s with
        store := after.2.store
        now := after.2.now
        tasks := s.tasks.set task { t with rest := after.1 } }

/-- Make some moves, first to last. -/
def run (s : Shared S α) (moves : List (Move S α)) : Shared S α := moves.foldl move s

/-- The execution that a move makes, if its request is one. -/
def execution? (s : Shared S α) : Move S α → Option (Execution S α)
  | .start _ | .call _ _ => none
  | .step task delay =>
    s.tasks[task]?.bind fun t =>
      match t.rest with
      | .execute _ b _ =>
        some ⟨t.running, t.call, b, s.now + delay, (s.store.execute b (s.now + delay)).1⟩
      | _ => none

/-! ### The invariant -/

/-- The store is sound, every started repository has its layout registered, and a call under way
requests nothing but its own statements. -/
structure Coherent (s : Shared S α) : Prop where
  sound : s.store.Sound
  running : ∀ r ∈ s.running, r.Faithful ∧ s.store.Holds r.schema.layout
  tasks : ∀ t ∈ s.tasks, s.store.Holds t.running.schema.layout ∧
    t.rest.Asks fun session b => session = t.running.session ∧ t.running.Requests t.call b

theorem coherent_initial (session : S) : (initial session : Shared S α).Coherent where
  sound := Store.sound_empty
  running := fun _ member => absurd member List.not_mem_nil
  tasks := fun _ member => absurd member List.not_mem_nil

variable {s : Shared S α}

theorem Coherent.requests_template {r : Running S α} {call : Call α} {b : Bound}
    (h : r.Requests call b) : ∃ kind, b.template = r.schema.template kind := by
  cases call with
  | confirm id =>
    rcases h with scan | delete
    · exact ⟨_, scan.1⟩
    · exact ⟨_, delete.1⟩
  | add key value => exact ⟨_, h.1⟩
  | get key => exact ⟨_, h.1⟩
  | remove key => exact ⟨_, h.1⟩
  | getKeys => exact ⟨_, h.1⟩
  | scan => exact ⟨_, h.1⟩

/-- A request of a call that is no execution leaves the session alone; an execution is answered
and keeps the store sound and its layouts registered. -/
theorem next_cases (self : S) {P : S → Bound → Prop} {β : Type} {p : Program S β} (asks : p.Asks P)
    (w : Moment) :
    (p.next (host self) w).2 = w ∨
      ∃ session b next, p = .execute session b next ∧ P session b ∧
        (p.next (host self) w).2 = ⟨(w.store.execute b w.now).2, w.now⟩ := by
  cases p with
  | done a => exact .inl rfl
  | connect k => exact asks.elim
  | prepare session t k => exact asks.elim
  | execute session b k => exact .inr ⟨session, b, k, rfl, asks.1, rfl⟩
  | close session k => exact asks.elim
  | record e k => exact .inl rfl

theorem Coherent.move (coherent : s.Coherent) (m : Move S α) : (s.move m).Coherent := by
  cases m with
  | start repository =>
    rcases run : repository.start.run (host s.session) ⟨s.store, s.now⟩ with ⟨result, w⟩
    cases result with
    | error e =>
      simp only [Shared.move, run]
      exact coherent
    | ok running =>
      simp only [Shared.move, run]
      obtain ⟨repositoryEq, faithful, -, gains⟩ := start_leaves coherent.sound run
      have kept : ∀ l, s.store.Holds l → w.store.Holds l := fun l held =>
        (gains.holds l).mpr (.inl held)
      refine ⟨gains.sound, fun r member => ?_, fun t member => ?_⟩
      · rcases List.mem_append.mp member with old | new
        · exact ⟨(coherent.running r old).1, kept _ (coherent.running r old).2⟩
        · rw [List.mem_singleton.mp new]
          refine ⟨faithful, ?_⟩
          rw [Running.schema, repositoryEq]
          exact gains.held
      · exact ⟨kept _ (coherent.tasks t member).1, (coherent.tasks t member).2⟩
  | call repository call =>
    cases found : s.running[repository]? with
    | none =>
      simp only [Shared.move, found]
      exact coherent
    | some running =>
      simp only [Shared.move, found]
      have own := coherent.running running (List.mem_of_getElem? found)
      refine ⟨coherent.sound, coherent.running, fun t member => ?_⟩
      rcases List.mem_append.mp member with old | new
      · exact coherent.tasks t old
      · rw [List.mem_singleton.mp new]
        exact ⟨own.2, Running.perform_asks own.1 call⟩
  | step task delay =>
    cases found : s.tasks[task]? with
    | none =>
      simp only [Shared.move, found]
      exact coherent
    | some t =>
      simp only [Shared.move, found]
      obtain ⟨held, asks⟩ := coherent.tasks t (List.mem_of_getElem? found)
      have after : ((t.rest.next (host s.session) ⟨s.store, s.now + delay⟩).2.store).Sound ∧
          s.store.SameLayouts (t.rest.next (host s.session) ⟨s.store, s.now + delay⟩).2.store := by
        rcases next_cases s.session asks ⟨s.store, s.now + delay⟩ with
          worldIs | ⟨-, b, -, -, ⟨-, requests⟩, worldIs⟩
        · rw [worldIs]
          exact ⟨coherent.sound, fun _ => Iff.rfl⟩
        · obtain ⟨kind, hb⟩ := Coherent.requests_template requests
          obtain ⟨answer, st', executed, sound, layouts, -⟩ :=
            Store.execute_means coherent.sound held hb (s.now + delay)
          rw [worldIs, executed]
          exact ⟨sound, layouts⟩
      refine ⟨after.1, fun r member => ?_, fun t' member => ?_⟩
      · exact ⟨(coherent.running r member).1, (after.2 _).mpr (coherent.running r member).2⟩
      · rcases List.mem_or_eq_of_mem_set member with old | rfl
        · exact ⟨(after.2 _).mpr (coherent.tasks t' old).1, (coherent.tasks t' old).2⟩
        · exact ⟨(after.2 _).mpr held, asks.next (host s.session) _⟩

/-- An execution belongs to a call that is under way, and it is the store's next step. -/
theorem execution?_eq_some_iff {m : Move S α} {e : Execution S α} :
    s.execution? m = some e ↔ ∃ task delay t session next, m = .step task delay ∧
      s.tasks[task]? = some t ∧ t.rest = .execute session e.bound next ∧
      e.running = t.running ∧ e.call = t.call ∧ e.now = s.now + delay ∧
      e.answer = (s.store.execute e.bound e.now).1 := by
  cases m with
  | start repository => simp [execution?]
  | call repository call => simp [execution?]
  | step task delay =>
    rw [execution?]
    constructor
    · intro h
      obtain ⟨t, found, made⟩ := Option.bind_eq_some_iff.mp h
      split at made
      · rename_i session b next request
        cases made
        exact ⟨task, delay, t, session, next, rfl, found, request, rfl, rfl, rfl, rfl⟩
      · cases made
    · rintro ⟨task', delay', t, session, next, stepEq, found, request, running, call, now, answer⟩
      cases stepEq
      rw [found, Option.bind_some, request]
      obtain ⟨running', call', b, now', answer'⟩ := e
      obtain rfl : running' = t.running := running
      obtain rfl : call' = t.call := call
      obtain rfl : now' = s.now + delay := now
      obtain rfl : answer' = (s.store.execute b (s.now + delay)).1 := answer
      rfl

/-- A move that executes no statement changes no row. -/
theorem Coherent.quiet (coherent : s.Coherent) {m : Move S α} (idle : s.execution? m = none) :
    (∀ table key, (s.move m).store.entry? table key = s.store.entry? table key) ∧
      ∀ now, (s.move m).store.contents now = s.store.contents now := by
  cases m with
  | start repository =>
    rcases run : repository.start.run (host s.session) ⟨s.store, s.now⟩ with ⟨result, w⟩
    cases result with
    | error e => simp only [Shared.move, run, implies_true, and_self]
    | ok running =>
      have gains := (start_leaves coherent.sound run).2.2.2
      simp only [Shared.move, run]
      exact ⟨gains.entries, gains.contents⟩
  | call repository call =>
    cases found : s.running[repository]? <;> simp only [Shared.move, found, implies_true, and_self]
  | step task delay =>
    cases found : s.tasks[task]? with
    | none => simp only [Shared.move, found, implies_true, and_self]
    | some t =>
      have asks := (coherent.tasks t (List.mem_of_getElem? found)).2
      rcases next_cases s.session asks ⟨s.store, s.now + delay⟩ with
        worldIs | ⟨session, b, next, request, -⟩
      · simp only [Shared.move, found, worldIs, implies_true, and_self]
      · rw [execution?, found, Option.bind_some, request] at idle
        cases idle

/-- What an execution of a call does: it is one of the call's statements, it succeeds and does
what the statement means, and the clock stands at its reading. -/
theorem Coherent.execution_means (coherent : s.Coherent) {m : Move S α} {e : Execution S α}
    (made : s.execution? m = some e) :
    e.running.Requests e.call e.bound ∧ s.store.Holds e.running.schema.layout ∧
      s.store.SameLayouts (s.move m).store ∧ (s.move m).now = e.now ∧
      ∃ kind answer, e.bound.template = e.running.schema.template kind ∧ e.answer = .ok answer ∧
        s.store.execute e.bound e.now = (.ok answer, (s.move m).store) ∧
        e.running.schema.Means True e.now (s.store.contents e.now) kind e.bound.values answer
          ((s.move m).store.contents e.now) := by
  obtain ⟨task, delay, t, session, next, rfl, found, request, running, call, now, answered⟩ :=
    execution?_eq_some_iff.mp made
  obtain ⟨held, asks⟩ := coherent.tasks t (List.mem_of_getElem? found)
  rw [request] at asks
  have requests : t.running.Requests t.call e.bound := asks.1.2
  obtain ⟨kind, hb⟩ := Coherent.requests_template requests
  obtain ⟨answer, st', executed, sound, layouts, means⟩ :=
    Store.execute_means coherent.sound held hb e.now
  have after : s.move (.step task delay) =
      { s with store := st', now := e.now,
               tasks := s.tasks.set task { t with rest := next (.ok answer) } } := by
    simp only [Shared.move, found, request, Program.next, host, ← now, executed]
  rw [after, running, call]
  refine ⟨requests, held, layouts, rfl, kind, answer, hb, ?_, executed, means⟩
  rw [answered, executed]

/-- The clock never goes back. -/
theorem le_now (s : Shared S α) (m : Move S α) : s.now ≤ (s.move m).now := by
  have stands {β : Type} (self : S) (p : Program S β) (w : Moment) :
      (p.next (host self) w).2.now = w.now := by
    cases p <;> rfl
  cases m with
  | start repository =>
    rcases run : repository.start.run (host s.session) ⟨s.store, s.now⟩ with ⟨result, w⟩
    cases result <;> simp only [Shared.move, run, Nat.le_refl]
  | call repository call =>
    cases found : s.running[repository]? <;> simp only [Shared.move, found, Nat.le_refl]
  | step task delay =>
    cases found : s.tasks[task]? <;> simp only [Shared.move, found, stands]
    · exact Nat.le_refl _
    · exact Nat.le_add_right _ _

theorem le_now_run (s : Shared S α) (moves : List (Move S α)) : s.now ≤ (s.run moves).now := by
  induction moves generalizing s with
  | nil => exact Nat.le_refl _
  | cons m rest ih => exact Nat.le_trans (s.le_now m) (ih (s.move m))

/-- The invariant holds of whatever can be reached. -/
theorem Coherent.run (coherent : s.Coherent) (moves : List (Move S α)) :
    (s.run moves).Coherent := by
  induction moves generalizing s with
  | nil => exact coherent
  | cons m rest ih => exact ih (coherent.move m)

end Shared

end GroupStore

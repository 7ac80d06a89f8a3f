import GroupStore.Proofs.Memory.Host
import GroupStore.Proofs.Sqlite.Host
import GroupStore.Proofs.Twins

/-!
# A session at work

Repositories are started on a session, their statements are executed with any values, and calls are
performed in one go or request by request, while the clock goes on.  The same actions can be taken
on a memory session and on a database session, and what is seen of them can be compared.

* `Arrangement` — an order of returned rows that does not depend on their given order;
* `Side`, `Action`, `Effect` — a session at work, what is done to it and what is seen of it;
* `Effect.Same` — effects that differ at most in the order of returned rows;
* `Memory.clocked`, `Sqlite.clocked` — the two sessions.
-/

namespace GroupStore

open Std

variable {σ S α : Type}

/-! ### Arrangements -/

/-- A way to put the rows of an answer into an order that depends on nothing but the rows. -/
structure Arrangement where
  arrange : ResultSet → ResultSet
  rows : ∀ answer, (arrange answer).rows.Perm answer.rows
  same : ∀ {a b : ResultSet}, a.rows.Perm b.rows → arrange a = arrange b

namespace Arrangement

/-- The cells of a row one after the other. -/
def flat (r : Row) : List Value := r.cells.flatMap fun cell => [.text cell.1, cell.2]

theorem flat_injective {a b : Row} (h : flat a = flat b) : a = b := by
  obtain ⟨cells⟩ := a
  obtain ⟨cells'⟩ := b
  congr 1
  unfold flat at h
  induction cells generalizing cells' with
  | nil =>
    cases cells' with
    | nil => rfl
    | cons cell rest => simp at h
  | cons cell rest ih =>
    cases cells' with
    | nil => simp at h
    | cons cell' rest' =>
      simp only [List.flatMap_cons, List.cons_append, List.nil_append, List.cons.injEq,
        Value.text.injEq] at h
      rw [Prod.ext h.1 h.2.1, ih rest' h.2.2]

/-- Whether a row stands before another. -/
def before (a b : Row) : Bool := (compare (flat a) (flat b)).isLE

theorem before_total (a b : Row) : (before a b || before b a) = true := by
  have swap : compare (flat b) (flat a) = (compare (flat a) (flat b)).swap := OrientedCmp.eq_swap
  unfold before
  rw [swap]
  cases compare (flat a) (flat b) <;> rfl

theorem before_trans (a b c : Row) (h₁ : before a b = true) (h₂ : before b c = true) :
    before a c = true :=
  TransCmp.isLE_trans h₁ h₂

/-- Rows in ascending order. -/
def ascending : Arrangement where
  arrange answer := ⟨answer.rows.mergeSort before⟩
  rows answer := List.mergeSort_perm answer.rows before
  same {a b} perm := by
    congr 1
    refine List.Perm.eq_of_pairwise
      (fun x y _ _ (xy : before x y = true) (yx : before y x = true) => ?_)
      (List.pairwise_mergeSort before_trans before_total _)
      (List.pairwise_mergeSort before_trans before_total _)
      (((List.mergeSort_perm _ _).trans perm).trans (List.mergeSort_perm _ _).symm)
    exact flat_injective (LawfulEqCmp.eq_of_compare (OrientedCmp.isLE_antisymm xy yx))

end Arrangement

/-! ### A session at work -/

/-- A host with a clock that goes on. -/
structure Clocked (σ S : Type) where
  host : Host σ S
  /-- What the state is after some milliseconds. -/
  later : Nat → σ → σ

/-- One side: a session, the repositories started on it and the calls begun. -/
structure Side (σ S α : Type) where
  state : σ
  running : List (Running S α)
  tasks : List (Program S (Except RepositoryError (Reply α)))

/-- What is done to a side. -/
inductive Action (S α : Type) where
  /-- Start a repository. -/
  | start (repository : Repository S α)
  /-- Execute a statement of a started repository with some values after a delay. -/
  | execute (repository delay : Nat) (kind : StatementKind) (values : List Value)
  /-- Perform a call on a started repository in one go after a delay. -/
  | perform (repository delay : Nat) (call : Call α)
  /-- Begin a call on a started repository. -/
  | begin (repository : Nat) (call : Call α)
  /-- A call begun makes its next request after a delay. -/
  | step (task delay : Nat)

/-- How far the clock goes on before an action is done. -/
def Action.delay : Action S α → Nat
  | start _ | begin _ _ => 0
  | execute _ delay _ _ | perform _ delay _ | step _ delay => delay

/-- How far the clock goes on over some actions. -/
def Action.total : List (Action S α) → Nat
  | [] => 0
  | action :: rest => action.delay + total rest

/-- What is seen of an action. -/
inductive Effect (α : Type) where
  | started (success : Bool)
  /-- The values could not be bound. -/
  | unbound (cause : BindError)
  | answered (answer : Except SessionError ResultSet)
  | replied (reply : Except RepositoryError (Reply α))
  /-- A call has gone on; perhaps it has come to its end. -/
  | went (reply : Option (Except RepositoryError (Reply α)))
  /-- The action names nothing that was started or begun. -/
  | ignored

/-- Two effects that differ at most in the order of returned rows: statements succeed alike and
return the same rows, and replies are the same but for the order of scanned identities. -/
inductive Effect.Same : Effect α → Effect α → Prop where
  | started (success : Bool) : Same (.started success) (.started success)
  | unbound (cause : BindError) : Same (.unbound cause) (.unbound cause)
  | answered {a b : ResultSet} : a.rows.Perm b.rows → Same (.answered (.ok a)) (.answered (.ok b))
  | replied {a b : Except RepositoryError (Reply α)} : Running.SameReply a b →
      Same (.replied a) (.replied b)
  | went (reply : Option (Except RepositoryError (Reply α))) : Same (.went reply) (.went reply)
  | ignored : Same .ignored .ignored

namespace Side

variable (k : Clocked σ S) (arrangement : Arrangement)

/-- A side on which nothing was done yet. -/
def initial (w : σ) : Side σ S α := ⟨w, [], []⟩

/-- The host as calls that go request by request see it: rows come arranged. -/
def arranged : Host σ S where
  connect := k.host.connect
  prepare := k.host.prepare
  execute session b w :=
    ((k.host.execute session b w).1.map arrangement.arrange, (k.host.execute session b w).2)
  close := k.host.close
  record := k.host.record

/-- Do an action. -/
def act (s : Side σ S α) : Action S α → Effect α × Side σ S α
  | .start repository =>
    match repository.start.run k.host s.state with
    | (.ok running, w) => (.started true, ⟨w, s.running ++ [running], s.tasks⟩)
    | (.error _, w) => (.started false, { s with state := w })
  | .execute repository delay kind values =>
    match s.running[repository]? with
    | none => (.ignored, s)
    | some r =>
      match (r.statements.of kind).bind values with
      | .error e => (.unbound e, s)
      | .ok b =>
        let after := k.host.execute r.session b (k.later delay s.state)
        (.answered after.1, { s with state := after.2 })
  | .perform repository delay call =>
    match s.running[repository]? with
    | none => (.ignored, s)
    | some r =>
      let after := (r.perform call).run k.host (k.later delay s.state)
      (.replied after.1, { s with state := after.2 })
  | .begin repository call =>
    match s.running[repository]? with
    | none => (.ignored, s)
    | some r => (.went none, { s with tasks := s.tasks ++ [r.perform call] })
  | .step task delay =>
    match s.tasks[task]? with
    | none => (.ignored, s)
    | some p =>
      let after := p.next (arranged k arrangement) (k.later delay s.state)
      (.went after.1.result?, { s with state := after.2, tasks := s.tasks.set task after.1 })

/-- The effects of some actions, first to last. -/
def run (s : Side σ S α) : List (Action S α) → List (Effect α)
  | [] => []
  | action :: rest => (s.act k arrangement action).1 :: run (s.act k arrangement action).2 rest

end Side

/-- Only starts are seen as starts. -/
theorem Side.started_notMem (k : Clocked σ S) (arrangement : Arrangement) (success : Bool)
    {actions : List (Action S α)} (other : ∀ r, .start r ∉ actions) (s : Side σ S α) :
    .started success ∉ s.run k arrangement actions := by
  induction actions generalizing s with
  | nil => exact List.not_mem_nil
  | cons action rest ih =>
    rw [Side.run, List.mem_cons, not_or]
    refine ⟨?_, ih (fun r start => other r (List.mem_cons_of_mem _ start)) _⟩
    cases action with
    | start r => exact absurd List.mem_cons_self (other r)
    | execute repository delay kind values =>
      simp only [Side.act]
      split
      · simp
      · split <;> simp
    | perform repository delay call =>
      simp only [Side.act]
      split <;> simp
    | begin repository call =>
      simp only [Side.act]
      split <;> simp
    | step task delay =>
      simp only [Side.act]
      split <;> simp

/-- A memory session with its clock. -/
def Memory.clocked (self : S) : Clocked Memory.Moment S where
  host := Memory.host self
  later delay w := { w with now := w.now + delay }

/-- A database session with its clock. -/
def Sqlite.clocked (self : S) : Clocked Sqlite.Moment S where
  host := Sqlite.host self
  later delay w := { w with now := w.now + delay }

end GroupStore

import GroupStore.Proofs.Course

/-!
# The trace of a run

A run leaves a trace: every request that it made, with its answer, first to last.  Reports are not
requests to a session and leave nothing in it.

* `Request`, `Program.trace`, `Program.asked` — what a run, and what one request, leaves;
* `Program.trace_bind` — the trace of a composition is that of its parts.
-/

namespace GroupStore

variable {S α β σ : Type}

/-- A request that was made, with its answer. -/
inductive Request (S : Type) where
  | connect (answer : Except SessionError S)
  | prepare (session : S) (template : Template) (answer : Except SessionError Prepared)
  | execute (execution : Answered S)
  | close (session : S) (answer : Except SessionError Unit)

namespace Program

/-- What a run requests and is answered. -/
def trace (h : Host σ S) : Program S α → σ → List (Request S)
  | done _, _ => []
  | connect k, w => .connect (h.connect w).1 :: (k (h.connect w).1).trace h (h.connect w).2
  | prepare s t k, w =>
    .prepare s t (h.prepare s t w).1 :: (k (h.prepare s t w).1).trace h (h.prepare s t w).2
  | execute s b k, w =>
    .execute ⟨s, b, (h.execute s b w).1⟩ :: (k (h.execute s b w).1).trace h (h.execute s b w).2
  | close s k, w => .close s (h.close s w).1 :: (k (h.close s w).1).trace h (h.close s w).2
  | record e k, w => k.trace h (h.record e w)

/-- The request that comes next, if there is one. -/
def asked (h : Host σ S) : Program S α → σ → List (Request S)
  | done _, _ => []
  | connect _, w => [.connect (h.connect w).1]
  | prepare s t _, w => [.prepare s t (h.prepare s t w).1]
  | execute s b _, w => [.execute ⟨s, b, (h.execute s b w).1⟩]
  | close s _, w => [.close s (h.close s w).1]
  | record _ _, _ => []

theorem trace_bind (h : Host σ S) (p : Program S α) (f : α → Program S β) (w : σ) :
    (p.bind f).trace h w = p.trace h w ++ (f (p.run h w).1).trace h (p.run h w).2 := by
  induction p generalizing w with
  | done a => rfl
  | connect k ih => exact congrArg (_ :: ·) (ih _ _)
  | prepare s t k ih => exact congrArg (_ :: ·) (ih _ _)
  | execute s b k ih => exact congrArg (_ :: ·) (ih _ _)
  | close s k ih => exact congrArg (_ :: ·) (ih _ _)
  | record e k ih => exact ih _

theorem trace_map (h : Host σ S) (p : Program S α) (f : α → β) (w : σ) :
    (p.map f).trace h w = p.trace h w := by
  rw [map, trace_bind]
  exact List.append_nil _

theorem trace_andThen_ok {ε : Type} {h : Host σ S} {p : Program S (Except ε α)}
    {f : α → Program S (Except ε β)} {w w' : σ} {a : α} (hp : p.run h w = (.ok a, w')) :
    (p.andThen f).trace h w = p.trace h w ++ (f a).trace h w' := by
  rw [andThen, trace_bind, hp]

theorem trace_andThen_error {ε : Type} {h : Host σ S} {p : Program S (Except ε α)}
    {f : α → Program S (Except ε β)} {w w' : σ} {e : ε} (hp : p.run h w = (.error e, w')) :
    (p.andThen f).trace h w = p.trace h w := by
  rw [andThen, trace_bind, hp]
  exact List.append_nil _

/-- A report leaves nothing in the trace. -/
theorem trace_reported (h : Host σ S) (event : Except RepositoryError β → Audit.Event)
    (p : Program S (Except RepositoryError β)) (w : σ) :
    (Repository.reported event p).trace h w = p.trace h w := by
  rw [Repository.reported, trace_bind]
  exact List.append_nil _

/-- Where only executions may be requested, what is requested next is one, or nothing. -/
theorem Asks.asked {P : S → Bound → Prop} {p : Program S α} (hp : p.Asks P) (h : Host σ S)
    (w : σ) : ∃ past : List (Answered S), p.asked h w = past.map .execute ∧
      ∀ e ∈ past, P e.session e.bound := by
  cases p with
  | done a => exact ⟨[], rfl, fun e member => absurd member List.not_mem_nil⟩
  | connect k => exact hp.elim
  | prepare s t k => exact hp.elim
  | close s k => exact hp.elim
  | record e k => exact ⟨[], rfl, fun e member => absurd member List.not_mem_nil⟩
  | execute s b k =>
    refine ⟨[⟨s, b, (h.execute s b w).1⟩], rfl, fun e member => ?_⟩
    rw [List.mem_singleton.mp member]
    exact hp.1

/-- Where only executions may be requested, a trace has nothing else. -/
theorem Asks.trace {P : S → Bound → Prop} {p : Program S α} (hp : p.Asks P) (h : Host σ S) (w : σ) :
    ∀ q ∈ p.trace h w, ∃ e : Answered S, q = .execute e ∧ P e.session e.bound := by
  induction p generalizing w with
  | done a => exact fun q member => absurd member List.not_mem_nil
  | connect k ih => exact hp.elim
  | prepare s t k ih => exact hp.elim
  | close s k ih => exact hp.elim
  | record e k ih => exact ih hp _
  | execute s b k ih =>
    rw [Program.trace, List.forall_mem_cons]
    exact ⟨⟨_, rfl, hp.1⟩, ih _ (hp.2 _) _⟩

end Program

end GroupStore

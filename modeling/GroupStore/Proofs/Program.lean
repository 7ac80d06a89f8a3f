import GroupStore.Repository.Call

/-!
# Programs: what they may ask, and one request at a time

A program is a tree of requests, so "whatever it is answered" is a quantifier over its branches.
Interleaved clients make one request at a time; a client that is left alone makes them all.

* `Program.Asks` — every execution that a program may ever request satisfies a predicate, and
  apart from executions it only reports;
* `Program.Yields` — every result that a program may come to satisfies a predicate;
* `Program.next` — one request, answered by a host;
* `Program.run_bind` — a run of a composition is the run of its parts.
-/

namespace GroupStore.Program

variable {S α β σ : Type}

/-! ### What a program may ask -/

/-- Every execution that may be requested satisfies `P`, whatever the answers are; apart from
executions the program makes only reports. -/
def Asks (P : S → Bound → Prop) : Program S α → Prop
  | done _ => True
  | connect _ => False
  | prepare _ _ _ => False
  | execute s b next => P s b ∧ ∀ answer, (next answer).Asks P
  | close _ _ => False
  | record _ next => next.Asks P

theorem Asks.bind {P : S → Bound → Prop} {p : Program S α} {f : α → Program S β}
    (hp : p.Asks P) (hf : ∀ a, (f a).Asks P) : (p.bind f).Asks P := by
  induction p with
  | done a => exact hf a
  | connect next ih => exact hp.elim
  | prepare s t next ih => exact hp.elim
  | execute s b next ih => exact ⟨hp.1, fun answer => ih answer (hp.2 answer)⟩
  | close s next ih => exact hp.elim
  | record e next ih => exact ih hp

theorem Asks.map {P : S → Bound → Prop} {p : Program S α} (f : α → β) (hp : p.Asks P) :
    (p.map f).Asks P :=
  hp.bind fun _ => trivial

theorem Asks.andThen {ε : Type} {P : S → Bound → Prop} {p : Program S (Except ε α)}
    {f : α → Program S (Except ε β)} (hp : p.Asks P) (hf : ∀ a, (f a).Asks P) :
    (p.andThen f).Asks P := by
  refine hp.bind fun result => ?_
  cases result with
  | ok a => exact hf a
  | error e => trivial

theorem Asks.reported {P : S → Bound → Prop} {p : Program S (Except RepositoryError β)}
    (event : Except RepositoryError β → Audit.Event) (hp : p.Asks P) :
    (Repository.reported event p).Asks P :=
  hp.bind fun _ => trivial

theorem Asks.and {P P' : S → Bound → Prop} {p : Program S α} (hp : p.Asks P) (hp' : p.Asks P') :
    p.Asks fun s b => P s b ∧ P' s b := by
  induction p with
  | done a => trivial
  | connect next ih => exact hp.elim
  | prepare s t next ih => exact hp.elim
  | execute s b next ih =>
    exact ⟨⟨hp.1, hp'.1⟩, fun answer => ih answer (hp.2 answer) (hp'.2 answer)⟩
  | close s next ih => exact hp.elim
  | record e next ih => exact ih hp hp'

theorem Asks.mono {P P' : S → Bound → Prop} {p : Program S α} (hp : p.Asks P)
    (weaken : ∀ s b, P s b → P' s b) : p.Asks P' := by
  induction p with
  | done a => trivial
  | connect next ih => exact hp.elim
  | prepare s t next ih => exact hp.elim
  | execute s b next ih => exact ⟨weaken s b hp.1, fun answer => ih answer (hp.2 answer)⟩
  | close s next ih => exact hp.elim
  | record e next ih => exact ih hp

/-! ### What a program may yield -/

/-- Every result that may be reached satisfies `Q`, whatever the answers are, as long as the
statements that are prepared satisfy `P`. -/
def Yields (P : S → Template → Prepared → Prop) (Q : α → Prop) : Program S α → Prop
  | done a => Q a
  | connect next => ∀ answer, (next answer).Yields P Q
  | prepare s t next =>
    (∀ e, (next (.error e)).Yields P Q) ∧ ∀ p, P s t p → (next (.ok p)).Yields P Q
  | execute _ _ next => ∀ answer, (next answer).Yields P Q
  | close _ next => ∀ answer, (next answer).Yields P Q
  | record _ next => next.Yields P Q

theorem Yields.bind {P : S → Template → Prepared → Prop} {Q : α → Prop} {R : β → Prop}
    {p : Program S α} {f : α → Program S β} (hp : p.Yields P Q)
    (hf : ∀ a, Q a → (f a).Yields P R) : (p.bind f).Yields P R := by
  induction p with
  | done a => exact hf a hp
  | connect next ih => exact fun answer => ih answer (hp answer)
  | prepare s t next ih =>
    exact ⟨fun e => ih _ (hp.1 e), fun prepared accepted => ih _ (hp.2 prepared accepted)⟩
  | execute s b next ih => exact fun answer => ih answer (hp answer)
  | close s next ih => exact fun answer => ih answer (hp answer)
  | record e next ih => exact ih hp

/-- A composition yields what its second part yields, unless its first part fails. -/
theorem Yields.andThen {ε : Type} {P : S → Template → Prepared → Prop} {Q : α → Prop}
    {R : Except ε β → Prop} {p : Program S (Except ε α)} {f : α → Program S (Except ε β)}
    (hp : p.Yields P fun result => ∀ a, result = .ok a → Q a)
    (failed : ∀ e, R (.error e)) (hf : ∀ a, Q a → (f a).Yields P R) :
    (p.andThen f).Yields P R := by
  refine hp.bind fun result good => ?_
  cases result with
  | ok a => exact hf a (good a rfl)
  | error e => exact failed e

/-! ### One request -/

/-- Make one request and go on with the answer; a finished program stays as it is. -/
def next (h : Host σ S) : Program S α → σ → Program S α × σ
  | done a, w => (done a, w)
  | connect k, w => (k (h.connect w).1, (h.connect w).2)
  | prepare s t k, w => (k (h.prepare s t w).1, (h.prepare s t w).2)
  | execute s b k, w => (k (h.execute s b w).1, (h.execute s b w).2)
  | close s k, w => (k (h.close s w).1, (h.close s w).2)
  | record e k, w => (k, h.record e w)

/-- What a program may ask it may still ask after a request. -/
theorem Asks.next {P : S → Bound → Prop} {p : Program S α} (hp : p.Asks P) (h : Host σ S) (w : σ) :
    (p.next h w).1.Asks P := by
  cases p with
  | done a => trivial
  | connect k => exact hp.elim
  | prepare s t k => exact hp.elim
  | execute s b k => exact hp.2 _
  | close s k => exact hp.elim
  | record e k => exact hp

/-- What a program may yield it may still yield after a request, if what is prepared then satisfies
the predicate. -/
theorem Yields.next {P : S → Template → Prepared → Prop} {Q : α → Prop} {p : Program S α}
    (hp : p.Yields P Q) (h : Host σ S) (w : σ)
    (prepared : ∀ s t k prepared, p = .prepare s t k → (h.prepare s t w).1 = .ok prepared →
      P s t prepared) : (p.next h w).1.Yields P Q := by
  cases p with
  | done a => exact hp
  | connect k => exact hp _
  | prepare s t k =>
    show (k (h.prepare s t w).1).Yields P Q
    cases answer : (h.prepare s t w).1 with
    | error e => exact hp.1 e
    | ok statement => exact hp.2 statement (prepared s t k statement rfl answer)
  | execute s b k => exact hp _
  | close s k => exact hp _
  | record e k => exact hp

/-! ### Whole runs -/

theorem run_bind (h : Host σ S) (p : Program S α) (f : α → Program S β) (w : σ) :
    (p.bind f).run h w = (f (p.run h w).1).run h (p.run h w).2 := by
  induction p generalizing w with
  | done a => rfl
  | connect k ih => exact ih _ _
  | prepare s t k ih => exact ih _ _
  | execute s b k ih => exact ih _ _
  | close s k ih => exact ih _ _
  | record e k ih => exact ih _

theorem run_map (h : Host σ S) (p : Program S α) (f : α → β) (w : σ) :
    (p.map f).run h w = (f (p.run h w).1, (p.run h w).2) :=
  run_bind h p _ w

theorem map_map {γ : Type} (p : Program S α) (f : α → β) (g : β → γ) :
    (p.map f).map g = p.map fun a => g (f a) := by
  induction p with
  | done a => rfl
  | connect k ih => exact congrArg connect (funext ih)
  | prepare s t k ih => exact congrArg (prepare s t) (funext ih)
  | execute s b k ih => exact congrArg (execute s b) (funext ih)
  | close s k ih => exact congrArg (close s) (funext ih)
  | record e k ih => exact congrArg (record e) ih

theorem run_andThen_ok {ε : Type} {h : Host σ S} {p : Program S (Except ε α)}
    {f : α → Program S (Except ε β)} {w w' : σ} {a : α} (hp : p.run h w = (.ok a, w')) :
    (p.andThen f).run h w = (f a).run h w' := by
  rw [andThen, run_bind, hp]

theorem run_andThen_error {ε : Type} {h : Host σ S} {p : Program S (Except ε α)}
    {f : α → Program S (Except ε β)} {w w' : σ} {e : ε} (hp : p.run h w = (.error e, w')) :
    (p.andThen f).run h w = (.error e, w') := by
  rw [andThen, run_bind, hp]
  rfl

/-- A composition succeeds iff both its parts do. -/
theorem run_andThen_eq_ok_iff {ε : Type} {h : Host σ S} {p : Program S (Except ε α)}
    {f : α → Program S (Except ε β)} {w w' : σ} {b : β} :
    (p.andThen f).run h w = (.ok b, w') ↔
      ∃ a w₁, p.run h w = (.ok a, w₁) ∧ (f a).run h w₁ = (.ok b, w') := by
  constructor
  · intro whole
    rw [andThen, run_bind] at whole
    rcases first : p.run h w with ⟨result, w₁⟩
    rw [first] at whole
    cases result with
    | ok a => exact ⟨a, w₁, rfl, whole⟩
    | error e => cases whole
  · rintro ⟨a, w₁, first, rest⟩
    rw [run_andThen_ok first, rest]

/-- A call and its report: the result is handed on, the host is told once. -/
theorem run_reported (h : Host σ S) (event : Except RepositoryError β → Audit.Event)
    (p : Program S (Except RepositoryError β)) (w : σ) :
    (Repository.reported event p).run h w =
      ((p.run h w).1, h.record (event (p.run h w).1) (p.run h w).2) := by
  rw [Repository.reported, run_bind]
  rfl

end GroupStore.Program

import GroupStore.Proofs.Side

/-!
# Two repositories on one session

Two started repositories make their requests to one session in turn while the clock goes on.  A run
from which one of them is erased leaves the requests of the other where they were, at the same
readings of the clock.

* `Pairing`, `Happening`, `Pairing.run` — the system and its runs;
* `Pairing.erase` — a run without the calls and requests of one of the two;
* `Isolated` — erasing one changes no result of the other;
* `Secludes` — a relation on states that the other's requests cannot leave; `Secludes.results_eq`
  derives from it that erasing changes nothing.
-/

namespace GroupStore

variable {σ S α : Type}

/-! ### Two repositories in turn -/

/-- One of two. -/
inductive Party where
  | first
  | second
deriving DecidableEq

/-- The other of two. -/
def Party.other : Party → Party
  | first => second
  | second => first

theorem Party.other_ne (who : Party) : who.other ≠ who := by
  cases who <;> decide

theorem Party.eq_or_other (who whose : Party) : whose = who ∨ whose = who.other := by
  cases who <;> cases whose <;> decide

/-- One of two for each party. -/
def Party.choose {β : Type} (a b : β) : Party → β
  | first => a
  | second => b

/-- What may happen on the session. -/
inductive Happening (α : Type) where
  /-- A call of one of the two begins. -/
  | call (who : Party) (call : Call α)
  /-- A call of one of the two makes its next request after a delay. -/
  | step (who : Party) (task delay : Nat)
  /-- Time passes. -/
  | wait (delay : Nat)

/-- A session, and the calls of each of the two in the order in which they began. -/
structure Pairing (σ S α : Type) where
  state : σ
  tasks : Party → List (Program S (Except RepositoryError (Reply α)))

namespace Pairing

/-- Nobody has called yet. -/
def initial (w : σ) : Pairing σ S α := ⟨w, fun _ => []⟩

/-- Replace the calls of one of the two. -/
def put (p : Pairing σ S α) (who : Party)
    (tasks : List (Program S (Except RepositoryError (Reply α)))) : Pairing σ S α :=
  { p with tasks := fun whose => if whose = who then tasks else p.tasks whose }

/-- Let something happen; the clock goes on whether there is such a call or not. -/
def happen (k : Clocked σ S) (repositories : Party → Running S α) (p : Pairing σ S α) :
    Happening α → Pairing σ S α
  | .call who call => p.put who (p.tasks who ++ [(repositories who).perform call])
  | .step who task delay =>
    let later := k.later delay p.state
    match (p.tasks who)[task]? with
    | none => { p with state := later }
    | some t =>
      let after := t.next k.host later
      { p with state := after.2 }.put who ((p.tasks who).set task after.1)
  | .wait delay => { p with state := k.later delay p.state }

/-- Let some things happen, first to last. -/
def run (k : Clocked σ S) (repositories : Party → Running S α) (p : Pairing σ S α)
    (happenings : List (Happening α)) : Pairing σ S α :=
  happenings.foldl (happen k repositories) p

/-- What is left of a happening without one of the two: only the time that it takes. -/
def erase? (who : Party) : Happening α → Option (Happening α)
  | .call whose call => if whose = who then none else some (.call whose call)
  | .step whose task delay => some (if whose = who then .wait delay else .step whose task delay)
  | .wait delay => some (.wait delay)

/-- What is left of a run without one of the two. -/
def erase (who : Party) (happenings : List (Happening α)) : List (Happening α) :=
  happenings.filterMap (erase? who)

/-- The results of the calls of one of the two, as far as they have come to an end. -/
def results (p : Pairing σ S α) (who : Party) : List (Option (Except RepositoryError (Reply α))) :=
  (p.tasks who).map Program.result?

theorem put_self (p : Pairing σ S α) (who : Party)
    (tasks : List (Program S (Except RepositoryError (Reply α)))) :
    (p.put who tasks).tasks who = tasks :=
  if_pos rfl

theorem put_of_ne (p : Pairing σ S α) {who whose : Party} (differ : whose ≠ who)
    (tasks : List (Program S (Except RepositoryError (Reply α)))) :
    (p.put who tasks).tasks whose = p.tasks whose :=
  if_neg differ

end Pairing

/-- Erasing one of the two from a run changes no result of the other. -/
def Isolated (k : Clocked σ S) (w : σ) (repositories : Party → Running S α) : Prop :=
  ∀ (happenings : List (Happening α)) (who : Party),
    ((Pairing.initial w).run k repositories happenings).results who =
      ((Pairing.initial w).run k repositories (Pairing.erase who.other happenings)).results who

/-! ### What the other cannot change -/

/-- While two states are related, the own requests are answered alike and keep them related, and so
does a request of another to the first of them only. -/
structure Secludes (k : Clocked σ S) (R : σ → σ → Prop) (own foreign : S → Bound → Prop) :
    Prop where
  later : ∀ delay w v, R w v → R (k.later delay w) (k.later delay v)
  own : ∀ s b w v, own s b → R w v → (k.host.execute s b w).1 = (k.host.execute s b v).1 ∧
    R (k.host.execute s b w).2 (k.host.execute s b v).2
  foreign : ∀ s b w v, foreign s b → R w v → R (k.host.execute s b w).2 v
  record : ∀ e w, k.host.record e w = w

namespace Secludes

variable {k : Clocked σ S} {R : σ → σ → Prop} {own foreign : S → Bound → Prop}

/-- An own request has the same consequences in related states. -/
theorem next_own (secludes : Secludes k R own foreign) {β : Type} {p : Program S β}
    (asks : p.Asks own) {w v : σ} (related : R w v) :
    (p.next k.host w).1 = (p.next k.host v).1 ∧ R (p.next k.host w).2 (p.next k.host v).2 := by
  cases p with
  | done a => exact ⟨rfl, related⟩
  | connect next => exact asks.elim
  | prepare s t next => exact asks.elim
  | execute s b next =>
    obtain ⟨answerEq, after⟩ := secludes.own s b w v asks.1 related
    exact ⟨congrArg next answerEq, after⟩
  | close s next => exact asks.elim
  | record e next =>
    refine ⟨rfl, ?_⟩
    simp only [Program.next, secludes.record]
    exact related

/-- A request of another leaves the states related. -/
theorem next_foreign (secludes : Secludes k R own foreign) {β : Type} {p : Program S β}
    (asks : p.Asks foreign) {w v : σ} (related : R w v) : R (p.next k.host w).2 v := by
  cases p with
  | done a => exact related
  | connect next => exact asks.elim
  | prepare s t next => exact asks.elim
  | execute s b next => exact secludes.foreign s b w v asks.1 related
  | close s next => exact asks.elim
  | record e next =>
    simp only [Program.next, secludes.record]
    exact related

/-- A run and the run without the other: related states, and the same calls of one's own. -/
structure Match (R : σ → σ → Prop) (own foreign : S → Bound → Prop) (who : Party)
    (p q : Pairing σ S α) : Prop where
  related : R p.state q.state
  tasks : p.tasks who = q.tasks who
  asksOwn : ∀ t ∈ p.tasks who, t.Asks own
  asksForeign : ∀ t ∈ p.tasks who.other, t.Asks foreign

section Match

variable {who : Party} {p q : Pairing σ S α}

theorem Match.states (matched : Match R own foreign who p q) {w v : σ} (related : R w v) :
    Match R own foreign who { p with state := w } { q with state := v } :=
  ⟨related, matched.tasks, matched.asksOwn, matched.asksForeign⟩

/-- The own calls may change in both runs. -/
theorem Match.put_own (matched : Match R own foreign who p q)
    {tasks : List (Program S (Except RepositoryError (Reply α)))}
    (asks : ∀ t ∈ tasks, t.Asks own) :
    Match R own foreign who (p.put who tasks) (q.put who tasks) where
  related := matched.related
  tasks := by rw [Pairing.put_self, Pairing.put_self]
  asksOwn := by rwa [Pairing.put_self]
  asksForeign := by
    rw [Pairing.put_of_ne p who.other_ne]
    exact matched.asksForeign

/-- The calls of the other may change in the first run. -/
theorem Match.put_foreign (matched : Match R own foreign who p q)
    {tasks : List (Program S (Except RepositoryError (Reply α)))}
    (asks : ∀ t ∈ tasks, t.Asks foreign) : Match R own foreign who (p.put who.other tasks) q where
  related := matched.related
  tasks := by
    rw [Pairing.put_of_ne p who.other_ne.symm]
    exact matched.tasks
  asksOwn := by
    rw [Pairing.put_of_ne p who.other_ne.symm]
    exact matched.asksOwn
  asksForeign := by rwa [Pairing.put_self]

end Match

/-- A call that is added to others, or put in the place of one, asks for what they ask for. -/
theorem asks_append {P : S → Bound → Prop} {β : Type} {tasks : List (Program S β)}
    (asks : ∀ t ∈ tasks, t.Asks P) {new : Program S β} (asksNew : new.Asks P) :
    ∀ t ∈ tasks ++ [new], t.Asks P := by
  intro t member
  rcases List.mem_append.mp member with old | added
  · exact asks t old
  · rw [List.mem_singleton.mp added]
    exact asksNew

theorem asks_set {P : S → Bound → Prop} {β : Type} {tasks : List (Program S β)}
    (asks : ∀ t ∈ tasks, t.Asks P) (task : Nat) {new : Program S β} (asksNew : new.Asks P) :
    ∀ t ∈ tasks.set task new, t.Asks P := by
  intro t member
  rcases List.mem_or_eq_of_mem_set member with old | rfl
  · exact asks t old
  · exact asksNew

variable {repositories : Party → Running S α} {who : Party}

/-- Whatever happens in a run, what is left of it without the other keeps the match. -/
theorem happen (secludes : Secludes k R own foreign)
    (ownCalls : ∀ call, ((repositories who).perform call).Asks own)
    (foreignCalls : ∀ call, ((repositories who.other).perform call).Asks foreign)
    {p q : Pairing σ S α} (matched : Match R own foreign who p q) (h : Happening α) :
    Match R own foreign who (p.happen k repositories h)
      (match Pairing.erase? who.other h with
        | none => q
        | some h' => q.happen k repositories h') := by
  cases h with
  | wait delay => exact matched.states (secludes.later delay _ _ matched.related)
  | call whose call =>
    rcases who.eq_or_other whose with rfl | rfl
    · simp only [Pairing.erase?, if_neg whose.other_ne.symm, Pairing.happen, ← matched.tasks]
      exact matched.put_own (asks_append matched.asksOwn (ownCalls call))
    · simp only [Pairing.erase?, if_true, Pairing.happen]
      exact matched.put_foreign (asks_append matched.asksForeign (foreignCalls call))
  | step whose task delay =>
    have later := secludes.later delay _ _ matched.related
    rcases who.eq_or_other whose with rfl | rfl
    · simp only [Pairing.erase?, if_neg whose.other_ne.symm, Pairing.happen, ← matched.tasks]
      cases found : (p.tasks whose)[task]? with
      | none => exact matched.states later
      | some t =>
        have asks := matched.asksOwn t (List.mem_of_getElem? found)
        obtain ⟨answerEq, after⟩ := secludes.next_own asks later
        simp only [← answerEq]
        exact (matched.states after).put_own (asks_set matched.asksOwn task (asks.next k.host _))
    · simp only [Pairing.erase?, if_true, Pairing.happen]
      cases found : (p.tasks who.other)[task]? with
      | none => exact matched.states later
      | some t =>
        have asks := matched.asksForeign t (List.mem_of_getElem? found)
        have after := secludes.next_foreign asks later
        exact (matched.states after).put_foreign
          (asks_set matched.asksForeign task (asks.next k.host _))

/-- Erasing the other from a run changes no result. -/
theorem results_eq (secludes : Secludes k R own foreign)
    (ownCalls : ∀ call, ((repositories who).perform call).Asks own)
    (foreignCalls : ∀ call, ((repositories who.other).perform call).Asks foreign) {w : σ}
    (related : R w w) (happenings : List (Happening α)) :
    ((Pairing.initial w).run k repositories happenings).results who =
      ((Pairing.initial w).run k repositories
        (Pairing.erase who.other happenings)).results who := by
  suffices whole : ∀ p q : Pairing σ S α, Match R own foreign who p q →
      Match R own foreign who (p.run k repositories happenings)
        (q.run k repositories (Pairing.erase who.other happenings)) by
    have start : Match R own foreign who (Pairing.initial w : Pairing σ S α) (Pairing.initial w) :=
      ⟨related, rfl, fun _ member => absurd member List.not_mem_nil,
        fun _ member => absurd member List.not_mem_nil⟩
    exact congrArg (List.map Program.result?) (whole _ _ start).tasks
  induction happenings with
  | nil => exact fun p q matched => matched
  | cons h rest ih =>
    intro p q matched
    have first := ih _ _ (secludes.happen ownCalls foreignCalls matched h)
    rw [Pairing.erase, List.filterMap_cons]
    cases left : Pairing.erase? who.other h <;> rw [left] at first <;> exact first

end Secludes

end GroupStore

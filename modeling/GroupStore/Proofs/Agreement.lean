import GroupStore.Proofs.Matched
import GroupStore.Payload
import Mathlib.Data.List.Forall2

/-!
# The two backends agree

The same actions are taken on a fresh memory session and on a session over a fresh database.  As
long as the starts succeed, tables are apart and moments of expiry fit into a cell, every action has
the same effect on both sides.

* `Agree` — the invariant, kept by every action in `Agree.act`;
* `backends_agree` — all effects are the same, up to the order of returned rows.
-/

namespace GroupStore

variable {S α : Type}

/-! ### Lists side by side -/

section Lists

variable {β γ : Type} {R : β → γ → Prop} {l₁ : List β} {l₂ : List γ}

theorem forall₂_getElem? (h : List.Forall₂ R l₁ l₂) (i : Nat) :
    (l₁[i]? = none ∧ l₂[i]? = none) ∨ ∃ x y, l₁[i]? = some x ∧ l₂[i]? = some y ∧ R x y := by
  induction h generalizing i with
  | nil => exact .inl ⟨rfl, rfl⟩
  | cons related _ ih =>
    cases i with
    | zero => exact .inr ⟨_, _, rfl, rfl, related⟩
    | succ i => exact ih i

theorem forall₂_set (h : List.Forall₂ R l₁ l₂) (i : Nat) {x : β} {y : γ} (related : R x y) :
    List.Forall₂ R (l₁.set i x) (l₂.set i y) := by
  induction h generalizing i with
  | nil => exact .nil
  | cons head rest ih =>
    cases i with
    | zero => exact .cons related rest
    | succ i => exact .cons head (ih i)

theorem forall₂_concat (h : List.Forall₂ R l₁ l₂) {x : β} {y : γ} (related : R x y) :
    List.Forall₂ R (l₁ ++ [x]) (l₂ ++ [y]) :=
  List.rel_append h (.cons related .nil)

end Lists

/-! ### Two sides -/

/-- The schemas of some started repositories. -/
def SchemaOf (running : List (Running S α)) (s : Schema) : Prop := ∃ r ∈ running, r.schema = s

/-- Both sides have the same repositories, the same calls under way, and sessions that match. -/
structure Agree (chosen : Schema → Prop) (a : Side Memory.Moment S α) (b : Side Sqlite.Moment S α) :
    Prop where
  matched : Matched (SchemaOf a.running) a.state b.state
  running : List.Forall₂ Beside a.running b.running
  chosen : ∀ s, SchemaOf a.running s → chosen s
  tasks : List.Forall₂ (Program.Twin (Asked (SchemaOf a.running))) a.tasks b.tasks

section Steps

variable {chosen : Schema → Prop} {a : Side Memory.Moment S α} {b : Side Sqlite.Moment S α}
  {self₁ self₂ : S} {arrangement : Arrangement}

/-- One request of a call that is under way on both sides. -/
theorem Matched.next {served : Schema → Prop} {w₁ : Memory.Moment} {w₂ : Sqlite.Moment}
    {β : Type} {p₁ p₂ : Program S β} (matched : Matched served w₁ w₂) (self₁ self₂ : S)
    (arrangement : Arrangement)
    (inTime : ∀ s, served s → Sqlite.InTime s w₁.now) (twin : Program.Twin (Asked served) p₁ p₂) :
    let after₁ := p₁.next (Side.arranged (Memory.clocked self₁) arrangement) w₁
    let after₂ := p₂.next (Side.arranged (Sqlite.clocked self₂) arrangement) w₂
    Program.Twin (Asked served) after₁.1 after₂.1 ∧ Matched served after₁.2 after₂.2 ∧
      after₁.2.now = w₁.now := by
  cases twin with
  | done a => exact ⟨.done a, matched, rfl⟩
  | record rest => exact ⟨rest, matched, rfl⟩
  | @execute s₁ s₂ b₁ b₂ k₁ k₂ asked rest =>
    obtain ⟨x, y, st, db, run₁, run₂, rows, matched'⟩ := matched.execute inTime asked
    have arranged : arrangement.arrange x = arrangement.arrange y := arrangement.same rows
    simp only [Program.next, Side.arranged, Memory.clocked, Sqlite.clocked, Memory.host,
      Sqlite.host, run₁, run₂, Except.map, arranged]
    exact ⟨rest _, matched', trivial⟩

/-- An action has the same effect on both sides, keeps them alike and takes no longer than its
delay. -/
def Alike (chosen : Schema → Prop) (self₁ self₂ : S) (arrangement : Arrangement)
    (a : Side Memory.Moment S α) (b : Side Sqlite.Moment S α) (action : Action S α) : Prop :=
  let after₁ := a.act (Memory.clocked self₁) arrangement action
  let after₂ := b.act (Sqlite.clocked self₂) arrangement action
  Effect.Same after₁.1 after₂.1 ∧ Agree chosen after₁.2 after₂.2 ∧
    after₁.2.state.now ≤ a.state.now + action.delay

/-- A start that succeeds on both sides prepares the same statements on both. -/
theorem Agree.start (agree : Agree chosen a b)
    (apart : ∀ s s', chosen s → chosen s' → Sqlite.Apart s.settings.table s'.settings.table)
    {repository : Repository S α} (choose : chosen repository.schema)
    (starts₁ : (a.act (Memory.clocked self₁) arrangement (.start repository)).1 ≠ .started false)
    (starts₂ : (b.act (Sqlite.clocked self₂) arrangement (.start repository)).1 ≠ .started false) :
    Alike chosen self₁ self₂ arrangement a b (.start repository) := by
  rcases run₁ : repository.start.run (Memory.host self₁) a.state with ⟨result₁, w₁⟩
  rcases run₂ : repository.start.run (Sqlite.host self₂) b.state with ⟨result₂, w₂⟩
  cases result₁ with
  | error e => exact absurd (by simp only [Side.act, Memory.clocked, run₁]) starts₁
  | ok r₁ =>
  cases result₂ with
  | error e => exact absurd (by simp only [Side.act, Sqlite.clocked, run₂]) starts₂
  | ok r₂ =>
    obtain ⟨schema, beside, clock, matched⟩ := agree.matched.start
      (fun s served => apart s _ (agree.chosen s served) choose) run₁ run₂
    have served : (fun s => SchemaOf a.running s ∨ s = repository.schema) =
        SchemaOf (a.running ++ [r₁]) := by
      funext s
      simp [SchemaOf, or_and_right, exists_or, schema, eq_comm]
    rw [served] at matched
    simp only [Alike, Side.act, Memory.clocked, Sqlite.clocked, run₁, run₂]
    refine ⟨.started true, ⟨matched, forall₂_concat agree.running beside, fun s member => ?_,
      agree.tasks.imp fun p₁ p₂ twin => twin.mono fun b₁ b₂ asked => ?_⟩, Nat.le_of_eq clock⟩
    · rw [← served] at member
      rcases member with old | rfl
      · exact agree.chosen s old
      · exact choose
    · obtain ⟨s, kind, old, rest⟩ := asked
      exact ⟨s, kind, served ▸ .inl old, rest⟩

/-- A repository that one side has runs beside one of the other. -/
theorem Agree.running_cases (agree : Agree chosen a b) (repository : Nat) :
    (a.running[repository]? = none ∧ b.running[repository]? = none) ∨
      ∃ r₁ r₂, a.running[repository]? = some r₁ ∧ b.running[repository]? = some r₂ ∧
        Beside r₁ r₂ ∧ SchemaOf a.running r₁.schema := by
  rcases forall₂_getElem? agree.running repository with
    absent | ⟨r₁, r₂, found₁, found₂, beside⟩
  · exact .inl absent
  · exact .inr ⟨r₁, r₂, found₁, found₂, beside, r₁, List.mem_of_getElem? found₁, rfl⟩

/-- A statement with some values is bound alike and answered alike. -/
theorem Agree.execute (agree : Agree chosen a b) (repository delay : Nat) (kind : StatementKind)
    (values : List Value)
    (inTime : ∀ s, chosen s → Sqlite.InTime s (a.state.now + delay)) :
    Alike chosen self₁ self₂ arrangement a b (.execute repository delay kind values) := by
  rcases agree.running_cases repository with
    ⟨absent₁, absent₂⟩ | ⟨r₁, r₂, found₁, found₂, beside, prepared⟩
  · simp only [Alike, Side.act, absent₁, absent₂]
    exact ⟨.ignored, agree, Nat.le_add_right _ _⟩
  · rcases Running.bind_twin (beside.templates kind) values with
      ⟨e, bound₁, bound₂⟩ | ⟨b₁, b₂, bound₁, bound₂⟩
    · simp only [Alike, Side.act, found₁, found₂, bound₁, bound₂]
      exact ⟨.unbound e, agree, Nat.le_add_right _ _⟩
    · have parts₁ := Prepared.bind_ok bound₁
      have parts₂ := Prepared.bind_ok bound₂
      have sameRequest : Running.SameRequest r₁ r₂ b₁ b₂ :=
        ⟨kind, parts₁.1, parts₂.1, parts₁.2.trans parts₂.2.symm⟩
      obtain ⟨x, y, st, db, run₁, run₂, rows, matched⟩ :=
        (agree.matched.later delay).execute (fun s served => inTime s (agree.chosen s served))
          (beside.asked prepared sameRequest)
      simp only [Alike, Side.act, found₁, found₂, bound₁, bound₂, Memory.clocked, Sqlite.clocked,
        Memory.host, Sqlite.host, run₁, run₂]
      exact ⟨.answered rows, ⟨matched, agree.running, agree.chosen, agree.tasks⟩, Nat.le_refl _⟩

/-- A call performed in one go has the same reply. -/
theorem Agree.perform (agree : Agree chosen a b) (repository delay : Nat) (call : Call α)
    (inTime : ∀ s, chosen s → Sqlite.InTime s (a.state.now + delay)) :
    Alike chosen self₁ self₂ arrangement a b (.perform repository delay call) := by
  rcases agree.running_cases repository with
    ⟨absent₁, absent₂⟩ | ⟨r₁, r₂, found₁, found₂, beside, prepared⟩
  · simp only [Alike, Side.act, absent₁, absent₂]
    exact ⟨.ignored, agree, Nat.le_add_right _ _⟩
  · obtain ⟨reply₁, reply₂, w₁, w₂, run₁, run₂, sameReply, matched, clock⟩ :=
      (agree.matched.later delay).perform self₁ self₂ beside prepared
        (inTime _ (agree.chosen _ prepared)) call
    simp only [Alike, Side.act, found₁, found₂, Memory.clocked, Sqlite.clocked, run₁, run₂]
    exact ⟨.replied sameReply, ⟨matched, agree.running, agree.chosen, agree.tasks⟩,
      Nat.le_of_eq clock⟩

/-- A call begun on both sides will make the same requests. -/
theorem Agree.begin (agree : Agree chosen a b) (repository : Nat) (call : Call α) :
    Alike chosen self₁ self₂ arrangement a b (.begin repository call) := by
  rcases agree.running_cases repository with
    ⟨absent₁, absent₂⟩ | ⟨r₁, r₂, found₁, found₂, beside, prepared⟩
  · simp only [Alike, Side.act, absent₁, absent₂]
    exact ⟨.ignored, agree, Nat.le_add_right _ _⟩
  · simp only [Alike, Side.act, found₁, found₂]
    exact ⟨.went none, ⟨agree.matched, agree.running, agree.chosen,
      forall₂_concat agree.tasks (beside.perform prepared call)⟩, Nat.le_add_right _ _⟩

/-- A call that is under way goes on alike. -/
theorem Agree.step (agree : Agree chosen a b) (task delay : Nat)
    (inTime : ∀ s, chosen s → Sqlite.InTime s (a.state.now + delay)) :
    Alike chosen self₁ self₂ arrangement a b (.step task delay) := by
  rcases forall₂_getElem? agree.tasks task with
    ⟨absent₁, absent₂⟩ | ⟨p₁, p₂, found₁, found₂, twin⟩
  · simp only [Alike, Side.act, absent₁, absent₂]
    exact ⟨.ignored, agree, Nat.le_add_right _ _⟩
  · obtain ⟨twin', matched, clock⟩ := (agree.matched.later delay).next self₁ self₂
      arrangement (fun s served => inTime s (agree.chosen s served)) twin
    simp only [Alike, Side.act, found₁, found₂]
    have alike := Effect.Same.went (α := α) (Program.result? (p₁.next
      (Side.arranged (Memory.clocked self₁) arrangement)
      ((Memory.clocked self₁).later delay a.state)).1)
    refine ⟨?_, ⟨matched, agree.running, agree.chosen, forall₂_set agree.tasks task twin'⟩,
      Nat.le_of_eq clock⟩
    exact (congrArg (fun reply => Effect.Same _ (.went reply)) twin'.result?).mp alike

/-- Every action that is no failed start has the same effect on both sides and keeps them alike. -/
theorem Agree.act (agree : Agree chosen a b)
    (apart : ∀ s s', chosen s → chosen s' → Sqlite.Apart s.settings.table s'.settings.table)
    (action : Action S α) (choose : ∀ r, action = .start r → chosen r.schema)
    (inTime : ∀ s, chosen s → Sqlite.InTime s (a.state.now + action.delay))
    (starts₁ : (a.act (Memory.clocked self₁) arrangement action).1 ≠ .started false)
    (starts₂ : (b.act (Sqlite.clocked self₂) arrangement action).1 ≠ .started false) :
    Alike chosen self₁ self₂ arrangement a b action := by
  cases action with
  | start repository => exact agree.start apart (choose repository rfl) starts₁ starts₂
  | execute repository delay kind values => exact agree.execute repository delay kind values inTime
  | perform repository delay call => exact agree.perform repository delay call inTime
  | begin repository call => exact agree.begin repository call
  | step task delay => exact agree.step task delay inTime

/-- Actions without a failed start have the same effects on both sides. -/
theorem Agree.run (agree : Agree chosen a b)
    (apart : ∀ s s', chosen s → chosen s' → Sqlite.Apart s.settings.table s'.settings.table)
    (actions : List (Action S α)) (choose : ∀ r, .start r ∈ actions → chosen r.schema) {limit : Nat}
    (inTime : ∀ s, chosen s → Sqlite.InTime s limit)
    (order : a.state.now + Action.total actions ≤ limit)
    (starts₁ : .started false ∉ a.run (Memory.clocked self₁) arrangement actions)
    (starts₂ : .started false ∉ b.run (Sqlite.clocked self₂) arrangement actions) :
    List.Forall₂ Effect.Same (a.run (Memory.clocked self₁) arrangement actions)
      (b.run (Sqlite.clocked self₂) arrangement actions) := by
  induction actions generalizing a b with
  | nil => exact .nil
  | cons action rest ih =>
    rw [Side.run, List.mem_cons, not_or] at starts₁ starts₂
    rw [Action.total] at order
    obtain ⟨alike, agree', clock⟩ := agree.act apart action
      (fun r start => choose r (start ▸ List.mem_cons_self))
      (fun s chosen' => (inTime s chosen').earlier (by omega))
      (Ne.symm starts₁.1) (Ne.symm starts₂.1)
    rw [Side.run, Side.run]
    exact .cons alike (ih agree' (fun r start => choose r (List.mem_cons_of_mem _ start))
      (by omega) starts₁.2 starts₂.2)

end Steps

/-- Whatever is done to a fresh memory session and to a session over a fresh database has the same
effects on both, up to the order of returned rows, as long as no start fails, the tables of the
started repositories are apart, and what is written expires at moments that fit into a cell. -/
theorem backends_agree (self₁ self₂ : S) (arrangement : Arrangement) (now : Nat)
    (actions : List (Action S α))
    (apart : ∀ r r', .start r ∈ actions → .start r' ∈ actions →
      Sqlite.Apart r.schema.settings.table r'.schema.settings.table)
    (inTime : ∀ r, .start r ∈ actions →
      Sqlite.InTime r.schema (now + Action.total actions))
    (starts₁ : .started false ∉
      (Side.initial ⟨.empty, now⟩).run (Memory.clocked self₁) arrangement actions)
    (starts₂ : .started false ∉
      (Side.initial ⟨.fresh, .empty, now⟩).run (Sqlite.clocked self₂) arrangement actions) :
    List.Forall₂ Effect.Same
      ((Side.initial ⟨.empty, now⟩).run (Memory.clocked self₁) arrangement actions)
      ((Side.initial ⟨.fresh, .empty, now⟩).run (Sqlite.clocked self₂) arrangement actions) := by
  let chosen (s : Schema) : Prop := ∃ r, .start r ∈ actions ∧ r.schema = s
  have served : SchemaOf ([] : List (Running S α)) = fun _ => False := by
    funext s
    simp [SchemaOf]
  have agree : Agree chosen (Side.initial ⟨.empty, now⟩ : Side _ S α)
      (Side.initial ⟨.fresh, .empty, now⟩) := by
    refine ⟨?_, .nil, fun s member => ?_, .nil⟩
    · rw [Side.initial, served]
      exact Matched.initial now
    · rw [Side.initial, served] at member
      exact member.elim
  refine agree.run ?_ actions (fun r start => ⟨r, start, rfl⟩) ?_ (Nat.le_refl _) starts₁ starts₂
  · rintro s s' ⟨r, start, rfl⟩ ⟨r', start', rfl⟩
    exact apart r r' start start'
  · rintro s ⟨r, start, rfl⟩
    exact inTime r start

/-! ### A repository on both -/

/-- A repository whose results live for a minute. -/
def shortLived : Repository Unit Exchange where
  schema := ⟨{ table := Repository.resultsTable, ttlSeconds := some 60 }, rfl⟩
  codec := Payload.codec Payload.defaultLimit
  source := .owned

theorem shortLived_creatable : Sqlite.Creatable shortLived.schema where
  plain := rfl
  unreserved := by decide +kernel
  distinct := by
    have names : shortLived.schema.definition.columns.map
        (fun column => Sqlite.caseless column.name) =
        ["aggregation_key", "exchange_id", "exchange", "__expires_at_ms"] := by decide +kernel
    rw [Sqlite.Definition.Distinct, names]
    decide
  narrow := by decide

/-- What is done with the repository once it is started. -/
def shortLivedUse : List (Action Unit Exchange) :=
  [.execute 0 5 .insert [.text "group", .text "id", .blob ByteArray.empty],
   .begin 0 (.confirm "id"), .step 0 1, .execute 0 60000 .selectByKey [.text "group"],
   .perform 0 0 .scan]

/-- The start succeeds on both sides, so the two backends agree on what is done afterwards. -/
theorem backends_agree_shortLived :
    .started false ∉ (Side.initial ⟨.empty, 7⟩).run (Memory.clocked ()) .ascending
        (.start shortLived :: shortLivedUse) ∧
      .started false ∉ (Side.initial ⟨.fresh, .empty, 7⟩).run (Sqlite.clocked ()) .ascending
        (.start shortLived :: shortLivedUse) ∧
      List.Forall₂ Effect.Same
        ((Side.initial ⟨.empty, 7⟩).run (Memory.clocked ()) .ascending
          (.start shortLived :: shortLivedUse))
        ((Side.initial ⟨.fresh, .empty, 7⟩).run (Sqlite.clocked ()) .ascending
          (.start shortLived :: shortLivedUse)) := by
  have others : ∀ r, .start r ∉ shortLivedUse := by simp [shortLivedUse]
  have only : ∀ r, .start r ∈ .start shortLived :: shortLivedUse → r = shortLived := by
    intro r start
    rcases List.mem_cons.mp start with own | other
    · exact Action.start.inj own
    · exact absurd other (others r)
  obtain ⟨r₁, w₁, run₁⟩ :=
    (Memory.start_iff () 7 (r := shortLived) Memory.Store.sound_empty).mpr
      fun _ found => by cases found
  obtain ⟨r₂, w₂, run₂⟩ := Sqlite.start_ok () (Sqlite.sound_initial 7)
    shortLived_creatable (fun _ held => by cases held) fun _ held => by cases held
  have starts₁ : .started false ∉ (Side.initial ⟨.empty, 7⟩).run (Memory.clocked ()) .ascending
      (.start shortLived :: shortLivedUse) := by
    rw [Side.run, List.mem_cons, not_or]
    refine ⟨?_, Side.started_notMem _ _ _ others _⟩
    simp [Side.act, Side.initial, Memory.clocked, run₁]
  have starts₂ : .started false ∉ (Side.initial ⟨.fresh, .empty, 7⟩).run (Sqlite.clocked ())
      .ascending (.start shortLived :: shortLivedUse) := by
    rw [Side.run, List.mem_cons, not_or]
    refine ⟨?_, Side.started_notMem _ _ _ others _⟩
    simp [Side.act, Side.initial, Sqlite.clocked, run₂]
  refine ⟨starts₁, starts₂, backends_agree () () .ascending 7 _ ?_ ?_ starts₁ starts₂⟩
  · intro r r' start start'
    rw [only r start, only r' start']
    exact .inl rfl
  · intro r start
    rw [only r start]
    intro seconds ttl
    cases ttl
    decide

end GroupStore

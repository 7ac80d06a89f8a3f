import GroupStore.Proofs.Calls

/-!
# The same call on two sessions

A repository may be started on two sessions.  A call on the one and the same call on the other make
the same requests, as long as they are given the same answers: their programs differ only in the
prepared statements.

* `Program.Twin` — two programs that request alike, whatever the answers are;
* `Running.perform_twin` — the programs of one call on two sessions do.
-/

namespace GroupStore

variable {S α β : Type}

namespace Program

/-- Two programs that make executions related by `Q` and reports in the same order, and end alike
if they are given the same answers. -/
inductive Twin (Q : Bound → Bound → Prop) : Program S α → Program S α → Prop where
  | done (a : α) : Twin Q (.done a) (.done a)
  | execute {s₁ s₂ : S} {b₁ b₂ : Bound} {k₁ k₂ : Except SessionError ResultSet → Program S α} :
      Q b₁ b₂ → (∀ answer, Twin Q (k₁ answer) (k₂ answer)) →
      Twin Q (.execute s₁ b₁ k₁) (.execute s₂ b₂ k₂)
  | record {e₁ e₂ : Audit.Event} {k₁ k₂ : Program S α} : Twin Q k₁ k₂ →
      Twin Q (.record e₁ k₁) (.record e₂ k₂)

variable {Q Q' : Bound → Bound → Prop} {p₁ p₂ : Program S α}

theorem Twin.mono (weaken : ∀ b₁ b₂, Q b₁ b₂ → Q' b₁ b₂) (twin : Twin Q p₁ p₂) : Twin Q' p₁ p₂ := by
  induction twin with
  | done a => exact .done a
  | execute related _ ih => exact .execute (weaken _ _ related) ih
  | record _ ih => exact .record ih

theorem Twin.bind {f₁ f₂ : α → Program S β} (twin : Twin Q p₁ p₂) (hf : ∀ a, Twin Q (f₁ a) (f₂ a)) :
    Twin Q (p₁.bind f₁) (p₂.bind f₂) := by
  induction twin with
  | done a => exact hf a
  | execute related _ ih => exact .execute related ih
  | record _ ih => exact .record ih

theorem Twin.map (f : α → β) (twin : Twin Q p₁ p₂) : Twin Q (p₁.map f) (p₂.map f) :=
  twin.bind fun _ => .done _

theorem Twin.andThen {ε : Type} {p₁ p₂ : Program S (Except ε α)}
    {f₁ f₂ : α → Program S (Except ε β)} (twin : Twin Q p₁ p₂)
    (hf : ∀ a, Twin Q (f₁ a) (f₂ a)) : Twin Q (p₁.andThen f₁) (p₂.andThen f₂) := by
  refine twin.bind fun result => ?_
  cases result with
  | ok a => exact hf a
  | error e => exact .done _

theorem Twin.reported {p₁ p₂ : Program S (Except RepositoryError β)}
    (event₁ event₂ : Except RepositoryError β → Audit.Event) (twin : Twin Q p₁ p₂) :
    Twin Q (Repository.reported event₁ p₁) (Repository.reported event₂ p₂) :=
  twin.bind fun _ => .record (.done _)

/-- Twins ask for what has a counterpart. -/
theorem Twin.asks (twin : Twin Q p₁ p₂) : p₁.Asks fun _ b => ∃ b', Q b b' := by
  induction twin with
  | done a => trivial
  | execute related _ ih => exact ⟨⟨_, related⟩, ih⟩
  | record _ ih => exact ih

/-- The result of a program that has come to its end. -/
def result? : Program S α → Option α
  | done a => some a
  | _ => none

/-- Twins come to their ends together. -/
theorem Twin.result? (twin : Twin Q p₁ p₂) : p₁.result? = p₂.result? := by
  cases twin <;> rfl

end Program

/-! ### Calls on two sessions -/

namespace Running

open Program (Twin)

/-- Values can be bound to both of two statements with one template or to none. -/
theorem bind_twin {p₁ p₂ : Prepared} (templateEq : p₁.template = p₂.template)
    (values : List Value) :
    (∃ e, p₁.bind values = .error e ∧ p₂.bind values = .error e) ∨
      ∃ b₁ b₂, p₁.bind values = .ok b₁ ∧ p₂.bind values = .ok b₂ := by
  unfold Prepared.bind
  split <;> split
  · exact .inr ⟨_, _, rfl, rfl⟩
  · rename_i admitted e refused
    rw [templateEq, refused] at admitted
    cases admitted
  · rename_i e refused admitted
    rw [templateEq, admitted] at refused
    cases refused
  · rename_i e refused e' refused'
    rw [templateEq, refused'] at refused
    cases refused
    exact .inl ⟨e, rfl, rfl⟩

/-- The same statement of one repository on two sessions, with the same values. -/
def SameRequest (r₁ r₂ : Running S α) (b₁ b₂ : Bound) : Prop :=
  ∃ kind, b₁.statement = r₁.statements.of kind ∧ b₂.statement = r₂.statements.of kind ∧
    b₁.values = b₂.values

variable {r₁ r₂ : Running S α} (repository : r₁.repository = r₂.repository)
  (templates : ∀ kind, (r₁.statements.of kind).template = (r₂.statements.of kind).template)

include templates in
theorem submit_twin (kind : StatementKind) (values : List Value) :
    Twin (SameRequest r₁ r₂) (r₁.submit (r₁.statements.of kind) values)
      (r₂.submit (r₂.statements.of kind) values) := by
  rcases bind_twin (templates kind) values with ⟨e, bound₁, bound₂⟩ | ⟨b₁, b₂, bound₁, bound₂⟩
  · simp only [submit, bound₁, bound₂]
    exact .done _
  · have parts₁ := Prepared.bind_ok bound₁
    have parts₂ := Prepared.bind_ok bound₂
    simp only [submit, bound₁, bound₂]
    refine .execute ⟨kind, parts₁.1, parts₂.1, parts₁.2.trans parts₂.2.symm⟩ fun answer => ?_
    cases answer <;> exact .done _

include repository templates

theorem scanIdentities_twin :
    Twin (SameRequest r₁ r₂) r₁.scanIdentities r₂.scanIdentities := by
  have submitted := submit_twin templates .selectKeyAndId r₁.schema.prefixValues
  have schemas : r₂.schema = r₁.schema := congrArg Repository.schema repository.symm
  unfold scanIdentities
  rw [schemas]
  refine submitted.andThen fun rows => ?_
  cases readIdentities r₁.schema rows.rows <;> exact .done _

theorem dropEach_twin (id : String) (keys : List String) (counters : Confirmation) :
    Twin (SameRequest r₁ r₂) (r₁.dropEach id keys counters) (r₂.dropEach id keys counters) := by
  induction keys generalizing counters with
  | nil => exact .done _
  | cons key rest ih =>
    have submitted := submit_twin templates .conditionalDelete
      (r₁.schema.composeKey key ++ [.text id])
    have schemas : r₂.schema = r₁.schema := congrArg Repository.schema repository.symm
    unfold dropEach
    rw [schemas]
    refine submitted.andThen fun rows => ?_
    cases readApplied rows with
    | error e => exact .done _
    | ok took => exact ih _

/-- The programs of one call on two sessions request alike. -/
theorem perform_twin (call : Call α) :
    Twin (SameRequest r₁ r₂) (r₁.perform call) (r₂.perform call) := by
  have schemas : r₂.schema = r₁.schema := congrArg Repository.schema repository.symm
  cases call with
  | add key value =>
    refine Twin.map _ (Twin.andThen (Twin.reported _ _ ?_) fun _ => .done _)
    unfold insertResult
    rw [schemas, ← repository]
    cases r₁.repository.codec.marshal key value with
    | error e => exact .done _
    | ok payload => exact (submit_twin templates .insert _).andThen fun _ => .done _
  | get key =>
    refine Twin.map _ (Twin.reported _ _ ?_)
    unfold selectResult readResult
    rw [schemas, ← repository]
    exact (submit_twin templates .selectByKey _).andThen fun _ => .done _
  | confirm id =>
    refine Twin.map _ (Twin.reported _ _ ?_)
    exact (scanIdentities_twin repository templates).andThen fun _ =>
      dropEach_twin repository templates id _ _
  | remove key =>
    refine Twin.map _ (Twin.reported _ _ ?_)
    unfold deleteResult
    rw [schemas]
    exact (submit_twin templates .deleteByKey _).andThen fun _ => .done _
  | getKeys =>
    refine Twin.map _ (Twin.reported _ _ ?_)
    exact (scanIdentities_twin repository templates).andThen fun _ => .done _
  | scan => exact Twin.map _ (Twin.reported _ _ (scanIdentities_twin repository templates))

end Running

end GroupStore

import GroupStore.Proofs.Side
import GroupStore.Proofs.Sqlite.Start

/-!
# A memory session and a database session with the same contents

Both sessions are prepared for the same schemas and have the same contents at the same reading of
the clock.  Statements, starts and whole calls are answered alike and keep this.

* `Matched` — the relation;
* `Matched.execute`, `Matched.start`, `Matched.perform` — it is kept;
* `Beside` — one repository as it was started on both sessions.
-/

namespace GroupStore

variable {S α : Type}

/-! ### Sessions with the same contents -/

/-- A memory session and a database session at one clock reading, both prepared for the same
schemas and with the same contents. -/
structure Matched (served : Schema → Prop) (a : Memory.Moment) (b : Sqlite.Moment) : Prop where
  clock : a.now = b.now
  sound : a.store.Sound
  holds : ∀ s, served s → a.store.Holds s.layout ∧ b.connection.Holds s.layout
  known : ∀ l, b.connection.Holds l → ∃ s, served s ∧ s.layout = l
  contents : ∃ entries, b.Sound entries ∧ entries.contents b.now = a.store.contents a.now

/-- The same statement of a served schema with the same values, as each session has prepared it. -/
def Asked (served : Schema → Prop) (b₁ b₂ : Bound) : Prop :=
  ∃ s kind, served s ∧ b₁.template = s.template kind ∧ b₂.template = s.template kind ∧
    b₂.statement.native = (s.sql kind).text ∧ b₁.values = b₂.values

namespace Matched

variable {served : Schema → Prop} {a : Memory.Moment} {b : Sqlite.Moment}

/-- Sessions that were never used match. -/
theorem initial (now : Nat) :
    Matched (fun _ => False) ⟨.empty, now⟩ ⟨.fresh, .empty, now⟩ where
  clock := rfl
  sound := Memory.Store.sound_empty
  holds := fun _ never => never.elim
  known := fun _ held => by cases held
  contents := ⟨fun _ => [], Sqlite.sound_initial now, rfl⟩

theorem later (matched : Matched served a b) (delay : Nat) :
    Matched served { a with now := a.now + delay } { b with now := b.now + delay } := by
  obtain ⟨entries, sound, contents⟩ := matched.contents
  refine ⟨by rw [matched.clock], matched.sound, matched.holds, matched.known, entries,
    sound.later delay, ?_⟩
  funext table key
  rw [entries.contents_later (Nat.le_add_right b.now delay), contents,
    Memory.Store.contents_later a.store (Nat.le_add_right a.now delay), matched.clock]

/-- A statement that both are prepared for is answered alike and keeps the match. -/
theorem execute (matched : Matched served a b) (inTime : ∀ s, served s → Sqlite.InTime s a.now)
    {b₁ b₂ : Bound} (asked : Asked served b₁ b₂) :
    ∃ x y st db, a.store.execute b₁ a.now = (.ok x, st) ∧
      Sqlite.execute b₂ b.now b.connection b.database = (.ok y, db) ∧ x.rows.Perm y.rows ∧
      Matched served { a with store := st } { b with database := db } := by
  obtain ⟨s, kind, prepared, template₁, template₂, native, values⟩ := asked
  obtain ⟨held₁, held₂⟩ := matched.holds s prepared
  obtain ⟨entries, sound, contents⟩ := matched.contents
  have inTime := inTime s prepared
  obtain ⟨x, st, run₁, sound₁, layouts, means₁⟩ :=
    Memory.Store.execute_means matched.sound held₁ template₁ a.now
  rw [matched.clock] at inTime
  obtain ⟨y, db, entries', run₂, sound₂, means₂⟩ :=
    sound.execute held₂ template₂ native inTime
  rw [contents, ← values, ← matched.clock] at means₂
  obtain ⟨rows, left⟩ := Schema.Means.unique means₁ means₂
  refine ⟨x, y, st, db, run₁, run₂, rows, matched.clock, sound₁, fun s' served' => ?_,
    matched.known, entries', sound₂, ?_⟩
  · exact ⟨(layouts _).mpr (matched.holds s' served').1, (matched.holds s' served').2⟩
  · rw [← matched.clock]
    exact left.symm

end Matched

/-! ### One repository on both sessions -/

/-- One repository started on a memory session and on a database session. -/
structure Beside (r₁ r₂ : Running S α) : Prop where
  repository : r₁.repository = r₂.repository
  inMemory : r₁.Faithful
  inDatabase : r₂.Faithful
  native : ∀ kind, (r₂.statements.of kind).native = (r₂.schema.sql kind).text

namespace Beside

variable {r₁ r₂ : Running S α} (beside : Beside r₁ r₂)

include beside

theorem schema : r₂.schema = r₁.schema := congrArg Repository.schema beside.repository.symm

theorem templates (kind : StatementKind) :
    (r₁.statements.of kind).template = (r₂.statements.of kind).template := by
  rw [beside.inMemory kind, beside.inDatabase kind, beside.schema]

/-- Equal requests are asked of sessions that both serve the schema. -/
theorem asked {served : Schema → Prop} (prepared : served r₁.schema) {b₁ b₂ : Bound}
    (sameRequest : Running.SameRequest r₁ r₂ b₁ b₂) : Asked served b₁ b₂ := by
  obtain ⟨kind, statement₁, statement₂, values⟩ := sameRequest
  refine ⟨r₁.schema, kind, prepared, ?_, ?_, ?_, values⟩
  · rw [Bound.template, statement₁, beside.inMemory kind]
  · rw [Bound.template, statement₂, beside.inDatabase kind, beside.schema]
  · rw [statement₂, beside.native kind, beside.schema]

/-- A call on both sides asks for the same. -/
theorem perform {served : Schema → Prop} (prepared : served r₁.schema) (call : Call α) :
    Program.Twin (Asked served) (r₁.perform call) (r₂.perform call) :=
  (Running.perform_twin beside.repository beside.templates call).mono fun _ _ sameRequest =>
    beside.asked prepared sameRequest

end Beside

namespace Matched

variable {served : Schema → Prop} {a a' : Memory.Moment} {b b' : Sqlite.Moment} {self₁ self₂ : S}

/-- Starts that succeed on both keep the match and add the schema. -/
theorem start (matched : Matched served a b) {repository : Repository S α}
    (apart : ∀ s, served s → Sqlite.Apart s.settings.table repository.schema.settings.table)
    {r₁ r₂ : Running S α} (run₁ : repository.start.run (Memory.host self₁) a = (.ok r₁, a'))
    (run₂ : repository.start.run (Sqlite.host self₂) b = (.ok r₂, b')) :
    r₁.schema = repository.schema ∧ Beside r₁ r₂ ∧ a'.now = a.now ∧
      Matched (fun s => served s ∨ s = repository.schema) a' b' := by
  obtain ⟨entries, sound, contents⟩ := matched.contents
  obtain ⟨own₁, faithful₁, clock₁, gains₁⟩ := Memory.start_leaves matched.sound run₁
  have apartNow : ∀ l, b.connection.Holds l →
      Sqlite.Apart l.table repository.schema.settings.table := by
    intro l held
    obtain ⟨s, served', rfl⟩ := matched.known l held
    exact apart s served'
  obtain ⟨own₂, faithful₂, native, gains₂⟩ := Sqlite.start_leaves sound apartNow run₂
  refine ⟨congrArg Repository.schema own₁, ⟨own₁.trans own₂.symm, faithful₁, faithful₂, ?_⟩,
    clock₁, ?_, gains₁.sound, ?_, ?_, entries, gains₂.sound, ?_⟩
  · intro kind
    rw [native, Running.schema, own₂]
  · rw [clock₁, gains₂.clock, matched.clock]
  · rintro s (old | rfl)
    · obtain ⟨held₁, held₂⟩ := matched.holds s old
      exact ⟨(gains₁.holds _).mpr (.inl held₁), (gains₂.holds _).mpr (.inl held₂)⟩
    · exact ⟨(gains₁.holds _).mpr (.inr rfl), (gains₂.holds _).mpr (.inr rfl)⟩
  · intro l held
    rcases (gains₂.holds l).mp held with old | rfl
    · obtain ⟨s, served', layout⟩ := matched.known l old
      exact ⟨s, .inl served', layout⟩
    · exact ⟨repository.schema, .inr rfl, rfl⟩
  · rw [gains₂.clock, contents, gains₁.contents, clock₁]

/-- A call in one go has the same reply on both and keeps the match. -/
theorem perform (matched : Matched served a b) (self₁ self₂ : S) {r₁ r₂ : Running S α}
    (beside : Beside r₁ r₂)
    (prepared : served r₁.schema) (inTime : Sqlite.InTime r₁.schema a.now) (call : Call α) :
    ∃ reply₁ reply₂ a' b', (r₁.perform call).run (Memory.host self₁) a = (reply₁, a') ∧
      (r₂.perform call).run (Sqlite.host self₂) b = (reply₂, b') ∧
      Running.SameReply reply₁ reply₂ ∧ Matched served a' b' ∧ a'.now = a.now := by
  obtain ⟨held₁, held₂⟩ := matched.holds _ prepared
  obtain ⟨entries, sound, contents⟩ := matched.contents
  have keeps₁ := Memory.host_keeps self₁ (s := r₁.schema) held₁ a.now
  have keeps₂ := Sqlite.host_keeps self₂ (s := r₁.schema) held₂ inTime
  rw [← beside.schema] at keeps₂
  obtain ⟨reply₁, a', c₁, run₁, after₁, means₁⟩ :=
    Running.perform_means beside.inMemory (fun _ => trivial) keeps₁ call (w := a)
      ⟨rfl, matched.sound, fun _ => Iff.rfl, rfl⟩
  obtain ⟨reply₂, b', c₂, run₂, after₂, means₂⟩ :=
    Running.perform_means beside.inDatabase beside.native keeps₂ call (w := b)
      ⟨matched.clock.symm, rfl, entries, sound, rfl⟩
  rw [matched.clock, contents, ← matched.clock] at means₂
  obtain ⟨sameReply, left⟩ := Running.CallMeans.unique beside.repository means₁ means₂
  obtain ⟨entries', sound', contents'⟩ := after₂.holds
  refine ⟨reply₁, reply₂, a', b', run₁, run₂, sameReply, ⟨?_, after₁.sound, fun s served' => ?_, ?_,
    entries', sound', ?_⟩, after₁.clock⟩
  · rw [after₁.clock, after₂.clock]
  · rw [after₂.connection]
    exact ⟨(after₁.layouts _).mpr (matched.holds s served').1, (matched.holds s served').2⟩
  · rw [after₂.connection]
    exact matched.known
  · rw [after₂.clock, contents', after₁.clock, after₁.contents, left]

end Matched

end GroupStore

import GroupStore.Proofs.Memory.Store
import GroupStore.Proofs.Replies
import GroupStore.Proofs.Start

/-!
# One memory session as a host

A memory session at a clock reading answers the requests of programs.  There is one session only:
every handle leads to it, and connecting yields a handle of one's choice.

* `Memory.host` — the host; its clock stands still;
* `Memory.host_keeps` — it keeps contents for every schema whose layout is registered;
* `Memory.start_iff` — a repository starts iff no other layout is registered for its table;
* `Memory.start_leaves` — what a successful start leaves.
-/

namespace GroupStore.Memory

/-- A memory session and the reading of its clock. -/
structure Moment where
  store : Store
  now : Nat

variable {S : Type}

/-- The answers of a memory session while its clock stands still; a world answers so for each of
its memory sessions, by `World.run_on_memory`. -/
def host (self : S) : Host Moment S where
  connect w := (.ok self, w)
  prepare _ t w := ((w.store.prepare t).1, { w with store := (w.store.prepare t).2 })
  execute _ b w := ((w.store.execute b w.now).1, { w with store := (w.store.execute b w.now).2 })
  close _ w := (w.store.close.1, { w with store := w.store.close.2 })
  record _ w := w

/-- A sound store with the layouts of another, at a certain reading, and its contents. -/
structure Follows (st : Store) (now : Nat) (w : Moment) (c : Contents) : Prop where
  clock : w.now = now
  sound : w.store.Sound
  layouts : st.SameLayouts w.store
  contents : w.store.contents now = c

theorem host_keeps (self : S) {st : Store} {s : Schema} (held : st.Holds s.layout) (now : Nat) :
    (host self).Keeps s (fun _ _ => True) True now (Follows st now) where
  execute := by
    rintro - b kind ⟨store, reading⟩ c ⟨nowEq, sound, layouts, contents⟩ hb -
    obtain rfl : reading = now := nowEq
    obtain rfl : store.contents reading = c := contents
    obtain ⟨answer, st', run, sound', layouts', means⟩ :=
      Store.execute_means sound ((layouts _).mpr held) hb reading
    refine ⟨answer, ⟨st', reading⟩, _, ?_, ⟨rfl, sound', ?_, rfl⟩, means⟩
    · simp only [host, run]
    · exact fun l => (layouts' l).trans (layouts l)
  record := fun _ _ _ good => good

/-! ### Preparing the statements of a schema -/

section Prepare

variable {st st' : Store} {s : Schema}

theorem unknownColumn?_template (s : Schema) (kind : StatementKind) :
    unknownColumn? (s.template kind) = none := by
  have known : ∀ name ∈ s.columns, (s.layout.column? name).isNone = false := by
    intro name member
    rw [← s.layout_columns_names] at member
    obtain ⟨spec, found, rfl⟩ := List.mem_map.mp member
    rw [s.column?_of_mem found]
    rfl
  unfold unknownColumn?
  rw [List.find?_eq_none, s.template_layout]
  intro name member
  have inside : name ∈ s.columns := by
    cases kind <;> simp only [Schema.template, Option.toList_none, Option.toList_some,
      List.append_nil, List.nil_append, List.mem_append] at member
    · exact member
    · rcases member with all | key
      · exact all
      · exact List.mem_append_left _ key
    · exact List.mem_append_left _ member
    · rcases member with own | fixed
      · simp only [List.mem_cons, List.not_mem_nil, or_false] at own
        rcases own with rfl | rfl <;> simp [Schema.columns, Schema.primaryKey]
      · exact List.mem_append_left _ (List.mem_append_left _ fixed)
    · rcases member with key | own
      · exact List.mem_append_left _ key
      · rw [List.mem_singleton.mp own]
        simp [Schema.columns]
  simp [known name inside]

/-- No statement of a schema is refused for its own sake. -/
theorem refusal?_template (s : Schema) (kind : StatementKind) :
    refusal? (s.template kind) = none := by
  have names := s.layout_keyNames
  have key : s.layout.primaryKey.length = s.primaryKey.length := by
    rw [← names, Layout.keyNames, List.length_map]
  have all : s.layout.columns.length = s.columns.length := by
    rw [← s.layout_columns_names, List.length_map]
  have whole : s.primaryKey.isPrefixOf s.primaryKey = true :=
    List.isPrefixOf_iff_prefix.mpr (List.prefix_refl _)
  have fixed : s.prefixColumns.isPrefixOf s.primaryKey = true :=
    List.isPrefixOf_iff_prefix.mpr (List.prefix_append _ _)
  have condition : conditionIsRegular (s.template .conditionalDelete) = true := by
    simp [conditionIsRegular, Schema.template, Schema.layout]
  unfold refusal?
  rw [unknownColumn?_template, s.template_layout, names]
  cases kind with
  | insert => simp [Schema.template, kindRefusal?, all]
  | selectByKey => simp [Schema.template, kindRefusal?, whole, key]
  | deleteByKey => simp [Schema.template, kindRefusal?, whole, key]
  | selectKeyAndId => simp [Schema.template, kindRefusal?, fixed]
  | conditionalDelete =>
    have filter : (s.template .conditionalDelete).filter = s.primaryKey := rfl
    have demand : kindRefusal? (s.template .conditionalDelete) = none := by
      rw [kindRefusal?, condition]
      simp [s.template_layout, filter, key, s.template_kind]
    rw [filter, whole, demand]
    rfl

/-- No other layout is registered for a table. -/
def Store.Admits (st : Store) (l : Layout) : Prop := ∀ t, st.table? l.table = some t → t.layout = l

/-- What registering a layout leaves: the layout is held besides the others, and the rows are the
same. -/
structure Store.Gains (st st' : Store) (l : Layout) : Prop where
  sound : st'.Sound
  holds : ∀ l', st'.Holds l' ↔ st.Holds l' ∨ l' = l
  entries : ∀ table key, st'.entry? table key = st.entry? table key
  contents : ∀ now, st'.contents now = st.contents now

theorem Store.Gains.refl (sound : st.Sound) {l : Layout} (held : st.Holds l) : st.Gains st l where
  sound := sound
  holds := fun _ => ⟨.inl, fun h => h.elim id fun layoutEq => layoutEq ▸ held⟩
  entries := fun _ _ => rfl
  contents := fun _ => rfl

theorem Store.Gains.held {l : Layout} (gains : st.Gains st' l) : st'.Holds l :=
  (gains.holds l).mpr (.inr rfl)

theorem Store.Gains.admits {l : Layout} (gains : st.Gains st' l) : st'.Admits l := by
  obtain ⟨t, found, layout⟩ := gains.held
  intro t' found'
  rw [found] at found'
  cases found'
  exact layout

/-- A table keeps its layout, so what can be gained was admitted. -/
theorem Store.Gains.admitted {l : Layout} (gains : st.Gains st' l) : st.Admits l := by
  intro t found
  have table : t.layout.table = l.table := Store.table?_layout found
  obtain ⟨t', found', layout⟩ := (gains.holds t.layout).mpr (.inl ⟨t, table ▸ found, rfl⟩)
  rw [table] at found'
  rw [← layout]
  exact gains.admits t' found'

theorem Store.register_ok (sound : st.Sound) (admits : st.Admits s.layout) :
    ∃ st', st.register s.layout = .ok st' ∧ st.Gains st' s.layout := by
  unfold Store.register
  cases known : st.table? s.layout.table with
  | some t =>
    have layout := admits t known
    simp only [if_pos layout]
    exact ⟨st, rfl, Store.Gains.refl sound ⟨t, known, layout⟩⟩
  | none =>
    let st' : Store := { st with tables := st.tables ++ [⟨s.layout, []⟩] }
    have after : ∀ name, st'.table? name = _ := st.table?_add s.layout
    refine ⟨st', rfl, ⟨sound.isOpen, fun name t found => ?_⟩, fun l => ?_, fun name key => ?_,
      fun now => ?_⟩
    · rw [after] at found
      cases old : st.table? name with
      | some t' =>
        rw [old] at found
        cases found
        exact sound.tables name _ old
      | none =>
        rw [old, Option.none_or] at found
        split at found
        · cases found
          exact ⟨s, rfl, List.Pairwise.nil, fun _ member => absurd member List.not_mem_nil⟩
        · cases found
    · unfold Store.Holds
      rw [after]
      cases old : st.table? l.table with
      | some t' =>
        have other : l ≠ s.layout := by
          rintro rfl
          rw [known] at old
          cases old
        simp [other]
      | none =>
        by_cases own : s.layout.table = l.table
        · simp [own, eq_comm]
        · have other : l ≠ s.layout := fun layoutEq => own (layoutEq ▸ rfl)
          simp [own, other]
    · rw [Store.entry?, Store.entry?, after]
      cases old : st.table? name with
      | some t' => rfl
      | none =>
        rw [Option.none_or]
        by_cases own : s.layout.table = name
        · rw [if_pos own]
          rfl
        · rw [if_neg own]
    · funext name key
      rw [Store.contents, Store.contents, after]
      cases old : st.table? name with
      | some t' => rfl
      | none =>
        rw [Option.none_or]
        by_cases own : s.layout.table = name
        · rw [if_pos own]
          rfl
        · rw [if_neg own]

theorem Store.prepare_ok (sound : st.Sound) (admits : st.Admits s.layout) (kind : StatementKind) :
    ∃ st', st.prepare (s.template kind) = (.ok ⟨s.template kind, (s.template kind).cql⟩, st') ∧
      st.Gains st' s.layout := by
  obtain ⟨st', registered, gains⟩ := Store.register_ok sound admits
  refine ⟨st', ?_, gains⟩
  rw [Store.prepare, if_neg (by simp [sound.isOpen]), refusal?_template, s.template_layout]
  simp only [registered]

theorem Store.prepare_error (sound : st.Sound) (clash : ¬st.Admits s.layout)
    (kind : StatementKind) :
    st.prepare (s.template kind) =
      (.error (Refusal.otherLayout s.layout.table).toSessionError, st) := by
  have refused : st.register s.layout = .error (.otherLayout s.layout.table) := by
    unfold Store.register
    cases known : st.table? s.layout.table with
    | none => exact absurd (fun t found => by rw [known] at found; cases found) clash
    | some t =>
      have other : t.layout ≠ s.layout := fun layoutEq => clash fun t' found => by
        rw [known] at found
        cases found
        exact layoutEq
      simp only [if_neg other]
  rw [Store.prepare, if_neg (by simp [sound.isOpen]), refusal?_template, s.template_layout]
  simp only [refused]

end Prepare

/-! ### Starting a repository -/

section Start

variable {α : Type} {self : S} {st : Store} {r : Repository S α} {now : Nat}

/-- A successful start leaves its layout registered, and the contents as they were. -/
theorem start_leaves (sound : st.Sound) {running : Running S α} {w : Moment}
    (run : r.start.run (host self) ⟨st, now⟩ = (.ok running, w)) :
    running.repository = r ∧ running.Faithful ∧ w.now = now ∧
      st.Gains w.store r.schema.layout := by
  suffices inverted : running.repository = r ∧
      (∀ kind, (running.statements.of kind).template = r.schema.template kind) ∧ w.now = now ∧
        st.Gains w.store r.schema.layout by
    obtain ⟨rfl, faithful, after⟩ := inverted
    exact ⟨rfl, faithful, after⟩
  -- A preparation that succeeds on what earlier ones left adds nothing new after the first.
  refine Repository.start_inv (fun kind p => p.template = r.schema.template kind)
    (fun w => w.now = now ∧ (w.store = st ∨ st.Gains w.store r.schema.layout))
    (fun w => w.now = now ∧ st.Gains w.store r.schema.layout)
    (fun w session w' good obtained => ?_) (fun _ kind w p w' good prepared => ?_)
    (fun w good => ⟨good.1, .inr good.2⟩) (fun _ _ good => good) ⟨rfl, .inl rfl⟩ run
  · obtain ⟨handle, obtains⟩ := Repository.obtain_run (r := r) (h := host self) (fun _ => rfl) w
    rw [obtains] at obtained
    cases obtained
    exact good
  · obtain ⟨nowEq, before⟩ := good
    have soundNow : w.store.Sound := by
      rcases before with rfl | gains
      · exact sound
      · exact gains.sound
    have steps := Prod.mk.inj prepared
    by_cases admits : w.store.Admits r.schema.layout
    · obtain ⟨store', answered, gains⟩ := Store.prepare_ok soundNow admits kind
      rw [answered] at steps
      obtain ⟨answer, rfl⟩ := steps
      cases answer
      refine ⟨rfl, nowEq, ?_⟩
      rcases before with rfl | earlier
      · exact gains
      · refine ⟨gains.sound, fun l => ?_,
          fun table key => (gains.entries table key).trans (earlier.entries table key),
          fun t => (gains.contents t).trans (earlier.contents t)⟩
        rw [gains.holds, earlier.holds, or_assoc, or_self]
    · rw [Store.prepare_error soundNow admits kind] at steps
      cases steps.1

/-- A repository starts iff no other layout is registered for its table. -/
theorem start_iff (self : S) (now : Nat) (sound : st.Sound) :
    (∃ running w, r.start.run (host self) ⟨st, now⟩ = (.ok running, w)) ↔
      st.Admits r.schema.layout := by
  constructor
  · rintro ⟨running, w, run⟩
    exact (start_leaves sound run).2.2.2.admitted
  · intro admits
    refine Repository.start_ok (fun w => w.store.Sound ∧ w.store.Admits r.schema.layout)
      (fun w good => ?_) (fun _ kind w good => ?_) ⟨sound, admits⟩
    · obtain ⟨handle, obtained⟩ := Repository.obtain_run (r := r) (h := host self) (fun _ => rfl) w
      exact ⟨handle, w, obtained, good⟩
    · obtain ⟨store', answered, gains⟩ := Store.prepare_ok good.1 good.2 kind
      exact ⟨_, ⟨store', w.now⟩, by simp only [host, answered]; rfl, gains.sound, gains.admits⟩

end Start

end GroupStore.Memory

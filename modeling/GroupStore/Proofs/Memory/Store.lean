import GroupStore.Proofs.Memory.Execution

/-!
# Executing the statements of a schema on a memory store

A statement touches no table but its own, so what it means for its table it means for the contents
of the whole store, and rows under other keys stay as they are, expired or not.

* `Memory.Store.Holds` — a table is registered under a layout; nothing ever takes that away;
* `Memory.Store.execute_means` — on an open store a statement of a schema succeeds and does what it
  means;
* `Memory.Store.entry?_of_execute` — what an execution leaves of a row.
-/

namespace GroupStore.Memory

open Std

/-! ### Statements on a store -/

section Stores

variable {st : Store} {s : Schema} {b : Bound} {kind : StatementKind}

/-- A table is registered under a layout. -/
def Store.Holds (st : Store) (l : Layout) : Prop :=
  ∃ t, st.table? l.table = some t ∧ t.layout = l

/-- Two states of a store with the same registered layouts. -/
def Store.SameLayouts (st st' : Store) : Prop := ∀ l, st'.Holds l ↔ st.Holds l

theorem Store.table?_layout {name : TableName} {t : Table} (h : st.table? name = some t) :
    t.layout.table = name := by
  simpa using List.find?_some h

/-- A table has one layout. -/
theorem Store.Holds.unique {l l' : Layout} (held : st.Holds l) (held' : st.Holds l')
    (tableEq : l.table = l'.table) : l = l' := by
  obtain ⟨t, found, rfl⟩ := held
  obtain ⟨t', found', rfl⟩ := held'
  rw [tableEq, found'] at found
  cases found
  rfl

theorem Store.table?_replace {name : TableName} {t : Table} (own : t.layout.table = name)
    (n : TableName) :
    (st.replace name t).table? n =
      (st.table? n).map fun old => if n = name then t else old := by
  unfold Store.replace Store.table?
  generalize st.tables = tables
  induction tables with
  | nil => rfl
  | cons old rest ih =>
    have tableEq :
        (if old.layout.table = name then t else old).layout.table = old.layout.table := by
      by_cases h : old.layout.table = name
      · rw [if_pos h, own, h]
      · rw [if_neg h]
    rw [List.map_cons]
    by_cases hit : old.layout.table = n
    · rw [List.find?_cons_of_pos (by simpa [tableEq] using hit),
        List.find?_cons_of_pos (by simpa using hit), Option.map_some, hit]
    · rw [List.find?_cons_of_neg (by simpa [tableEq] using hit),
        List.find?_cons_of_neg (by simpa using hit)]
      exact ih

/-- The tables when an empty one has been added. -/
theorem Store.table?_add (st : Store) (l : Layout) (name : TableName) :
    ({ st with tables := st.tables ++ [⟨l, []⟩] } : Store).table? name =
      (st.table? name).or (if l.table = name then some ⟨l, []⟩ else none) := by
  simp only [Store.table?, List.find?_append, List.find?_singleton, decide_eq_true_eq]

theorem Store.Sound.of_holds (sound : st.Sound) (held : st.Holds s.layout) :
    ∃ t, st.table? s.settings.table = some t ∧ t.SoundFor s := by
  obtain ⟨t, found, layout⟩ := held
  obtain ⟨s', soundFor⟩ := sound.tables _ t found
  exact ⟨t, found, soundFor.of_layout layout⟩

/-- A store in whose history a statement has been counted. -/
def Store.counted (st : Store) (b : Bound) : Store :=
  { st with history := (b.template.kind, b.template.consistency) :: st.history }

/-- An execution on an open store succeeds iff the one on its table does. -/
theorem Store.execute_eq_ok_iff {st' : Store} {now : Nat} {answer : ResultSet}
    (isOpen : st.closed = false) :
    st.execute b now = (.ok answer, st') ↔ ∃ t t', st.table? b.template.layout.table = some t ∧
      t.execute b now = .ok (answer, t') ∧
      st' = (st.counted b).replace b.template.layout.table t' := by
  have going : ¬st.closed = true := by simp [isOpen]
  have counted : (st.counted b).table? b.template.layout.table =
    st.table? b.template.layout.table := rfl
  unfold Store.counted at counted ⊢
  cases found : st.table? b.template.layout.table with
  | none =>
    rw [found] at counted
    simp only [Store.execute, if_neg going, counted]
    simp
  | some t =>
    rw [found] at counted
    rcases executed : t.execute b now with failure | ⟨result, t'⟩
    · simp only [Store.execute, if_neg going, counted, executed]
      simp [executed]
    · simp only [Store.execute, if_neg going, counted, executed, Prod.mk.injEq, Except.ok.injEq,
        Option.some.injEq]
      constructor
      · rintro ⟨rfl, rfl⟩
        exact ⟨t, t', rfl, executed, rfl⟩
      · rintro ⟨t₁, t₂, rfl, again, rfl⟩
        rw [executed] at again
        cases again
        exact ⟨rfl, rfl⟩

/-- A stored row is a version of some schema whose layout is registered. -/
theorem Store.Sound.exists_entry (sound : st.Sound) {table : TableName} {key : List Value}
    {row : Entry} (stored : st.entry? table key = some row) :
    ∃ (s : Schema) (v : Version), st.Holds s.layout ∧ s.settings.table = table ∧
      row = s.entry v := by
  obtain ⟨t, found, inside⟩ := Option.bind_eq_some_iff.mp stored
  obtain ⟨s, soundFor⟩ := sound.tables table t found
  obtain ⟨-, v, rowIs⟩ := soundFor.get? inside
  have own : s.layout.table = table := by rw [← Store.table?_layout found, soundFor.layout]
  have registered : st.table? s.layout.table = some t := by
    rw [own]
    exact found
  exact ⟨s, v, ⟨t, registered, soundFor.layout⟩, own, rowIs⟩

/-- The contents hold a version iff its row is stored and has not expired. -/
theorem Store.Sound.contents_eq_some_iff (sound : st.Sound) (held : st.Holds s.layout) {now : Nat}
    {key : List Value} {v : Version} :
    st.contents now s.settings.table key = some v ↔
      st.entry? s.settings.table key = some (s.entry v) ∧ v.liveAt now = true := by
  obtain ⟨t, found, soundFor⟩ := sound.of_holds held
  rw [Store.contents, Store.entry?, found, Option.bind_some, Option.bind_some]
  exact soundFor.version?_eq_some_iff

/-- A statement of a schema whose table is registered succeeds, does what it means and answers
scans in order; the store stays sound and no layout changes. -/
theorem Store.execute_means (sound : st.Sound) (held : st.Holds s.layout)
    (hb : b.template = s.template kind) (now : Nat) :
    ∃ answer st', st.execute b now = (.ok answer, st') ∧ st'.Sound ∧ st.SameLayouts st' ∧
      s.Means True now (st.contents now) kind b.values answer (st'.contents now) := by
  obtain ⟨t, found, soundFor⟩ := sound.of_holds held
  obtain ⟨answer, t', run, soundFor', means⟩ := soundFor.execute (c := st.contents now) hb
    (fun key => by rw [Store.contents, found]; rfl)
  have own : t'.layout.table = s.settings.table := by rw [soundFor'.layout]; rfl
  have name : b.template.layout.table = s.settings.table := by rw [hb, s.template_layout]; rfl
  have after (n : TableName) : ((st.counted b).replace s.settings.table t').table? n =
      (st.table? n).map fun old => if n = s.settings.table then t' else old :=
    Store.table?_replace own n
  refine ⟨answer, (st.counted b).replace s.settings.table t', ?_, ⟨sound.isOpen, ?_⟩, ?_, ?_⟩
  · rw [Store.execute_eq_ok_iff sound.isOpen, name]
    exact ⟨t, t', found, run, rfl⟩
  · intro n t'' tableIs
    rw [after] at tableIs
    obtain ⟨old, before, rfl⟩ := Option.map_eq_some_iff.mp tableIs
    by_cases hit : n = s.settings.table
    · rw [if_pos hit]
      exact ⟨s, soundFor'⟩
    · rw [if_neg hit]
      exact sound.tables n old before
  · intro l
    unfold Store.Holds
    rw [after]
    by_cases hit : l.table = s.settings.table
    · rw [hit, found]
      simp [soundFor'.layout, soundFor.layout]
    · simp [hit]
  · have whole : ((st.counted b).replace s.settings.table t').contents now =
        (st.contents now).withTable s.settings.table (t'.version? now) := by
      funext n key
      rw [Store.contents, after, Contents.withTable]
      by_cases hit : n = s.settings.table
      · rw [if_pos hit, hit, found]
        simp
      · rw [if_neg hit, Store.contents]
        simp [hit]
    rw [whole]
    exact means

/-- A statement that is no insert keeps some of the rows and stores none. -/
theorem Table.filter_of_execute {t t' : Table} {answer : ResultSet} {now : Nat}
    (reads : b.template.kind ≠ .insert) (run : t.execute b now = .ok (answer, t')) :
    ∃ p, t' = { t with rows := t.rows.filter p } := by
  have all : t = { t with rows := t.rows.filter fun _ => true } := by
    rw [List.filter_eq_self.mpr fun _ _ => rfl]
  unfold Table.execute at run
  cases kind : b.template.kind with
  | insert => exact absurd kind reads
  | selectByKey =>
    simp only [kind, Except.ok.injEq, Table.selectByKey] at run
    split at run
    · cases run
      exact ⟨_, all⟩
    · split at run
      · cases run
        exact ⟨_, rfl⟩
      · cases run
        exact ⟨_, all⟩
  | deleteByKey =>
    simp only [kind, Except.ok.injEq, Table.deleteByKey] at run
    cases run
    exact ⟨_, rfl⟩
  | selectKeyAndId =>
    simp only [kind, Except.ok.injEq, Table.selectKeyAndId] at run
    cases run
    exact ⟨_, rfl⟩
  | conditionalDelete =>
    simp only [kind, Table.conditionalDelete] at run
    split at run
    · cases run
    · rename_i column condition
      cases expected : boundValue b column with
      | error e => simp [expected, bind, Except.bind] at run
      | ok value =>
        simp only [expected, bind, Except.bind, pure, Except.pure] at run
        split at run
        · cases run
          exact ⟨_, all⟩
        · split at run
          · cases run
            exact ⟨_, rfl⟩
          · cases run
            exact ⟨_, all⟩

/-- A statement that is no insert leaves only rows that were there. -/
theorem Store.entry?_of_execute (sound : st.Sound) {st' : Store} {answer : ResultSet} {now : Nat}
    (reads : b.template.kind ≠ .insert) (run : st.execute b now = (.ok answer, st'))
    {table : TableName} {key : List Value} {row : Entry}
    (stored : st'.entry? table key = some row) : st.entry? table key = some row := by
  obtain ⟨t, t', found, executed, rfl⟩ := (Store.execute_eq_ok_iff sound.isOpen).mp run
  obtain ⟨p, rfl⟩ := Table.filter_of_execute reads executed
  let left : Table := { t with rows := t.rows.filter p }
  have own : left.layout.table = b.template.layout.table :=
    show t.layout.table = _ from Store.table?_layout found
  rw [Store.entry?, Store.table?_replace own] at stored
  obtain ⟨t', tableIs, inside⟩ := Option.bind_eq_some_iff.mp stored
  obtain ⟨old, before, rfl⟩ := Option.map_eq_some_iff.mp tableIs
  have known : st.table? table = some old := before
  rw [Store.entry?, known, Option.bind_some]
  by_cases hit : table = b.template.layout.table
  · obtain rfl : old = t := by
      rw [hit, found] at known
      exact (Option.some.inj known).symm
    rw [if_pos hit] at inside
    obtain ⟨s, soundFor⟩ := sound.tables table old known
    exact Sorted.get?_of_mem soundFor.ordered.nodup
      (List.mem_filter.mp (Sorted.mem_of_get? inside)).1
  · rw [if_neg hit] at inside
    exact inside

/-- What is stored after an insert: the row of the bound version under the bound key, and the other
rows as before. -/
theorem Store.entry?_of_insert (sound : st.Sound) (held : st.Holds s.layout)
    (hb : b.template = s.template .insert) {key : List Value} {exchangeId : String}
    {payload : ByteArray} (values : b.values = key ++ [.text exchangeId, .blob payload])
    (fits : s.FitsKey key) {st' : Store} {answer : ResultSet} {now : Nat}
    (run : st.execute b now = (.ok answer, st')) (table : TableName) (k : List Value) :
    st'.entry? table k =
      if table = s.settings.table ∧ k = key then
        some (s.entry ⟨exchangeId, payload, Version.expiry s.settings.ttlSeconds now⟩)
      else st.entry? table k := by
  obtain ⟨t, found, soundFor⟩ := sound.of_holds held
  obtain ⟨t', t'', found', executed, rfl⟩ := (Store.execute_eq_ok_iff sound.isOpen).mp run
  have name : b.template.layout.table = s.settings.table := by rw [hb, s.template_layout]; rfl
  rw [name, found] at found'
  obtain rfl := Option.some.inj found'
  rw [soundFor.insert_rows hb values fits] at executed
  cases executed
  let v : Version := ⟨exchangeId, payload, Version.expiry s.settings.ttlSeconds now⟩
  let written : Table := { t with rows := Sorted.put key (s.entry v) t.rows }
  have own : written.layout.table = s.settings.table :=
    show t.layout.table = _ from Store.table?_layout found
  rw [name, Store.entry?, Store.table?_replace own]
  show (((st.table? table).map _).bind _) = _
  by_cases hit : table = s.settings.table
  · rw [hit, found, Option.map_some, Option.bind_some, if_pos rfl, Store.entry?, found,
      Option.bind_some]
    show Sorted.get? k (Sorted.put _ _ _) = _
    rw [Sorted.get?_put]
    by_cases keyEq : k = key
    · rw [if_pos keyEq, if_pos ⟨rfl, keyEq⟩]
    · rw [if_neg keyEq, if_neg fun both => keyEq both.2]
  · rw [if_neg fun both => hit both.1, Store.entry?]
    simp only [if_neg hit, Option.map_id_fun', id_eq]

end Stores

end GroupStore.Memory

import GroupStore.Proofs.Memory.Store

/-!
# The rows of a memory store, whoever uses it

A memory session may be used by anyone: any template may be prepared on it, any bound statement may
be executed, also one over another layout than that of its table, and it may be closed.  Its clock
may show anything.  Whatever is demanded of it, a table keeps its layout, its keys ascend, and the
key of a row has a value for each column of the primary key.

* `Memory.Demand`, `Memory.Store.serveAll` — what may be demanded of a session;
* `Memory.Store.Shaped`, `Memory.Store.Onward` — what every demand keeps;
* `Memory.Store.live` — the rows that have not expired;
* `Memory.Store.Idle` — demands that write nothing; they leave the live rows as they are.
-/

namespace GroupStore.Memory

/-! ### Tables -/

/-- Keys ascend, and each has a value for every column of the primary key. -/
structure Table.Shaped (t : Table) : Prop where
  ordered : Sorted.Ascending t.rows
  keys : ∀ row ∈ t.rows, row.1.length = t.layout.primaryKey.length

/-- The row under a key, unless it has expired. -/
def Table.live (t : Table) (now : Nat) (key : List Value) : Option Entry :=
  (Sorted.get? key t.rows).filter fun row => !row.expiredAt now

section Tables

variable {t t' : Table} {b : Bound} {now later : Nat} {answer : ResultSet}

theorem boundValues_length {specs : List ColumnSpec} {values : List (Identifier × Value)}
    (bound : boundValues b specs = .ok values) : values.length = specs.length := by
  induction specs generalizing values with
  | nil =>
    cases bound
    rfl
  | cons spec rest ih =>
    simp only [boundValues, bind, Except.bind, pure, Except.pure] at bound
    cases first : boundValue b spec.name with
    | error e => simp [first] at bound
    | ok value =>
      cases others : boundValues b rest with
      | error e => simp [first, others] at bound
      | ok tail =>
        simp only [first, others, Except.ok.injEq] at bound
        rw [← bound, List.length_cons, List.length_cons, ih others]

/-- Whatever is executed on it, a table keeps its layout and its shape. -/
theorem Table.Shaped.execute (shaped : t.Shaped) (run : t.execute b now = .ok (answer, t')) :
    t'.layout = t.layout ∧ t'.Shaped := by
  by_cases inserts : b.template.kind = .insert
  · simp only [Table.execute, inserts, Table.insert, bind, Except.bind, pure, Except.pure] at run
    cases keys : boundValues b t.layout.primaryKey with
    | error e => simp [keys] at run
    | ok key =>
      cases regular : boundValues b t.layout.regular with
      | error e => simp [keys, regular] at run
      | ok values =>
        simp only [keys, regular, Except.ok.injEq, Prod.mk.injEq] at run
        obtain ⟨-, rfl⟩ := run
        refine ⟨rfl, shaped.ordered.put _ _, fun row member => ?_⟩
        rcases Sorted.mem_put member with new | old
        · rw [new]
          show (key.map Prod.snd).length = _
          rw [List.length_map, boundValues_length keys]
        · exact shaped.keys row old
  · obtain ⟨p, rfl⟩ := Table.filter_of_execute inserts run
    exact ⟨rfl, shaped.ordered.filter p,
      fun row member => shaped.keys row (List.mem_filter.mp member).1⟩

/-- Of kept rows those are live that were. -/
theorem Table.Shaped.live_filter (shaped : t.Shaped) (p : List Value × Entry → Bool) (now : Nat)
    (key : List Value) :
    Table.live { t with rows := t.rows.filter p } now key =
      (t.live now key).filter fun row => p (key, row) := by
  unfold Table.live
  rw [Sorted.get?_filter shaped.ordered.nodup, Option.filter_filter, Option.filter_filter]
  simp only [Bool.and_comm]

theorem Table.Shaped.live_drop (shaped : t.Shaped) (key k : List Value) (now : Nat) :
    Table.live { t with rows := Sorted.drop key t.rows } now k =
      if k = key then none else t.live now k := by
  refine (shaped.live_filter _ now k).trans ?_
  by_cases keyEq : k = key
  · simp [keyEq]
  · cases t.live now k <;> simp [keyEq]

/-- What has expired is not live later. -/
theorem Table.Shaped.live_purge (shaped : t.Shaped) (order : now ≤ later) (key : List Value) :
    Table.live { t with rows := t.rows.filter fun row => !row.2.expiredAt now } later key =
      t.live later key := by
  rw [shaped.live_filter, Table.live, Option.filter_filter]
  congr 1
  funext row
  cases gone : row.expiredAt later with
  | true => rfl
  | false => simp [Entry.expiredAt_mono order gone]

/-- A read leaves what is live from then on. -/
theorem Table.Shaped.live_selectByKey (shaped : t.Shaped) (order : now ≤ later)
    (key : List Value) : (t.selectByKey b now).2.live later key = t.live later key := by
  unfold Table.selectByKey
  cases found : Sorted.get? b.values t.rows with
  | none => rfl
  | some row =>
    cases gone : row.expiredAt now with
    | false => simp only [gone, Bool.false_eq_true, if_false]
    | true =>
      simp only [gone, if_true]
      rw [shaped.live_drop]
      split
      · rename_i keyIs
        have laterGone : row.expiredAt later = true := by
          cases still : row.expiredAt later with
          | true => rfl
          | false =>
            rw [Entry.expiredAt_mono order still] at gone
            cases gone
        rw [keyIs, Table.live, found, Option.filter_some, laterGone]
        rfl
      · rfl

/-- A conditional delete that does not take effect leaves its table. -/
theorem Table.conditionalDelete_untaken (run : t.conditionalDelete b now = .ok (answer, t'))
    (took : answer ≠ .flag true) : t' = t := by
  unfold Table.conditionalDelete at run
  split at run
  · cases run
  · rename_i column condition
    cases expected : boundValue b column with
    | error e => simp [expected, bind, Except.bind] at run
    | ok value =>
      simp only [expected, bind, Except.bind, pure, Except.pure] at run
      split at run
      · cases run
        rfl
      · split at run
        · cases run
          exact absurd rfl took
        · cases run
          rfl

/-- What only reads, or answers that it did not take effect, leaves what is live from then on. -/
theorem Table.Shaped.live_silent (shaped : t.Shaped) (run : t.execute b now = .ok (answer, t'))
    (quiet : b.template.kind.isRead = true ∨ answer = .flag false) (order : now ≤ later)
    (key : List Value) : t'.live later key = t.live later key := by
  unfold Table.execute at run
  cases kind : b.template.kind with
  | selectByKey =>
    simp only [kind, Except.ok.injEq] at run
    obtain rfl : (t.selectByKey b now).2 = t' := congrArg Prod.snd run
    exact shaped.live_selectByKey order key
  | selectKeyAndId =>
    simp only [kind, Except.ok.injEq] at run
    obtain rfl : (t.selectKeyAndId b now).2 = t' := congrArg Prod.snd run
    exact shaped.live_purge order key
  | conditionalDelete =>
    simp only [kind] at run quiet
    have untaken : answer = .flag false := quiet.resolve_left (by decide)
    rw [Table.conditionalDelete_untaken run (by rw [untaken]; decide)]
  | deleteByKey =>
    simp only [kind, Except.ok.injEq] at run quiet
    cases (congrArg Prod.fst run).trans (quiet.resolve_left (by decide))
  | insert =>
    simp only [kind, Table.insert, bind, Except.bind, pure, Except.pure] at run quiet
    split at run
    · cases run
    · split at run
      · cases run
      · cases (congrArg Prod.fst (Except.ok.inj run)).trans (quiet.resolve_left (by decide))

end Tables

/-! ### Stores -/

/-- Every table is shaped. -/
def Store.Shaped (st : Store) : Prop := ∀ name t, st.table? name = some t → t.Shaped

/-- The row under a key of a table, unless it has expired. -/
def Store.live (st : Store) (now : Nat) (table : TableName) (key : List Value) : Option Entry :=
  (st.table? table).bind fun t => t.live now key

/-- What every demand keeps: the shape, and which layouts are registered. -/
structure Store.Onward (st st' : Store) : Prop where
  shaped : st.Shaped → st'.Shaped
  holds : ∀ l, st.Holds l → st'.Holds l

theorem Store.Onward.refl (st : Store) : st.Onward st := ⟨id, fun _ => id⟩

theorem Store.Onward.trans {st st' st'' : Store} (first : st.Onward st')
    (later : st'.Onward st'') : st.Onward st'' where
  shaped := fun shaped => later.shaped (first.shaped shaped)
  holds := fun l held => later.holds l (first.holds l held)

theorem Store.shaped_empty : Store.empty.Shaped := fun _ _ found => by cases found

section Stores

variable {st st' : Store} {b : Bound} {now later : Nat}

/-- A store keeps its layouts and its rows when tables are compared one by one. -/
theorem Store.Onward.of_tables
    (tables : ∀ name t, st.table? name = some t → ∃ t', st'.table? name = some t' ∧
      t'.layout = t.layout)
    (shaped : st.Shaped → st'.Shaped) : st.Onward st' where
  shaped := shaped
  holds := fun l ⟨t, found, layout⟩ => by
    obtain ⟨t', found', layoutEq⟩ := tables l.table t found
    exact ⟨t', found', layoutEq.trans layout⟩

/-- A row that is live later is live before. -/
theorem Store.live_earlier {table : TableName} {key : List Value} {row : Entry}
    (order : now ≤ later) (live : st.live later table key = some row) :
    st.live now table key = some row := by
  obtain ⟨t, found, inside⟩ := Option.bind_eq_some_iff.mp live
  obtain ⟨stored, fresh⟩ := Option.filter_eq_some_iff.mp inside
  refine Option.bind_eq_some_iff.mpr ⟨t, found, Option.filter_eq_some_iff.mpr ⟨stored, ?_⟩⟩
  rw [Bool.not_eq_true'] at fresh ⊢
  exact Entry.expiredAt_mono order fresh

/-! ### Executions -/

/-- An execution fails and changes no table, or it replaces its table by what is left of it. -/
theorem Store.execute_cases (st : Store) (b : Bound) (now : Nat) :
    (∃ e st', st.execute b now = (.error e, st') ∧ st'.tables = st.tables ∧
      st'.closed = st.closed) ∨
    ∃ t t' answer, st.closed = false ∧ st.table? b.template.layout.table = some t ∧
      t.execute b now = .ok (answer, t') ∧
      st.execute b now = (.ok answer, (st.counted b).replace b.template.layout.table t') := by
  have counted : (st.counted b).table? b.template.layout.table =
    st.table? b.template.layout.table := rfl
  cases closed : st.closed with
  | true => exact .inl ⟨.closed, st, if_pos closed, rfl, closed⟩
  | false =>
    have going : ¬st.closed = true := by simp [closed]
    unfold Store.counted at counted ⊢
    cases found : st.table? b.template.layout.table with
    | none =>
      rw [found] at counted
      refine .inl ⟨(Failure.unknownTable b.template.layout.table).toSessionError, st.counted b,
        ?_, rfl, closed⟩
      simp only [Store.execute, if_neg going, counted]
      rfl
    | some t =>
      rw [found] at counted
      rcases executed : t.execute b now with failure | ⟨answer, t'⟩
      · refine .inl ⟨failure.toSessionError, st.counted b, ?_, rfl, closed⟩
        simp only [Store.execute, if_neg going, counted, executed]
        rfl
      · refine .inr ⟨t, t', answer, rfl, rfl, executed, ?_⟩
        simp only [Store.execute, if_neg going, counted, executed]

theorem Store.closed_execute (st : Store) (b : Bound) (now : Nat) :
    (st.execute b now).2.closed = st.closed := by
  rcases st.execute_cases b now with ⟨e, st', run, -, closed⟩ | ⟨t, t', answer, -, -, -, run⟩
  · rw [run, closed]
  · rw [run]
    rfl

/-- The tables after an execution that succeeds. -/
theorem Store.table?_executed {t t' : Table} (own : t'.layout = t.layout)
    (found : st.table? b.template.layout.table = some t) (n : TableName) :
    ((st.counted b).replace b.template.layout.table t').table? n =
      (st.table? n).map fun old => if n = b.template.layout.table then t' else old :=
  Store.table?_replace (by rw [own, Store.table?_layout found]) n

theorem Store.live_executed {t t' : Table} (own : t'.layout = t.layout)
    (found : st.table? b.template.layout.table = some t) (table : TableName)
    (key : List Value) :
    ((st.counted b).replace b.template.layout.table t').live now table key =
      if table = b.template.layout.table then t'.live now key else st.live now table key := by
  rw [Store.live, Store.table?_executed own found]
  by_cases hit : table = b.template.layout.table
  · rw [if_pos hit, hit, found]
    simp
  · simp only [if_neg hit, Option.map_id_fun', id_eq]
    rfl

theorem Store.onward_of_tables (tablesEq : st'.tables = st.tables) : st.Onward st' := by
  have lookup (name : TableName) : st'.table? name = st.table? name := by
    unfold Store.table?
    rw [tablesEq]
  exact .of_tables (fun name t found => ⟨t, (lookup name).trans found, rfl⟩)
    fun shaped name t found => shaped name t ((lookup name).symm.trans found)

theorem Store.onward_execute (shaped : st.Shaped) (b : Bound) (now : Nat) :
    st.Onward (st.execute b now).2 := by
  rcases st.execute_cases b now with
    ⟨e, st', run, tables, -⟩ | ⟨t, t', answer, -, found, executed, run⟩
  · rw [run]
    exact Store.onward_of_tables tables
  · obtain ⟨own, shaped'⟩ := (shaped _ t found).execute executed
    have after := Store.table?_executed own found
    rw [run]
    refine .of_tables (fun name old known => ?_) fun _ name old known => ?_
    · refine ⟨_, (after name).trans (congrArg _ known), ?_⟩
      show (if name = _ then t' else old).layout = old.layout
      by_cases hit : name = b.template.layout.table
      · rw [hit, found] at known
        rw [if_pos hit, own, Option.some.inj known]
      · rw [if_neg hit]
    · rw [after] at known
      obtain ⟨before, tableIs, rfl⟩ := Option.map_eq_some_iff.mp known
      split
      · exact shaped'
      · exact shaped name before tableIs

/-! ### Preparations -/

/-- Registering a layout leaves the rows as they are, and the layout is registered. -/
theorem Store.register_leaves {l : Layout} (registered : st.register l = .ok st') :
    st.Onward st' ∧ st'.closed = st.closed ∧ (∀ t, st'.live t = st.live t) ∧ st'.Holds l := by
  unfold Store.register at registered
  cases known : st.table? l.table with
  | some t =>
    simp only [known] at registered
    split at registered
    · cases registered
      exact ⟨.refl st, rfl, fun _ => rfl, t, known, ‹_›⟩
    · cases registered
  | none =>
    simp only [known, Except.ok.injEq] at registered
    have after := st.table?_add l
    rw [registered] at after
    refine ⟨.of_tables (fun name old found => ?_) fun shaped name old found => ?_, ?_,
      fun t => ?_, ⟨l, []⟩, ?_, rfl⟩
    · exact ⟨old, by rw [after, found]; rfl, rfl⟩
    · rw [after, Option.or_eq_some_iff] at found
      rcases found with before | ⟨-, added⟩
      · exact shaped name old before
      · split at added
        · cases added
          exact ⟨.nil, fun row member => absurd member List.not_mem_nil⟩
        · cases added
    · rw [← registered]
    · funext table key
      rw [Store.live, Store.live, after]
      cases st.table? table with
      | some old => rfl
      | none =>
        rw [Option.none_or]
        split <;> rfl
    · rw [after, known, Option.none_or, if_pos rfl]

/-- A preparation changes nothing, or it registers its layout. -/
theorem Store.prepare_cases (st : Store) (t : Template) :
    (∃ e, st.prepare t = (.error e, st)) ∨
      ∃ st', st.register t.layout = .ok st' ∧ st.prepare t = (.ok ⟨t, t.cql⟩, st') := by
  unfold Store.prepare
  split
  · exact .inl ⟨_, rfl⟩
  · split
    · exact .inl ⟨_, rfl⟩
    · cases registered : st.register t.layout with
      | error refusal => exact .inl ⟨_, rfl⟩
      | ok st' => exact .inr ⟨st', rfl, rfl⟩

/-- A preparation leaves the rows as they are. -/
theorem Store.prepare_leaves (st : Store) (t : Template) :
    st.Onward (st.prepare t).2 ∧ (st.prepare t).2.closed = st.closed ∧
      ∀ now, (st.prepare t).2.live now = st.live now := by
  rcases st.prepare_cases t with ⟨e, run⟩ | ⟨st', registered, run⟩
  · rw [run]
    exact ⟨.refl st, rfl, fun _ => rfl⟩
  · obtain ⟨onward, closed, live, -⟩ := Store.register_leaves registered
    rw [run]
    exact ⟨onward, closed, live⟩

/-- A preparation that succeeds leaves its layout registered. -/
theorem Store.holds_prepare {t : Template} {p : Prepared} (run : st.prepare t = (.ok p, st')) :
    p.template = t ∧ st'.Holds t.layout := by
  rcases st.prepare_cases t with ⟨e, failed⟩ | ⟨st₁, registered, prepared⟩
  · rw [failed] at run
    cases run
  · rw [prepared] at run
    cases run
    exact ⟨rfl, (Store.register_leaves registered).2.2.2⟩

end Stores

/-! ### Demands -/

/-- What may be demanded of a memory session. -/
inductive Demand where
  | prepare (t : Template)
  | execute (b : Bound) (now : Nat)
  | close

/-- What a demand leaves, whether it succeeds or not. -/
def Store.serve (st : Store) : Demand → Store
  | .prepare t => (st.prepare t).2
  | .execute b now => (st.execute b now).2
  | .close => st.close.2

/-- What demands leave, one after the other. -/
def Store.serveAll (st : Store) (demands : List Demand) : Store := demands.foldl Store.serve st

section Demands

variable {st : Store} {now later : Nat}

theorem Store.onward_serve (shaped : st.Shaped) (d : Demand) : st.Onward (st.serve d) := by
  cases d with
  | prepare t => exact (st.prepare_leaves t).1
  | execute b now => exact Store.onward_execute shaped b now
  | close => exact Store.onward_of_tables rfl

theorem Store.onward_serveAll (shaped : st.Shaped) (demands : List Demand) :
    st.Onward (st.serveAll demands) := by
  induction demands generalizing st with
  | nil => exact .refl st
  | cons d rest ih =>
    have first := Store.onward_serve shaped d
    exact first.trans (ih (first.shaped shaped))

/-- An execution writes if it succeeds, does not only read, and does not answer that it did not
take effect. -/
def Store.Writes (st : Store) (b : Bound) (now : Nat) : Prop :=
  ∃ answer, (st.execute b now).1 = .ok answer ∧ b.template.kind.isRead = false ∧
    answer ≠ .flag false

/-- Demands between two readings of the clock that neither write nor close the session. -/
def Store.Idle (st : Store) (now : Nat) : List Demand → Nat → Prop
  | [], later => now ≤ later
  | .prepare t :: rest, later => (st.prepare t).2.Idle now rest later
  | .execute b reading :: rest, later =>
    now ≤ reading ∧ ¬st.Writes b reading ∧ (st.execute b reading).2.Idle reading rest later
  | .close :: _, _ => False

/-- An execution that does not write leaves what is live from then on. -/
theorem Store.live_execute (shaped : st.Shaped) {b : Bound} (silent : ¬st.Writes b now)
    (order : now ≤ later) : (st.execute b now).2.live later = st.live later := by
  rcases st.execute_cases b now with
    ⟨e, st', run, tables, -⟩ | ⟨t, t', answer, -, found, executed, run⟩
  · rw [run]
    unfold Store.live Store.table?
    rw [tables]
  · have quiet : b.template.kind.isRead = true ∨ answer = .flag false := by
      by_cases reads : b.template.kind.isRead = true
      · exact .inl reads
      · refine .inr (Decidable.byContradiction fun other => silent ⟨answer, ?_, ?_, other⟩)
        · rw [run]
        · simpa using reads
    have liveEq := (shaped _ t found).live_silent executed quiet order
    rw [run]
    funext table key
    rw [Store.live_executed ((shaped _ t found).execute executed).1 found]
    by_cases hit : table = b.template.layout.table
    · rw [if_pos hit, liveEq, hit, Store.live, found]
      rfl
    · rw [if_neg hit]

/-- Idle demands leave what is live after them, and the session as open as it was. -/
theorem Store.Idle.leaves (shaped : st.Shaped) {demands : List Demand}
    {ends : Nat} (idle : st.Idle now demands ends) :
    now ≤ ends ∧ (st.serveAll demands).closed = st.closed ∧
      ∀ t, ends ≤ t → (st.serveAll demands).live t = st.live t := by
  induction demands generalizing st now with
  | nil => exact ⟨idle, rfl, fun _ _ => rfl⟩
  | cons d rest ih =>
    cases d with
    | prepare t =>
      obtain ⟨onward, closed, live⟩ := st.prepare_leaves t
      obtain ⟨order, closed', live'⟩ := ih (onward.shaped shaped) idle
      exact ⟨order, closed'.trans closed, fun t later => (live' t later).trans (live t)⟩
    | execute b reading =>
      obtain ⟨order, silent, idle⟩ := idle
      obtain ⟨order', closed, live⟩ :=
        ih ((Store.onward_execute shaped b reading).shaped shaped) idle
      exact ⟨Nat.le_trans order order', closed.trans (st.closed_execute b reading),
        fun t later => (live t later).trans
          (Store.live_execute shaped silent (Nat.le_trans order' later))⟩
    | close => exact idle.elim

end Demands

end GroupStore.Memory

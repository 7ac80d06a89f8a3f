import GroupStore.Proofs.Bindings
import GroupStore.Proofs.Memory.Rows
import GroupStore.Proofs.ReadBack

/-!
# What a memory session accepts and what it executes

A session accepts a template whose columns are known, whose filter is a front part of the key and
which satisfies the demands of its kind.  It counts the columns that an insert writes and does not
ask whether they are all the columns, and it asks for the condition of a conditional delete and
does not ask whether other statements have one.  The value of a condition is then taken for a part
of the key.

* `Meets` — whether a row holds what is bound to the filter;
* `Table.AsWritten` — what the execution of a statement should do to its table;
* `WellPosed` — an insert names every column, and only a conditional delete has a condition;
* `Table.Shaped.execute_asWritten` — then it is done;
* `Contrasting` — a row that an ill-posed statement misses;
* `Store.runsAsWritten_iff_wellPosed` — what is accepted is executed as it is written only if it is
  well posed.
-/

namespace GroupStore.Memory

open Std

/-! ### What statements say -/

/-- Whether the filter columns of a stored row hold the values that are bound to them. -/
def Meets (l : Layout) (b : Bound) (row : List Value × Entry) : Prop :=
  ∀ p ∈ b.template.filter.zip b.values, cell? l row.1 row.2 p.1 = some p.2

instance (l : Layout) (b : Bound) (row : List Value × Entry) : Decidable (Meets l b row) :=
  inferInstanceAs (Decidable (∀ p ∈ b.template.filter.zip b.values, _))

/-- Whether a row meets the filter and lives. -/
def finds (l : Layout) (b : Bound) (now : Nat) (row : List Value × Entry) : Bool :=
  decide (Meets l b row) && !row.2.expiredAt now

/-- What the execution of a statement on a table does by what the statement says.  An insert
stores a value for every column.  The selects return the live rows that meet the filter, a delete
takes the rows away that meet it, and a conditional delete those that also live and hold the value
bound to the condition. -/
def Table.AsWritten (t : Table) (b : Bound) (now : Nat) (answer : ResultSet) (t' : Table) : Prop :=
  match b.template.kind with
  | .insert => ∃ row ∈ t'.rows, row.2.expiresAt = expiry b.template.ttlSeconds now ∧
      ∀ spec ∈ t.layout.columns, ∃ value,
        (spec.name, value) ∈ b.template.projection.zip b.values ∧
          cell? t.layout row.1 row.2 spec.name = some value
  | .selectByKey | .selectKeyAndId => answer.rows =
      (t.rows.filter (finds t.layout b now)).map (project t.layout b.template.projection)
  | .deleteByKey => t'.rows = t.rows.filter fun row => !decide (Meets t.layout b row)
  | .conditionalDelete => ∃ column, b.template.condition = some column ∧
      let hit (row : List Value × Entry) : Bool :=
        finds t.layout b now row && cell? t.layout row.1 row.2 column = b.value? column
      answer = .flag (t.rows.any hit) ∧ t'.rows = t.rows.filter fun row => !hit row

/-- Whether a statement is executed on an open session without error and as it is written. -/
def Store.RunsAsWritten (st : Store) (b : Bound) (now : Nat) : Prop :=
  ∃ t answer t', st.table? b.template.layout.table = some t ∧ t.layout = b.template.layout ∧
    (st.execute b now).1 = .ok answer ∧
    (st.execute b now).2.table? b.template.layout.table = some t' ∧ t.AsWritten b now answer t'

/-- An insert names every column, and only a conditional delete has a condition. -/
def WellPosed (t : Template) : Prop :=
  match t.kind with
  | .insert => ∀ spec ∈ t.layout.columns, spec.name ∈ t.projection
  | .conditionalDelete => True
  | _ => t.condition = none

/-! ### Accepted templates -/

/-- What is checked of a template. -/
structure Sifted (t : Template) : Prop where
  known : ∀ name ∈ t.projection ++ t.filter ++ t.condition.toList,
    ∃ spec, t.layout.column? name = some spec
  front : t.filter <+: t.layout.keyNames
  demands : kindRefusal? t = none

theorem refusal?_eq_none_iff {t : Template} : refusal? t = none ↔ Sifted t := by
  unfold refusal?
  cases unknown : unknownColumn? t with
  | some column =>
    refine iff_of_false (by simp) fun sifted => ?_
    have missing := List.find?_some unknown
    obtain ⟨spec, found⟩ := sifted.known column (List.mem_of_find?_eq_some unknown)
    simp [found] at missing
  | none =>
    have known : ∀ name ∈ t.projection ++ t.filter ++ t.condition.toList,
        ∃ spec, t.layout.column? name = some spec := by
      intro name member
      have present := List.find?_eq_none.mp unknown name member
      exact Option.ne_none_iff_exists'.mp (by simpa using present)
    by_cases front : t.filter <+: t.layout.keyNames
    · have front' : t.filter.isPrefixOf t.layout.keyNames = true :=
        List.isPrefixOf_iff_prefix.mpr front
      simp only [if_pos front']
      exact ⟨fun demands => ⟨known, front, demands⟩, fun sifted => sifted.demands⟩
    · have front' : ¬t.filter.isPrefixOf t.layout.keyNames = true :=
        fun is => front (List.isPrefixOf_iff_prefix.mp is)
      simp only [if_neg front']
      exact iff_of_false (by simp) fun sifted => front sifted.front

/-- A template that is accepted has been sifted, and the session is open. -/
theorem Store.sifted_of_prepare {st : Store} {t : Template} {p : Prepared}
    (accepted : (st.prepare t).1 = .ok p) : Sifted t ∧ st.closed = false ∧ p.template = t := by
  unfold Store.prepare at accepted
  split at accepted
  · cases accepted
  · rename_i isOpen
    split at accepted
    · cases accepted
    · rename_i sifted
      split at accepted
      · cases accepted
      · cases accepted
        exact ⟨refusal?_eq_none_iff.mp sifted, Bool.eq_false_iff.mpr isOpen, rfl⟩

/-! ### Filters and keys -/

/-- Looking up front names of a key finds some values iff these begin the key. -/
theorem lookup_front_iff {names front : List Identifier} {key values : List Value}
    (distinct : names.Nodup) (begins : front <+: names) (full : names.length = key.length)
    (enough : front.length ≤ values.length) :
    (∀ p ∈ front.zip values, Sorted.get? p.1 (names.zip key) = some p.2) ↔
      values.take front.length <+: key := by
  induction front generalizing names key values with
  | nil => simp
  | cons name rest ih =>
    obtain ⟨others, rfl⟩ := begins
    rw [List.cons_append] at distinct full ⊢
    cases values with
    | nil => simp at enough
    | cons v vs =>
      cases key with
      | nil => cases full
      | cons k ks =>
        rw [List.nodup_cons] at distinct
        have later : (∀ p ∈ rest.zip vs, Sorted.get? p.1 ((rest ++ others).zip ks) = some p.2) ↔
            vs.take rest.length <+: ks :=
          ih distinct.2 (List.prefix_append rest others) (Nat.succ.inj full)
            (Nat.le_of_succ_le_succ enough)
        -- The other names differ from the first one.
        have behind : ∀ p ∈ rest.zip vs, Sorted.get? p.1 ((name, k) :: (rest ++ others).zip ks) =
            Sorted.get? p.1 ((rest ++ others).zip ks) := by
          intro p member
          have other : p.1 ≠ name := fun nameEq => distinct.1
            (List.mem_append_left _ (nameEq ▸ (List.of_mem_zip member).1))
          rw [Sorted.get?_cons, if_neg other]
        have tails : (∀ p ∈ rest.zip vs,
            Sorted.get? p.1 ((name, k) :: (rest ++ others).zip ks) = some p.2) ↔
              ∀ p ∈ rest.zip vs, Sorted.get? p.1 ((rest ++ others).zip ks) = some p.2 :=
          forall₂_congr fun p member => by rw [behind p member]
        rw [List.zip_cons_cons, List.zip_cons_cons, List.forall_mem_cons, tails, later,
          Sorted.get?_cons, if_pos rfl, List.length_cons, List.take_succ_cons,
          List.cons_prefix_cons, Option.some.injEq, eq_comm]

section Statements

variable {t t' : Table} {b : Bound} {now : Nat}

/-- A row meets the filter iff the values bound to it begin the key. -/
theorem Table.Shaped.meets_iff (shaped : t.Shaped) (distinct : t.layout.Distinct)
    (finds : b.template.kind ≠ .insert) (front : b.template.filter <+: t.layout.keyNames)
    {row : List Value × Entry} (member : row ∈ t.rows) :
    Meets t.layout b row ↔ b.values.take b.template.filter.length <+: row.1 := by
  have names : t.layout.keyNames.Nodup := (List.nodup_append.mp distinct.names).1
  have full : t.layout.keyNames.length = row.1.length := by
    rw [shaped.keys row member, Layout.keyNames, List.length_map]
  rw [← lookup_front_iff names front full (b.length_filter_le finds), Meets]
  refine forall₂_congr fun p member => ?_
  -- A column of the key is found in the key, and nowhere else.
  have inKey : p.1 ∈ t.layout.keyNames := front.subset (List.of_mem_zip member).1
  obtain ⟨value, paired⟩ := exists_mem_zip full inKey
  have found : Sorted.get? p.1 (t.layout.keyNames.zip row.1) = some value :=
    Sorted.get?_of_mem (by rw [List.map_fst_zip (Nat.le_of_eq full)]; exact names) paired
  rw [cell?, found, Option.some_or]

/-- A row meets a filter on the whole key iff the values bound to it are the key. -/
theorem Table.Shaped.meets_full_iff (shaped : t.Shaped) (distinct : t.layout.Distinct)
    (finds : b.template.kind ≠ .insert) (front : b.template.filter <+: t.layout.keyNames)
    (whole : b.template.filter.length = t.layout.primaryKey.length)
    {row : List Value × Entry} (member : row ∈ t.rows) :
    Meets t.layout b row ↔ row.1 = b.values.take b.template.filter.length := by
  have lengthEq : (b.values.take b.template.filter.length).length = row.1.length := by
    rw [List.length_take, Nat.min_eq_left (b.length_filter_le finds), shaped.keys row member, whole]
  rw [shaped.meets_iff distinct finds front member]
  exact ⟨fun begins => (begins.eq_of_length lengthEq).symm, fun equal => equal ▸ List.prefix_rfl⟩

/-! ### Well-posed statements -/

/-- Without a condition exactly the filter is bound. -/
theorem values_length (finds : b.template.kind ≠ .insert) (plain : b.template.condition = none) :
    b.values.length = b.template.filter.length := by
  rw [← b.length_values, b.template.parameterColumns_conditional finds, plain]
  simp

theorem take_values (finds : b.template.kind ≠ .insert) (plain : b.template.condition = none) :
    b.values.take b.template.filter.length = b.values := by
  rw [← values_length finds plain, List.take_length]

/-- A select by key returns the live row that meets the filter. -/
theorem Table.Shaped.selectByKey_rows (shaped : t.Shaped) (distinct : t.layout.Distinct)
    (kind : b.template.kind = .selectByKey) (front : b.template.filter <+: t.layout.keyNames)
    (whole : b.template.filter.length = t.layout.primaryKey.length)
    (plain : b.template.condition = none) (now : Nat) :
    (t.selectByKey b now).1.rows =
      (t.rows.filter (finds t.layout b now)).map (project t.layout b.template.projection) := by
  have reads : b.template.kind ≠ .insert := by simp [kind]
  have found : t.rows.filter (finds t.layout b now) =
      t.rows.filter fun row => decide (row.1 = b.values) && !row.2.expiredAt now := by
    refine List.filter_congr fun row member => ?_
    have meets := shaped.meets_full_iff distinct reads front whole member
    rw [take_values reads plain] at meets
    rw [Memory.finds, decide_eq_decide.mpr meets]
  rw [found, Sorted.filter_key shaped.ordered.nodup b.values fun e => !e.expiredAt now,
    Table.selectByKey]
  cases stored : Sorted.get? b.values t.rows with
  | none => rfl
  | some entry =>
    cases gone : entry.expiredAt now <;> simp [Option.filter_some, gone, ResultSet.empty]

/-- A scan returns the live rows that meet the filter. -/
theorem Table.Shaped.selectKeyAndId_rows (shaped : t.Shaped) (distinct : t.layout.Distinct)
    (kind : b.template.kind = .selectKeyAndId) (front : b.template.filter <+: t.layout.keyNames)
    (plain : b.template.condition = none) (now : Nat) :
    (t.selectKeyAndId b now).1.rows =
      (t.rows.filter (finds t.layout b now)).map (project t.layout b.template.projection) := by
  have reads : b.template.kind ≠ .insert := by simp [kind]
  rw [Table.selectKeyAndId, List.filter_filter]
  refine congrArg (List.map _) (List.filter_congr fun row member => ?_)
  have begins : b.values.isPrefixOf row.1 = decide (Meets t.layout b row) := by
    rw [Bool.eq_iff_iff, List.isPrefixOf_iff_prefix, decide_eq_true_iff,
      shaped.meets_iff distinct reads front member, take_values reads plain]
  rw [Memory.finds, begins]

/-- A delete takes away the rows that meet the filter. -/
theorem Table.Shaped.deleteByKey_rows (shaped : t.Shaped) (distinct : t.layout.Distinct)
    (kind : b.template.kind = .deleteByKey) (front : b.template.filter <+: t.layout.keyNames)
    (whole : b.template.filter.length = t.layout.primaryKey.length)
    (plain : b.template.condition = none) :
    (t.deleteByKey b).2.rows = t.rows.filter fun row => !decide (Meets t.layout b row) := by
  have deletes : b.template.kind ≠ .insert := by simp [kind]
  refine List.filter_congr fun row member => ?_
  have meets := shaped.meets_full_iff distinct deletes front whole member
  rw [take_values deletes plain] at meets
  rw [decide_eq_decide.mpr meets, decide_not]

/-- Every parameter column has a bound value. -/
theorem exists_value? {column : Identifier} (member : column ∈ b.template.parameterColumns) :
    ∃ value, b.value? column = some value := by
  obtain ⟨value, paired⟩ := exists_mem_zip b.length_values member
  cases found : b.value? column with
  | none => exact absurd paired (Sorted.get?_eq_none_iff.mp found value)
  | some v => exact ⟨v, rfl⟩

/-- A regular column is found among the values of a row and not in its key. -/
theorem cell?_regular {l : Layout} (distinct : l.Distinct) {spec : ColumnSpec}
    (member : spec ∈ l.regular) (key : List Value) (e : Entry) :
    cell? l key e spec.name = Sorted.get? spec.name e.values := by
  have absent : Sorted.get? spec.name (l.keyNames.zip key) = none := by
    rw [Sorted.get?_eq_none_iff]
    intro v found
    exact (List.nodup_append.mp distinct.names).2.2 _ (List.of_mem_zip found).1 _
      (List.mem_map_of_mem member) rfl
  rw [cell?, absent, Option.none_or]

/-- Some row under a key is to be taken iff the one that is looked up is. -/
theorem any_hit {rows : Rows} (distinct : (rows.map Prod.fst).Nodup) (key : List Value)
    (p : Entry → Bool) :
    (rows.any fun row => decide (row.1 = key) && p row.2) = (Sorted.get? key rows).any p := by
  rw [Bool.eq_iff_iff, List.any_eq_true, Option.any_eq_true]
  constructor
  · rintro ⟨⟨k, e⟩, member, both⟩
    rw [Bool.and_eq_true, decide_eq_true_iff] at both
    obtain ⟨rfl, taken⟩ := both
    exact ⟨e, Sorted.get?_of_mem distinct member, taken⟩
  · rintro ⟨e, found, taken⟩
    exact ⟨(key, e), Sorted.mem_of_get? found, by simpa using taken⟩

/-- What is kept if the entry of a key is taken away where it is to be taken. -/
theorem filter_not_hit {rows : Rows} (distinct : (rows.map Prod.fst).Nodup) (key : List Value)
    (p : Entry → Bool) :
    (rows.filter fun row => !(decide (row.1 = key) && p row.2)) =
      if (Sorted.get? key rows).any p = true then Sorted.drop key rows else rows := by
  have only : ∀ row ∈ rows, row.1 = key → Sorted.get? key rows = some row.2 := by
    rintro ⟨k, e⟩ member rfl
    exact Sorted.get?_of_mem distinct member
  split
  · rename_i taken
    refine List.filter_congr fun row member => ?_
    by_cases keyEq : row.1 = key
    · rw [only row member keyEq, Option.any_some] at taken
      simp [keyEq, taken]
    · simp [keyEq]
  · rename_i kept
    refine List.filter_eq_self.mpr fun row member => ?_
    by_cases keyEq : row.1 = key
    · rw [only row member keyEq, Option.any_some] at kept
      simp [kept]
    · simp [keyEq]

/-- A conditional delete takes away the live row that meets the filter and holds the value of the
condition, and says whether there was one. -/
theorem Table.Shaped.conditionalDelete_rows (shaped : t.Shaped) (distinct : t.layout.Distinct)
    (kind : b.template.kind = .conditionalDelete) (front : b.template.filter <+: t.layout.keyNames)
    (whole : b.template.filter.length = t.layout.primaryKey.length) {spec : ColumnSpec}
    (regular : spec ∈ t.layout.regular) (condition : b.template.condition = some spec.name)
    (now : Nat) :
    let hit (row : List Value × Entry) : Bool :=
      finds t.layout b now row && cell? t.layout row.1 row.2 spec.name = b.value? spec.name
    t.conditionalDelete b now = .ok (.flag (t.rows.any hit),
      { t with rows := t.rows.filter fun row => !hit row }) := by
  intro hit
  have deletes : b.template.kind ≠ .insert := by simp [kind]
  have columns := b.template.parameterColumns_conditional deletes
  obtain ⟨expected, bound⟩ : ∃ value, b.value? spec.name = some value :=
    exists_value? (by simp [columns, condition])
  let key := b.values.take b.template.filter.length
  have enough : t.layout.primaryKey.length ≤ b.values.length := by
    rw [← b.length_values, columns, List.length_append, whole]
    exact Nat.le_add_right _ _
  have boundKey : t.boundKey b = key := by
    rw [Table.boundKey, if_pos enough, ← whole]
  let takes (e : Entry) : Bool :=
    !e.expiredAt now && decide (Sorted.get? spec.name e.values = some expected)
  have hits : ∀ row ∈ t.rows, hit row = (decide (row.1 = key) && takes row.2) := by
    intro row member
    have meets := shaped.meets_full_iff distinct deletes front whole member
    simp only [hit, Memory.finds, takes, decide_eq_decide.mpr meets,
      cell?_regular distinct regular, bound, key, Bool.and_assoc]
  have any : t.rows.any hit = (Sorted.get? key t.rows).any takes := by
    rw [← any_hit shaped.ordered.nodup key takes]
    rw [Bool.eq_iff_iff, List.any_eq_true, List.any_eq_true]
    exact exists_congr fun row => and_congr_right fun member => by rw [hits row member]
  have kept : (t.rows.filter fun row => !hit row) =
      if (Sorted.get? key t.rows).any takes = true then Sorted.drop key t.rows else t.rows := by
    rw [← filter_not_hit shaped.ordered.nodup key takes]
    exact List.filter_congr fun row member => by rw [hits row member]
  rw [any, kept, Table.conditionalDelete, condition]
  simp only [boundValue, bound, bind, Except.bind, boundKey, pure, Except.pure]
  cases stored : Sorted.get? key t.rows with
  | none => rfl
  | some e =>
    show (if takes e = true then _ else _) = _
    cases taken : takes e <;> simp [taken]

/-- Columns that have bound values are bound to these. -/
theorem boundValues_total (specs : List ColumnSpec)
    (bound : ∀ spec ∈ specs, ∃ value, b.value? spec.name = some value) :
    ∃ values, specs.length = values.length ∧
      (∀ p ∈ specs.zip values, b.value? p.1.name = some p.2) ∧
        boundValues b specs = .ok ((specs.map ColumnSpec.name).zip values) := by
  let value (spec : ColumnSpec) : Value := (b.value? spec.name).getD (.text "")
  have found : ∀ p ∈ specs.zip (specs.map value), b.value? p.1.name = some p.2 := by
    rw [← List.map_prod_left_eq_zip]
    intro p member
    obtain ⟨spec, inside, rfl⟩ := List.mem_map.mp member
    obtain ⟨v, known⟩ := bound spec inside
    simp [value, known]
  exact ⟨specs.map value, by simp, found, boundValues_of _ (by simp) found⟩

/-- A column is looked up with the value that it is paired with. -/
theorem get?_names {specs : List ColumnSpec} {values : List Value}
    (lengthEq : specs.length = values.length) (distinct : (specs.map ColumnSpec.name).Nodup)
    {spec : ColumnSpec} {value : Value} (paired : (spec, value) ∈ specs.zip values) :
    Sorted.get? spec.name ((specs.map ColumnSpec.name).zip values) = some value := by
  refine Sorted.get?_of_mem ?_ ?_
  · rw [List.map_fst_zip (by simp [lengthEq])]
    exact distinct
  · rw [List.zip_map_left]
    exact List.mem_map_of_mem (f := Prod.map ColumnSpec.name id) paired

/-- An insert that names every column stores a value for each. -/
theorem Table.insert_asWritten (distinct : t.layout.Distinct)
    (kind : b.template.kind = .insert)
    (every : ∀ spec ∈ t.layout.columns, spec.name ∈ b.template.projection) (now : Nat) :
    ∃ answer t', t.execute b now = .ok (answer, t') ∧ t.AsWritten b now answer t' := by
  have columns := b.template.parameterColumns_insert kind
  have bound (spec : ColumnSpec) (member : spec ∈ t.layout.columns) :
      ∃ value, b.value? spec.name = some value :=
    exists_value? (columns ▸ every spec member)
  have names := List.nodup_append.mp distinct.names
  obtain ⟨key, sameKey, inKey, boundKey⟩ := boundValues_total t.layout.primaryKey
    fun spec member => bound spec (List.mem_append_left _ member)
  obtain ⟨values, sameValues, inValues, boundRegular⟩ := boundValues_total t.layout.regular
    fun spec member => bound spec (List.mem_append_right _ member)
  have keys : ((t.layout.primaryKey.map ColumnSpec.name).zip key).map Prod.snd = key :=
    List.map_snd_zip (by simp [sameKey])
  let entry : Entry :=
    ⟨(t.layout.regular.map ColumnSpec.name).zip values, expiry b.template.ttlSeconds now⟩
  refine ⟨.empty, { t with rows := Sorted.put key entry t.rows }, ?_, ?_⟩
  · simp only [Table.execute, kind, Table.insert, boundKey, boundRegular, bind, Except.bind, pure,
      Except.pure, keys, entry]
  · have stored : (key, entry) ∈ Sorted.put key entry t.rows :=
      Sorted.mem_of_get? (by rw [Sorted.get?_put, if_pos rfl])
    simp only [Table.AsWritten, kind]
    refine ⟨(key, entry), stored, rfl, fun spec member => ?_⟩
    rcases List.mem_append.mp member with primary | regular
    · obtain ⟨value, paired⟩ := exists_mem_zip sameKey primary
      have found : Sorted.get? spec.name (t.layout.keyNames.zip key) = some value :=
        get?_names sameKey names.1 paired
      exact ⟨value, columns ▸ Sorted.mem_of_get? (inKey _ paired),
        by rw [cell?, found, Option.some_or]⟩
    · obtain ⟨value, paired⟩ := exists_mem_zip sameValues regular
      have found : Sorted.get? spec.name entry.values = some value :=
        get?_names sameValues names.2.1 paired
      exact ⟨value, columns ▸ Sorted.mem_of_get? (inValues _ paired),
        (cell?_regular distinct regular key entry).trans found⟩

/-- What a sifted template demands of a conditional delete. -/
theorem Sifted.condition {t : Template} (sifted : Sifted t) (kind : t.kind = .conditionalDelete) :
    t.filter.length = t.layout.primaryKey.length ∧
      ∃ spec ∈ t.layout.regular, t.condition = some spec.name := by
  have demands := sifted.demands
  simp only [kindRefusal?, kind] at demands
  split at demands
  · rename_i both
    rw [Bool.and_eq_true, decide_eq_true_iff] at both
    obtain ⟨whole, regular⟩ := both
    unfold conditionIsRegular at regular
    split at regular
    · cases regular
    · rename_i column condition
      obtain ⟨spec, member, decided⟩ := List.any_eq_true.mp regular
      exact ⟨whole, spec, member, by rw [condition, of_decide_eq_true decided]⟩
  · cases demands

/-- What a sifted template demands of a statement on one key. -/
theorem Sifted.whole {t : Template} (sifted : Sifted t)
    (kind : t.kind = .selectByKey ∨ t.kind = .deleteByKey) :
    t.filter.length = t.layout.primaryKey.length := by
  have demands := sifted.demands
  rcases kind with kind | kind
  · simpa [kindRefusal?, kind] using demands
  · simpa [kindRefusal?, kind] using demands

/-- A well-posed statement is executed on its table as it is written. -/
theorem Table.Shaped.execute_asWritten (shaped : t.Shaped) (layout : t.layout = b.template.layout)
    (distinct : t.layout.Distinct) (sifted : Sifted b.template) (posed : WellPosed b.template)
    (now : Nat) :
    ∃ answer t', t.execute b now = .ok (answer, t') ∧ t.AsWritten b now answer t' := by
  have front : b.template.filter <+: t.layout.keyNames := layout ▸ sifted.front
  cases kind : b.template.kind with
  | insert =>
    simp only [WellPosed, kind, ← layout] at posed
    exact t.insert_asWritten distinct kind posed now
  | selectByKey =>
    simp only [WellPosed, kind] at posed
    refine ⟨_, _, by rw [Table.execute, kind], ?_⟩
    simp only [Table.AsWritten, kind]
    exact shaped.selectByKey_rows distinct kind front (layout ▸ sifted.whole (.inl kind)) posed now
  | deleteByKey =>
    simp only [WellPosed, kind] at posed
    refine ⟨_, _, by rw [Table.execute, kind], ?_⟩
    simp only [Table.AsWritten, kind]
    exact shaped.deleteByKey_rows distinct kind front (layout ▸ sifted.whole (.inr kind)) posed
  | selectKeyAndId =>
    simp only [WellPosed, kind] at posed
    refine ⟨_, _, by rw [Table.execute, kind], ?_⟩
    simp only [Table.AsWritten, kind]
    exact shaped.selectKeyAndId_rows distinct kind front posed now
  | conditionalDelete =>
    obtain ⟨whole, spec, regular, condition⟩ := sifted.condition kind
    rw [← layout] at whole regular
    have run := shaped.conditionalDelete_rows distinct kind front whole regular condition now
    refine ⟨_, _, by simp only [Table.execute, kind]; exact run, ?_⟩
    simp only [Table.AsWritten, kind]
    exact ⟨spec.name, condition, rfl, rfl⟩

/-- What the execution of a statement on an open session is, as seen from its table. -/
theorem Store.runsAsWritten_iff {st : Store} (isOpen : st.closed = false) (shaped : st.Shaped)
    (found : st.table? b.template.layout.table = some t) :
    st.RunsAsWritten b now ↔ t.layout = b.template.layout ∧
      ∃ answer t', t.execute b now = .ok (answer, t') ∧ t.AsWritten b now answer t' := by
  have after {answer : ResultSet} {t' : Table} (run : t.execute b now = .ok (answer, t')) :
      ((st.counted b).replace b.template.layout.table t').table? b.template.layout.table =
        some t' := by
    rw [Store.table?_executed ((shaped _ t found).execute run).1 found, found]
    simp
  constructor
  · rintro ⟨t₁, answer, t', found₁, layout, run, found', written⟩
    rw [found] at found₁
    cases found₁
    have whole : st.execute b now = (.ok answer, (st.execute b now).2) := Prod.ext run rfl
    obtain ⟨t₁, t₂, found₁, executed, left⟩ := (Store.execute_eq_ok_iff isOpen).mp whole
    rw [found] at found₁
    cases found₁
    rw [left, after executed] at found'
    cases found'
    exact ⟨layout, answer, t', executed, written⟩
  · rintro ⟨layout, answer, t', executed, written⟩
    have run : st.execute b now =
        (.ok answer, (st.counted b).replace b.template.layout.table t') :=
      (Store.execute_eq_ok_iff isOpen).mpr ⟨t, t', found, executed, rfl⟩
    exact ⟨t, answer, t', found, layout, by rw [run], by rw [run]; exact after executed, written⟩

end Statements

/-! ### Ill-posed statements -/

section Contrast

variable {t : Template} {table table' : Table} {b : Bound} {now : Nat} {answer : ResultSet}

/-- The statement that writes every column of a layout, for good. -/
def wholeInsert (t : Template) : Template where
  kind := .insert
  layout := t.layout
  projection := t.layout.columns.map ColumnSpec.name
  filter := []
  condition := none
  ttlSeconds := none
  consistency := t.consistency

/-- A sample for a column of the filter, another value for any other column. -/
def contrast (t : Template) (spec : ColumnSpec) : Value :=
  if spec.name ∈ t.filter then spec.kind.sample else spec.kind.otherSample

theorem kind_contrast (t : Template) (spec : ColumnSpec) : (contrast t spec).kind = spec.kind := by
  unfold contrast
  split
  · exact ColumnKind.kind_sample _
  · exact ColumnKind.kind_otherSample _

theorem zip_contrast (t : Template) :
    (t.layout.columns.map ColumnSpec.name).zip (t.layout.columns.map (contrast t)) =
      t.layout.columns.map fun spec => (spec.name, contrast t spec) := by
  rw [List.zip_map']

theorem accept_contrast (distinct : t.layout.Distinct) :
    (wholeInsert t).accept (t.layout.columns.map (contrast t)) = .ok () := by
  refine Template.accept_eq_ok_iff.mpr
    ⟨by simp [Template.parameterColumns, wholeInsert], fun e member => ?_⟩
  simp only [Template.parameterColumns, wholeInsert, zip_contrast] at member
  obtain ⟨spec, inside, rfl⟩ := List.mem_map.mp member
  exact ⟨spec, distinct.column?_of_mem inside, (kind_contrast t spec).symm⟩

/-- The insert of the contrasting row. -/
def contrastBound (distinct : t.layout.Distinct) : Bound :=
  ⟨⟨wholeInsert t, (wholeInsert t).cql⟩, t.layout.columns.map (contrast t),
    accept_contrast distinct⟩

theorem sifted_wholeInsert (distinct : t.layout.Distinct) : Sifted (wholeInsert t) where
  known := by
    intro name member
    simp only [wholeInsert, List.append_nil, Option.toList_none, List.mem_map] at member
    obtain ⟨spec, inside, rfl⟩ := member
    exact ⟨spec, distinct.column?_of_mem inside⟩
  front := List.nil_prefix
  demands := by simp [kindRefusal?, wholeInsert]

theorem wellPosed_wholeInsert : WellPosed (wholeInsert t) :=
  fun _ member => List.mem_map_of_mem member

/-- Whether a row lives for good and differs from the samples in all columns but those of the
filter. -/
def Contrasting (t : Template) (row : List Value × Entry) : Prop :=
  row.2.expiresAt = none ∧
    ∀ spec ∈ t.layout.columns, cell? t.layout row.1 row.2 spec.name = some (contrast t spec)

/-- The contrasting row can be written. -/
theorem Store.exists_contrasting {st : Store} (isOpen : st.closed = false) (shaped : st.Shaped)
    (held : st.Holds t.layout) (distinct : t.layout.Distinct) :
    ∃ d, (st.serve d).closed = false ∧ (st.serve d).Shaped ∧
      ∃ table, (st.serve d).table? t.layout.table = some table ∧ table.layout = t.layout ∧
        ∃ row ∈ table.rows, Contrasting t row := by
  obtain ⟨table, found, layout⟩ := held
  let b := contrastBound distinct
  obtain ⟨answer, table', executed, written⟩ := (shaped _ table found).execute_asWritten
    (b := b) layout (layout ▸ distinct) (sifted_wholeInsert distinct) wellPosed_wholeInsert 0
  have run := (Store.execute_eq_ok_iff (b := b) isOpen).mpr ⟨table, table', found, executed, rfl⟩
  obtain ⟨own, -⟩ := (shaped _ table found).execute executed
  refine ⟨.execute b 0, by rw [serve, st.closed_execute, isOpen],
    (Store.onward_execute shaped b 0).shaped shaped, table', ?_, own.trans layout, ?_⟩
  · rw [serve, run, Store.table?_executed own found]
    show (st.table? t.layout.table).map _ = _
    rw [found]
    exact congrArg some (if_pos rfl)
  · obtain ⟨row, stored, forever, cells⟩ := written
    refine ⟨row, stored, forever, fun spec member => ?_⟩
    rw [layout] at cells
    obtain ⟨value, paired, cell⟩ := cells spec member
    -- The names are distinct, so the value is the one that belongs to this column.
    have pairs : (spec.name, value) ∈ t.layout.columns.map fun s => (s.name, contrast t s) :=
      zip_contrast t ▸ paired
    obtain ⟨other, inside, pairEq⟩ := List.mem_map.mp pairs
    obtain ⟨name, rfl⟩ := Prod.mk.inj pairEq
    rw [cell, List.inj_on_of_nodup_map distinct inside member name]

variable {row : List Value × Entry} {column : Identifier}

theorem samples_of_condition (finds : t.kind ≠ .insert) (condition : t.condition = some column) :
    t.samples = t.filter.map t.layout.sample ++ [t.layout.sample column] := by
  have columns : t.parameterColumns = t.filter ++ [column] := by
    cases kind : t.kind <;> simp_all [Template.parameterColumns]
  rw [Template.samples, columns, List.map_append, List.map_singleton]

/-- The contrasting row holds the samples in the columns of the filter. -/
theorem Contrasting.finds (contrasting : Contrasting t row) (sifted : Sifted t)
    (reads : t.kind ≠ .insert) (condition : t.condition = some column) (template : b.template = t)
    (values : b.values = t.samples) (now : Nat) : finds t.layout b now row = true := by
  obtain ⟨forever, cells⟩ := contrasting
  have meets : Meets t.layout b row := by
    intro p member
    have pairs : t.filter.zip t.samples =
        t.filter.map fun name => (name, t.layout.sample name) := by
      have split : (t.filter ++ []).zip (t.filter.map t.layout.sample ++ [t.layout.sample column]) =
          t.filter.zip (t.filter.map t.layout.sample) ++ [].zip [t.layout.sample column] :=
        List.zip_append (by simp)
      rw [List.append_nil, ← samples_of_condition reads condition] at split
      rw [split, List.map_prod_left_eq_zip, List.zip_nil_left, List.append_nil]
    rw [template, values, pairs] at member
    obtain ⟨name, inside, rfl⟩ := List.mem_map.mp member
    obtain ⟨spec, found⟩ := sifted.known name (by simp [inside])
    obtain ⟨present, rfl⟩ := Layout.of_column?_eq_some found
    rw [cells spec present, contrast, if_pos inside, Layout.sample_of_column? found]
  have lives : row.2.expiredAt now = false := by rw [Entry.expiredAt, forever]
  rw [Memory.finds, decide_eq_true meets, lives]
  rfl

/-- The samples of a filter and a condition do not begin the key of the contrasting row. -/
theorem Contrasting.not_begins (contrasting : Contrasting t row) (distinct : t.layout.Distinct)
    (sifted : Sifted t) (reads : t.kind ≠ .insert) (condition : t.condition = some column)
    (full : row.1.length = t.layout.primaryKey.length) : ¬t.samples <+: row.1 := by
  intro begins
  have samples := samples_of_condition reads condition
  have named : t.layout.keyNames.length = row.1.length := by
    rw [full, Layout.keyNames, List.length_map]
  obtain ⟨others, split⟩ := sifted.front
  cases others with
  | nil =>
    -- All of the key is bound already, and the condition is too much.
    have short := begins.length_le
    rw [List.append_nil] at split
    rw [samples, List.length_append, List.length_map, split, named, List.length_singleton] at short
    exact Nat.not_succ_le_self _ short
  | cons next others =>
    -- The value of the condition is taken for that of the next column of the key.
    have names : (t.filter ++ next :: others).Nodup :=
      split ▸ (List.nodup_append.mp distinct.names).1
    have front : t.filter ++ [next] <+: t.layout.keyNames := ⟨others, by rw [← split]; simp⟩
    have length : (t.filter ++ [next]).length = t.samples.length := by simp [samples]
    have looked := (lookup_front_iff (split ▸ names) front named (Nat.le_of_eq length)).mpr
      (by rw [length, List.take_length]; exact begins)
    have found := looked (next, t.layout.sample column) (by
      rw [samples, List.zip_append (by simp)]
      exact List.mem_append_right _ List.mem_cons_self)
    obtain ⟨spec, primary, rfl⟩ : ∃ spec ∈ t.layout.primaryKey, spec.name = next :=
      List.mem_map.mp (front.subset (by simp))
    have apart : spec.name ∉ t.filter := fun inside =>
      (List.nodup_append.mp names).2.2 _ inside _ List.mem_cons_self rfl
    have cell := contrasting.2 spec (List.mem_append_left _ primary)
    rw [cell?, found, Option.some_or, contrast, if_neg apart] at cell
    exact ColumnKind.sample_ne_otherSample _ _ (Option.some.inj cell)

/-- A statement that has a condition and is no conditional delete misses the contrasting row. -/
theorem Table.Shaped.not_asWritten (shaped : table.Shaped) (distinct : table.layout.Distinct)
    (layout : table.layout = t.layout) (sifted : Sifted t) (reads : t.kind ≠ .insert)
    (plain : t.kind ≠ .conditionalDelete) (condition : t.condition = some column)
    (template : b.template = t) (values : b.values = t.samples) (member : row ∈ table.rows)
    (contrasting : Contrasting t row) (run : table.execute b now = .ok (answer, table')) :
    ¬table.AsWritten b now answer table' := by
  have found := contrasting.finds sifted reads condition template values now
  have passed : ¬b.values <+: row.1 := values ▸
    contrasting.not_begins (layout ▸ distinct) sifted reads condition
      (layout ▸ shaped.keys row member)
  have stays : row ∈ table.rows.filter (Memory.finds table.layout b now) :=
    List.mem_filter.mpr ⟨member, layout ▸ found⟩
  intro written
  cases kind : t.kind with
  | insert => exact reads kind
  | conditionalDelete => exact plain kind
  | selectByKey =>
    simp only [Table.AsWritten, Table.execute, template, kind, Except.ok.injEq] at written run
    have missed : Sorted.get? b.values table.rows = none := by
      rw [Sorted.get?_eq_none_iff]
      intro e stored
      have long : t.samples.length = t.filter.length + 1 := by
        simp [samples_of_condition reads condition]
      have short : b.values.length = table.layout.primaryKey.length := shaped.keys _ stored
      rw [values, long, layout, sifted.whole (.inl kind)] at short
      exact Nat.succ_ne_self _ short
    obtain rfl : (table.selectByKey b now).1 = answer := congrArg Prod.fst run
    rw [Table.selectByKey, missed] at written
    rw [List.map_eq_nil_iff.mp written.symm] at stays
    exact List.not_mem_nil stays
  | deleteByKey =>
    simp only [Table.AsWritten, Table.execute, template, kind, Except.ok.injEq] at written run
    obtain rfl : (table.deleteByKey b).2 = table' := congrArg Prod.snd run
    have kept : row ∈ (table.deleteByKey b).2.rows :=
      List.mem_filter.mpr ⟨member, decide_eq_true fun keyEq => passed (keyEq ▸ List.prefix_rfl)⟩
    rw [written, List.mem_filter, layout] at kept
    rw [Memory.finds, Bool.and_eq_true] at found
    rw [found.1] at kept
    exact Bool.noConfusion kept.2
  | selectKeyAndId =>
    simp only [Table.AsWritten, Table.execute, template, kind, Except.ok.injEq] at written run
    obtain rfl : (table.selectKeyAndId b now).1 = answer := congrArg Prod.fst run
    have front : b.template.filter <+: table.layout.keyNames := by
      rw [template, layout]
      exact sifted.front
    -- Of the rows that should be returned it returns those whose key begins with all bound values.
    have fewer : ((table.rows.filter fun row => !row.2.expiredAt now).filter
        fun row => b.values.isPrefixOf row.1) =
          (table.rows.filter (Memory.finds table.layout b now)).filter
            fun row => b.values.isPrefixOf row.1 := by
      rw [List.filter_filter, List.filter_filter]
      refine List.filter_congr fun other inside => ?_
      cases begins : b.values.isPrefixOf other.1 with
      | false => rfl
      | true =>
        have met : Meets table.layout b other :=
          (shaped.meets_iff distinct (template ▸ reads) front inside).mpr
            ((List.take_prefix _ _).trans (List.isPrefixOf_iff_prefix.mp begins))
        simp [Memory.finds, met]
    have lengths := congrArg List.length written
    rw [Table.selectKeyAndId, fewer, List.length_map, List.length_map] at lengths
    have less := (List.length_filter_lt_length_iff_exists
      (p := fun row : List Value × Entry => b.values.isPrefixOf row.1)).mpr
        ⟨row, stays, fun begins => passed (List.isPrefixOf_iff_prefix.mp begins)⟩
    exact Nat.ne_of_lt less lengths

/-- If a column has no bound value, the values of the columns are not had. -/
theorem boundValues_unbound {specs : List ColumnSpec} {spec : ColumnSpec} (member : spec ∈ specs)
    (unbound : b.value? spec.name = none) :
    ∃ failure, boundValues b specs = .error failure := by
  induction specs with
  | nil => exact absurd member List.not_mem_nil
  | cons first rest ih =>
    simp only [boundValues, boundValue, bind, Except.bind]
    cases known : b.value? first.name with
    | none => exact ⟨_, rfl⟩
    | some value =>
      rcases List.mem_cons.mp member with rfl | later
      · rw [unbound] at known
        cases known
      · obtain ⟨failure, failed⟩ := ih later
        exact ⟨failure, by simp only [failed]⟩

/-- An insert that does not name every column fails. -/
theorem Table.insert_unbound (kind : b.template.kind = .insert) {spec : ColumnSpec}
    (member : spec ∈ table.layout.columns) (unnamed : spec.name ∉ b.template.projection)
    (now : Nat) : ∃ failure, table.execute b now = .error failure := by
  have unbound : b.value? spec.name = none := by
    refine Sorted.get?_eq_none_iff.mpr fun value bound => unnamed ?_
    have named := (List.of_mem_zip bound).1
    rwa [b.template.parameterColumns_insert kind] at named
  simp only [Table.execute, kind, Table.insert, bind, Except.bind]
  rcases List.mem_append.mp member with primary | regular
  · obtain ⟨failure, failed⟩ := boundValues_unbound primary unbound
    exact ⟨failure, by rw [failed]⟩
  · cases keys : boundValues b table.layout.primaryKey with
    | error failure => exact ⟨failure, rfl⟩
    | ok values =>
      obtain ⟨failure, failed⟩ := boundValues_unbound regular unbound
      exact ⟨failure, by simp only [failed]⟩

end Contrast

/-! ### What is accepted -/

/-- If a statement is executed as it is written whatever has been done since on its session, it is
well posed. -/
theorem Store.wellPosed_of_runs {st : Store} {t : Template} {p : Prepared}
    (isOpen : st.closed = false) (shaped : st.Shaped) (held : st.Holds t.layout)
    (distinct : t.layout.Distinct) (sifted : Sifted t) (template : p.template = t)
    (runs : ∀ after, (st.serveAll after).closed = false → ∀ b, b.statement = p → ∀ now,
      (st.serveAll after).RunsAsWritten b now) : WellPosed t := by
  have known : ∀ name ∈ t.parameterColumns, ∃ spec, t.layout.column? name = some spec := by
    intro name member
    refine sifted.known name ?_
    cases kind : t.kind <;> simp only [Template.parameterColumns, kind] at member <;> simp_all
  let b : Bound := ⟨p, t.samples, by
    rw [template]
    exact Template.accept_samples_of_known known⟩
  have own : b.template = t := template
  obtain ⟨d, isOpen', shaped', table, found, layout, row, member, contrasting⟩ :=
    Store.exists_contrasting isOpen shaped held distinct
  have run := runs [d] isOpen' b rfl 0
  rw [show st.serveAll [d] = st.serve d from rfl,
    Store.runsAsWritten_iff isOpen' shaped' (own ▸ found)] at run
  obtain ⟨-, answer, table', executed, written⟩ := run
  have missed : t.kind ≠ .insert → t.kind ≠ .conditionalDelete → t.condition = none := by
    intro reads plain
    cases condition : t.condition with
    | none => rfl
    | some column =>
      exact absurd written ((shaped' _ table found).not_asWritten (layout ▸ distinct) layout sifted
        reads plain condition own rfl member contrasting executed)
  unfold WellPosed
  split
  · rename_i kind
    intro spec inside
    by_contra unnamed
    obtain ⟨failure, failed⟩ : ∃ failure, table.execute b 0 = .error failure :=
      Table.insert_unbound (own ▸ kind) (layout ▸ inside) (own ▸ unnamed) 0
    rw [failed] at executed
    cases executed
  · trivial
  · rename_i reads plain
    exact missed reads plain

/-- What a memory session accepts it executes as it is written, whatever has been done before and
after and whatever is bound, exactly if an insert names every column and only a conditional delete
has a condition. -/
theorem Store.runsAsWritten_iff_wellPosed (before : List Demand) {t : Template} {p : Prepared}
    (distinct : t.layout.Distinct)
    (accepted : ((Store.empty.serveAll before).prepare t).1 = .ok p) :
    let st := ((Store.empty.serveAll before).prepare t).2
    (∀ after, (st.serveAll after).closed = false → ∀ b, b.statement = p → ∀ now,
      (st.serveAll after).RunsAsWritten b now) ↔ WellPosed t := by
  intro st
  have shaped₀ := (Store.onward_serveAll Store.shaped_empty before).shaped Store.shaped_empty
  obtain ⟨sifted, isOpen₀, template⟩ := Store.sifted_of_prepare accepted
  obtain ⟨onward, closed, -⟩ := (Store.empty.serveAll before).prepare_leaves t
  obtain ⟨-, held⟩ := Store.holds_prepare (Prod.ext accepted rfl)
  have shaped : st.Shaped := onward.shaped shaped₀
  constructor
  · exact Store.wellPosed_of_runs (closed.trans isOpen₀) shaped held distinct sifted template
  · intro posed after isOpen b statement now
    have later := Store.onward_serveAll shaped after
    have own : b.template = t := (congrArg Prepared.template statement).trans template
    obtain ⟨table, found, layout⟩ := later.holds _ held
    refine (Store.runsAsWritten_iff isOpen (later.shaped shaped) (own ▸ found)).mpr
      ⟨own ▸ layout, ?_⟩
    exact (later.shaped shaped _ table found).execute_asWritten (own ▸ layout)
      (layout ▸ distinct) (own ▸ sifted) (own ▸ posed) now

/-- The insert of the plain repository is executed as it is written. -/
theorem Store.runsAsWritten_plain :
    let t := plainRepository.schema.template .insert
    let st := (Store.empty.prepare t).2
    (Store.empty.prepare t).1 = .ok ⟨t, t.cql⟩ ∧
      ∀ after, (st.serveAll after).closed = false → ∀ b, b.statement = ⟨t, t.cql⟩ → ∀ now,
        (st.serveAll after).RunsAsWritten b now := by
  intro t st
  have accepted : ((Store.empty.serveAll []).prepare t).1 = .ok ⟨t, t.cql⟩ := by decide +kernel
  have distinct : t.layout.Distinct := by
    unfold Layout.Distinct
    decide +kernel
  have posed : WellPosed t := by
    show ∀ spec ∈ t.layout.columns, spec.name ∈ t.projection
    decide +kernel
  exact ⟨accepted, (Store.runsAsWritten_iff_wellPosed [] distinct accepted).mpr posed⟩

/-- An insert that writes the key twice and the payload never. -/
def keyTwiceInsert : Template :=
  { plainRepository.schema.template .insert with
    projection := [plainRepository.schema.keyColumn, plainRepository.schema.keyColumn,
      plainRepository.schema.exchangeIdColumn] }

/-- A fresh session accepts an insert that writes one column twice instead of another, values of the
right kinds are bound to it, and its execution fails. -/
theorem Store.keyTwiceInsert_fails :
    ∃ b : Bound, b.statement = ⟨keyTwiceInsert, keyTwiceInsert.cql⟩ ∧
      keyTwiceInsert.layout.Distinct ∧
      (Store.empty.prepare keyTwiceInsert).1 = .ok b.statement ∧
      ((Store.empty.prepare keyTwiceInsert).2.execute b 0).1 =
        .error (.execution "no value bound for exchange") := by
  refine ⟨⟨⟨keyTwiceInsert, keyTwiceInsert.cql⟩, [.text "k", .text "k", .text "x"],
    by decide +kernel⟩, rfl, ?_, by decide +kernel, by decide +kernel⟩
  unfold Layout.Distinct
  decide +kernel

end GroupStore.Memory

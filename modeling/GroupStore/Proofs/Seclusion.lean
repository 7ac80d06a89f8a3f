import GroupStore.Proofs.Pairing
import GroupStore.Proofs.Shared
import GroupStore.Proofs.Confinement
import GroupStore.Proofs.SharedFile
import GroupStore.Proofs.Sqlite.View

/-!
# A repository beside another of its table

What a repository requests of a session is decided by what lies under its prefix, and a repository
under another prefix does not reach it.  On a memory session this is so for all repositories of a
table, on a database session for those that the key of the table sets apart.

* `Running.Owns` — the requests of a repository's calls;
* `Schema.Agree`, `Memory.SameUnder`, `Memory.secludes` — a memory session: states that agree on the
  groups of a schema;
* `Sqlite.SameView`, `Sqlite.secludes` — a database session: states in which a repository sees the
  same rows;
* `Definition.Fits.separates`, `Definition.Fits.unnumbers` — a table that has the columns and the
  key of both repositories sets them apart, and shows them no numbers of rows.
-/

namespace GroupStore

open Std

variable {S α : Type}

/-! ### Own requests -/

namespace Running

/-- A request of a call, for one of the repository's statements. -/
def Owns (r : Running S α) (b : Bound) : Prop :=
  (∃ call, r.Requests call b) ∧ ∃ kind, b.statement = r.statements.of kind

variable {r : Running S α}

theorem perform_owns (faithful : r.Faithful) (call : Call α) :
    (r.perform call).Asks fun _ b => r.Owns b := by
  have twin : Program.Twin (SameRequest r r) (r.perform call) (r.perform call) :=
    perform_twin rfl (fun _ => rfl) call
  refine ((perform_asks faithful call).and twin.asks).mono ?_
  rintro s b ⟨⟨-, requests⟩, b', kind, statementIs, -⟩
  exact ⟨⟨call, requests⟩, kind, statementIs⟩

/-- A template of a schema is of one kind. -/
theorem template_unique {b : Bound} {k k' : StatementKind} (h : b.template = r.schema.template k)
    (h' : b.template = r.schema.template k') : k = k' := by
  have kindEq := congrArg Template.kind (h.symm.trans h')
  rwa [r.schema.template_kind, r.schema.template_kind] at kindEq

end Running

/-! ### Contents under a prefix -/

namespace Schema

variable {s : Schema}

/-- Two contents agree on all groups of a schema. -/
def Agree (s : Schema) (c c' : Contents) : Prop :=
  ∀ group, c s.settings.table (s.composeKey group) = c' s.settings.table (s.composeKey group)

theorem Agree.set {c c' : Contents} (agree : s.Agree c c') (group : String) (v : Option Version) :
    s.Agree (c.set s.settings.table (s.composeKey group) v)
      (c'.set s.settings.table (s.composeKey group) v) := by
  intro g
  unfold Contents.set
  split
  · rfl
  · exact agree g

/-- What is listed under the prefix is the same in contents that agree. -/
theorem Agree.lists {c c' : Contents} (agree : s.Agree c c') {found : List (String × Version)}
    (lists : c.Lists s.settings.table s.prefixValues found) :
    c'.Lists s.settings.table s.prefixValues found := by
  refine ⟨lists.1, fun group v => ?_⟩
  have rowsEq : c s.settings.table (s.prefixValues ++ [.text group]) =
      c' s.settings.table (s.prefixValues ++ [.text group]) := agree group
  rw [lists.2, rowsEq]

end Schema

/-- An own request has the same answer on contents that agree, and leaves them so. -/
theorem Running.Requests.means_own {r : Running S α} {call : Call α} {b : Bound}
    (requests : r.Requests call b) {kind : StatementKind}
    (hb : b.template = r.schema.template kind) {now : Nat} {c₁ c₂ c₁' c₂' : Contents}
    {a₁ a₂ : ResultSet} (agree : r.schema.Agree c₁ c₂)
    (means₁ : r.schema.Means True now c₁ kind b.values a₁ c₁')
    (means₂ : r.schema.Means True now c₂ kind b.values a₂ c₂') :
    a₁ = a₂ ∧ r.schema.Agree c₁' c₂' := by
  have scans (k : kind = .selectKeyAndId) (values : b.values = r.schema.prefixValues) :
      a₁ = a₂ ∧ r.schema.Agree c₁' c₂' := by
    subst k
    rw [values] at means₁ means₂
    obtain ⟨found₁, lists₁, ordered₁, rfl, rfl⟩ := means₁
    obtain ⟨found₂, lists₂, ordered₂, rfl, rfl⟩ := means₂
    have foundEq := Sorted.eq_of_perm (ordered₁ trivial) (ordered₂ trivial)
      ((agree.lists lists₁).perm lists₂)
    exact ⟨by rw [foundEq], agree⟩
  cases call with
  | add key value =>
    obtain ⟨template, payload, -, values⟩ := requests
    obtain rfl := template_unique hb template
    obtain ⟨key₁, id₁, payload₁, values₁, rfl, rfl⟩ := means₁
    obtain ⟨key₂, id₂, payload₂, values₂, rfl, rfl⟩ := means₂
    obtain ⟨rfl, own₁⟩ := List.append_inj' (values₁.symm.trans values) rfl
    obtain ⟨rfl, own₂⟩ := List.append_inj' (values₂.symm.trans values) rfl
    cases own₁
    cases own₂
    exact ⟨rfl, agree.set key _⟩
  | get key =>
    obtain rfl := template_unique hb requests.1
    obtain ⟨rfl, rfl⟩ := means₁
    obtain ⟨rfl, rfl⟩ := means₂
    exact ⟨by rw [requests.2, agree key], agree⟩
  | remove key =>
    obtain rfl := template_unique hb requests.1
    obtain ⟨rfl, rfl⟩ := means₁
    obtain ⟨rfl, rfl⟩ := means₂
    rw [requests.2]
    exact ⟨rfl, agree.set key none⟩
  | getKeys => exact scans (template_unique hb requests.1) requests.2
  | scan => exact scans (template_unique hb requests.1) requests.2
  | confirm id =>
    rcases requests with scan | ⟨template, key, values⟩
    · exact scans (template_unique hb scan.1) scan.2
    · obtain rfl := template_unique hb template
      obtain ⟨key₁, id₁, values₁, rfl, rfl⟩ := means₁
      obtain ⟨key₂, id₂, values₂, rfl, rfl⟩ := means₂
      obtain ⟨rfl, own₁⟩ := List.append_inj' (values₁.symm.trans values) rfl
      obtain ⟨rfl, own₂⟩ := List.append_inj' (values₂.symm.trans values) rfl
      cases own₁
      cases own₂
      rw [agree key]
      refine ⟨rfl, ?_⟩
      split
      · exact agree.set key none
      · exact agree

/-- A request changes nothing but one of its repository's groups. -/
theorem Running.Requests.means_group {r : Running S α} {call : Call α} {b : Bound}
    (requests : r.Requests call b) {kind : StatementKind}
    (hb : b.template = r.schema.template kind) {inOrder : Prop} {now : Nat} {c c' : Contents}
    {answer : ResultSet} (means : r.schema.Means inOrder now c kind b.values answer c') :
    c' = c ∨ ∃ group v, c' = c.set r.schema.settings.table (r.schema.composeKey group) v := by
  have scans (k : kind = .selectKeyAndId) : c' = c := by
    subst k
    obtain ⟨-, -, -, -, contentsEq⟩ := means
    exact contentsEq
  cases call with
  | add key value =>
    obtain ⟨template, payload, -, values⟩ := requests
    obtain rfl := template_unique hb template
    obtain ⟨own, id, written, values', -, rfl⟩ := means
    obtain ⟨rfl, -⟩ := List.append_inj' (values'.symm.trans values) rfl
    exact .inr ⟨key, _, rfl⟩
  | get key =>
    obtain rfl := template_unique hb requests.1
    exact .inl means.2
  | remove key =>
    obtain rfl := template_unique hb requests.1
    refine .inr ⟨key, none, ?_⟩
    rw [means.2, requests.2]
  | getKeys => exact .inl (scans (template_unique hb requests.1))
  | scan => exact .inl (scans (template_unique hb requests.1))
  | confirm id =>
    rcases requests with scan | ⟨template, key, values⟩
    · exact .inl (scans (template_unique hb scan.1))
    · obtain rfl := template_unique hb template
      obtain ⟨own, id', values', -, rfl⟩ := means
      obtain ⟨rfl, -⟩ := List.append_inj' (values'.symm.trans values) rfl
      split
      · exact .inr ⟨key, none, rfl⟩
      · exact .inl rfl

/-- A request under another prefix leaves the groups of a schema as they are. -/
theorem Running.Requests.means_foreign {r : Running S α} {call : Call α} {b : Bound}
    (requests : r.Requests call b) {kind : StatementKind}
    (hb : b.template = r.schema.template kind) {inOrder : Prop} {now : Nat} {c c' : Contents}
    {answer : ResultSet} (means : r.schema.Means inOrder now c kind b.values answer c') {s : Schema}
    (differ : s.prefixValues ≠ r.schema.prefixValues) : s.Agree c' c := by
  intro group
  rcases requests.means_group hb means with rfl | ⟨other, v, rfl⟩
  · rfl
  · refine Contents.set_other c v fun tableEq => differ ?_
    exact (List.append_inj' tableEq.2 rfl).1

/-! ### Memory sessions -/

namespace Memory

/-- Two moments of a session at one reading that agree on the groups of a schema; in the first of
them another schema is served as well. -/
structure SameUnder (s t : Schema) (w v : Moment) : Prop where
  clock : w.now = v.now
  sound : w.store.Sound ∧ v.store.Sound
  holds : w.store.Holds s.layout ∧ v.store.Holds s.layout
  other : w.store.Holds t.layout
  agree : s.Agree (w.store.contents w.now) (v.store.contents v.now)

/-- What a request of a repository does: it has an answer, and does what its statement means. -/
theorem execute_owned {r : Running S α} {b : Bound} (owned : r.Owns b) {st : Store}
    (sound : st.Sound) (held : st.Holds r.schema.layout) (now : Nat) :
    ∃ call kind answer st', r.Requests call b ∧ b.template = r.schema.template kind ∧
      st.execute b now = (.ok answer, st') ∧ st'.Sound ∧ st.SameLayouts st' ∧
      r.schema.Means True now (st.contents now) kind b.values answer (st'.contents now) := by
  obtain ⟨⟨call, requests⟩, -⟩ := owned
  obtain ⟨kind, hb⟩ := Shared.Coherent.requests_template requests
  obtain ⟨answer, st', run, sound', layouts, means⟩ := Store.execute_means sound held hb now
  exact ⟨call, kind, answer, st', requests, hb, run, sound', layouts, means⟩

/-- On a memory session a repository under another prefix is secluded from. -/
theorem secludes (self : S) {a b : Running S α}
    (differ : a.schema.prefixValues ≠ b.schema.prefixValues) :
    Secludes (clocked self) (SameUnder a.schema b.schema) (fun _ x => a.Owns x)
      (fun _ x => b.Owns x) where
  later := by
    rintro delay ⟨st, now⟩ ⟨st', now'⟩ ⟨clock, sound, holds, other, agree⟩
    obtain rfl : now = now' := clock
    refine ⟨rfl, sound, holds, other, fun group => ?_⟩
    have order : now ≤ now + delay := Nat.le_add_right _ _
    have contentsEq := agree group
    show st.contents (now + delay) _ _ = st'.contents (now + delay) _ _
    rw [st.contents_later order, st'.contents_later order, contentsEq]
  own := by
    rintro session x ⟨st, now⟩ ⟨st', now'⟩ owned ⟨clock, sound, holds, other, agree⟩
    obtain rfl : now = now' := clock
    obtain ⟨call, kind, answer, after, requests, hb, run, good, layouts, means⟩ :=
      execute_owned owned sound.1 holds.1 now
    obtain ⟨-, kind', answer', after', -, hb', run', good', layouts', means'⟩ :=
      execute_owned owned sound.2 holds.2 now
    obtain rfl := Running.template_unique hb hb'
    obtain ⟨rfl, agree'⟩ := requests.means_own hb agree means means'
    simp only [clocked, host, run, run']
    exact ⟨trivial, rfl, ⟨good, good'⟩, ⟨(layouts _).mpr holds.1, (layouts' _).mpr holds.2⟩,
      (layouts _).mpr other, agree'⟩
  foreign := by
    rintro session x ⟨st, now⟩ ⟨st', now'⟩ owned ⟨clock, sound, holds, other, agree⟩
    obtain rfl : now = now' := clock
    obtain ⟨call, kind, answer, after, requests, hb, run, good, layouts, means⟩ :=
      execute_owned owned sound.1 other now
    have kept := requests.means_foreign hb means differ
    simp only [clocked, host, run]
    exact ⟨rfl, ⟨good, sound.2⟩, ⟨(layouts _).mpr holds.1, holds.2⟩, (layouts _).mpr other,
      fun group => (kept group).trans (agree group)⟩
  record := fun _ _ => rfl

end Memory

/-! ### Database sessions -/

namespace Sqlite

/-- Two moments of a session at one reading that look alike to a repository. -/
structure SameView (d : Definition) (s : Schema) (w v : Moment) : Prop where
  clock : w.now = v.now
  connection : w.connection = v.connection
  view : ∃ seen, w.database.viewOf s = some (d, seen) ∧ v.database.viewOf s = some (d, seen)

/-- On a database session a repository that the table's key sets apart is secluded from. -/
theorem secludes (self : S) {a b : Running S α} {d : Definition}
    (statements : ∀ kind, a.statements.of kind = preparedOf a.schema kind ∧
      b.statements.of kind = preparedOf b.schema kind)
    (table : b.schema.settings.table = a.schema.settings.table) (created : d.Created)
    (plain : d.Unnumbers a.schema ∧ d.Unnumbers b.schema)
    (separates : d.Separates a.schema b.schema) :
    Secludes (clocked self) (SameView d a.schema) (fun _ x => a.Owns x) (fun _ x => b.Owns x) where
  later := by
    rintro delay w v ⟨clock, connection, view⟩
    exact ⟨congrArg (· + delay) clock, connection, view⟩
  own := by
    rintro session x ⟨c, db, now⟩ ⟨c', db', now'⟩ ⟨⟨call, requests⟩, kind, prepared⟩
      ⟨clock, connection, seen, view, view'⟩
    obtain rfl : now = now' := clock
    obtain rfl : c = c' := connection
    obtain ⟨-, rest, -, values, -⟩ := requests.binds
    have own : x.statement = preparedOf a.schema kind := prepared.trans (statements kind).1
    simp only [clocked, host, execute]
    cases c.closed with
    | true => exact ⟨rfl, rfl, rfl, seen, view, view'⟩
    | false =>
      simp only [Bool.false_eq_true, if_false, runBound, own, sqlOf_preparedOf]
      rw [unresolved?_own _ _ (by rfl), unresolved?_own _ _ (by rfl)]
      rcases Database.run_own created plain.1 view view' values kind now with
        ⟨e, run, run'⟩ | ⟨answer, after, after', seen', run, run', kept, kept'⟩
      · simp only [run, run']
        exact ⟨trivial, rfl, rfl, seen, view, view'⟩
      · simp only [run, run']
        cases readAnswer x.template answer with
        | error failure => exact ⟨rfl, rfl, rfl, seen, view, view'⟩
        | ok result => exact ⟨rfl, rfl, rfl, seen', kept, kept'⟩
  foreign := by
    rintro session x ⟨c, db, now⟩ ⟨c', db', now'⟩ ⟨⟨call, requests⟩, kind, prepared⟩
      ⟨clock, connection, seen, view, view'⟩
    obtain ⟨-, rest, -, values, -⟩ := requests.binds
    have sql : sqlOf x.statement = .ok (b.schema.sql kind) := by
      rw [prepared, (statements kind).2, sqlOf_preparedOf]
    refine ⟨clock, connection, seen, ?_, view'⟩
    show (execute x now c db).2.viewOf a.schema = _
    unfold execute
    split
    · exact view
    · split
      · rename_i result after ran
        obtain ⟨sql', answer, known, run, -⟩ := runBound_eq_ok ran
        rw [sql] at known
        cases known
        exact Database.run_foreign table created plain.2 view separates values run
      · exact view
  record := fun _ _ => rfl

/-- Prefixes of the same columns and kinds that differ have different values in some column. -/
theorem exists_differing {es es' : List PrefixColumn}
    (specs : (es.map fun e => (⟨e.column, e.value.kind⟩ : ColumnSpec)) =
      es'.map fun e => ⟨e.column, e.value.kind⟩)
    (differ : es.map PrefixColumn.value ≠ es'.map PrefixColumn.value) :
    ∃ e ∈ es, ∃ e' ∈ es', e.column = e'.column ∧ e.value.kind = e'.value.kind ∧
      e.value ≠ e'.value := by
  induction es generalizing es' with
  | nil =>
    rw [List.map_eq_nil_iff.mp specs.symm] at differ
    exact absurd rfl differ
  | cons e rest ih =>
    obtain ⟨e', rest', rfl, first, others⟩ := List.map_eq_cons_iff.mp specs.symm
    obtain ⟨column, kind⟩ := ColumnSpec.mk.inj first
    by_cases valueEq : e.value = e'.value
    · obtain ⟨x, member, x', member', found⟩ := ih others.symm fun equal => differ (by
        rw [List.map_cons, List.map_cons, valueEq, equal])
      exact ⟨x, List.mem_cons_of_mem _ member, x', List.mem_cons_of_mem _ member', found⟩
    · exact ⟨e, List.mem_cons_self, e', List.mem_cons_self, column.symm, kind.symm, valueEq⟩

/-- Where columns differ beyond case, a prefix column is found under its name. -/
theorem fixed?_of_mem {s : Schema} (distinct : s.definition.Distinct) {e : PrefixColumn}
    (member : e ∈ s.settings.fixedPrefix.entries) :
    s.fixed? e.column.text = some e.value := by
  have apart : (s.settings.fixedPrefix.entries.map fun e => caseless e.column.text).Nodup := by
    have columns : s.definition.columns.map (fun column => caseless column.name) =
        (s.settings.fixedPrefix.entries.map fun e => caseless e.column.text) ++
          (((⟨s.keyColumn, .text⟩ : ColumnSpec) :: s.layout.regular).map
            fun spec => caseless spec.name.text) ++
            [caseless expiryColumn] := by
      rw [definition_columns, Layout.columns, s.layout_primaryKey, Schema.prefixSpecs]
      simp only [List.map_append, List.map_map, List.append_assoc]
      rfl
    rw [Definition.Distinct, columns, List.append_assoc, List.nodup_append] at distinct
    exact distinct.1
  rw [Schema.fixed?, find?_sameName (f := fun e : PrefixColumn => e.column.text) apart member]
  rfl

section Fits

variable {d : Definition} {s : Schema} (fits : d.Fits s.layout)

include fits

/-- A definition that differs from that of a layout at most in the name reads names as that does. -/
theorem Definition.Fits.isNumber (name : String) :
    d.isNumber name = s.definition.isNumber name := by
  obtain ⟨_, _, _⟩ := d
  obtain ⟨rfl, rfl⟩ := fits
  rfl

theorem Definition.Fits.convert (name : String) (c : Cell) :
    d.convert name c = s.definition.convert name c := by
  obtain ⟨_, _, _⟩ := d
  obtain ⟨rfl, rfl⟩ := fits
  rfl

variable (distinct : d.Distinct)

include distinct

theorem Definition.Fits.definition_distinct : s.definition.Distinct := by
  rw [Definition.Distinct, ← show d.columns = s.definition.columns from fits.1]
  exact distinct

/-- A table with the columns and the key of two repositories separates them. -/
theorem Definition.Fits.separates {t : Schema} (layouts : t.layout = s.layout)
    (differ : s.prefixValues ≠ t.prefixValues) : d.Separates s t := by
  have definitions : t.definition = s.definition := congrArg Definition.ofLayout layouts
  have own := fits.definition_distinct distinct
  have specs : s.prefixSpecs = t.prefixSpecs := by
    have keys := congrArg Layout.primaryKey layouts.symm
    rw [s.layout_primaryKey, t.layout_primaryKey] at keys
    exact (List.append_inj' keys rfl).1
  obtain ⟨e, member, e', member', column, kind, values⟩ := exists_differing specs differ
  have inside : (⟨e.column, e.value.kind⟩ : ColumnSpec) ∈ s.layout.primaryKey := by
    rw [s.layout_primaryKey]
    exact List.mem_append_left _ (List.mem_map_of_mem member)
  have stays (v : Value) (kindEq : v.kind = e.value.kind) :
      d.convert e.column.text (Cell.ofValue v) = Cell.ofValue v := by
    rw [fits.convert]
    exact convert_column (List.mem_append_left _ inside) own kindEq
  refine ⟨e.column.text, ?_, e.value, e'.value, fixed?_of_mem own member, ?_, fun measureEq => ?_⟩
  · rw [fits.2]
    exact List.mem_map_of_mem (f := fun spec : ColumnSpec => spec.name.text) inside
  · rw [column]
    exact fixed?_of_mem (definitions ▸ own) member'
  · rw [stays _ rfl, stays _ kind.symm] at measureEq
    exact values (measure_ofValue_inj.mp measureEq)

end Fits

end Sqlite

end GroupStore

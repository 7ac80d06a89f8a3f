import Mathlib.Data.List.Perm.Subperm
import GroupStore.Proofs.Sqlite.Statements

/-!
# Names and numbers of rows

What a statement reads of a row under names that do not stand for its number is decided by the row's
cells.  So a statement with such names only does not see by which numbers the rows of a table go,
nor which number a new row is given.

* `Sql.names`, `Definition.Unnumbered` — the names of a statement, and names that are no numbers;
* `Definition.cell_of_cells`, `Guard.admits_of_cells` — what is read under them;
* `Relation.nextNumber_notMem` — the number given to a row is none that the table has given before;
* `Relation.run_alike` — a statement on two tables of which some rows have the same cells.
-/

namespace GroupStore.Sqlite

/-! ### Names -/

/-- The names that a guard compares. -/
def Guard.names (g : Guard) : List String := g.equals ++ if g.live then [expiryColumn] else []

/-- The names that a statement reads or assigns to. -/
def Sql.names : Sql → List String
  | upsert _ columns => columns
  | select _ columns rows => columns ++ rows.names
  | delete _ rows => rows.names

/-- None of some names stands for the number of a row. -/
def Definition.Unnumbered (d : Definition) (names : List String) : Prop :=
  ∀ name ∈ names, d.isNumber name = false

section Congruence

variable {d : Definition} {a b : String} (namesAgree : sameName a b = true)

include namesAgree

theorem Definition.column?_congr (d : Definition) : d.column? a = d.column? b := by
  have names (column : Column) : sameName column.name a = sameName column.name b := by
    rw [sameName_comm, sameName_trans namesAgree, sameName_comm]
  simp only [column?, names]

theorem Definition.isNumber_congr (d : Definition) : d.isNumber a = d.isNumber b := by
  rw [isNumber, isNumber, d.column?_congr namesAgree, sameName_iff.mp namesAgree]

theorem Definition.hasColumn_congr (d : Definition) : d.hasColumn a = d.hasColumn b := by
  rw [hasColumn, hasColumn, d.column?_congr namesAgree]

/-- What the name of a column stands for depends on it but for the case. -/
theorem Definition.cell_congr (known : d.hasColumn b = true) (row : Record) :
    d.cell row a = d.cell row b := by
  have names (entry : Column × Cell) : sameName entry.1.name a = sameName entry.1.name b := by
    rw [sameName_comm, sameName_trans namesAgree, sameName_comm]
  simp only [cell, d.isNumber_congr namesAgree, d.hasColumn_congr namesAgree, known, if_true, names]

theorem Definition.convert_congr (d : Definition) (c : Cell) : d.convert a c = d.convert b c := by
  simp only [convert, d.isNumber_congr namesAgree, d.column?_congr namesAgree]

end Congruence

/-! ### What is read of a row -/

section Cells

variable {d : Definition} {row row' : Record} (cells : row.cells = row'.cells)

include cells

theorem Definition.cell_of_cells {name : String} (plain : d.isNumber name = false) :
    d.cell row name = d.cell row' name := by
  rw [cell, cell, plain, if_neg Bool.false_ne_true, if_neg Bool.false_ne_true, cells]

theorem Definition.matches_of_cells {names : List String} (plain : d.Unnumbered names)
    (parameters : List Cell) :
      d.matches row names parameters = d.matches row' names parameters := by
  induction names generalizing parameters with
  | nil => rfl
  | cons name rest ih =>
    cases parameters with
    | nil => rfl
    | cons c others =>
      rw [Definition.matches, Definition.matches,
        Definition.cell_of_cells cells (plain name List.mem_cons_self),
        ih (fun name member => plain name (List.mem_cons_of_mem _ member))]

theorem Definition.isLive_of_cells (plain : d.isNumber expiryColumn = false) (now : Int) :
    d.isLive row now = d.isLive row' now := by
  rw [isLive, isLive, Definition.cell_of_cells cells plain]

theorem Guard.admits_of_cells {g : Guard} (plain : d.Unnumbered g.names) (parameters : List Cell) :
    g.admits d parameters row = g.admits d parameters row' := by
  have equal := Definition.matches_of_cells cells
    (fun name member => plain name (List.mem_append_left _ member)) parameters
  rw [admits, admits, equal]
  cases live : g.live with
  | false => rfl
  | true =>
    have hidden : expiryColumn ∈ g.names := by simp [names, live]
    rw [Definition.isLive_of_cells cells (plain _ hidden)]

/-- Whether a row has the key of one with another number is decided by the cells of the two. -/
theorem Definition.sameKey_of_cells {n n' : Int} (new : Cells) (differ : row.number ≠ n)
    (differ' : row'.number ≠ n') : d.sameKey row ⟨n, new⟩ = d.sameKey row' ⟨n', new⟩ := by
  have apart {i j : Int} (other : i ≠ j) : (Cell.integer i).sameAs (.integer j) = false := by
    simp [Cell.sameAs, Cell.measure, other]
  refine List.all_congr rfl fun name => ?_
  cases number : d.isNumber name with
  | true => simp only [cell, number, if_true, apart differ, apart differ']
  | false =>
    have news : d.cell ⟨n, new⟩ name = d.cell ⟨n', new⟩ name :=
      Definition.cell_of_cells (by rfl) number
    rw [Definition.cell_of_cells cells number, news]

end Cells

/-! ### Numbers of rows -/

/-- Among one number more than are taken there is one that is not. -/
theorem firstFree_notMem (taken : List Int) : firstFree taken ∉ taken := by
  let candidates := (List.range (taken.length + 1)).map fun i : Nat => (i : Int) + 1
  have chosen : firstFree taken = (candidates.find? fun n => !taken.contains n).getD 1 := rfl
  cases found : candidates.find? fun n => !taken.contains n with
  | some n =>
    rw [chosen, found]
    simpa using List.find?_some found
  | none =>
    have distinct : candidates.Nodup :=
      List.Pairwise.map _ (fun i j differ sumEq => differ (by omega)) List.nodup_range
    have all : candidates ⊆ taken := fun n member => by
      simpa using List.find?_eq_none.mp found n member
    have tooMany := (List.subperm_of_subset distinct all).length_le
    simp only [candidates, List.length_map, List.length_range] at tooMany
    omega

/-- The number that a table gives a row is none that it has given before. -/
theorem Relation.nextNumber_notMem (r : Relation) :
    r.nextNumber ∉ r.rows.map Record.number := by
  unfold Relation.nextNumber
  split
  · rename_i rowless
    rw [List.max?_eq_none_iff.mp rowless]
    exact List.not_mem_nil
  · rename_i last greatest
    split
    · intro taken
      have below := (List.max?_eq_some_iff.mp greatest).2 _ taken
      omega
    · exact firstFree_notMem _

theorem Relation.number_ne_next {r : Relation} {row : Record} (present : row ∈ r.rows) :
    row.number ≠ r.nextNumber := fun numberEq =>
  r.nextNumber_notMem (numberEq ▸ List.mem_map_of_mem (f := Record.number) present)

/-- So a row with that number takes the place of those of its key only. -/
theorem Relation.replaces_next {r : Relation} (d : Definition) {old : Record}
    (present : old ∈ r.rows)
    (cells : Cells) :
    d.replaces ⟨r.nextNumber, cells⟩ old = d.sameKey old ⟨r.nextNumber, cells⟩ := by
  rw [Definition.replaces, decide_eq_false (number_ne_next present), Bool.false_or]

/-! ### Lists with one image -/

section Images

variable {α β γ : Type} {f : α → γ} {g : β → γ} {xs : List α} {ys : List β}

/-- Two lists with one image have one image under whatever depends on it only. -/
theorem map_eq_map_of {δ : Type} {h : α → δ} {k : β → δ} (imagesEq : xs.map f = ys.map g)
    (each : ∀ x ∈ xs, ∀ y ∈ ys, f x = g y → h x = k y) : xs.map h = ys.map k := by
  induction xs generalizing ys with
  | nil =>
    rw [List.map_nil, eq_comm, List.map_eq_nil_iff] at imagesEq
    rw [imagesEq, List.map_nil, List.map_nil]
  | cons x xs ih =>
    cases ys with
    | nil => cases imagesEq
    | cons y ys =>
      obtain ⟨first, others⟩ := List.cons.inj imagesEq
      rw [List.map_cons, List.map_cons, each x List.mem_cons_self y List.mem_cons_self first,
        ih others fun x inX y inY => each x (List.mem_cons_of_mem _ inX) y
          (List.mem_cons_of_mem _ inY)]

/-- Two lists with one image keep one under filters that depend on it only. -/
theorem map_filter_of {p : α → Bool} {q : β → Bool} (imagesEq : xs.map f = ys.map g)
    (each : ∀ x ∈ xs, ∀ y ∈ ys, f x = g y → p x = q y) :
    (xs.filter p).map f = (ys.filter q).map g := by
  induction xs generalizing ys with
  | nil =>
    rw [List.map_nil, eq_comm, List.map_eq_nil_iff] at imagesEq
    rw [imagesEq, List.filter_nil, List.filter_nil, List.map_nil, List.map_nil]
  | cons x xs ih =>
    cases ys with
    | nil => cases imagesEq
    | cons y ys =>
      obtain ⟨first, others⟩ := List.cons.inj imagesEq
      have later := ih others fun x inX y inY => each x (List.mem_cons_of_mem _ inX) y
        (List.mem_cons_of_mem _ inY)
      rw [List.filter_cons, List.filter_cons,
        each x List.mem_cons_self y List.mem_cons_self first]
      split
      · rw [List.map_cons, List.map_cons, first, later]
      · exact later

end Images

/-! ### Statements on tables that look alike -/

/-- The row that an insert writes, by its number. -/
def Definition.newRow (d : Definition) (columns : List String) (parameters : List Cell)
    (number : Int) : Record :=
  ⟨number, d.cellsOf columns parameters⟩

/-- An insert takes away what its row replaces, and appends the row. -/
theorem Relation.run_upsert {r r' : Relation} {table : String} {columns : List String}
    {ps : List Cell} {answer : Answer} (run : r.run (.upsert table columns) ps = .ok (answer, r')) :
    ∃ number, r.numberFor? columns ps = some number ∧
      r.definition.missing? (r.definition.cellsOf columns ps) = none ∧
      r' = { r with
        rows := r.rows.filter (fun old =>
          !r.definition.replaces (r.definition.newRow columns ps number) old) ++
            [r.definition.newRow columns ps number] } := by
  simp only [Relation.run] at run
  split at run
  · cases run
  · rename_i number given
    split at run
    · cases run
    · rename_i complete
      cases run
      exact ⟨number, given, complete, rfl⟩

/-- An insert that assigns to no number leaves it to the table. -/
theorem Relation.numberFor?_plain {r : Relation} {columns : List String}
    (plain : r.definition.Unnumbered columns) (parameters : List Cell) :
    r.numberFor? columns parameters = some r.nextNumber := by
  have others :
      ((columns.zip parameters).filter fun entry => r.definition.isNumber entry.1) = [] := by
    rw [List.filter_eq_nil_iff]
    intro entry member
    rw [plain _ (List.of_mem_zip (a := entry.1) (b := entry.2) member).1]
    exact Bool.false_ne_true
  rw [numberFor?, Definition.assignedNumber?, others]
  rfl

theorem length_sub_kept (rows : List Record) (taken : Record → Bool) :
    rows.length - (rows.filter fun row => !taken row).length = (rows.filter taken).length := by
  rw [List.length_eq_length_filter_add taken, Nat.add_sub_cancel]

/-- What picks among the chosen rows only picks the same of these as of all. -/
theorem filter_within {chosen q : Record → Bool} (within : ∀ row, q row = true → chosen row = true)
    (rows : List Record) : (rows.filter chosen).filter q = rows.filter q := by
  rw [List.filter_filter]
  refine List.filter_congr fun row _ => ?_
  cases picked : q row with
  | false => rfl
  | true => exact within row picked

/-- Whether a statement works on chosen rows only. -/
def Sql.Within (sql : Sql) (d : Definition) (parameters : List Cell)
    (chosen : Record → Bool) : Prop :=
  match sql with
  | upsert _ _ => True
  | select _ _ rows | delete _ rows =>
    ∀ row, rows.admits d parameters row = true → chosen row = true

section Alike

variable {d : Definition} {chosen : Record → Bool} {rows₁ rows₂ : List Record}
  (alike : (rows₁.filter chosen).map Record.cells = (rows₂.filter chosen).map Record.cells)

include alike

/-- What picks among the chosen rows by their cells picks the same of both. -/
theorem picked_alike {q : Record → Bool} (within : ∀ row, q row = true → chosen row = true)
    (byCells : ∀ row row' : Record, row.cells = row'.cells → q row = q row') :
    (rows₁.filter q).map Record.cells = (rows₂.filter q).map Record.cells := by
  rw [← filter_within within rows₁, ← filter_within within rows₂]
  exact map_filter_of alike fun row _ row' _ => byCells row row'

/-- A statement whose names stand for no numbers fails on both of two tables of which the chosen
rows have the same cells, or it leaves such tables; its answers are the same if it works on the
chosen rows only. -/
theorem Relation.run_alike (byCells : ∀ row row' : Record, row.cells = row'.cells →
    chosen row = chosen row') {sql : Sql} (plain : d.Unnumbered sql.names) (ps : List Cell) :
    (∃ e, Relation.run ⟨d, rows₁⟩ sql ps = .error e ∧ Relation.run ⟨d, rows₂⟩ sql ps = .error e) ∨
      ∃ answer₁ answer₂ rows₁' rows₂', Relation.run ⟨d, rows₁⟩ sql ps = .ok (answer₁, ⟨d, rows₁'⟩) ∧
        Relation.run ⟨d, rows₂⟩ sql ps = .ok (answer₂, ⟨d, rows₂'⟩) ∧
        (rows₁'.filter chosen).map Record.cells = (rows₂'.filter chosen).map Record.cells ∧
        (sql.Within d ps chosen → answer₁ = answer₂) := by
  cases sql with
  | upsert table columns =>
    have number (rows : List Record) : Relation.numberFor? ⟨d, rows⟩ columns ps =
        some (Relation.nextNumber ⟨d, rows⟩) := Relation.numberFor?_plain plain ps
    simp only [Relation.run, number]
    cases d.missing? (d.cellsOf columns ps) with
    | some column => exact .inl ⟨_, rfl, rfl⟩
    | none =>
      refine .inr ⟨_, _, _, _, rfl, rfl, ?_, fun _ => rfl⟩
      have replaced : ∀ old ∈ rows₁.filter chosen, ∀ old' ∈ rows₂.filter chosen,
          old.cells = old'.cells →
          (!d.replaces ⟨Relation.nextNumber ⟨d, rows₁⟩, d.cellsOf columns ps⟩ old) =
            !d.replaces ⟨Relation.nextNumber ⟨d, rows₂⟩, d.cellsOf columns ps⟩ old' := by
        intro old member old' member' cells
        have present : old ∈ (Relation.mk d rows₁).rows := (List.mem_filter.mp member).1
        have present' : old' ∈ (Relation.mk d rows₂).rows := (List.mem_filter.mp member').1
        rw [Relation.replaces_next d present, Relation.replaces_next d present',
          Definition.sameKey_of_cells cells _ (Relation.number_ne_next present)
            (Relation.number_ne_next present')]
      rw [List.filter_append, List.filter_append, List.map_append, List.map_append,
        List.filter_comm, map_filter_of alike replaced, List.filter_comm chosen]
      refine congrArg _ (map_filter_of rfl fun row own row' own' _ => byCells row row' ?_)
      rw [List.mem_singleton.mp own, List.mem_singleton.mp own']
  | select table columns rows =>
    refine .inr ⟨_, _, _, _, rfl, rfl, alike, fun within => ?_⟩
    have picked := picked_alike alike within fun row row' cells => Guard.admits_of_cells cells
      (fun name member => plain name (List.mem_append_right _ member)) ps
    refine congrArg (Answer.mk · 0) (map_eq_map_of picked fun row _ row' _ cells => ?_)
    refine List.map_congr_left fun name member => Definition.cell_of_cells cells ?_
    exact plain name (List.mem_append_left _ member)
  | delete table rows =>
    have admits (row row' : Record) (cells : row.cells = row'.cells) :
        rows.admits d ps row = rows.admits d ps row' := Guard.admits_of_cells cells plain ps
    refine .inr ⟨_, _, _, _, rfl, rfl, ?_, fun within => ?_⟩
    · rw [List.filter_comm, map_filter_of alike fun row _ row' _ cells =>
        congrArg not (admits row row' cells), List.filter_comm]
    · have picked := congrArg List.length (picked_alike alike within admits)
      rw [List.length_map, List.length_map] at picked
      rw [length_sub_kept, length_sub_kept, picked]

end Alike

/-! ### Statements that number their rows -/

/-- Whether an insert gives its row a number itself; other statements write no rows. -/
def Sql.Numbers (sql : Sql) (d : Definition) (parameters : List Cell) : Prop :=
  match sql with
  | upsert _ columns => ∃ c, d.assignedNumber? columns parameters = some c ∧ c ≠ .null
  | _ => True

section Numbers

variable {d : Definition} {chosen : Record → Bool} {rows₁ rows₂ : List Record}

/-- The number that an insert gives its row does not depend on the other rows. -/
theorem Relation.numberFor?_numbers (rows₁ rows₂ : List Record) {table : String}
    {columns : List String} {ps : List Cell} (numbers : (Sql.upsert table columns).Numbers d ps) :
    Relation.numberFor? ⟨d, rows₁⟩ columns ps = Relation.numberFor? ⟨d, rows₂⟩ columns ps := by
  obtain ⟨c, assigned, present⟩ := numbers
  simp only [numberFor?, assigned]

/-- A statement that numbers what it writes fails on both of two tables with the same chosen rows,
or it leaves such tables; its answers are the same if it works on the chosen rows only. -/
theorem Relation.run_numbers (filterEq : rows₁.filter chosen = rows₂.filter chosen) {sql : Sql}
    {ps : List Cell} (numbers : sql.Numbers d ps) :
    (∃ e, Relation.run ⟨d, rows₁⟩ sql ps = .error e ∧ Relation.run ⟨d, rows₂⟩ sql ps = .error e) ∨
      ∃ answer₁ answer₂ rows₁' rows₂', Relation.run ⟨d, rows₁⟩ sql ps = .ok (answer₁, ⟨d, rows₁'⟩) ∧
        Relation.run ⟨d, rows₂⟩ sql ps = .ok (answer₂, ⟨d, rows₂'⟩) ∧
        rows₁'.filter chosen = rows₂'.filter chosen ∧
        (sql.Within d ps chosen → answer₁ = answer₂) := by
  have picked (q : Record → Bool) (within : ∀ row, q row = true → chosen row = true) :
      rows₁.filter q = rows₂.filter q := by
    rw [← filter_within within rows₁, filterEq, filter_within within]
  cases sql with
  | upsert table columns =>
    simp only [Relation.run, Relation.numberFor?_numbers rows₁ rows₂ numbers]
    cases Relation.numberFor? ⟨d, rows₂⟩ columns ps with
    | none => exact .inl ⟨_, rfl, rfl⟩
    | some number =>
      simp only
      cases d.missing? (d.cellsOf columns ps) with
      | some column => exact .inl ⟨_, rfl, rfl⟩
      | none =>
        refine .inr ⟨_, _, _, _, rfl, rfl, ?_, fun _ => rfl⟩
        rw [List.filter_append, List.filter_append, List.filter_comm, filterEq, List.filter_comm]
  | select table columns rows =>
    refine .inr ⟨_, _, _, _, rfl, rfl, filterEq, fun within => ?_⟩
    rw [picked _ within]
  | delete table rows =>
    refine .inr ⟨_, _, _, _, rfl, rfl, ?_, fun within => ?_⟩
    · rw [List.filter_comm, filterEq, List.filter_comm]
    · rw [length_sub_kept, length_sub_kept, picked _ within]

end Numbers

end GroupStore.Sqlite

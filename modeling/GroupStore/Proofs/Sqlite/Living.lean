import Mathlib.Data.List.Basic
import GroupStore.Proofs.Reports
import GroupStore.Proofs.Sqlite.File

/-!
# What is seen of a database

A row that has expired at one moment has expired at every later one, and no statement that a session
translates answers from it.  What is left to see of a table is the cells of the rows that live, and
their numbers where some statement names them.  Files of which the same is seen answer alike, and
the same is seen of them afterwards.

* `Definition.isExpired`, `Relation.living`, `File.living` — what has expired at a moment and what
  lives then;
* `Relation.sight`, `Database.sight`, `File.Alike` — what is seen of tables, of databases, and of
  two files;
* `Sql.Minds`, `Database.run_sight` — statements that see numbers of rows only where these matter;
* `Bound.Own`, `File.Alike.next` — requests of programs that keep to statements as a session
  translates them.
-/

namespace GroupStore.Sqlite

/-! ### Moments -/

theorem reading_mono {now later : Nat} (order : now ≤ later) : reading now ≤ reading later := by
  unfold reading
  omega

/-- Whether a row has expired at a moment. -/
def Definition.isExpired (d : Definition) (row : Record) (moment : Int) : Bool :=
  match d.cell row expiryColumn with
  | .null => false
  | expiry => !expiry.above moment

theorem Definition.isLive_eq (d : Definition) (row : Record) (moment : Int) :
    d.isLive row moment = !d.isExpired row moment := by
  unfold isLive isExpired
  cases d.cell row expiryColumn <;> simp

/-- What lies above a moment lies above every earlier one. -/
theorem Cell.above_earlier {c : Cell} {moment later : Int} (order : moment ≤ later)
    (above : c.above later = true) : c.above moment = true := by
  cases c with
  | null => cases above
  | integer expiry => exact decide_eq_true (Int.lt_of_le_of_lt order (of_decide_eq_true above))
  | real expiry =>
    have order' : (moment : Rat) ≤ later := by exact_mod_cast order
    refine decide_eq_true (Rat.not_le.mp fun below => ?_)
    exact Rat.not_le.mpr (of_decide_eq_true above) (Rat.le_trans below order')
  | infinite negative => exact above
  | text s => rfl
  | blob bytes => rfl

/-- What lives at a moment lived at every earlier one. -/
theorem Definition.isLive_earlier {d : Definition} {row : Record} {moment later : Int}
    (order : moment ≤ later) (live : d.isLive row later = true) : d.isLive row moment = true := by
  unfold isLive at live ⊢
  cases cell : d.cell row expiryColumn with
  | null => rfl
  | _ =>
    rw [cell] at live
    exact Cell.above_earlier order live

/-! ### What lives -/

/-- A table with its rows that live at a moment. -/
def Relation.living (r : Relation) (moment : Int) : Relation :=
  { r with rows := r.rows.filter fun row => r.definition.isLive row moment }

/-- The rows of a table that have expired at a moment. -/
def Relation.expired (r : Relation) (moment : Int) : List Record :=
  r.rows.filter fun row => r.definition.isExpired row moment

theorem Relation.living_living (r : Relation) {moment later : Int} (order : moment ≤ later) :
    (r.living moment).living later = r.living later := by
  simp only [living, List.filter_filter, Relation.mk.injEq, true_and]
  refine List.filter_congr fun row _ => ?_
  cases live : r.definition.isLive row later with
  | false => rfl
  | true => rw [Definition.isLive_earlier order live, Bool.and_self]

@[simp] theorem Relation.living_self (r : Relation) (moment : Int) :
    (r.living moment).living moment = r.living moment := r.living_living (Int.le_refl moment)

theorem Relation.expired_living (r : Relation) (moment : Int) :
    (r.living moment).expired moment = [] := by
  simp only [living, expired, List.filter_filter, List.filter_eq_nil_iff, Definition.isLive_eq,
    Bool.and_not_self, Bool.false_eq_true, not_false_eq_true, implies_true]

theorem Relation.length_living (r : Relation) (moment : Int) :
    r.rows.length = (r.expired moment).length + (r.living moment).rows.length := by
  simp only [living, Definition.isLive_eq]
  exact List.length_eq_length_filter_add _

namespace Database

/-- A database with the rows that live at a moment. -/
def living (db : Database) (moment : Int) : Database := ⟨db.relations.map (·.living moment)⟩

/-- Putting a table in its own place changes nothing. -/
theorem Apart.replace_self {db : Database} (apart : db.Apart) {name : String} {r : Relation}
    (found : db.relation? name = some r) : db.replace name r = db := by
  suffices relationsEq : (db.relations.map fun old =>
      if sameName old.definition.name name then r else old) = db.relations from
    congrArg Database.mk relationsEq
  refine (List.map_congr_left fun old member => ?_).trans (List.map_id _)
  by_cases own : sameName old.definition.name name = true
  · rw [if_pos own, apart.eq_of_relation? found member own, id_eq]
  · rw [if_neg own, id_eq]

end Database

/-! ### What is seen -/

/-- A row as it is seen: with its number, where numbers matter. -/
def Record.face (numbered : Bool) (row : Record) : Option Int × Cells :=
  (if numbered then some row.number else none, row.cells)

theorem Record.face_numbered {row row' : Record} (faceEq : row.face true = row'.face true) :
    row = row' := by
  obtain ⟨number, cells⟩ := Prod.mk.inj faceEq
  obtain ⟨n, cs⟩ := row
  obtain ⟨n', cs'⟩ := row'
  simp_all

theorem Record.map_face_plain {rows rows' : List Record} :
    rows.map (face false) = rows'.map (face false) ↔ rows.map cells = rows'.map cells := by
  have split (rows : List Record) : rows.map (face false) =
      (rows.map cells).map (Prod.mk none) := by
    rw [List.map_map]
    rfl
  rw [split, split]
  exact List.map_inj_right fun _ _ pairEq => (Prod.mk.inj pairEq).2

section Sight

variable {numbered : Definition → Bool} {moment : Int}

/-- What is seen of a table at a moment, and by which definition; `numbered` says of which tables
the numbers matter. -/
def Relation.sight (numbered : Definition → Bool) (moment : Int) (r : Relation) :
    Definition × List (Option Int × Cells) :=
  (r.definition, (r.living moment).rows.map (Record.face (numbered r.definition)))

/-- Tables of which the same is seen have one definition. -/
theorem Relation.exists_of_sight {r r' : Relation}
    (sightEq : r.sight numbered moment = r'.sight numbered moment) :
    ∃ d rows rows', r = ⟨d, rows⟩ ∧ r' = ⟨d, rows'⟩ := by
  obtain ⟨d, rows⟩ := r
  obtain ⟨d', rows'⟩ := r'
  obtain rfl : d = d' := congrArg Prod.fst sightEq
  exact ⟨d, rows, rows', rfl, rfl⟩

/-- Where the same is seen, the same is seen later. -/
theorem Relation.sight_later {r r' : Relation} (created : r.definition.Created) {later : Int}
    (order : moment ≤ later) (sightEq : r.sight numbered moment = r'.sight numbered moment) :
    r.sight numbered later = r'.sight numbered later := by
  obtain ⟨d, rows, rows', rfl, rfl⟩ := Relation.exists_of_sight sightEq
  have live : ∀ row row' : Record, row.face (numbered d) = row'.face (numbered d) →
      d.isLive row later = d.isLive row' later := fun row row' faces =>
    Definition.isLive_of_cells (congrArg Prod.snd faces) created.isNumber_expiry later
  rw [sight, sight, ← Relation.living_living _ order, ← (Relation.mk d rows').living_living order]
  exact congrArg (Prod.mk d)
    (map_filter_of (congrArg Prod.snd sightEq) fun row _ row' _ => live row row')

/-- How a statement minds the numbers of the rows of a table: where they matter it gives each row
that it writes its number itself, and elsewhere none of its names stands for one. -/
def Sql.Minds (sql : Sql) (d : Definition) (numbered : Bool) (ps : List Cell) : Prop :=
  if numbered then sql.Numbers d ps else d.Unnumbered sql.names

/-- Whether a statement, with some parameters, answers from the rows alone that live at a moment. -/
def Sql.Looks (moment : Int) (ps : List Cell) : Sql → Prop
  | upsert _ _ => True
  | select _ _ rows | delete _ rows => rows.live = true ∧ rows.reading ps = moment

theorem Guard.isLive_of_admits {g : Guard} {d : Definition} {ps : List Cell} {row : Record}
    (live : g.live = true) (admits : g.admits d ps row = true) :
    d.isLive row (g.reading ps) = true := by
  rw [Guard.admits, live, Bool.not_true, Bool.false_or, Bool.and_eq_true] at admits
  exact admits.2

theorem Sql.Looks.within {sql : Sql} {ps : List Cell} (looks : sql.Looks moment ps)
    (d : Definition) : sql.Within d ps fun row => d.isLive row moment := by
  cases sql with
  | upsert table columns => trivial
  | select table columns rows =>
    exact fun row admits => looks.2 ▸ Guard.isLive_of_admits looks.1 admits
  | delete table rows => exact fun row admits => looks.2 ▸ Guard.isLive_of_admits looks.1 admits

/-- A statement that minds the numbers of rows fails on both of two tables of which the same is
seen, or the same is seen of both afterwards; the answers are the same if it answers from what
lives. -/
theorem Relation.run_sight {d : Definition} {rows₁ rows₂ : List Record} (created : d.Created)
    (sightEq :
      Relation.sight numbered moment ⟨d, rows₁⟩ = Relation.sight numbered moment ⟨d, rows₂⟩)
    {sql : Sql} {ps : List Cell} (minds : sql.Minds d (numbered d) ps) :
    (∃ e, Relation.run ⟨d, rows₁⟩ sql ps = .error e ∧ Relation.run ⟨d, rows₂⟩ sql ps = .error e) ∨
      ∃ answer₁ answer₂ rows₁' rows₂', Relation.run ⟨d, rows₁⟩ sql ps = .ok (answer₁, ⟨d, rows₁'⟩) ∧
        Relation.run ⟨d, rows₂⟩ sql ps = .ok (answer₂, ⟨d, rows₂'⟩) ∧
        Relation.sight numbered moment ⟨d, rows₁'⟩ = Relation.sight numbered moment ⟨d, rows₂'⟩ ∧
        (sql.Looks moment ps → answer₁ = answer₂) := by
  have seen : (rows₁.filter fun row => d.isLive row moment).map (Record.face (numbered d)) =
      (rows₂.filter fun row => d.isLive row moment).map (Record.face (numbered d)) :=
    congrArg Prod.snd sightEq
  unfold Sql.Minds at minds
  cases matter : numbered d with
  | true =>
    rw [matter] at seen
    rw [matter, if_pos rfl] at minds
    have rows := (List.map_inj_right fun _ _ => Record.face_numbered).mp seen
    rcases Relation.run_numbers rows minds with
      failed | ⟨answer₁, answer₂, rows₁', rows₂', run₁, run₂, after, answers⟩
    · exact .inl failed
    · exact .inr ⟨answer₁, answer₂, rows₁', rows₂', run₁, run₂,
        congrArg (fun rows : List Record => (d, rows.map (Record.face (numbered d)))) after,
        fun looks => answers (looks.within d)⟩
  | false =>
    rw [matter] at seen
    rw [matter, if_neg Bool.false_ne_true] at minds
    rcases Relation.run_alike (Record.map_face_plain.mp seen)
        (fun row row' cells => Definition.isLive_of_cells cells created.isNumber_expiry moment)
        minds ps with
      failed | ⟨answer₁, answer₂, rows₁', rows₂', run₁, run₂, after, answers⟩
    · exact .inl failed
    · refine .inr ⟨answer₁, answer₂, rows₁', rows₂', run₁, run₂, ?_,
        fun looks => answers (looks.within d)⟩
      refine congrArg (Prod.mk d) ?_
      show List.map (Record.face (numbered d)) _ = List.map (Record.face (numbered d)) _
      rw [matter]
      exact Record.map_face_plain.mpr after

namespace Database

/-- What is seen of the tables of a database. -/
def sight (numbered : Definition → Bool) (moment : Int) (db : Database) :
    List (Definition × List (Option Int × Cells)) :=
  db.relations.map (Relation.sight numbered moment)

/-- All tables of a database were created by sessions. -/
def AllCreated (db : Database) : Prop := ∀ r ∈ db.relations, r.definition.Created

variable {db db' : Database}

/-- Where the same lives, the same is seen. -/
theorem sight_of_living (livingEq : db.living moment = db'.living moment) :
    db.sight numbered moment = db'.sight numbered moment := by
  have split (db : Database) : db.sight numbered moment = (db.living moment).relations.map fun r =>
      (r.definition, r.rows.map (Record.face (numbered r.definition))) := by
    rw [living, List.map_map]
    rfl
  rw [split, split, livingEq]

theorem sight_later (created : db.AllCreated) {later : Int} (order : moment ≤ later)
    (sightEq : db.sight numbered moment = db'.sight numbered moment) :
    db.sight numbered later = db'.sight numbered later :=
  map_eq_map_of sightEq fun r member _ _ => Relation.sight_later (created r member) order

variable (sightEq : db.sight numbered moment = db'.sight numbered moment)

include sightEq

theorem length_sight : db.relations.length = db'.relations.length := by
  simpa [sight] using congrArg List.length sightEq

/-- There is no table of a name in either database, or the same is seen of the two. -/
theorem relation?_sight (name : String) :
    (db.relation? name = none ∧ db'.relation? name = none) ∨
      ∃ d rows rows', db.relation? name = some ⟨d, rows⟩ ∧ db'.relation? name = some ⟨d, rows'⟩ ∧
        Relation.sight numbered moment ⟨d, rows⟩ = Relation.sight numbered moment ⟨d, rows'⟩ := by
  have find (db : Database) : (db.relation? name).map (Relation.sight numbered moment) =
      (db.sight numbered moment).find? fun seen => sameName seen.1.name name := by
    rw [sight, List.find?_map]
    rfl
  have both := (find db).trans ((congrArg _ sightEq).trans (find db').symm)
  cases found : db.relation? name with
  | none =>
    rw [found, Option.map_none, eq_comm, Option.map_eq_none_iff] at both
    exact .inl ⟨rfl, both⟩
  | some r =>
    rw [found, Option.map_some, eq_comm] at both
    obtain ⟨r', found', seen⟩ := Option.map_eq_some_iff.mp both
    obtain ⟨d, rows', rows, rfl, rfl⟩ := Relation.exists_of_sight seen
    exact .inr ⟨d, rows, rows', rfl, found', seen.symm⟩

/-- Tables of which the same is seen may be put in the place of others. -/
theorem sight_replace (name : String) {r r' : Relation}
    (seen : r.sight numbered moment = r'.sight numbered moment) :
    (db.replace name r).sight numbered moment = (db'.replace name r').sight numbered moment := by
  have put (db : Database) (r : Relation) : (db.replace name r).sight numbered moment =
      (db.sight numbered moment).map fun old =>
        if sameName old.1.name name then r.sight numbered moment else old := by
    simp only [sight, replace, List.map_map]
    refine List.map_congr_left fun old _ => ?_
    simp only [Function.comp_apply, apply_ite (Relation.sight numbered moment)]
    rfl
  rw [put, put, sightEq, seen]

/-- A statement that minds the numbers of rows fails on both of two databases of which the same is
seen, or the same is seen of both afterwards; the answers are the same if it answers from what
lives. -/
theorem run_sight (created : db.AllCreated) {sql : Sql} {ps : List Cell}
    (minds : ∀ r, db.relation? sql.table = some r →
      sql.Minds r.definition (numbered r.definition) ps) :
    (∃ e, db.run sql ps = .error e ∧ db'.run sql ps = .error e) ∨
      ∃ answer after answer' after', db.run sql ps = .ok (answer, after) ∧
        db'.run sql ps = .ok (answer', after') ∧
        after.sight numbered moment = after'.sight numbered moment ∧
        ((ps.length = sql.parameters → sql.Looks moment ps) → answer = answer') := by
  simp only [run]
  rcases relation?_sight sightEq sql.table with ⟨absent, absent'⟩ |
    ⟨d, rows, rows', found, found', seen⟩
  · simp only [absent, absent']
    exact .inl ⟨_, rfl, rfl⟩
  · simp only [found, found']
    cases d.unknown? sql with
    | some column => exact .inl ⟨_, rfl, rfl⟩
    | none =>
      by_cases count : ps.length = sql.parameters
      · simp only [if_pos count]
        rcases Relation.run_sight (created _ (List.mem_of_find?_eq_some found)) seen
            (minds _ found) with
          ⟨e, ran, ran'⟩ | ⟨answer, answer', left, left', ran, ran', after, answers⟩
        · simp only [ran, ran']
          exact .inl ⟨_, rfl, rfl⟩
        · simp only [ran, ran']
          exact .inr ⟨_, _, _, _, rfl, rfl, sight_replace sightEq sql.table after,
            fun looks => answers (looks count)⟩
      · simp only [if_neg count]
        exact .inl ⟨_, rfl, rfl⟩

/-- Names stand for the same in databases of which the same is seen. -/
theorem unresolved?_sight (table : String) (names : List (String × Nat)) :
    db.unresolved? table names = db'.unresolved? table names := by
  unfold unresolved?
  rcases relation?_sight sightEq table with ⟨absent, absent'⟩ | ⟨d, rows, rows', found, found', -⟩
  · rw [absent, absent']
  · rw [found, found']
    rfl

theorem knows_sight (sql : Sql) : db.knows sql = db'.knows sql := by
  unfold knows
  rcases relation?_sight sightEq sql.table with ⟨absent, absent'⟩ |
    ⟨d, rows, rows', found, found', -⟩
  · rw [absent, absent']
  · rw [found, found']

end Database

/-! ### Bound statements -/

/-- What a bound statement leaves of a database, whether its answer can be read or not. -/
def leaves (b : Bound) (now : Nat) (db : Database) : Database :=
  match sqlOf b.statement with
  | .error _ => db
  | .ok sql =>
    match db.unresolved? sql.table (bareNames b.statement sql) with
    | some _ => db
    | none =>
      match db.run sql (parameters b now) with
      | .error _ => db
      | .ok (_, db') => db'

/-- The SQL of a statement that reads is a select. -/
theorem sqlOf_read {p : Prepared} (read : p.template.kind.isRead = true) {sql : Sql}
    (own : sqlOf p = .ok sql) : ∃ table columns rows, sql = .select table columns rows := by
  have kind : p.template.kind ≠ .insert := by
    intro insert
    rw [insert] at read
    cases read
  have text (other : sqlOfText p.template = .ok sql) :
      ∃ table columns rows, sql = .select table columns rows := by
    simp only [sqlOfText, if_neg kind, if_pos read] at other
    split at other
    · cases other
    · cases other
      exact ⟨_, _, _, rfl⟩
  rw [sqlOf] at own
  split at own
  · rename_i sql' translated
    split at own
    · cases own
      have shape : p.template.kind = .selectByKey ∨ p.template.kind = .selectKeyAndId := by
        cases kind : p.template.kind <;> simp [kind, StatementKind.isRead] at read ⊢
      rcases shape with shape | shape <;>
      · simp only [translate, shape] at translated
        cases translated
        exact ⟨_, _, _, rfl⟩
    · exact text own
  · exact text own

/-- An answer that cannot be read is that of a statement that changes nothing, so an execution
leaves the same either way. -/
theorem Database.Apart.execute_leaves {db : Database} (apart : db.Apart) (b : Bound) (now : Nat)
    (c : Connection) : (execute b now c db).2 = if c.closed then db else leaves b now db := by
  unfold execute
  split
  · rfl
  · unfold runBound leaves
    cases own : sqlOf b.statement with
    | error failure => rfl
    | ok sql =>
      simp only
      cases db.unresolved? sql.table (bareNames b.statement sql) with
      | some entry => rfl
      | none =>
        simp only
        cases ran : db.run sql (parameters b now) with
        | error e => rfl
        | ok outcome =>
          obtain ⟨answer, db'⟩ := outcome
          simp only
          cases reads : readAnswer b.template answer with
          | ok result => rfl
          | error failure =>
            have read : b.statement.template.kind.isRead = true := by
              have fails : readAnswer b.template answer = .error failure := reads
              rw [readAnswer] at fails
              change b.template.kind.isRead = true
              cases kind : b.template.kind <;> simp only [kind] at fails
              all_goals first | cases fails | rfl
            obtain ⟨table, columns, rows, rfl⟩ := sqlOf_read read own
            obtain ⟨r, r', found, run, rfl⟩ := Database.run_eq_ok ran
            cases run
            exact (apart.replace_self found).symm

/-- A bound statement minds the numbers of rows on its table. -/
def Bound.Minds (numbered : Definition → Bool) (now : Nat) (db : Database) (b : Bound) : Prop :=
  ∀ sql r, sqlOf b.statement = .ok sql → db.relation? sql.table = some r →
    sql.Minds r.definition (numbered r.definition) (parameters b now)

/-- A statement that runs the SQL into which its session translates its template. -/
def Bound.Own (b : Bound) : Prop :=
  ∃ sql, translate b.template = .ok sql ∧ sqlOf b.statement = .ok sql

/-- Translated SQL whose answer is read answers from the rows that live at the clock reading. -/
theorem looks_of_translate {b : Bound} {sql : Sql} (translated : translate b.template = .ok sql)
    (answers : b.template.kind ≠ .insert ∧ b.template.kind ≠ .deleteByKey) {now : Nat}
    (count : (parameters b now).length = sql.parameters) :
    sql.Looks (reading now) (parameters b now) := by
  -- The reading is the only parameter that the session adds, and the last of the guard.
  have added : addedParameters b.template now = [.integer (reading now)] := by
    cases kind : b.template.kind <;> simp_all [addedParameters]
  have read (g : Guard) (live : g.live = true) (count : (parameters b now).length = g.parameters) :
      g.live = true ∧ g.reading (parameters b now) = reading now := by
    refine ⟨live, ?_⟩
    rw [parameters, added] at count ⊢
    rw [Guard.parameters, live, if_pos rfl, List.length_append, List.length_singleton,
      Nat.add_right_cancel_iff] at count
    rw [Guard.reading, ← count, List.getElem?_append_right (Nat.le_refl _), Nat.sub_self]
    rfl
  cases kind : b.template.kind with
  | insert => exact absurd kind answers.1
  | deleteByKey => exact absurd kind answers.2
  | selectByKey | selectKeyAndId =>
    simp only [translate, kind] at translated
    cases translated
    exact read _ rfl count
  | conditionalDelete =>
    simp only [translate, kind] at translated
    split at translated
    · cases translated
    · cases translated
      exact read _ rfl count

section Bound

variable {db db' : Database} {b : Bound} {now : Nat} (created : db.AllCreated)
  (minds : Bound.Minds numbered now db b)

include created minds

theorem leaves_sight (sightEq : db.sight numbered moment = db'.sight numbered moment) :
    (leaves b now db).sight numbered moment = (leaves b now db').sight numbered moment := by
  unfold leaves
  cases runs : sqlOf b.statement with
  | error failure => exact sightEq
  | ok sql =>
    simp only [Database.unresolved?_sight sightEq]
    cases db'.unresolved? sql.table (bareNames b.statement sql) with
    | some entry => exact sightEq
    | none =>
      rcases Database.run_sight sightEq created (minds sql · runs) with
        ⟨e, ran, ran'⟩ | ⟨answer, after, answer', after', ran, ran', seen, -⟩
      · simp only [ran, ran']
        exact sightEq
      · simp only [ran, ran']
        exact seen

/-- The same is seen after an execution. -/
theorem execute_sight (apart : db.Apart) (apart' : db'.Apart)
    (sightEq : db.sight numbered moment = db'.sight numbered moment) (c : Connection) :
    (execute b now c db).2.sight numbered moment =
      (execute b now c db').2.sight numbered moment := by
  rw [apart.execute_leaves, apart'.execute_leaves]
  split
  · exact sightEq
  · exact leaves_sight created minds sightEq

/-- A statement of a session's own has the same answer wherever the same is seen at the clock
reading. -/
theorem Bound.Own.execute_sight (own : Own b)
    (sightEq : db.sight numbered (reading now) = db'.sight numbered (reading now))
    (c : Connection) :
    (execute b now c db).1 = (execute b now c db').1 := by
  obtain ⟨sql, translated, runs⟩ := own
  unfold execute
  split
  · rfl
  · unfold runBound
    simp only [runs, Database.unresolved?_sight sightEq]
    cases db'.unresolved? sql.table (bareNames b.statement sql) with
    | some entry => rfl
    | none =>
      rcases Database.run_sight sightEq created (minds sql · runs) with
        ⟨e, ran, ran'⟩ | ⟨answer, after, answer', after', ran, ran', -, answers⟩
      · simp only [ran, ran']
      · have read : readAnswer b.template answer = readAnswer b.template answer' := by
          by_cases looks : b.template.kind ≠ .insert ∧ b.template.kind ≠ .deleteByKey
          · rw [answers fun count => looks_of_translate translated looks count]
          · cases kind : b.template.kind <;> simp_all [readAnswer]
        simp only [ran, ran', read]
        cases readAnswer b.template answer' <;> rfl

end Bound

/-! ### Preparing -/

section Prepare

variable {db db' : Database} (sightEq : db.sight numbered moment = db'.sight numbered moment)

include sightEq

theorem Database.create_sight (d : Definition) :
    (∃ e, db.create d = .error e ∧ db'.create d = .error e) ∨
      ∃ after after', db.create d = .ok after ∧ db'.create d = .ok after' ∧
        after.sight numbered moment = after'.sight numbered moment := by
  unfold create
  split
  · exact .inl ⟨_, rfl, rfl⟩
  · rcases relation?_sight sightEq d.name with ⟨absent, absent'⟩ | ⟨_, _, _, found, found', -⟩
    · simp only [absent, absent']
      cases d.fault? with
      | some fault => exact .inl ⟨_, rfl, rfl⟩
      | none =>
        refine .inr ⟨_, _, rfl, rfl, ?_⟩
        simp only [sight, List.map_append]
        exact congrArg (· ++ _) sightEq
    · simp only [found, found']
      split
      · exact .inl ⟨_, rfl, rfl⟩
      · exact .inr ⟨_, _, rfl, rfl, sightEq⟩

theorem Connection.register_sight (c : Connection) (l : Layout) :
    (∃ e, c.register l db = .error e ∧ c.register l db' = .error e) ∨
      ∃ c' after after', c.register l db = .ok (c', after) ∧ c.register l db' = .ok (c', after') ∧
        after.sight numbered moment = after'.sight numbered moment := by
  unfold register
  split
  · split
    · exact .inr ⟨_, _, _, rfl, rfl, sightEq⟩
    · exact .inl ⟨_, rfl, rfl⟩
  · rcases Database.create_sight sightEq (.ofLayout l) with
      ⟨e, made, made'⟩ | ⟨after, after', made, made', seen⟩
    · simp only [made, made']
      exact .inl ⟨_, rfl, rfl⟩
    · simp only [made, made']
      exact .inr ⟨_, _, _, rfl, rfl, seen⟩

/-- A preparation sees no rows. -/
theorem prepare_sight (t : Template) (c : Connection) :
    ∃ answer c' after after', prepare t c db = (answer, c', after) ∧
      prepare t c db' = (answer, c', after') ∧
      after.sight numbered moment = after'.sight numbered moment := by
  unfold prepare
  split
  · exact ⟨_, _, _, _, rfl, rfl, sightEq⟩
  · split
    · exact ⟨_, _, _, _, rfl, rfl, sightEq⟩
    · rename_i sql translated
      split
      · exact ⟨_, _, _, _, rfl, rfl, sightEq⟩
      · rcases c.register_sight sightEq t.layout with
          ⟨e, made, made'⟩ | ⟨c', after, after', made, made', seen⟩
        · simp only [made, made']
          exact ⟨_, _, _, _, rfl, rfl, sightEq⟩
        · simp only [made, made', Database.knows_sight seen]
          split <;> exact ⟨_, _, _, _, rfl, rfl, seen⟩

end Prepare

/-! ### Requests -/

namespace File

/-- A file with the rows that live at a moment. -/
def living (f : File) (moment : Int) : File := { f with database := f.database.living moment }

variable {f g : File}

/-- The tables of a sound file were created by sessions. -/
theorem Sound.allCreated (sound : f.Sound) : f.database.AllCreated := by
  intro r member
  have definitions : r.definition ∈ f.created.map Definition.ofLayout := by
    rw [← sound.definitions]
    exact List.mem_map_of_mem member
  obtain ⟨l, made, definition⟩ := List.mem_map.mp definitions
  exact ⟨⟨l, definition.symm⟩, definition ▸ sound.definable l made⟩

/-- Two files with the same sessions of which the same is seen at a moment. -/
structure Alike (numbered : Definition → Bool) (moment : Int) (f g : File) : Prop where
  connections : f.connections = g.connections
  created : f.created = g.created
  sight : f.database.sight numbered moment = g.database.sight numbered moment

theorem Alike.refl (f : File) : f.Alike numbered moment f := ⟨rfl, rfl, rfl⟩

theorem Alike.symm (alike : f.Alike numbered moment g) : g.Alike numbered moment f :=
  ⟨alike.connections.symm, alike.created.symm, alike.sight.symm⟩

theorem Alike.later (alike : f.Alike numbered moment g) (sound : f.Sound) {later : Int}
    (order : moment ≤ later) : f.Alike numbered later g :=
  ⟨alike.connections, alike.created, Database.sight_later sound.allCreated order alike.sight⟩

/-- What lives may be taken for the whole. -/
theorem Alike.of_living {f' : File} (alike : f.Alike numbered moment g)
    (livingEq : f'.living moment = f.living moment) : f'.Alike numbered moment g where
  connections := (congrArg File.connections livingEq).trans alike.connections
  created := (congrArg File.created livingEq).trans alike.created
  sight := (Database.sight_of_living (congrArg File.database livingEq)).trans alike.sight

theorem Alike.connect (alike : f.Alike numbered moment g) :
    f.connect.Alike numbered moment g.connect :=
  ⟨congrArg (· ++ [Connection.fresh]) alike.connections, alike.created, alike.sight⟩

theorem Alike.prepare (alike : f.Alike numbered moment g) (session : Nat) (t : Template) :
    (f.prepare session t).1 = (g.prepare session t).1 ∧
      (f.prepare session t).2.Alike numbered moment (g.prepare session t).2 := by
  simp only [File.prepare, alike.connections, alike.created]
  cases g.connections[session]? with
  | none => exact ⟨rfl, alike⟩
  | some c =>
    obtain ⟨answer, c', after, after', made, made', seen⟩ := Sqlite.prepare_sight alike.sight t c
    simp only [made, made', Database.length_sight alike.sight, Database.length_sight seen]
    exact ⟨trivial, rfl, rfl, seen⟩

theorem Alike.close (alike : f.Alike numbered moment g) (session : Nat) :
    (f.close session).1 = (g.close session).1 ∧
      (f.close session).2.Alike numbered moment (g.close session).2 := by
  simp only [File.close, alike.connections]
  cases g.connections[session]? with
  | none => exact ⟨rfl, alike⟩
  | some c => exact ⟨rfl, rfl, alike.created, alike.sight⟩

/-- Whatever is executed, the same is seen afterwards. -/
theorem Alike.execute (alike : f.Alike numbered moment g) (sound : f.Sound) (sound' : g.Sound)
    {b : Bound} {now : Nat} (minds : Bound.Minds numbered now f.database b) (session : Nat) :
    (f.execute now session b).2.Alike numbered moment (g.execute now session b).2 := by
  simp only [File.execute, alike.connections]
  cases g.connections[session]? with
  | none => exact alike
  | some c =>
    exact ⟨rfl, alike.created,
      Sqlite.execute_sight sound.allCreated minds sound.apart sound'.apart alike.sight c⟩

theorem Alike.execute_answer {now : Nat} (alike : f.Alike numbered (reading now) g)
    (sound : f.Sound) {b : Bound} (minds : Bound.Minds numbered now f.database b)
    (own : Bound.Own b)
    (session : Nat) : (f.execute now session b).1 = (g.execute now session b).1 := by
  simp only [File.execute, alike.connections]
  cases g.connections[session]? with
  | none => rfl
  | some c => exact own.execute_sight sound.allCreated minds alike.sight c

/-- A program goes on in the same way where the same is seen at the clock reading, and the same is
seen afterwards, if what it executes next is a statement of its session's own that minds the numbers
of rows. -/
theorem Alike.next {α : Type} {now : Nat} (alike : f.Alike numbered (reading now) g)
    (sound : f.Sound) (sound' : g.Sound) {p : Program Nat α}
    (minds : ∀ b, p.executes? = some b → Bound.Own b ∧ Bound.Minds numbered now f.database b) :
    (p.next (host now) f).1 = (p.next (host now) g).1 ∧
      (p.next (host now) f).2.Alike numbered (reading now) (p.next (host now) g).2 := by
  cases p with
  | done a => exact ⟨rfl, alike⟩
  | connect k =>
    exact ⟨congrArg (fun n => k (.ok n)) (congrArg List.length alike.connections), alike.connect⟩
  | prepare session t k =>
    obtain ⟨answer, after⟩ := alike.prepare session t
    exact ⟨congrArg k answer, after⟩
  | execute session b k =>
    obtain ⟨own, minds⟩ := minds b rfl
    exact ⟨congrArg k (alike.execute_answer sound minds own session),
      alike.execute sound sound' minds session⟩
  | close session k =>
    obtain ⟨answer, after⟩ := alike.close session
    exact ⟨congrArg k answer, after⟩
  | record e k => exact ⟨rfl, alike⟩

end File

end Sight

end GroupStore.Sqlite

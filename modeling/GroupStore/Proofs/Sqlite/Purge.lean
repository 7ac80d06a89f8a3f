import Mathlib.Algebra.BigOperators.Group.List.Basic
import Mathlib.Data.List.Nodup
import GroupStore.Proofs.Sqlite.Living

/-!
# What a purge counts and leaves

A session purges the tables that it has prepared, one after the other, and adds up what is deleted.
No other table is touched, and as names are compared without case, none is counted twice.

* `Database.expiredIn`, `Database.livingIn` — what has expired in some tables and what they keep;
* `Database.Apart.purgeAll` — a purge counts the former and leaves the latter;
* `File.Rooted` — each table that a session has prepared is in the file;
* `File.Purged`, `File.Sound.purged` — what a session's purge does.
-/

namespace GroupStore.Sqlite

/-! ### Some of the tables -/

namespace Database

variable {db : Database} {among others : Definition → Bool} {moment : Int}

/-- A database in which some tables keep the rows that live at a moment only. -/
def livingIn (db : Database) (among : Definition → Bool) (moment : Int) : Database :=
  ⟨db.relations.map fun r => if among r.definition then r.living moment else r⟩

/-- The rows of some tables that have expired at a moment. -/
def expiredIn (db : Database) (among : Definition → Bool) (moment : Int) : List Record :=
  db.relations.flatMap fun r => if among r.definition then r.expired moment else []

theorem Apart.livingIn (apart : db.Apart) : (db.livingIn among moment).Apart := by
  have names (r : Relation) : (if among r.definition then r.living moment else r).definition.name =
      r.definition.name := by
    split <;> rfl
  simp only [Apart, Database.livingIn, List.map_map, Function.comp_def, names]
  exact apart

/-- What lives in all tables is still there when the rest is taken from some. -/
theorem living_livingIn (db : Database) :
    (db.livingIn among moment).living moment = db.living moment := by
  simp only [livingIn, living, List.map_map, Database.mk.injEq]
  refine List.map_congr_left fun r _ => ?_
  rw [Function.comp_apply]
  split
  · exact r.living_self moment
  · rfl

theorem livingIn_livingIn (db : Database) (among others : Definition → Bool) (moment : Int) :
    (db.livingIn among moment).livingIn others moment =
      db.livingIn (fun d => among d || others d) moment := by
  simp only [livingIn, List.map_map, Database.mk.injEq]
  refine List.map_congr_left fun r _ => ?_
  by_cases one : among r.definition = true <;> by_cases other : others r.definition = true <;>
    simp [one, other]

/-- What has expired in more tables is what has in some, and in the others once these are purged. -/
theorem length_expiredIn (db : Database) (among others : Definition → Bool) (moment : Int) :
    (db.expiredIn among moment).length +
        ((db.livingIn among moment).expiredIn others moment).length =
      (db.expiredIn (fun d => among d || others d) moment).length := by
  simp only [expiredIn, livingIn, List.flatMap_map, List.length_flatMap, ← List.sum_map_add]
  refine congrArg List.sum (List.map_congr_left fun r _ => ?_)
  have nothing := r.expired_living moment
  by_cases one : among r.definition = true <;> by_cases other : others r.definition = true <;>
    simp [one, other, nothing]

/-- No other rows are lost. -/
theorem length_rows (db : Database) (among : Definition → Bool) (moment : Int) :
    (db.relations.flatMap Relation.rows).length = (db.expiredIn among moment).length +
      ((db.livingIn among moment).relations.flatMap Relation.rows).length := by
  simp only [expiredIn, livingIn, List.flatMap_map, List.length_flatMap, ← List.sum_map_add]
  refine congrArg List.sum (List.map_congr_left fun r _ => ?_)
  cases among r.definition
  · exact (Nat.zero_add _).symm
  · exact r.length_living moment

/-! ### Purges -/

/-- The expired rows of the tables of a name are those of the one that has it. -/
theorem Apart.expiredIn_name (apart : db.Apart) {name : String} {r : Relation}
    (found : db.relation? name = some r) :
    db.expiredIn (fun d => sameName d.name name) moment = r.expired moment := by
  obtain ⟨before, after, split⟩ := List.append_of_mem (List.mem_of_find?_eq_some found)
  have once : (before ++ r :: after).Nodup := split ▸ List.Nodup.of_map _ apart
  have other : ∀ x ∈ before ++ after, ¬sameName x.definition.name name = true := by
    intro x member own
    have inside : x ∈ db.relations := by
      rw [split]
      exact List.perm_middle.mem_iff.mpr (List.mem_cons_of_mem r member)
    exact (List.nodup_middle.mp once).notMem (apart.eq_of_relation? found inside own ▸ member)
  have nothing (part : List Relation) (inside : part ⊆ before ++ after) : (part.flatMap fun x =>
      if sameName x.definition.name name then x.expired moment else []) = [] :=
    List.flatMap_eq_nil_iff.mpr fun x member => if_neg (other x (inside member))
  rw [expiredIn, split, List.flatMap_append, List.flatMap_cons, if_pos (relation?_name found),
    nothing before (List.subset_append_left _ _), nothing after (List.subset_append_right _ _),
    List.nil_append, List.append_nil]

/-- A purge of a name is one of the tables that have it. -/
theorem Apart.purge (apart : db.Apart) (name : String) (moment : Int) :
    db.purge name moment = ((db.expiredIn (fun d => sameName d.name name) moment).length,
      db.livingIn (fun d => sameName d.name name) moment) := by
  unfold Database.purge
  cases found : db.relation? name with
  | none =>
    have absent : ∀ r ∈ db.relations, ¬sameName r.definition.name name = true := by
      simpa [relation?] using found
    have nothing : db.expiredIn (fun d => sameName d.name name) moment = [] :=
      List.flatMap_eq_nil_iff.mpr fun r member => if_neg (absent r member)
    have relationsEq :
        db.relations.map (fun r => if sameName r.definition.name name then r.living moment
        else r) = db.relations :=
      (List.map_congr_left fun r member => if_neg (absent r member)).trans (List.map_id _)
    rw [nothing, Database.livingIn, relationsEq]
    rfl
  | some r =>
    rw [apart.expiredIn_name found, Prod.mk.injEq]
    refine ⟨?_, congrArg Database.mk (List.map_congr_left fun old member => ?_)⟩
    · rw [r.length_living moment]
      exact Nat.add_sub_cancel _ _
    · by_cases own : sameName old.definition.name name = true
      · rw [if_pos own, if_pos own, apart.eq_of_relation? found member own]
        rfl
      · rw [if_neg own, if_neg own]

/-- A purge of several tables counts what has expired in them and leaves what lives. -/
theorem Apart.purgeAll (apart : db.Apart) (now : Nat) (layouts : List Layout) :
    Sqlite.purgeAll now layouts db =
      ((db.expiredIn (fun d => layouts.any fun l => sameName d.name l.table.name.text)
          (reading now)).length,
        db.livingIn (fun d => layouts.any fun l => sameName d.name l.table.name.text)
          (reading now)) := by
  induction layouts generalizing db with
  | nil =>
    have nothing : db.expiredIn (fun _ => false) (reading now) = [] :=
      List.flatMap_eq_nil_iff.mpr fun _ _ => rfl
    have unchanged : db.livingIn (fun _ => false) (reading now) = db :=
      congrArg Database.mk (List.map_id _)
    simp only [Sqlite.purgeAll, List.any_nil, nothing, unchanged, List.length_nil]
  | cons l rest ih =>
    simp only [Sqlite.purgeAll, apart.purge, ih apart.livingIn, length_expiredIn, livingIn_livingIn,
      List.any_cons]

end Database

/-! ### Sessions -/

/-- Whether a session has prepared the table of a definition. -/
def Connection.hasPrepared (c : Connection) (d : Definition) : Bool :=
  c.layouts.any fun l => sameName d.name l.table.name.text

/-- What is created is there, if it was not before. -/
theorem Database.exists_of_create {db db' : Database} {d : Definition}
    (created : db.create d = .ok db') : ∃ r, db'.relation? d.name = some r := by
  rcases Database.create_cases created with ⟨found, rfl⟩ | ⟨absent, -, rfl⟩
  · exact found
  · refine ⟨⟨d, []⟩, ?_⟩
    have unknown : db.relations.find? (fun r => sameName r.definition.name d.name) = none := absent
    simp only [relation?, List.find?_append, unknown, Option.none_or, List.find?_singleton,
      sameName_self, if_true]

namespace File

variable {f f' : File} {session : Nat} {c : Connection}

/-- A purge takes nothing away that lives. -/
theorem purge_living (apart : f.database.Apart) (now session : Nat) :
    (f.purge now session).living (reading now) = f.living (reading now) := by
  unfold File.purge
  split
  · rfl
  · rename_i count db purged
    obtain ⟨c, -, purged⟩ := Option.bind_eq_some_iff.mp purged
    unfold Sqlite.purge at purged
    split at purged
    · cases purged
    · rw [apart.purgeAll] at purged
      cases purged
      exact congrArg (fun db => { f with database := db }) f.database.living_livingIn

/-- Each table that a session has prepared is in the file. -/
def Rooted (f : File) : Prop :=
  ∀ c ∈ f.connections, ∀ l ∈ c.layouts, ∃ r, f.database.relation? l.table.name.text = some r

theorem rooted_empty : empty.Rooted := fun _ absent => absurd absent List.not_mem_nil

/-- Tables stay where they are. -/
theorem Sound.relation?_later (sound : f.Sound) (later : f'.Sound) (extension : f.Extends f')
    {name : String} {r : Relation} (found : f.database.relation? name = some r) :
    ∃ r', f'.database.relation? name = some r' := by
  have before := sound.relation? name
  rw [found, Option.map_some] at before
  obtain ⟨l, created, -⟩ := Option.map_eq_some_iff.mp before.symm
  have after := later.relation? name
  rw [extension.createdAs? created, Option.map_some] at after
  obtain ⟨r', found', -⟩ := Option.map_eq_some_iff.mp after
  exact ⟨r', found'⟩

/-- The tables of the layouts that sessions remember stay, whatever else they come to remember. -/
theorem Rooted.later (rooted : f.Rooted) (sound : f.Sound) (later : f'.Sound)
    (extension : f.Extends f') (remembered : ∀ c' ∈ f'.connections, ∀ l ∈ c'.layouts,
      (∃ c ∈ f.connections, l ∈ c.layouts) ∨
        ∃ r, f'.database.relation? l.table.name.text = some r) : f'.Rooted := by
  intro c' member l inside
  rcases remembered c' member l inside with ⟨c, old, own⟩ | found
  · obtain ⟨r, found⟩ := rooted c old l own
    exact sound.relation?_later later extension found
  · exact found

theorem Rooted.connect (rooted : f.Rooted) : f.connect.Rooted := by
  intro c member l inside
  rcases List.mem_append.mp member with old | new
  · exact rooted c old l inside
  · rw [List.mem_singleton.mp new] at inside
    cases inside

theorem Rooted.close (rooted : f.Rooted) (session : Nat) : (f.close session).2.Rooted := by
  unfold File.close
  split
  · exact rooted
  · rename_i c connected
    intro c' member l inside
    rcases List.mem_or_eq_of_mem_set member with old | rfl
    · exact rooted c' old l inside
    · exact rooted c (List.mem_of_getElem? connected) l inside

theorem Rooted.execute (rooted : f.Rooted) (sound : f.Sound) (now session : Nat) (b : Bound) :
    (f.execute now session b).2.Rooted := by
  obtain ⟨later, extension⟩ := sound.execute now session b
  refine rooted.later sound later extension fun c' member l inside => .inl ⟨c', ?_, inside⟩
  unfold File.execute at member
  split at member <;> exact member

theorem Rooted.purge (rooted : f.Rooted) (sound : f.Sound) (now session : Nat) :
    (f.purge now session).Rooted := by
  obtain ⟨later, extension⟩ := sound.purge now session
  refine rooted.later sound later extension fun c' member l inside => .inl ⟨c', ?_, inside⟩
  unfold File.purge at member
  split at member <;> exact member

theorem Rooted.prepare (rooted : f.Rooted) (sound : f.Sound) (session : Nat) (t : Template) :
    (f.prepare session t).2.Rooted := by
  obtain ⟨later, extension, -⟩ := sound.prepare session t
  refine rooted.later sound later extension ?_
  cases atIndex : f.connections[session]? with
  | none =>
    simp only [File.prepare, atIndex]
    exact fun c' member l inside => .inl ⟨c', member, inside⟩
  | some c =>
    have old := List.mem_of_getElem? atIndex
    simp only [File.prepare, atIndex]
    intro c' member l inside
    rcases List.mem_or_eq_of_mem_set member with other | rfl
    · exact .inl ⟨c', other, inside⟩
    · rcases prepare_cases t c f.database with ⟨e, refused⟩ | ⟨c', db', registered, left, -⟩
      · rw [refused] at inside
        exact .inl ⟨c, old, inside⟩
      · rw [left] at inside ⊢
        rcases (Connection.register_cases registered).2 with ⟨rfl, rfl⟩ | ⟨-, rfl, created⟩
        · exact .inl ⟨_, old, inside⟩
        · rcases List.mem_append.mp inside with known | new
          · exact .inl ⟨c, old, known⟩
          · rw [List.mem_singleton.mp new]
            exact .inr (Database.exists_of_create created)

/-- Every request keeps the tables that sessions have prepared. -/
theorem Rooted.next {α : Type} (rooted : f.Rooted) (sound : f.Sound) (now : Nat)
    (p : Program Nat α) : (p.next (host now) f).2.Rooted := by
  cases p with
  | done a | record e k => exact rooted
  | connect k => exact rooted.connect
  | prepare session t k => exact rooted.prepare sound session t
  | execute session b k => exact rooted.execute sound now session b
  | close session k => exact rooted.close session

/-- What an open session's purge of a file at a clock reading counts and leaves. -/
structure Purged (f : File) (c : Connection) (now count : Nat) (after : Database) : Prop where
  /-- No table is missing. -/
  present : ∀ l ∈ c.layouts, ∃ r, f.database.relation? l.table.name.text = some r
  /-- Of the prepared tables, exactly the rows that have not expired are left. -/
  left : after.relations = f.database.relations.map fun r =>
    if c.hasPrepared r.definition then
      { r with rows := r.rows.filter fun row => !r.definition.isExpired row (reading now) }
    else r
  /-- The rows that have expired are counted. -/
  counted : count = (f.database.relations.flatMap fun r =>
    if c.hasPrepared r.definition then
      r.rows.filter fun row => r.definition.isExpired row (reading now)
    else []).length
  /-- These are the rows that are removed. -/
  removed : (f.database.relations.flatMap Relation.rows).length =
    count + (after.relations.flatMap Relation.rows).length
  /-- A second purge at the reading finds nothing. -/
  again : Sqlite.purge now c after = some (0, after)

theorem Sound.purged (sound : f.Sound) (rooted : f.Rooted)
    (connected : f.connections[session]? = some c) (isOpen : c.closed = false) (now : Nat) :
    ∃ count after, Sqlite.purge now c f.database = some (count, after) ∧
      f.purge now session = { f with database := after } ∧ f.Purged c now count after := by
  have whole {db : Database} (apart : db.Apart) : Sqlite.purge now c db =
      some ((db.expiredIn c.hasPrepared (reading now)).length,
        db.livingIn c.hasPrepared (reading now)) := by
    rw [Sqlite.purge, isOpen, if_neg Bool.false_ne_true, apart.purgeAll]
    rfl
  have purged := whole sound.apart
  refine ⟨_, _, purged, ?_, rooted c (List.mem_of_getElem? connected), ?_, rfl,
    f.database.length_rows _ _, ?_⟩
  · simp only [File.purge, connected, Option.bind_some, purged]
  · simp only [Database.livingIn, Relation.living, Definition.isLive_eq]
  · have twice := f.database.livingIn_livingIn c.hasPrepared c.hasPrepared (reading now)
    have sum := f.database.length_expiredIn c.hasPrepared c.hasPrepared (reading now)
    simp only [Bool.or_self] at twice sum
    rw [whole sound.apart.livingIn, twice, Nat.left_eq_add.mp sum.symm]

end File

end GroupStore.Sqlite

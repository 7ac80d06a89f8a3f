import GroupStore.World
import GroupStore.Proofs.Sqlite.Names
import GroupStore.Proofs.Sqlite.Start

/-!
# Sessions on one database file

Any number of sessions are opened on a file, one after another or at the same time.  A session
remembers the layouts that it has prepared itself; the tables are in the file and stay as they were
created, whichever session finds them there later.

* `Sqlite.File`, `File.host` — a file with its sessions, and the answers to their requests;
* `File.Sound` — each table has the definition of the layout under which it was created, and no two
  rows of one number or one key;
* `File.Extends` — tables, sessions and what they remember stay;
* `File.Accepted` — a statement that a session has prepared; nothing ever takes that away.
-/

namespace GroupStore.Sqlite

/-! ### The file and its sessions -/

/-- A database file with the sessions that were opened on it, first to last. -/
structure File where
  database : Database
  connections : List Connection
  /-- The layouts under which the tables were created, in the order of their creation. -/
  created : List Layout

namespace File

/-- An empty file that nobody has opened. -/
def empty : File := ⟨.empty, [], []⟩

/-- Open one more session. -/
def connect (f : File) : File := { f with connections := f.connections ++ [.fresh] }

/-- Have a session prepare a template. -/
def prepare (session : Nat) (t : Template) (f : File) : Except SessionError Prepared × File :=
  match f.connections[session]? with
  | none => (.error World.noSession, f)
  | some c =>
    let after := Sqlite.prepare t c f.database
    let grown := f.database.relations.length < after.2.2.relations.length
    let created := if grown then f.created ++ [t.layout] else f.created
    (after.1, ⟨after.2.2, f.connections.set session after.2.1, created⟩)

/-- Have a session execute a bound statement. -/
def execute (now session : Nat) (b : Bound) (f : File) : Except SessionError ResultSet × File :=
  match f.connections[session]? with
  | none => (.error World.noSession, f)
  | some c =>
    let after := Sqlite.execute b now c f.database
    (after.1, { f with database := after.2 })

/-- Close a session. -/
def close (session : Nat) (f : File) : Except SessionError Unit × File :=
  match f.connections[session]? with
  | none => (.error World.noSession, f)
  | some c => (.ok (), { f with connections := f.connections.set session (Sqlite.close c) })

/-- Have a session delete what has expired; a closed one does nothing. -/
def purge (now session : Nat) (f : File) : File :=
  match f.connections[session]?.bind fun c => Sqlite.purge now c f.database with
  | none => f
  | some (_, db) => { f with database := db }

/-- The answers of the sessions at a clock reading; connecting opens a session. -/
def host (now : Nat) : Host File Nat where
  connect f := (.ok f.connections.length, f.connect)
  prepare := prepare
  execute := execute now
  close := close
  record _ f := f

/-- The layout under which the table of a name was created. -/
def createdAs? (f : File) (name : String) : Option Layout :=
  f.created.find? fun l => sameName l.table.name.text name

end File

/-! ### What a statement does to a database -/

theorem runBound_eq_ok {b : Bound} {now : Nat} {db db' : Database} {result : ResultSet}
    (run : runBound b now db = .ok (result, db')) : ∃ sql answer, sqlOf b.statement = .ok sql ∧
      db.run sql (parameters b now) = .ok (answer, db') ∧
        readAnswer b.template answer = .ok result := by
  unfold runBound at run
  split at run
  · cases run
  · rename_i sql known
    split at run
    · cases run
    · split at run
      · cases run
      · rename_i answer db'' ran
        cases read : readAnswer b.template answer with
        | error failure =>
          rw [read] at run
          cases run
        | ok result' =>
          rw [read] at run
          cases run
          exact ⟨sql, answer, known, ran, read⟩

theorem Database.run_eq_ok {db db' : Database} {sql : Sql} {ps : List Cell} {answer : Answer}
    (run : db.run sql ps = .ok (answer, db')) : ∃ r r', db.relation? sql.table = some r ∧
      r.run sql ps = .ok (answer, r') ∧ db' = db.replace sql.table r' := by
  unfold Database.run at run
  split at run
  · cases run
  · rename_i r found
    split at run
    · cases run
    · split at run
      · split at run
        · rename_i answer' r' ran
          cases run
          exact ⟨r, r', found, ran, rfl⟩
        · cases run
      · cases run

/-- No two rows of a table have the same number or the same key. -/
def Relation.Keyed (r : Relation) : Prop :=
  r.rows.Pairwise fun old new => r.definition.replaces new old = false

/-- A statement keeps the definition of its table. -/
theorem Relation.run_definition {r r' : Relation} {sql : Sql} {ps : List Cell} {answer : Answer}
    (run : r.run sql ps = .ok (answer, r')) : r'.definition = r.definition := by
  cases sql with
  | upsert table columns =>
    obtain ⟨number, -, -, rfl⟩ := run_upsert run
    rfl
  | select table columns rows =>
    cases run
    rfl
  | delete table rows =>
    cases run
    rfl

/-- A statement keeps the definition of its table, and keys stay unique. -/
theorem Relation.run_keyed {r r' : Relation} {sql : Sql} {ps : List Cell} {answer : Answer}
    (keyed : r.Keyed) (run : r.run sql ps = .ok (answer, r')) :
    r'.definition = r.definition ∧ r'.Keyed := by
  refine ⟨run_definition run, ?_⟩
  cases sql with
  | upsert table columns =>
    obtain ⟨number, -, -, rfl⟩ := run_upsert run
    -- What the new row replaces is taken away before the row is added.
    rw [Relation.Keyed, List.pairwise_append]
    refine ⟨keyed.filter _, List.pairwise_singleton _ _, fun old kept new added => ?_⟩
    rw [List.mem_singleton.mp added]
    simpa using (List.mem_filter.mp kept).2
  | select table columns rows =>
    cases run
    exact keyed
  | delete table rows =>
    cases run
    exact keyed.filter _

/-- The names of the tables differ beyond case. -/
def Database.Apart (db : Database) : Prop :=
  (db.relations.map fun r => caseless r.definition.name).Nodup

/-- There is one table of a name only. -/
theorem Database.Apart.eq_of_relation? {db : Database} (apart : db.Apart) {name : String}
    {r old : Relation} (found : db.relation? name = some r) (member : old ∈ db.relations)
    (own : sameName old.definition.name name = true) : old = r := by
  have hit := find?_sameName (f := fun r : Relation => r.definition.name) apart member
  have name (x : Relation) : sameName x.definition.name old.definition.name =
      sameName x.definition.name name := by
    rw [sameName_comm, sameName_trans own, sameName_comm]
  simp only [name] at hit
  exact Option.some.inj (hit.symm.trans found)

/-! ### Soundness -/

namespace File

/-- Each table has the definition of the layout under which it was created, their names differ
beyond case, and no two rows of a table have the same number or the same key. -/
structure Sound (f : File) : Prop where
  definitions : f.database.relations.map Relation.definition = f.created.map Definition.ofLayout
  definable : ∀ l ∈ f.created, (Definition.ofLayout l).Sound
  names : (f.created.map fun l => caseless l.table.name.text).Nodup
  keyed : ∀ r ∈ f.database.relations, r.Keyed

theorem sound_empty : empty.Sound where
  definitions := rfl
  definable := fun _ absent => absurd absent List.not_mem_nil
  names := List.nodup_nil
  keyed := fun _ absent => absurd absent List.not_mem_nil

/-- Tables, sessions and the layouts that these remember stay. -/
structure Extends (f f' : File) : Prop where
  created : f.created <+: f'.created
  remembers : ∀ (session : Nat) (c : Connection), f.connections[session]? = some c →
    ∃ c', f'.connections[session]? = some c' ∧
      ∀ name l, c.layout? name = some l → c'.layout? name = some l

variable {f f' f'' : File}

theorem Extends.refl (f : File) : f.Extends f where
  created := List.prefix_rfl
  remembers := fun _ c found => ⟨c, found, fun _ _ => id⟩

theorem Extends.trans (first : f.Extends f') (second : f'.Extends f'') : f.Extends f'' where
  created := first.created.trans second.created
  remembers := fun session c found => by
    obtain ⟨c', found', kept⟩ := first.remembers session c found
    obtain ⟨c'', found'', kept'⟩ := second.remembers session c' found'
    exact ⟨c'', found'', fun name l known => kept' name l (kept name l known)⟩

theorem extends_database (f : File) (db : Database) : f.Extends { f with database := db } :=
  ⟨List.prefix_rfl, (Extends.refl f).remembers⟩

/-- A session may remember more. -/
theorem extends_set {session : Nat} {c c' : Connection} (found : f.connections[session]? = some c)
    (kept : ∀ name l, c.layout? name = some l → c'.layout? name = some l)
    (connectionsIs : f'.connections = f.connections.set session c')
    (created : f.created <+: f'.created) :
    f.Extends f' := by
  refine ⟨created, fun i d connected => ?_⟩
  obtain ⟨inside, -⟩ := List.getElem?_eq_some_iff.mp found
  rw [connectionsIs]
  by_cases hit : session = i
  · subst hit
    rw [found] at connected
    cases connected
    exact ⟨c', List.getElem?_set_self inside, kept⟩
  · exact ⟨d, by rw [List.getElem?_set_ne hit, connected], fun _ _ => id⟩

theorem Extends.createdAs? (extension : f.Extends f') {name : String} {l : Layout}
    (found : f.createdAs? name = some l) : f'.createdAs? name = some l := by
  obtain ⟨more, createdIs⟩ := extension.created
  have before : f.created.find? (fun l => sameName l.table.name.text name) = some l := found
  rw [File.createdAs?, ← createdIs, List.find?_append, before, Option.some_or]

/-- The definition of a table is that of the layout under which it was created. -/
theorem Sound.relation? (sound : f.Sound) (name : String) :
    (f.database.relation? name).map Relation.definition =
      (f.createdAs? name).map Definition.ofLayout := by
  have found := congrArg (List.find? fun d : Definition => sameName d.name name) sound.definitions
  rw [List.find?_map, List.find?_map] at found
  exact found

theorem Sound.apart (sound : f.Sound) : f.database.Apart := by
  have names := congrArg (List.map fun d : Definition => caseless d.name) sound.definitions
  rw [List.map_map, List.map_map] at names
  have distinct := sound.names
  exact (names.symm ▸ distinct : (f.database.relations.map _).Nodup)

/-- Rows of a table may change, as long as their keys stay unique. -/
theorem Sound.replace (sound : f.Sound) {name : String} {r r' : Relation}
    (found : f.database.relation? name = some r) (definition : r'.definition = r.definition)
    (keyed : r'.Keyed) : Sound { f with database := f.database.replace name r' } := by
  refine ⟨?_, sound.definable, sound.names, fun old member => ?_⟩
  · rw [← sound.definitions]
    show (f.database.relations.map _).map _ = _
    rw [List.map_map]
    refine List.map_congr_left fun old member => ?_
    by_cases own : sameName old.definition.name name = true
    · rw [sound.apart.eq_of_relation? found member own]
      simp only [Function.comp_apply, if_pos (Database.relation?_name found), definition]
    · simp only [Function.comp_apply, if_neg own]
  · obtain ⟨before, inside, rfl⟩ := List.mem_map.mp member
    by_cases own : sameName before.definition.name name = true
    · rw [if_pos own]
      exact keyed
    · rw [if_neg own]
      exact sound.keyed before inside

/-- A table that is created lies beside the others. -/
theorem Sound.create (sound : f.Sound) {l : Layout}
    (absent : f.database.relation? l.table.name.text = none)
    (definable : (Definition.ofLayout l).Sound) (connections : List Connection) :
    Sound ⟨⟨f.database.relations ++ [⟨.ofLayout l, []⟩]⟩, connections, f.created ++ [l]⟩ where
  definitions := by simp only [List.map_append, sound.definitions, List.map_cons, List.map_nil]
  definable := by
    intro l' member
    rcases List.mem_append.mp member with old | new
    · exact sound.definable l' old
    · rw [List.mem_singleton.mp new]
      exact definable
  names := by
    have fresh := sound.relation? l.table.name.text
    rw [absent, Option.map_none, eq_comm, Option.map_eq_none_iff, File.createdAs?,
      List.find?_eq_none] at fresh
    rw [List.map_append, List.nodup_append]
    refine ⟨sound.names, by simp, fun old before new added oldEq => ?_⟩
    obtain ⟨l', member, rfl⟩ := List.mem_map.mp before
    obtain rfl : new = caseless l.table.name.text := by simpa using added
    exact fresh l' member (sameName_iff.mpr oldEq)
  keyed := by
    intro r member
    rcases List.mem_append.mp member with old | new
    · exact sound.keyed r old
    · rw [List.mem_singleton.mp new]
      exact List.Pairwise.nil

/-! ### Requests -/

theorem Sound.of_connections (sound : f.Sound) (connections : List Connection) :
    Sound { f with connections } :=
  ⟨sound.definitions, sound.definable, sound.names, sound.keyed⟩

theorem Sound.connect (sound : f.Sound) : f.connect.Sound := sound.of_connections _

theorem extends_connect (f : File) : f.Extends f.connect := by
  refine ⟨List.prefix_rfl, fun session c found => ⟨c, ?_, fun _ _ => id⟩⟩
  obtain ⟨inside, -⟩ := List.getElem?_eq_some_iff.mp found
  rw [File.connect, List.getElem?_append_left inside, found]

/-- A session has remembered the layout of a template, and the table has a place for all that the
statement assigns. -/
def Accepted (f : File) (session : Nat) (t : Template) (p : Prepared) : Prop :=
  (∃ c, f.connections[session]? = some c ∧ c.layout? t.layout.table.name = some t.layout) ∧
    ∃ sql l, translate t = .ok sql ∧ p = ⟨t, sql.text⟩ ∧ f.createdAs? sql.table = some l ∧
      (Definition.ofLayout l).admits sql = true

/-- What was prepared stays prepared. -/
theorem Accepted.mono (extension : f.Extends f') {session : Nat} {t : Template} {p : Prepared}
    (accepted : f.Accepted session t p) : f'.Accepted session t p := by
  obtain ⟨⟨c, found, known⟩, sql, l, translated, preparedEq, created, admits⟩ := accepted
  obtain ⟨c', found', kept⟩ := extension.remembers session c found
  exact ⟨⟨c', found', kept _ _ known⟩, sql, l, translated, preparedEq, extension.createdAs? created,
    admits⟩

/-- What the database knows is admitted by the layout under which the table was created. -/
theorem Sound.knows (sound : f.Sound) {sql : Sql} (knows : f.database.knows sql = true) :
    ∃ l, f.createdAs? sql.table = some l ∧ (Definition.ofLayout l).admits sql = true := by
  have definitionEq := sound.relation? sql.table
  unfold Database.knows at knows
  cases found : f.database.relation? sql.table with
  | none => simp [found] at knows
  | some r =>
    rw [found] at definitionEq knows
    obtain ⟨l, created, definition⟩ := Option.map_eq_some_iff.mp definitionEq.symm
    exact ⟨l, created, definition ▸ knows⟩

/-- A preparation adds at most the table of its layout. -/
theorem Sound.prepare_keeps (sound : f.Sound) (session : Nat) (t : Template) :
    (f.prepare session t).2.Sound ∧ f.Extends (f.prepare session t).2 := by
  cases found : f.connections[session]? with
  | none =>
    simp only [File.prepare, found]
    exact ⟨sound, Extends.refl f⟩
  | some c =>
    rcases prepare_cases t c f.database with ⟨e, refused⟩ | ⟨c', db', registered, left, -⟩
    · simp only [File.prepare, found, refused, Nat.lt_irrefl, if_false]
      exact ⟨sound.of_connections _, extends_set found (fun _ _ => id) rfl List.prefix_rfl⟩
    · simp only [File.prepare, found, left]
      rcases (Connection.register_cases registered).2 with ⟨rfl, rfl⟩ | ⟨-, rfl, created⟩
      · simp only [Nat.lt_irrefl, if_false]
        exact ⟨sound.of_connections _, extends_set found (fun _ _ => id) rfl List.prefix_rfl⟩
      · have kept : ∀ name l, c.layout? name = some l →
            Connection.layout? { c with layouts := c.layouts ++ [t.layout] } name = some l := by
          intro name l known
          have before : c.layouts.find? (fun l => decide (l.table.name = name)) = some l := known
          rw [Connection.layout?, List.find?_append, before, Option.some_or]
        rcases Database.create_cases created with ⟨-, rfl⟩ | ⟨missing, definable, rfl⟩
        · simp only [Nat.lt_irrefl, if_false]
          exact ⟨sound.of_connections _, extends_set found kept rfl List.prefix_rfl⟩
        · simp only [List.length_append, List.length_singleton, Nat.lt_succ_self, if_true]
          exact ⟨sound.create missing definable _,
            extends_set found kept rfl (List.prefix_append _ _)⟩

/-- What a preparation accepts is accepted on the file from then on. -/
theorem Sound.prepare (sound : f.Sound) (session : Nat) (t : Template) :
    (f.prepare session t).2.Sound ∧ f.Extends (f.prepare session t).2 ∧
      ∀ p, (f.prepare session t).1 = .ok p → (f.prepare session t).2.Accepted session t p := by
  obtain ⟨sound', extension⟩ := sound.prepare_keeps session t
  refine ⟨sound', extension, fun p prepared => ?_⟩
  cases found : f.connections[session]? with
  | none =>
    simp only [File.prepare, found] at prepared
    cases prepared
  | some c =>
    obtain ⟨inside, -⟩ := List.getElem?_eq_some_iff.mp found
    rcases prepare_cases t c f.database with
      ⟨e, refused⟩ | ⟨c', db', registered, left, accepted⟩
    · simp only [File.prepare, found, refused] at prepared
      cases prepared
    · have connected : (f.prepare session t).2.connections[session]? = some c' := by
        simp only [File.prepare, found, left]
        exact List.getElem?_set_self inside
      have database : (f.prepare session t).2.database = db' := by
        simp only [File.prepare, found, left]
      simp only [File.prepare, found] at prepared
      obtain ⟨sql, translated, preparedEq, knows⟩ := accepted p prepared
      rw [← database] at knows
      obtain ⟨l, created, admits⟩ := sound'.knows knows
      exact ⟨⟨c', connected, (Connection.register_cases registered).1⟩, sql, l, translated,
        preparedEq,
        created, admits⟩

/-- An execution changes at most the rows of a table. -/
theorem Sound.execute (sound : f.Sound) (now session : Nat) (b : Bound) :
    (f.execute now session b).2.Sound ∧ f.Extends (f.execute now session b).2 := by
  cases found : f.connections[session]? with
  | none =>
    simp only [File.execute, found]
    exact ⟨sound, Extends.refl f⟩
  | some c =>
    simp only [File.execute, found]
    refine ⟨?_, extends_database f _⟩
    unfold Sqlite.execute
    split
    · exact sound
    · split
      · rename_i result db' ran
        obtain ⟨sql, answer, -, whole, -⟩ := runBound_eq_ok ran
        obtain ⟨r, r', relationIs, run, rfl⟩ := Database.run_eq_ok whole
        obtain ⟨definition, keyed⟩ :=
          Relation.run_keyed (sound.keyed r (List.mem_of_find?_eq_some relationIs)) run
        exact sound.replace relationIs definition keyed
      · exact sound

theorem Sound.close (sound : f.Sound) (session : Nat) :
    (f.close session).2.Sound ∧ f.Extends (f.close session).2 := by
  cases found : f.connections[session]? with
  | none =>
    simp only [File.close, found]
    exact ⟨sound, Extends.refl f⟩
  | some c =>
    have kept : ∀ name l, c.layout? name = some l → (Sqlite.close c).layout? name = some l :=
      fun _ _ => id
    simp only [File.close, found]
    exact ⟨sound.of_connections _, extends_set found kept rfl List.prefix_rfl⟩

theorem Sound.purgeAll (sound : f.Sound) (now : Nat) (layouts : List Layout) :
    Sound { f with database := (Sqlite.purgeAll now layouts f.database).2 } := by
  induction layouts generalizing f with
  | nil => exact sound
  | cons l rest ih =>
    have one : Sound { f with
        database := (f.database.purge l.table.name.text (reading now)).2 } := by
      unfold Database.purge
      split
      · exact sound
      · rename_i r relationIs
        exact sound.replace relationIs rfl
          ((sound.keyed r (List.mem_of_find?_eq_some relationIs)).filter _)
    exact ih one

theorem Sound.purge (sound : f.Sound) (now session : Nat) :
    (f.purge now session).Sound ∧ f.Extends (f.purge now session) := by
  unfold File.purge
  split
  · exact ⟨sound, Extends.refl f⟩
  · rename_i count db purged
    refine ⟨?_, extends_database f db⟩
    obtain ⟨c, -, purged⟩ := Option.bind_eq_some_iff.mp purged
    unfold Sqlite.purge at purged
    split at purged
    · cases purged
    · have all := sound.purgeAll now c.layouts
      rw [Option.some.inj purged] at all
      exact all

/-- Every request keeps a file sound and extends it. -/
theorem Sound.next {α : Type} (sound : f.Sound) (now : Nat) (p : Program Nat α) :
    (p.next (host now) f).2.Sound ∧ f.Extends (p.next (host now) f).2 := by
  cases p with
  | done a => exact ⟨sound, Extends.refl f⟩
  | connect k => exact ⟨sound.connect, extends_connect f⟩
  | prepare session t k => exact ⟨(sound.prepare session t).1, (sound.prepare session t).2.1⟩
  | execute session b k => exact sound.execute now session b
  | close session k => exact sound.close session
  | record e k => exact ⟨sound, Extends.refl f⟩

end File

end GroupStore.Sqlite

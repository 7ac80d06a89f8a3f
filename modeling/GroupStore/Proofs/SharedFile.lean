import GroupStore.Proofs.ReadBack
import GroupStore.Proofs.Twins
import GroupStore.Proofs.Sqlite.File

/-!
# Repositories on a shared database file

Sessions are opened on an empty file, repositories are started on them request by request, and
statements are executed, in any order.  A session checks a layout against those that it has
prepared itself; which definition the table in the file has was settled by whoever created it.

* `SharedFile`, `FileMove`, `SharedFile.move` — the system and its moves;
* `SharedFile.Sound` — the invariant: the file is sound, and a start that succeeds in the end has
  its statements accepted; `Sound.move` keeps it, and `Sound.reaches` says what such a start finds;
* `Layout.Alike`, `Definition.Fits` — layouts and definitions that differ at most in the name of the
  table;
* `SharedFile.runs_on_created_table` — the table that a repository reaches is the one that was
  created first under its name, whether the layouts agree or not.
-/

namespace GroupStore

open Sqlite

variable {α : Type}

/-! ### The system -/

/-- A start of a repository. -/
structure Starting (α : Type) where
  repository : Repository Nat α
  /-- What is left to do. -/
  rest : Program Nat (Except RepositoryError (Running Nat α))

/-- A database file with its sessions, and the starts of repositories. -/
structure SharedFile (α : Type) where
  file : File
  starts : List (Starting α)

/-- What may happen next. -/
inductive FileMove (α : Type) where
  /-- One more session is opened. -/
  | connect
  /-- The start of a repository begins. -/
  | begin (repository : Repository Nat α)
  /-- A start makes its next request. -/
  | step (start now : Nat)
  /-- A session executes a statement for whomever. -/
  | execute (session : Nat) (bound : Bound) (now : Nat)
  /-- A session deletes what has expired. -/
  | purge (session now : Nat)
  | close (session : Nat)

namespace SharedFile

/-- An empty file. -/
def initial : SharedFile α := ⟨.empty, []⟩

/-- Make a move; one that names nothing changes nothing. -/
def move (u : SharedFile α) : FileMove α → SharedFile α
  | .connect => { u with file := u.file.connect }
  | .begin repository => { u with starts := u.starts ++ [⟨repository, repository.start⟩] }
  | .step start now =>
    match u.starts[start]? with
    | none => u
    | some s =>
      let after := s.rest.next (File.host now) u.file
      ⟨after.2, u.starts.set start { s with rest := after.1 }⟩
  | .execute session bound now => { u with file := (u.file.execute now session bound).2 }
  | .purge session now => { u with file := u.file.purge now session }
  | .close session => { u with file := (u.file.close session).2 }

/-- Make some moves, first to last. -/
def run (u : SharedFile α) (moves : List (FileMove α)) : SharedFile α := moves.foldl move u

/-- The repositories whose starts have succeeded. -/
def running (u : SharedFile α) : List (Running Nat α) :=
  u.starts.filterMap fun s => s.rest.result?.bind Except.toOption

/-! ### The invariant -/

/-- A start that has succeeded has had the templates of its schema accepted. -/
def Settled (r : Repository Nat α) (f : File)
    (result : Except RepositoryError (Running Nat α)) : Prop :=
  ∀ running, result = .ok running → running.repository = r ∧
    ∀ kind, f.Accepted running.session (r.schema.template kind) (running.statements.of kind)

/-- A sound file, and starts that will be settled on whatever becomes of it. -/
structure Sound (u : SharedFile α) : Prop where
  file : u.file.Sound
  starts : ∀ s ∈ u.starts, ∀ f, u.file.Extends f → s.rest.Yields f.Accepted (Settled s.repository f)

theorem sound_initial : (initial : SharedFile α).Sound where
  file := File.sound_empty
  starts := fun _ absent => absurd absent List.not_mem_nil

variable {u : SharedFile α}

/-- A file may be extended under the starts. -/
theorem Sound.extend (sound : u.Sound) {f : File} (soundFile : f.Sound)
    (extension : u.file.Extends f) : Sound { u with file := f } where
  file := soundFile
  starts := fun s member f' later => sound.starts s member f' (extension.trans later)

theorem Sound.move (sound : u.Sound) (m : FileMove α) : (u.move m).Sound := by
  cases m with
  | connect => exact sound.extend sound.file.connect (File.extends_connect u.file)
  | begin repository =>
    refine ⟨sound.file, fun s member f later => ?_⟩
    rcases List.mem_append.mp member with old | new
    · exact sound.starts s old f later
    · rw [List.mem_singleton.mp new]
      exact repository.start_yields f.Accepted
  | step start now =>
    simp only [SharedFile.move]
    cases found : u.starts[start]? with
    | none => exact sound
    | some s =>
      obtain ⟨soundFile, extension⟩ := sound.file.next now s.rest
      have extended := sound.extend soundFile extension
      refine ⟨soundFile, fun s' member f later => ?_⟩
      rcases List.mem_or_eq_of_mem_set member with old | rfl
      · exact extended.starts s' old f later
      · -- What the request has had prepared is still accepted later.
        refine (extended.starts s (List.mem_of_getElem? found) f later).next _ u.file
          fun session t k p request answered => ?_
        have accepted := (sound.file.prepare session t).2.2 p answered
        refine accepted.mono ?_
        have after : (s.rest.next (File.host now) u.file).2 = (u.file.prepare session t).2 := by
          rw [request]
          rfl
        exact after ▸ later
  | execute session b now =>
    obtain ⟨soundFile, extension⟩ := sound.file.execute now session b
    exact sound.extend soundFile extension
  | purge session now =>
    obtain ⟨soundFile, extension⟩ := sound.file.purge now session
    exact sound.extend soundFile extension
  | close session =>
    obtain ⟨soundFile, extension⟩ := sound.file.close session
    exact sound.extend soundFile extension

/-- The invariant holds of whatever can be reached. -/
theorem Sound.run (sound : u.Sound) (moves : List (FileMove α)) : (u.run moves).Sound := by
  induction moves generalizing u with
  | nil => exact sound
  | cons m rest ih => exact ih (sound.move m)

/-- The statements of a started repository were accepted. -/
theorem Sound.accepted (sound : u.Sound) {running : Running Nat α} (started : running ∈ u.running)
    (kind : StatementKind) : u.file.Accepted running.session (running.schema.template kind)
      (running.statements.of kind) := by
  obtain ⟨s, member, succeeded⟩ := List.mem_filterMap.mp started
  obtain ⟨result, finished, ok⟩ := Option.bind_eq_some_iff.mp succeeded
  have rest : s.rest = .done (.ok running) := by
    cases left : s.rest with
    | done a =>
      rw [left] at finished
      cases finished
      cases result with
      | ok other =>
        cases ok
        rfl
      | error e => cases ok
    | _ => rw [left] at finished; cases finished
  have yields := sound.starts s member u.file (File.Extends.refl u.file)
  rw [rest] at yields
  obtain ⟨repositoryEq, accepted⟩ := yields running rfl
  rw [Running.schema, repositoryEq]
  exact accepted kind

/-- What a started repository finds: its session remembers its layout, and its statements, which
translate to its SQL, are admitted by the table that was created under its table's name. -/
structure Reaches (u : SharedFile α) (running : Running Nat α) (c : Connection) (l : Layout)
    (r : Relation) : Prop where
  connection : u.file.connections[running.session]? = some c
  knows : c.layout? running.schema.settings.table.name = some running.schema.layout
  created : u.file.createdAs? running.schema.settings.table.name.text = some l
  found : u.file.database.relation? running.schema.settings.table.name.text = some r
  definition : r.definition = .ofLayout l
  statements : ∀ kind, running.statements.of kind = preparedOf running.schema kind
  admits : ∀ kind, r.definition.admits (running.schema.sql kind) = true

theorem Sound.reaches (sound : u.Sound) {running : Running Nat α} (started : running ∈ u.running) :
    ∃ c l r, u.Reaches running c l r := by
  have accepted := sound.accepted started
  obtain ⟨⟨c, connected, known⟩, sql, l, translated, -, created, -⟩ := accepted .insert
  rw [running.schema.translate_template] at translated
  cases translated
  rw [running.schema.sql_table] at created
  have definitionEq := sound.file.relation? running.schema.settings.table.name.text
  rw [created, Option.map_some] at definitionEq
  obtain ⟨r, found, definition⟩ := Option.map_eq_some_iff.mp definitionEq
  have each (kind : StatementKind) :
      running.statements.of kind = preparedOf running.schema kind ∧
        r.definition.admits (running.schema.sql kind) = true := by
    obtain ⟨-, sql, l', translated, prepared, created', admits⟩ := accepted kind
    rw [running.schema.translate_template] at translated
    cases translated
    rw [running.schema.sql_table, created] at created'
    cases created'
    exact ⟨prepared, definition ▸ admits⟩
  rw [Schema.template_layout] at known
  exact ⟨c, l, r, connected, known, created, found, definition, fun kind => (each kind).1,
    fun kind => (each kind).2⟩

end SharedFile

/-! ### Layouts and definitions -/

/-- Two layouts that differ at most in the name of the table. -/
def Layout.Alike (l l' : Layout) : Prop := l.primaryKey = l'.primaryKey ∧ l.regular = l'.regular

/-- A definition with exactly the columns of a layout, and with its key, whatever the name. -/
def Sqlite.Definition.Fits (d : Definition) (l : Layout) : Prop :=
  d.columns = (Definition.ofLayout l).columns ∧ d.key = (Definition.ofLayout l).key

theorem Sqlite.columnOf_injective {a b : ColumnSpec} (columnEq : columnOf a = columnOf b) :
    a = b := by
  obtain ⟨name, kind⟩ := a
  obtain ⟨name', kind'⟩ := b
  obtain ⟨text, affinity, -⟩ := Column.mk.inj columnEq
  obtain rfl : name = name' := Identifier.eq_of_text text
  cases kind <;> cases kind' <;> first | rfl | cases affinity

/-- The definition of a layout tells its columns and its key. -/
theorem Sqlite.Definition.ofLayout_fits_iff {l l' : Layout} :
    (Definition.ofLayout l).Fits l' ↔ l.Alike l' := by
  constructor
  · rintro ⟨columns, key⟩
    have all : l.columns = l'.columns :=
      (List.map_inj_right fun _ _ => columnOf_injective).mp (List.append_cancel_right columns)
    have length : l.primaryKey.length = l'.primaryKey.length := by
      simpa [Definition.ofLayout] using congrArg List.length key
    exact List.append_inj all length
  · rintro ⟨key, regular⟩
    simp only [Definition.Fits, Definition.ofLayout, Layout.columns, key, regular, and_self]

/-- The rows of a table that hold some values in some columns. -/
def Sqlite.Relation.under (r : Relation) (columns : List String) (values : List Value) :
    List Record :=
  r.rows.filter fun row => columns.map (r.definition.cell row) = values.map Cell.ofValue

/-- At most one row of a table has given values in the columns of the key. -/
theorem Sqlite.Relation.Keyed.length_under {r : Relation} (keyed : r.Keyed) (key : List Value) :
    (r.under r.definition.key key).length ≤ 1 := by
  -- Two such rows would have the same key.
  have cellsEq : ∀ (columns : List String) (values : List Value) (a b : Record),
      columns.map (r.definition.cell a) = values.map Cell.ofValue →
      columns.map (r.definition.cell b) = values.map Cell.ofValue →
      (columns.all fun name => (r.definition.cell a name).sameAs (r.definition.cell b name)) := by
    intro columns
    induction columns with
    | nil => intros; rfl
    | cons name rest ih =>
      intro values a b atA atB
      cases values with
      | nil => cases atA
      | cons v others =>
        obtain ⟨firstA, restA⟩ := List.cons.inj atA
        obtain ⟨firstB, restB⟩ := List.cons.inj atB
        rw [List.all_cons, firstA, firstB, sameAs_ofValue, ih others a b restA restB]
        simp
  have holds : ∀ row ∈ r.under r.definition.key key,
      r.definition.key.map (r.definition.cell row) = key.map Cell.ofValue := by
    intro row member
    exact of_decide_eq_true (List.mem_filter.mp member).2
  have apart :
      (r.under r.definition.key key).Pairwise fun a b => r.definition.sameKey a b = false :=
    (keyed.imp fun kept => (Bool.or_eq_false_iff.mp kept).2).filter _
  match rows : r.under r.definition.key key with
  | [] | [_] => simp
  | a :: b :: rest =>
    rw [rows] at holds apart
    have differ := (List.pairwise_cons.mp apart).1 b List.mem_cons_self
    have equal := cellsEq r.definition.key key a b (holds a List.mem_cons_self)
      (holds b (List.mem_cons_of_mem _ List.mem_cons_self))
    rw [Definition.sameKey, equal] at differ
    cases differ

/-! ### The table that a repository reaches -/

/-- In every history of a file that was empty at first, the statements of a started repository reach
the table that was created first under the name, and this table has a place for whatever they
assign: a column, or the number of the row.  It has exactly the columns and the key of the
repository iff it was created under such a layout.  Then at most one row exists per key, and another
repository that reaches the table has an equal layout or is not at home on it either.  Repositories
on one session and one table name always have equal layouts. -/
theorem SharedFile.runs_on_created_table (moves : List (FileMove α)) (running : Running Nat α)
    (started : running ∈ ((initial : SharedFile α).run moves).running) :
    let u := (initial : SharedFile α).run moves
    let s := running.schema
    ∃ l r, u.file.createdAs? s.settings.table.name.text = some l ∧
      u.file.database.relation? s.settings.table.name.text = some r ∧
      r.definition = .ofLayout l ∧
      (∀ kind, sqlOf (running.statements.of kind) = .ok (s.sql kind) ∧
        r.definition.admits (s.sql kind) = true) ∧
      (r.definition.Fits s.layout ↔ l.Alike s.layout) ∧
      (l.Alike s.layout →
        ∀ key, (r.under (columnNames s.layout.primaryKey) key).length ≤ 1) ∧
      ∀ other ∈ u.running,
        (sameName other.schema.settings.table.name.text s.settings.table.name.text = true →
          u.file.createdAs? other.schema.settings.table.name.text = some l ∧
          (l.Alike s.layout → l.Alike other.schema.layout → other.schema.layout.Alike s.layout)) ∧
        (other.session = running.session →
          other.schema.settings.table.name = s.settings.table.name →
          other.schema.layout = s.layout) := by
  intro u s
  have sound : u.Sound := sound_initial.run moves
  obtain ⟨c, l, r, reached⟩ := sound.reaches started
  refine ⟨l, r, reached.created, reached.found, reached.definition,
    fun kind => ⟨reached.statements kind ▸ sqlOf_preparedOf s kind, reached.admits kind⟩, ?_,
    fun alike key => ?_, fun other started' => ⟨fun namesAgree => ?_, fun session name => ?_⟩⟩
  · rw [reached.definition]
    exact Definition.ofLayout_fits_iff
  · have key' : r.definition.key = columnNames s.layout.primaryKey := by
      rw [reached.definition, ← alike.1]
      rfl
    rw [← key']
    exact (sound.file.keyed r (List.mem_of_find?_eq_some reached.found)).length_under key
  · refine ⟨?_, fun own others => ⟨others.1.symm.trans own.1, others.2.symm.trans own.2⟩⟩
    rw [← reached.created, File.createdAs?, File.createdAs?]
    congr 1
    funext l'
    rw [sameName_comm, sameName_trans namesAgree, sameName_comm]
  · obtain ⟨c', _, _, reached'⟩ := sound.reaches started'
    have connected := reached'.connection
    rw [session, reached.connection] at connected
    cases connected
    have known := reached'.knows
    rw [name, reached.knows] at known
    exact (Option.some.inj known).symm

/-! ### Two repositories on one table -/

theorem exists_pair_of_map {β γ : Type} {f : β → γ} {l : List β} {x y : γ} (h : l.map f = [x, y]) :
    ∃ a ∈ l, ∃ b ∈ l, f a = x ∧ f b = y := by
  obtain ⟨a, rest, rfl, first, others⟩ := List.map_eq_cons_iff.mp h
  obtain ⟨b, rfl, second⟩ := List.map_eq_singleton_iff.mp others
  exact ⟨a, List.mem_cons_self, b, List.mem_cons_of_mem _ List.mem_cons_self, first, second⟩

namespace SharedFile

/-- A repository with the settings that nobody changed, on a session. -/
def plain (session : Nat) : Repository Nat Exchange where
  schema := plainRepository.schema
  codec := plainRepository.codec
  source := .borrowed session

/-- A repository on the same table in which the group and exchange id columns are exchanged. -/
def swapped (session : Nat) : Repository Nat Exchange where
  schema := ⟨{ table := Repository.resultsTable,
               keyColumn := defaultExchangeIdColumn,
               exchangeIdColumn := defaultKeyColumn }, rfl⟩
  codec := Payload.codec Payload.defaultLimit
  source := .borrowed session

/-- The insert of a result of a group under an exchange id by the plain repository. -/
def plainInsert (group id : String) : Bound where
  statement := ⟨(plain 0).schema.template .insert, ((plain 0).schema.sql .insert).text⟩
  values := [.text group, .text id, .blob ByteArray.empty]
  admitted := ((plain 0).schema.accept_iff .insert _).mpr rfl

/-- The start of a repository from its first request to its report. -/
def startMoves (start : Nat) (repository : Repository Nat α) : List (FileMove α) :=
  .begin repository :: List.replicate 11 (.step start 0)

/-- A session on which the plain repository starts and stores two results under one id. -/
def plainMoves : List (FileMove Exchange) :=
  .connect :: startMoves 0 (plain 0) ++
    [.execute 0 (plainInsert "k1" "x") 0, .execute 0 (plainInsert "k2" "x") 0]

/-- The table of the plain repository has its layout. -/
theorem runs_on_created_table_plain :
    ∃ running ∈ (initial.run plainMoves).running, ∃ r,
      (initial.run plainMoves).file.database.relation? "results" = some r ∧
        r.definition.Fits running.schema.layout ∧
        ∀ key, (r.under (columnNames running.schema.layout.primaryKey) key).length ≤ 1 := by
  obtain ⟨started, own⟩ : (initial.run plainMoves).running.map Running.schema = [(plain 0).schema] ∧
      (initial.run plainMoves).file.createdAs? "results" = some (plain 0).schema.layout := by
    decide +kernel
  obtain ⟨running, only, schema⟩ := List.map_eq_singleton_iff.mp started
  have member : running ∈ (initial.run plainMoves).running := by
    rw [only]
    exact List.mem_singleton.mpr rfl
  obtain ⟨l, r, created, found, -, -, fits, keyed, -⟩ :=
    runs_on_created_table plainMoves running member
  rw [schema] at created found fits keyed
  have alike : l.Alike (plain 0).schema.layout := by
    rw [show (plain 0).schema.settings.table.name.text = "results" from rfl, own] at created
    cases created
    exact ⟨rfl, rfl⟩
  refine ⟨running, member, r, found, ?_, ?_⟩
  · rw [schema]
    exact fits.mpr alike
  · rw [schema]
    exact keyed alike

/-- Then another session is opened, on which the other repository starts as well: its key is no key
of the table, which has two rows of one of its keys. -/
theorem swapped_runs_on_plain_table :
    let u := initial.run (plainMoves ++ .connect :: startMoves 1 (swapped 1))
    ∃ a ∈ u.running, ∃ b ∈ u.running, ∃ r,
      a.schema.settings.table = b.schema.settings.table ∧ ¬a.schema.layout.Alike b.schema.layout ∧
        u.file.database.relation? b.schema.settings.table.name.text = some r ∧
        ¬r.definition.Fits b.schema.layout ∧
        (r.under (columnNames b.schema.layout.primaryKey) [.text "x"]).length = 2 := by
  intro u
  obtain ⟨started, rows⟩ : u.running.map Running.schema = [(plain 0).schema, (swapped 1).schema] ∧
      (u.file.database.relation? "results").map
        (fun r => (r.definition, (r.under ["exchange_id"] [.text "x"]).length)) =
          some ((plain 0).schema.definition, 2) := by
    decide +kernel
  obtain ⟨a, startedA, b, startedB, schemaA, schemaB⟩ := exists_pair_of_map started
  obtain ⟨r, found, facts⟩ : ∃ r, u.file.database.relation? "results" = some r ∧
      r.definition = (plain 0).schema.definition ∧
      (r.under ["exchange_id"] [.text "x"]).length = 2 := by
    obtain ⟨r, found, both⟩ := Option.map_eq_some_iff.mp rows
    exact ⟨r, found, Prod.mk.inj both⟩
  have differ : ¬(plain 0).schema.layout.Alike (swapped 1).schema.layout := by
    rintro ⟨key, -⟩
    exact absurd key (by decide +kernel)
  refine ⟨a, startedA, b, startedB, r, ?_, ?_, ?_, ?_, ?_⟩
  · rw [schemaA, schemaB]
    rfl
  · rw [schemaA, schemaB]
    exact differ
  · rw [schemaB]
    exact found
  · rw [facts.1, schemaB]
    exact fun fits => differ (Definition.ofLayout_fits_iff.mp fits)
  · rw [schemaB]
    exact facts.2

end SharedFile

end GroupStore

import GroupStore.Settings
import GroupStore.Proofs.Agreement
import GroupStore.Proofs.Sqlite.Origin

/-!
# How long a row is visible

An insert stores the moment at which its row expires: the clock reading and the time to live in
milliseconds, both sums held at the greatest integer of a cell, or nothing without a time to live.
Selects and conditional deletes then compare this moment with their own reading, and a purge
compares it the other way round.  All of them mean one window, for all readings.

* `Visible` — the window;
* `expiry_eq_saturate`, `reading_inRange` — the arithmetic stays within the integers of a cell;
* `Definition.isLive_iff_visible` — the stored moment means the window;
* `Database.relation?_purge`, `purgeAll_relation?` — what a purge leaves;
* `File.visible_iff_within_lifetime` — a stored row, as long as it is there, is found, hit and
  purged accordingly.
-/

namespace GroupStore.Sqlite

/-! ### The window -/

/-- Whether a row with a time to live that was written at one reading is visible at another. -/
def Visible (ttlSeconds : Option Nat) (written now : Nat) : Prop :=
  ∀ seconds, ttlSeconds = some seconds →
    reading now < min (reading written + 1000 * seconds) maxInteger

instance (ttlSeconds : Option Nat) (written now : Nat) :
    Decidable (Visible ttlSeconds written now) :=
  match ttlSeconds with
  | none => .isTrue fun _ bounded => nomatch bounded
  | some seconds =>
    decidable_of_iff (reading now < min (reading written + 1000 * seconds) maxInteger)
      ⟨fun within _ secondsEq => Option.some.inj secondsEq ▸ within,
        fun visible => visible seconds rfl⟩

theorem isSome_of_not_visible {ttlSeconds : Option Nat} {written now : Nat}
    (gone : ¬Visible ttlSeconds written now) : ttlSeconds.isSome = true := by
  cases ttlSeconds with
  | none => exact absurd (fun _ bounded => nomatch bounded) gone
  | some seconds => rfl

/-! ### Integers of a cell -/

/-- Whether an integer is one of a cell. -/
def InRange (i : Int) : Prop := minInteger ≤ i ∧ i ≤ maxInteger

/-- The integer of a cell that is nearest. -/
def saturate (i : Int) : Int := max minInteger (min i maxInteger)

theorem saturate_inRange (i : Int) : InRange (saturate i) := by
  unfold InRange saturate minInteger maxInteger
  omega

theorem saturate_of_inRange {i : Int} (inside : InRange i) : saturate i = i := by
  unfold InRange at inside
  unfold saturate
  omega

theorem reading_nonneg (now : Nat) : 0 ≤ reading now := by
  unfold reading maxInteger
  omega

theorem reading_inRange (now : Nat) : InRange (reading now) := by
  unfold InRange reading minInteger maxInteger
  omega

/-- The milliseconds of an admissible time to live need no saturation. -/
theorem milliseconds_inRange {seconds : Nat} (admissible : seconds ≤ maxTtlSeconds) :
    InRange (seconds * 1000) := by
  unfold maxTtlSeconds at admissible
  unfold InRange minInteger maxInteger
  omega

/-- The stored moment is the saturated sum of the reading and the saturated product. -/
theorem expiry_eq_saturate (seconds written : Nat) : expiry (some seconds) written =
    .integer (saturate (reading written + saturate (seconds * 1000))) := by
  have least := reading_nonneg written
  rw [expiry, Cell.integer.injEq]
  unfold saturate minInteger maxInteger
  omega

/-! ### The stored moment -/

variable {d : Definition} {b : Bound} {row : Record} {written now : Nat}

/-- The row of an insert carries the moment at which it expires. -/
theorem cell_written {l : Layout} (distinct : (Definition.ofLayout l).Distinct)
    (insert : b.template.kind = .insert) (spares : SparesExpiry b.template.layout)
    (cells : row.cells = (Definition.ofLayout l).written b written) :
    (Definition.ofLayout l).cell row expiryColumn = expiry b.template.ttlSeconds written := by
  have lengths : (b.template.projection.map Identifier.text).length =
      (b.values.map Cell.ofValue).length := by
    rw [List.length_map, List.length_map, b.length_projection insert]
  have unbound : (((b.template.projection.map Identifier.text).zip
      (b.values.map Cell.ofValue)).find? fun entry => sameName entry.1 expiryColumn) = none := by
    rw [List.find?_eq_none, List.zip_map, ← b.template.parameterColumns_insert insert]
    intro entry member
    obtain ⟨⟨name, value⟩, bound, rfl⟩ := List.mem_map.mp member
    obtain ⟨spec, found, -⟩ := b.exists_column bound
    obtain ⟨inside, rfl⟩ := Layout.of_column?_eq_some found
    simpa using spares spec inside
  have cell := Definition.cell_cellsOf_of_mem distinct (hidden_mem l)
    (isNumberColumn_hidden distinct) cells
  rw [parameters, addedParameters, insert, List.zip_append lengths, List.find?_append,
    hidden] at cell
  simp only [unbound, Option.none_or, List.zip_cons_cons, List.zip_nil_right, List.find?_singleton,
    sameName_self, if_true] at cell
  refine cell.trans ?_
  cases b.template.ttlSeconds <;> rfl

/-- The stored moment means the window. -/
theorem Definition.isLive_iff_visible {ttlSeconds : Option Nat}
    (moment : d.cell row expiryColumn = expiry ttlSeconds written) :
    d.isLive row (reading now) = true ↔ Visible ttlSeconds written now := by
  rw [isLive, moment]
  cases ttlSeconds with
  | none => exact iff_of_true rfl fun _ bounded => nomatch bounded
  | some seconds =>
    have sum : reading written + seconds * 1000 = reading written + 1000 * seconds := by omega
    simp only [expiry, Cell.above, decide_eq_true_iff, sum]
    exact ⟨fun within _ secondsEq => Option.some.inj secondsEq ▸ within,
      fun visible => visible seconds rfl⟩

/-! ### Purging -/

/-- A purge of a table keeps the rows that live, and leaves all other tables. -/
theorem Database.relation?_purge {db : Database} {name : String} {r : Relation}
    (found : db.relation? name = some r) (table : String) (moment : Int) :
    (db.purge table moment).2.relation? name = some
      (if sameName table name then
        { r with rows := r.rows.filter fun row => r.definition.isLive row moment } else r) := by
  unfold Database.purge
  split
  · rename_i absent
    have other : ¬sameName table name = true := fun namesAgree => by
      rw [relation?_congr namesAgree, found] at absent
      cases absent
    rw [if_neg other, found]
  · rename_i r' relationIs
    let purged : Relation :=
      { r' with rows := r'.rows.filter fun row => r'.definition.isLive row moment }
    have own : sameName purged.definition.name table = true :=
      (relation?_name relationIs : sameName r'.definition.name table = true)
    have replaced : (db.replace table purged).relation? name = _ := relation?_replace own name
    rw [found, Option.map_some] at replaced
    refine replaced.trans (congrArg some ?_)
    by_cases namesAgree : sameName table name = true
    · have hit : sameName r.definition.name table = true := by
        rw [sameName_comm, sameName_trans namesAgree, sameName_comm]
        exact relation?_name found
      rw [relation?_congr namesAgree, found] at relationIs
      cases relationIs
      rw [if_pos hit, if_pos namesAgree]
    · have miss : ¬sameName r.definition.name table = true := fun hit =>
        namesAgree (by rw [← sameName_trans hit]; exact relation?_name found)
      rw [if_neg miss, if_neg namesAgree]

/-- A purge of the tables of some layouts keeps of one of them the rows that live. -/
theorem purgeAll_relation? {now : Nat} {layouts : List Layout} {db : Database} {name : String}
    {r : Relation} (found : db.relation? name = some r) :
    (purgeAll now layouts db).2.relation? name = some
      (if layouts.any fun l => sameName l.table.name.text name then
          { r with rows := r.rows.filter fun row => r.definition.isLive row (reading now) }
        else r) := by
  induction layouts generalizing db r with
  | nil => exact found
  | cons l rest ih =>
    refine (ih (Database.relation?_purge found l.table.name.text (reading now))).trans
      (congrArg some ?_)
    rw [List.any_cons]
    cases sameName l.table.name.text name <;> cases rest.any _ <;> simp

/-! ### Stored rows -/

/-- A row, the time to live with which it was written, and the clock reading then. -/
structure Timed where
  row : Record
  ttlSeconds : Option Nat
  written : Nat

namespace Timed

/-- What a select at a reading makes of a row of a table. -/
structure Shown (t : Timed) (f : File) (r : Relation) (reader : Nat) (q : Bound) (now : Nat) :
    Prop where
  /-- The row is picked iff it agrees with what is bound and is visible. -/
  picked : t.row ∈ r.rows.filter (r.definition.picks q now) ↔
    r.definition.Agrees q t.row ∧ Visible t.ttlSeconds t.written now
  /-- The picked rows are returned, unless one of them holds data of another kind. -/
  returned : ∀ answer, (f.execute now reader q).1 = .ok answer ↔
    (∀ old ∈ r.rows.filter (r.definition.picks q now), r.definition.Legible q old) ∧
      answer.rows = (r.rows.filter (r.definition.picks q now)).map (r.definition.project q)

/-- What a conditional delete at a reading makes of a row of the table of a name. -/
structure Hit (t : Timed) (f : File) (name : String) (r r' : Relation) (taken : Bool)
    (deleter : Nat)
    (q : Bound) (now : Nat) : Prop where
  answered : (f.execute now deleter q).1 = .ok (.flag taken)
  left : (f.execute now deleter q).2.database.relation? name = some r'
  taken : taken = true ↔ ∃ old ∈ r.rows, old ∉ r'.rows
  /-- The row is taken iff it agrees with what is bound and is visible. -/
  gone : t.row ∉ r'.rows ↔ r.definition.Agrees q t.row ∧ Visible t.ttlSeconds t.written now

/-- What a purge at a reading makes of a row of the table of a name. -/
structure Purged (t : Timed) (f : File) (name : String) (r' : Relation) (purger now : Nat) :
    Prop where
  left : (f.purge now purger).database.relation? name = some r'
  gone : t.row ∉ r'.rows ↔ t.ttlSeconds.isSome = true ∧ ¬Visible t.ttlSeconds t.written now

/-- What is made of a row of the table of a name at a reading, after a history of its file. -/
structure Lives (t : Timed) (history : List File.Request) (name : String) (r : Relation)
    (now : Nat) : Prop where
  select : ∀ reader q, (File.empty.serveAll history).Asks reader q →
    q.template.kind.isRead = true → q.template.condition = none →
    sameName q.template.layout.table.name.text name = true →
    t.Shown (File.empty.serveAll history) r reader q now
  /-- No select fails on a table that was created under its layout and is written over it. -/
  selectOwn : ∀ reader q, (File.empty.serveAll history).Asks reader q →
    q.template.kind.isRead = true → q.template.condition = none →
    sameName q.template.layout.table.name.text name = true →
    r.definition = .ofLayout q.template.layout →
    (∀ request ∈ history, request.WritesOver q.template.layout) →
    (∀ name ∈ q.template.projection, ∃ spec, q.template.layout.column? name = some spec) →
    ((File.empty.serveAll history).execute now reader q).1 =
      .ok ⟨(r.rows.filter (r.definition.picks q now)).map (r.definition.project q)⟩
  delete : ∀ deleter q, (File.empty.serveAll history).Asks deleter q →
    q.template.kind = .conditionalDelete →
    sameName q.template.layout.table.name.text name = true →
    ∃ r' taken, t.Hit (File.empty.serveAll history) name r r' taken deleter q now
  purge : ∀ purger c, (File.empty.serveAll history).connections[purger]? = some c →
    c.closed = false → (∃ l ∈ c.layouts, sameName l.table.name.text name = true) →
    ∃ r', t.Purged (File.empty.serveAll history) name r' purger now

/-- The moment of a row with a time to live of some seconds: the product and the sum are held within
the integers of a cell. -/
structure Expires (t : Timed) (d : Definition) (seconds : Nat) : Prop where
  bounded : InRange seconds
  milliseconds : InRange (seconds * 1000)
  moment : d.cell t.row expiryColumn = .integer (saturate (reading t.written + seconds * 1000))
  within : InRange (saturate (reading t.written + seconds * 1000))

end Timed

namespace File

variable {f : File} {session : Nat} {r : Relation} {q : Bound} {t : Timed} {name : String}

/-- An insert that succeeds leaves its row as the last of its table. -/
theorem Sound.stored (sound : f.Sound) (asks : f.Asks session b)
    (insert : b.template.kind = .insert) {result : ResultSet}
    (stored : (f.execute written session b).1 = .ok result) :
    ∃ r row, (f.execute written session b).2.database.relation?
        b.template.layout.table.name.text = some r ∧
      r.rows.getLast? = some row ∧ row.cells = r.definition.written b written := by
  obtain ⟨sql, r, stands⟩ := sound.stands asks
  obtain ⟨-, number, executed⟩ := stands.insert insert stored
  have table := translate_table stands.translated
  let row : Record := ⟨number, r.definition.written b written⟩
  let rows := r.rows.filter (fun old => !r.definition.replaces row old) ++ [row]
  refine ⟨{ r with rows }, row, ?_, List.getLast?_concat, rfl⟩
  rw [executed]
  exact relation?_withRows stands.found rows (table ▸ sameName_self _)

/-- A statement that stands on the table of a name stands on the table that is found there. -/
theorem Sound.stands_on (sound : f.Sound) (asks : f.Asks session q)
    (spelled : sameName q.template.layout.table.name.text name = true)
    (found : f.database.relation? name = some r) :
    ∃ sql, f.Stands session q sql r ∧ sameName sql.table name = true := by
  obtain ⟨sql, r', stands⟩ := sound.stands asks
  have table := translate_table stands.translated
  have own := stands.found
  rw [table, Database.relation?_congr spelled, found] at own
  cases own
  exact ⟨sql, stands, table ▸ spelled⟩

section Rows

variable (moment : r.definition.cell t.row expiryColumn = expiry t.ttlSeconds t.written)
  (member : t.row ∈ r.rows) (found : f.database.relation? name = some r)

include moment member found

/-- What a select at a reading returns of a table, and whether a row is among it. -/
theorem Sound.select_row (sound : f.Sound) (asks : f.Asks session q)
    (read : q.template.kind.isRead = true) (plain : q.template.condition = none)
    (spelled : sameName q.template.layout.table.name.text name = true) (now : Nat) :
    t.Shown f r session q now := by
  obtain ⟨sql, stands, -⟩ := sound.stands_on asks spelled found
  have notDelete : q.template.kind ≠ .deleteByKey := by
    intro kind
    rw [kind] at read
    cases read
  refine ⟨?_, stands.select now read plain⟩
  rw [List.mem_filter, r.definition.picks_iff, Definition.isLive_iff_visible moment]
  exact ⟨fun both => ⟨both.2.1, both.2.2 notDelete⟩, fun both => ⟨member, both.1, fun _ => both.2⟩⟩

/-- Which rows a conditional delete takes away. -/
theorem Sound.conditional_row (sound : f.Sound) (asks : f.Asks session q)
    (kind : q.template.kind = .conditionalDelete)
    (spelled : sameName q.template.layout.table.name.text name = true) (now : Nat) :
    ∃ r' taken, t.Hit f name r r' taken session q now := by
  obtain ⟨sql, stands, table⟩ := sound.stands_on asks spelled found
  obtain ⟨result, executed, flag⟩ := stands.delete now (.inr kind)
  rw [sameName_comm] at table
  let kept := r.rows.filter fun row => !r.definition.picks q now row
  refine ⟨{ r with rows := kept }, r.rows.any (r.definition.picks q now), ?_, ?_, ?_, ?_⟩
  · rw [executed, flag kind]
  · rw [executed]
    exact relation?_withRows stands.found kept table
  · simp only [kept]
    simp only [List.any_eq_true, List.mem_filter, not_and, Bool.not_eq_true, Bool.not_eq_false']
    exact ⟨fun ⟨old, inside, picked⟩ => ⟨old, inside, fun _ => picked⟩,
      fun ⟨old, inside, picked⟩ => ⟨old, inside, picked inside⟩⟩
  · have notDelete : q.template.kind ≠ .deleteByKey := by simp [kind]
    rw [List.mem_filter, not_and, Bool.not_eq_true', Bool.not_eq_false, r.definition.picks_iff,
      Definition.isLive_iff_visible moment]
    exact ⟨fun gone => ⟨(gone member).1, (gone member).2 notDelete⟩,
      fun both _ => ⟨both.1, fun _ => both.2⟩⟩

/-- Which rows a purge takes away from a table that the session has prepared. -/
theorem purge_row {c : Connection} (opened : f.connections[session]? = some c)
    (isOpen : c.closed = false)
    (remembers : ∃ l ∈ c.layouts, sameName l.table.name.text name = true) (now : Nat) :
    ∃ r', t.Purged f name r' session now := by
  have purged : (f.purge now session).database = (purgeAll now c.layouts f.database).2 := by
    simp only [File.purge, opened, Option.bind_some, Sqlite.purge, isOpen, Bool.false_eq_true,
      if_false]
  have prepared : (c.layouts.any fun l => sameName l.table.name.text name) = true :=
    List.any_eq_true.mpr remembers
  refine ⟨_, by rw [purged, purgeAll_relation? found, if_pos prepared], ?_⟩
  rw [List.mem_filter, not_and, Definition.isLive_iff_visible moment]
  exact ⟨fun gone => ⟨isSome_of_not_visible (gone member), gone member⟩, fun both _ => both.2⟩

end Rows

/-- A table keeps its definition, whatever is asked for. -/
theorem Sound.definition_serveAll (sound : f.Sound) {requests : List Request} {r' : Relation}
    (found : f.database.relation? name = some r)
    (later : (f.serveAll requests).database.relation? name = some r') :
    r'.definition = r.definition := by
  obtain ⟨sound', extension⟩ := sound.serveAll requests
  obtain ⟨-, l, created, definition, -⟩ := sound.table found
  obtain ⟨-, l', created', definition', -⟩ := sound'.table later
  rw [extension.createdAs? created] at created'
  cases created'
  rw [definition, definition']

/-- A row with a moment is treated by it after any history. -/
theorem lives_of_moment {history : List Request}
    (found : (empty.serveAll history).database.relation? name = some r) (member : t.row ∈ r.rows)
    (moment : r.definition.cell t.row expiryColumn = expiry t.ttlSeconds t.written) (now : Nat) :
    t.Lives history name r now := by
  have sound : (empty.serveAll history).Sound := (sound_empty.serveAll history).1
  have select (reader : Nat) (q : Bound) (asks : (empty.serveAll history).Asks reader q)
      (read : q.template.kind.isRead = true) (plain : q.template.condition = none)
      (spelled : sameName q.template.layout.table.name.text name = true) :
      t.Shown (empty.serveAll history) r reader q now :=
    sound.select_row moment member found asks read plain spelled now
  constructor
  case select => exact select
  case selectOwn =>
    intro reader q asks read plain spelled own overwrites known
    refine ((select reader q asks read plain spelled).returned _).mpr ⟨fun old picked => ?_, rfl⟩
    have filled : (empty.serveAll history).Filled q.template.layout :=
      (filled_empty q.template.layout).serveAll sound_empty overwrites
    have typed := filled r (by rw [Database.relation?_congr spelled, found]) own old
      (List.mem_filter.mp picked).1
    exact legible_of_typed typed known
  case delete =>
    exact fun deleter q asks kind spelled =>
      sound.conditional_row moment member found asks kind spelled now
  case purge =>
    exact fun purger c opened isOpen remembers =>
      purge_row moment member found opened isOpen remembers now

/-- A layout under which a table was created leaves the hidden name free. -/
theorem Sound.sparesExpiry (sound : f.Sound) {l : Layout} (created : f.createdAs? name = some l) :
    SparesExpiry l :=
  (sound.definable l (List.mem_of_find?_eq_some created)).distinct.sparesExpiry

/-- In every history of a file that was empty at first, a row that an insert stores at one clock
reading is visible at another reading exactly within its time to live, for as long as it is there.
A select with which the row agrees has it among the rows that it returns, and a conditional delete
takes it away, if and only if it is visible then; a purge takes it away if and only if it has a
time to live and is not visible.  A select fails only over rows of another layout's data, and
never on a table that was created under its layout and is written over it.  Clock readings are
held within the integers of a cell, the milliseconds of an admissible time to live lie within them
as they are, and the moment that is stored is their sum, again held there.  The insert must not
write the hidden column itself, which it never does if its table was created under its layout. -/
theorem visible_iff_within_lifetime (before after : List Request) {session written : Nat}
    {b : Bound}
    {result : ResultSet} (asks : (empty.serveAll before).Asks session b)
    (insert : b.template.kind = .insert)
    (spares : SparesExpiry b.template.layout ∨ (empty.serveAll before).createdAs?
      b.template.layout.table.name.text = some b.template.layout)
    (stored : ((empty.serveAll before).execute written session b).1 = .ok result) :
    let history := before ++ .execute session b written :: after
    let table := b.template.layout.table.name.text
    ∃ r₀ row,
      ((empty.serveAll before).execute written session b).2.database.relation? table = some r₀ ∧
      r₀.rows.getLast? = some row ∧ row.cells = r₀.definition.written b written ∧
      let t : Timed := ⟨row, b.template.ttlSeconds, written⟩
      (∀ r, (empty.serveAll history).database.relation? table = some r → row ∈ r.rows →
        ∀ now, t.Lives history table r now) ∧
      (∀ now, reading now = min (now : Int) maxInteger ∧ InRange (reading now)) ∧
      ∀ seconds, b.template.ttlSeconds = some seconds → seconds ≤ maxTtlSeconds →
        t.Expires r₀.definition seconds := by
  intro history table
  obtain ⟨sound, -⟩ := sound_empty.serveAll before
  have soundNext := (sound.execute written session b).1
  obtain ⟨r₀, row, found₀, last, cells⟩ := sound.stored asks insert stored
  obtain ⟨-, l, -, definition₀, definable⟩ := soundNext.table found₀
  have moment : r₀.definition.cell row expiryColumn = expiry b.template.ttlSeconds written := by
    rw [definition₀] at cells ⊢
    exact cell_written definable.distinct insert (spares.elim id sound.sparesExpiry) cells
  have split : empty.serveAll history =
      (((empty.serveAll before).execute written session b).2).serveAll after :=
    serveAll_append empty before _
  refine ⟨r₀, row, found₀, last, cells, fun r found member now => ?_,
    fun now => ⟨rfl, reading_inRange now⟩, fun seconds given admissible => ?_⟩
  · have definition : r.definition = r₀.definition := by
      rw [split] at found
      exact soundNext.definition_serveAll found₀ found
    exact lives_of_moment found member (definition ▸ moment) now
  · have milliseconds := milliseconds_inRange admissible
    refine ⟨?_, milliseconds, ?_, saturate_inRange _⟩
    · unfold InRange minInteger maxInteger at milliseconds ⊢
      omega
    · rw [moment, given, expiry_eq_saturate, saturate_of_inRange milliseconds]

/-- A statement of the short-lived repository with values bound to it. -/
def briefBound (kind : StatementKind) (values : List Value)
    (kinds : values.map Value.kind = (shortLived.schema.parameterSpecs kind).map ColumnSpec.kind) :
    Bound where
  statement := ⟨shortLived.schema.template kind, (shortLived.schema.sql kind).text⟩
  values := values
  admitted := (shortLived.schema.accept_iff kind values).mpr kinds

/-- A session that has prepared the insert and the select by key. -/
def briefOpening : List Request :=
  [.connect, .prepare 0 (shortLived.schema.template .insert),
    .prepare 0 (shortLived.schema.template .selectByKey)]

/-- A row that is written for a minute when the clock is beyond all integers of a cell can be read
at readings before, and at no reading as late. -/
theorem visible_iff_within_lifetime_late :
    let b := briefBound .insert [.text "k", .text "x", .blob ByteArray.empty] rfl
    let q := briefBound .selectByKey [.text "k"] rfl
    let f := empty.serveAll (briefOpening ++ [.execute 0 b (maxInteger.toNat + 8)])
    ∃ r row, f.database.relation? "results" = some r ∧ row ∈ r.rows ∧
      row ∈ r.rows.filter (r.definition.picks q 5) ∧
      row ∉ r.rows.filter (r.definition.picks q (maxInteger.toNat + 9)) := by
  intro b q f
  let f₁ := empty.serveAll [.connect, .prepare 0 (shortLived.schema.template .insert)]
  have sound₁ : f₁.Sound := (sound_empty.serveAll _).1
  have sound₀ : (empty.serveAll [.connect]).Sound := (sound_empty.serveAll _).1
  have insert : (empty.serveAll briefOpening).Accepted 0 b.template b.statement :=
    ((sound₀.prepare 0 _).2.2 b.statement (by decide +kernel)).mono (sound₁.prepare_keeps 0 _).2
  have select : f.Accepted 0 q.template q.statement :=
    ((sound₁.prepare 0 _).2.2 q.statement (by decide +kernel)).mono
      ((sound₁.prepare_keeps 0 _).1.execute (maxInteger.toNat + 8) 0 b).2
  have isOpen (g : File) (evaluated : (g.connections[0]?.any fun c => !c.closed) = true) :
      ∃ c, g.connections[0]? = some c ∧ c.closed = false := by
    obtain ⟨c, connected, isOpen⟩ := (Option.any_eq_true _ _).mp evaluated
    exact ⟨c, connected, by simpa using isOpen⟩
  have stored : ((empty.serveAll briefOpening).execute (maxInteger.toNat + 8) 0 b).1 =
      .ok .empty := by
    decide +kernel
  have created : (empty.serveAll briefOpening).createdAs? b.template.layout.table.name.text =
      some b.template.layout := by
    decide +kernel
  obtain ⟨r₀, row, found, last, cells, lives, -⟩ := visible_iff_within_lifetime briefOpening []
    ⟨insert, isOpen _ (by decide +kernel)⟩ rfl (.inr created) stored
  have member : row ∈ r₀.rows := List.mem_of_getLast? last
  have evaluated : f.database.relation? "results" = some ⟨shortLived.schema.definition,
      [⟨1, rowCells [.text "k"] ⟨"x", ByteArray.empty, some maxInteger.toNat⟩⟩]⟩ := by
    decide +kernel
  obtain rfl : _ = r₀ := Option.some.inj (evaluated.symm.trans found)
  obtain rfl : _ = row := Option.some.inj last
  have agrees : shortLived.schema.definition.Agrees q
      ⟨1, rowCells [.text "k"] ⟨"x", ByteArray.empty, some maxInteger.toNat⟩⟩ := by
    unfold Definition.Agrees
    decide +kernel
  have reads (now : Nat) :=
    ((lives _ found member now).select 0 q ⟨select, isOpen _ (by decide +kernel)⟩ rfl rfl
      (by decide +kernel)).picked
  refine ⟨_, _, found, member, (reads 5).mpr ⟨agrees, by decide +kernel⟩, fun late => ?_⟩
  exact absurd ((reads (maxInteger.toNat + 9)).mp late).2 (by decide +kernel)

end File

end GroupStore.Sqlite

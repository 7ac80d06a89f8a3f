import Mathlib.Data.List.Nodup
import GroupStore.Settings.Draft
import GroupStore.Proofs.Schema

/-!
# Which settings make a schema

A draft has its names as plain text.  Each name is read, the prefix is made, and then the settings
are checked as a whole.  The stages refuse what does not follow the grammar of names, a column that
is named twice and a time-to-live out of range, and they refuse nothing else.

* `IsName`, `IsTableName` — the grammar of names, apart from the readers;
* `TableName.ofText_eq_ok_iff` — a table is read from the text that it is written as, and no other;
* `Settings.Draft.settings_eq_ok_iff` — the settings that a draft describes;
* `Settings.Draft.WellFormed` — names that follow the grammar, distinct columns, a time-to-live in
  range;
* `Settings.Draft.makes_schema_iff` — exactly the well-formed drafts make a schema.
-/

namespace GroupStore

/-! ### The grammar of names -/

/-- A letter from `A` to `Z` or from `a` to `z`, or an underscore. -/
def IsLetter (c : Char) : Prop := ('A' ≤ c ∧ c ≤ 'Z') ∨ ('a' ≤ c ∧ c ≤ 'z') ∨ c = '_'

/-- A digit from `0` to `9`. -/
def IsDigit (c : Char) : Prop := '0' ≤ c ∧ c ≤ '9'

/-- A letter and then letters and digits, at most 48 bytes in all. -/
structure IsName (text : String) : Prop where
  shape : ∃ first rest, text.toList = first :: rest ∧ IsLetter first ∧
    ∀ c ∈ rest, IsLetter c ∨ IsDigit c
  size : text.utf8ByteSize ≤ 48

/-- One name, or two with a dot between them. -/
def IsTableName (text : String) : Prop :=
  IsName text ∨ ∃ qualifier name, text = qualifier ++ "." ++ name ∧ IsName qualifier ∧ IsName name

theorem between_iff {low high c : Char} :
    (decide (low.val ≤ c.val) && decide (c.val ≤ high.val)) = true ↔ low ≤ c ∧ c ≤ high := by
  rw [Bool.and_eq_true, decide_eq_true_iff, decide_eq_true_iff]
  rfl

theorem isAlpha_iff {c : Char} :
    c.isAlpha = true ↔ ('A' ≤ c ∧ c ≤ 'Z') ∨ ('a' ≤ c ∧ c ≤ 'z') := by
  have upper : c.isUpper = true ↔ 'A' ≤ c ∧ c ≤ 'Z' := decide_eq_true_iff
  have lower : c.isLower = true ↔ 'a' ≤ c ∧ c ≤ 'z' := between_iff
  have letters : c.isAlpha = (c.isUpper || c.isLower) := rfl
  rw [letters, Bool.or_eq_true, upper, lower]

theorem begins_iff {c : Char} : Identifier.begins c = true ↔ IsLetter c := by
  rw [Identifier.begins, Bool.or_eq_true, isAlpha_iff, beq_iff_eq, or_assoc]
  rfl

theorem continues_iff {c : Char} :
    Identifier.continues c = true ↔ IsLetter c ∨ IsDigit c := by
  have digit : c.isDigit = true ↔ IsDigit c := between_iff
  have alphanumeric : c.isAlphanum = (c.isAlpha || c.isDigit) := rfl
  have letter := begins_iff (c := c)
  rw [Identifier.begins, Bool.or_eq_true] at letter
  rw [Identifier.continues, alphanumeric, Bool.or_eq_true, Bool.or_eq_true, or_right_comm, letter,
    digit]

theorem shaped_iff {cs : List Char} : Identifier.shaped cs = true ↔
    ∃ first rest, cs = first :: rest ∧ IsLetter first ∧ ∀ c ∈ rest, IsLetter c ∨ IsDigit c := by
  cases cs with
  | nil => simp [Identifier.shaped]
  | cons first rest =>
    rw [Identifier.shaped, Bool.and_eq_true, begins_iff, List.all_eq_true]
    simp only [continues_iff]
    refine ⟨fun both => ⟨first, rest, rfl, both⟩, ?_⟩
    rintro ⟨_, _, consEq, both⟩
    cases consEq
    exact both

/-- The names are the texts of identifiers. -/
theorem isName_iff {text : String} : IsName text ↔ ∃ name : Identifier, name.text = text := by
  constructor
  · rintro ⟨shape, size⟩
    exact ⟨⟨text, shaped_iff.mpr shape, size⟩, rfl⟩
  · rintro ⟨name, rfl⟩
    exact ⟨shaped_iff.mp name.plain, name.short⟩

theorem Identifier.isName (name : Identifier) : IsName name.text := isName_iff.mpr ⟨name, rfl⟩

/-! ### Reading names -/

/-- A text is read as the identifier that has it, in every role. -/
theorem Identifier.ofText_eq_ok_iff {role : NameRole} {text : String} {name : Identifier} :
    Identifier.ofText role text = .ok name ↔ name.text = text := by
  constructor
  · intro read
    unfold Identifier.ofText at read
    split at read
    · cases read
    · split at read
      · split at read <;> cases read
        rfl
      · cases read
  · rintro rfl
    rw [Identifier.ofText, if_neg name.text_ne_empty, dif_pos name.short, dif_pos name.plain]

/-- A dot is no part of a name. -/
theorem Identifier.dot_not_mem (name : Identifier) : '.' ∉ name.text.toList :=
  fun member => absurd (name.continues_of_mem _ member) (by decide)

namespace TableName

theorem text_plain (name : Identifier) : text ⟨none, name⟩ = name.text := rfl

theorem text_qualified (qualifier name : Identifier) :
    text ⟨some qualifier, name⟩ = qualifier.text ++ "." ++ name.text := rfl

theorem parts_eq_splitOn (cs : List Char) : parts cs = cs.splitOn '.' := by
  induction cs with
  | nil => rfl
  | cons c rest ih =>
    rw [parts, List.splitOn_cons_eq_if_modifyHead, ih]
    by_cases dot : c = '.'
    · simp [dot]
    · simp only [dot, if_false, beq_iff_eq]
      cases split : rest.splitOn '.' with
      | nil => exact absurd split (List.splitOn_ne_nil _ _)
      | cons part others => rfl

/-- The parts of a text, put together again. -/
theorem of_parts {text : String} {ps : List (List Char)} (split : parts text.toList = ps) :
    text = String.ofList (['.'].intercalate ps) := by
  rw [← split, parts_eq_splitOn, List.intercalate_splitOn, String.ofList_toList]

theorem parts_name (name : Identifier) : parts name.text.toList = [name.text.toList] := by
  rw [parts_eq_splitOn, List.splitOn_eq_singleton name.dot_not_mem]

theorem parts_qualified (qualifier name : Identifier) :
    parts (qualifier.text ++ "." ++ name.text).toList =
      [qualifier.text.toList, name.text.toList] := by
  rw [parts_eq_splitOn]
  have dotted : (qualifier.text ++ "." ++ name.text).toList =
      qualifier.text.toList ++ '.' :: name.text.toList := by
    simp [String.toList_append]
  rw [dotted, List.splitOn_append_cons_self_of_not_mem qualifier.dot_not_mem,
    List.splitOn_eq_singleton name.dot_not_mem]

/-- A text is read as the table that is written so. -/
theorem ofText_eq_ok_iff {text : String} {table : TableName} :
    ofText text = .ok table ↔ table.text = text := by
  constructor
  · intro read
    unfold ofText at read
    split at read
    · rename_i part split
      obtain ⟨name, found, tableEq⟩ := bind_eq_ok_iff.mp read
      cases tableEq
      rw [of_parts split, text_plain, Identifier.ofText_eq_ok_iff.mp found,
        List.intercalate_singleton]
    · rename_i first second split
      obtain ⟨qualifier, found, rest⟩ := bind_eq_ok_iff.mp read
      obtain ⟨name, found', tableEq⟩ := bind_eq_ok_iff.mp rest
      cases tableEq
      rw [of_parts split, text_qualified, Identifier.ofText_eq_ok_iff.mp found,
        Identifier.ofText_eq_ok_iff.mp found']
      apply String.toList_injective
      simp [List.intercalate]
    · cases read
  · rintro rfl
    obtain ⟨keyspace, name⟩ := table
    cases keyspace with
    | none =>
      simp only [text_plain, ofText, parts_name, String.ofList_toList]
      exact bind_eq_ok_iff.mpr ⟨name, Identifier.ofText_eq_ok_iff.mpr rfl, rfl⟩
    | some qualifier =>
      simp only [text_qualified, ofText, parts_qualified, String.ofList_toList]
      exact bind_eq_ok_iff.mpr ⟨qualifier, Identifier.ofText_eq_ok_iff.mpr rfl,
        bind_eq_ok_iff.mpr ⟨name, Identifier.ofText_eq_ok_iff.mpr rfl, rfl⟩⟩

/-- The names of tables are the texts of tables. -/
theorem isTableName_iff {text : String} :
    IsTableName text ↔ ∃ table : TableName, table.text = text := by
  constructor
  · rintro (plain | ⟨qualifier, name, rfl, left, right⟩)
    · obtain ⟨name, rfl⟩ := isName_iff.mp plain
      exact ⟨⟨none, name⟩, rfl⟩
    · obtain ⟨keyspace, rfl⟩ := isName_iff.mp left
      obtain ⟨name, rfl⟩ := isName_iff.mp right
      exact ⟨⟨some keyspace, name⟩, rfl⟩
  · rintro ⟨⟨keyspace, name⟩, rfl⟩
    cases keyspace with
    | none => exact .inl name.isName
    | some qualifier => exact .inr ⟨_, _, rfl, qualifier.isName, name.isName⟩

end TableName

/-! ### Reading drafts -/

theorem FixedPrefix.ofEntries_eq_ok_iff {entries : List PrefixColumn} {p : FixedPrefix} :
    FixedPrefix.ofEntries entries = .ok p ↔ p.entries = entries := by
  unfold FixedPrefix.ofEntries
  constructor
  · intro made
    split at made <;> cases made
    rfl
  · rintro rfl
    split
    · rfl
    · rename_i column repeated
      rw [p.distinct] at repeated
      cases repeated

namespace Settings.Draft

variable {d : Draft}

theorem column_eq_ok_iff {text : String} {name : Identifier} :
    column text = .ok name ↔ name.text = text := by
  rw [column, mapError_eq_ok_iff, Identifier.ofText_eq_ok_iff]

theorem columnOr_eq_ok_iff {usual name : Identifier} {text : Option String} :
    columnOr usual text = .ok name ↔ name.text = text.getD usual.text := by
  cases text with
  | none =>
    refine ⟨fun nameIs => ?_, fun textEq => ?_⟩
    · cases nameIs
      rfl
    · exact congrArg Except.ok (Identifier.eq_of_text textEq).symm
  | some text => exact column_eq_ok_iff

/-- A column of the fixed prefix as it is written down. -/
def written (entry : PrefixColumn) : String × Value := (entry.column.text, entry.value)

theorem prefixEntries_eq_ok_iff {pairs : List (String × Value)} {entries : List PrefixColumn} :
    prefixEntries pairs = .ok entries ↔ entries.map written = pairs := by
  induction pairs generalizing entries with
  | nil =>
    rw [List.map_eq_nil_iff]
    exact ⟨fun entriesIs => by cases entriesIs; rfl, fun isEmpty => isEmpty ▸ rfl⟩
  | cons pair rest ih =>
    obtain ⟨text, value⟩ := pair
    rw [prefixEntries, bind_eq_ok_iff, List.map_eq_cons_iff]
    constructor
    · rintro ⟨name, read, later⟩
      obtain ⟨others, found, entriesEq⟩ := bind_eq_ok_iff.mp later
      cases entriesEq
      exact ⟨⟨name, value⟩, others, rfl,
        congrArg (·, value) (column_eq_ok_iff.mp read), ih.mp found⟩
    · rintro ⟨entry, others, rfl, writtenIs, found⟩
      obtain ⟨rfl, rfl⟩ := Prod.mk.inj writtenIs
      exact ⟨entry.column, column_eq_ok_iff.mpr rfl,
        bind_eq_ok_iff.mpr ⟨others, ih.mpr found, rfl⟩⟩

/-- The text of the group key column. -/
def keyName (d : Draft) : String := d.keyColumn.getD defaultKeyColumn.text

/-- The text of the exchange id column. -/
def exchangeIdName (d : Draft) : String := d.exchangeIdColumn.getD defaultExchangeIdColumn.text

/-- The text of the payload column. -/
def payloadName (d : Draft) : String := d.payloadColumn.getD defaultPayloadColumn.text

/-- The columns as they are written down: the prefix, then the key, the exchange id and the
payload. -/
def columnNames (d : Draft) : List String :=
  d.fixedPrefix.map Prod.fst ++ [d.keyName, d.exchangeIdName, d.payloadName]

/-- Settings are written down as a draft. -/
structure Describes (d : Draft) (s : Settings) : Prop where
  table : s.table.text = d.table
  fixedPrefix : s.fixedPrefix.entries.map written = d.fixedPrefix
  key : s.keyColumn.text = d.keyName
  exchangeId : s.exchangeIdColumn.text = d.exchangeIdName
  payload : s.payloadColumn.text = d.payloadName
  ttl : s.ttlSeconds = d.ttlSeconds
  levels : s.readConsistency = d.readConsistency ∧ s.writeConsistency = d.writeConsistency

/-- A draft is read as the settings that it describes. -/
theorem settings_eq_ok_iff {s : Settings} : d.settings = .ok s ↔ d.Describes s := by
  simp only [settings, bind_eq_ok_iff, mapError_eq_ok_iff, TableName.ofText_eq_ok_iff,
    prefixEntries_eq_ok_iff, FixedPrefix.ofEntries_eq_ok_iff, columnOr_eq_ok_iff]
  constructor
  · rintro ⟨table, named, _, entries, fixedPrefix, rfl, key, keyed, id, identified, payload, paid,
      settingsEq⟩
    cases settingsEq
    exact ⟨named, entries, keyed, identified, paid, rfl, rfl, rfl⟩
  · rintro ⟨table, fixedPrefix, key, id, payload, ttl, read, write⟩
    refine ⟨s.table, table, _, fixedPrefix, s.fixedPrefix, rfl, s.keyColumn, key,
      s.exchangeIdColumn, id, s.payloadColumn, payload, ?_⟩
    rw [← ttl, ← read, ← write]
    rfl

/-! ### Well-formed drafts -/

/-- Names that follow the grammar, columns that are all different, and a time-to-live of at most
twenty years, if there is one. -/
structure WellFormed (d : Draft) : Prop where
  table : IsTableName d.table
  columns : ∀ name ∈ d.columnNames, IsName name
  distinct : d.columnNames.Nodup
  ttl : ∀ seconds, d.ttlSeconds = some seconds → 1 ≤ seconds ∧ seconds ≤ 630720000

/-- The columns of settings are written down in their order. -/
theorem Describes.columnNames {s : Settings} (describes : d.Describes s) :
    s.allColumns.map Identifier.text = d.columnNames := by
  rw [allColumns, ownColumns, FixedPrefix.columns, Draft.columnNames, ← describes.fixedPrefix,
    ← describes.key, ← describes.exchangeId, ← describes.payload]
  simp [written]

/-- Entries whose columns are read from names that follow the grammar. -/
theorem exists_entries {pairs : List (String × Value)} (names : ∀ p ∈ pairs, IsName p.1) :
    ∃ entries : List PrefixColumn, entries.map written = pairs := by
  induction pairs with
  | nil => exact ⟨[], rfl⟩
  | cons pair rest ih =>
    obtain ⟨name, named⟩ := isName_iff.mp (names pair List.mem_cons_self)
    obtain ⟨entries, writtenEq⟩ := ih fun p member => names p (List.mem_cons_of_mem _ member)
    exact ⟨⟨name, pair.2⟩ :: entries, by rw [List.map_cons, writtenEq, written, named]⟩

/-- A well-formed draft describes some settings. -/
theorem WellFormed.exists_describes (right : d.WellFormed) : ∃ s, d.Describes s := by
  have named : ∀ name ∈ d.columnNames, ∃ column : Identifier, column.text = name :=
    fun name member => isName_iff.mp (right.columns name member)
  obtain ⟨table, tableText⟩ := TableName.isTableName_iff.mp right.table
  obtain ⟨entries, entriesText⟩ : ∃ entries : List PrefixColumn,
      entries.map written = d.fixedPrefix := by
    refine exists_entries fun p member => right.columns p.1 (List.mem_append_left _ ?_)
    exact List.mem_map_of_mem member
  obtain ⟨key, keyText⟩ := named d.keyName (by simp [columnNames])
  obtain ⟨id, idText⟩ := named d.exchangeIdName (by simp [columnNames])
  obtain ⟨payload, payloadText⟩ := named d.payloadName (by simp [columnNames])
  have distinct : firstRepeat? [] (entries.map PrefixColumn.column) = none := by
    refine (firstRepeat?_eq_none_iff _ _).mpr ⟨?_, fun _ _ => List.not_mem_nil⟩
    have texts := (List.nodup_append.mp right.distinct).1
    rw [← entriesText, List.map_map] at texts
    rw [← List.nodup_map_iff Identifier.text_injective, List.map_map]
    exact texts
  exact ⟨⟨table, ⟨entries, distinct⟩, key, id, payload, d.ttlSeconds, d.readConsistency,
    d.writeConsistency⟩, tableText, entriesText, keyText, idText, payloadText, rfl, rfl, rfl⟩

/-- The settings that a draft describes pass their check iff the draft is well formed. -/
theorem Describes.check_iff {s : Settings} (describes : d.Describes s) :
    s.check = .ok () ↔ d.WellFormed := by
  have distinct : s.allColumns.Nodup ↔ d.columnNames.Nodup := by
    rw [← describes.columnNames, List.nodup_map_iff Identifier.text_injective]
  rw [check_eq_ok_iff, distinct, describes.ttl]
  constructor
  · rintro ⟨distinct, ttl⟩
    refine ⟨TableName.isTableName_iff.mpr ⟨s.table, describes.table⟩, fun name member => ?_,
      distinct, ttl⟩
    rw [← describes.columnNames] at member
    obtain ⟨column, -, rfl⟩ := List.mem_map.mp member
    exact column.isName
  · exact fun right => ⟨right.distinct, right.ttl⟩

/-- What it takes to make a schema of a draft. -/
theorem schema_eq_ok_iff {schema : Schema} :
    d.settings.bind Schema.ofSettings = .ok schema ↔ d.Describes schema.settings := by
  refine bind_eq_ok_iff.trans ?_
  simp only [settings_eq_ok_iff, Schema.ofSettings_eq_ok_iff, exists_eq_right']

/-- A draft makes a schema iff its table and columns follow the grammar of names, its columns are
all different and its time-to-live is in range.  The schema has the table that is written down,
and the columns in the order in which they are, none of them twice. -/
theorem makes_schema_iff (d : Draft) :
    ((∃ schema, d.settings.bind Schema.ofSettings = .ok schema) ↔ d.WellFormed) ∧
    ∀ schema, d.settings.bind Schema.ofSettings = .ok schema →
      schema.settings.table.text = d.table ∧
      schema.columns.map Identifier.text = d.columnNames ∧ schema.columns.Nodup := by
  refine ⟨⟨fun ⟨schema, made⟩ => ?_, fun right => ?_⟩, fun schema made => ?_⟩
  · exact (schema_eq_ok_iff.mp made).check_iff.mp schema.checked
  · obtain ⟨s, describes⟩ := right.exists_describes
    exact ⟨⟨s, describes.check_iff.mpr right⟩, schema_eq_ok_iff.mpr describes⟩
  · have describes := schema_eq_ok_iff.mp made
    exact ⟨describes.table, schema.columns_eq ▸ describes.columnNames, schema.columns_nodup⟩

/-- A draft with a keyspace, a prefix of two columns and the longest time-to-live. -/
def qualified : Draft where
  table := "ks.results"
  fixedPrefix := [("region", .text "eu"), ("_node1", .boolean true)]
  keyColumn := some "k"
  ttlSeconds := some 630720000

/-- The draft is well formed and makes a schema with its table and its columns. -/
theorem makes_schema_qualified : qualified.WellFormed ∧
    ∃ schema, qualified.settings.bind Schema.ofSettings = .ok schema ∧
      schema.settings.table.text = "ks.results" ∧
      schema.columns.map Identifier.text = ["region", "_node1", "k", "exchange_id", "exchange"] ∧
      schema.columns.Nodup := by
  have succeeds : (qualified.settings.bind Schema.ofSettings).toOption.isSome = true := by
    decide +kernel
  obtain ⟨schema, found⟩ := Option.isSome_iff_exists.mp succeeds
  have made : qualified.settings.bind Schema.ofSettings = .ok schema := by
    cases run : qualified.settings.bind Schema.ofSettings with
    | error e =>
      rw [run] at found
      cases found
    | ok other =>
      rw [run] at found
      cases found
      rfl
  obtain ⟨accepts, keeps⟩ := makes_schema_iff qualified
  exact ⟨accepts.mp ⟨schema, made⟩, schema, made, keeps schema made⟩

end Settings.Draft

end GroupStore

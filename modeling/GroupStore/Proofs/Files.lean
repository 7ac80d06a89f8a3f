import GroupStore.World
import GroupStore.Proofs.Sorted

/-!
# File trees in which directories stay

Opening a database file creates the directories above it and the file, unless they are there.
Whatever happens to plain files and databases later, as long as the directories stay, the path
leads to the same place, and opening the file again changes nothing.

* `Files.Within`, `Files.Alike` — every directory of one tree is one in another, or both have the
  same directories;
* `Files.createBelow?_again`, `Files.locate_within` — directories are created once, and paths keep
  leading to the same place;
* `Files.createParents?_of_locate`, `Files.Vacant` — new files where directories are there already;
* `World.prepareHome_cases` — a database file is opened again as it was the first time.
-/

namespace GroupStore

namespace Files

variable {f g : Files} {place : Place}

/-- Every directory of a tree is one in another, with the same working directory. -/
structure Within (f g : Files) : Prop where
  home : g.home = f.home
  directory : ∀ place, f.at? place = some .directory → g.at? place = some .directory

theorem Within.refl (f : Files) : f.Within f := ⟨rfl, fun _ isDirectory => isDirectory⟩

theorem Within.trans {e : Files} (first : e.Within f) (second : f.Within g) : e.Within g :=
  ⟨second.home.trans first.home,
    fun place isDirectory => second.directory place (first.directory place isDirectory)⟩

/-- Two trees have the same directories, and the same working directory. -/
structure Alike (f g : Files) : Prop where
  home : g.home = f.home
  directory : ∀ place, g.at? place = some .directory ↔ f.at? place = some .directory

theorem Alike.refl (f : Files) : f.Alike f := ⟨rfl, fun _ => Iff.rfl⟩

theorem Alike.trans {e : Files} (first : e.Alike f) (second : f.Alike g) : e.Alike g :=
  ⟨second.home.trans first.home,
    fun place => (second.directory place).trans (first.directory place)⟩

theorem Alike.within (alike : f.Alike g) : f.Within g :=
  ⟨alike.home, fun place => (alike.directory place).mpr⟩

theorem Alike.isBlocked (alike : f.Alike g) (place : Place) (ending : String) :
    g.isBlocked place ending = f.isBlocked place ending := by
  unfold Files.isBlocked
  simp only [alike.directory]

/-- What is at a place after something has been put somewhere below the root. -/
theorem at?_put (below : place ≠ []) (node : Node) (p : Place) :
    (f.put place node).at? p = if p = place then some node else f.at? p := by
  unfold Files.at? Files.put
  by_cases root : p = []
  · have apart : p ≠ place := by
      rintro rfl
      exact below root
    rw [if_pos root, if_neg apart, if_pos root]
  · rw [if_neg root, if_neg root, Sorted.get?_put]

/-- What is no directory may be replaced. -/
theorem within_put (other : f.at? place ≠ some .directory) (node : Node) :
    f.Within (f.put place node) where
  home := rfl
  directory p isDirectory := by
    have below : place ≠ [] := by
      rintro rfl
      exact other rfl
    have apart : p ≠ place := by
      rintro rfl
      exact other isDirectory
    rw [at?_put below, if_neg apart, isDirectory]

/-- What is no directory may be replaced by something else that is none. -/
theorem alike_put (other : f.at? place ≠ some .directory) {node : Node}
    (plain : node ≠ .directory) : f.Alike (f.put place node) where
  home := rfl
  directory p := by
    have below : place ≠ [] := by
      rintro rfl
      exact other rfl
    rw [at?_put below]
    split
    · rename_i placeEq
      exact iff_of_false (fun isDirectory => plain (Option.some.inj isDirectory)) (placeEq ▸ other)
    · exact Iff.rfl

theorem alike_append (place : Place) (text : String) : f.Alike (f.append place text) := by
  unfold Files.append
  split
  · rename_i content plain
    exact alike_put (fun isDirectory => by rw [plain] at isDirectory; cases isDirectory)
      fun clash => by cases clash
  · exact Alike.refl f

/-- Appending to a plain file leaves every database file, and makes none. -/
theorem append_database_iff (f : Files) (log : Place) (text : String) (place : Place)
    (db : Sqlite.Database) : (f.append log text).at? place = some (.database db) ↔
      f.at? place = some (.database db) := by
  unfold Files.append
  split
  · rename_i content plain
    have below : log ≠ [] := by
      rintro rfl
      cases plain
    rw [at?_put below]
    split
    · rename_i placeEq
      rw [placeEq, plain]
      exact iff_of_false (fun e => by cases e) fun e => by cases e
    · exact Iff.rfl
  · exact Iff.rfl

/-! ### Creating directories -/

theorem createBelow?_within {parts : List String} (made : createBelow? place parts f = some g) :
    f.Within g := by
  induction parts generalizing place f with
  | nil =>
    cases made
    exact Within.refl _
  | cons part rest ih =>
    unfold createBelow? at made
    split at made
    · exact ih made
    · split at made
      · exact ih made
      · cases made
      · rename_i absent
        exact (within_put (fun isDirectory => by rw [absent] at isDirectory; cases isDirectory)
          _).trans (ih made)

/-- Directories that have been created need not be created again. -/
theorem createBelow?_again {parts : List String} {h : Files}
    (made : createBelow? place parts f = some g) (within : g.Within h) :
    createBelow? place parts h = some h := by
  induction parts generalizing place f with
  | nil => rfl
  | cons part rest ih =>
    unfold createBelow? at made ⊢
    split at made
    · rename_i up
      rw [if_pos up]
      exact ih made
    · rename_i down
      rw [if_neg down]
      -- In either case the directory is there once all have been created.
      have madeDirectory : g.at? (place ++ [part]) = some .directory ∧
          ∃ f', createBelow? (place ++ [part]) rest f' = some g := by
        split at made
        · rename_i found
          exact ⟨(createBelow?_within made).directory _ found, f, made⟩
        · cases made
        · refine ⟨(createBelow?_within made).directory _ ?_, _, made⟩
          rw [at?_put (by simp), if_pos rfl]
      obtain ⟨f', later⟩ := madeDirectory.2
      simp only [within.directory _ madeDirectory.1]
      exact ih later

theorem createParents?_again {path : String} {h : Files} (made : f.createParents? path = some g)
    (within : g.Within h) : h.createParents? path = some h := by
  unfold createParents? createFrom? at made ⊢
  split at made
  · cases made
  · rename_i plain
    have origin : h.origin path = f.origin path := by
      unfold Files.origin
      rw [within.home, (createBelow?_within made).home]
    rw [if_neg plain, origin]
    exact createBelow?_again made within

/-! ### Paths -/

theorem enter_within (within : f.Within g) {part : String} {next : Place}
    (entered : f.enter place part = some next) : g.enter place part = some next := by
  unfold Files.enter at entered ⊢
  split at entered
  · rename_i isDirectory
    rw [within.directory place isDirectory]
    exact entered
  · cases entered

/-- A path leads to the same place as long as the directories on it stay. -/
theorem locate_within (within : f.Within g) {path : String} (found : f.locate path = some place) :
    g.locate path = some place := by
  have walk : ∀ (parts : List String) (start : Place), parts.foldlM f.enter start = some place →
      parts.foldlM g.enter start = some place := by
    intro parts
    induction parts with
    | nil => exact fun _ arrived => arrived
    | cons part rest ih =>
      intro start arrived
      obtain ⟨next, entered, onward⟩ := Option.bind_eq_some_iff.mp arrived
      exact Option.bind_eq_some_iff.mpr ⟨next, enter_within within entered, ih next onward⟩
  have origin : g.origin path = f.origin path := by
    unfold Files.origin
    rw [within.home]
  unfold Files.locate at found ⊢
  split at found
  · rename_i usable
    rw [if_pos usable, origin]
    exact walk _ _ found
  · cases found

/-- A database is at no place of a directory. -/
theorem not_directory_of_databaseAt? {db : Sqlite.Database} (held : f.databaseAt? place = some db) :
    f.at? place ≠ some .directory := fun isDirectory => by
  rw [databaseAt?, isDirectory] at held
  cases held

/-- A path that leads to a database leads to no directory. -/
theorem isDirectory_of_databaseAt? {path : String} {db : Sqlite.Database}
    (found : f.locate path = some place) (held : f.databaseAt? place = some db) :
    f.isDirectory path = false := by
  have other := not_directory_of_databaseAt? held
  unfold Files.isDirectory Files.find?
  rw [found, Option.bind_some]
  cases nodeIs : f.at? place with
  | none => rfl
  | some node =>
    cases node with
    | directory => exact absurd nodeIs other
    | bytes content => cases Path.namesDirectory path <;> simp
    | database db => cases Path.namesDirectory path <;> simp

/-! ### New files -/

/-- A path that leads somewhere has no zero character in any component. -/
theorem plain_of_locate {path : String} (found : f.locate path = some place) :
    ∀ part ∈ Path.components path, part.contains '\x00' = false := by
  have within : ∀ (cs : List Char), ∀ part ∈ Path.split cs, ∀ c ∈ part, c ∈ cs := by
    intro cs
    induction cs with
    | nil => simp [Path.split]
    | cons first rest ih =>
      intro part member c inside
      rw [Path.split] at member
      split at member
      · rcases List.mem_cons.mp member with rfl | later
        · cases inside
        · exact List.mem_cons_of_mem _ (ih part later c inside)
      · split at member
        · obtain rfl := List.mem_singleton.mp member
          exact List.mem_singleton.mp inside ▸ List.mem_cons_self
        · rename_i head others parts
          rcases List.mem_cons.mp member with rfl | later
          · rcases List.mem_cons.mp inside with rfl | deeper
            · exact List.mem_cons_self
            · exact List.mem_cons_of_mem _ (ih head (parts ▸ List.mem_cons_self) c deeper)
          · exact List.mem_cons_of_mem _ (ih part (parts ▸ List.mem_cons_of_mem _ later) c inside)
  intro part member
  obtain ⟨chars, inSplit, rfl⟩ := List.mem_map.mp (List.mem_filter.mp member).1
  unfold Files.locate at found
  split at found
  · rename_i usable
    have clean : '\x00' ∉ path.toList := by
      simp only [isUsable, Bool.and_eq_true, Bool.not_eq_true', List.contains_eq_mem,
        decide_eq_false_iff_not] at usable
      exact usable.2
    rw [String.contains_char_eq, decide_eq_false_iff_not, String.toList_ofList]
    exact fun zero => clean (within _ chars inSplit _ zero)
  · cases found

/-- The directories above a place to which a path leads are there. -/
theorem createParents?_of_locate {path : String} (found : f.locate path = some place) :
    f.createParents? path = some f := by
  -- A walk goes on from a place only if there is a directory.
  have walk : ∀ (parts : List String) (last : String) (start : Place),
      (parts ++ [last]).foldlM f.enter start = some place →
        createBelow? start parts f = some f := by
    intro parts last
    induction parts with
    | nil => exact fun _ _ => rfl
    | cons part rest ih =>
      intro start arrived
      rw [List.cons_append, List.foldlM_cons] at arrived
      obtain ⟨next, entered, onward⟩ := Option.bind_eq_some_iff.mp arrived
      have isDirectory : f.at? next = some .directory := by
        obtain ⟨head, others, parts⟩ := List.exists_cons_of_ne_nil
          (List.append_ne_nil_of_right_ne_nil rest (List.cons_ne_nil last []))
        rw [parts] at onward
        obtain ⟨_, entered', -⟩ := Option.bind_eq_some_iff.mp onward
        unfold Files.enter at entered'
        split at entered'
        · assumption
        · cases entered'
      unfold Files.enter at entered
      split at entered
      · obtain rfl := Option.some.inj entered
        unfold createBelow?
        split
        · rename_i up
          rw [if_pos up] at onward
          exact ih _ onward
        · rename_i down
          rw [if_neg down] at onward isDirectory
          simp only [isDirectory]
          exact ih _ onward
      · cases entered
  have plain : ¬((Path.components path).dropLast.any fun part => part.contains '\x00') = true := by
    rw [List.any_eq_true]
    rintro ⟨part, member, zero⟩
    rw [plain_of_locate found part (List.dropLast_subset _ member)] at zero
    cases zero
  unfold createParents? createFrom?
  rw [if_neg plain]
  unfold Files.locate at found
  split at found
  · rcases List.eq_nil_or_concat (Path.components path) with empty | ⟨front, last, parts⟩
    · rw [empty]
      rfl
    · rw [parts, List.concat_eq_append] at found ⊢
      rw [List.dropLast_concat]
      exact walk front last _ found
  · cases found

/-- There is nothing at a place, or an empty file. -/
def Vacant (f : Files) (place : Place) : Prop :=
  f.at? place = none ∨ f.at? place = some (.bytes .empty)

theorem Vacant.isDirectory (vacant : f.Vacant place) {path : String}
    (found : f.locate path = some place) : f.isDirectory path = false := by
  unfold Files.isDirectory Files.find?
  rw [found, Option.bind_some]
  rcases vacant with held | held <;> rw [held]
  · rfl
  · cases Path.namesDirectory path <;> simp

/-- A new database has no tables, and has not been written yet. -/
theorem Vacant.openDatabase? (vacant : f.Vacant place) : ∃ g, f.openDatabase? place =
    some (.empty, g) ∧ g.at? place = some (.bytes .empty) ∧ f.Alike g := by
  rcases vacant with absent | isFile
  · have other : f.at? place ≠ some .directory := fun isDirectory => by
      rw [absent] at isDirectory
      cases isDirectory
    have below : place ≠ [] := by
      rintro rfl
      exact other rfl
    refine ⟨f.put place (.bytes .empty), by simp only [Files.openDatabase?, absent], ?_,
      alike_put other (fun clash => by cases clash)⟩
    rw [at?_put below, if_pos rfl]
  · have size : ByteArray.size .empty = 0 := rfl
    refine ⟨f, ?_, isFile, Alike.refl f⟩
    simp only [Files.openDatabase?, Files.databaseAt?, isFile, size, if_true, Option.map_some]

/-- Opening a log leaves the directories, and where there was nothing, there is nothing but perhaps
the log. -/
theorem openLog?_cases {path : String} {log : Place} (opened : f.openLog? path = some (log, g)) :
    f.Alike g ∧ ∀ place, f.at? place = none → g.Vacant place := by
  unfold Files.openLog? at opened
  split at opened
  · cases opened
  · split at opened
    · cases opened
    · split at opened
      · cases opened
      · cases opened
        exact ⟨Alike.refl f, fun place absent => .inl absent⟩
      · rename_i absent
        split at opened
        · cases opened
          have other : f.at? log ≠ some .directory := fun isDirectory => by
            rw [absent] at isDirectory
            cases isDirectory
          have below : log ≠ [] := by
            rintro rfl
            exact other rfl
          refine ⟨alike_put other (fun clash => by cases clash), fun place free => ?_⟩
          unfold Vacant
          rw [at?_put below]
          split
          · exact .inr rfl
          · exact .inl free
        · cases opened

/-! ### Database files -/

/-- A database that has been put into its file is there. -/
theorem databaseAt?_put (other : f.at? place ≠ some .directory) (db : Sqlite.Database) :
    (f.put place (.database db)).databaseAt? place = some db := by
  have below : place ≠ [] := by
    rintro rfl
    exact other rfl
  rw [databaseAt?, at?_put below, if_pos rfl]

/-- Only a file that has been written to holds a table. -/
theorem at?_of_databaseAt? {db : Sqlite.Database} (held : f.databaseAt? place = some db)
    (filled : db ≠ .empty) : f.at? place = some (.database db) := by
  unfold databaseAt? at held
  split at held
  · rename_i db' isDatabase
    rw [isDatabase, Option.some.inj held]
  · split at held
    · exact absurd (Option.some.inj held).symm filled
    · cases held
  · cases held

/-- An opened database file is there, and the directories are as they were. -/
theorem openDatabase?_cases {db : Sqlite.Database} (opened : f.openDatabase? place = some (db, g)) :
    f.Alike g ∧ g.databaseAt? place = some db := by
  cases found : f.at? place with
  | none =>
    obtain ⟨g', opened', held, alike⟩ := Vacant.openDatabase? (.inl found)
    cases opened.symm.trans opened'
    exact ⟨alike, by rw [databaseAt?, held]; rfl⟩
  | some node =>
    simp only [openDatabase?, found, Option.map_eq_some_iff] at opened
    obtain ⟨db', held, pairEq⟩ := opened
    cases pairEq
    exact ⟨Alike.refl f, held⟩

/-- A database file is opened as it is. -/
theorem openDatabase?_of_databaseAt? {db : Sqlite.Database} (held : f.databaseAt? place = some db) :
    f.openDatabase? place = some (db, f) := by
  cases found : f.at? place with
  | none =>
    rw [databaseAt?, found] at held
    cases held
  | some node => simp only [openDatabase?, found, held, Option.map_some]

end Files

/-- A path that has passed the check passes it wherever it leads to no directory. -/
theorem Sqlite.Config.check_of_file {c : Sqlite.Config} {f g : Files} (checked : c.check f = .ok ())
    (file : g.isDirectory c.path = false) : c.check g = .ok () := by
  have free : pathFault? f c.path = none := by
    unfold Sqlite.Config.check at checked
    split at checked
    · cases checked
    · assumption
  have faultIs : pathFault? g c.path = none := by
    unfold pathFault? at free ⊢
    split at free
    · cases free
    · rename_i named
      rw [if_neg named]
      split at free
      · cases free
      · cases free
      · rename_i short
        simp only [file, Bool.false_eq_true, if_false]
  unfold Sqlite.Config.check
  simp only [faultIs]

namespace World

open Files

variable {f g : Files} {mode : Sqlite.JournalMode} {place : Place}

/-! ### What stands beside a database -/

theorem canJournal_alike (alike : f.Alike g) (place : Place) :
    canJournal g place = canJournal f place := by
  rw [canJournal, canJournal, alike.isBlocked]

theorem changingOf_alike (alike : f.Alike g) (mode : Sqlite.JournalMode) (place : Place) :
    changingOf g mode place = changingOf f mode place := by
  unfold changingOf
  rw [alike.isBlocked]

/-- A database can still be read while nobody has written the first table into it. -/
theorem canRead_alike (alike : f.Alike g) (writtenEq : g.isWritten place = f.isWritten place) :
    canRead g mode place = canRead f mode place := by
  unfold canRead
  rw [alike.isBlocked, alike.isBlocked, canJournal_alike alike, writtenEq]

/-- In the write-ahead mode it makes no difference whether a database has been written. -/
theorem canRead_wal (alike : f.Alike g) : canRead g .wal place = canRead f .wal place := by
  simp only [canRead, alike.isBlocked, canJournal_alike alike]

/-- A database that can be changed can be read afterwards. -/
theorem canRead_journal (alike : f.Alike g) (readable : canRead f mode place = true)
    (journal : canJournal f place = true) : canRead g mode place = true := by
  cases mode with
  | wal => rw [canRead_wal alike, readable]
  | delete =>
    have free : f.isBlocked place journalEnding = false := by
      simp only [canJournal, Bool.and_eq_true, Bool.not_eq_true'] at journal
      exact journal.2
    simp only [canRead, Bool.and_eq_true, Bool.not_eq_true'] at readable ⊢
    refine ⟨alike.isBlocked place logEnding ▸ readable.1, ?_⟩
    rw [alike.isBlocked, free, Bool.and_false]

/-- What turning on a mode writes to a file leaves everything else. -/
theorem turnOn_keeps {db : Sqlite.Database} (held : f.databaseAt? place = some db)
    (readable : canRead f mode place = true) :
    f.Alike (turnOn mode f place db) ∧ (turnOn mode f place db).databaseAt? place = some db ∧
      canRead (turnOn mode f place db) mode place = true := by
  cases mode with
  | wal =>
    have other := not_directory_of_databaseAt? held
    have alike : f.Alike (f.put place (.database db)) := alike_put other fun clash => by cases clash
    exact ⟨alike, databaseAt?_put other db, (canRead_wal alike).trans readable⟩
  | delete => exact ⟨Alike.refl f, held, readable⟩

/-- The home of a database in a file: the directories have been created, the path leads to the
file, and the file is there.  As long as the directories stay, it is opened again. -/
theorem prepareHome_cases {c : Sqlite.Config} {home : Home} {changing : Changing}
    (inFile : c.path ≠ privatePath) (prepared : prepareHome f c = (.ok (home, changing), g)) :
    ∃ place db, home = .file place ∧ changing = changingOf g c.journal place ∧
      g.databaseAt? place = some db ∧ canRead g c.journal place = true ∧
      ∀ (h : Files) (db : Sqlite.Database), g.Alike h → h.databaseAt? place = some db →
        canRead h c.journal place = true →
        h.isDirectory c.path = false ∧
        ∃ h', prepareHome h c = (.ok (home, changing), h') ∧ h.Alike h' ∧
          h'.databaseAt? place = some db ∧ canRead h' c.journal place = true := by
  unfold prepareHome at prepared
  rw [if_neg inFile] at prepared
  split at prepared
  · cases prepared
  · rename_i made parents
    split at prepared
    · cases prepared
    · rename_i place found
      split at prepared
      · cases prepared
      · rename_i near
        split at prepared
        · cases prepared
        · rename_i db opened database
          split at prepared
          · rename_i readable
            obtain ⟨grown, held⟩ := openDatabase?_cases database
            obtain ⟨alike, held', readable'⟩ := turnOn_keeps held readable
            obtain ⟨home', final⟩ := Prod.mk.inj prepared
            cases home'
            subst final
            refine ⟨place, db, rfl, (changingOf_alike alike _ _).symm, held', readable',
              fun h db after holds can => ?_⟩
            have within := (grown.trans (alike.trans after)).within
            have located := locate_within within found
            obtain ⟨alike'', held'', readable''⟩ := turnOn_keeps holds can
            refine ⟨isDirectory_of_databaseAt? located holds, _, ?_, alike'', held'',
              readable''⟩
            unfold prepareHome
            simp only [if_neg inFile, createParents?_again parents within, located, if_neg near,
              openDatabase?_of_databaseAt? holds, if_pos can,
              changingOf_alike (alike.trans after)]
          · cases prepared

end World

end GroupStore

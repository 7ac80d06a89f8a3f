import Mathlib.Data.List.TakeWhile
import GroupStore.Proofs.Building

/-!
# The limits of the paths that are opened

A configuration names two paths: the database of the session and the file of the audit sink.
Validation disregards blanks at the ends of a path, but what is opened is the path as it is written.
The session checks the path of its database once more, as it is written.  Nothing else looks at the
path of the audit file, so blanks may make it too long, and the name of its first or last component.

* `Path.WithinLimits` — the limits of paths;
* `Path.mem_components` — the components that blanks at the ends of a path do not reach;
* `Config.opened_paths` — the paths that an accepted configuration opens.
-/

namespace GroupStore

/-! ### Blanks at the ends of a text -/

theorem append_trimBlanks (cs : List Char) :
    ∃ lead trail, cs = lead ++ (trimBlanks cs ++ trail) ∧
      (∀ c ∈ lead, isBlank c = true) ∧ ∀ c ∈ trail, isBlank c = true := by
  let rest := cs.dropWhile isBlank
  refine ⟨cs.takeWhile isBlank, (rest.reverse.takeWhile isBlank).reverse, ?_, ?_, ?_⟩
  · have back : rest = trimBlanks cs ++ (rest.reverse.takeWhile isBlank).reverse := by
      rw [trimBlanks, ← List.reverse_append, List.takeWhile_append_dropWhile, List.reverse_reverse]
    rw [← back, List.takeWhile_append_dropWhile]
  · intro c member
    exact List.mem_takeWhile_imp member
  · intro c member
    exact List.mem_takeWhile_imp (List.mem_reverse.mp member)

namespace Path

/-! ### Parts -/

theorem split_ne_nil (cs : List Char) : split cs ≠ [] := by
  cases cs with
  | nil => exact List.cons_ne_nil _ _
  | cons c rest =>
    rw [split]
    split
    · exact List.cons_ne_nil _ _
    · split <;> exact List.cons_ne_nil _ _

/-- The last part of a text and the first one of another grow together. -/
theorem split_append {cs ds : List Char} (front : List (List Char)) {rest : List (List Char)}
    {last first : List Char} (before : split cs = front ++ [last])
    (after : split ds = first :: rest) :
    split (cs ++ ds) = front ++ (last ++ first) :: rest := by
  induction cs generalizing front last with
  | nil =>
    obtain ⟨rfl, rfl⟩ : front = [] ∧ last = [] := by
      cases front with
      | nil => simpa [split, eq_comm] using before
      | cons part others => simp [split] at before
    exact after
  | cons c cs ih =>
    rw [List.cons_append, split]
    rw [split] at before
    by_cases slash : c = '/'
    · rw [if_pos slash] at before ⊢
      cases front with
      | nil => exact absurd (List.cons.inj before).2 (split_ne_nil cs)
      | cons part others =>
        obtain ⟨rfl, later⟩ := List.cons.inj before
        rw [ih others later]
        rfl
    · rw [if_neg slash] at before ⊢
      obtain ⟨part, others, parts⟩ := List.exists_cons_of_ne_nil (split_ne_nil cs)
      simp only [parts] at before
      cases front with
      | nil =>
        obtain ⟨rfl, rfl⟩ := List.cons.inj before
        rw [ih [] parts]
        rfl
      | cons head others' =>
        obtain ⟨rfl, rfl⟩ := List.cons.inj before
        rw [ih (part :: others') parts]
        rfl

/-- A text without slashes is one part. -/
theorem split_eq_singleton {cs : List Char} (plain : '/' ∉ cs) : split cs = [cs] := by
  induction cs with
  | nil => rfl
  | cons c rest ih =>
    have other : c ≠ '/' := fun isSlash => plain (isSlash ▸ List.mem_cons_self)
    rw [split, if_neg other, ih fun later => plain (List.mem_cons_of_mem _ later)]

/-- The parts of a text between two texts without slashes. -/
theorem split_padded {lead trail : List Char} (cs : List Char) (before : '/' ∉ lead)
    (after : '/' ∉ trail) :
    (∃ only, split cs = [only] ∧ split (lead ++ (cs ++ trail)) = [lead ++ (only ++ trail)]) ∨
    ∃ first middle last, split cs = first :: (middle ++ [last]) ∧
      split (lead ++ (cs ++ trail)) = (lead ++ first) :: (middle ++ [last ++ trail]) := by
  have left {first : List Char} {rest : List (List Char)}
      (parts : split (cs ++ trail) = first :: rest) :
      split (lead ++ (cs ++ trail)) = (lead ++ first) :: rest :=
    split_append [] (split_eq_singleton before) parts
  obtain ⟨first, rest, parts⟩ := List.exists_cons_of_ne_nil (split_ne_nil cs)
  rcases List.eq_nil_or_concat rest with rfl | ⟨middle, last, rfl⟩
  · refine .inl ⟨first, parts, left ?_⟩
    exact split_append [] parts (split_eq_singleton after)
  · rw [List.concat_eq_append] at parts
    refine .inr ⟨first, middle, last, parts, left ?_⟩
    exact split_append (first :: middle) parts (split_eq_singleton after)

/-! ### Components -/

/-- The first and the last component of a path. -/
def ends (path : String) : List String :=
  (components path).head?.toList ++ (components path).getLast?.toList

/-- What a filter leaves of the first and the last element of a list comes first and last. -/
theorem mem_filter_ends {β : Type} (p : β → Bool) (first last : β) (middle : List β) {x : β}
    (member : x ∈ (first :: (middle ++ [last])).filter p) :
    x ∈ middle.filter p ∨ ((first :: (middle ++ [last])).filter p).head? = some x ∨
      ((first :: (middle ++ [last])).filter p).getLast? = some x := by
  obtain ⟨inside, passes⟩ := List.mem_filter.mp member
  rcases List.mem_cons.mp inside with rfl | later
  · refine .inr (.inl ?_)
    rw [List.filter_cons_of_pos passes, List.head?_cons]
  rcases List.mem_append.mp later with between | final
  · exact .inl (List.mem_filter.mpr ⟨between, passes⟩)
  · obtain rfl := List.mem_singleton.mp final
    refine .inr (.inr ?_)
    rw [← List.cons_append, List.filter_append, List.filter_cons_of_pos passes, List.filter_nil,
      List.getLast?_concat]

/-- Only the first and the last component of a path may differ from those of the path without
blanks at its ends. -/
theorem mem_components {path part : String} (member : part ∈ components path) :
    part ∈ components (trimmed path) ∨ part ∈ ends path := by
  obtain ⟨lead, trail, whole, before, after⟩ := append_trimBlanks path.toList
  have plain {blanks : List Char} (all : ∀ c ∈ blanks, isBlank c = true) : '/' ∉ blanks :=
    fun slash => absurd (all _ slash) (by decide)
  have inner : (trimmed path).toList = trimBlanks path.toList := String.toList_ofList
  rw [ends, List.mem_append, Option.mem_toList, Option.mem_toList]
  unfold components at member ⊢
  rw [inner]
  rcases split_padded (trimBlanks path.toList) (plain before) (plain after) with
    ⟨only, -, parts⟩ | ⟨first, middle, last, inside, parts⟩
  · rw [← whole] at parts
    rw [parts, List.map_singleton] at member ⊢
    obtain ⟨inSingleton, passes⟩ := List.mem_filter.mp member
    obtain rfl := List.mem_singleton.mp inSingleton
    refine .inr (.inl ?_)
    rw [List.filter_cons, if_pos passes, List.head?_cons]
  · rw [← whole] at parts
    rw [parts, List.map_cons, List.map_append, List.map_singleton] at member ⊢
    rw [inside, List.map_cons, List.map_append, List.map_singleton]
    rcases mem_filter_ends _ _ _ _ member with between | atEnd
    · refine .inl ?_
      rw [List.filter_cons, List.filter_append]
      split
      · exact List.mem_cons_of_mem _ (List.mem_append_left _ between)
      · exact List.mem_append_left _ between
    · exact .inr atEnd

/-! ### Limits -/

/-- The limits of paths. -/
structure WithinLimits (path : String) : Prop where
  length : path.utf8ByteSize ≤ maxBytes
  components : ∀ part ∈ components path, part.utf8ByteSize ≤ maxComponentBytes

theorem sizeFault?_eq_none_iff {path : String} : sizeFault? path = none ↔ WithinLimits path := by
  have short : (components path).any (fun part => decide (maxComponentBytes < part.utf8ByteSize)) =
      true ↔ ¬∀ part ∈ components path, part.utf8ByteSize ≤ maxComponentBytes := by
    simp
  unfold sizeFault?
  by_cases long : maxBytes < path.utf8ByteSize
  · rw [if_pos long]
    exact iff_of_false (Option.some_ne_none _) fun within => Nat.not_lt.mpr within.length long
  · rw [if_neg long]
    split
    · rename_i fault
      exact iff_of_false (Option.some_ne_none _) fun within => short.mp fault within.components
    · rename_i fine
      exact iff_of_true rfl ⟨Nat.not_lt.mp long, Classical.not_not.mp (mt short.mpr fine)⟩

instance (path : String) : Decidable (WithinLimits path) :=
  decidable_of_iff _ sizeFault?_eq_none_iff

/-- If a path without the blanks at its ends is within the limits, the path itself is unless it is
too long or its first or last component is. -/
theorem withinLimits_iff {path : String} (inner : WithinLimits (trimmed path)) :
    WithinLimits path ↔ path.utf8ByteSize ≤ maxBytes ∧
      ∀ part ∈ ends path, part.utf8ByteSize ≤ maxComponentBytes := by
  constructor
  · intro within
    refine ⟨within.length, fun part member => within.components part ?_⟩
    rcases List.mem_append.mp member with first | last
    · exact List.mem_of_head? (Option.mem_toList.mp first)
    · exact List.mem_of_getLast? (Option.mem_toList.mp last)
  · rintro ⟨length, short⟩
    refine ⟨length, fun part member => ?_⟩
    rcases mem_components member with inside | atEnd
    · exact inner.components part inside
    · exact short part atEnd

end Path

namespace Config

/-! ### The paths of a configuration -/

theorem checkPath_eq_ok_iff {field path : String} : checkPath field path = .ok () ↔
    trimmed path ≠ "" ∧ Path.WithinLimits (trimmed path) := by
  rw [← Path.sizeFault?_eq_none_iff]
  unfold checkPath pathFault?
  by_cases blank : trimmed path = ""
  · simp [blank]
  · simp only [if_neg blank]
    cases Path.sizeFault? (trimmed path) with
    | none => simp [blank]
    | some fault => cases fault <;> simp

/-- The session's own check looks at the path as it is written. -/
theorem withinLimits_of_check {files : Files} {store : Sqlite.Config}
    (sound : store.check files = .ok ()) : Path.WithinLimits store.path := by
  rw [← Path.sizeFault?_eq_none_iff]
  unfold Sqlite.Config.check Sqlite.pathFault? at sound
  by_cases empty : store.path = ""
  · simp [empty] at sound
  · rw [if_neg empty] at sound
    cases size : Path.sizeFault? store.path with
    | none => rfl
    | some fault => cases fault <;> simp [size] at sound

/-- The paths that an accepted configuration opens, as they are written.  The path of the database
is within the limits.  The path of the audit file is within them unless it is too long or its first
or last component is; without the blanks at its ends, it is within them. -/
theorem opened_paths {c : Config} {files : Files} (accepted : c.validate .standard files = .ok ()) :
    (c.session.backend = "sqlite" → ∃ store : Sqlite.Config,
      Registry.standard.connector files c.session = .ok (.sqlite store) ∧
      Backend.text? c.session.options "path" = some store.path ∧
      trimmed store.path ≠ "" ∧ Path.WithinLimits store.path) ∧
    (c.audit.sink = .file → ∃ path, c.audit.path = some path ∧
      (∀ fs : Files, c.audit.Opening fs (c.audit.open fs).1 (c.audit.open fs).2) ∧
      trimmed path ≠ "" ∧ Path.WithinLimits (trimmed path) ∧
      (Path.WithinLimits path ↔ path.utf8ByteSize ≤ Path.maxBytes ∧
        ∀ part ∈ Path.ends path, part.utf8ByteSize ≤ Path.maxComponentBytes)) := by
  obtain ⟨-, ⟨connector, made⟩, sound⟩ := validate_eq_ok_iff.mp accepted
  constructor
  · intro database
    obtain ⟨-, store, configured, rfl⟩ := (connector_sqlite_iff database).mp made
    obtain ⟨text, bounded, -, -, -, checked⟩ := sqliteConfig_eq_ok_iff.mp configured
    exact ⟨store, made, text, (checkPath_eq_ok_iff.mp bounded).1, withinLimits_of_check checked⟩
  · intro filed
    cases named : c.audit.path with
    | none => simp [AuditSink.check, filed, named] at sound
    | some path =>
      have bounded : checkPath "audit.path" path = .ok () := by
        simpa [AuditSink.check, filed, named] using sound
      obtain ⟨visible, inner⟩ := checkPath_eq_ok_iff.mp bounded
      exact ⟨path, rfl, AuditSink.opening sound, visible, inner, Path.withinLimits_iff inner⟩

/-- A database and an audit file whose path begins and ends with blanks. -/
def spacedAudit : Config where
  repository := { table := "results" }
  session := ⟨"sqlite", [("path", .text "data/results.db")]⟩
  audit := ⟨.file, some " audit.log "⟩

theorem opened_paths_spaced : spacedAudit.validate .standard .fresh = .ok () ∧
    (∃ store : Sqlite.Config,
      Registry.standard.connector .fresh spacedAudit.session = .ok (.sqlite store) ∧
      store.path = "data/results.db" ∧ Path.WithinLimits store.path) ∧
    spacedAudit.audit.path = some " audit.log " ∧ Path.WithinLimits " audit.log " := by
  have accepted : spacedAudit.validate .standard .fresh = .ok () := by decide +kernel
  obtain ⟨database, log⟩ := opened_paths accepted
  obtain ⟨store, made, text, -, within⟩ := database rfl
  obtain ⟨path, named, -, -, -, exact⟩ := log rfl
  obtain rfl := Option.some.inj named
  exact ⟨accepted, ⟨store, made, (Option.some.inj text).symm, within⟩, rfl,
    exact.mpr (by decide +kernel)⟩

/-- A path that ends with blanks. -/
def paddedPath : List Char := "audit.log".toList ++ List.replicate 247 ' '

/-- An audit file whose path ends with blanks. -/
def paddedAudit : Config where
  repository := { table := "results" }
  audit := ⟨.file, some (String.ofList paddedPath)⟩

/-- Blanks may make the name of an accepted audit file too long. -/
theorem paddedAudit_exceeds : paddedAudit.validate .standard .fresh = .ok () ∧
    ∃ path, paddedAudit.audit.path = some path ∧ ¬Path.WithinLimits path := by
  have unpadded : trimmed (String.ofList paddedPath) = "audit.log" := by
    rw [trimmed, String.toList_ofList]
    decide +kernel
  have sound : paddedAudit.audit.check = .ok () := by
    show checkPath "audit.path" (String.ofList paddedPath) = .ok ()
    rw [checkPath_eq_ok_iff, unpadded]
    decide +kernel
  have silent : ({ paddedAudit with audit := {} } : Config).validate .standard .fresh = .ok () := by
    decide +kernel
  obtain ⟨described, made, -⟩ := validate_eq_ok_iff.mp silent
  refine ⟨validate_eq_ok_iff.mpr ⟨described, made, sound⟩, _, rfl, fun within => ?_⟩
  have only : Path.components (String.ofList paddedPath) = [String.ofList paddedPath] := by
    rw [Path.components, String.toList_ofList, Path.split_eq_singleton (by decide)]
    decide +kernel
  have short := within.components (String.ofList paddedPath) (only ▸ List.mem_singleton_self _)
  revert short
  decide +kernel

end Config

end GroupStore

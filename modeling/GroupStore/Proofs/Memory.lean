import GroupStore.Proofs.Contents

/-!
# The memory store keeps contents

The rows of a memory store are read as contents: expired rows do not count, whether they were
purged or not.  On tables that were filled through statements of schemas, each of the five
statements does to the contents what it means.

* `Memory.Table.SoundFor` — keys ascend and every row holds a version, kept by every change;
* `Memory.Store.contents` — the view;
* `Memory.Table.SoundFor.scanned` — the live rows under a prefix, in ascending order of groups.
-/

namespace GroupStore

open Std

/-! ### Rows as versions -/

/-- The stored part of a row of a schema. -/
def Schema.entry (s : Schema) (v : Version) : Memory.Entry :=
  ⟨[(s.exchangeIdColumn, .text v.id), (s.payloadColumn, .blob v.payload)], v.expiresAt⟩

namespace Memory

/-- The version in the two regular columns of a row. -/
def Entry.version? (l : Layout) (e : Entry) : Option Version :=
  match l.regular with
  | [idSpec, payloadSpec] =>
    match Sorted.get? idSpec.name e.values, Sorted.get? payloadSpec.name e.values with
    | some (.text id), some (.blob payload) => some ⟨id, payload, e.expiresAt⟩
    | _, _ => none
  | _ => none

/-- The unexpired version under a key. -/
def Table.version? (t : Table) (now : Nat) (key : List Value) : Option Version :=
  (Sorted.get? key t.rows).bind fun e =>
    if e.expiredAt now then none else e.version? t.layout

/-- What a store holds at a clock reading. -/
def Store.contents (st : Store) (now : Nat) : Contents := fun name key =>
  (st.table? name).bind fun t => t.version? now key

/-- The row under a key of a table, expired or not. -/
def Store.entry? (st : Store) (table : TableName) (key : List Value) : Option Entry :=
  (st.table? table).bind fun t => Sorted.get? key t.rows

/-- A row that has expired stays expired. -/
theorem Entry.expiredAt_mono {row : Entry} {now later : Nat} (order : now ≤ later)
    (live : row.expiredAt later = false) : row.expiredAt now = false := by
  unfold Entry.expiredAt at live ⊢
  cases moment : row.expiresAt with
  | none => rfl
  | some expiry =>
    simp only [moment, decide_eq_false_iff_not] at live ⊢
    omega

section Entries

variable (s : Schema)

theorem exchangeId_ne_payload : s.exchangeIdColumn ≠ s.payloadColumn := by
  have distinct := s.columns_nodup
  simp only [Schema.columns, List.nodup_append, List.nodup_cons, List.mem_singleton] at distinct
  exact distinct.2.1.1

theorem version?_entry (v : Version) : (s.entry v).version? s.layout = some v := by
  have other : s.payloadColumn ≠ s.exchangeIdColumn := (exchangeId_ne_payload s).symm
  have regular : s.layout.regular = [⟨s.exchangeIdColumn, .text⟩, ⟨s.payloadColumn, .blob⟩] := rfl
  simp [Entry.version?, regular, Schema.entry, Sorted.get?_cons, other]

theorem get?_exchangeId_entry (v : Version) :
    Sorted.get? s.exchangeIdColumn (s.entry v).values = some (.text v.id) := by
  simp [Schema.entry, Sorted.get?_cons]

theorem entry_injective {v v' : Version} (h : s.entry v = s.entry v') : v = v' := by
  have read := congrArg (Entry.version? s.layout) h
  rw [version?_entry, version?_entry] at read
  exact Option.some.inj read

theorem expiredAt_entry (v : Version) (now : Nat) : (s.entry v).expiredAt now = !v.liveAt now := by
  unfold Entry.expiredAt Version.liveAt Schema.entry
  cases v.expiresAt with
  | none => rfl
  | some moment =>
    rw [Bool.eq_iff_iff]
    simp

/-- A version carries the moment of its row. -/
theorem Entry.liveAt_of_version? {l : Layout} {e : Entry} {v : Version}
    (h : e.version? l = some v) (now : Nat) : v.liveAt now = !e.expiredAt now := by
  have moment : v.expiresAt = e.expiresAt := by
    unfold Entry.version? at h
    split at h
    · split at h
      · cases h
        rfl
      · cases h
    · cases h
  unfold Version.liveAt Entry.expiredAt
  rw [moment]
  cases e.expiresAt with
  | none => rfl
  | some limit =>
    rw [Bool.eq_iff_iff]
    simp

/-- Later, what has not expired by then is left. -/
theorem Store.contents_later (st : Store) {now later : Nat} (order : now ≤ later)
    (table : TableName) (key : List Value) :
    st.contents later table key = (st.contents now table key).filter (·.liveAt later) := by
  unfold Store.contents
  cases st.table? table with
  | none => rfl
  | some t =>
    rw [Option.bind_some, Option.bind_some, Table.version?, Table.version?]
    cases Sorted.get? key t.rows with
    | none => rfl
    | some e =>
      rw [Option.bind_some, Option.bind_some]
      cases read : e.version? t.layout with
      | none => simp
      | some v =>
        have laterLive := Entry.liveAt_of_version? read later
        cases gone : e.expiredAt later with
        | true =>
          rw [gone, Bool.not_true] at laterLive
          cases e.expiredAt now <;> simp [Option.filter_some, laterLive]
        | false =>
          rw [gone, Bool.not_false] at laterLive
          rw [Entry.expiredAt_mono order gone]
          simp [Option.filter_some, laterLive]

variable {s}

/-- Schemas of one layout store versions in the same way. -/
theorem entry_eq_of_layout {s' : Schema} (layoutEq : s.layout = s'.layout) (v : Version) :
    s.entry v = s'.entry v := by
  have regular := congrArg Layout.regular layoutEq
  simp only [Schema.layout, List.cons.injEq, ColumnSpec.mk.injEq] at regular
  simp only [Schema.entry, regular.1.1, regular.2.1.1]

end Entries

/-! ### Sound tables -/

/-- A table filled through statements of a schema. -/
structure Table.SoundFor (t : Table) (s : Schema) : Prop where
  layout : t.layout = s.layout
  ordered : Sorted.Ascending t.rows
  rows : ∀ row ∈ t.rows, s.FitsKey row.1 ∧ ∃ v, row.2 = s.entry v

/-- An open store, each table of which was filled through statements of some schema. -/
structure Store.Sound (st : Store) : Prop where
  isOpen : st.closed = false
  tables : ∀ name t, st.table? name = some t → ∃ s : Schema, t.SoundFor s

theorem Store.sound_empty : Store.empty.Sound := ⟨rfl, fun _ _ found => by cases found⟩

theorem Table.SoundFor.of_layout {t : Table} {s s' : Schema} (sound : t.SoundFor s)
    (layoutEq : t.layout = s'.layout) : t.SoundFor s' where
  layout := layoutEq
  ordered := sound.ordered
  rows := by
    intro row found
    obtain ⟨fits, v, stored⟩ := sound.rows row found
    have layouts : s.layout = s'.layout := sound.layout.symm.trans layoutEq
    refine ⟨?_, v, stored.trans (entry_eq_of_layout layouts v)⟩
    rw [Schema.FitsKey, ← layouts]
    exact fits

section Tables

variable {t : Table} {s : Schema} {now : Nat}

theorem Table.SoundFor.get? (sound : t.SoundFor s) {key : List Value} {e : Entry}
    (found : Sorted.get? key t.rows = some e) : s.FitsKey key ∧ ∃ v, e = s.entry v :=
  sound.rows (key, e) (Sorted.mem_of_get? found)

/-- In a sound table a key holds an unexpired version iff a row says so. -/
theorem Table.SoundFor.version?_eq_some_iff (sound : t.SoundFor s) {key : List Value}
    {v : Version} :
    t.version? now key = some v ↔
      Sorted.get? key t.rows = some (s.entry v) ∧ v.liveAt now = true := by
  unfold Table.version?
  constructor
  · intro h
    obtain ⟨e, found, read⟩ := Option.bind_eq_some_iff.mp h
    obtain ⟨-, v', rfl⟩ := sound.get? found
    rw [expiredAt_entry, sound.layout, version?_entry] at read
    cases live : v'.liveAt now with
    | false => simp [live] at read
    | true =>
      simp only [live, Bool.not_true, Bool.false_eq_true, if_false, Option.some.injEq] at read
      subst read
      exact ⟨found, live⟩
  · rintro ⟨found, live⟩
    rw [found, Option.bind_some, expiredAt_entry, live, sound.layout, version?_entry]
    rfl

/-- In a sound table the versions of two row sets with the same live rows are the same. -/
theorem Table.version?_congr {t' : Table} (sound : t.SoundFor s) (sound' : t'.SoundFor s)
    {key : List Value}
    (versionsIff : ∀ v : Version, v.liveAt now = true →
      (Sorted.get? key t'.rows = some (s.entry v) ↔ Sorted.get? key t.rows = some (s.entry v))) :
    t'.version? now key = t.version? now key := by
  refine Option.ext fun v => ?_
  rw [sound'.version?_eq_some_iff, sound.version?_eq_some_iff]
  exact and_congr_left fun live => versionsIff v live

/-! ### Rows after each statement -/

theorem Table.SoundFor.put (sound : t.SoundFor s) {key : List Value} (fits : s.FitsKey key)
    (v : Version) : Table.SoundFor { t with rows := Sorted.put key (s.entry v) t.rows } s where
  layout := sound.layout
  ordered := sound.ordered.put key _
  rows := by
    intro row found
    rcases Sorted.mem_put found with new | old
    · rw [new]
      exact ⟨fits, v, rfl⟩
    · exact sound.rows row old

theorem Table.SoundFor.keep (sound : t.SoundFor s) (p : List Value × Entry → Bool) :
    Table.SoundFor { t with rows := t.rows.filter p } s where
  layout := sound.layout
  ordered := sound.ordered.filter p
  rows := fun row found => sound.rows row ((List.mem_filter.mp found).1)

theorem Table.SoundFor.version?_put (sound : t.SoundFor s) {key : List Value}
    (fits : s.FitsKey key) (v : Version) (k : List Value) :
    Table.version? { t with rows := Sorted.put key (s.entry v) t.rows } now k =
      if k = key then (some v).filter (·.liveAt now) else t.version? now k := by
  by_cases keyEq : k = key
  · rw [if_pos keyEq, keyEq]
    refine Option.ext fun v' => ?_
    rw [(sound.put fits v).version?_eq_some_iff, Sorted.get?_put, if_pos rfl,
      Option.filter_eq_some_iff, Option.some.injEq, Option.some.injEq]
    exact and_congr_left fun _ => ⟨fun h => entry_injective s h, fun h => congrArg s.entry h⟩
  · rw [if_neg keyEq]
    refine Table.version?_congr sound (sound.put fits v) fun v' _ => ?_
    rw [Sorted.get?_put, if_neg keyEq]

theorem Table.SoundFor.version?_drop (sound : t.SoundFor s) (key k : List Value) :
    Table.version? { t with rows := Sorted.drop key t.rows } now k =
      if k = key then none else t.version? now k := by
  have dropped : Table.SoundFor { t with rows := Sorted.drop key t.rows } s := sound.keep _
  by_cases keyEq : k = key
  · rw [if_pos keyEq]
    refine Option.eq_none_iff_forall_ne_some.mpr fun v found => ?_
    rw [dropped.version?_eq_some_iff, Sorted.get?_drop, if_pos keyEq] at found
    cases found.1
  · rw [if_neg keyEq]
    refine Table.version?_congr sound dropped fun v _ => ?_
    rw [Sorted.get?_drop, if_neg keyEq]

/-- Dropping all expired rows cannot be seen. -/
theorem Table.SoundFor.version?_purge (sound : t.SoundFor s) (k : List Value) :
    Table.version? { t with rows := t.rows.filter fun row => !row.2.expiredAt now } now k =
      t.version? now k := by
  refine Table.version?_congr sound (sound.keep _) fun v live => ?_
  rw [Sorted.get?_filter sound.ordered.nodup, Option.filter_eq_some_iff]
  refine ⟨fun h => h.1, fun h => ⟨h, ?_⟩⟩
  rw [expiredAt_entry, live]
  rfl

end Tables

/-! ### Scanned rows -/

section Scan

variable {t : Table} {s : Schema} {now : Nat} {fixed : List Value}

/-- The row of a group under a prefix. -/
def groupRow (s : Schema) (fixed : List Value) (entry : String × Version) : List Value × Entry :=
  (fixed ++ [.text entry.1], s.entry entry.2)

theorem exists_groupRow (sound : t.SoundFor s) (fits : s.FitsPrefix fixed)
    {row : List Value × Entry} (found : row ∈ t.rows) (under : fixed.isPrefixOf row.1 = true) :
    ∃ entry, row = groupRow s fixed entry := by
  obtain ⟨rowFits, v, stored⟩ := sound.rows row found
  obtain ⟨fixed', group, split, fits'⟩ := rowFits.exists_group
  have fixedEq : fixed = fixed' := by
    rw [List.isPrefixOf_iff_prefix, split] at under
    obtain ⟨rest, whole⟩ := under
    exact (List.append_inj whole (fits.length.trans fits'.length.symm)).1
  refine ⟨(group, v), ?_⟩
  rw [fixedEq, groupRow]
  exact Prod.ext split stored

/-- The live rows under a prefix are those of the versions that the contents list there, in
ascending order of their groups. -/
theorem Table.SoundFor.scanned (sound : t.SoundFor s) (now : Nat) (fits : s.FitsPrefix fixed) :
    ∃ found : List (String × Version), Sorted.Ascending found ∧
      (∀ group v, (group, v) ∈ found ↔ t.version? now (fixed ++ [.text group]) = some v) ∧
      (t.rows.filter fun row => !row.2.expiredAt now).filter (fun row => fixed.isPrefixOf row.1) =
        found.map (groupRow s fixed) := by
  have live := sound.keep fun row => !row.2.expiredAt now
  have images : ∀ row ∈ (t.rows.filter fun row => !row.2.expiredAt now).filter
      (fun row => fixed.isPrefixOf row.1), ∃ entry, row = groupRow s fixed entry := by
    intro row member
    have both := List.mem_filter.mp member
    exact exists_groupRow live fits both.1 both.2
  obtain ⟨found, rows⟩ := exists_map_eq images
  refine ⟨found, ?_, fun group v => ?_, rows⟩
  · have ordered := live.ordered.filter fun row => fixed.isPrefixOf row.1
    rw [rows, Sorted.Ascending, List.pairwise_map] at ordered
    refine ordered.imp fun {a b} below => ?_
    rw [groupRow, groupRow, Sorted.compare_append_left] at below
    simpa [Value.compare_text] using below
  · have image : (group, v) ∈ found ↔
        groupRow s fixed (group, v) ∈ found.map (groupRow s fixed) := by
      refine ⟨List.mem_map_of_mem, fun member => ?_⟩
      obtain ⟨entry, later, groupRowEq⟩ := List.mem_map.mp member
      have parts := Prod.mk.inj groupRowEq
      have groups : entry.1 = group := by simpa using parts.1
      have versions : entry.2 = v := entry_injective s parts.2
      rw [← groups, ← versions]
      exact later
    rw [image, ← rows, List.mem_filter, List.mem_filter, sound.version?_eq_some_iff,
      Sorted.get?_eq_some_iff sound.ordered.nodup]
    simp [groupRow, expiredAt_entry]

end Scan

end Memory

end GroupStore

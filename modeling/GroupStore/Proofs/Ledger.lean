import GroupStore.Proofs.Replies
import GroupStore.Proofs.TextOrder

/-!
# The keyed store that a repository is meant to be

The reference is a finite map from places to versions, where a place is a table, the values of a
fixed prefix and a group.  An add overwrites the version of its place, a version whose moment is
reached is absent for every call, and listings are in the order of the groups' bytes.

* `Slot`, `Ledger` — places, and the map; no place occurs twice by its type;
* `Ledger.perform` — what each call replies and leaves;
* `Ledger.Agrees` — contents are what the map has unexpired;
* `Ledger.perform_agrees` — what a call means for contents is what it does to the map;
* `Ledger.perform_confirm_twice` — a confirmation leaves nothing to confirm.
-/

namespace GroupStore

open Std

variable {S α : Type}

/-! ### The map -/

/-- The place of a result: its table, the prefix that it is under, and its group. -/
structure Slot where
  table : TableName
  fixed : List Value
  group : String
deriving DecidableEq

/-- The full primary key of a place. -/
def Slot.key (slot : Slot) : List Value := slot.fixed ++ [.text slot.group]

/-- Whether a place is under a table and a prefix. -/
def Slot.isUnder (slot : Slot) (table : TableName) (fixed : List Value) : Bool :=
  slot.table = table ∧ slot.fixed = fixed

/-- The place of a group of a repository. -/
def Repository.slot (r : Repository S α) (group : String) : Slot :=
  ⟨r.schema.settings.table, r.schema.prefixValues, group⟩

/-- A finite map from places to versions. -/
structure Ledger where
  entries : List (Slot × Version)
  /-- No place has two versions. -/
  distinct : (entries.map Prod.fst).Nodup

namespace Ledger

/-- The map without versions. -/
def empty : Ledger := ⟨[], List.nodup_nil⟩

/-- The entries that pass a test. -/
def keep (l : Ledger) (p : Slot × Version → Bool) : Ledger :=
  ⟨l.entries.filter p, (List.filter_sublist.map Prod.fst).nodup l.distinct⟩

/-- Erase the version of a place. -/
def erase (l : Ledger) (slot : Slot) : Ledger := l.keep fun entry => entry.1 ≠ slot

/-- Overwrite the version of a place. -/
def put (l : Ledger) (slot : Slot) (v : Version) : Ledger where
  entries := (slot, v) :: (l.erase slot).entries
  distinct := by
    rw [List.map_cons, List.nodup_cons]
    refine ⟨fun member => ?_, (l.erase slot).distinct⟩
    obtain ⟨entry, kept, keyEq⟩ := List.mem_map.mp member
    have other := (List.mem_filter.mp kept).2
    simp [keyEq] at other

/-- The version of a place. -/
def get? (l : Ledger) (slot : Slot) : Option Version := Sorted.get? slot l.entries

/-- The unexpired versions. -/
def live (l : Ledger) (now : Nat) : Ledger := l.keep fun entry => entry.2.liveAt now

/-- Groups in the order of their bytes. -/
def inByteOrder (a b : String × Version) : Bool :=
  (compare (TextOrder.bytes a.1) (TextOrder.bytes b.1)).isLE

/-- The entries of a repository, by group. -/
def own (l : Ledger) (r : Repository S α) : List (String × Version) :=
  (l.entries.filter fun entry =>
    entry.1.isUnder r.schema.settings.table r.schema.prefixValues).map
      fun entry => (entry.1.group, entry.2)

/-- The unexpired entries of a repository in the order of their groups' bytes. -/
def listed (l : Ledger) (r : Repository S α) (now : Nat) : List (String × Version) :=
  ((l.live now).own r).mergeSort inByteOrder

/-! ### Calls -/

/-- Whether an entry is what a confirmation by a repository is about: unexpired, its own, and
under the id. -/
def concerns (r : Repository S α) (now : Nat) (id : String) (entry : Slot × Version) : Bool :=
  entry.1.isUnder r.schema.settings.table r.schema.prefixValues && entry.2.liveAt now &&
    entry.2.id = id

/-- What a call on a repository replies at a reading, and the map that it leaves. -/
def perform (l : Ledger) (r : Repository S α) (now : Nat) :
    Call α → Except RepositoryError (Reply α) × Ledger
  | .add group value =>
    match r.codec.marshal group value with
    | .error e => (.error (.ofCodec e), l)
    | .ok payload =>
      (.ok (.stored value), l.put (r.slot group)
        ⟨r.codec.exchangeId value, payload, Version.expiry r.schema.settings.ttlSeconds now⟩)
  | .get group => (Schema.readReply r.codec group ((l.live now).get? (r.slot group)), l)
  | .remove group => (.ok .removed, l.erase (r.slot group))
  | .confirm id =>
    let count := (l.keep (concerns r now id)).entries.length
    (.ok (.confirmed ⟨count, count, 0⟩), l.keep fun entry => !concerns r now id entry)
  | .getKeys => (.ok (.keys ((l.listed r now).map Prod.fst)), l)
  | .scan =>
    (.ok (.identities ((l.listed r now).map fun entry => ⟨entry.1, entry.2.id⟩)), l)

/-- After a confirmation there is nothing left to confirm: a second one counts nothing and changes
nothing. -/
theorem perform_confirm_twice (l : Ledger) (r : Repository S α) (now : Nat) (id : String) :
    let after := (l.perform r now (.confirm id)).2
    after.perform r now (.confirm id) = (.ok (.confirmed ⟨0, 0, 0⟩), after) := by
  have kept : (l.entries.filter fun entry => !concerns r now id entry).filter
      (concerns r now id) = [] := by
    rw [List.filter_filter, List.filter_eq_nil_iff]
    intro entry _
    simp
  have all : (l.entries.filter fun entry => !concerns r now id entry).filter
      (fun entry => !concerns r now id entry) =
        l.entries.filter fun entry => !concerns r now id entry := by
    rw [List.filter_filter]
    simp
  simp only [perform, keep, kept, all, List.length_nil]

/-! ### Agreement with contents -/

/-- Contents are what the map has unexpired. -/
def Agrees (l : Ledger) (now : Nat) (c : Contents) : Prop :=
  ∀ slot : Slot, c slot.table slot.key = (l.get? slot).filter (·.liveAt now)

/-- Different groups under one prefix have different keys. -/
theorem set_eq_put (r : Repository S α) (group : String) (slot : Slot) :
    (slot.table = r.schema.settings.table ∧ slot.key = r.schema.composeKey group) ↔
      slot = r.slot group := by
  obtain ⟨table, fixed, g⟩ := slot
  simp only [Slot.key, Schema.composeKey, Repository.slot, Slot.mk.injEq]
  constructor
  · rintro ⟨table, key⟩
    obtain ⟨prefixes, groups⟩ := List.append_inj' key rfl
    exact ⟨table, prefixes, by simpa using groups⟩
  · rintro ⟨rfl, rfl, rfl⟩
    exact ⟨rfl, rfl⟩

variable {l : Ledger} {now : Nat} {c : Contents}

theorem get?_erase (l : Ledger) (slot other : Slot) :
    (l.erase slot).get? other = if other = slot then none else l.get? other :=
  Sorted.get?_drop slot other l.entries

theorem get?_put (l : Ledger) (slot other : Slot) (v : Version) :
    (l.put slot v).get? other = if other = slot then some v else l.get? other := by
  rw [get?, put, Sorted.get?_cons]
  by_cases hit : other = slot
  · rw [if_pos hit, if_pos hit]
  · rw [if_neg hit, if_neg hit]
    exact (get?_erase l slot other).trans (if_neg hit)

theorem get?_live (l : Ledger) (now : Nat) (slot : Slot) :
    (l.live now).get? slot = (l.get? slot).filter (·.liveAt now) :=
  Sorted.get?_filter l.distinct (fun entry => entry.2.liveAt now) slot

theorem get?_eq_some_iff {slot : Slot} {v : Version} :
    l.get? slot = some v ↔ (slot, v) ∈ l.entries :=
  Sorted.get?_eq_some_iff l.distinct

/-- Contents hold a version at a place iff the map has it there and it has not expired. -/
theorem Agrees.eq_some_iff (agrees : l.Agrees now c) {slot : Slot} {v : Version} :
    c slot.table slot.key = some v ↔ (slot, v) ∈ (l.live now).entries := by
  rw [agrees slot, ← get?_live, get?_eq_some_iff]

/-- What the contents list under a repository's prefix is what the map has there. -/
theorem Agrees.lists (agrees : l.Agrees now c) (r : Repository S α) :
    c.Lists r.schema.settings.table r.schema.prefixValues ((l.live now).own r) := by
  have mem : ∀ group v, (group, v) ∈ (l.live now).own r ↔
      (r.slot group, v) ∈ (l.live now).entries := by
    intro group v
    simp only [own, List.mem_map, List.mem_filter, Slot.isUnder, decide_eq_true_eq, Prod.mk.injEq]
    constructor
    · rintro ⟨⟨⟨table, fixed, g⟩, w⟩, ⟨found, rfl, rfl⟩, rfl, rfl⟩
      exact found
    · intro found
      exact ⟨_, ⟨found, rfl, rfl⟩, rfl, rfl⟩
  refine ⟨?_, fun group v => (mem group v).trans agrees.eq_some_iff.symm⟩
  -- Entries under one table and prefix differ in their groups.
  have distinct := (l.live now).distinct
  rw [List.Nodup, List.pairwise_map] at distinct
  rw [own, List.map_map, List.Nodup, List.pairwise_map]
  refine (distinct.filter _).imp_of_mem fun {a b} inA inB differ groupEq => differ ?_
  have underA := (List.mem_filter.mp inA).2
  have underB := (List.mem_filter.mp inB).2
  simp only [Slot.isUnder, decide_eq_true_eq] at underA underB
  obtain ⟨⟨tableA, fixedA, groupA⟩, versionA⟩ := a
  obtain ⟨⟨tableB, fixedB, groupB⟩, versionB⟩ := b
  simp only at underA underB
  simp only [Function.comp_apply] at groupEq
  rw [underA.1, underA.2, underB.1, underB.2, groupEq]

/-- Listings are in the order of texts. -/
theorem Agrees.listed_ascending (agrees : l.Agrees now c) (r : Repository S α) :
    Sorted.Ascending (l.listed r now) := by
  have order := List.pairwise_mergeSort
    (fun a b c (hab : inByteOrder a b = true) (hbc : inByteOrder b c = true) =>
      show inByteOrder a c = true from TransCmp.isLE_trans hab hbc)
    (fun a b => by
      have swapped : compare (TextOrder.bytes b.1) (TextOrder.bytes a.1) =
          (compare (TextOrder.bytes a.1) (TextOrder.bytes b.1)).swap := OrientedCmp.eq_swap
      rw [inByteOrder, inByteOrder, swapped]
      cases compare (TextOrder.bytes a.1) (TextOrder.bytes b.1) <;> rfl) ((l.live now).own r)
  have distinct : ((l.listed r now).map Prod.fst).Nodup :=
    ((List.mergeSort_perm _ _).map Prod.fst).nodup_iff.mpr (agrees.lists r).1
  rw [List.Nodup, List.pairwise_map] at distinct
  refine (order.and distinct).imp fun {a b} both => ?_
  cases texts : compare a.1 b.1 with
  | lt => rfl
  | eq => exact absurd (LawfulEqOrd.eq_of_compare texts) both.2
  | gt =>
    have reversed := TextOrder.compare_bytes (OrientedCmp.gt_iff_lt.mp texts)
    have greater := OrientedCmp.gt_iff_lt.mpr reversed
    have smaller := both.1
    rw [inByteOrder, greater] at smaller
    cases smaller

/-- Changing what stands in one slot on both sides. -/
theorem Agrees.change (agrees : l.Agrees now c) (r : Repository S α) (group : String)
    {changed : Ledger} {v : Option Version}
    (stands : ∀ slot, changed.get? slot = if slot = r.slot group then v else l.get? slot) :
    changed.Agrees now (c.set r.schema.settings.table (r.schema.composeKey group)
      (v.filter (·.liveAt now))) := by
  intro slot
  rw [stands]
  by_cases slotEq : slot = r.slot group
  · rw [if_pos slotEq, slotEq]
    exact Contents.set_self _ _ _ _
  · rw [if_neg slotEq, ← agrees slot]
    exact Contents.set_other _ _ fun both => slotEq ((set_eq_put r group slot).mp both)

/-- Overwriting a version on both sides. -/
theorem Agrees.put (agrees : l.Agrees now c) (r : Repository S α) (group : String) (v : Version) :
    (l.put (r.slot group) v).Agrees now (c.set r.schema.settings.table (r.schema.composeKey group)
      ((some v).filter (·.liveAt now))) :=
  agrees.change r group fun slot => get?_put l (r.slot group) slot v

/-- Erasing a version on both sides. -/
theorem Agrees.erase (agrees : l.Agrees now c) (r : Repository S α) (group : String) :
    (l.erase (r.slot group)).Agrees now
      (c.set r.schema.settings.table (r.schema.composeKey group) none) :=
  agrees.change r group (get?_erase l (r.slot group))

/-- A confirmation counts the entries that it is about. -/
theorem Agrees.countP_lists (agrees : l.Agrees now c) (r : Repository S α) (id : String)
    {found : List (String × Version)}
    (lists : c.Lists r.schema.settings.table r.schema.prefixValues found) :
    found.countP (·.2.id = id) = (l.keep (concerns r now id)).entries.length := by
  rw [(lists.perm (agrees.lists r)).countP_eq, own, List.countP_map,
    List.countP_filter, live, keep, List.countP_filter, keep, ← List.countP_eq_length_filter]
  refine List.countP_congr fun entry _ => ?_
  simp only [concerns, Function.comp_apply, Bool.and_eq_true, decide_eq_true_eq]
  exact ⟨fun h => ⟨⟨h.1.2, h.2⟩, h.1.1⟩, fun h => ⟨⟨h.2, h.1.1⟩, h.1.2⟩⟩

/-- A confirmation drops the same on both sides. -/
theorem Agrees.confirmed (agrees : l.Agrees now c) (r : Repository S α) (id : String) :
    (l.keep fun entry => !concerns r now id entry).Agrees now (r.schema.confirmed c id) := by
  refine fun slot => Option.ext fun v => ?_
  have mine : (r.schema.decomposeKey slot.key).isSome ↔ slot.fixed = r.schema.prefixValues := by
    rw [Option.isSome_iff_exists]
    constructor
    · rintro ⟨group, decomposed⟩
      exact (List.append_inj' (r.schema.decomposeKey_eq_some_iff.mp decomposed) rfl).1
    · intro own
      exact ⟨slot.group, r.schema.decomposeKey_eq_some_iff.mpr (by rw [Slot.key, own]; rfl)⟩
  have held : c slot.table slot.key = some v ↔ (slot, v) ∈ l.entries ∧ v.liveAt now = true :=
    agrees.eq_some_iff.trans List.mem_filter
  -- An entry is concerned iff it is held and the confirmation takes it from the contents.
  have concerned (stored : c slot.table slot.key = some v) :
      concerns r now id (slot, v) = true ↔
        slot.table = r.schema.settings.table ∧ (r.schema.decomposeKey slot.key).isSome ∧
          (c slot.table slot.key).any (·.id = id) := by
    have unexpired := (held.mp stored).2
    rw [mine, stored]
    simp [concerns, Slot.isUnder, unexpired, and_assoc]
  rw [Option.filter_eq_some_iff, get?_eq_some_iff, Schema.confirmed]
  simp only [keep, List.mem_filter, Bool.not_eq_true']
  split
  · rename_i taken
    refine iff_of_false (by simp) fun kept => ?_
    have stored := held.mpr ⟨kept.1.1, kept.2⟩
    exact Bool.false_ne_true (kept.1.2.symm.trans ((concerned stored).mpr taken))
  · rename_i untaken
    constructor
    · intro stored
      have both := held.mp stored
      refine ⟨⟨both.1, ?_⟩, both.2⟩
      exact Bool.eq_false_iff.mpr fun concern => untaken ((concerned stored).mp concern)
    · rintro ⟨⟨found, -⟩, unexpired⟩
      exact held.mpr ⟨found, unexpired⟩

/-- Groups in ascending order of what contents hold are the groups of the listing. -/
theorem Agrees.groups_eq (agrees : l.Agrees now c) (r : Repository S α) {groups : List String}
    (ordered : groups.Pairwise fun a b => compare a b = .lt)
    (found : ∀ group, group ∈ groups ↔
      ∃ v, c r.schema.settings.table (r.schema.composeKey group) = some v) :
    groups = (l.listed r now).map Prod.fst := by
  refine Sorted.eq_of_ascending_keys ordered
    (List.pairwise_map.mpr (agrees.listed_ascending r)) fun group => ?_
  rw [found]
  constructor
  · rintro ⟨v, stored⟩
    have member := ((agrees.lists r).2 group v).mpr stored
    exact List.mem_map_of_mem (f := Prod.fst) (List.mem_mergeSort.mpr member)
  · intro member
    obtain ⟨entry, listed, rfl⟩ := List.mem_map.mp member
    exact ⟨entry.2, ((agrees.lists r).2 entry.1 entry.2).mp (List.mem_mergeSort.mp listed)⟩

/-- What contents list in ascending order is the listing. -/
theorem Agrees.listed_eq (agrees : l.Agrees now c) (r : Repository S α)
    {found : List (String × Version)} (ordered : Sorted.Ascending found)
    (lists : c.Lists r.schema.settings.table r.schema.prefixValues found) :
    found = l.listed r now :=
  Sorted.eq_of_perm ordered (agrees.listed_ascending r)
    ((lists.perm (agrees.lists r)).trans (List.mergeSort_perm _ _).symm)

/-- What a call means for contents is what it does to the map. -/
theorem perform_agrees {r : Running S α} {call : Call α}
    {reply : Except RepositoryError (Reply α)} {c' : Contents} (agrees : l.Agrees now c)
    (means : r.CallMeans True now c call reply c') :
    reply = (l.perform r.repository now call).1 ∧
      (l.perform r.repository now call).2.Agrees now c' := by
  unfold Running.CallMeans at means
  cases call with
  | add group value =>
    simp only [perform]
    cases written : r.repository.codec.marshal group value with
    | error e =>
      simp only [written] at means
      exact ⟨means.1, means.2 ▸ agrees⟩
    | ok payload =>
      simp only [written] at means
      obtain ⟨rfl, rfl⟩ := means
      exact ⟨rfl, agrees.put r.repository group _⟩
  | get group =>
    have place : c r.schema.settings.table (r.schema.composeKey group) =
        (l.get? (r.repository.slot group)).filter (·.liveAt now) := agrees (r.repository.slot group)
    obtain ⟨rfl, rfl⟩ := means
    exact ⟨by rw [place, ← get?_live]; rfl, agrees⟩
  | remove group =>
    obtain ⟨rfl, rfl⟩ := means
    exact ⟨rfl, agrees.erase r.repository group⟩
  | confirm id =>
    obtain ⟨found, lists, rfl, rfl⟩ := means
    have count := agrees.countP_lists r.repository id lists
    exact ⟨by simp only [perform, count], agrees.confirmed r.repository id⟩
  | getKeys =>
    obtain ⟨groups, ordered, found, rfl, rfl⟩ := means
    have groupsIs := agrees.groups_eq r.repository ordered found
    exact ⟨by simp only [perform, groupsIs], agrees⟩
  | scan =>
    obtain ⟨found, lists, ordered, rfl, rfl⟩ := means
    have foundIs := agrees.listed_eq r.repository (ordered trivial) lists
    exact ⟨by simp only [perform, foundIs], agrees⟩

end Ledger

end GroupStore

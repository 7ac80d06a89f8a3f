import GroupStore.Proofs.Schema
import GroupStore.Memory
import GroupStore.Repository

/-!
# What a store holds, and what the five statements mean

A store is looked at through its contents: for each table and each full primary key the version
that is stored there and has not expired.  Neither purged rows nor the order of rows can be seen
this way.

* `Version`, `Contents` — an unexpired row, and all of them;
* `Schema.Means` — what a statement of a schema answers and what it leaves, in terms of contents;
* `Schema.Means.unique` — contents determine the answer up to the order of its rows;
* `Schema.readIdentity_idRow` and the like — what a repository reads in the rows of an answer.
-/

namespace GroupStore

/-! ### Contents -/

/-- If every element of a list is an image, the list is an image. -/
theorem exists_map_eq {α β : Type} {f : α → β} {l : List β} (h : ∀ x ∈ l, ∃ y, x = f y) :
    ∃ l' : List α, l = l'.map f := by
  induction l with
  | nil => exact ⟨[], rfl⟩
  | cons x rest ih =>
    obtain ⟨y, rfl⟩ := h x List.mem_cons_self
    obtain ⟨others, rfl⟩ := ih fun z found => h z (List.mem_cons_of_mem _ found)
    exact ⟨y :: others, rfl⟩

/-- What a row holds besides its key. -/
structure Version where
  /-- The exchange id. -/
  id : String
  /-- The payload. -/
  payload : ByteArray
  /-- When the row expires, if it does. -/
  expiresAt : Option Nat
deriving DecidableEq

/-- Whether a version has not yet expired at a clock reading. -/
def Version.liveAt (v : Version) (now : Nat) : Bool :=
  match v.expiresAt with
  | none => true
  | some moment => now < moment

/-- A version that lives later lives now. -/
theorem Version.liveAt_mono {v : Version} {now later : Nat} (order : now ≤ later)
    (live : v.liveAt later = true) : v.liveAt now = true := by
  unfold Version.liveAt at live ⊢
  cases moment : v.expiresAt with
  | none => rfl
  | some limit =>
    simp only [moment, decide_eq_true_eq] at live ⊢
    omega

/-- What is left now and is left later is what is left later. -/
theorem Version.filter_later {now later : Nat} (order : now ≤ later) (v : Option Version) :
    (v.filter (·.liveAt now)).filter (·.liveAt later) = v.filter (·.liveAt later) := by
  rw [Option.filter_filter]
  congr 1
  funext v
  cases live : v.liveAt later with
  | false => simp
  | true => simp [Version.liveAt_mono order live]

/-- When what is written now expires: after its time-to-live, at the latest at the greatest
reading. -/
def Version.expiry (ttlSeconds : Option Nat) (now : Nat) : Option Nat :=
  ttlSeconds.map fun seconds => min (now + 1000 * seconds) Memory.maxTime

/-- The version under each key of each table. -/
abbrev Contents := TableName → List Value → Option Version

namespace Contents

/-- Change what one key holds. -/
def set (c : Contents) (table : TableName) (key : List Value) (v : Option Version) : Contents :=
  fun t k => if t = table ∧ k = key then v else c t k

theorem set_self (c : Contents) (table : TableName) (key : List Value) (v : Option Version) :
    c.set table key v table key = v := by
  simp [set]

theorem set_other (c : Contents) {table t : TableName} {key k : List Value} (v : Option Version)
    (h : ¬(t = table ∧ k = key)) : c.set table key v t k = c t k := by
  simp only [set, if_neg h]

/-- Contents in which one table holds something else. -/
def withTable (c : Contents) (table : TableName) (held : List Value → Option Version) : Contents :=
  fun name key => if name = table then held key else c name key

theorem withTable_eq_self {c : Contents} {table : TableName} {held : List Value → Option Version}
    (heldEq : ∀ key, held key = c table key) : c.withTable table held = c := by
  funext name key
  by_cases own : name = table
  · rw [withTable, if_pos own, heldEq, own]
  · rw [withTable, if_neg own]

theorem withTable_eq_set {c : Contents} {table : TableName} {held : List Value → Option Version}
    {key : List Value} {v : Option Version}
    (heldIs : ∀ k, held k = if k = key then v else c table k) :
    c.withTable table held = c.set table key v := by
  funext name k
  by_cases own : name = table
  · rw [withTable, if_pos own, heldIs, Contents.set]
    by_cases hit : k = key
    · rw [if_pos hit, if_pos ⟨own, hit⟩]
    · rw [if_neg hit, if_neg fun both => hit both.2, own]
  · rw [withTable, if_neg own, Contents.set, if_neg fun both => own both.1]

theorem withTable_eq_dropIf {c : Contents} {table : TableName} {held : List Value → Option Version}
    {key : List Value} {p : Version → Bool}
    (heldIs : ∀ k, held k = if k = key then (c table key).filter fun v => !p v else c table k) :
    c.withTable table held = if (c table key).any p then c.set table key none else c := by
  cases took : (c table key).any p with
  | true =>
    rw [if_pos rfl]
    refine withTable_eq_set fun k => ?_
    obtain ⟨v, stored, taken⟩ := (Option.any_eq_true _ _).mp took
    rw [heldIs, stored, Option.filter_some, taken]
    rfl
  | false =>
    rw [if_neg Bool.false_ne_true]
    refine withTable_eq_self fun k => ?_
    rw [heldIs]
    by_cases hit : k = key
    · rw [if_pos hit, hit]
      cases stored : c table key with
      | none => rfl
      | some v =>
        rw [stored, Option.any_some] at took
        simp [Option.filter_some, took]
    · rw [if_neg hit]

/-- The versions found under a prefix, each with its group and each once. -/
def Lists (c : Contents) (table : TableName) (fixed : List Value)
    (found : List (String × Version)) : Prop :=
  (found.map Prod.fst).Nodup ∧
    ∀ group v, (group, v) ∈ found ↔ c table (fixed ++ [.text group]) = some v

/-- Two lists of what is under a prefix differ only in their order. -/
theorem Lists.perm {c : Contents} {table : TableName} {fixed : List Value}
    {l₁ l₂ : List (String × Version)} (h₁ : c.Lists table fixed l₁) (h₂ : c.Lists table fixed l₂) :
    l₁.Perm l₂ := by
  have nodup : ∀ {l : List (String × Version)}, (l.map Prod.fst).Nodup → l.Nodup := by
    intro l distinct
    rw [List.Nodup, List.pairwise_map] at distinct
    exact distinct.imp fun differ equal => differ (congrArg Prod.fst equal)
  refine (List.perm_ext_iff_of_nodup (nodup h₁.1) (nodup h₂.1)).mpr fun entry => ?_
  rw [h₁.2, h₂.2]

end Contents

/-! ### Answers -/

namespace Schema

variable (s : Schema)

/-- The row that a point read returns. -/
def fullRow (key : List Value) (v : Version) : Row :=
  Row.ofCells ((s.columns.map Identifier.text).zip (key ++ [.text v.id, .blob v.payload]))

/-- A row that a scan returns. -/
def idRow (group id : String) : Row :=
  Row.ofCells [(s.keyColumn.text, .text group), (s.exchangeIdColumn.text, .text id)]

/-- What a statement answers and leaves: an insert replaces the version of its key, a point read
returns it, a delete drops it, a scan lists the versions under the bound prefix, and a conditional
delete drops the version if it has the bound id and says whether it did.  Unless `inOrder` is asked
for, a scan may list in any order. -/
def Means (inOrder : Prop) (now : Nat) (c : Contents) (kind : StatementKind) (values : List Value)
    (answer : ResultSet) (c' : Contents) : Prop :=
  match kind with
  | .insert => ∃ key id payload, values = key ++ [.text id, .blob payload] ∧ answer = .empty ∧
      c' = c.set s.settings.table key
        (some ⟨id, payload, Version.expiry s.settings.ttlSeconds now⟩ |>.filter (·.liveAt now))
  | .selectByKey =>
    answer = ⟨(c s.settings.table values).toList.map (s.fullRow values)⟩ ∧ c' = c
  | .deleteByKey => answer = .empty ∧ c' = c.set s.settings.table values none
  | .selectKeyAndId => ∃ found, c.Lists s.settings.table values found ∧
      (inOrder → Sorted.Ascending found) ∧
      answer = ⟨found.map fun entry => s.idRow entry.1 entry.2.id⟩ ∧ c' = c
  | .conditionalDelete => ∃ key id, values = key ++ [.text id] ∧
      answer = .flag ((c s.settings.table key).any (·.id = id)) ∧
      c' = if (c s.settings.table key).any (·.id = id) then c.set s.settings.table key none else c

variable {s}

/-- Contents and bound values determine the answer up to the order of its rows, and what is
left. -/
theorem Means.unique {o₁ o₂ : Prop} {now : Nat} {c c₁ c₂ : Contents} {kind : StatementKind}
    {values : List Value} {a₁ a₂ : ResultSet} (h₁ : s.Means o₁ now c kind values a₁ c₁)
    (h₂ : s.Means o₂ now c kind values a₂ c₂) : a₁.rows.Perm a₂.rows ∧ c₁ = c₂ := by
  cases kind with
  | insert =>
    obtain ⟨key, id, payload, values₁, rfl, rfl⟩ := h₁
    obtain ⟨key', id', payload', values₂, rfl, rfl⟩ := h₂
    have split := List.append_inj' (values₁.symm.trans values₂) rfl
    obtain ⟨rfl, own⟩ := split
    cases own
    exact ⟨List.Perm.refl _, rfl⟩
  | selectByKey =>
    obtain ⟨rfl, rfl⟩ := h₁
    obtain ⟨rfl, rfl⟩ := h₂
    exact ⟨List.Perm.refl _, rfl⟩
  | deleteByKey =>
    obtain ⟨rfl, rfl⟩ := h₁
    obtain ⟨rfl, rfl⟩ := h₂
    exact ⟨List.Perm.refl _, rfl⟩
  | selectKeyAndId =>
    obtain ⟨found₁, lists₁, -, rfl, rfl⟩ := h₁
    obtain ⟨found₂, lists₂, -, rfl, rfl⟩ := h₂
    exact ⟨(lists₁.perm lists₂).map _, rfl⟩
  | conditionalDelete =>
    obtain ⟨key, id, values₁, rfl, rfl⟩ := h₁
    obtain ⟨key', id', values₂, rfl, rfl⟩ := h₂
    have split := List.append_inj' (values₁.symm.trans values₂) rfl
    obtain ⟨rfl, own⟩ := split
    cases own
    exact ⟨List.Perm.refl _, rfl⟩

/-! ### Reading the rows of an answer -/

variable (s)

theorem columns_texts_nodup : (s.columns.map Identifier.text).Nodup := by
  rw [List.Nodup, List.pairwise_map]
  exact s.columns_nodup.imp fun differ textEq => differ (Identifier.eq_of_text textEq)

/-- The key, exchange id and prefix columns carry different names. -/
theorem own_texts_differ :
    s.keyColumn.text ≠ s.exchangeIdColumn.text ∧
      ∀ column ∈ s.prefixColumns, column.text ≠ s.keyColumn.text ∧
        column.text ≠ s.exchangeIdColumn.text := by
  have distinct := s.columns_texts_nodup
  simp only [columns, primaryKey, List.map_append, List.map_cons, List.map_nil,
    List.append_assoc, List.nodup_append, List.cons_append, List.nil_append, List.nodup_cons,
    List.mem_cons, List.mem_map] at distinct
  obtain ⟨-, own, apart⟩ := distinct
  refine ⟨fun textEq => own.1 (.inl textEq), fun column found => ⟨?_, ?_⟩⟩
  · exact apart _ ⟨column, found, rfl⟩ _ (.inl rfl)
  · exact apart _ ⟨column, found, rfl⟩ _ (.inr (.inl rfl))

theorem idRow_get? (group id : String) (column : String) :
    (s.idRow group id).get? column =
      Sorted.get? column
        [(s.keyColumn.text, .text group), (s.exchangeIdColumn.text, .text id)] := by
  refine Sorted.get?_ofPairs ?_ column
  have differ := s.own_texts_differ.1
  simpa using differ

/-- A scanned row gives back its group and its exchange id. -/
theorem readIdentity_idRow (group id : String) :
    Running.readIdentity s (s.idRow group id) = .ok (some ⟨group, id⟩) := by
  obtain ⟨differ, apart⟩ := s.own_texts_differ
  have key : (s.idRow group id).text s.keyColumn.text = .ok group := by
    simp [Row.text, Row.read, idRow_get?, Sorted.get?_cons, Value.text?]
  have own : (s.idRow group id).text s.exchangeIdColumn.text = .ok id := by
    simp [Row.text, Row.read, idRow_get?, Sorted.get?_cons, Value.text?, Ne.symm differ]
  have claimed : Running.claimedKey s (s.idRow group id) group = s.composeKey group := by
    unfold Running.claimedKey composeKey prefixValues FixedPrefix.values
    congr 1
    refine List.map_congr_left fun entry found => ?_
    have column := apart entry.column (List.mem_map_of_mem found)
    simp [idRow_get?, Sorted.get?_cons, column.1, column.2]
  have back : s.decomposeKey (s.composeKey group) = some group := by
    simp [decomposeKey, composeKey, Value.text?]
  simp only [Running.readIdentity, key, own, claimed, back, bind, Except.bind, pure, Except.pure]

theorem readIdentities_idRows (found : List (String × Version)) :
    Running.readIdentities s (found.map fun entry => s.idRow entry.1 entry.2.id) =
      .ok (found.map fun entry => ⟨entry.1, entry.2.id⟩) := by
  induction found with
  | nil => rfl
  | cons entry rest ih =>
    simp only [List.map_cons, Running.readIdentities, readIdentity_idRow, ih, bind, Except.bind,
      pure, Except.pure]
    rfl

/-- A point read gives back the payload. -/
theorem fullRow_payload {key : List Value} (fits : s.FitsKey key) (v : Version) :
    (s.fullRow key v).blob s.payloadColumn.text = .ok v.payload := by
  have lengthEq : s.primaryKey.length = key.length := by
    rw [fits.length, ← layout_keyNames, Layout.keyNames, List.length_map]
  have cells : (s.columns.map Identifier.text).zip (key ++ [.text v.id, .blob v.payload]) =
      (s.primaryKey.map Identifier.text).zip key ++
        [(s.exchangeIdColumn.text, .text v.id), (s.payloadColumn.text, .blob v.payload)] := by
    rw [columns, List.map_append, List.zip_append (by simpa using lengthEq)]
    rfl
  have found : (s.fullRow key v).get? s.payloadColumn.text = some (.blob v.payload) := by
    refine (Sorted.get?_ofPairs ?_ _).trans (Sorted.get?_of_mem ?_ ?_)
    · rw [List.map_fst_zip (by simp [columns, lengthEq])]
      exact s.columns_texts_nodup
    · rw [List.map_fst_zip (by simp [columns, lengthEq])]
      exact s.columns_texts_nodup
    · rw [cells]
      simp
  simp [Row.blob, Row.read, found, Value.blob?]

end Schema

end GroupStore

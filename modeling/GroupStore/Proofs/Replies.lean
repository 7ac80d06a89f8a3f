import GroupStore.Proofs.Calls

/-!
# Replies of calls on a host that keeps contents

A host keeps contents for a schema if it answers each of the schema's statements as the statement
means.  On such a host every call of a started repository has a reply that its contents decide,
and leaves contents that the reply accounts for.

* `Host.Keeps` — the host's side of the bargain;
* `Running.CallMeans` — what each call replies and leaves;
* `Running.perform_means` — every call does so;
* `Running.CallMeans.unique` — contents determine the reply up to the order of scanned rows.
-/

namespace GroupStore

open Std

variable {S α σ : Type}

/-! ### Hosts that keep contents -/

/-- States that hold contents in the sense of `R` answer every accepted statement of a schema at
the reading `now` and hold then what the statement leaves; reports change nothing. -/
structure Host.Keeps (h : Host σ S) (s : Schema) (accepts : StatementKind → Prepared → Prop)
    (inOrder : Prop) (now : Nat) (R : σ → Contents → Prop) : Prop where
  execute : ∀ session (b : Bound) kind w c, R w c → b.template = s.template kind →
    accepts kind b.statement →
    ∃ answer w' c', h.execute session b w = (.ok answer, w') ∧ R w' c' ∧
      s.Means inOrder now c kind b.values answer c'
  record : ∀ event w c, R w c → R (h.record event w) c

/-! ### What calls mean -/

namespace Schema

/-- What is left when everything under the own table and prefix that has an id is dropped. -/
def confirmed (s : Schema) (c : Contents) (id : String) : Contents := fun t k =>
  if t = s.settings.table ∧ (s.decomposeKey k).isSome ∧ (c t k).any (·.id = id) then none
  else c t k

/-- The reply to a read of what a key holds. -/
def readReply (codec : Codec α) (key : String) :
    Option Version → Except RepositoryError (Reply α)
  | none => .ok (.found none)
  | some v =>
    match codec.unmarshal key v.payload with
    | .error e => .error (.ofCodec e)
    | .ok value => .ok (.found (some value))

/-- What a confirmation leaves is what is left without the listed groups that have its id. -/
theorem confirmed_eq_drop (s : Schema) {c : Contents} {found : List (String × Version)}
    (lists : c.Lists s.settings.table s.prefixValues found) (id : String) :
    s.confirmed c id = fun t k =>
      if t = s.settings.table ∧
          k ∈ ((found.filter fun entry => entry.2.id = id).map Prod.fst).map s.composeKey then none
      else c t k := by
  funext t k
  unfold confirmed
  by_cases table : t = s.settings.table
  · subst table
    have dropped : k ∈ ((found.filter fun entry => entry.2.id = id).map Prod.fst).map s.composeKey ↔
        (s.decomposeKey k).isSome ∧ (c s.settings.table k).any (·.id = id) = true := by
      constructor
      · intro member
        obtain ⟨group, inside, rfl⟩ := List.mem_map.mp member
        obtain ⟨entry, kept, rfl⟩ := List.mem_map.mp inside
        obtain ⟨listed, carries⟩ := List.mem_filter.mp kept
        have stored : c s.settings.table (s.composeKey entry.1) = some entry.2 :=
          (lists.2 entry.1 entry.2).mp listed
        have own : s.decomposeKey (s.composeKey entry.1) = some entry.1 :=
          s.decomposeKey_eq_some_iff.mpr rfl
        rw [own, stored]
        exact ⟨rfl, carries⟩
      · rintro ⟨decomposes, carries⟩
        obtain ⟨group, decomposed⟩ := Option.isSome_iff_exists.mp decomposes
        obtain rfl := s.decomposeKey_eq_some_iff.mp decomposed
        obtain ⟨v, stored, own⟩ := (Option.any_eq_true _ _).mp carries
        have listed : (group, v) ∈ found := (lists.2 group v).mpr stored
        exact List.mem_map_of_mem
          (List.mem_map.mpr ⟨(group, v), List.mem_filter.mpr ⟨listed, own⟩, rfl⟩)
    simp only [true_and, dropped]
  · simp [table]

/-- The groups among listed identities are those whose key holds something. -/
theorem mem_groups_of_lists (s : Schema) {c : Contents} {found : List (String × Version)}
    (lists : c.Lists s.settings.table s.prefixValues found) (group : String) :
    group ∈ (Sorted.ofPairs ((found.map fun entry => (⟨entry.1, entry.2.id⟩ : Identity)).map
        fun identity => (identity.aggregationKey, ()))).map Prod.fst ↔
      ∃ v, c s.settings.table (s.composeKey group) = some v := by
  have pairs : (found.map fun entry => (⟨entry.1, entry.2.id⟩ : Identity)).map
      (fun identity => (identity.aggregationKey, ())) = found.map fun entry => (entry.1, ()) := by
    rw [List.map_map]
    rfl
  rw [pairs, Sorted.mem_keys_ofPairs, List.map_map]
  constructor
  · intro member
    obtain ⟨entry, listed, rfl⟩ := List.mem_map.mp member
    exact ⟨entry.2, (lists.2 entry.1 entry.2).mp listed⟩
  · rintro ⟨v, stored⟩
    exact List.mem_map_of_mem (f := Prod.fst ∘ fun entry : String × Version => (entry.1, ()))
      ((lists.2 group v).mpr stored)

end Schema

namespace Running

variable (r : Running S α)

/-- What a call replies and leaves at the reading `now`: an add replaces the group's version, a
get decodes it, a remove drops it, the scans list what is under the own prefix, and a confirmation
drops all of that which has the id and counts it. -/
def CallMeans (inOrder : Prop) (now : Nat) (c : Contents) (call : Call α)
    (reply : Except RepositoryError (Reply α)) (c' : Contents) : Prop :=
  let table := r.schema.settings.table
  match call with
  | .add key value =>
    match r.repository.codec.marshal key value with
    | .error e => reply = .error (.ofCodec e) ∧ c' = c
    | .ok payload =>
      let v : Version := ⟨r.repository.codec.exchangeId value, payload,
        Version.expiry r.schema.settings.ttlSeconds now⟩
      reply = .ok (.stored value) ∧
        c' = c.set table (r.schema.composeKey key) (some v |>.filter (·.liveAt now))
  | .get key =>
    reply = Schema.readReply r.repository.codec key (c table (r.schema.composeKey key)) ∧ c' = c
  | .remove key => reply = .ok .removed ∧ c' = c.set table (r.schema.composeKey key) none
  | .scan => ∃ found, c.Lists table r.schema.prefixValues found ∧
      (inOrder → Sorted.Ascending found) ∧
      reply = .ok (.identities (found.map fun entry => ⟨entry.1, entry.2.id⟩)) ∧ c' = c
  | .getKeys => ∃ groups : List String, groups.Pairwise (fun a b => compare a b = .lt) ∧
      (∀ group, group ∈ groups ↔ ∃ v, c table (r.schema.composeKey group) = some v) ∧
      reply = .ok (.keys groups) ∧ c' = c
  | .confirm id => ∃ found, c.Lists table r.schema.prefixValues found ∧
      reply = .ok (.confirmed ⟨found.countP (·.2.id = id), found.countP (·.2.id = id), 0⟩) ∧
      c' = r.schema.confirmed c id

/-- Two replies that differ at most in the order of scanned identities. -/
def SameReply (a b : Except RepositoryError (Reply α)) : Prop :=
  a = b ∨ ∃ l₁ l₂ : List Identity, l₁.Perm l₂ ∧
    a = .ok (.identities l₁) ∧ b = .ok (.identities l₂)

variable {r}

/-- Contents determine the reply up to the order of scanned rows, and what is left. -/
theorem CallMeans.unique {r' : Running S α} (repositoryEq : r.repository = r'.repository)
    {o₁ o₂ : Prop} {now : Nat} {c c₁ c₂ : Contents} {call : Call α}
    {a₁ a₂ : Except RepositoryError (Reply α)} (h₁ : r.CallMeans o₁ now c call a₁ c₁)
    (h₂ : r'.CallMeans o₂ now c call a₂ c₂) : SameReply a₁ a₂ ∧ c₁ = c₂ := by
  unfold CallMeans at h₁ h₂
  rw [schema, ← repositoryEq] at h₂
  cases call with
  | add key value =>
    simp only [schema] at h₁ h₂
    cases written : r.repository.codec.marshal key value <;> simp only [written] at h₁ h₂
    all_goals exact ⟨.inl (h₁.1.trans h₂.1.symm), h₁.2.trans h₂.2.symm⟩
  | get key => exact ⟨.inl (h₁.1.trans h₂.1.symm), h₁.2.trans h₂.2.symm⟩
  | remove key => exact ⟨.inl (h₁.1.trans h₂.1.symm), h₁.2.trans h₂.2.symm⟩
  | scan =>
    obtain ⟨found₁, lists₁, -, reply₁, left₁⟩ := h₁
    obtain ⟨found₂, lists₂, -, reply₂, left₂⟩ := h₂
    exact ⟨.inr ⟨_, _, (lists₁.perm lists₂).map _, reply₁, reply₂⟩, left₁.trans left₂.symm⟩
  | getKeys =>
    obtain ⟨groups₁, ordered₁, found₁, reply₁, left₁⟩ := h₁
    obtain ⟨groups₂, ordered₂, found₂, reply₂, left₂⟩ := h₂
    have groups : groups₁ = groups₂ :=
      Sorted.eq_of_ascending_keys ordered₁ ordered₂ fun g => (found₁ g).trans (found₂ g).symm
    exact ⟨.inl (by rw [reply₁, reply₂, groups]), left₁.trans left₂.symm⟩
  | confirm id =>
    obtain ⟨found₁, lists₁, reply₁, left₁⟩ := h₁
    obtain ⟨found₂, lists₂, reply₂, left₂⟩ := h₂
    have counts := (lists₁.perm lists₂).countP_eq (fun entry => decide (entry.2.id = id))
    exact ⟨.inl (by rw [reply₁, reply₂, counts]), left₁.trans left₂.symm⟩

end Running

/-! ### Calls on a host that keeps contents -/

section Runs

variable {h : Host σ S} {r : Running S α} {accepts : StatementKind → Prepared → Prop}
  {inOrder : Prop} {now : Nat} {R : σ → Contents → Prop}

/-- A report changes neither the result nor the contents. -/
theorem Host.Keeps.reported {s : Schema} {β : Type} (keeps : h.Keeps s accepts inOrder now R)
    (event : Except RepositoryError β → Audit.Event) {p : Program S (Except RepositoryError β)}
    {w w' : σ} {c : Contents} {result : Except RepositoryError β}
    (run : p.run h w = (result, w')) (good : R w' c) :
    ∃ w'', (Repository.reported event p).run h w = (result, w'') ∧ R w'' c :=
  ⟨_, by rw [Program.run_reported, run], keeps.record (event result) w' c good⟩

theorem Program.run_mapOk {β γ : Type} {f : β → γ} {p : Program S (Except RepositoryError β)}
    {w w' : σ} {result : Except RepositoryError β} (run : p.run h w = (result, w')) :
    (p.mapOk f).run h w = (result.map f, w') := by
  rw [Program.mapOk, Program.run_map, run]

/-- What a changed success was before. -/
theorem Program.exists_of_mapOk {β γ : Type} {f : β → γ} {p : Program S (Except RepositoryError β)}
    {w : σ} {c : γ} (ok : ((p.mapOk f).run h w).1 = .ok c) :
    ∃ b, (p.run h w).1 = .ok b ∧ f b = c := by
  rw [Program.mapOk, Program.run_map] at ok
  cases result : (p.run h w).1 with
  | error e =>
    rw [result] at ok
    cases ok
  | ok b =>
    rw [result] at ok
    exact ⟨b, rfl, Except.ok.inj ok⟩

namespace Running

/-- Values of the right kinds are bound, and the statement does what it means. -/
theorem submit_run (faithful : r.Faithful)
    (accepted : ∀ kind, accepts kind (r.statements.of kind))
    (keeps : h.Keeps r.schema accepts inOrder now R)
    (kind : StatementKind) {values : List Value}
    (kinds : values.map Value.kind = (r.schema.parameterSpecs kind).map ColumnSpec.kind)
    {w : σ} {c : Contents} (good : R w c) :
    ∃ answer w' c', (r.submit (r.statements.of kind) values).run h w = (.ok answer, w') ∧
      R w' c' ∧ r.schema.Means inOrder now c kind values answer c' := by
  obtain ⟨b, bound, hb, hvalues⟩ := Prepared.exists_bind (faithful kind) kinds
  have template : b.template = r.schema.template kind := by
    rw [Bound.template, hb, faithful kind]
  obtain ⟨answer, w', c', run, good', means⟩ :=
    keeps.execute r.session b kind w c good template (hb ▸ accepted kind)
  rw [hvalues] at means
  refine ⟨answer, w', c', ?_, good', means⟩
  simp only [submit, bound, Program.run, run]

theorem scanIdentities_run (faithful : r.Faithful)
    (accepted : ∀ kind, accepts kind (r.statements.of kind))
    (keeps : h.Keeps r.schema accepts inOrder now R)
    {w : σ} {c : Contents} (good : R w c) :
    ∃ found w', r.scanIdentities.run h w =
        (.ok (found.map fun entry => ⟨entry.1, entry.2.id⟩), w') ∧ R w' c ∧
      c.Lists r.schema.settings.table r.schema.prefixValues found ∧
      (inOrder → Sorted.Ascending found) := by
  obtain ⟨answer, w', c', run, good', found, lists, ordered, rfl, rfl⟩ :=
    submit_run faithful accepted keeps .selectKeyAndId r.schema.prefixValues_fits good
  refine ⟨found, w', ?_, good', lists, ordered⟩
  rw [scanIdentities, show r.statements.selectKeyAndId = r.statements.of .selectKeyAndId from rfl,
    Program.run_andThen_ok run]
  simp only [Schema.readIdentities_idRows, Program.run]

/-- Conditional deletes of groups that carry the id drop them all. -/
theorem dropEach_run (faithful : r.Faithful)
    (accepted : ∀ kind, accepts kind (r.statements.of kind))
    (keeps : h.Keeps r.schema accepts inOrder now R)
    (id : String) (keys : List String) (counters : Confirmation) {w : σ} {c : Contents}
    (good : R w c) (distinct : keys.Nodup)
    (carry : ∀ key ∈ keys,
      (c r.schema.settings.table (r.schema.composeKey key)).any (·.id = id) = true) :
    ∃ w', (r.dropEach id keys counters).run h w =
        (.ok ⟨counters.matched + keys.length, counters.deleted + keys.length, counters.stale⟩, w') ∧
      R w' fun t k =>
        if t = r.schema.settings.table ∧ k ∈ keys.map r.schema.composeKey then none
        else c t k := by
  induction keys generalizing w c counters with
  | nil => exact ⟨w, rfl, by simpa using good⟩
  | cons key rest ih =>
    rw [List.nodup_cons] at distinct
    obtain ⟨answer, w₁, c₁, run, good₁, key', id', values, rfl, left⟩ :=
      submit_run faithful accepted keeps .conditionalDelete
        (r.schema.conditionalDelete_kinds key id) good
    obtain ⟨rfl, own⟩ := List.append_inj' values rfl
    obtain rfl : id = id' := by simpa using own
    have holds := carry key List.mem_cons_self
    rw [holds] at run
    rw [if_pos holds] at left
    have later : ∀ other ∈ rest,
        (c₁ r.schema.settings.table (r.schema.composeKey other)).any (·.id = id) = true := by
      intro other member
      have differs : r.schema.composeKey other ≠ r.schema.composeKey key := fun keyEq =>
        distinct.1 (r.schema.composeKey_injective keyEq ▸ member)
      rw [left, Contents.set_other _ _ fun both => differs both.2]
      exact carry other (List.mem_cons_of_mem _ member)
    obtain ⟨w', runRest, good'⟩ := ih (counters.count true) good₁ distinct.2 later
    refine ⟨w', ?_, ?_⟩
    · have read : readApplied (.flag true) = .ok true := rfl
      rw [dropEach, show r.statements.conditionalDelete = r.statements.of .conditionalDelete from
        rfl, Program.run_andThen_ok run]
      have counted : counters.count true =
          ⟨counters.matched + 1, counters.deleted + 1, counters.stale⟩ := rfl
      simp only [read, runRest]
      simp only [counted, List.length_cons, Nat.add_assoc, Nat.add_comm 1]
    · refine cast (congrArg (R w') ?_) good'
      rw [left]
      funext t k
      by_cases own : t = r.schema.settings.table ∧ k = r.schema.composeKey key
      · simp [Contents.set, own]
      · rw [Contents.set_other _ _ own]
        by_cases table : t = r.schema.settings.table
        · have other : k ≠ r.schema.composeKey key := fun keyEq => own ⟨table, keyEq⟩
          simp [table, other]
        · simp [table]

/-- What a key holds is read from the rows that its select returns. -/
theorem readResult_held (key : String) (held : Option Version) :
    (r.readResult key ⟨held.toList.map (r.schema.fullRow (r.schema.composeKey key))⟩).map
        Reply.found = Schema.readReply r.repository.codec key held := by
  cases held with
  | none => rfl
  | some v =>
    simp only [Option.toList_some, List.map_cons, List.map_nil, readResult,
      r.schema.fullRow_payload (r.schema.composeKey_fits key) v, Schema.readReply]
    cases r.repository.codec.unmarshal key v.payload <;> rfl

/-- A confirmation drops exactly what is listed under its id, and nothing it finds is stale. -/
theorem confirmMatches_run (faithful : r.Faithful)
    (accepted : ∀ kind, accepts kind (r.statements.of kind))
    (keeps : h.Keeps r.schema accepts inOrder now R)
    (id : String) {w : σ} {c : Contents} (good : R w c) :
    ∃ found w', (r.confirmMatches id).run h w =
        (.ok ⟨found.countP (·.2.id = id), found.countP (·.2.id = id), 0⟩, w') ∧
      R w' (r.schema.confirmed c id) ∧
      c.Lists r.schema.settings.table r.schema.prefixValues found := by
  obtain ⟨found, w₁, run, good₁, lists, -⟩ := scanIdentities_run faithful accepted keeps good
  let matching := found.filter fun entry => entry.2.id = id
  have keys : ((found.map fun entry => (⟨entry.1, entry.2.id⟩ : Identity)).filter
      fun identity => identity.exchangeId = id).map Identity.aggregationKey =
      matching.map Prod.fst := by
    rw [List.filter_map, List.map_map]
    rfl
  have distinct : (matching.map Prod.fst).Nodup :=
    (List.filter_sublist.map Prod.fst).nodup lists.1
  have carry : ∀ key ∈ matching.map Prod.fst,
      (c r.schema.settings.table (r.schema.composeKey key)).any (·.id = id) = true := by
    intro key member
    obtain ⟨entry, kept, rfl⟩ := List.mem_map.mp member
    obtain ⟨listed, carries⟩ := List.mem_filter.mp kept
    have stored : c r.schema.settings.table (r.schema.composeKey entry.1) = some entry.2 :=
      (lists.2 entry.1 entry.2).mp listed
    rw [stored]
    simpa using carries
  obtain ⟨w', runRest, good'⟩ :=
    dropEach_run faithful accepted keeps id _ ⟨0, 0, 0⟩ good₁ distinct carry
  refine ⟨found, w', ?_, ?_, lists⟩
  · rw [confirmMatches, Program.run_andThen_ok run]
    simp only [keys, runRest, List.length_map, Nat.zero_add]
    rw [List.countP_eq_length_filter]
  · rw [r.schema.confirmed_eq_drop lists id]
    exact good'

/-- On a host that keeps contents every call has the reply that its contents decide, and leaves
what the reply accounts for. -/
theorem perform_means (faithful : r.Faithful)
    (accepted : ∀ kind, accepts kind (r.statements.of kind))
    (keeps : h.Keeps r.schema accepts inOrder now R)
    (call : Call α) {w : σ} {c : Contents} (good : R w c) :
    ∃ reply w' c', (r.perform call).run h w = (reply, w') ∧ R w' c' ∧
      r.CallMeans inOrder now c call reply c' := by
  cases call with
  | add key value =>
    simp only [perform, add, CallMeans]
    cases written : r.repository.codec.marshal key value with
    | error e =>
      have run : (r.insertResult key value).run h w = (.error (.ofCodec e), w) := by
        rw [insertResult, written]
        rfl
      obtain ⟨w', reported, good'⟩ := keeps.reported _ run good
      exact ⟨_, w', c, Program.run_mapOk (Program.run_andThen_error reported), good', rfl, rfl⟩
    | ok payload =>
      obtain ⟨answer, w₁, c', submitted, good₁, key', id', payload', values, rfl, left⟩ :=
        submit_run faithful accepted keeps .insert (r.schema.insert_kinds key
          (r.repository.codec.exchangeId value) payload) good
      obtain ⟨rfl, own⟩ := List.append_inj' values rfl
      cases own
      have run : (r.insertResult key value).run h w = (.ok (), w₁) := by
        rw [insertResult, written]
        exact Program.run_andThen_ok submitted
      obtain ⟨w', reported, good'⟩ := keeps.reported _ run good₁
      exact ⟨_, w', c', Program.run_mapOk (Program.run_andThen_ok reported), good', rfl, left⟩
  | get key =>
    obtain ⟨answer, w₁, c', submitted, good₁, rfl, left⟩ :=
      submit_run faithful accepted keeps .selectByKey (r.schema.composeKey_fits key) good
    have run : (r.selectResult key).run h w = (r.readResult key _, w₁) :=
      Program.run_andThen_ok submitted
    obtain ⟨w', reported, good'⟩ := keeps.reported (r.reportGet key) run good₁
    exact ⟨_, w', c', Program.run_mapOk reported, good', readResult_held key _, left⟩
  | confirm id =>
    obtain ⟨found, w₁, run, good₁, lists⟩ := confirmMatches_run faithful accepted keeps id good
    obtain ⟨w', reported, good'⟩ := keeps.reported _ run good₁
    exact ⟨_, w', _, Program.run_mapOk reported, good', found, lists, rfl, rfl⟩
  | remove key =>
    obtain ⟨answer, w₁, c', submitted, good₁, rfl, left⟩ :=
      submit_run faithful accepted keeps .deleteByKey (r.schema.composeKey_fits key) good
    have run : (r.deleteResult key).run h w = (.ok (), w₁) := Program.run_andThen_ok submitted
    obtain ⟨w', reported, good'⟩ := keeps.reported _ run good₁
    exact ⟨_, w', c', Program.run_mapOk reported, good', rfl, left⟩
  | getKeys =>
    obtain ⟨found, w₁, scanned, good₁, lists, -⟩ := scanIdentities_run faithful accepted keeps good
    obtain ⟨w', reported, good'⟩ :=
      keeps.reported _ (Program.run_andThen_ok (f := fun identities => .done (.ok
        ((Sorted.ofPairs (identities.map fun i : Identity => (i.aggregationKey, ()))).map
          Prod.fst)))
        scanned) good₁
    refine ⟨_, w', c, Program.run_mapOk reported, good', _, ?_, fun group => ?_, rfl, rfl⟩
    · exact List.pairwise_map.mpr (Sorted.ascending_ofPairs _)
    · exact r.schema.mem_groups_of_lists lists group
  | scan =>
    obtain ⟨found, w₁, run, good₁, lists, ordered⟩ :=
      scanIdentities_run faithful accepted keeps good
    obtain ⟨w', reported, good'⟩ := keeps.reported _ run good₁
    exact ⟨_, w', c, Program.run_mapOk reported, good', found, lists, ordered, rfl, rfl⟩

end Running

end Runs

end GroupStore

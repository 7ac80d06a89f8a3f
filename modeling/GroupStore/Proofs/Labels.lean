import GroupStore.Proofs.ReadBack

/-!
# The exchange id of a row is that of the exchange in it

An exchange is stored with its id in a column and once more inside the payload.  A get reads the
payload, a scan and a confirmation read the column.  Rows are written by adds only, and an add
writes both from one exchange, so in every state that clients can reach the two agree: what a get
returns is confirmed under the id that it shows.

* `Version.Labelled` — the two ids agree; `Shared.Labelled` — they do in every row;
* `Shared.Coherent.kept_or_added` — where a stored row comes from;
* `Shared.Labelled.run` — the invariant holds of whatever can be reached;
* `Memory.entry?_of_run` — calls that insert nothing leave only rows that were there;
* `Shared.Sees` — a moment at one clock reading, kept by `Sees.get` and `Sees.scan`;
* `Shared.get_names_confirm` — gets, scans and confirmations at one clock reading.
-/

namespace GroupStore

open Memory

variable {S α : Type}

/-! ### Payloads and their labels -/

/-- The payload is that of an exchange without floating point numbers, and has its id. -/
def Version.Labelled (v : Version) : Prop :=
  ∃ x : Exchange, x.Exact ∧ v.id = x.id ∧ v.payload = (Payload.text x).toUTF8

namespace Payload

/-- Whatever the limits are, the text of an exchange is read as that exchange or not at all. -/
theorem read_text {limit : Nat} {x y : Exchange} (exact' : x.Exact)
    (found : read limit (text x).toUTF8 = .ok y) : y = x := by
  rw [read, read?_text exact'] at found
  split at found
  · by_cases shallow : (envelope x).depth ≤ Json.maxDepth
    · simp only [if_pos shallow, if_true] at found
      exact (Except.ok.inj found).symm
    · simp only [if_neg shallow] at found
      cases found
  · cases found

end Payload

/-- A get of a labelled version returns an exchange with its id, or fails to decode it. -/
theorem Version.Labelled.readReply {v : Version} (labelled : v.Labelled) {codec : Codec Exchange}
    {limit : Nat} (own : codec = Payload.codec limit) (key : String) :
    (∃ x : Exchange, Schema.readReply codec key (some v) = .ok (.found (some x)) ∧ x.id = v.id) ∨
      ∃ text, Schema.readReply codec key (some v) = .error (.decode text) := by
  obtain ⟨x, exact', id, payload⟩ := labelled
  rw [own]
  unfold Schema.readReply
  cases read : Payload.read limit v.payload with
  | error fault =>
    right
    simp only [Payload.codec, read]
    exact ⟨_, rfl⟩
  | ok y =>
    left
    obtain rfl := Payload.read_text exact' (payload ▸ read)
    simp only [Payload.codec, read]
    exact ⟨y, rfl, id.symm⟩

/-! ### Where rows come from -/

namespace Shared

variable {s : Shared S α}

/-- Layouts stay registered. -/
theorem Coherent.holds_move (coherent : s.Coherent) (m : Move S α) {l : Layout}
    (held : s.store.Holds l) : (s.move m).store.Holds l := by
  cases m with
  | start repository =>
    rcases run : repository.start.run (host s.session) ⟨s.store, s.now⟩ with ⟨result, w⟩
    cases result with
    | error e =>
      simp only [Shared.move, run]
      exact held
    | ok running =>
      have gains := (start_leaves coherent.sound run).2.2.2
      simp only [Shared.move, run]
      exact (gains.holds l).mpr (.inl held)
  | call repository call =>
    cases found : s.running[repository]? <;> simp only [Shared.move, found] <;> exact held
  | step task delay =>
    cases made : s.execution? (.step task delay) with
    | some e => exact ((coherent.execution_means made).2.2.1 l).mpr held
    | none =>
      cases found : s.tasks[task]? with
      | none =>
        simp only [Shared.move, found]
        exact held
      | some t =>
        have asks := (coherent.tasks t (List.mem_of_getElem? found)).2
        rcases next_cases s.session asks ⟨s.store, s.now + delay⟩ with
          worldIs | ⟨session, b, next, request, -⟩
        · simp only [Shared.move, found, worldIs]
          exact held
        · rw [execution?, found, Option.bind_some, request] at made
          cases made

/-- A row that is there after a move was there before, or the move executed the insert of an add,
and it is the row of what was added. -/
theorem Coherent.kept_or_added (coherent : s.Coherent) {m : Move S α} {table : TableName}
    {key : List Value} {row : Entry} (stored : (s.move m).store.entry? table key = some row) :
    s.store.entry? table key = some row ∨
      ∃ e group value payload, s.execution? m = some e ∧ e.call = .add group value ∧
        e.running.repository.codec.marshal group value = .ok payload ∧
        s.store.Holds e.running.schema.layout ∧ table = e.running.schema.settings.table ∧
        row = e.running.schema.entry ⟨e.running.repository.codec.exchangeId value, payload,
          Version.expiry e.running.schema.settings.ttlSeconds e.now⟩ := by
  cases made : s.execution? m with
  | none => exact .inl (((coherent.quiet made).1 table key).symm.trans stored)
  | some e =>
    obtain ⟨requests, held, -, -, kind, answer, hb, -, executed, -⟩ :=
      coherent.execution_means made
    have reads (other : ∀ group value, e.call ≠ .add group value) :
        e.bound.template.kind ≠ .insert := by
      cases call : e.call with
      | add group value => exact absurd call (other group value)
      | confirm id =>
        rw [call] at requests
        rcases requests with scan | delete
        · rw [scan.1, Schema.template_kind]
          exact StatementKind.noConfusion
        · rw [delete.1, Schema.template_kind]
          exact StatementKind.noConfusion
      | get group | remove group | getKeys | scan =>
        rw [call] at requests
        rw [requests.1, Schema.template_kind]
        exact StatementKind.noConfusion
    by_cases adds : ∃ group value, e.call = .add group value
    · obtain ⟨group, value, call⟩ := adds
      rw [call] at requests
      obtain ⟨template, payload, written, values⟩ := requests
      rw [Store.entry?_of_insert coherent.sound held template values
        (e.running.schema.composeKey_fits group) executed] at stored
      split at stored
      · rename_i hit
        exact .inr ⟨e, group, value, payload, rfl, call, written, held, hit.1,
          (Option.some.inj stored).symm⟩
      · exact .inl stored
    · have other : ∀ group value, e.call ≠ .add group value := fun group value call =>
        adds ⟨group, value, call⟩
      exact .inl (Store.entry?_of_execute coherent.sound (reads other) executed stored)

end Shared

/-! ### The invariant -/

/-- A call does not add floating point numbers. -/
def Call.Exact : Call Exchange → Prop
  | .add _ x => x.Exact
  | .get _ | .confirm _ | .remove _ | .getKeys | .scan => True

/-- A move starts a repository of exchanges as payloads, begins a call without floating point
numbers, or is a step of one. -/
def Move.Exact : Move S Exchange → Prop
  | .start repository => ∃ limit, repository.codec = Payload.codec limit
  | .call _ begun => begun.Exact
  | .step _ _ => True

namespace Shared

variable {s : Shared S Exchange}

/-- Every repository stores exchanges as payloads, no call under way has floating point numbers, and
every row holds a labelled version. -/
structure Labelled (s : Shared S Exchange) : Prop where
  running : ∀ r ∈ s.running, ∃ limit, r.repository.codec = Payload.codec limit
  tasks : ∀ t ∈ s.tasks, (∃ limit, t.running.repository.codec = Payload.codec limit) ∧ t.call.Exact
  rows : ∀ table key row, s.store.entry? table key = some row →
    ∃ (schema : Schema) (v : Version), s.store.Holds schema.layout ∧
      schema.settings.table = table ∧ row = schema.entry v ∧ v.Labelled

theorem labelled_initial (session : S) : (initial session : Shared S Exchange).Labelled where
  running := fun _ member => absurd member List.not_mem_nil
  tasks := fun _ member => absurd member List.not_mem_nil
  rows := fun _ _ _ absent => by cases absent

theorem Labelled.rows_move (labelled : s.Labelled) (coherent : s.Coherent) (m : Move S Exchange)
    (table : TableName) (key : List Value) (row : Entry)
    (stored : (s.move m).store.entry? table key = some row) :
    ∃ (schema : Schema) (v : Version), (s.move m).store.Holds schema.layout ∧
      schema.settings.table = table ∧ row = schema.entry v ∧ v.Labelled := by
  rcases coherent.kept_or_added stored with
    before | ⟨e, group, x, payload, made, call, written, held, rfl, rfl⟩
  · obtain ⟨schema, v, held, own, rowIs, good⟩ := labelled.rows table key row before
    exact ⟨schema, v, coherent.holds_move m held, own, rowIs, good⟩
  · obtain ⟨task, delay, t, session, next, -, found, -, running, begun, -⟩ :=
      execution?_eq_some_iff.mp made
    obtain ⟨⟨limit, codec⟩, exact'⟩ := labelled.tasks t (List.mem_of_getElem? found)
    rw [← running] at codec
    rw [← begun, call] at exact'
    rw [codec] at written
    refine ⟨e.running.schema, _, coherent.holds_move m held, rfl, rfl, x, exact', ?_,
      (Payload.marshal_eq_ok_iff.mp written).2.symm⟩
    rw [codec]
    rfl

/-- Every move keeps the invariant. -/
theorem Labelled.move (labelled : s.Labelled) (coherent : s.Coherent) {m : Move S Exchange}
    (exact' : m.Exact) : (s.move m).Labelled := by
  refine ⟨?_, ?_, labelled.rows_move coherent m⟩
  · cases m with
    | start repository =>
      rcases run : repository.start.run (host s.session) ⟨s.store, s.now⟩ with ⟨result, w⟩
      cases result with
      | error e =>
        simp only [Shared.move, run]
        exact labelled.running
      | ok running =>
        simp only [Shared.move, run]
        intro r member
        rcases List.mem_append.mp member with old | new
        · exact labelled.running r old
        · rw [List.mem_singleton.mp new, (start_leaves coherent.sound run).1]
          exact exact'
    | call repository call =>
      cases found : s.running[repository]? <;> simp only [Shared.move, found] <;>
        exact labelled.running
    | step task delay =>
      cases found : s.tasks[task]? <;> simp only [Shared.move, found] <;> exact labelled.running
  · cases m with
    | start repository =>
      rcases run : repository.start.run (host s.session) ⟨s.store, s.now⟩ with ⟨result, w⟩
      cases result <;> simp only [Shared.move, run] <;> exact labelled.tasks
    | call repository call =>
      cases found : s.running[repository]? with
      | none =>
        simp only [Shared.move, found]
        exact labelled.tasks
      | some running =>
        simp only [Shared.move, found]
        intro t member
        rcases List.mem_append.mp member with old | new
        · exact labelled.tasks t old
        · rw [List.mem_singleton.mp new]
          exact ⟨labelled.running running (List.mem_of_getElem? found), exact'⟩
    | step task delay =>
      cases found : s.tasks[task]? with
      | none =>
        simp only [Shared.move, found]
        exact labelled.tasks
      | some t =>
        simp only [Shared.move, found]
        intro t' member
        rcases List.mem_or_eq_of_mem_set member with old | rfl
        · exact labelled.tasks t' old
        · exact labelled.tasks t (List.mem_of_getElem? found)

theorem Labelled.run (labelled : s.Labelled) (coherent : s.Coherent)
    {moves : List (Move S Exchange)}
    (exact' : ∀ m ∈ moves, m.Exact) : (s.run moves).Labelled := by
  induction moves generalizing s with
  | nil => exact labelled
  | cons m rest ih =>
    obtain ⟨first, others⟩ := List.forall_mem_cons.mp exact'
    exact ih (labelled.move coherent first) (coherent.move m) others

/-- What the contents hold under a key of a started repository is labelled. -/
theorem Labelled.version (labelled : s.Labelled) (coherent : s.Coherent) {r : Running S Exchange}
    (started : r ∈ s.running) {now : Nat} {key : List Value} {v : Version}
    (held : s.store.contents now r.schema.settings.table key = some v) : v.Labelled := by
  have layout := (coherent.running r started).2
  obtain ⟨stored, -⟩ := (coherent.sound.contents_eq_some_iff layout).mp held
  obtain ⟨schema, v', layout', own, entryEq, good⟩ := labelled.rows _ _ _ stored
  rw [entry_eq_of_layout (layout'.unique layout own)] at entryEq
  rw [entry_injective r.schema entryEq]
  exact good

end Shared

/-! ### Calls that insert nothing -/

/-- On a sound store a program that requests statements of one schema, and no insert, leaves only
rows that were there. -/
theorem Memory.entry?_of_run (self : S) {β : Type} {schema : Schema} {p : Program S β} {w : Moment}
    (asks : p.Asks fun _ b => ∃ kind, kind ≠ .insert ∧ b.template = schema.template kind)
    (sound : w.store.Sound) (held : w.store.Holds schema.layout) {table : TableName}
    {key : List Value} {row : Entry}
    (stored : (p.run (host self) w).2.store.entry? table key = some row) :
    w.store.entry? table key = some row := by
  induction p generalizing w with
  | done a => exact stored
  | connect next ih => exact asks.elim
  | prepare session t next ih => exact asks.elim
  | close session next ih => exact asks.elim
  | record e next ih => exact ih asks sound held stored
  | execute session b next ih =>
    obtain ⟨⟨kind, other, template⟩, later⟩ := asks
    obtain ⟨answer, store', executed, sound', layouts, -⟩ :=
      Store.execute_means sound held template w.now
    have step : (host self).execute session b w = (.ok answer, ⟨store', w.now⟩) := by
      simp only [host, executed]
    rw [Program.run, step] at stored
    have before := ih (.ok answer) (w := ⟨store', w.now⟩) (later _) sound' ((layouts _).mpr held)
      stored
    refine Store.entry?_of_execute sound ?_ executed before
    rw [template, Schema.template_kind]
    exact other

namespace Shared

/-! ### Calls at one clock reading -/

section

variable {s : Shared S α} {delay : Nat} {w : Moment}

/-- At a moment the clients may go on, and see what they would see after a delay. -/
structure Sees (s : Shared S α) (delay : Nat) (w : Moment) : Prop where
  coherent : (s.after w).Coherent
  clock : w.now = s.now + delay
  contents : w.store.contents w.now = s.store.contents w.now

theorem Coherent.sees (coherent : s.Coherent) (delay : Nat) :
    s.Sees delay ⟨s.store, s.now + delay⟩ where
  coherent := coherent.after coherent.sound fun _ => Iff.rfl
  clock := rfl
  contents := rfl

/-- A call in one go leaves the clock as it is. -/
theorem Sees.perform (sees : s.Sees delay w) (self : S) {r : Running S α} (started : r ∈ s.running)
    (call : Call α) :
    ∃ reply w', (r.perform call).run (host self) w = (reply, w') ∧ w'.now = w.now ∧
      (s.after w').Coherent ∧
      r.CallMeans True w.now (s.store.contents w.now) call reply (w'.store.contents w.now) := by
  obtain ⟨reply, w', run, clock, coherent, means⟩ := sees.coherent.perform self started 0 call
  have now : w'.now = w.now := clock
  rw [now] at means
  exact ⟨reply, w', run, now, coherent, sees.contents ▸ means⟩

/-- A get replies what its group holds, and changes nothing that can be seen. -/
theorem Sees.get (sees : s.Sees delay w) (self : S) {r : Running S α} (started : r ∈ s.running)
    (key : String) :
    ∃ w', (r.perform (.get key)).run (host self) w =
        (Schema.readReply r.repository.codec key (s.store.contents (s.now + delay)
          r.schema.settings.table (r.schema.composeKey key)), w') ∧ s.Sees delay w' := by
  obtain ⟨reply, w', run, now, coherent, rfl, left⟩ := sees.perform self started (.get key)
  rw [sees.clock] at run
  exact ⟨w', run, coherent, now.trans sees.clock, by rw [now, left]⟩

/-- A scan lists every group under the own prefix that holds something, with its id, and changes
nothing that can be seen. -/
theorem Sees.scan (sees : s.Sees delay w) (self : S) {r : Running S α} (started : r ∈ s.running) :
    ∃ ids w', (r.perform .scan).run (host self) w = (.ok (.identities ids), w') ∧
      s.Sees delay w' ∧
      ∀ key id, ⟨key, id⟩ ∈ ids ↔ ∃ v, s.store.contents (s.now + delay) r.schema.settings.table
        (r.schema.composeKey key) = some v ∧ v.id = id := by
  obtain ⟨reply, w', run, now, coherent, found, lists, -, rfl, left⟩ :=
    sees.perform self started .scan
  rw [sees.clock] at lists
  refine ⟨_, w', run, ⟨coherent, now.trans sees.clock, by rw [now, left]⟩, fun key id => ?_⟩
  rw [List.mem_map]
  constructor
  · rintro ⟨⟨group, v⟩, listed, identityEq⟩
    cases identityEq
    exact ⟨v, (lists.2 _ v).mp listed, rfl⟩
  · rintro ⟨v, held, rfl⟩
    exact ⟨(key, v), (lists.2 key v).mpr held, rfl⟩

/-- A confirmation deletes the row of a live version that has its id. -/
theorem Sees.confirm (sees : s.Sees delay w) (self : S) {r : Running S α} (started : r ∈ s.running)
    {key : String} {v : Version}
    (held : s.store.contents (s.now + delay) r.schema.settings.table (r.schema.composeKey key) =
      some v) :
    ∃ c w', (r.perform (.confirm v.id)).run (host self) w = (.ok (.confirmed c), w') ∧
      w.store.entry? r.schema.settings.table (r.schema.composeKey key) ≠ none ∧
      w'.store.entry? r.schema.settings.table (r.schema.composeKey key) = none := by
  obtain ⟨faithful, layout⟩ := sees.coherent.running r started
  obtain ⟨reply, w', run, now, coherent, found, -, rfl, left⟩ :=
    sees.perform self started (.confirm v.id)
  rw [← sees.clock] at held
  obtain ⟨stored, live⟩ := (sees.coherent.sound.contents_eq_some_iff layout).mp
    ((congrFun (congrFun sees.contents _) _).trans held)
  refine ⟨_, w', run, ?_, ?_⟩
  · intro gone
    cases stored.symm.trans gone
  have asks : (r.perform (.confirm v.id)).Asks fun _ b =>
      ∃ kind, kind ≠ .insert ∧ b.template = r.schema.template kind := by
    refine (Running.perform_asks faithful (.confirm v.id)).mono fun _ b own => ?_
    rcases own.2 with scan | delete
    · exact ⟨_, StatementKind.noConfusion, scan.1⟩
    · exact ⟨_, StatementKind.noConfusion, delete.1⟩
  -- A row that were still there would be the live one, and the contents have none.
  cases remains : w'.store.entry? r.schema.settings.table (r.schema.composeKey key) with
  | none => rfl
  | some row =>
    have before : w.store.entry? r.schema.settings.table (r.schema.composeKey key) = some row := by
      refine entry?_of_run self asks sees.coherent.sound layout ?_
      rw [run]
      exact remains
    obtain rfl := Option.some.inj (stored.symm.trans before)
    have kept := (coherent.sound.contents_eq_some_iff (coherent.running r started).2).mpr
      ⟨remains, live⟩
    have decomposes : (r.schema.decomposeKey (r.schema.composeKey key)).isSome := by
      rw [r.schema.decomposeKey_eq_some_iff.mpr rfl]
      rfl
    have gone :
        w'.store.contents w.now r.schema.settings.table (r.schema.composeKey key) = none := by
      rw [left, Schema.confirmed, held]
      exact if_pos ⟨rfl, decomposes, by simp⟩
    cases kept.symm.trans gone

end

variable {s : Shared S Exchange}

/-- What a get finds is a version whose id the exchange shows. -/
theorem Labelled.of_found (labelled : s.Labelled) (coherent : s.Coherent) {r : Running S Exchange}
    (started : r ∈ s.running) {now : Nat} {key : String} {x : Exchange}
    (found : Schema.readReply r.repository.codec key (s.store.contents now r.schema.settings.table
      (r.schema.composeKey key)) = .ok (.found (some x))) :
    ∃ v, s.store.contents now r.schema.settings.table (r.schema.composeKey key) = some v ∧
      v.id = x.id := by
  obtain ⟨limit, codec⟩ := labelled.running r started
  cases held : s.store.contents now r.schema.settings.table (r.schema.composeKey key) with
  | none =>
    rw [held] at found
    cases found
  | some v =>
    rw [held] at found
    rcases (labelled.version coherent started held).readReply codec key with
      ⟨y, readReplyIs, own⟩ | ⟨text, failed⟩
    · rw [readReplyIs] at found
      cases found
      exact ⟨v, rfl, own.symm⟩
    · rw [failed] at found
      cases found

/-- In every state that clients can reach who store exchanges without floating point numbers, and at
any clock reading: what a get of a group returns is listed by a scan under the group and its own id,
before the get or after it, and a confirmation of that id, made next, deletes the row of the group.
Conversely, a get of a group that a scan lists, made before the scan or after it, returns an
exchange with the listed id, or fails to decode it. -/
theorem get_names_confirm (session : S) (moves : List (Move S Exchange))
    (exact' : ∀ m ∈ moves, m.Exact) :
    let s := (initial session : Shared S Exchange).run moves
    ∀ r ∈ s.running, ∀ (key : String) (delay : Nat),
      let start : Moment := ⟨s.store, s.now + delay⟩
      let get := (r.perform (.get key)).run (host session)
      let scan := (r.perform .scan).run (host session)
      (∀ x, (get start).1 = .ok (.found (some x)) →
        (∀ w ∈ [start, (get start).2],
          ∃ ids, (scan w).1 = .ok (.identities ids) ∧ ⟨key, x.id⟩ ∈ ids) ∧
        ∃ c, ((r.perform (.confirm x.id)).run (host session) (get start).2).1 =
            .ok (.confirmed c) ∧
          (get start).2.store.entry? r.schema.settings.table (r.schema.composeKey key) ≠ none ∧
          ((r.perform (.confirm x.id)).run (host session) (get start).2).2.store.entry?
            r.schema.settings.table (r.schema.composeKey key) = none) ∧
      ∀ ids id, (scan start).1 = .ok (.identities ids) → ⟨key, id⟩ ∈ ids →
        ∀ w ∈ [start, (scan start).2],
          (∃ x, (get w).1 = .ok (.found (some x)) ∧ x.id = id) ∨
            ∃ text, (get w).1 = .error (.decode text) := by
  intro s r started key delay start get scan
  have coherent : s.Coherent := (coherent_initial session).run moves
  have labelled : s.Labelled := (labelled_initial session).run (coherent_initial session) exact'
  have sees : s.Sees delay start := coherent.sees delay
  obtain ⟨w₁, runGet, sees₁⟩ := sees.get session started key
  obtain ⟨ids₂, w₂, runScan, sees₂, lists₂⟩ := sees.scan session started
  have afterGet : (get start).2 = w₁ := congrArg Prod.snd runGet
  have afterScan : (scan start).2 = w₂ := congrArg Prod.snd runScan
  rw [afterGet, afterScan]
  refine ⟨fun x found => ?_, fun ids id listed member w reading => ?_⟩
  · obtain ⟨v, held, own⟩ := labelled.of_found coherent started
      ((congrArg Prod.fst runGet).symm.trans found)
    rw [← own]
    refine ⟨List.forall_mem_cons.mpr ⟨?_, fun w last => ?_⟩, ?_⟩
    · exact ⟨ids₂, congrArg Prod.fst runScan, (lists₂ key v.id).mpr ⟨v, held, rfl⟩⟩
    · rw [List.mem_singleton.mp last]
      obtain ⟨ids, w', run, -, lists⟩ := sees₁.scan session started
      exact ⟨ids, congrArg Prod.fst run, (lists key v.id).mpr ⟨v, held, rfl⟩⟩
    · obtain ⟨c, w', run, stored, gone⟩ := sees₁.confirm session started held
      rw [run]
      exact ⟨c, rfl, stored, gone⟩
  · obtain rfl : ids₂ = ids := by
      have resultIs := (congrArg Prod.fst runScan).symm.trans listed
      cases resultIs
      rfl
    obtain ⟨v, held, rfl⟩ := (lists₂ key id).mp member
    obtain ⟨limit, codec⟩ := labelled.running r started
    have seen : s.Sees delay w := by
      rcases List.mem_cons.mp reading with rfl | last
      · exact sees
      · rw [List.mem_singleton.mp last]
        exact sees₂
    obtain ⟨w', run, -⟩ := seen.get session started key
    rw [show get w = _ from run, held]
    exact (labelled.version coherent started held).readReply codec key

end Shared

/-! ### A group that was added -/

/-- A repository is started and adds an exchange for a group. -/
def plainMoves : List (Move Unit Exchange) :=
  [.start plainRepository, .call 0 (.add "group" (nestedExchange 1)), .step 0 0]

theorem plainMoves_exact : ∀ m ∈ plainMoves, m.Exact := by
  simp only [plainMoves, List.forall_mem_cons, List.not_mem_nil, false_implies, implies_true,
    and_true]
  exact ⟨⟨Payload.defaultLimit, rfl⟩, nestedExchange_exact 1, trivial⟩

/-- An add of a value that can be written begins with its insert. -/
theorem Running.perform_add_eq {r : Running S α} (faithful : r.Faithful) {key : String} {value : α}
    {payload : ByteArray} (written : r.repository.codec.marshal key value = .ok payload) :
    ∃ b next, r.perform (.add key value) = .execute r.session b next := by
  obtain ⟨b, bound, -⟩ := Prepared.exists_bind (faithful .insert)
    (r.schema.insert_kinds key (r.repository.codec.exchangeId value) payload)
  have insert : ∃ next, r.insertResult key value = .execute r.session b next := by
    rw [insertResult, written]
    simp only [submit, show r.statements.insert = r.statements.of .insert from rfl, bound]
    exact ⟨_, rfl⟩
  obtain ⟨next, executes⟩ := insert
  refine ⟨b, ?_⟩
  rw [perform, add, executes]
  exact ⟨_, rfl⟩

/-- The row that the repository has written. -/
theorem plainMoves_row :
    ∃ running : Running Unit Exchange, running.repository = plainRepository ∧
      let s := (Shared.initial () : Shared Unit Exchange).run plainMoves
      running ∈ s.running ∧ s.store.entry? running.schema.settings.table
        (running.schema.composeKey "group") =
          some (running.schema.entry ⟨"id", (Payload.text (nestedExchange 1)).toUTF8, none⟩) := by
  obtain ⟨running, w, run⟩ := (start_iff () 0 (r := plainRepository) Store.sound_empty).mpr
    fun _ found => by cases found
  obtain ⟨own, faithful, -⟩ := start_leaves Store.sound_empty run
  have written : running.repository.codec.marshal "group" (nestedExchange 1) =
      .ok (Payload.text (nestedExchange 1)).toUTF8 := by
    have fits : (Payload.text (nestedExchange 1)).toUTF8.size ≤ Payload.defaultLimit := by
      rw [nestedExchange_size]
      decide
    rw [own]
    simp only [plainRepository, Payload.codec, Payload.write, if_pos fits]
    rfl
  obtain ⟨b, next, request⟩ := Running.perform_add_eq faithful written
  refine ⟨running, own, ?_⟩
  have last : (Shared.initial () : Shared Unit Exchange).run plainMoves =
      ((Shared.initial () : Shared Unit Exchange).run
        [.start plainRepository, .call 0 (.add "group" (nestedExchange 1))]).move (.step 0 0) := rfl
  rw [last]
  have coherent := (Shared.coherent_initial (α := Exchange) ()).run
    [.start plainRepository, .call 0 (.add "group" (nestedExchange 1))]
  have begun : ((Shared.initial () : Shared Unit Exchange).run
        [.start plainRepository, .call 0 (.add "group" (nestedExchange 1))]).running = [running] ∧
      ((Shared.initial () : Shared Unit Exchange).run
        [.start plainRepository, .call 0 (.add "group" (nestedExchange 1))]).tasks =
          [⟨running, .add "group" (nestedExchange 1),
            running.perform (.add "group" (nestedExchange 1))⟩] := by
    simp [Shared.run, Shared.move, Shared.initial, run]
  -- How the call came to be under way does not matter any more.
  generalize (Shared.initial () : Shared Unit Exchange).run
    [.start plainRepository, .call 0 (.add "group" (nestedExchange 1))] = s at coherent begun ⊢
  have made : s.execution? (.step 0 0) = some ⟨running, .add "group" (nestedExchange 1), b,
      s.now + 0, (s.store.execute b (s.now + 0)).1⟩ := by
    simp [Shared.execution?, begun.2, request]
  obtain ⟨payload, again, stored⟩ := coherent.stored_by_add made rfl
  obtain rfl := Except.ok.inj (written.symm.trans again)
  have ttl : running.schema.settings.ttlSeconds = none := by
    rw [Running.schema, own]
    rfl
  have id : running.repository.codec.exchangeId (nestedExchange 1) = "id" := by
    rw [own]
    rfl
  simp only [ttl, id, Version.expiry, Option.map_none] at stored
  exact ⟨Shared.started_run (by simp [begun.1]) [.step 0 0],
    stored (by rw [expiredAt_entry]; rfl)⟩

/-- The get returns the exchange, which is confirmed under its id. -/
theorem get_names_confirm_plain :
    (∀ m ∈ plainMoves, m.Exact) ∧ ∃ r : Running Unit Exchange,
      let s := (Shared.initial () : Shared Unit Exchange).run plainMoves
      let get := (r.perform (.get "group")).run (host ()) ⟨s.store, s.now + 0⟩
      r ∈ s.running ∧ get.1 = .ok (.found (some (nestedExchange 1))) ∧
        ∃ c, ((r.perform (.confirm "id")).run (host ()) get.2).1 = .ok (.confirmed c) := by
  refine ⟨plainMoves_exact, ?_⟩
  obtain ⟨r, own, started, stored⟩ := plainMoves_row
  have coherent := (Shared.coherent_initial (α := Exchange) ()).run plainMoves
  have read : ((r.perform (.get "group")).run (host ()) _).1 =
      Schema.readReply r.repository.codec "group"
        (some ⟨"id", (Payload.text (nestedExchange 1)).toUTF8, none⟩) :=
    coherent.get_of_row started rfl stored
  have found : Schema.readReply r.repository.codec "group"
      (some ⟨"id", (Payload.text (nestedExchange 1)).toUTF8, none⟩) =
        .ok (.found (some (nestedExchange 1))) := by
    have fits : (Payload.text (nestedExchange 1)).toUTF8.size ≤ Payload.defaultLimit := by
      rw [nestedExchange_size]
      decide
    have written : Payload.write Payload.defaultLimit (nestedExchange 1) =
        .ok (Payload.text (nestedExchange 1)).toUTF8 := by
      simp only [Payload.write, if_pos fits]
    have read := Payload.read_of_write (nestedExchange_exact 1) written
    rw [nestedExchange_depth, if_pos (by decide)] at read
    rw [own]
    simp only [Schema.readReply, plainRepository, Payload.codec, read]
    rfl
  rw [found] at read
  obtain ⟨-, c, confirmed, -⟩ :=
    (Shared.get_names_confirm () plainMoves plainMoves_exact r started "group" 0).1 _ read
  exact ⟨r, started, read, c, confirmed⟩

end GroupStore

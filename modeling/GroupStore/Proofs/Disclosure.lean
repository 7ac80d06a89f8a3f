import Mathlib.Data.List.Forall2
import GroupStore.Proofs.Memory.Likeness

/-!
# What messages and reports disclose of payloads

A desk has repositories that have been started on memory sessions, any number of them on each.
Errands at the desk start repositories, call and stop them, and write rows that no repository has
written.  Two desks do alike errands if the results that are added and the payloads that are written
differ only in what they contain: not in exchange ids, not in sizes.

If the codec's outcomes are of the same classes at both desks, then every failure is worded alike
and every report is the same, with one exception: the wording of a payload under another label
tells the label, which is read from the payload.

* `Desk.run` — what is said of each errand, and what the codec says in it;
* `Errand.Alike` — errands that differ in the contents of payloads;
* `Desk.Alike.take`, `Desk.Alike.run` — what one errand, and many, leave and disclose;
* `Desk.only_labels_disclosed` — what is said at both desks is the same exactly if the labels of
  foreign payloads are;
* `Desk.label_disclosed` — two labels that are told apart.
-/

namespace GroupStore

open Memory

/-! ### Desks and errands -/

/-- A repository that has been started. -/
structure Opened where
  running : Running Unit Exchange
  /-- The size limit of its payloads. -/
  limit : Nat
  /-- Its session at the desk. -/
  session : Nat

/-- The repository that a start on a session has yielded, if it has. -/
def Opened.ofStart (limit session : Nat) :
    Except RepositoryError (Running Unit Exchange) → List Opened
  | .ok running => [⟨running, limit, session⟩]
  | .error _ => []

/-- Memory sessions under one clock, and the repositories that have been started on them. -/
structure Desk where
  stores : Nat → Store
  now : Nat
  opened : List Opened

/-- What can be done at a desk. -/
inductive Errand where
  /-- Let time pass. -/
  | wait (delay : Nat)
  /-- Start a repository on a session, which is its own or is not. -/
  | start (schema : Schema) (limit : Nat) (session : Nat) (isOwn : Bool)
  /-- Call a repository. -/
  | call (repository : Nat) (call : Call Exchange)
  /-- Write a row under a repository's table and prefix, whatever its payload is. -/
  | write (repository : Nat) (key id : String) (payload : ByteArray)
  /-- Stop a repository. -/
  | stop (repository : Nat)

/-- What is said of an errand, and what the codec says in it. -/
structure Remark where
  /-- The wording of its failure. -/
  message : Option String
  /-- The reports that are recorded. -/
  events : List Audit.Event
  /-- The outcome of the codec, if it is asked. -/
  codec : Option (Except Payload.Fault Unit)

namespace Remark

/-- Nothing is said. -/
def quiet : Remark := ⟨none, [], none⟩

/-- What others get to see. -/
def shown (e : Remark) : Option String × List Audit.Event := (e.message, e.events)

/-- The class of the codec's outcome. -/
def verdict? (e : Remark) : Option Payload.Verdict := e.codec.map Payload.verdictOf

/-- The label of a foreign payload that the codec has met. -/
def label? (e : Remark) : Option String := e.codec.bind Payload.foreignLabel?

/-- If the codec's outcomes are of one class, the same is shown exactly if the labels are the
same. -/
def OnlyLabels (a b : Remark) : Prop :=
  a.verdict? = b.verdict? → (a.shown = b.shown ↔ a.label? = b.label?)

theorem onlyLabels_of_shown {a b : Remark} (shown : a.shown = b.shown)
    (label : a.label? = b.label?) :
    a.OnlyLabels b :=
  fun _ => iff_of_true shown label

end Remark

namespace Desk

/-- A desk where nothing has been done. -/
def fresh (now : Nat) : Desk := ⟨fun _ => .empty, now, []⟩

variable (d : Desk)

/-- A session at the present reading. -/
def moment (session : Nat) : Moment := ⟨d.stores session, d.now⟩

/-- Leave a session in another state. -/
def leave (session : Nat) (w : Moment) : Desk :=
  { d with stores := fun i => if i = session then w.store else d.stores i }

/-- What is said of a program on a session. -/
def remark {β : Type} (session : Nat) (p : Program Unit (Except RepositoryError β))
    (codec : Option (Except Payload.Fault Unit)) : Remark :=
  ⟨wording (p.run (host ()) (d.moment session)).1, p.events (host ()) (d.moment session), codec⟩

/-- What a program on a session leaves. -/
def after {β : Type} (session : Nat) (p : Program Unit β) : Desk :=
  d.leave session (p.run (host ()) (d.moment session)).2

/-- Run one errand.  What is asked of a repository that has not been started changes nothing. -/
def take : Errand → Remark × Desk
  | .wait delay => (.quiet, { d with now := d.now + delay })
  | .start schema limit session isOwn =>
    let r : Repository Unit Exchange :=
      ⟨schema, Payload.codec limit, if isOwn then .owned else .borrowed ()⟩
    let started := Opened.ofStart limit session (r.start.run (host ()) (d.moment session)).1
    (d.remark session r.start none,
      { d.after session r.start with opened := d.opened ++ started })
  | .call repository call =>
    match d.opened[repository]? with
    | none => (.quiet, d)
    | some o =>
      let codec := o.running.consult o.limit (host ()) (d.moment o.session) call
      (d.remark o.session (o.running.perform call) codec,
        d.after o.session (o.running.perform call))
  | .write repository key id payload =>
    match d.opened[repository]? with
    | none => (.quiet, d)
    | some o =>
      (.quiet, d.after o.session (o.running.submit (o.running.statements.of .insert)
        (o.running.schema.composeKey key ++ [.text id, .blob payload])))
  | .stop repository =>
    match d.opened[repository]? with
    | none => (.quiet, d)
    | some o =>
      (d.remark o.session o.running.stop none,
        { d.after o.session o.running.stop with opened := d.opened.eraseIdx repository })

/-- Do one thing after the other. -/
def run : Desk → List Errand → List Remark
  | _, [] => []
  | d, errand :: rest => (d.take errand).1 :: (d.take errand).2.run rest

end Desk

/-! ### Desks that look alike -/

/-- The same errand, or two with exchanges or payloads that look alike. -/
inductive Errand.Alike : Errand → Errand → Prop where
  | same (errand : Errand) : Alike errand errand
  | call (repository : Nat) {call call' : Call Exchange} (calls : Call.Alike call call') :
      Alike (.call repository call) (.call repository call')
  | write (repository : Nat) (key id : String) {p q : ByteArray} (payloads : Payload.Alike p q) :
      Alike (.write repository key id p) (.write repository key id q)

/-- A repository that can be called, and whose session serves it. -/
structure Opened.Ready (o : Opened) (store : Store) : Prop where
  faithful : o.running.Faithful
  codec : o.running.repository.codec = Payload.codec o.limit
  served : store.Serves o.running.schema.layout

/-- Two desks with the same repositories on alike stores. -/
structure Desk.Alike (d e : Desk) : Prop where
  now : d.now = e.now
  opened : d.opened = e.opened
  stores : ∀ session, (d.stores session).Alike d.now (e.stores session)
  ready : ∀ o ∈ d.opened, o.Ready (d.stores o.session)

namespace Desk

theorem alike_fresh (now : Nat) : (fresh now).Alike (fresh now) where
  now := rfl
  opened := rfl
  stores := fun _ => .opened Store.sound_empty Store.sound_empty (fun _ => Iff.rfl)
    fun _ _ => .none
  ready := fun _ member => absurd member List.not_mem_nil

variable {d e : Desk}

/-- The layouts that a session serves. -/
def Served (d : Desk) (session : Nat) (l : Layout) : Prop :=
  ∃ o ∈ d.opened, o.session = session ∧ o.running.schema.layout = l

theorem Alike.moment (alike : d.Alike e) (session : Nat) :
    Moment.Alike d.now (d.Served session) (d.moment session) (e.moment session) where
  clock := rfl
  clock' := alike.now.symm
  stores := alike.stores session
  serves := by
    rintro l ⟨o, member, rfl, rfl⟩
    exact (alike.ready o member).served

/-- Desks stay alike when sessions are left alike. -/
theorem Alike.leave (alike : d.Alike e) {session : Nat} {w v : Moment}
    (left : Moment.Alike d.now (d.Served session) w v) :
    (d.leave session w).Alike (e.leave session v) where
  now := alike.now
  opened := alike.opened
  stores := by
    intro i
    show (if i = session then w.store else d.stores i).Alike d.now
      (if i = session then v.store else e.stores i)
    split
    · exact left.stores
    · exact alike.stores i
  ready := by
    intro o member
    obtain ⟨faithful, codec, served⟩ := alike.ready o member
    refine ⟨faithful, codec, ?_⟩
    show (if o.session = session then w.store else d.stores o.session).Serves _
    split
    · rename_i own
      exact left.serves _ ⟨o, member, own, rfl⟩
    · exact served

/-- Repositories may come and go as long as they are served. -/
theorem Alike.reopen (alike : d.Alike e) {opened opened' : List Opened}
    (openedEq : opened = opened')
    (ready : ∀ o ∈ opened, o.Ready (d.stores o.session)) :
    ({ d with opened := opened } : Desk).Alike { e with opened := opened' } :=
  ⟨alike.now, openedEq, alike.stores, ready⟩

/-- What is said of a call is the wording of its failure and its report. -/
theorem shown_call (d : Desk) (o : Opened) (call : Call Exchange)
    (codec : Option (Except Payload.Fault Unit)) :
    (d.remark o.session (o.running.perform call) codec).shown =
      let said := o.running.saidOf call
        ((o.running.perform call).run (host ()) (d.moment o.session)).1
      (said.1, [said.2]) := by
  rw [remark, Remark.shown, Running.perform_events]
  rfl

/-- Alike errands at alike desks leave alike desks and disclose only labels. -/
theorem Alike.take (alike : d.Alike e) {errand errand' : Errand}
    (errands : Errand.Alike errand errand') :
    (d.take errand).1.OnlyLabels (e.take errand').1 ∧
      (d.take errand).2.Alike (e.take errand').2 := by
  have called (repository : Nat) {call call' : Call Exchange} (calls : Call.Alike call call') :
      (d.take (.call repository call)).1.OnlyLabels (e.take (.call repository call')).1 ∧
        (d.take (.call repository call)).2.Alike (e.take (.call repository call')).2 := by
    simp only [Desk.take, ← alike.opened]
    cases found : d.opened[repository]? with
    | none => exact ⟨Remark.onlyLabels_of_shown rfl rfl, alike⟩
    | some o =>
      have member := List.mem_of_getElem? found
      obtain ⟨faithful, codec, -⟩ := alike.ready o member
      obtain ⟨left, said⟩ := Running.perform_alike () faithful codec ⟨o, member, rfl, rfl⟩
        (alike.moment o.session) calls
      refine ⟨fun verdictEq => ?_, alike.leave left⟩
      rw [shown_call, shown_call]
      exact Iff.trans (by simp [Prod.ext_iff]) (said verdictEq)
  have written (repository : Nat) (key id : String) {p q : ByteArray}
      (payloads : Payload.Alike p q) :
      (d.take (.write repository key id p)).1.OnlyLabels (e.take (.write repository key id q)).1 ∧
        (d.take (.write repository key id p)).2.Alike (e.take (.write repository key id q)).2 := by
    simp only [Desk.take, ← alike.opened]
    cases found : d.opened[repository]? with
    | none => exact ⟨Remark.onlyLabels_of_shown rfl rfl, alike⟩
    | some o =>
      have member := List.mem_of_getElem? found
      exact ⟨Remark.onlyLabels_of_shown rfl rfl, alike.leave (Running.submit_insert_alike ()
        (alike.ready o member).faithful ⟨o, member, rfl, rfl⟩ (alike.moment o.session) key id
        payloads)⟩
  cases errands with
  | call repository calls => exact called repository calls
  | write repository key id payloads => exact written repository key id payloads
  | same errand =>
    cases errand with
    | wait delay =>
      refine ⟨Remark.onlyLabels_of_shown rfl rfl, ?_, alike.opened, fun session => ?_, alike.ready⟩
      · exact congrArg (· + delay) alike.now
      · exact (alike.stores session).later (Nat.le_add_right d.now delay)
    | call repository call => exact called repository (.same call)
    | write repository key id payload => exact written repository key id (.refl payload)
    | start schema limit session isOwn =>
      let r : Repository Unit Exchange :=
        ⟨schema, Payload.codec limit, if isOwn then .owned else .borrowed ()⟩
      obtain ⟨result, events, left, started⟩ := r.start_alike () (alike.moment session)
      have after := alike.leave left
      refine ⟨Remark.onlyLabels_of_shown ?_ rfl, after.reopen ?_ ?_⟩
      · exact Prod.ext (congrArg wording result) events
      · rw [alike.opened, ← result]
      · intro o member
        rcases List.mem_append.mp member with old | new
        · exact after.ready o old
        · cases outcome : (r.start.run (host ()) (d.moment session)).1 with
          | error e =>
            rw [outcome] at new
            exact absurd new List.not_mem_nil
          | ok running =>
            rw [outcome] at new
            obtain rfl := List.mem_singleton.mp new
            obtain ⟨own, faithful, serves⟩ := started running outcome
            refine ⟨faithful, by rw [own], ?_⟩
            rw [Running.schema, own]
            show (if session = session then _ else _ : Store).Serves _
            rw [if_pos rfl]
            exact serves
    | stop repository =>
      simp only [Desk.take, ← alike.opened]
      cases found : d.opened[repository]? with
      | none => exact ⟨Remark.onlyLabels_of_shown rfl rfl, alike⟩
      | some o =>
        obtain ⟨result, events, left⟩ := o.running.stop_alike () (alike.moment o.session)
        have after := alike.leave left
        refine ⟨Remark.onlyLabels_of_shown (Prod.ext (congrArg wording result) events) rfl,
          after.reopen rfl fun o' member => ?_⟩
        exact after.ready o' (List.mem_of_mem_eraseIdx member)

/-- Alike errands at alike desks, one after the other, disclose only labels. -/
theorem Alike.run (alike : d.Alike e) {errands errands' : List Errand}
    (pairs : List.Forall₂ Errand.Alike errands errands')
    (verdictsEq : (d.run errands).map Remark.verdict? = (e.run errands').map Remark.verdict?) :
    (d.run errands).map Remark.shown = (e.run errands').map Remark.shown ↔
      (d.run errands).map Remark.label? = (e.run errands').map Remark.label? := by
  induction pairs generalizing d e with
  | nil => exact iff_of_true rfl rfl
  | cons first rest ih =>
    obtain ⟨labels, after⟩ := alike.take first
    simp only [Desk.run, List.map_cons, List.cons.injEq] at verdictsEq ⊢
    rw [labels verdictsEq.1, ih after verdictsEq.2]

/-- At two desks where alike errands are run from the start, and where the codec's outcomes are of
the same classes, all failures are worded alike and all reports are the same exactly if the labels
of the foreign payloads that the codec meets are the same. -/
theorem only_labels_disclosed (now : Nat) {errands errands' : List Errand}
    (pairs : List.Forall₂ Errand.Alike errands errands')
    (verdictsEq : ((fresh now).run errands).map Remark.verdict? =
      ((fresh now).run errands').map Remark.verdict?) :
    ((fresh now).run errands).map Remark.shown = ((fresh now).run errands').map Remark.shown ↔
      ((fresh now).run errands).map Remark.label? = ((fresh now).run errands').map Remark.label? :=
  (alike_fresh now).run pairs verdictsEq

/-! ### Two desks -/

theorem resultsTable_check : Settings.check { table := Repository.resultsTable } = .ok () := rfl

/-- A repository with the settings that nobody changed. -/
def resultsSchema : Schema := ⟨{ table := Repository.resultsTable }, resultsTable_check⟩

/-- A payload under some label, with an exchange of some body. -/
def labelled (label body : String) : ByteArray :=
  ("\x7b\"format\":\"" ++ label ++ "\",\"value\":\x7b\"exchange_id\":\"e\",\"body\":\"" ++ body
    ++ "\"\x7d\x7d").toUTF8

/-- Payloads of one size are alike if the exchanges that are read of them, under the own label, have
one id. -/
theorem alike_of_ids {p q : ByteArray} (size : p.size = q.size)
    (ids : ((Payload.read? p).filter (·.1 = Payload.label)).map (·.2.id) =
      ((Payload.read? q).filter (·.1 = Payload.label)).map (·.2.id)) : Payload.Alike p q where
  size := size
  id := fun limit x y one other => by
    rw [Payload.read?_of_read one, Payload.read?_of_read other] at ids
    exact Option.some.inj ids

/-- Have a row written, and look at it. -/
def glance (payload : ByteArray) : List Errand :=
  [.start resultsSchema Payload.defaultLimit 0 true, .write 0 "key" "e" payload,
    .call 0 (.get "key"), .call 0 (.confirm "e"), .stop 0]

theorem alike_glance {p q : ByteArray} (payloads : Payload.Alike p q) :
    List.Forall₂ Errand.Alike (glance p) (glance q) :=
  .cons (.same _) (.cons (.write 0 "key" "e" payloads)
    (List.forall₂_same.mpr fun errand _ => .same errand))

/-- Two bodies of one size are not told apart. -/
theorem only_labels_disclosed_bodies :
    List.Forall₂ Errand.Alike (glance (labelled Payload.label "yes"))
        (glance (labelled Payload.label "no!")) ∧
      ((fresh 0).run (glance (labelled Payload.label "yes"))).map Remark.verdict? =
        ((fresh 0).run (glance (labelled Payload.label "no!"))).map Remark.verdict? ∧
      ((fresh 0).run (glance (labelled Payload.label "yes"))).map Remark.shown =
        ((fresh 0).run (glance (labelled Payload.label "no!"))).map Remark.shown := by
  have pairs := alike_glance (p := labelled Payload.label "yes") (q := labelled Payload.label "no!")
    (alike_of_ids (by decide +kernel) (by decide +kernel))
  have verdictsEq : ((fresh 0).run (glance (labelled Payload.label "yes"))).map Remark.verdict? =
      ((fresh 0).run (glance (labelled Payload.label "no!"))).map Remark.verdict? := by
    decide +kernel
  exact ⟨pairs, verdictsEq, (only_labels_disclosed 0 pairs verdictsEq).mpr (by decide +kernel)⟩

/-- Two labels of one size are told apart: the label in a payload reaches the failure of a get and
its report. -/
theorem label_disclosed :
    List.Forall₂ Errand.Alike (glance (labelled "other/1" "yes"))
        (glance (labelled "other/2" "yes")) ∧
      ((fresh 0).run (glance (labelled "other/1" "yes"))).map Remark.verdict? =
        ((fresh 0).run (glance (labelled "other/2" "yes"))).map Remark.verdict? ∧
      ((fresh 0).run (glance (labelled "other/1" "yes"))).map Remark.message =
        [none, none, some "decode error: key: unsupported payload format other/1", none, none] ∧
      ((fresh 0).run (glance (labelled "other/2" "yes"))).map Remark.message =
        [none, none, some "decode error: key: unsupported payload format other/2", none, none] ∧
      ((fresh 0).run (glance (labelled "other/1" "yes"))).map Remark.shown ≠
        ((fresh 0).run (glance (labelled "other/2" "yes"))).map Remark.shown := by
  have one : ((fresh 0).run (glance (labelled "other/1" "yes"))).map Remark.message =
      [none, none, some "decode error: key: unsupported payload format other/1", none, none] := by
    decide +kernel
  have other : ((fresh 0).run (glance (labelled "other/2" "yes"))).map Remark.message =
      [none, none, some "decode error: key: unsupported payload format other/2", none, none] := by
    decide +kernel
  refine ⟨alike_glance (alike_of_ids (by decide +kernel) (by decide +kernel)),
    by decide +kernel, one,
    other, fun shownEq => ?_⟩
  have shown := congrArg (List.map Prod.fst) shownEq
  simp only [List.map_map] at shown
  have messages : ((fresh 0).run (glance (labelled "other/1" "yes"))).map Remark.message =
      ((fresh 0).run (glance (labelled "other/2" "yes"))).map Remark.message := shown
  rw [one, other] at messages
  exact absurd messages (by decide)

end Desk

end GroupStore

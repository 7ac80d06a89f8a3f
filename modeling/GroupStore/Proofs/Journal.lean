import GroupStore.Proofs.Course
import GroupStore.Proofs.StoredRows
import Mathlib.Algebra.BigOperators.Fin

/-!
# A journal of what clients of one session execute

Clients share a memory session; a journal notes every execution with its answer and with the call
that made it.  The clock may be set to any reading before a move, also back.  The executions of one
call, picked from the journal, are the course of that call.

* `Journal`, `Journal.advance` — the shared session with its journal;
* `Journal.OnCourse` — every call under way is on its course;
* `Journal.sum_past` — counting in the journal is counting in all calls together.
-/

namespace GroupStore

open Memory

variable {S α : Type}

/-- An answered execution, with the number of the call that made it. -/
structure Logged (S : Type) extends Answered S where
  task : Nat

/-- The executions of a call among those noted, first to last. -/
def Logged.past (log : List (Logged S)) (task : Nat) : List (Answered S) :=
  ((log.filter fun e => e.task = task).map Logged.toAnswered).reverse

/-- An execution without the clock reading. -/
def Execution.answered (e : Execution S α) : Answered S := ⟨e.running.session, e.bound, e.answer⟩

/-- What a move adds to the journal. -/
def Shared.logged (s : Shared S α) : Move S α → List (Logged S)
  | .start _ | .call _ _ => []
  | .step task delay =>
    match s.tasks[task]? with
    | none => []
    | some t => (t.rest.answered (host s.session) ⟨s.store, s.now + delay⟩).map fun e => ⟨e, task⟩

/-- A shared session, and what has been executed on it, latest first. -/
structure Journal (S α : Type) where
  shared : Shared S α
  log : List (Logged S)

namespace Journal

/-- A fresh session on which nothing has been executed. -/
def initial (session : S) : Journal S α := ⟨Shared.initial session, []⟩

/-- Set the clock and make a move. -/
def advance (j : Journal S α) (happening : Nat × Move S α) : Journal S α :=
  let s := { j.shared with now := happening.1 }
  ⟨s.move happening.2, s.logged happening.2 ++ j.log⟩

/-- Make some moves, each at a clock reading. -/
def run (j : Journal S α) (happenings : List (Nat × Move S α)) : Journal S α :=
  happenings.foldl advance j

/-- The executions of a call, first to last. -/
def past (j : Journal S α) (task : Nat) : List (Answered S) := Logged.past j.log task

end Journal

/-! ### What a move notes -/

namespace Shared

variable {s : Shared S α}

/-- The clock may be set to any reading. -/
theorem Coherent.at (coherent : s.Coherent) (now : Nat) : ({ s with now := now }).Coherent :=
  ⟨coherent.sound, coherent.running, coherent.tasks⟩

/-- A move notes its execution, if it makes one, under the call that made it. -/
theorem Coherent.logged_cases (coherent : s.Coherent) (m : Move S α) :
    (s.logged m = [] ∧ s.execution? m = none) ∨
      ∃ task e, s.logged m = [⟨e.answered, task⟩] ∧ s.execution? m = some e := by
  cases m with
  | start repository => exact .inl ⟨rfl, rfl⟩
  | call repository call => exact .inl ⟨rfl, rfl⟩
  | step task delay =>
    simp only [logged, execution?]
    cases found : s.tasks[task]? with
    | none => exact .inl ⟨rfl, rfl⟩
    | some t =>
      have asks := (coherent.tasks t (List.mem_of_getElem? found)).2
      simp only [Option.bind_some]
      cases request : t.rest with
      | done result => exact .inl ⟨rfl, rfl⟩
      | connect next => exact .inl ⟨rfl, rfl⟩
      | prepare session template next => exact .inl ⟨rfl, rfl⟩
      | close session next => exact .inl ⟨rfl, rfl⟩
      | record event next => exact .inl ⟨rfl, rfl⟩
      | execute session b next =>
        rw [request] at asks
        obtain rfl : session = t.running.session := asks.1.1
        exact .inr ⟨task, ⟨t.running, t.call, b, s.now + delay, _⟩, rfl, rfl⟩

end Shared

namespace Journal

/-! ### Every call is on its course -/

/-- Calls of faithful repositories, each on its course by what the journal says of it. -/
structure OnCourse (j : Journal S α) : Prop where
  coherent : j.shared.Coherent
  tasks : ∀ i (t : Task S α), j.shared.tasks[i]? = some t →
    t.running.Faithful ∧ (t.running.perform t.call).Leads (j.past i) t.rest
  known : ∀ e ∈ j.log, e.task < j.shared.tasks.length

theorem onCourse_initial (session : S) : (initial session : Journal S α).OnCourse where
  coherent := Shared.coherent_initial session
  tasks := fun i t found => by cases found
  known := fun e member => absurd member List.not_mem_nil

/-- A call that the journal does not know has executed nothing. -/
theorem past_eq_nil {log : List (Logged S)} {i : Nat} (unknown : ∀ e ∈ log, e.task < i) :
    Logged.past log i = [] := by
  have nothing : log.filter (fun e => e.task = i) = [] := by
    rw [List.filter_eq_nil_iff]
    intro e member
    have below := unknown e member
    simp only [decide_eq_true_eq]
    omega
  rw [Logged.past, nothing]
  rfl

/-- What a step of a call adds to the executions of the calls. -/
theorem past_step (log : List (Logged S)) (i k : Nat) {new : List (Answered S)}
    (few : new.length ≤ 1) :
    Logged.past (new.map (fun e => ⟨e, i⟩) ++ log) k =
      Logged.past log k ++ if i = k then new else [] := by
  have own : ((new.map fun e => (⟨e, i⟩ : Logged S)).filter fun e => e.task = k).map
      Logged.toAnswered = if i = k then new else [] := by
    by_cases taskEq : i = k
    · simp [taskEq, List.filter_map, Function.comp_def]
    · simp [taskEq, List.filter_map, Function.comp_def]
  have reversed : (if i = k then new else []).reverse = if i = k then new else [] := by
    cases new with
    | nil => simp
    | cons e rest =>
      have single : rest = [] := List.eq_nil_of_length_eq_zero (by simpa using few)
      by_cases taskEq : i = k
      · simp [taskEq, single]
      · simp [taskEq]
  rw [Logged.past, List.filter_append, List.map_append, List.reverse_append, own, reversed]
  rfl

/-- A call that begins is on its course. -/
theorem OnCourse.concat {j : Journal S α} (onCourse : j.OnCourse) {running : Running S α}
    (faithful : running.Faithful) (call : Call α) (i : Nat) (t : Task S α)
    (found : (j.shared.tasks ++ [⟨running, call, running.perform call⟩])[i]? = some t) :
    t.running.Faithful ∧ (t.running.perform t.call).Leads (j.past i) t.rest := by
  rw [List.getElem?_append] at found
  split at found
  · exact onCourse.tasks i t found
  · rename_i beyond
    obtain rfl := List.mem_singleton.mp (List.mem_of_getElem? found)
    refine ⟨faithful, ?_⟩
    have fresh : Logged.past j.log i = [] := past_eq_nil fun e member => by
      have below := onCourse.known e member
      omega
    show (running.perform call).Leads (Logged.past j.log i) (running.perform call)
    rw [fresh]
    exact .here _

/-- A call that makes its next request stays on its course, and so do the others. -/
theorem OnCourse.set {j : Journal S α} (onCourse : j.OnCourse) {task : Nat} {t : Task S α}
    (begun : j.shared.tasks[task]? = some t) (w : Moment) (i : Nat) (t' : Task S α)
    (found : (j.shared.tasks.set task
      { t with rest := (t.rest.next (host j.shared.session) w).1 })[i]? = some t') :
    t'.running.Faithful ∧ (t'.running.perform t'.call).Leads
      (Logged.past ((t.rest.answered (host j.shared.session) w).map (fun e => ⟨e, task⟩) ++ j.log)
        i) t'.rest := by
  obtain ⟨faithful, leads⟩ := onCourse.tasks task t begun
  have asks := (onCourse.coherent.tasks t (List.mem_of_getElem? begun)).2
  have known : task < j.shared.tasks.length := (List.getElem?_eq_some_iff.mp begun).1
  have few : (t.rest.answered (host j.shared.session) w).length ≤ 1 := by
    cases t.rest <;> simp [Program.answered]
  rw [past_step j.log task i few]
  rw [List.getElem?_set] at found
  by_cases own : task = i
  · subst own
    rw [if_pos rfl, if_pos known] at found
    cases found
    rw [if_pos rfl]
    exact ⟨faithful, leads.next asks _ _⟩
  · rw [if_neg own] at found
    rw [if_neg own, List.append_nil]
    exact onCourse.tasks i t' found

theorem OnCourse.advance {j : Journal S α} (onCourse : j.OnCourse) (happening : Nat × Move S α) :
    (j.advance happening).OnCourse := by
  obtain ⟨now, m⟩ := happening
  have coherent : ({ j.shared with now := now }).Coherent := onCourse.coherent.at now
  -- Only the list of calls and the journal matter from here on.
  suffices both : (∀ i (t : Task S α), (j.advance (now, m)).shared.tasks[i]? = some t →
      t.running.Faithful ∧ (t.running.perform t.call).Leads ((j.advance (now, m)).past i) t.rest) ∧
      ∀ e ∈ (j.advance (now, m)).log, e.task < (j.advance (now, m)).shared.tasks.length from
    ⟨coherent.move m, both.1, both.2⟩
  cases m with
  | start repository =>
    have calls : (j.advance (now, .start repository)).shared.tasks = j.shared.tasks := by
      simp only [Journal.advance, Shared.move]
      split <;> rfl
    rw [calls]
    exact ⟨onCourse.tasks, onCourse.known⟩
  | call repository call =>
    simp only [Journal.advance, Shared.move, Shared.logged]
    cases started : j.shared.running[repository]? with
    | none => exact ⟨onCourse.tasks, onCourse.known⟩
    | some running =>
      have faithful := (onCourse.coherent.running running (List.mem_of_getElem? started)).1
      refine ⟨onCourse.concat faithful call, fun e member => ?_⟩
      have below := onCourse.known e member
      simp only [List.length_append, List.length_singleton]
      omega
  | step task delay =>
    simp only [Journal.advance, Shared.move, Shared.logged]
    cases begun : j.shared.tasks[task]? with
    | none => exact ⟨onCourse.tasks, onCourse.known⟩
    | some t =>
      refine ⟨onCourse.set begun ⟨j.shared.store, now + delay⟩, fun e member => ?_⟩
      rw [List.length_set]
      rcases List.mem_append.mp member with new | old
      · obtain ⟨a, -, rfl⟩ := List.mem_map.mp new
        exact (List.getElem?_eq_some_iff.mp begun).1
      · exact onCourse.known e old

theorem OnCourse.run {j : Journal S α} (onCourse : j.OnCourse)
    (happenings : List (Nat × Move S α)) : (j.run happenings).OnCourse := by
  induction happenings generalizing j with
  | nil => exact onCourse
  | cons happening rest ih => exact ih (onCourse.advance happening)

/-- Counting in the journal is counting in the executions of all calls together. -/
theorem sum_past {j : Journal S α} {n : Nat} (known : ∀ e ∈ j.log, e.task < n)
    (p : Answered S → Bool) :
    ∑ i : Fin n, (j.past i).countP p = j.log.countP fun e => p e.toAnswered := by
  obtain ⟨shared, log⟩ := j
  simp only [past, Logged.past, List.countP_reverse, List.countP_map, List.countP_filter]
  induction log with
  | nil => simp
  | cons e rest ih =>
    have later := ih fun e' member => known e' (List.mem_cons_of_mem _ member)
    have below : e.task < n := known e List.mem_cons_self
    simp only [List.countP_cons, Finset.sum_add_distrib, later]
    congr 1
    have own (i : Fin n) : e.task = i ↔ ⟨e.task, below⟩ = i := by rw [Fin.ext_iff]
    by_cases counts : p e.toAnswered = true
    · simp [counts, own]
    · simp [counts]

end Journal

end GroupStore

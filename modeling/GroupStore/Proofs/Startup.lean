import GroupStore.Proofs.Start
import GroupStore.Proofs.Trace

/-!
# What a start and a stop request

A start connects unless its session is borrowed, has the five statements prepared up to the first
that is refused, and then closes the session if it is its own.  A stop closes the session if it is
the repository's own.  Connecting, preparing and closing may fail on every occasion.

* `Repository.start_cases` — the three ways in which a start can go, request by request;
* `Repository.start_unreachable_iff` — when it finds no session;
* `Repository.startsOrderly` — when a start fails, how, and what it prepares;
* `Running.stop_cases`, `Running.stop_fails_iff` — the same of a stop.
-/

namespace GroupStore

variable {σ S α β : Type} {h : Host σ S}

/-! ### Requests of a start and of a stop -/

/-- A connection or a preparation that failed. -/
def Request.Fails : Request S → Prop
  | .connect (.error _) | .prepare _ _ (.error _) => True
  | _ => False

/-- What was to be prepared. -/
def Request.prepared? : Request S → Option Template
  | .prepare _ template _ => some template
  | _ => none

/-- A session that a source may yield. -/
def Source.Yields : Source S → S → Prop
  | .borrowed own, session => session = own
  | .owned, _ => True

/-- The request that has obtained a session, if one was needed. -/
def Source.obtaining : Source S → S → List (Request S)
  | .borrowed _, _ => []
  | .owned, session => [.connect (.ok session)]

/-- The request that closes a session, if one was made. -/
def closings (session : S) (closing : Option (Except SessionError Unit)) : List (Request S) :=
  closing.toList.map (.close session)

theorem prepared_of_closings {session : S} {closing : Option (Except SessionError Unit)}
    {q : Request S} (member : q ∈ closings session closing) : q.prepared? = none := by
  obtain ⟨answer, -, rfl⟩ := List.mem_map.mp member
  rfl

theorem Source.obtaining_spares {source : Source S} {session : S} {q : Request S}
    (member : q ∈ source.obtaining session) : ¬ q.Fails ∧ q.prepared? = none := by
  cases source with
  | borrowed own => exact absurd member List.not_mem_nil
  | owned =>
    obtain rfl := List.mem_singleton.mp member
    exact ⟨id, rfl⟩

/-- The failure of a close, if one was made and failed. -/
def closingFailure : Option (Except SessionError Unit) → Option SessionError
  | some (.error e) => some e
  | some (.ok ()) | none => none

namespace Repository

variable (r : Repository S α)

/-- The requests that had statements prepared. -/
def preparing (session : S) (accepted : List (StatementKind × Prepared)) : List (Request S) :=
  accepted.map fun statement => .prepare session (r.schema.template statement.1) (.ok statement.2)

/-- A program has the statements of some kinds prepared, one after the other, up to the first that
is refused. -/
def Prepares (h : Host σ S) (session : S) (kinds : List StatementKind)
    (p : Program S (Except (StatementKind × SessionError) β)) : Prop :=
  ∀ w,
    (∃ accepted b w', accepted.map Prod.fst = kinds ∧ p.trace h w = r.preparing session accepted ∧
      p.run h w = (.ok b, w')) ∨
    ∃ accepted kind cause w', accepted.map Prod.fst ++ [kind] <+: kinds ∧
      p.trace h w = r.preparing session accepted ++
        [.prepare session (r.schema.template kind) (.error cause)] ∧
      p.run h w = (.error (kind, cause), w')

variable {r}

theorem Prepares.done (session : S) (b : β) : r.Prepares h session [] (.done (.ok b)) :=
  fun w => .inl ⟨[], b, w, rfl, rfl, rfl⟩

theorem Prepares.cons {session : S} {kind : StatementKind} {kinds : List StatementKind}
    {f : Prepared → Program S (Except (StatementKind × SessionError) β)}
    (rest : ∀ statement, r.Prepares h session kinds (f statement)) :
    r.Prepares h session (kind :: kinds) ((r.prepareOne session kind).andThen f) := by
  intro w
  rcases answered : h.prepare session (r.schema.template kind) w with ⟨answer, w₁⟩
  have request : (r.prepareOne session kind).trace h w =
      [.prepare session (r.schema.template kind) answer] := by
    simp only [prepareOne, Program.trace, answered]
    cases answer <;> rfl
  cases answer with
  | error cause =>
    have run : (r.prepareOne session kind).run h w = (.error (kind, cause), w₁) := by
      simp only [prepareOne, Program.run, answered]
    refine .inr ⟨[], kind, cause, w₁, ?_, ?_, Program.run_andThen_error run⟩
    · exact List.prefix_append [kind] kinds
    · exact (Program.trace_andThen_error run).trans request
  | ok statement =>
    have run : (r.prepareOne session kind).run h w = (.ok statement, w₁) :=
      prepareOne_eq_ok_iff.mpr answered
    rw [Program.trace_andThen_ok run, Program.run_andThen_ok run, request]
    rcases rest statement w₁ with
      ⟨accepted, b, w', all, trace, ok⟩ | ⟨accepted, other, cause, w', tried, trace, failed⟩
    · refine .inl ⟨(kind, statement) :: accepted, b, w', ?_, ?_, ok⟩
      · rw [List.map_cons, all]
      · rw [trace]
        rfl
    · refine .inr ⟨(kind, statement) :: accepted, other, cause, w', ?_, ?_, failed⟩
      · exact List.cons_prefix_cons.mpr ⟨rfl, tried⟩
      · rw [trace]
        rfl

theorem prepareAll_prepares (session : S) :
    r.Prepares h session StatementKind.all (r.prepareAll session) :=
  .cons fun _ => .cons fun _ => .cons fun _ => .cons fun _ => .cons fun _ => .done session _

/-- Announcing statements requests nothing. -/
theorem announce_trace (statements : List Prepared) (result : β) (w : σ) :
    (r.announce statements (.done result)).trace h w = [] := by
  induction statements generalizing w with
  | nil => rfl
  | cons p rest ih => exact ih _

/-- Giving up a session closes it if it is the repository's own. -/
theorem giveUp_cases (session : S) (kind : StatementKind) (cause : SessionError) (w : σ) :
    ∃ closing w', closing.isSome = r.source.isOwned ∧
      (r.giveUp (β := β) session kind cause).trace h w = closings session closing ∧
      (r.giveUp (β := β) session kind cause).run h w =
        (.error (.startup (.refused kind cause (closingFailure closing))), w') := by
  unfold giveUp
  cases r.source.isOwned with
  | false => exact ⟨none, w, rfl, rfl, rfl⟩
  | true =>
    rcases answered : h.close session w with ⟨answer, w'⟩
    refine ⟨some answer, w', rfl, ?_⟩
    simp only [if_true, Program.trace, Program.run, answered]
    cases answer <;> exact ⟨rfl, rfl⟩

/-- What obtaining a session requests, and its result. -/
theorem obtain_cases (w : σ) :
    (∃ cause w', r.source = .owned ∧ r.obtain.trace h w = [.connect (.error cause)] ∧
      r.obtain.run h w = (.error (.startup (.unreachable cause)), w')) ∨
    ∃ session w', r.source.Yields session ∧ r.obtain.trace h w = r.source.obtaining session ∧
      r.obtain.run h w = (.ok session, w') := by
  unfold obtain
  cases r.source with
  | borrowed session => exact .inr ⟨session, w, rfl, rfl, rfl⟩
  | owned =>
    rcases answered : h.connect w with ⟨answer, w'⟩
    cases answer with
    | error cause =>
      refine .inl ⟨cause, w', rfl, ?_, ?_⟩
      · simp only [Program.trace, answered]
      · simp only [Program.run, answered]
    | ok session =>
      refine .inr ⟨session, w', trivial, ?_, ?_⟩
      · simp only [Program.trace, answered]
        rfl
      · simp only [Program.run, answered]

/-- A start cannot connect, or a statement is refused and the session is given up, or all five are
accepted. -/
theorem start_cases (r : Repository S α) (h : Host σ S) (w : σ) :
    (∃ cause, r.source = .owned ∧ r.start.trace h w = [.connect (.error cause)] ∧
      (r.start.run h w).1 = .error (.startup (.unreachable cause))) ∨
    (∃ session accepted kind cause closing, r.source.Yields session ∧
      accepted.map Prod.fst ++ [kind] <+: StatementKind.all ∧
      closing.isSome = r.source.isOwned ∧
      r.start.trace h w = r.source.obtaining session ++ (r.preparing session accepted ++
        .prepare session (r.schema.template kind) (.error cause) :: closings session closing) ∧
      (r.start.run h w).1 = .error (.startup (.refused kind cause (closingFailure closing)))) ∨
    ∃ session accepted statements, r.source.Yields session ∧
      accepted.map Prod.fst = StatementKind.all ∧
      r.start.trace h w = r.source.obtaining session ++ r.preparing session accepted ∧
      (r.start.run h w).1 = .ok ⟨r, session, statements⟩ := by
  simp only [start, Program.trace_reported, Program.run_reported]
  rcases obtain_cases (r := r) (h := h) w with
    ⟨cause, w', own, request, run⟩ | ⟨session, w₁, yields, request, run⟩
  · refine .inl ⟨cause, own, (Program.trace_andThen_error run).trans request, ?_⟩
    rw [Program.run_andThen_error run]
  · rw [Program.trace_andThen_ok run, Program.run_andThen_ok run, request, startOn,
      Program.trace_bind, Program.run_bind]
    right
    rcases prepareAll_prepares (r := r) (h := h) session w₁ with
      ⟨accepted, statements, w₂, all, trace, ok⟩ |
      ⟨accepted, kind, cause, w₂, tried, trace, refused⟩
    · rw [trace, ok]
      refine .inr ⟨session, accepted, statements, yields, all, ?_, ?_⟩
      · show _ ++ (_ ++ (r.announce statements.toList _).trace h w₂) = _
        rw [announce_trace, List.append_nil]
      · obtain ⟨w', announced, -⟩ := announce_run (I := fun _ => True) (h := h) (r := r)
          (fun _ _ _ => trivial) statements.toList
          (Except.ok (ε := RepositoryError) (⟨r, session, statements⟩ : Running S α)) (w := w₂)
          trivial
        exact congrArg Prod.fst announced
    · rw [trace, refused]
      obtain ⟨closing, w', owned, closes, failed⟩ :=
        giveUp_cases (β := Running S α) (r := r) (h := h) session kind cause w₂
      refine .inl ⟨session, accepted, kind, cause, closing, yields, tried, owned, ?_, ?_⟩
      · show _ ++ (_ ++ (r.giveUp session kind cause).trace h w₂) = _
        rw [closes, List.append_assoc]
        rfl
      · exact congrArg Prod.fst failed

/-- A start finds no session exactly if it is to open one and cannot. -/
theorem start_unreachable_iff (r : Repository S α) (h : Host σ S) (w : σ) (cause : SessionError) :
    (r.start.run h w).1 = .error (.startup (.unreachable cause)) ↔
      r.source = .owned ∧ (h.connect w).1 = .error cause := by
  have first (own : r.source = .owned) :
      ∃ rest, r.start.trace h w = .connect (h.connect w).1 :: rest := by
    rw [start, Program.trace_reported, obtain, own]
    exact ⟨_, rfl⟩
  rcases start_cases r h w with
    ⟨failure, own, trace, result⟩ |
    ⟨session, accepted, kind, failure, closing, -, -, -, trace, result⟩ |
    ⟨session, accepted, statements, -, -, trace, result⟩
  · obtain ⟨rest, begins⟩ := first own
    rw [trace] at begins
    obtain ⟨answer, -⟩ := List.cons.inj begins
    rw [result, ← Request.connect.inj answer]
    simp [own]
  · refine iff_of_false (fun resultIs => by cases result.symm.trans resultIs) ?_
    rintro ⟨own, failed⟩
    obtain ⟨rest, begins⟩ := first own
    rw [trace, own, failed] at begins
    cases begins
  · refine iff_of_false (fun resultIs => by cases result.symm.trans resultIs) ?_
    rintro ⟨own, failed⟩
    obtain ⟨rest, begins⟩ := first own
    rw [trace, own, failed] at begins
    cases begins

theorem preparing_accepted {session : S} {accepted : List (StatementKind × Prepared)}
    {q : Request S} (member : q ∈ r.preparing session accepted) : ¬ q.Fails := by
  obtain ⟨statement, -, rfl⟩ := List.mem_map.mp member
  exact id

theorem prepared_preparing (session : S) (accepted : List (StatementKind × Prepared)) :
    (r.preparing session accepted).filterMap Request.prepared? =
      (accepted.map Prod.fst).map r.schema.template := by
  simp only [preparing, List.filterMap_map, List.map_map, Function.comp_def, Request.prepared?,
    List.filterMap_eq_map']

/-- When a start fails, how, and what it prepares. -/
structure StartsOrderly (r : Repository S α) (h : Host σ S) (w : σ) : Prop where
  /-- A start fails exactly if it cannot connect or a statement is refused. -/
  fails : (∃ e, (r.start.run h w).1 = .error e) ↔ ∃ q ∈ r.start.trace h w, q.Fails
  /-- It fails as a start. -/
  startup : ∀ e, (r.start.run h w).1 = .error e → ∃ cause, e = .startup cause
  /-- The statements are prepared in order, and all five of them if the start succeeds. -/
  prepares : ∃ kinds, kinds <+: StatementKind.all ∧
    (r.start.trace h w).filterMap Request.prepared? = kinds.map r.schema.template ∧
    ((∃ running, (r.start.run h w).1 = .ok running) → kinds = StatementKind.all)
  /-- Nothing is prepared once a request has failed. -/
  halts : (r.start.trace h w).Pairwise fun q q' => q.Fails → q'.prepared? = none

/-- Requests that do not fail, one that may, and no preparation after it. -/
theorem halts_of {before after : List (Request S)} {q : Request S}
    (accepted : ∀ q ∈ before, ¬ q.Fails) (last : ∀ q ∈ after, q.prepared? = none) :
    (before ++ q :: after).Pairwise fun q q' => q.Fails → q'.prepared? = none := by
  rw [List.pairwise_append, List.pairwise_cons]
  refine ⟨?_, ⟨fun q' member _ => last q' member, ?_⟩, ?_⟩
  · exact List.pairwise_of_forall_mem_list fun q' member _ _ fails =>
      absurd fails (accepted q' member)
  · exact List.pairwise_of_forall_mem_list fun _ _ q' member _ => last q' member
  · exact fun q' member _ _ fails => absurd fails (accepted q' member)

theorem startsOrderly (r : Repository S α) (h : Host σ S) (w : σ) : r.StartsOrderly h w := by
  have obtaining (session : S) :
      (r.source.obtaining session).filterMap Request.prepared? = [] :=
    List.filterMap_eq_nil_iff.mpr fun q member => (Source.obtaining_spares member).2
  have accepts (session : S) (accepted : List (StatementKind × Prepared)) (q : Request S)
      (member : q ∈ r.source.obtaining session ++ r.preparing session accepted) : ¬ q.Fails := by
    rcases List.mem_append.mp member with obtained | prepared
    · exact (Source.obtaining_spares obtained).1
    · exact preparing_accepted prepared
  rcases start_cases r h w with
    ⟨cause, own, trace, result⟩ |
    ⟨session, accepted, kind, cause, closing, yields, tried, owned, trace, result⟩ |
    ⟨session, accepted, statements, yields, all, trace, result⟩
  · refine ⟨⟨fun _ => ⟨.connect (.error cause), ?_, trivial⟩, fun _ => ⟨_, result⟩⟩, ?_,
      ⟨[], List.nil_prefix, ?_, ?_⟩, ?_⟩
    · rw [trace]
      exact List.mem_singleton_self _
    · intro e resultIs
      exact ⟨_, (Except.error.inj (result.symm.trans resultIs)).symm⟩
    · rw [trace]
      rfl
    · rintro ⟨running, resultIs⟩
      cases result.symm.trans resultIs
    · rw [trace]
      exact List.pairwise_singleton _ _
  · have closes : (closings session closing).filterMap Request.prepared? = [] :=
      List.filterMap_eq_nil_iff.mpr fun q member => prepared_of_closings member
    refine ⟨⟨fun _ => ⟨.prepare session (r.schema.template kind) (.error cause), ?_, trivial⟩,
      fun _ => ⟨_, result⟩⟩, ?_, ⟨accepted.map Prod.fst ++ [kind], tried, ?_, ?_⟩, ?_⟩
    · rw [trace]
      exact List.mem_append_right _ (List.mem_append_right _ List.mem_cons_self)
    · intro e resultIs
      exact ⟨_, (Except.error.inj (result.symm.trans resultIs)).symm⟩
    · rw [trace, List.filterMap_append, obtaining, List.filterMap_append, prepared_preparing,
        List.map_append]
      show _ ++ (_ ++ _ :: (closings session closing).filterMap Request.prepared?) = _
      rw [closes]
      rfl
    · rintro ⟨running, resultIs⟩
      cases result.symm.trans resultIs
    · rw [trace, ← List.append_assoc]
      exact halts_of (accepts session accepted) fun q member => prepared_of_closings member
  · have accepted' (q : Request S) (member : q ∈ r.start.trace h w) : ¬ q.Fails :=
      accepts session accepted q (trace ▸ member)
    refine ⟨⟨?_, ?_⟩, ?_, ⟨StatementKind.all, List.prefix_rfl, ?_, fun _ => rfl⟩, ?_⟩
    · rintro ⟨e, resultIs⟩
      cases result.symm.trans resultIs
    · rintro ⟨q, member, fails⟩
      exact absurd fails (accepted' q member)
    · intro e resultIs
      cases result.symm.trans resultIs
    · rw [trace, List.filterMap_append, obtaining, prepared_preparing, all]
      rfl
    · exact List.pairwise_of_forall_mem_list fun q member q' _ fails =>
        absurd fails (accepted' q member)

end Repository

namespace Running

/-- How a stop ends after its close, if it had one to make. -/
def stopping (r : Running S α) (closing : Option (Except SessionError Unit)) :
    Except RepositoryError (Repository S α) :=
  match closingFailure closing with
  | none => .ok r.repository
  | some cause => .error (.storage cause)

/-- A stop closes the session if it is the repository's own, and ends as that does. -/
theorem stop_cases (r : Running S α) (h : Host σ S) (w : σ) :
    ∃ closing, closing.isSome = r.repository.source.isOwned ∧
      r.stop.trace h w = closings r.session closing ∧
      (r.stop.run h w).1 = r.stopping closing := by
  simp only [stop, Program.andThen, Program.trace_bind, Program.run_bind, Program.trace_reported,
    Program.run_reported]
  cases r.repository.source.isOwned with
  | false => exact ⟨none, rfl, rfl, rfl⟩
  | true =>
    rcases answered : h.close r.session w with ⟨answer, w'⟩
    refine ⟨some answer, rfl, ?_⟩
    simp only [if_true, Program.trace, Program.run, answered]
    cases answer <;> exact ⟨rfl, rfl⟩

/-- A stop fails exactly if the session is the repository's own and closing it fails. -/
theorem stop_fails_iff (r : Running S α) (h : Host σ S) (w : σ) :
    (∃ e, (r.stop.run h w).1 = .error e) ↔
      r.repository.source = .owned ∧ ∃ cause, (h.close r.session w).1 = .error cause := by
  simp only [stop, Program.andThen, Program.run_bind, Program.run_reported]
  cases r.repository.source with
  | borrowed own =>
    constructor
    · rintro ⟨e, failed⟩
      cases failed
    · rintro ⟨clash, -⟩
      cases clash
  | owned =>
    rcases answered : h.close r.session w with ⟨answer, w'⟩
    simp only [Source.isOwned, if_true, Program.run, answered]
    cases answer with
    | ok done =>
      constructor
      · rintro ⟨e, failed⟩
        cases failed
      · rintro ⟨-, cause, clash⟩
        cases clash
    | error cause => exact ⟨fun _ => ⟨trivial, cause, rfl⟩, fun _ => ⟨_, rfl⟩⟩

end Running

end GroupStore

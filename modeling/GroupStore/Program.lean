import GroupStore.Session
import GroupStore.Audit

/-!
# Programs over sessions

A repository call is a program: a tree of requests to a session, each followed by what is done
with the answer.  The tree says nothing about the session, so one definition of a call serves
every way to answer it.

* `Program.bind` — sequential composition;
* `Host` and `Program.run` — answers from a state.
-/

namespace GroupStore

/-- A computation that may connect, prepare, execute, close and report, over sessions of type
`S`. -/
inductive Program (S : Type) (α : Type) where
  | done (result : α)
  | connect (next : Except SessionError S → Program S α)
  | prepare (session : S) (template : Template) (next : Except SessionError Prepared → Program S α)
  | execute (session : S) (bound : Bound) (next : Except SessionError ResultSet → Program S α)
  | close (session : S) (next : Except SessionError Unit → Program S α)
  | record (event : Audit.Event) (next : Program S α)

namespace Program

variable {S α β : Type}

/-- Run a second program on the result of a first. -/
def bind (p : Program S α) (f : α → Program S β) : Program S β :=
  match p with
  | done a => f a
  | connect next => connect fun answer => (next answer).bind f
  | prepare s t next => prepare s t fun answer => (next answer).bind f
  | execute s b next => execute s b fun answer => (next answer).bind f
  | close s next => close s fun answer => (next answer).bind f
  | record e next => record e (next.bind f)

/-- Change the result. -/
def map (f : α → β) (p : Program S α) : Program S β := p.bind fun a => done (f a)

/-- Go on only after a success. -/
def andThen {ε : Type} (p : Program S (Except ε α)) (f : α → Program S (Except ε β)) :
    Program S (Except ε β) :=
  p.bind fun
    | .ok a => f a
    | .error e => done (.error e)

end Program

/-! ### Hosts -/

/-- Everything that answers requests, as transitions of a state `σ`. -/
structure Host (σ S : Type) where
  connect : σ → Except SessionError S × σ
  prepare : S → Template → σ → Except SessionError Prepared × σ
  execute : S → Bound → σ → Except SessionError ResultSet × σ
  close : S → σ → Except SessionError Unit × σ
  record : Audit.Event → σ → σ

/-- Run a program from a state. -/
def Program.run {S α σ : Type} (h : Host σ S) : Program S α → σ → α × σ
  | .done a, w => (a, w)
  | .connect next, w =>
    let (answer, w') := h.connect w
    (next answer).run h w'
  | .prepare s t next, w =>
    let (answer, w') := h.prepare s t w
    (next answer).run h w'
  | .execute s b next, w =>
    let (answer, w') := h.execute s b w
    (next answer).run h w'
  | .close s next, w =>
    let (answer, w') := h.close s w
    (next answer).run h w'
  | .record e next, w => next.run h (h.record e w)

end GroupStore

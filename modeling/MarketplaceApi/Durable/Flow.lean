import MarketplaceApi.Transition.Run

/-!
# Durable workflows as trees of activity calls

A workflow only decides; everything it does is an awaited activity. A call in a cancellable
scope rejects as soon as cancellation is requested, and at once if it was requested before;
inside a non-cancellable scope a call waits for its activity. A chart names the positions a
workflow can be in.
-/
namespace MarketplaceApi.Durable

open Transition

/-- A workflow over activities `A` that fail with `E`. -/
inductive Flow (A E R : Type) : Type where
  | ret (r : R)
  | throw (e : E)
  | await (cancellable : Bool) (activity : A) (next : Except E Unit → Flow A E R)

variable {A E R R' S : Type}

namespace Flow

def bind : Flow A E R → (R → Flow A E R') → Flow A E R'
  | .ret r, f => f r
  | .throw e, _ => .throw e
  | .await c a next, f => .await c a fun o => (next o).bind f

instance : Monad (Flow A E) where
  pure := .ret
  bind := Flow.bind

def call (a : A) : Flow A E Unit :=
  .await true a fun
    | .ok () => .ret ()
    | .error e => .throw e

/-- `try`, with what follows it on either way out. -/
def tryCatch : Flow A E R → (R → Flow A E R') → (E → Flow A E R') → Flow A E R'
  | .ret r, done, _ => done r
  | .throw e, _, handler => handler e
  | .await c a next, done, handler => .await c a fun o => (next o).tryCatch done handler

/-- `CancellationScope.nonCancellable` -/
def nonCancellable : Flow A E R → Flow A E R
  | .await _ a next => .await false a fun o => (next o).nonCancellable
  | p => p

def closed : Flow A E R → Bool
  | .await .. => false
  | _ => true

/-- Go on after cancellation was requested: a call in a cancelled scope rejects without running. -/
def resume (cancellation : E) (cancelled : Bool) : Flow A E R → Flow A E R
  | .await true a next =>
    if cancelled then (next (.error cancellation)).resume cancellation cancelled else .await true a next
  | p => p

theorem resume_false (e : E) (p : Flow A E R) : p.resume e false = p := by
  cases p with
  | await c a next => cases c <;> rfl
  | ret r => rfl
  | throw e' => rfl

theorem resume_closed {e : E} {cancelled : Bool} {p : Flow A E R} (h : p.closed = true) :
    p.resume e cancelled = p := by
  cases p with
  | await c a next => cases h
  | ret r => rfl
  | throw e' => rfl

theorem resume_nonCancellable (e : E) (cancelled : Bool) (a : A) (next : Except E Unit → Flow A E R) :
    (Flow.await false a next).resume e cancelled = .await false a next := rfl

theorem resume_cancelled (e : E) (a : A) (next : Except E Unit → Flow A E R) :
    (Flow.await true a next).resume e true = (next (.error e)).resume e true := rfl

end Flow

/-- What the activities can end with, and the failure a cancelled call rejects with. -/
structure Runtime (A E : Type) where
  ends : A → Except E Unit → Prop
  cancellation : E

/-- How a call came back: its activity ended, or cancellation interrupted it, perhaps too late. -/
inductive Outcome (E : Type) where
  | ended (r : Except E Unit)
  | interrupted (effective : Bool)

/-- The activity has had its effect. -/
def Outcome.effective : Outcome E → Bool
  | .ended (.ok _) => true
  | .ended (.error _) => false
  | .interrupted effective => effective

/-- `effective` is about the running activity; `history` has the latest call first. -/
structure Execution (A E R : Type) where
  flow : Flow A E R
  cancelled : Bool
  effective : Bool
  history : List (A × Outcome E)

inductive Event (E : Type) where
  | effect
  | finish (r : Except E Unit)
  | cancel

def Execution.start (T : Runtime A E) (cancelled : Bool) (p : Flow A E R) : Execution A E R :=
  ⟨p.resume T.cancellation cancelled, cancelled, false, []⟩

inductive Step (T : Runtime A E) : Execution A E R → Event E → Execution A E R → Prop
  | effect {x c a next} : x.flow = .await c a next → Step T x .effect { x with effective := true }
  | finish {x c a next r} : x.flow = .await c a next → T.ends a r → (r = .ok () → x.effective = true) →
      Step T x (.finish r) ⟨(next r).resume T.cancellation x.cancelled, x.cancelled, false,
        (a, .ended r) :: x.history⟩
  | interrupt {x a next} : x.flow = .await true a next →
      Step T x .cancel ⟨(next (.error T.cancellation)).resume T.cancellation true, true, false,
        (a, .interrupted x.effective) :: x.history⟩
  | request {x a next} : x.flow = .await false a next → Step T x .cancel { x with cancelled := true }

/-- The positions of a workflow: what each awaits and where each result leads. -/
structure Chart (A E R S : Type) where
  flow : S → Flow A E R
  call : S → Option (Bool × A)
  next : S → Except E Unit → S
  awaits : ∀ {st c a}, call st = some (c, a) → flow st = .await c a fun r => flow (next st r)
  closes : ∀ {st}, call st = none → (flow st).closed = true

/-- Some position awaits this activity. -/
def Chart.Calls (C : Chart A E R S) (a : A) : Prop := ∃ st c, C.call st = some (c, a)

section
variable {T : Runtime A E} {x x' : Execution A E R} {ev : Event E} (C : Chart A E R S) {st : S}

/-- A closed workflow takes no further step. -/
theorem Step.open (h : Step T x ev x') : x.flow.closed = false := by
  cases h with
  | effect hf => rw [hf]; rfl
  | finish hf _ _ => rw [hf]; rfl
  | interrupt hf => rw [hf]; rfl
  | request hf => rw [hf]; rfl

theorem Chart.of_await {c : Bool} {a : A} {next : Except E Unit → Flow A E R}
    (h : C.flow st = .await c a next) : C.call st = some (c, a) ∧ ∀ r, next r = C.flow (C.next st r) := by
  cases hcall : C.call st with
  | none =>
    have hclosed := C.closes hcall
    rw [h] at hclosed
    cases hclosed
  | some p =>
    obtain ⟨c', a'⟩ := p
    have hflow := C.awaits hcall
    rw [h] at hflow
    cases hflow
    exact ⟨rfl, fun r => rfl⟩

/-- A position whose call, if any, is shielded from cancellation. -/
def Chart.Shielded (st : S) : Prop := ∀ a, C.call st ≠ some (true, a)

theorem Chart.resume_shielded (h : C.Shielded st) (e : E) (cancelled : Bool) :
    (C.flow st).resume e cancelled = C.flow st := by
  cases hcall : C.call st with
  | none => exact Flow.resume_closed (C.closes hcall)
  | some p =>
    obtain ⟨c, a⟩ := p
    cases c with
    | true => exact absurd hcall (h a)
    | false => rw [C.awaits hcall, Flow.resume_nonCancellable]

/-- A cancellable call can be interrupted. -/
theorem Chart.interrupt {cancelled effective : Bool} {a : A} {history : List (A × Outcome E)}
    (hcall : C.call st = some (true, a)) (hnext : C.Shielded (C.next st (.error T.cancellation))) :
    Step T ⟨C.flow st, cancelled, effective, history⟩ .cancel
      ⟨C.flow (C.next st (.error T.cancellation)), true, false, (a, .interrupted effective) :: history⟩ := by
  have hflow := C.awaits hcall
  have hstep := Step.interrupt (T := T) (x := ⟨C.flow st, cancelled, effective, history⟩) hflow
  rwa [C.resume_shielded hnext] at hstep

/-- At any position the awaited activity can have its effect and end well. -/
theorem Chart.succeed {c cancelled effective : Bool} {a : A} {history : List (A × Outcome E)}
    (hcall : C.call st = some (c, a)) (hends : T.ends a (.ok ()))
    (hnext : cancelled = true → C.Shielded (C.next st (.ok ()))) :
    ∃ tr, Run (Step T) ⟨C.flow st, cancelled, effective, history⟩ tr
      ⟨C.flow (C.next st (.ok ())), cancelled, false, (a, .ended (.ok ())) :: history⟩ := by
  have hflow := C.awaits hcall
  have heffect : Step T ⟨C.flow st, cancelled, effective, history⟩ .effect
      ⟨C.flow st, cancelled, true, history⟩ := .effect hflow
  have hfinish : Step T ⟨C.flow st, cancelled, true, history⟩ (.finish (.ok ()))
      ⟨(C.flow (C.next st (.ok ()))).resume T.cancellation cancelled, cancelled, false,
        (a, .ended (.ok ())) :: history⟩ :=
    Step.finish (x := ⟨C.flow st, cancelled, true, history⟩) hflow hends fun _ => rfl
  have hresume : (C.flow (C.next st (.ok ()))).resume T.cancellation cancelled =
      C.flow (C.next st (.ok ())) := by
    cases cancelled with
    | false => exact Flow.resume_false _ _
    | true => exact C.resume_shielded (hnext rfl) _ _
  rw [hresume] at hfinish
  exact ⟨_, (Run.nil.snoc heffect).snoc hfinish⟩

end

end MarketplaceApi.Durable

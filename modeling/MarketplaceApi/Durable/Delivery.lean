import MarketplaceApi.Durable.Flow

/-!
# Activities whose requests are delivered at least once

An activity attempt publishes a request and waits for its reply. A request that was
published may be processed at any later time, any number of times or never: late, again,
with its reply lost, after the workflow has closed. Only a reply to the current attempt
lets the workflow go on. `Chart.Invariant` is the rule for what holds in every run.
-/
namespace MarketplaceApi.Durable

open Transition

/-- The receivers: what processing a request does to the world `W` and what it replies, which
activities may give up, and what others may do to the world. -/
structure Receivers (A E W V : Type) where
  perform : A → W → W × Option (Except E Unit)
  mayFail : A → E → Prop
  env : V → W → W → Prop

/-- `sent` are the requests published so far, `reply` the answer the current attempt waits for. -/
structure Saga (A E R W : Type) where
  flow : Flow A E R
  world : W
  sent : List A
  waiting : Bool
  reply : Option (Except E Unit)
  history : List (A × Except E Unit)

inductive SagaEvent (A E V : Type) where
  | attempt
  | answer
  | stray (a : A)
  | settle
  | fail (e : E)
  | env (v : V)

variable {A E R S V W : Type}

def Saga.start (p : Flow A E R) (w : W) : Saga A E R W := ⟨p, w, [], false, none, []⟩

/-- The activity came back: the workflow goes on. -/
def Saga.resolve (x : Saga A E R W) (a : A) (r : Except E Unit) (p : Flow A E R) : Saga A E R W :=
  { x with flow := p, waiting := false, reply := none, history := (a, r) :: x.history }

inductive SagaStep (B : Receivers A E W V) : Saga A E R W → SagaEvent A E V → Saga A E R W → Prop
  | attempt {x c a next} : x.flow = .await c a next →
      SagaStep B x .attempt { x with sent := a :: x.sent, waiting := true, reply := none }
  | answer {x c a next} : x.flow = .await c a next → x.waiting = true →
      SagaStep B x .answer { x with world := (B.perform a x.world).1, reply := (B.perform a x.world).2 }
  | stray {x a} : a ∈ x.sent → SagaStep B x (.stray a) { x with world := (B.perform a x.world).1 }
  | settle {x c a next r} : x.flow = .await c a next → x.reply = some r →
      SagaStep B x .settle (x.resolve a r (next r))
  | fail {x c a next e} : x.flow = .await c a next → B.mayFail a e →
      SagaStep B x (.fail e) (x.resolve a (.error e) (next (.error e)))
  | env {x v w} : B.env v x.world w → SagaStep B x (.env v) { x with world := w }

/-- What holds at a position, of the requests sent, the calls that came back and the world. -/
abbrev Situation (A E S W : Type) := S → List A → List (A × Except E Unit) → W → Prop

/-- `I` holds at every position, `F` of every reply that waits there. -/
structure Chart.Invariant (C : Chart A E R S) (B : Receivers A E W V) (I : Situation A E S W)
    (F : S → Except E Unit → W → Prop) : Prop where
  attempt : ∀ {st c a sent h w}, C.call st = some (c, a) → I st sent h w → I st (a :: sent) h w
  perform : ∀ {st a sent h w}, C.Calls a → a ∈ sent → I st sent h w → I st sent h (B.perform a w).1
  answer : ∀ {st c a sent h w r}, C.call st = some (c, a) → I st sent h w →
    (B.perform a w).2 = some r → F st r (B.perform a w).1
  keep : ∀ {st a sent h w r}, C.Calls a → a ∈ sent → I st sent h w → F st r w → F st r (B.perform a w).1
  settle : ∀ {st c a sent h w r}, C.call st = some (c, a) → I st sent h w → F st r w →
    I (C.next st r) sent ((a, r) :: h) w
  fail : ∀ {st c a sent h w e}, C.call st = some (c, a) → B.mayFail a e → I st sent h w →
    I (C.next st (.error e)) sent ((a, .error e) :: h) w
  env : ∀ {st sent h v w w'}, B.env v w w' → I st sent h w → I st sent h w'
  envKeep : ∀ {st v w w' r}, B.env v w w' → F st r w → F st r w'

/-- The saga is at a position of the chart where the invariant holds. -/
structure Chart.Holds (C : Chart A E R S) (I : Situation A E S W) (F : S → Except E Unit → W → Prop)
    (x : Saga A E R W) (st : S) : Prop where
  flow : x.flow = C.flow st
  inv : I st x.sent x.history x.world
  reply : ∀ r, x.reply = some r → F st r x.world
  waiting : x.waiting = true → ∀ c a, C.call st = some (c, a) → a ∈ x.sent
  sent : ∀ a ∈ x.sent, C.Calls a

section
variable {C : Chart A E R S} {B : Receivers A E W V} {I J : Situation A E S W}
  {F G : S → Except E Unit → W → Prop} {x x' : Saga A E R W} {ev : SagaEvent A E V} {st : S}
  {tr : List (Saga A E R W × SagaEvent A E V)}

/-- What the workflow awaits, read off the chart. -/
theorem Chart.Holds.call (h : C.Holds I F x st) {c : Bool} {a : A} {next : Except E Unit → Flow A E R}
    (hawait : x.flow = .await c a next) :
    C.call st = some (c, a) ∧ ∀ r, next r = C.flow (C.next st r) := by
  rw [h.flow] at hawait
  exact C.of_await hawait

/-- A closed workflow awaits nothing. -/
theorem Chart.Holds.closed (h : C.Holds I F x st) (hclosed : x.flow.closed = true) : C.call st = none := by
  cases hcall : C.call st with
  | none => rfl
  | some p =>
    rw [h.flow, C.awaits hcall] at hclosed
    cases hclosed

/-- Every step of the saga leads to a position where the invariant holds. -/
theorem Chart.Invariant.step (hI : C.Invariant B I F) (h : C.Holds I F x st) (hs : SagaStep B x ev x') :
    ∃ st', C.Holds I F x' st' := by
  cases hs with
  | attempt hawait =>
    obtain ⟨hcall, _⟩ := h.call hawait
    refine ⟨st, h.flow, hI.attempt hcall h.inv, nofun, fun _ c a hca => ?_, fun a ha => ?_⟩
    · rw [hcall] at hca
      cases hca
      exact List.mem_cons_self
    · rcases List.mem_cons.mp ha with rfl | ha
      · exact ⟨st, _, hcall⟩
      · exact h.sent a ha
  | answer hawait hw =>
    obtain ⟨hcall, _⟩ := h.call hawait
    have hsent := h.waiting hw _ _ hcall
    exact ⟨st, h.flow, hI.perform ⟨st, _, hcall⟩ hsent h.inv, fun r hr => hI.answer hcall h.inv hr,
      h.waiting, h.sent⟩
  | stray hsent =>
    have hcalls := h.sent _ hsent
    exact ⟨st, h.flow, hI.perform hcalls hsent h.inv,
      fun r hr => hI.keep hcalls hsent h.inv (h.reply r hr), h.waiting, h.sent⟩
  | settle hawait hr =>
    obtain ⟨hcall, hnext⟩ := h.call hawait
    exact ⟨C.next st _, hnext _, hI.settle hcall h.inv (h.reply _ hr), nofun, nofun, h.sent⟩
  | fail hawait hfail =>
    obtain ⟨hcall, hnext⟩ := h.call hawait
    exact ⟨C.next st _, hnext _, hI.fail hcall hfail h.inv, nofun, nofun, h.sent⟩
  | env he =>
    exact ⟨st, h.flow, hI.env he h.inv, fun r hr => hI.envKeep he (h.reply r hr), h.waiting, h.sent⟩

/-- The rule: an invariant of the positions holds in every run. -/
theorem Chart.Invariant.run (hI : C.Invariant B I F) (st : S) {w : W} (h₀ : I st [] [] w)
    (hr : Run (SagaStep B) (Saga.start (C.flow st) w) tr x) : ∃ st', C.Holds I F x st' := by
  induction hr with
  | nil => exact ⟨st, rfl, h₀, nofun, nofun, nofun⟩
  | snoc _ hstep ih =>
    obtain ⟨st', hholds⟩ := ih
    exact hI.step hholds hstep

/-- An attempt that is answered and heard, as a trace. -/
def Receivers.exchange (B : Receivers A E W V) (a : A) (x : Saga A E R W) :
    List (Saga A E R W × SagaEvent A E V) :=
  [(x, .attempt), (⟨x.flow, x.world, a :: x.sent, true, none, x.history⟩, .answer),
    (⟨x.flow, (B.perform a x.world).1, a :: x.sent, true, (B.perform a x.world).2, x.history⟩, .settle)]

theorem Chart.exchange {c : Bool} {a : A} {r : Except E Unit} (hflow : x.flow = C.flow st)
    (hcall : C.call st = some (c, a)) (hreply : (B.perform a x.world).2 = some r) :
    Run (SagaStep B) x (B.exchange a x) ⟨C.flow (C.next st r), (B.perform a x.world).1, a :: x.sent, false,
      none, (a, r) :: x.history⟩ := by
  have hawait : x.flow = .await c a fun r => C.flow (C.next st r) := hflow.trans (C.awaits hcall)
  have hattempt : SagaStep B x .attempt { x with sent := a :: x.sent, waiting := true, reply := none } :=
    .attempt hawait
  have hanswer := (Run.nil.snoc hattempt).snoc (SagaStep.answer hawait rfl)
  exact hanswer.snoc (SagaStep.settle (x := ⟨x.flow, (B.perform a x.world).1, a :: x.sent, true,
    (B.perform a x.world).2, x.history⟩) hawait hreply)

theorem always_exchange {Meets : Saga A E R W → SagaEvent A E V → Prop} {a : A}
    (hattempt : Meets x .attempt)
    (hanswer : Meets ⟨x.flow, x.world, a :: x.sent, true, none, x.history⟩ .answer)
    (hsettle : Meets ⟨x.flow, (B.perform a x.world).1, a :: x.sent, true, (B.perform a x.world).2,
      x.history⟩ .settle) : Always Meets (B.exchange a x) := by
  have hfirst := always_snoc.mpr ⟨always_nil, hattempt⟩
  exact always_snoc.mpr ⟨always_snoc.mpr ⟨hfirst, hanswer⟩, hsettle⟩

/-- Two invariants hold at the same position. -/
theorem Chart.Invariant.and (hI : C.Invariant B I F) (hJ : C.Invariant B J G) :
    C.Invariant B (fun st sent h w => I st sent h w ∧ J st sent h w) (fun st r w => F st r w ∧ G st r w) where
  attempt hcall h := ⟨hI.attempt hcall h.1, hJ.attempt hcall h.2⟩
  perform hcalls hsent h := ⟨hI.perform hcalls hsent h.1, hJ.perform hcalls hsent h.2⟩
  answer hcall h hr := ⟨hI.answer hcall h.1 hr, hJ.answer hcall h.2 hr⟩
  keep hcalls hsent h hf := ⟨hI.keep hcalls hsent h.1 hf.1, hJ.keep hcalls hsent h.2 hf.2⟩
  settle hcall h hf := ⟨hI.settle hcall h.1 hf.1, hJ.settle hcall h.2 hf.2⟩
  fail hcall hfail h := ⟨hI.fail hcall hfail h.1, hJ.fail hcall hfail h.2⟩
  env he h := ⟨hI.env he h.1, hJ.env he h.2⟩
  envKeep he hf := ⟨hI.envKeep he hf.1, hJ.envKeep he hf.2⟩

end

end MarketplaceApi.Durable

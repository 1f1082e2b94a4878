import MarketplaceApi.Outbox.Table
import MarketplaceApi.Transition.Run

/-!
# Relays over an outbox table

Any number of app instances run `relayBatch`: open a transaction, claim rows with
`FOR UPDATE SKIP LOCKED`, hand them to a sink outside the database, mark what was sent. The
sink and the database are not atomic: a transaction can be lost at every step, also while its
process goes on sending, and a send that timed out can still arrive later.
-/
namespace MarketplaceApi.Outbox

open Transition OutboxRepository

/-- One relay service: its constants, what its sink does with a row it accepts, and how the
sink may change by itself. -/
structure Service (I P T : Type) where
  batchSize : Nat
  retention : Nat
  deliver : Row I P → T → T
  drift : T → T → Prop

/-- How far `relayBatch` has come. -/
inductive Stage (I P : Type) where
  | opened
  | scanning (candidates claimed : List (Row I P))
  | sending (sent rest : List (Row I P))
  | closing (sent : List (Row I P)) (failed : Option (Row I P × String)) (rest : List (Row I P))

variable {I P T : Type}

/-- The rows the transaction has locked, in the order of the claim. -/
def Stage.claimed : Stage I P → List (Row I P)
  | .opened => []
  | .scanning _ claimed => claimed
  | .sending sent rest => sent ++ rest
  | .closing sent failed rest => sent ++ (failed.map Prod.fst).toList ++ rest

def Stage.sent : Stage I P → List (Row I P)
  | .opened => []
  | .scanning _ _ => []
  | .sending sent _ => sent
  | .closing sent _ _ => sent

/-- The rows claimed and those still to be scanned. -/
def Stage.pool : Stage I P → List (Row I P)
  | .opened => []
  | .scanning candidates claimed => claimed ++ candidates
  | .sending sent rest => sent ++ rest
  | .closing sent failed rest => sent ++ (failed.map Prod.fst).toList ++ rest

/-- The loop ends early only by a failure. -/
def Stage.Whole : Stage I P → Prop
  | .closing _ failed rest => failed = none → rest = []
  | _ => True

/-- One execution of `relayBatch`. `began` is the `now()` of its transaction; `severed` says
that the database has lost the transaction while the process goes on. -/
structure Relay (I P : Type) where
  began : Nat
  stage : Stage I P
  severed : Bool

def Relay.at (r : Relay I P) (stage : Stage I P) : Relay I P := { r with stage }

/-- The committed table, the executions by app instance, the sink, and the sends that timed
out and may still arrive. `accepted` and `written` are the whole history of the sink and of
the table. -/
structure World (I P T : Type) where
  now : Nat
  rows : List (Row I P)
  relays : Nat → Option (Relay I P)
  sink : T
  inflight : List (Row I P)
  accepted : List (Row I P)
  written : List (Row I P)

def World.start (sink : T) : World I P T := ⟨0, [], fun _ => none, sink, [], [], []⟩

def World.set (w : World I P T) (i : Nat) (r : Option (Relay I P)) : World I P T :=
  { w with relays := Function.update w.relays i r }

/-- Another open transaction holds the row. -/
def World.LockedByOther (w : World I P T) (i : Nat) (id : I) : Prop :=
  ∃ j r, j ≠ i ∧ w.relays j = some r ∧ r.severed = false ∧ ∃ row ∈ r.stage.claimed, row.id = id

def World.accept (V : Service I P T) (w : World I P T) (row : Row I P) : World I P T :=
  { w with sink := V.deliver row w.sink, accepted := w.accepted ++ [row] }

inductive Event (I P : Type) where
  | write (row : Row I P)
  | tick (t : Nat)
  | begin (i : Nat)
  | claim (i : Nat)
  | lock (i : Nat) (row : Row I P)
  | skip (i : Nat)
  | claimed (i : Nat)
  | send (i : Nat)
  | fail (i : Nat) (message : String) (lost : Bool)
  | land (row : Row I P)
  | finish (i : Nat)
  | commit (i : Nat)
  | rollback (i : Nat)
  | sever (i : Nat)
  | cleanup
  | drift

/-- The row that is sent next. -/
def Stage.next? : Stage I P → Option (Row I P)
  | .sending _ (row :: _) => some row
  | _ => none

/-- The row the sink accepts. -/
def World.accepts? (w : World I P T) : Event I P → Option (Row I P)
  | .send i => (w.relays i).bind fun r => r.stage.next?
  | .land row => some row
  | _ => none

section
variable [LinearOrder I]

/-- What the loop of `relayBatch` leaves in the table: a failure, if there was one, and the marks. -/
def settle (now : Nat) (sent : List (Row I P)) (failed : Option (Row I P × String)) (rows : List (Row I P)) :
    List (Row I P) :=
  markPublished (sent.map Row.id) now (failed.elim rows fun f => recordFailure f.1.id f.2 rows)

inductive Step (V : Service I P T) : World I P T → Event I P → World I P T → Prop
  | write {w row} : row.createdAt ≤ w.now → row.committedAt = w.now → row.publishedAt = none →
      (∀ other ∈ w.written, other.id ≠ row.id) →
      Step V w (.write row) { w with rows := row :: w.rows, written := row :: w.written }
  | tick {w t} : w.now ≤ t → Step V w (.tick t) { w with now := t }
  | begin {w i} : w.relays i = none → Step V w (.begin i) (w.set i (some ⟨w.now, .opened, false⟩))
  | claim {w i r} : w.relays i = some r → r.stage = .opened → r.severed = false →
      Step V w (.claim i) (w.set i (some (r.at (.scanning (unpublished w.rows) []))))
  | lock {w i r candidate candidates claimed row} : w.relays i = some r →
      r.stage = .scanning (candidate :: candidates) claimed → r.severed = false → claimed.length < V.batchSize →
      row ∈ w.rows → row.id = candidate.id → row.publishedAt = none → ¬ w.LockedByOther i row.id →
      Step V w (.lock i row) (w.set i (some (r.at (.scanning candidates (claimed ++ [row])))))
  | skip {w i r candidate candidates claimed} : w.relays i = some r →
      r.stage = .scanning (candidate :: candidates) claimed → r.severed = false →
      w.LockedByOther i candidate.id ∨ (∀ row ∈ w.rows, row.id = candidate.id → row.publishedAt ≠ none) →
      Step V w (.skip i) (w.set i (some (r.at (.scanning candidates claimed))))
  | claimed {w i r candidates claimed} : w.relays i = some r → r.stage = .scanning candidates claimed →
      r.severed = false → candidates = [] ∨ claimed.length = V.batchSize →
      Step V w (.claimed i) (w.set i (some (r.at (.sending [] claimed))))
  | send {w i r sent row rest} : w.relays i = some r → r.stage = .sending sent (row :: rest) →
      Step V w (.send i) ((w.set i (some (r.at (.sending (sent ++ [row]) rest)))).accept V row)
  | fail {w i r sent row rest message lost} : w.relays i = some r → r.stage = .sending sent (row :: rest) →
      Step V w (.fail i message lost)
        { w.set i (some (r.at (.closing sent (some (row, message)) rest))) with
          inflight := if lost then w.inflight else row :: w.inflight }
  | land {w row before after} : w.inflight = before ++ row :: after →
      Step V w (.land row) ({ w with inflight := before ++ after }.accept V row)
  | finish {w i r sent} : w.relays i = some r → r.stage = .sending sent [] →
      Step V w (.finish i) (w.set i (some (r.at (.closing sent none []))))
  | commit {w i r sent failed rest} : w.relays i = some r → r.stage = .closing sent failed rest →
      r.severed = false → (∀ row ∈ settle r.began sent failed w.rows, row.allowed) →
      Step V w (.commit i) { w.set i none with rows := settle r.began sent failed w.rows }
  | rollback {w i r} : w.relays i = some r → Step V w (.rollback i) (w.set i none)
  | sever {w i r} : w.relays i = some r → Step V w (.sever i) (w.set i (some { r with severed := true }))
  | cleanup {w} :
      Step V w .cleanup { w with rows := deletePublishedBefore (w.now - V.retention) w.rows }
  | drift {w sink} : V.drift w.sink sink → Step V w .drift { w with sink }

theorem accepted_step {V : Service I P T} {w w' : World I P T} {ev : Event I P} (hs : Step V w ev w') :
    w'.accepted = w.accepted ++ (w.accepts? ev).toList := by
  cases hs with
  | @send i r sent row rest hi hstage =>
    have hnext : w.accepts? (.send i) = some row := by
      change (w.relays i).bind _ = some row
      rw [hi, Option.bind_some, hstage]
      rfl
    rw [hnext]
    rfl
  | land _ => rfl
  | _ => exact (List.append_nil _).symm

end

end MarketplaceApi.Outbox

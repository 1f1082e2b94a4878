import Mathlib.Data.String.Basic
import MarketplaceApi.Outbox.Safety

/-!
# The four relay services

Identity, user and order events go to Kafka, order placements to Temporal. The services are
copies of each other, so each is `Service` at its own constants and sink. Kafka has a row when
its message is on its partition, Temporal when a workflow has its id.
-/
namespace MarketplaceApi.Outbox

open Transition OutboxRepository

/-- The columns of `IdentityOutbox`, `UserOutbox` and `OrderOutbox`. -/
structure EventColumns (D : Type) where
  topic : String
  aggregateType : String
  aggregateId : String
  type : String
  payload : D

structure CloudEvent (I D : Type) where
  specversion : String
  id : I
  source : String
  type : String
  time : Nat
  datacontenttype : String
  subject : String
  correlationid : String
  data : D

structure KafkaMessage (I D : Type) where
  key : String
  value : CloudEvent I D
  contentType : String
  ceType : String

/-- The messages of each topic and partition, in the order of their offsets. -/
abbrev Log (I D : Type) := String → Nat → List (KafkaMessage I D)

variable {I D A : Type}

def toCloudEvent (source : String) (row : Row I (EventColumns D)) : CloudEvent I D where
  specversion := "1.0"
  id := row.id
  source := source
  type := row.columns.type
  time := row.createdAt
  datacontenttype := "application/json"
  subject := row.columns.aggregateId
  correlationid := row.columns.aggregateId
  data := row.columns.payload

namespace KafkaProducerService

def toMessage (message : CloudEvent I D) : KafkaMessage I D where
  key := message.subject
  value := message
  contentType := "application/cloudevents+json"
  ceType := message.type

/-- An accepted message is appended to the partition of its key. -/
def publish (partition : String → String → Nat) (topic : String) (message : CloudEvent I D) (log : Log I D) :
    Log I D :=
  fun t p => if t = topic ∧ p = partition topic message.subject then log t p ++ [toMessage message] else log t p

end KafkaProducerService

/-- Seven days in microseconds. -/
def sevenDays : Nat := 7 * 24 * 60 * 60 * 1000000

section
variable (I D) (partition : String → String → Nat)

/-- The relay of a service that sends its events to Kafka. -/
def eventRelay (batchSize retention : Nat) (source : String) : Service I (EventColumns D) (Log I D) where
  batchSize := batchSize
  retention := retention
  deliver row := KafkaProducerService.publish partition row.columns.topic (toCloudEvent source row)
  drift _ _ := False

def IdentityOutboxRelayService : Service I (EventColumns D) (Log I D) :=
  eventRelay I D partition 100 sevenDays "/identity-service"

def UserOutboxRelayService : Service I (EventColumns D) (Log I D) :=
  eventRelay I D partition 100 sevenDays "/user-service"

def OrderOutboxRelayService : Service I (EventColumns D) (Log I D) :=
  eventRelay I D partition 100 sevenDays "/order-service"

end

section
variable {partition : String → String → Nat} {source topic : String} {p : Nat} {log : Log I D}
  {message : KafkaMessage I D} {row other : Row I (EventColumns D)}

theorem mem_publish {event : CloudEvent I D} :
    message ∈ KafkaProducerService.publish partition topic event log topic p ↔ message ∈ log topic p ∨
      (p = partition topic event.subject ∧ message = KafkaProducerService.toMessage event) := by
  unfold KafkaProducerService.publish
  split
  · rename_i h
    rw [List.mem_append, List.mem_singleton]
    exact or_congr_right ⟨fun hm => ⟨h.2, hm⟩, fun hm => hm.2⟩
  · rename_i h
    exact ⟨Or.inl, fun hor => hor.resolve_right fun hm => h ⟨rfl, hm.1⟩⟩

/-- Messages stay on their partition. -/
theorem mem_publish_of_mem {event : CloudEvent I D} {other : String} (h : message ∈ log topic p) :
    message ∈ KafkaProducerService.publish partition other event log topic p := by
  unfold KafkaProducerService.publish
  split
  · exact List.mem_append_left _ h
  · exact h

/-- The row's message is on the partition of its key. -/
def OnLog (partition : String → String → Nat) (source : String) (row : Row I (EventColumns D)) (log : Log I D) : Prop :=
  KafkaProducerService.toMessage (toCloudEvent source row) ∈
    log row.columns.topic (partition row.columns.topic row.columns.aggregateId)

theorem OnLog.same (hsame : row.Same other) (h : OnLog partition source row log) :
    OnLog partition source other log := by
  have hevent : toCloudEvent source other = toCloudEvent source row := by rw [hsame]; rfl
  have hcolumns : other.columns = row.columns := by rw [hsame]
  unfold OnLog
  rw [hevent, hcolumns]
  exact h

/-- Kafka has an event. -/
def logged (batchSize retention : Nat) : Receipt (eventRelay I D partition batchSize retention source) where
  has := OnLog partition source
  delivered _ _ := mem_publish.mpr (Or.inr ⟨rfl, rfl⟩)
  kept _ _ _ h := mem_publish_of_mem h
  drifted _ _ _ hd := hd.elim
  same _ _ _ hsame h := h.same hsame

end

/-- The columns of `OrderWorkflowOutbox` besides its key `workflowId`. -/
structure WorkflowColumns (A : Type) where
  workflowType : String
  taskQueue : String
  input : A

structure Execution (A : Type) where
  workflowId : String
  workflowType : String
  taskQueue : String
  args : A
  closed : Bool

inductive StartResult where
  | started
  | existing
  | alreadyStarted
  deriving DecidableEq

/-- `workflow.start` with `USE_EXISTING` and `REJECT_DUPLICATE`: a running execution is
returned, a closed one is an error. -/
def workflowStart (row : Row String (WorkflowColumns A)) (executions : List (Execution A)) :
    List (Execution A) × StartResult :=
  match executions.find? fun execution => execution.workflowId = row.id with
  | some execution => (executions, if execution.closed then .alreadyStarted else .existing)
  | none =>
    (⟨row.id, row.columns.workflowType, row.columns.taskQueue, row.columns.input, false⟩ :: executions, .started)

/-- The execution was started for this row. -/
def Execution.Of (row : Row String (WorkflowColumns A)) (execution : Execution A) : Prop :=
  execution.workflowId = row.id ∧ execution.workflowType = row.columns.workflowType ∧
    execution.taskQueue = row.columns.taskQueue ∧ execution.args = row.columns.input

/-- An execution comes to its end. -/
def close (id : String) (executions : List (Execution A)) : List (Execution A) :=
  executions.map fun execution => if execution.workflowId = id then { execution with closed := true } else execution

/-- `start` takes `WorkflowExecutionAlreadyStartedError` for a success, so every result of
Temporal counts as accepted. -/
def OrderWorkflowOutboxRelayService (A : Type) : Service String (WorkflowColumns A) (List (Execution A)) where
  batchSize := 100
  retention := sevenDays
  deliver row executions := (workflowStart row executions).1
  drift executions executions' := ∃ id, executions' = close id executions

theorem ids_workflowStart (row : Row String (WorkflowColumns A)) (executions : List (Execution A)) :
    (workflowStart row executions).1.map Execution.workflowId =
      if row.id ∈ executions.map Execution.workflowId then executions.map Execution.workflowId
      else row.id :: executions.map Execution.workflowId := by
  unfold workflowStart
  cases hfind : executions.find? fun execution => execution.workflowId = row.id with
  | some execution =>
    have hid := List.find?_some hfind
    rw [decide_eq_true_eq] at hid
    rw [if_pos (hid ▸ List.mem_map_of_mem (List.mem_of_find?_eq_some hfind))]
  | none =>
    rw [if_neg, List.map_cons]
    intro hin
    obtain ⟨execution, he, hid⟩ := List.mem_map.mp hin
    simpa [hid] using List.find?_eq_none.mp hfind execution he

theorem ids_close (id : String) (executions : List (Execution A)) :
    (close id executions).map Execution.workflowId = executions.map Execution.workflowId := by
  unfold close
  rw [List.map_map]
  refine List.map_congr_left fun execution _ => ?_
  rw [Function.comp_apply]
  split <;> rfl

theorem nodup_workflowStart (row : Row String (WorkflowColumns A)) {executions : List (Execution A)}
    (h : (executions.map Execution.workflowId).Nodup) :
    ((workflowStart row executions).1.map Execution.workflowId).Nodup := by
  rw [ids_workflowStart]
  split
  · exact h
  · exact List.nodup_cons.mpr ⟨‹_›, h⟩

theorem mem_workflowStart {row : Row String (WorkflowColumns A)} {executions : List (Execution A)}
    {execution : Execution A} (h : execution ∈ (workflowStart row executions).1) :
    execution ∈ executions ∨ execution.Of row := by
  unfold workflowStart at h
  split at h
  · exact Or.inl h
  · rcases List.mem_cons.mp h with rfl | hold
    · exact Or.inr ⟨rfl, rfl, rfl, rfl⟩
    · exact Or.inl hold

/-- Temporal has an order's placement. -/
def startedWorkflows (A : Type) : Receipt (OrderWorkflowOutboxRelayService A) where
  has row executions := row.id ∈ executions.map Execution.workflowId
  delivered row executions := by
    change row.id ∈ (workflowStart row executions).1.map Execution.workflowId
    rw [ids_workflowStart]
    split
    · assumption
    · exact List.mem_cons_self
  kept row other executions h := by
    change row.id ∈ (workflowStart other executions).1.map Execution.workflowId
    rw [ids_workflowStart]
    split
    · exact h
    · exact List.mem_cons_of_mem _ h
  drifted row executions executions' hd h := by
    obtain ⟨id, rfl⟩ := hd
    rwa [ids_close]
  same row other executions hsame h := by rwa [hsame.id]

section
variable {w : World String (WorkflowColumns A) (List (Execution A))}
  {tr : List (World String (WorkflowColumns A) (List (Execution A)) × Event String (WorkflowColumns A))}

/-- No workflow id is started twice. -/
theorem executions_nodup (hr : Run (Step (OrderWorkflowOutboxRelayService A)) (World.start []) tr w) :
    (w.sink.map Execution.workflowId).Nodup := by
  induction hr with
  | nil => exact List.nodup_nil
  | snoc _ hs ih =>
    cases hs with
    | send _ _ => exact nodup_workflowStart _ ih
    | land _ => exact nodup_workflowStart _ ih
    | drift hd =>
      obtain ⟨id, rfl⟩ := hd
      rw [ids_close]
      exact ih
    | _ => exact ih

/-- Every execution is that of a written row. -/
theorem executions_written (hr : Run (Step (OrderWorkflowOutboxRelayService A)) (World.start []) tr w) :
    ∀ execution ∈ w.sink, ∃ row ∈ w.written, execution.Of row := by
  induction hr with
  | nil => exact nofun
  | @snoc tr w w' ev hr hs ih =>
    have hreceived := received_run (startedWorkflows A) hr
    have hstart : ∀ {row : Row String (WorkflowColumns A)}, w.Known row →
        ∀ execution ∈ (workflowStart row w.sink).1, ∃ row ∈ w.written, execution.Of row := by
      rintro row ⟨first, hfirst, hsame⟩ execution hin
      rcases mem_workflowStart hin with hold | hnew
      · exact ih execution hold
      · refine ⟨first, hfirst, ?_⟩
        rw [hsame] at hnew
        exact hnew
    cases hs with
    | send hi hstage =>
      refine hstart (hreceived.claims _ _ hi _ ?_)
      rw [hstage]
      exact List.mem_append_right _ List.mem_cons_self
    | land hin => exact hstart (hreceived.inflight _ (hin ▸ List.mem_append_right _ List.mem_cons_self))
    | drift hd =>
      obtain ⟨id, rfl⟩ := hd
      intro execution hin
      obtain ⟨running, hrunning, rfl⟩ := List.mem_map.mp hin
      obtain ⟨row, hrow, hof⟩ := ih running hrunning
      refine ⟨row, hrow, ?_⟩
      split
      · exact hof
      · exact hof
    | write _ _ _ _ =>
      intro execution hin
      obtain ⟨row, hrow, hof⟩ := ih execution hin
      exact ⟨row, List.mem_cons_of_mem _ hrow, hof⟩
    | _ => exact ih

end

/-- All four relays, with any number of instances. -/
theorem relays_reliable (I D A : Type) [LinearOrder I] (partition : String → String → Nat) :
    (∀ tr w, Run (Step (IdentityOutboxRelayService I D partition)) (World.start fun _ _ => []) tr w →
      Reliable (V := IdentityOutboxRelayService I D partition) (logged 100 sevenDays) w) ∧
    (∀ tr w, Run (Step (UserOutboxRelayService I D partition)) (World.start fun _ _ => []) tr w →
      Reliable (V := UserOutboxRelayService I D partition) (logged 100 sevenDays) w) ∧
    (∀ tr w, Run (Step (OrderOutboxRelayService I D partition)) (World.start fun _ _ => []) tr w →
      Reliable (V := OrderOutboxRelayService I D partition) (logged 100 sevenDays) w) ∧
    ∀ tr w, Run (Step (OrderWorkflowOutboxRelayService A)) (World.start []) tr w →
      Reliable (startedWorkflows A) w ∧ (w.sink.map Execution.workflowId).Nodup ∧
        ∀ execution ∈ w.sink, ∃ row ∈ w.written, execution.Of row :=
  ⟨fun _ _ hr => reliable_run _ hr, fun _ _ hr => reliable_run _ hr, fun _ _ hr => reliable_run _ hr,
    fun _ _ hr => ⟨reliable_run _ hr, executions_nodup hr, executions_written hr⟩⟩

def createdRow : Row Nat (EventColumns String) where
  id := 1
  columns := ⟨"order.events", "Order", "order-1", "order.created", "pending_payment"⟩
  createdAt := 0
  committedAt := 0
  publishedAt := none
  attempts := 0
  lastError := none

def paidRow : Row Nat (EventColumns String) :=
  { createdRow with
    id := 2
    columns := ⟨"order.events", "Order", "order-1", "order.paid", "paid"⟩
    createdAt := 1
    committedAt := 1 }

theorem unpublished_both : unpublished [paidRow, createdRow] = [createdRow, paidRow] := by
  simp [unpublished, List.mergeSort, List.MergeSort.Internal.splitInTwo, List.splitAt, List.splitAt.go, paidRow,
    createdRow, Row.before]

/-- Nothing is locked where no other instance relays. -/
theorem World.free {P T : Type} {w : World I P T} {i : Nat} {id : I} (h : ∀ j, j ≠ i → w.relays j = none) :
    ¬ w.LockedByOther i id := by
  rintro ⟨j, r, hj, hr, _⟩
  rw [h j hj] at hr
  cases hr

section
variable {P T : Type} {V : Service I P T} {w : World I P T}

/-- Nothing relays but instance 0. -/
def World.Alone (w : World I P T) : Prop := ∀ j, j ≠ 0 → w.relays j = none

theorem World.Alone.set (h : w.Alone) (r : Option (Relay I P)) : (w.set 0 r).Alone := fun j hj =>
  (World.set_other w hj r).trans (h j hj)

/-- What instance 0 does before it sends. -/
def Event.claims : Event I P → Prop
  | .begin i => i = 0
  | .claim i => i = 0
  | .lock i _ => i = 0
  | .claimed i => i = 0
  | _ => False

/-- Alone, instance 0 can claim all that is unpublished, up to its batch size. -/
theorem claims_all [LinearOrder I] (halone : w.Alone) (hidle : w.relays 0 = none)
    (hlength : (unpublished w.rows).length ≤ V.batchSize) :
    Reaches (Step V) (fun _ ev => ev.claims) w (w.set 0 (some ⟨w.now, .sending [] (unpublished w.rows), false⟩)) := by
  have hscan : ∀ candidates claimed, claimed ++ candidates = unpublished w.rows →
      Reaches (Step V) (fun _ ev => ev.claims) w (w.set 0 (some ⟨w.now, .scanning candidates claimed, false⟩)) →
      Reaches (Step V) (fun _ ev => ev.claims) w
        (w.set 0 (some ⟨w.now, .sending [] (unpublished w.rows), false⟩)) := by
    intro candidates
    induction candidates with
    | nil =>
      intro claimed hall h
      rw [List.append_nil] at hall
      have hsent := h.step (.claimed (World.set_self w 0 _) rfl rfl (.inl rfl)) rfl
      rw [World.set_set, hall] at hsent
      exact hsent
    | cons row candidates ih =>
      intro claimed hall h
      have hmem : row ∈ unpublished w.rows := hall ▸ List.mem_append_right _ List.mem_cons_self
      obtain ⟨hrow, hnew⟩ := mem_unpublished.mp hmem
      have hshort : claimed.length < V.batchSize := by
        have hsum := congrArg List.length hall
        rw [List.length_append, List.length_cons] at hsum
        omega
      have hlocked := h.step (.lock (World.set_self w 0 _) rfl rfl hshort hrow rfl hnew
        (World.free (halone.set _))) rfl
      rw [World.set_set] at hlocked
      exact ih _ ((List.append_assoc _ _ _).trans hall) hlocked
  have hbegun : Reaches (Step V) (fun _ ev => ev.claims) w _ := Reaches.refl.step (.begin hidle) rfl
  have hclaimed := hbegun.step (.claim (World.set_self w 0 _) rfl rfl) rfl
  rw [World.set_set] at hclaimed
  exact hscan _ [] rfl hclaimed

end

/-- The send of `order.paid` times out: the batch ends, `order.created` alone is marked and is on the log, and
`order.paid`, still unpublished, arrives after all. -/
theorem relays_reliable_timed_out : ∃ (tr : _) (w : World Nat (EventColumns String) (Log Nat String)),
    Run (Step (OrderOutboxRelayService Nat String fun _ _ => 0)) (World.start fun _ _ => []) tr w ∧
    w.rows.map (fun row => (row.id, row.publishedAt, row.lastError)) = [(2, none, some "timeout"), (1, some 1, none)] ∧
    (∀ row ∈ w.rows, row.publishedAt ≠ none → OnLog (fun _ _ => 0) "/order-service" row w.sink) ∧
    (w.sink "order.events" 0).map (fun message => message.value.id) = [1, 2] := by
  have hrun : Run (Step (OrderOutboxRelayService Nat String fun _ _ => 0)) (World.start fun _ _ => []) [] _ := .nil
  have hrun := hrun.snoc (.write (show createdRow.createdAt ≤ 0 from Nat.le_refl 0) rfl rfl nofun)
  have hrun := hrun.snoc (.tick (t := 1) (Nat.zero_le 1))
  have hrun := hrun.snoc (.write (show paidRow.createdAt ≤ 1 from Nat.le_refl 1) rfl rfl fun other ho => by
    rw [List.mem_singleton.mp ho]
    decide)
  have hrun := (hrun.snoc (.begin (i := 0) rfl)).snoc (.claim (i := 0) rfl rfl rfl)
  have hrun := hrun.snoc (.lock (i := 0) rfl (congrArg (Stage.scanning · []) unpublished_both)
    rfl (by decide) (.tail _ (.head _)) (show createdRow.id = 1 from rfl) rfl (World.free fun j hj => by
      rw [World.set_other _ hj, World.set_other _ hj]
      rfl))
  have hrun := hrun.snoc (.lock (i := 0) rfl rfl rfl (by decide) (.head _) (show paidRow.id = 2 from rfl) rfl
    (World.free fun j hj => by
      rw [World.set_other _ hj, World.set_other _ hj, World.set_other _ hj]
      rfl))
  have hrun := (hrun.snoc (.claimed (i := 0) rfl rfl rfl (.inl rfl))).snoc (.send (i := 0) rfl rfl)
  have hrun := hrun.snoc (Step.fail rfl rfl : Step _ _ (.fail 0 "timeout" false) _)
  have hrun := hrun.snoc (.commit (i := 0) rfl rfl rfl (by decide))
  have hrun := hrun.snoc (Step.land (show _ = [] ++ paidRow :: [] from rfl))
  have hreliable := (relays_reliable Nat String Unit fun _ _ => 0).2.2.1 _ _ hrun
  exact ⟨_, _, hrun, rfl, hreliable.marked, rfl⟩

end MarketplaceApi.Outbox

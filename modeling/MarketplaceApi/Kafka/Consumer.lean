import MarketplaceApi.Txn.Interleaving

/-!
# Consumers of a topic

`KafkaConsumerService`: group members that read a partition from its committed offset, a handler that runs
one transaction a message, the dead letter topic for what it rejects, and a retry of everything else.
Members overlap in rebalances and over the partitions, and offsets are committed late or not at all.
-/
namespace MarketplaceApi.Kafka

open Transition (Run Always)
open Txn

structure Message where
  key : Option String
  value : Option String
  deriving DecidableEq

/-- `partition@offset` -/
structure Position where
  partition : Nat
  offset : Nat
  deriving DecidableEq

def Position.next (position : Position) : Position := { position with offset := position.offset + 1 }

/-- A record of the dead letter topic: the message and the position that `dlt_source` names. -/
structure DeadLetter where
  message : Message
  source : Position
  deriving DecidableEq

/-- What `handle` gets to see of a text: none that it takes up, none that is for it, or an event. -/
inductive Parsed (V : Type) where
  | rejected
  | skipped
  | event (value : V)

/-- `KafkaSubscriptionInterface`: what the text of a message parses to, the transactions that `handle` may run
for an event, and the errors that are a `KafkaRejectedMessageException`. -/
structure Subscription (K S E R Q V : Type) where
  system : System K S E R Q
  parse : String → Parsed V
  request : V → Q → Prop
  rejected : E → Bool

/-- Where a group member is in a partition of its own. A consumer of several partitions is a member for each. -/
inductive Member where
  | ready (position : Position)
  | handling (position : Position)
  | rejecting (position : Position)

/-- Every message of the partition below is done with. -/
def Member.position : Member → Position
  | .ready position => position
  | .handling position => position
  | .rejecting position => position

/-- `log` and `committed` are by partition. `sends` are dead letters on their way. Transactions that are no member's
share the database. -/
structure World (K S E R Q : Type) where
  log : Nat → List Message
  db : Config K S E R Q
  members : Nat → Option Member
  committed : Nat → Nat
  sends : List DeadLetter
  deadLetters : List DeadLetter

inductive Event (Q : Type) where
  | append (partition : Nat) (message : Message)
  | assign (i partition : Nat)
  | drop (i : Nat)
  | tx (event : Txn.Event Q)
  | skip (i : Nat)
  | malformed (i : Nat)
  | land (letter : DeadLetter)
  | acknowledge (i : Nat)
  | fail (i : Nat)
  | commit (i : Nat)

variable {K S E R Q V : Type}

def World.put (w : World K S E R Q) (i : Nat) (member : Option Member) : World K S E R Q :=
  { w with members := Function.update w.members i member }

def World.start (s : S) : World K S E R Q := ⟨fun _ => [], .start s, fun _ => none, fun _ => 0, [], []⟩

def World.message? (w : World K S E R Q) (position : Position) : Option Message :=
  (w.log position.partition)[position.offset]?

def World.append (w : World K S E R Q) (partition : Nat) (message : Message) : World K S E R Q :=
  { w with log := Function.update w.log partition (w.log partition ++ [message]) }

/-- `JSON.parse(message.value?.toString() ?? '')` -/
def Subscription.read (X : Subscription K S E R Q V) (message : Message) : Parsed V :=
  X.parse (message.value.getD "")

inductive Step (X : Subscription K S E R Q V) : World K S E R Q → Event Q → World K S E R Q → Prop
  | append {w partition message} : Step X w (.append partition message) (w.append partition message)
  | assign {w i partition} : w.members i = none → w.db.txs i = none →
      Step X w (.assign i partition) (w.put i (some (.ready ⟨partition, w.committed partition⟩)))
  | drop {w i} : w.db.txs i = none → Step X w (.drop i) (w.put i none)
  | handle {w i position message value q db} : w.members i = some (.ready position) →
      w.message? position = some message → X.read message = .event value → X.request value q →
      Txn.Step X.system w.db (.begin i q) db →
      Step X w (.tx (.begin i q)) { w.put i (some (.handling position)) with db := db }
  | statement {w i db} : Txn.Step X.system w.db (.statement i) db → Step X w (.tx (.statement i)) { w with db := db }
  | handled {w i position db} : w.members i = some (.handling position) → Txn.Step X.system w.db (.commit i) db →
      Step X w (.tx (.commit i)) { w.put i (some (.ready position.next)) with db := db }
  /-- The answer to `COMMIT` is lost, and the message is tried again. -/
  | unanswered {w i position db} : w.members i = some (.handling position) →
      Txn.Step X.system w.db (.commit i) db →
      Step X w (.tx (.commit i)) { w.put i (some (.ready position)) with db := db }
  | rejected {w i position message db q e} : w.members i = some (.handling position) →
      w.message? position = some message → Txn.Step X.system w.db (.rollback i) db →
      db.answers = (q, .error e) :: w.db.answers → X.rejected e = true →
      Step X w (.tx (.rollback i)) { w.put i (some (.rejecting position)) with
        db := db, sends := ⟨message, position⟩ :: w.sends }
  /-- `failed …, retrying` -/
  | failed {w i position db q e} : w.members i = some (.handling position) → Txn.Step X.system w.db (.rollback i) db →
      db.answers = (q, .error e) :: w.db.answers → X.rejected e = false →
      Step X w (.tx (.rollback i)) { w.put i (some (.ready position)) with db := db }
  | aborted {w i position db} : w.members i = some (.handling position) → Txn.Step X.system w.db (.abort i) db →
      Step X w (.tx (.abort i)) { w.put i (some (.ready position)) with db := db }
  | env {w db} : Txn.Step X.system w.db .env db → Step X w (.tx .env) { w with db := db }
  | other {w i e db} : w.members i = none → (∃ q, e = .begin i q) ∨ e = .commit i ∨ e = .rollback i ∨ e = .abort i →
      Txn.Step X.system w.db e db → Step X w (.tx e) { w with db := db }
  | skip {w i position message} : w.members i = some (.ready position) → w.message? position = some message →
      X.read message = .skipped → Step X w (.skip i) (w.put i (some (.ready position.next)))
  /-- `JSON.parse` throws, or the schema refuses the shape. -/
  | malformed {w i position message} : w.members i = some (.ready position) → w.message? position = some message →
      X.read message = .rejected →
      Step X w (.malformed i) { w.put i (some (.rejecting position)) with sends := ⟨message, position⟩ :: w.sends }
  | land {w letter} : letter ∈ w.sends → Step X w (.land letter) { w with deadLetters := letter :: w.deadLetters }
  | acknowledge {w i position message} : w.members i = some (.rejecting position) → w.message? position = some message →
      ⟨message, position⟩ ∈ w.deadLetters → Step X w (.acknowledge i) (w.put i (some (.ready position.next)))
  /-- The send fails, and with it the message. -/
  | fail {w i position} : w.members i = some (.rejecting position) →
      Step X w (.fail i) (w.put i (some (.ready position)))
  /-- The automatic commit of what a member has done. -/
  | commit {w i member} : w.members i = some member → Step X w (.commit i) { w with
      committed := Function.update w.committed member.position.partition member.position.offset }

end MarketplaceApi.Kafka

import MarketplaceApi.Transition.Run
import Mathlib.Logic.Function.Basic

/-!
# The cache service

One key of `redis-cache` with its stampede lock, and the callers of `getOrLoad` on it. Every
Redis command, load and wait is a step of its own; a value is what JSON keeps of it.
-/
namespace MarketplaceApi.Cache

def lockTtlMs : Nat := 5000
def waitTimeoutMs : Nat := 5000
def pollIntervalMs : Nat := 50

/-- The key `lock:<key>`, with the time its `PX` runs out. -/
structure Lock where
  token : String
  expiresAt : Nat
deriving DecidableEq

/-- Why a call of `getOrLoad` is rejected: the error of its load or that of a Redis command. -/
inductive Failure (E : Type) where
  | load (error : E)
  | redis
deriving DecidableEq

abbrev Outcome (V E : Type) := Except (Failure E) V

/-- A caller runs `loadAndStore` as the owner of a lock or, past its deadline, without one. -/
inductive Entry where
  | owner (lock : Lock)
  | late (deadline : Nat)
deriving DecidableEq

/-- Where a caller of `getOrLoad` stands. -/
inductive Caller (V E : Type) where
  /-- before its first `GET` -/
  | reading
  /-- the first `GET` found nothing -/
  | missed
  /-- at the test of the loop, since when -/
  | testing (deadline since : Nat)
  /-- about to send `SET NX` -/
  | locking (deadline since : Nat)
  | sleeping (deadline wakes : Nat)
  /-- about to `GET` again -/
  | polling (deadline since : Nat)
  | loading (entry : Entry)
  | storing (entry : Entry) (value : V)
  /-- about to send `DELEX`, with the outcome that `finally` lets through -/
  | releasing (lock : Lock) (outcome : Outcome V E)
  | done (outcome : Outcome V E)

/-- The commands that write. -/
inductive Command (V : Type) where
  | setNx (token : String)
  | set (value : V)
  | delex (token : String)

/-- `loads` are the callers that have started a load, `results` what loads came to, `drawn`
the tokens and who drew them, `lost` the commands whose callers were told they failed. -/
structure World (V E : Type) where
  clock : Nat
  value : Option V
  lock : Option Lock
  callers : Nat → Caller V E
  loads : List Nat
  results : List (Nat × Except E V)
  drawn : List (String × Nat)
  lost : List (Command V)

inductive Event (V E : Type) where
  | tick (time : Nat)
  | read (i : Nat)
  | enter (i : Nat)
  | turn (i : Nat)
  | giveUp (i : Nat)
  | acquire (i : Nat) (token : String)
  | refuse (i : Nat) (token : String)
  | wake (i : Nat)
  | poll (i : Nat)
  | load (i : Nat) (result : Except E V)
  | store (i : Nat)
  | release (i : Nat)
  | faultRead (i : Nat)
  | faultLock (i : Nat) (token : String)
  | faultStore (i : Nat)
  | faultRelease (i : Nat)
  | land (command : Command V)
  | expireLock
  | drop

variable {V E : Type}

/-- The caller whose step it is. -/
def Event.caller : Event V E → Option Nat
  | tick _ | land _ | expireLock | drop => none
  | read i | enter i | turn i | giveUp i | acquire i _ | refuse i _ | wake i | poll i | load i _ | store i | release i
  | faultRead i | faultLock i _ | faultStore i | faultRelease i => some i

/-- What `loadAndStore` came to leaves the `try` of an owner through its `finally`. -/
def Entry.leave (outcome : Outcome V E) : Entry → Caller V E
  | owner lock => .releasing lock outcome
  | late _ => .done outcome

/-- How a caller goes on with the outcome of its load. -/
def Entry.resolve (entry : Entry) : Except E V → Caller V E
  | .ok value => .storing entry value
  | .error error => entry.leave (.error (.load error))

namespace World

def start : World V E := ⟨0, none, none, fun _ => .reading, [], [], [], []⟩

def put (w : World V E) (i : Nat) (caller : Caller V E) : World V E :=
  { w with callers := Function.update w.callers i caller }

/-- A `GET`: a value that is there ends the call. -/
def get (w : World V E) (i : Nat) (otherwise : Caller V E) : World V E :=
  w.put i (w.value.elim otherwise fun value => .done (.ok value))

/-- `SET lock:<key> token NX PX 5000` -/
def setNx (w : World V E) (token : String) : Option Lock :=
  if w.lock.isSome then w.lock else some ⟨token, w.clock + lockTtlMs⟩

/-- `DELEX lock:<key> IFEQ token` -/
def delex (w : World V E) (token : String) : Option Lock :=
  if w.lock.any fun lock => lock.token = token then none else w.lock

def draw (w : World V E) (token : String) (i : Nat) : World V E := { w with drawn := w.drawn ++ [(token, i)] }

/-- Redis runs a command. -/
def execute (w : World V E) : Command V → World V E
  | .setNx token => { w with lock := w.setNx token }
  | .set value => { w with value := some value }
  | .delex token => { w with lock := w.delex token }

def lose (w : World V E) (command : Command V) : World V E := { w with lost := w.lost ++ [command] }

/-- No caller has drawn the token yet. -/
def Fresh (w : World V E) (token : String) : Prop := ∀ p ∈ w.drawn, p.1 ≠ token

instance (w : World V E) (token : String) : Decidable (w.Fresh token) :=
  inferInstanceAs (Decidable (∀ p ∈ w.drawn, p.1 ≠ token))

end World

/-- A command that fails has its effect at that moment, later or never. The value may go at any time
by its expiry, by eviction or by `delete`, the lock from its expiry on. -/
inductive Step (w : World V E) : Event V E → World V E → Prop
  | tick {time : Nat} : w.clock ≤ time → Step w (.tick time) { w with clock := time }
  | read {i : Nat} : w.callers i = .reading → Step w (.read i) (w.get i .missed)
  | enter {i : Nat} : w.callers i = .missed →
      Step w (.enter i) (w.put i (.testing (w.clock + waitTimeoutMs) w.clock))
  | turn {i deadline since : Nat} : w.callers i = .testing deadline since → w.clock < deadline →
      Step w (.turn i) (w.put i (.locking deadline w.clock))
  | giveUp {i deadline since : Nat} : w.callers i = .testing deadline since → deadline ≤ w.clock →
      Step w (.giveUp i) { w.put i (.loading (.late deadline)) with loads := w.loads ++ [i] }
  | acquire {i deadline since : Nat} {token : String} : w.callers i = .locking deadline since → w.Fresh token →
      w.lock = none → Step w (.acquire i token)
        { (w.draw token i).put i (.loading (.owner ⟨token, w.clock + lockTtlMs⟩)) with
          lock := w.setNx token, loads := w.loads ++ [i] }
  | refuse {i deadline since : Nat} {token : String} : w.callers i = .locking deadline since → w.Fresh token →
      w.lock.isSome → Step w (.refuse i token)
        { (w.draw token i).put i (.sleeping deadline (w.clock + pollIntervalMs)) with lock := w.setNx token }
  | wake {i deadline wakes : Nat} : w.callers i = .sleeping deadline wakes → wakes ≤ w.clock →
      Step w (.wake i) (w.put i (.polling deadline w.clock))
  | poll {i deadline since : Nat} : w.callers i = .polling deadline since →
      Step w (.poll i) (w.get i (.testing deadline w.clock))
  | load {i : Nat} {entry : Entry} {result : Except E V} : w.callers i = .loading entry →
      Step w (.load i result) { w.put i (entry.resolve result) with results := w.results ++ [(i, result)] }
  | store {i : Nat} {entry : Entry} {value : V} : w.callers i = .storing entry value →
      Step w (.store i) { w.put i (entry.leave (.ok value)) with value := some value }
  | release {i : Nat} {lock : Lock} {outcome : Outcome V E} : w.callers i = .releasing lock outcome →
      Step w (.release i) { w.put i (.done outcome) with lock := w.delex lock.token }
  | faultRead {i : Nat} : (w.callers i = .reading ∨ ∃ deadline since, w.callers i = .polling deadline since) →
      Step w (.faultRead i) (w.put i (.done (.error .redis)))
  | faultLock {i deadline since : Nat} {token : String} : w.callers i = .locking deadline since → w.Fresh token →
      Step w (.faultLock i token) (((w.draw token i).put i (.done (.error .redis))).lose (.setNx token))
  | faultStore {i : Nat} {entry : Entry} {value : V} : w.callers i = .storing entry value →
      Step w (.faultStore i) ((w.put i (entry.leave (.error .redis))).lose (.set value))
  | faultRelease {i : Nat} {lock : Lock} {outcome : Outcome V E} : w.callers i = .releasing lock outcome →
      Step w (.faultRelease i) ((w.put i (.done (.error .redis))).lose (.delex lock.token))
  | land {command : Command V} {before after : List (Command V)} : w.lost = before ++ command :: after →
      Step w (.land command) { w.execute command with lost := before ++ after }
  | expireLock {lock : Lock} : w.lock = some lock → lock.expiresAt ≤ w.clock →
      Step w .expireLock { w with lock := none }
  | drop : Step w .drop { w with value := none }

end MarketplaceApi.Cache

import MarketplaceApi.Txn.Interleaving

/-!
# Transactions that are tried again

`TransactionalAdapterTypeOrmWithRetry`: every call runs its callback in a transaction, and again in a new one
after a deadlock or a serialization failure. Any number of calls run beside each other.
-/
namespace MarketplaceApi.Db

open Txn

def DEADLOCK_ERROR_CODES : List String := ["40P01", "40001"]

structure RetryTransactionOptions where
  maxAttempts : Nat

/-- The options of `DBModule`. -/
def DBModule.options : RetryTransactionOptions := ⟨10⟩

/-- What a call throws: an error of its callback, or a `QueryFailedError` with the code of its driver. -/
inductive Failure (E : Type) where
  | callback (e : E)
  | query (code : Option String)

def deadlockErrorCode {E : Type} : Failure E → Option String
  | .callback _ => none
  | .query none => none
  | .query (some code) => if code ∈ DEADLOCK_ERROR_CODES then some code else none

/-- A call of `wrapWithTransaction`. -/
inductive Call (E R Q : Type) where
  | idle
  | running (q : Q) (attempt : Nat)
  | sleeping (q : Q) (attempt : Nat)
  | returned (q : Q) (r : R)
  | failed (q : Q) (failure : Failure E) (attempt : Nat)

/-- The `catch` of `retryTransactionOnDeadlock`. -/
def caught {E R Q : Type} (options : RetryTransactionOptions) (q : Q) (attempt : Nat) (failure : Failure E) :
    Call E R Q :=
  if deadlockErrorCode failure = none ∨ attempt ≥ options.maxAttempts then .failed q failure attempt
  else .sleeping q attempt

/-- `history` is what was committed, in the order of the commits. -/
structure World (K S E R Q : Type) where
  db : Config K S E R Q
  calls : Nat → Call E R Q
  history : List (Nat × Q × R)

inductive Event (Q : Type) where
  | call (i : Nat) (q : Q)
  | statement (i : Nat)
  | committed (i : Nat)
  | lost (i : Nat) (code : Option String)
  | thrown (i : Nat)
  | aborted (i : Nat) (code : Option String)
  | retry (i : Nat)
  | env

variable {K S E R Q : Type}

def World.start (s : S) : World K S E R Q := ⟨.start s, fun _ => .idle, []⟩

def World.put (w : World K S E R Q) (i : Nat) (call : Call E R Q) (db : Config K S E R Q) : World K S E R Q :=
  { w with db := db, calls := Function.update w.calls i call }

inductive Step (Y : System K S E R Q) (options : RetryTransactionOptions) :
    World K S E R Q → Event Q → World K S E R Q → Prop
  | call {w i q db} : w.calls i = .idle → Txn.Step Y w.db (.begin i q) db →
      Step Y options w (.call i q) (w.put i (.running q 1) db)
  | statement {w i db} : Txn.Step Y w.db (.statement i) db → Step Y options w (.statement i) { w with db := db }
  | committed {w i q n db r} : w.calls i = .running q n → Txn.Step Y w.db (.commit i) db →
      db.answers = (q, .ok r) :: w.db.answers →
      Step Y options w (.committed i) { w.put i (.returned q r) db with history := w.history ++ [(i, q, r)] }
  /-- The connection is lost before the answer to `COMMIT` arrives. -/
  | lost {w i q n db r code} : w.calls i = .running q n → Txn.Step Y w.db (.commit i) db →
      db.answers = (q, .ok r) :: w.db.answers → deadlockErrorCode (.query code : Failure E) = none →
      Step Y options w (.lost i code)
        { w.put i (caught options q n (.query code)) db with history := w.history ++ [(i, q, r)] }
  | thrown {w i q n db e} : w.calls i = .running q n → Txn.Step Y w.db (.rollback i) db →
      db.answers = (q, .error e) :: w.db.answers →
      Step Y options w (.thrown i) (w.put i (caught options q n (.callback e)) db)
  | aborted {w i q n db code} : w.calls i = .running q n → Txn.Step Y w.db (.abort i) db →
      Step Y options w (.aborted i code) (w.put i (caught options q n (.query code)) db)
  | retry {w i q n db} : w.calls i = .sleeping q n → Txn.Step Y w.db (.begin i q) db →
      Step Y options w (.retry i) (w.put i (.running q (n + 1)) db)
  | env {w db} : Txn.Step Y w.db .env db → Step Y options w .env { w with db := db }

/-- The committed state is what the callbacks of the history make of the first, in this order. A locking statement
acts on what the commits before left; a plain read may have seen any state from `b` to there, as at READ COMMITTED. -/
inductive Serial (Y : System K S E R Q) (s₀ : S) : List (Nat × Q × R) → S → Prop
  | start : Serial Y s₀ [] s₀
  | commit {history s s' b i q r} : Serial Y s₀ history s → Y.allowed b q → Y.isolation.le b s →
      Exec Y.isolation b (Y.handler q) s s' (.ok r) → Serial Y s₀ (history ++ [(i, q, r)]) s'
  | env {history s s'} : Serial Y s₀ history s → Y.env s s' → Serial Y s₀ history s'

/-- A call that returned, or that lost the answer to its commit. -/
def Call.Ended (call : Call E R Q) (q : Q) (r : R) : Prop :=
  call = .returned q r ∨ ∃ code n, call = .failed q (.query code) n ∧ deadlockErrorCode (.query code : Failure E) = none

end MarketplaceApi.Db

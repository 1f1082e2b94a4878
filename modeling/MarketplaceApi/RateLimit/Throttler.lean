import MarketplaceApi.RateLimit.Window
import MarketplaceApi.Transition.Run

/-!
# The throttler's storage

One key of `RedisThrottlerStorage`: the sorted set its script works on, the script, and the
record `increment` makes of the reply. Redis runs the calls of all pods one after the other.
-/
namespace MarketplaceApi.RateLimit

structure Hit where
  score : Nat
  member : String
deriving DecidableEq, Repr

/-- The order of a sorted set: by score, and by member among equal scores. -/
def Hit.before (a b : Hit) : Bool := a.score < b.score || (a.score == b.score && decide (a.member < b.member))

structure SortedSet where
  hits : List Hit
  expiresAt : Option Nat
deriving DecidableEq, Repr

namespace SortedSet

/-- A key that does not exist. -/
def absent : SortedSet := ⟨[], none⟩

/-- `ZREMRANGEBYSCORE key -inf max`. A set that becomes empty is deleted, its expiry with it. -/
def zremrangebyscore (key : SortedSet) (max : Int) : SortedSet :=
  let hits := key.hits.filter fun hit => decide (max < hit.score)
  if hits = [] then absent else { key with hits }

def zcard (key : SortedSet) : Nat := key.hits.length

def place (hit : Hit) : List Hit → List Hit
  | [] => [hit]
  | head :: rest => if hit.before head then hit :: head :: rest else head :: place hit rest

/-- `ZADD` of a member that is there already moves it. -/
def zadd (key : SortedSet) (score : Nat) (member : String) : SortedSet :=
  { key with hits := place ⟨score, member⟩ (key.hits.filter fun hit => decide (hit.member ≠ member)) }

def pexpireat (key : SortedSet) (at_ : Nat) : SortedSet := { key with expiresAt := some at_ }

/-- `ZRANGE key 0 0 WITHSCORES`. -/
def oldest (key : SortedSet) : Option Hit := key.hits.head?

/-- No hit of the key has the member. -/
def Fresh (key : SortedSet) (member : String) : Prop := ∀ hit ∈ key.hits, hit.member ≠ member

instance (key : SortedSet) (member : String) : Decidable (key.Fresh member) :=
  inferInstanceAs (Decidable (∀ hit ∈ key.hits, hit.member ≠ member))

end SortedSet

/-- The script's clock in milliseconds; `TIME` replies with seconds and the microseconds beyond them. -/
def now (time : Nat) : Nat := time / 1000000 * 1000 + time % 1000000 / 1000

structure Reply where
  allowed : Nat
  totalHits : Nat
  windowLeftMs : Int
deriving DecidableEq, Repr

/-- `slidingWindowScript`; it fails where it takes the score of a hit that is not there. -/
def slidingWindowScript (key : SortedSet) (window limit time : Nat) (member : String) : SortedSet × Option Reply :=
  let kept := key.zremrangebyscore ((now time : Int) - window)
  if kept.zcard < limit then
    let added := (kept.zadd (now time) member).pexpireat (now time + window)
    (added, added.oldest.map fun oldest => ⟨1, added.zcard, (oldest.score : Int) + window - now time⟩)
  else
    (kept, kept.oldest.map fun oldest => ⟨0, kept.zcard, (oldest.score : Int) + window - now time⟩)

structure ThrottlerStorageRecord where
  totalHits : Nat
  timeToExpire : Int
  isBlocked : Bool
  timeToBlockExpire : Int
deriving DecidableEq, Repr

/-- `Math.max(1, Math.ceil(ms / 1000))`. -/
def windowLeftSeconds (windowLeftMs : Int) : Int := max 1 ((windowLeftMs + 999) / 1000)

def Reply.toRecord (reply : Reply) : ThrottlerStorageRecord where
  totalHits := if reply.allowed = 1 then reply.totalHits else reply.totalHits + 1
  timeToExpire := windowLeftSeconds reply.windowLeftMs
  isBlocked := reply.allowed = 0
  timeToBlockExpire := if reply.allowed = 0 then windowLeftSeconds reply.windowLeftMs else 0

/-- `increment`, with the member it drew. -/
def increment (key : SortedSet) (ttl limit time : Nat) (member : String) :
    SortedSet × Option ThrottlerStorageRecord :=
  let (key, reply) := slidingWindowScript key ttl limit time member
  (key, reply.map Reply.toRecord)

/-- The key, the time of the last command in microseconds, and when calls were let through. -/
structure World where
  clock : Nat
  key : SortedSet
  allowed : List Nat

def World.start : World := ⟨0, .absent, []⟩

inductive Event
  | call (time : Nat) (member : String)
  | expire (time : Nat)

def World.call (w : World) (window limit time : Nat) (member : String) : World where
  clock := time
  key := (increment w.key window limit time member).1
  allowed := w.allowed ++
    if (increment w.key window limit time member).2.any fun record => !record.isBlocked then [now time] else []

/-- A call draws a member no other hit has; Redis may drop the key at any time from its expiry on. -/
inductive Step (window limit : Nat) (w : World) : Event → World → Prop
  | call {time : Nat} {member : String} :
      w.clock ≤ time → w.key.Fresh member → Step window limit w (.call time member) (w.call window limit time member)
  | expire {time at_ : Nat} :
      w.clock ≤ time → w.key.expiresAt = some at_ → at_ ≤ now time →
      Step window limit w (.expire time) { w with clock := time, key := .absent }

theorem now_eq (time : Nat) : now time = time / 1000 := by
  unfold now
  omega

theorem now_mono {time time' : Nat} (h : time ≤ time') : now time ≤ now time' := by
  rw [now_eq, now_eq]
  exact Nat.div_le_div_right h

namespace SortedSet
variable {key : SortedSet} {hit : Hit} {hits : List Hit}

theorem hits_zremrangebyscore (key : SortedSet) (max : Int) :
    (key.zremrangebyscore max).hits = key.hits.filter fun hit => decide (max < hit.score) := by
  unfold zremrangebyscore
  dsimp only
  split
  · rename_i hempty
    exact hempty.symm
  · rfl

theorem expiresAt_zremrangebyscore {max : Int} {at_ : Nat} (h : (key.zremrangebyscore max).expiresAt = some at_) :
    key.expiresAt = some at_ := by
  unfold zremrangebyscore at h
  dsimp only at h
  split at h
  · cases h
  · exact h

/-- A hit with the highest score is placed after all lower ones. -/
theorem scores_place (hsorted : hits.Pairwise fun a b => a.score ≤ b.score)
    (hle : ∀ other ∈ hits, other.score ≤ hit.score) :
    (place hit hits).map Hit.score = hits.map Hit.score ++ [hit.score] := by
  induction hits with
  | nil => rfl
  | cons head rest ih =>
    obtain ⟨hhead, hrest⟩ := List.pairwise_cons.mp hsorted
    unfold place
    split
    · rename_i hbefore
      -- the hit goes before one of its own score, so every score from there on is the same
      have hscore : hit.score ≤ head.score := by
        have h := hbefore
        simp only [Hit.before, Bool.or_eq_true, Bool.and_eq_true, decide_eq_true_eq, beq_iff_eq] at h
        omega
      have hall : ∀ score ∈ (head :: rest).map Hit.score, score = hit.score := by
        intro score hmem
        obtain ⟨other, hother, rfl⟩ := List.mem_map.mp hmem
        have htop := hle other hother
        have hfloor : head.score ≤ other.score := by
          rcases List.mem_cons.mp hother with rfl | hin
          · exact Nat.le_refl _
          · exact hhead other hin
        omega
      rw [List.map_cons, List.eq_replicate_of_mem hall, ← List.replicate_succ, List.replicate_succ']
    · rw [List.map_cons, ih hrest fun other hin => hle other (List.mem_cons_of_mem _ hin)]
      rfl

end SortedSet

end MarketplaceApi.RateLimit

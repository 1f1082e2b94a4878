import Mathlib.Data.List.Nodup
import Mathlib.Logic.Function.Basic

/-!
# Tables of the identity context

`Identity` and `IdentitySession` with the columns that signing in, refreshing and revoking
read or write, and the database clock. A token hash names one session, by construction.
-/
namespace MarketplaceApi.Identity

abbrev Uuid := Nat

abbrev TokenHash := Nat

structure IdentitySession where
  identityId : Nat
  familyId : Uuid
  tokenHash : TokenHash
  expiresAt : Nat
  usedAt : Option Nat
  revokedAt : Option Nat
  createdAt : Nat
  deriving DecidableEq

/-- `identities id` is `some deleted` for an existing row. -/
structure Tables where
  identities : Nat → Option Bool
  sessions : List IdentitySession
  clock : Nat
  tokenHash_unique : (sessions.map IdentitySession.tokenHash).Nodup

/-- The session can still be exchanged or revoked. -/
def IdentitySession.live (x : IdentitySession) : Bool := x.usedAt.isNone && x.revokedAt.isNone

def Tables.find (s : Tables) (tokenHash : TokenHash) : Option IdentitySession :=
  s.sessions.find? fun x => x.tokenHash = tokenHash

def Tables.family (s : Tables) (familyId : Uuid) : List IdentitySession :=
  s.sessions.filter fun x => x.familyId = familyId

/-- An update of session rows that keeps their token hashes. -/
def Tables.update (s : Tables) (g : IdentitySession → IdentitySession)
    (h : ∀ x, (g x).tokenHash = x.tokenHash) : Tables where
  identities := s.identities
  sessions := s.sessions.map g
  clock := s.clock
  tokenHash_unique := by
    have he : (s.sessions.map g).map IdentitySession.tokenHash =
        s.sessions.map IdentitySession.tokenHash := by
      rw [List.map_map]
      exact List.map_congr_left fun x _ => h x
    rw [he]
    exact s.tokenHash_unique

theorem find_eq_none {s : Tables} {tokenHash : TokenHash} (h : s.find tokenHash = none)
    {x : IdentitySession} (hx : x ∈ s.sessions) : x.tokenHash ≠ tokenHash := by
  have he := List.find?_eq_none.mp h x hx
  simpa using he

def Tables.insert (s : Tables) (x : IdentitySession) (h : s.find x.tokenHash = none) : Tables where
  identities := s.identities
  sessions := x :: s.sessions
  clock := s.clock
  tokenHash_unique := by
    rw [List.map_cons, List.nodup_cons]
    refine ⟨fun hin => ?_, s.tokenHash_unique⟩
    obtain ⟨y, hy, he⟩ := List.mem_map.mp hin
    exact find_eq_none h hy he

def Tables.addIdentity (s : Tables) (id : Nat) : Tables :=
  { s with identities := Function.update s.identities id (some false) }

@[simp] theorem addIdentity_self (s : Tables) (id : Nat) :
    (s.addIdentity id).identities id = some false := Function.update_self ..

theorem addIdentity_other (s : Tables) {id i : Nat} (h : i ≠ id) :
    (s.addIdentity id).identities i = s.identities i := Function.update_of_ne h ..

section
variable {s : Tables} {x y : IdentitySession} {tokenHash : TokenHash} {familyId : Uuid}

theorem find_mem (h : s.find tokenHash = some x) : x ∈ s.sessions ∧ x.tokenHash = tokenHash :=
  ⟨List.mem_of_find?_eq_some h, by simpa using List.find?_some h⟩

/-- A token hash names at most one row. -/
theorem eq_of_tokenHash (hx : x ∈ s.sessions) (hy : y ∈ s.sessions) (h : x.tokenHash = y.tokenHash) :
    x = y := List.inj_on_of_nodup_map s.tokenHash_unique hx hy h

theorem mem_family : x ∈ s.family familyId ↔ x ∈ s.sessions ∧ x.familyId = familyId := by
  simp [Tables.family]

theorem family_update (g : IdentitySession → IdentitySession) (h : ∀ x, (g x).tokenHash = x.tokenHash)
    (hf : ∀ x, (g x).familyId = x.familyId) :
    (s.update g h).family familyId = (s.family familyId).map g := by
  simp only [Tables.family, Tables.update, List.filter_map, Function.comp_def, hf]

theorem find_update (g : IdentitySession → IdentitySession) (h : ∀ x, (g x).tokenHash = x.tokenHash) :
    (s.update g h).find tokenHash = (s.find tokenHash).map g := by
  simp only [Tables.find, Tables.update, List.find?_map, Function.comp_def, h]

theorem family_insert (h : s.find x.tokenHash = none) : (s.insert x h).family familyId =
    if x.familyId = familyId then x :: s.family familyId else s.family familyId := by
  unfold Tables.family Tables.insert
  rw [List.filter_cons]
  simp only [decide_eq_true_eq]

theorem find_insert (h : s.find x.tokenHash = none) : (s.insert x h).find tokenHash =
    if x.tokenHash = tokenHash then some x else s.find tokenHash := by
  unfold Tables.find Tables.insert
  rw [List.find?_cons]
  by_cases he : x.tokenHash = tokenHash
  · simp [he]
  · simp [he]

end

end MarketplaceApi.Identity

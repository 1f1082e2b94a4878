import MarketplaceApi.Denylist.Revoked

/-!
# After a logout

Without `ACCESS_DENYLIST_FAIL_OPEN`, and with one clock for all pods. The signature check and the `EXISTS`
are two moments, and a key lives exactly as long as a token: between the two, both can run out.
-/
namespace MarketplaceApi.Denylist

open Auth
open Identity (Tables plainHash)
open AccessTokenDenylistService (isDenied isFamilyDenied)
open Transition (Run)

/-- What holds of a family whose revocation was answered, and of the others: a token is accepted only where the
signature was checked in the token's time and Redis asked after it, and refused as revoked only in a revoked family. -/
structure Ended {PrivateKey PublicKey Signature : Type} (jose : Jose PrivateKey PublicKey Signature)
    (hash : Identity.Uuid → Int) (w : World Signature) : Prop where
  accepted : ∀ issued n checkedAt tr' w' answer w'', issued.token.payload.sid ∈ w.finished →
    (∀ denied, w.calls n ≠ .asked issued checkedAt denied) → Run (Step jose hash false 0 0) w tr' w' →
    (w'.calls n).Verifies issued checkedAt → Step jose hash false 0 0 w' (.verdict n answer) w'' →
    isFamilyDenied false answer = some false →
    ∃ p ∈ tr', p.2 = .lookup n ∧ p.1.calls n = .checking issued checkedAt ∧
      checkedAt < issued.signedAt + lifetime ∧ issued.signedAt + lifetime ≤ p.1.now
  refused : ∀ issued n checkedAt answer w', (w.calls n).Verifies issued checkedAt →
    Step jose hash false 0 0 w (.verdict n answer) w' → isFamilyDenied false answer = some true →
    Revoked w.db issued.token.payload.sid

section
variable {PrivateKey PublicKey Signature : Type} {jose : Jose PrivateKey PublicKey Signature}
  {hash : Identity.Uuid → Int} {s : Tables} {now : Nat} {w : World Signature}
  {tr : List (World Signature × Event Signature)}

/-- Where Redis must answer, a revocation that was answered has its key. -/
theorem Invariant.recorded {ahead behind : Nat} (h : Invariant jose false ahead behind w) {f : Uuid}
    (hfinished : f ∈ w.finished) : w.denied f ≠ none := by
  rcases (h.finished f hfinished).2 with hdenied | ⟨hopen, _⟩
  · exact hdenied
  · cases hopen

end

end MarketplaceApi.Denylist

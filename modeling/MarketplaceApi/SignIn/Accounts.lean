import MarketplaceApi.SignIn.Exchange

/-!
# No account is taken over

What every run of sign-ins, sign-ups, links and registrations keeps of the identities and of the
external accounts they are bound to.
-/
namespace MarketplaceApi.SignIn

open Txn
open Transition (Run)

/-- After a run: whose tokens a callback gets, how a binding can come about, that it stays, how often an attempt
is used, and that only a request which succeeds leaves rows. -/
structure KeepsAccounts (argon2 : String → String → Bool) (dummyHash : String) (tr : List (World × Event))
    (w : World) : Prop where
  tokens : TokensBound w
  created : ∀ ev w' account, Step argon2 dummyHash w ev w' → .account account ∈ w'.db.db.rows →
    .account account ∉ w.db.db.rows → BoundBy argon2 dummyHash tr w ev w' account
  kept : ∀ tr' w' account, Run (Step argon2 dummyHash) w tr' w' → .account account ∈ w.db.db.rows →
    .account account ∈ w'.db.db.rows
  unique : ∀ account other, .account account ∈ w.db.db.rows → .account other ∈ w.db.db.rows →
    other.provider = account.provider →
    other.subject = account.subject ∨ other.identityId = account.identityId → other = account
  exchanged : ∀ state, tr.countP (takes state) ≤ 1 ∧ tr.countP (exchanges state) ≤ 1
  succeeded : ∀ ev w' row, Step argon2 dummyHash w ev w' → row ∈ w'.db.db.rows → row ∉ w.db.db.rows →
    ∃ n q token, ev = .tx (.commit n) ∧ Runs (w.calls n) q ∧ w'.db.answers = (q, .ok token) :: w.db.answers

section
variable {argon2 : String → String → Bool} {dummyHash : String} {s : Tables} {w w' : World} {ev : Event}
  {tr : List (World × Event)}

/-- Rows come of a commit only, and the request of a commit succeeds. -/
theorem Invariant.succeeded (h : Invariant argon2 dummyHash tr w) (hs : Step argon2 dummyHash w ev w') {row : Row}
    (hnew : row ∈ w'.db.db.rows) (hold : row ∉ w.db.db.rows) :
    ∃ n q token, ev = .tx (.commit n) ∧ Runs (w.calls n) q ∧ w'.db.answers = (q, .ok token) :: w.db.answers := by
  cases hs with
  | @tx e db hstep _ =>
    rcases hstep.serial h.coherent with ⟨hdb, _⟩ | ⟨n, t, _, token, rfl, hi, _, _, _, ha⟩ |
      ⟨_, _, _, _, _, _, _, _, _, _, hdb, _⟩ | ⟨_, henv, _⟩
    · exact absurd hnew (hdb ▸ hold)
    · exact ⟨n, t.request, token, rfl, h.runs n t hi, ha⟩
    · exact absurd hnew (hdb ▸ hold)
    · have heq : db.db.rows = w.db.db.rows := henv
      exact absurd hnew (heq ▸ hold)
  | _ => exact absurd hnew hold

/-- In every run, however the four flows, the browsers and Redis interleave. -/
theorem accounts_kept (hs : Sound s) (hr : Run (Step argon2 dummyHash) (World.start s) tr w) :
    KeepsAccounts argon2 dummyHash tr w := by
  have h := invariant_run hs hr
  constructor
  · exact tokensBound_run hs hr
  · exact fun _ _ _ hstep hnew hold => h.binding hstep hnew hold
  · exact fun _ _ _ hr' haccount => rows_kept_run hs hr hr' _ haccount
  · exact fun _ _ haccount hother => h.sound.unique_account haccount hother
  · exact fun state => ⟨taken_once hs hr state, (exchanged_run hs hr).once⟩
  · exact fun _ _ _ hstep hnew hold => h.succeeded hstep hnew hold

end

/-- A sign-up: the binding is the commit's of the callback that presented the attempt, and the tokens are of
the identity it is bound to. -/
theorem accounts_kept_signUp : ∃ tr w w', Run (Step (fun _ _ => false) "") (World.start emptyTables) tr w ∧
    Step (fun _ _ => false) "" w (.tx (.commit 1)) w' ∧ .account sampleAccount ∉ w.db.db.rows ∧
    .account sampleAccount ∈ w'.db.db.rows ∧
    BoundBy (fun _ _ => false) "" tr w (.tx (.commit 1)) w' sampleAccount ∧ TokensBound w' := by
  obtain ⟨tr, w, w', hr, hstep, hnew, hold, _⟩ := sign_up
  exact ⟨tr, w, w', hr, hstep, hold, hnew, (accounts_kept sound_empty hr).created _ _ _ hstep hnew hold,
    (accounts_kept sound_empty (hr.snoc hstep)).tokens⟩

end MarketplaceApi.SignIn

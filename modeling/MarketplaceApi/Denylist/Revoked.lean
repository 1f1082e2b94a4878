import MarketplaceApi.Denylist.Service

/-!
# A revoked family is over

After the answer of a logout or of a detected reuse no token of the family is signed, and one signed
before is refused until it is older than any token lives. Nobody else's tokens are refused.
-/
namespace MarketplaceApi.Denylist

open Auth
open Identity (Lock Tables Failure Status Request system plainHash Closed Commit commit_of_exec closed_run)
open AccessTokenDenylistService (deniedTtlSeconds isDenied isFamilyDenied)
open Transition (Run)

/-- A committed request revoked the family. -/
def Revoked (c : Database) (familyId : Uuid) : Prop :=
  ∃ q status start, (q, .ok status) ∈ c.answers ∧ q.Revokes familyId start

section
variable {hash : Identity.Uuid → Int} {c c' : Database} {e : Txn.Event Request} {familyId : Uuid} {n : Nat}

theorem Revoked.step (h : Revoked c familyId) (hs : Txn.Step (system hash) c e c') : Revoked c' familyId := by
  obtain ⟨q, status, start, hin, hq⟩ := h
  exact ⟨q, status, start, hs.answers_suffix.subset hin, hq⟩

theorem revokes_of_next {Signature : Type} {q : Request} (h : (next q : Call Signature) = .revoked familyId) :
    ∃ start, q.Revokes familyId start := by
  cases q with
  | reuse start presented f =>
    cases h
    exact ⟨start, rfl, rfl⟩
  | logout start presented f =>
    cases h
    exact ⟨start, rfl, rfl⟩
  | refresh _ _ _ _ => cases h
  | signIn _ _ _ _ => cases h

/-- A revocation that committed goes on to `denyFamily`. -/
theorem revoked_of_commit {Signature : Type} (hs : Txn.Step (system hash) c (.commit n) c')
    (h : ((c.txs n).elim .idle fun t => next t.request : Call Signature) = .revoked familyId) :
    Revoked c' familyId := by
  generalize he : Txn.Event.commit n = e at hs
  cases hs with
  | @commit i t r hi hrest =>
    cases he
    rw [hi] at h
    obtain ⟨start, hq⟩ := revokes_of_next h
    exact ⟨_, r, start, List.mem_cons_self, hq⟩
  | _ => cases he

/-- The commit of a token pair is of a family that was not closed. -/
theorem not_closed_of_pair {q : Request} {tokenHash : Identity.TokenHash} (hc : Txn.Coherent (system hash) c)
    (hs : Txn.Step (system hash) c (.commit n) c') (ha : c'.answers = (q, .ok (.pair tokenHash)) :: c.answers)
    (hx : ∃ x ∈ c'.db.sessions, x.tokenHash = tokenHash ∧ x.familyId = familyId) : ¬ Closed c.db familyId := by
  intro hclosed
  obtain ⟨x, hmem, hhash, hfamily⟩ := hx
  have hself : ∀ {a : Request × Except Failure Status}, c.answers ≠ a :: c.answers := by
    intro a heq
    have hlength := congrArg List.length heq
    simp at hlength
  rcases hs.serial hc with ⟨_, hsame, _⟩ | ⟨i, t, b, r, _, _, _, _, he, hok⟩ |
    ⟨_, _, _, _, _, _, _, _, _, _, _, herror⟩ | ⟨heq, _, _⟩
  · exact hself (hsame.symm.trans ha)
  · rw [ha] at hok
    obtain ⟨rfl, rfl⟩ : r = .pair tokenHash ∧ t.request = q := by
      have hhead := (List.cons.inj hok).1
      simp only [Prod.mk.injEq, Except.ok.injEq] at hhead
      exact ⟨hhead.2.symm, hhead.1.symm⟩
    have hcommit := commit_of_exec he
    generalize hq : t.request = q' at hcommit
    generalize hs' : c'.db = s' at hcommit hmem
    cases hcommit with
    | @rotated start readAt presented s y next' hfind hlive hcreated hfree =>
      have hnew : x = Identity.newSession start y.identityId y.familyId next' :=
        Identity.eq_of_tokenHash hmem List.mem_cons_self hhash
      have hfam : y.familyId = familyId := by rw [← hfamily, hnew]; rfl
      have hdead := hclosed.dead y (Identity.mem_family.mpr ⟨(Identity.find_mem hfind).1, hfam⟩)
      rw [hlive] at hdead
      cases hdead
    | @signedIn start identityId f s next' hempty hfree =>
      have hnew : x = Identity.newSession start identityId f next' :=
        Identity.eq_of_tokenHash hmem List.mem_cons_self hhash
      have hfam : f = familyId := by rw [← hfamily, hnew]; rfl
      exact hclosed.nonempty (hfam ▸ hempty)
    | @signedUp start identityId f s next' hempty hfree =>
      have hnew : x = Identity.newSession start identityId f next' :=
        Identity.eq_of_tokenHash hmem List.mem_cons_self hhash
      have hfam : f = familyId := by rw [← hfamily, hnew]; rfl
      exact hclosed.nonempty (hfam ▸ hempty)
  · rw [ha] at herror
    cases (List.cons.inj herror).1
  · cases heq

end

/-- Milliseconds from the signature of a token until no verifier takes it, and a key in Redis lives as long. -/
abbrev lifetime : Nat := deniedTtlSeconds * 1000

section
variable {PrivateKey PublicKey Signature : Type} {hash : Identity.Uuid → Int}
  {jose : Jose PrivateKey PublicKey Signature} {failOpen : Bool} {ahead behind now : Nat} {s : Tables}
  {w w' w'' : World Signature} {ev : Event Signature}
  {tr tr' : List (World Signature × Event Signature)} {issued : Issued Signature}

/-- A token that passes the signature check is not much older than it may get. -/
theorem age_of_verified {keys : List (Jwk PublicKey)} {clock : Nat} {claims : AccessTokenClaims}
    (hsigned : Signed jose ahead issued) (hclock : now ≤ clock + behind)
    (h : AccessTokenVerifierService.verifySignature jose keys issued.token clock = some claims) :
    now < issued.signedAt + lifetime + ahead + behind := by
  obtain ⟨privateKey, keyId, identity, tokenId, familyId, signClock, hsign, htoken⟩ := hsigned
  have hlive := verifySignature_live h
  rw [htoken] at hlive
  change (TokenService.payload identity tokenId familyId signClock).expired clock = false at hlive
  have hexpired : ¬ (signClock / 1000 + 905 ≤ clock / 1000) := by
    intro hle
    have hdead : (TokenService.payload identity tokenId familyId signClock).expired clock = true := expired_iff.mpr hle
    rw [hlive] at hdead
    cases hdead
  have hlifetime : lifetime = 905000 := rfl
  omega

def Call.Proper (ahead behind : Nat) (db : Database) (denied : DeniedFamilies) (tokens : List (Issued Signature)) :
    Call Signature → Prop
  | .revoked familyId => Revoked db familyId
  | .denying familyId => Revoked db familyId
  | .denied familyId => Revoked db familyId ∧ denied familyId ≠ none
  | .checking issued checkedAt => issued ∈ tokens ∧ checkedAt < issued.signedAt + lifetime + ahead + behind
  | .asked issued _ denied => denied = true → Revoked db issued.token.payload.sid
  | _ => True

/-- A key in Redis outlives every token of its family. -/
structure Invariant (jose : Jose PrivateKey PublicKey Signature) (failOpen : Bool) (ahead behind : Nat)
    (w : World Signature) : Prop where
  signed : ∀ i ∈ w.tokens, Signed jose ahead i ∧ i.signedAt ≤ w.now
  outlives : ∀ f expiresAt, w.denied f = some expiresAt → Revoked w.db f ∧
    ∀ i ∈ w.tokens, i.token.payload.sid = f → i.signedAt + lifetime ≤ expiresAt
  late : ∀ f ∈ w.late, Revoked w.db f
  calls : ∀ n, (w.calls n).Proper ahead behind w.db w.denied w.tokens
  finished : ∀ f ∈ w.finished, Revoked w.db f ∧ (w.denied f ≠ none ∨ failOpen = true ∧ f ∈ w.unrecorded)

theorem run_db (hr : Run (Step jose hash failOpen ahead behind) (World.start s now) tr w) :
    ∃ tr', Run (Txn.Step (system hash)) (Txn.Config.start s) tr' w.db := by
  induction hr with
  | nil => exact ⟨[], .nil⟩
  | snoc _ hstep ih =>
    obtain ⟨tr', hr'⟩ := ih
    cases hstep with
    | tx hdb _ => exact ⟨_, hr'.snoc hdb⟩
    | issue hdb _ _ _ _ => exact ⟨_, hr'.snoc hdb⟩
    | _ => exact ⟨tr', hr'⟩

/-- The transactions alone forbid a token of a revoked family. -/
theorem issued_unrevoked {tr' : List (Database × Txn.Event Request)}
    (hr : Run (Txn.Step (system hash)) (Txn.Config.start s) tr' w.db) {n : Nat}
    (hstep : Step jose hash failOpen ahead behind w (.issue n issued) w') :
    ¬ Revoked w.db issued.token.payload.sid := by
  intro ⟨q, status, start, hin, hq⟩
  have hclosed := closed_run hr q status _ start hq hin
  cases hstep with
  | issue hdb ha _ _ hx => exact not_closed_of_pair (Txn.coherent_run hr) hdb ha hx hclosed

section
variable {hash : Identity.Uuid → Int} {db db' : Database} {denied denied' : DeniedFamilies}
  {tokens tokens' : List (Issued Signature)} {calls : Nat → Call Signature}

theorem Call.Proper.mono {call : Call Signature} (h : call.Proper ahead behind db denied tokens)
    (hrevoked : ∀ f, Revoked db f → Revoked db' f) (hdenied : ∀ f, denied f ≠ none → denied' f ≠ none)
    (htokens : tokens ⊆ tokens') : call.Proper ahead behind db' denied' tokens' := by
  cases call with
  | revoked f => exact hrevoked f h
  | denying f => exact hrevoked f h
  | denied f => exact ⟨hrevoked f h.1, hdenied f h.2⟩
  | checking i t => exact ⟨htokens h.1, h.2⟩
  | asked i t b => exact fun hb => hrevoked _ (h hb)
  | _ => trivial

theorem proper_update (h : ∀ m, (calls m).Proper ahead behind db denied tokens) (call : Call Signature)
    (hcall : call.Proper ahead behind db denied tokens) (n m : Nat) :
    (Function.update calls n call m).Proper ahead behind db denied tokens := by
  by_cases hm : m = n
  · subst hm
    rwa [Function.update_self]
  · rw [Function.update_of_ne hm]
    exact h m

theorem proper_settle {e : Txn.Event Request} (h : ∀ m, (w.calls m).Proper ahead behind db denied tokens)
    (hs : Txn.Step (system hash) w.db e db) (m : Nat) : (settle w e m).Proper ahead behind db denied tokens := by
  cases e with
  | begin n q => exact proper_update h .transacting trivial n m
  | commit n =>
    apply proper_update h
    cases ht : w.db.txs n with
    | none => trivial
    | some t =>
      have hrevoked : ∀ f, (next t.request : Call Signature) = .revoked f → Revoked db f := by
        intro f hf
        have hlast : ((w.db.txs n).elim .idle fun t => next t.request : Call Signature) = .revoked f := by
          rw [ht]
          exact hf
        exact revoked_of_commit hs hlast
      show (next t.request : Call Signature).Proper ahead behind db denied tokens
      cases hq : t.request with
      | reuse start presented f => exact hrevoked f (by rw [hq]; rfl)
      | logout start presented f => exact hrevoked f (by rw [hq]; rfl)
      | refresh _ _ _ _ => trivial
      | signIn _ _ _ _ => trivial
  | rollback n => exact proper_update h .idle trivial n m
  | _ => exact h m

end

theorem set_self (denied : DeniedFamilies) (now : Nat) (f : Uuid) :
    AccessTokenDenylistService.set denied now f f = some (now + lifetime) := Function.update_self ..

theorem set_ne_none {denied : DeniedFamilies} {f g : Uuid} (h : denied g ≠ none) :
    AccessTokenDenylistService.set denied now f g ≠ none := by
  unfold AccessTokenDenylistService.set
  by_cases hg : g = f
  · simp [hg]
  · rwa [Function.update_of_ne hg]

/-- A key set now outlives the tokens signed so far. -/
theorem Invariant.outlives_set (h : Invariant jose failOpen ahead behind w) {f : Uuid} (hf : Revoked w.db f)
    (g : Uuid) (expiresAt : Nat) (hg : AccessTokenDenylistService.set w.denied w.now f g = some expiresAt) :
    Revoked w.db g ∧ ∀ i ∈ w.tokens, i.token.payload.sid = g → i.signedAt + lifetime ≤ expiresAt := by
  unfold AccessTokenDenylistService.set at hg
  by_cases heq : g = f
  · subst heq
    rw [Function.update_self] at hg
    cases hg
    refine ⟨hf, fun i hi _ => ?_⟩
    have hsigned := (h.signed i hi).2
    exact Nat.add_le_add_right hsigned lifetime
  · rw [Function.update_of_ne heq] at hg
    exact h.outlives g expiresAt hg

theorem Invariant.revoked_of_denies (h : Invariant jose failOpen ahead behind w) {n : Nat} {f : Uuid}
    (hcall : (w.calls n).denies = some f) : Revoked w.db f := by
  have hproper := h.calls n
  generalize w.calls n = call at hcall hproper
  cases call with
  | revoked g => cases hcall; exact hproper
  | denying g => cases hcall; exact hproper
  | denied g => cases hcall; exact hproper.1
  | _ => cases hcall

theorem Invariant.late_leaves (h : Invariant jose failOpen ahead behind w) (n : Nat) :
    ∀ f ∈ (w.calls n).leaves ++ w.late, Revoked w.db f := by
  intro f hf
  rcases List.mem_append.mp hf with hf | hf
  · apply h.revoked_of_denies (n := n)
    generalize w.calls n = call at hf
    cases call with
    | denying g => rw [List.mem_singleton.mp hf]; rfl
    | _ => cases hf
  · exact h.late f hf

theorem invariant_start : Invariant jose failOpen ahead behind (World.start s now) where
  signed := List.forall_mem_nil _
  outlives _ _ h := by cases h
  late := List.forall_mem_nil _
  calls _ := trivial
  finished := List.forall_mem_nil _

theorem invariant_step (h : Invariant jose failOpen ahead behind w)
    (hnew : ∀ n i, ev = .issue n i → ¬ Revoked w.db i.token.payload.sid)
    (hs : Step jose hash failOpen ahead behind w ev w') : Invariant jose failOpen ahead behind w' := by
  obtain ⟨hsigned, houtlives, hlate, hcalls, hfinished⟩ := id h
  cases hs with
  | tick hle =>
    exact ⟨fun i hi => ⟨(hsigned i hi).1, Nat.le_trans (hsigned i hi).2 hle⟩, houtlives, hlate, hcalls, hfinished⟩
  | @tx e db hdb _ =>
    have hrevoked : ∀ f, Revoked w.db f → Revoked db f := fun f hf => hf.step hdb
    refine ⟨hsigned, fun f e he => ⟨hrevoked f (houtlives f e he).1, (houtlives f e he).2⟩,
      fun f hf => hrevoked f (hlate f hf), ?_, fun f hf => ⟨hrevoked f (hfinished f hf).1, (hfinished f hf).2⟩⟩
    apply proper_settle (fun m => ?_) hdb
    exact (hcalls m).mono hrevoked (fun _ h => h) (List.Subset.refl _)
  | @issue n db q tokenHash i hdb _ hsign hle _ =>
    have hrevoked : ∀ f, Revoked w.db f → Revoked db f := fun f hf => hf.step hdb
    refine ⟨fun j hj => ?_, fun f e he => ⟨hrevoked f (houtlives f e he).1, fun j hj hf => ?_⟩,
      fun f hf => hrevoked f (hlate f hf), ?_, fun f hf => ⟨hrevoked f (hfinished f hf).1, (hfinished f hf).2⟩⟩
    · rcases List.mem_cons.mp hj with rfl | hj
      · exact ⟨hsign, hle⟩
      · exact hsigned j hj
    · rcases List.mem_cons.mp hj with rfl | hj
      · exact absurd (hf ▸ (houtlives f e he).1) (hnew n j rfl)
      · exact (houtlives f e he).2 j hj hf
    · apply proper_settle (fun m => ?_) hdb
      exact (hcalls m).mono hrevoked (fun _ h => h) (List.subset_cons_self _ _)
  | @deny n f hcall =>
    have hf : Revoked w.db f := h.revoked_of_denies (n := n) (by rw [hcall]; rfl)
    exact ⟨hsigned, houtlives, hlate, proper_update hcalls (.denying f) hf n, hfinished⟩
  | @set n f hcall =>
    have hf : Revoked w.db f := h.revoked_of_denies (n := n) (by rw [hcall]; rfl)
    refine ⟨hsigned, h.outlives_set hf, hlate, ?_, fun g hg => ⟨(hfinished g hg).1, ?_⟩⟩
    · apply proper_update fun m => (hcalls m).mono (fun _ h => h) (fun _ => set_ne_none) (List.Subset.refl _)
      exact ⟨hf, by simp [AccessTokenDenylistService.set]⟩
    · exact (hfinished g hg).2.imp_left set_ne_none
  | @finish n f hcall =>
    refine ⟨hsigned, houtlives, hlate, proper_update hcalls .idle trivial n, fun g hg => ?_⟩
    rcases List.mem_cons.mp hg with rfl | hg
    · have hproper := hcalls n
      rw [hcall] at hproper
      exact ⟨hproper.1, Or.inl hproper.2⟩
    · exact hfinished g hg
  | @giveUp n f hcall =>
    refine ⟨hsigned, houtlives, h.late_leaves n, proper_update hcalls .idle trivial n, fun g hg => ?_⟩
    cases failOpen with
    | false => exact hfinished g hg
    | true =>
      rcases List.mem_cons.mp hg with rfl | hg
      · exact ⟨h.revoked_of_denies hcall, Or.inr ⟨rfl, List.mem_cons_self⟩⟩
      · exact ⟨(hfinished g hg).1, (hfinished g hg).2.imp_right fun hu => ⟨rfl, List.mem_cons_of_mem _ hu.2⟩⟩
  | @crash n _ => exact ⟨hsigned, houtlives, h.late_leaves n, proper_update hcalls .idle trivial n, hfinished⟩
  | @land f hf =>
    refine ⟨hsigned, h.outlives_set (hlate f hf), fun g hg => hlate g (List.mem_of_mem_erase hg), fun m => ?_,
      fun g hg => ⟨(hfinished g hg).1, (hfinished g hg).2.imp_left set_ne_none⟩⟩
    exact (hcalls m).mono (fun _ h => h) (fun _ => set_ne_none) (List.Subset.refl _)
  | @check n i keys clock claims _ hi hclock hverified =>
    have hage := age_of_verified (hsigned i hi).1 hclock hverified
    exact ⟨hsigned, houtlives, hlate, proper_update hcalls (.checking i w.now) ⟨hi, hage⟩ n, hfinished⟩
  | @lookup n i checkedAt _ =>
    refine ⟨hsigned, houtlives, hlate, proper_update hcalls _ ?_ n, hfinished⟩
    intro hdenied
    obtain ⟨expiresAt, hkey, _⟩ := Option.any_eq_true _ _ |>.mp hdenied
    exact (houtlives _ _ hkey).1
  | @verdict n i checkedAt answer _ _ =>
    exact ⟨hsigned, houtlives, hlate, proper_update hcalls .idle trivial n, hfinished⟩

theorem invariant_run (hr : Run (Step jose hash failOpen ahead behind) (World.start s now) tr w) :
    Invariant jose failOpen ahead behind w := by
  induction hr with
  | nil => exact invariant_start
  | snoc hr hstep ih =>
    obtain ⟨_, hdb⟩ := run_db hr
    apply invariant_step ih (fun n i heq => ?_) hstep
    subst heq
    exact issued_unrevoked hdb hstep

/-- An answer is what the `EXISTS` of this verification found. -/
theorem asked_of_verdict {n checkedAt : Nat} {found : Bool} (hcall : (w.calls n).Verifies issued checkedAt)
    (hstep : Step jose hash failOpen ahead behind w (.verdict n (some found)) w') :
    w.calls n = .asked issued checkedAt found := by
  cases hstep with
  | verdict _ hanswer =>
    have hasked := hanswer found rfl
    rcases hcall with hcall | ⟨_, hcall⟩
    · cases hcall.symm.trans hasked
    · cases hcall.symm.trans hasked
      exact hasked

theorem Invariant.revoked_of_asked (h : Invariant jose failOpen ahead behind w) {n checkedAt : Nat}
    (hcall : w.calls n = .asked issued checkedAt true) : Revoked w.db issued.token.payload.sid := by
  have hproper := h.calls n
  rw [hcall] at hproper
  exact hproper rfl

/-- A verification refuses for the denylist only tokens of a revoked family. -/
theorem revoked_of_refused (hr : Run (Step jose hash failOpen ahead behind) (World.start s now) tr w)
    {n checkedAt : Nat} {answer : Option Bool} (hcall : (w.calls n).Verifies issued checkedAt)
    (hstep : Step jose hash failOpen ahead behind w (.verdict n answer) w')
    (hrefused : isFamilyDenied failOpen answer = some true) : Revoked w.db issued.token.payload.sid := by
  cases answer with
  | none => cases failOpen <;> cases hrefused
  | some found =>
    obtain rfl : found = true := Option.some_inj.mp hrefused
    exact (invariant_run hr).revoked_of_asked (asked_of_verdict hcall hstep)

/-- A transaction of one call is open. -/
def World.transact (w : World Signature) (n : Nat) (db : Database) : World Signature :=
  { w with db := db, calls := Function.update w.calls n .transacting }

/-- A request whose transaction runs alone, up to its commit. -/
theorem transact_run (jose : Jose PrivateKey PublicKey Signature) (failOpen : Bool) (ahead behind : Nat)
    {w : World Signature} {n : Nat} {q : Request} {status : Status} {s' : Tables}
    {as : List (Request × Except Failure Status)} (hdb : w.db = ⟨s, fun _ => none, as⟩) (hidle : w.calls n = .idle)
    (hallowed : Identity.Allowed s q) (hrun : (Identity.handler hash q).run s = .ok (s', status)) :
    ∃ tr c, Run (Step jose hash failOpen ahead behind) w tr (w.transact n c) ∧ c.answers = as ∧
      Txn.Step (system hash) c (.commit n) ⟨s', fun _ => none, (q, .ok status) :: as⟩ ∧
      settle (w.transact n c) (.commit n) = Function.update w.calls n (next q) := by
  obtain ⟨tr, last, hr, hstatements, _, hanswers, hcommit, t, ht, hq⟩ :=
    Txn.process_commit (Y := system hash) n q s as hrun
  have hbegin : Step jose hash failOpen ahead behind w (.tx (.begin n q))
      (w.transact n (Txn.Config.set ⟨s, fun _ => none, as⟩ n (some ⟨q, Identity.handler hash q, id, []⟩))) := by
    apply Step.tx
    · rw [hdb]
      exact .begin rfl hallowed
    · intro m q' heq
      cases heq
      exact hidle
  have halways : Transition.Always (fun _ e => e = .statement n) tr := hstatements
  obtain ⟨tr', hlifted⟩ : ∃ tr', Run (Step jose hash failOpen ahead behind)
      (w.transact n (Txn.Config.set ⟨s, fun _ => none, as⟩ n (some ⟨q, Identity.handler hash q, id, []⟩))) tr'
      (w.transact n last) :=
    hr.lift (w.transact n) Event.tx halways fun hstatement hstep => by
      subst hstatement
      exact .tx hstep fun _ _ heq => by cases heq
  refine ⟨_, last, (Run.nil.snoc hbegin).append hlifted, hanswers, hcommit, ?_⟩
  show Function.update (Function.update w.calls n .transacting) n ((last.txs n).elim .idle fun t => next t.request) = _
  rw [ht, Function.update_idem, Option.elim, hq]

end

def sampleJose : Jose Unit Unit Unit where
  importPKCS8 _ := none
  importSPKI _ := none
  publicKeyOf _ := ()
  calculateJwkThumbprint _ := ""
  sign _ _ := ()
  verifies _ _ _ := true
  verifies_sign _ _ := rfl

/-- A token of family 5, from the refresh of a session that logged in before. -/
def sampleIssued : Issued Unit := ⟨TokenService.accessToken sampleJose () "" ⟨1, .user, none, none⟩ 7 5 0, 0⟩

def refreshed : Tables := (Identity.consumed Identity.loggedIn 10 0).insert (Identity.newSession 0 1 5 ⟨11, 100⟩) rfl

def sampleRefresh : Request := .refresh 0 0 10 ⟨11, 100⟩

def sampleLogout : Request := .logout 0 11 5

/-- The refresh has answered with the token. -/
def issuedWorld : World Unit where
  db := ⟨refreshed, fun _ => none, [(sampleRefresh, .ok (.pair 11))]⟩
  now := 0
  denied _ := none
  late := []
  tokens := [sampleIssued]
  calls _ := .idle
  finished := []
  unrecorded := []

/-- A verifying pod is at most five seconds behind, and refuses a token that Redis does not answer for. -/
abbrev SampleStep := Step sampleJose plainHash false 0 5000

/-- The refresh answers, whatever the clocks of the verifying pods show. -/
theorem refresh_run (behind : Nat) : ∃ tr w,
    Run (Step sampleJose plainHash false 0 behind) (World.start Identity.loggedIn 0) tr w ∧
      Step sampleJose plainHash false 0 behind w (.issue 0 sampleIssued) issuedWorld := by
  have hallowed : Identity.Allowed Identity.loggedIn sampleRefresh := rfl
  have hrun : (Identity.handler plainHash sampleRefresh).run Identity.loggedIn = .ok (refreshed, .pair 11) := rfl
  obtain ⟨tr, c, hr, hanswers, hcommit, hsettle⟩ := transact_run sampleJose false 0 behind
    (w := World.start Identity.loggedIn 0) (n := 0) rfl rfl hallowed hrun
  refine ⟨tr, _, hr, ?_⟩
  have hsigned : Signed sampleJose 0 sampleIssued := ⟨(), "", _, 7, 5, 0, Nat.le_refl 0, rfl⟩
  have hissue := @Step.issue _ _ _ sampleJose plainHash false 0 behind ((World.start Identity.loggedIn 0).transact 0 c)
    0 _ sampleRefresh 11 sampleIssued hcommit (congrArg (List.cons _) hanswers.symm) hsigned (Nat.le_refl 0)
    ⟨_, List.mem_cons_self, rfl, rfl⟩
  rw [hsettle.trans (Function.update_eq_self 0 _)] at hissue
  exact hissue

/-- The session logs out, while other calls may be under way. -/
theorem logout_from (behind : Nat) {w : World Unit} (hdb : w.db = issuedWorld.db) (hidle : w.calls 2 = .idle) :
    ∃ tr w', Run (Step sampleJose plainHash false 0 behind) w tr w' ∧ w'.calls = w.calls ∧ w'.now = w.now ∧
      w'.tokens = w.tokens ∧ w'.finished = 5 :: w.finished ∧ w'.denied 5 = some (w.now + lifetime) := by
  have hallowed : Identity.Allowed refreshed sampleLogout := ⟨rfl, _, List.mem_cons_self, rfl, rfl⟩
  have hrun : (Identity.handler plainHash sampleLogout).run refreshed =
    .ok (Identity.revoked refreshed 5 0, .revoked) := rfl
  obtain ⟨tr, c, hr, hanswers, hcommit, hsettle⟩ := transact_run sampleJose false 0 behind (n := 2)
    hdb hidle hallowed hrun
  have hrevoked := hr.snoc (.tx hcommit fun _ _ heq => by cases heq)
  rw [hsettle] at hrevoked
  have hput : ∀ (calls : Nat → Call Unit) (call : Call Unit), Function.update calls 2 call 2 = call :=
    fun calls call => Function.update_self 2 call calls
  have hdenying := hrevoked.snoc (@Step.deny _ _ _ sampleJose plainHash false 0 behind _ 2 5
    (hput w.calls (next sampleLogout)))
  have hdenied := hdenying.snoc (@Step.set _ _ _ sampleJose plainHash false 0 behind _ 2 5
    (hput (Function.update w.calls 2 (next sampleLogout)) (.denying 5)))
  have hfinished := hdenied.snoc (@Step.finish _ _ _ sampleJose plainHash false 0 behind _ 2 5
    (hput (Function.update (Function.update w.calls 2 (next sampleLogout)) 2 (.denying 5)) (.denied 5)))
  refine ⟨_, _, hfinished, ?_, rfl, rfl, rfl, set_self w.denied w.now 5⟩
  simp only [World.put, World.transact, Function.update_idem]
  rw [← hidle]
  exact Function.update_eq_self 2 _

/-- The session logs out. -/
theorem logout_run (behind : Nat) : ∃ tr w,
    Run (Step sampleJose plainHash false 0 behind) (World.start Identity.loggedIn 0) tr w ∧
      w.calls 1 = .idle ∧ w.now = 0 ∧ w.tokens = [sampleIssued] ∧ 5 ∈ w.finished ∧
      w.denied 5 = some (0 + lifetime) := by
  obtain ⟨tr, _, hr, hissue⟩ := refresh_run behind
  obtain ⟨tr', w, hr', hcalls, hnow, htokens, hfinished, hdenied⟩ := logout_from behind (w := issuedWorld) rfl rfl
  refine ⟨_, w, (hr.snoc hissue).append hr', ?_, hnow, htokens, ?_, hdenied⟩
  · rw [hcalls]
    rfl
  · rw [hfinished]
    exact List.mem_cons_self

/-- A verification at `now`, by a pod whose clock shows `clock`, up to the `EXISTS`. -/
theorem lookup_run (behind : Nat) {w : World Unit} (hidle : w.calls 1 = .idle) (htokens : w.tokens = [sampleIssued])
    (clock : Nat) (hclock : w.now ≤ clock + behind)
    (hverified : AccessTokenVerifierService.verifySignature sampleJose [⟨(), "", "ES256", "sig"⟩]
      sampleIssued.token clock = some ⟨1, 7, 5, .user, none, none⟩) :
    ∃ tr w', Run (Step sampleJose plainHash false 0 behind) w tr w' ∧
      tr.map Prod.snd = [.check 1 sampleIssued, .lookup 1] ∧
      w'.calls 1 = .asked sampleIssued w.now (isDenied w.denied w.now 5) := by
  have hin : sampleIssued ∈ w.tokens := by simp [htokens]
  have hcheck : Step sampleJose plainHash false 0 behind w (.check 1 sampleIssued)
      (w.put 1 (.checking sampleIssued w.now)) := .check hidle hin hclock hverified
  have hlookup := @Step.lookup _ _ _ sampleJose plainHash false 0 behind (w.put 1 (.checking sampleIssued w.now)) 1
    sampleIssued w.now rfl
  exact ⟨_, _, (Run.nil.snoc hcheck).snoc hlookup, rfl, rfl⟩

theorem revoked_of_refused_sample : ∃ tr w,
    Run SampleStep (World.start Identity.loggedIn 0) tr w ∧
      w.calls 1 = .asked sampleIssued 0 true ∧ Revoked w.db 5 := by
  obtain ⟨tr, w, hr, hidle, hnow, htokens, _, hdenied⟩ := logout_run 5000
  obtain ⟨tr', w', hr', _, hasked⟩ := lookup_run 5000 hidle htokens 0 (by omega) (by decide)
  have htrue : isDenied w.denied w.now 5 = true := by
    rw [isDenied, hdenied, hnow]
    rfl
  rw [hnow, ← hnow, htrue, hnow] at hasked
  have hverdict : SampleStep w' (.verdict 1 (some true)) (w'.put 1 .idle) := by
    refine .verdict (Or.inr ⟨true, hasked⟩) fun b hb => ?_
    rw [← Option.some_inj.mp hb]
    exact hasked
  exact ⟨_, w', hr.append hr', hasked, revoked_of_refused (hr.append hr') (Or.inr ⟨true, hasked⟩) hverdict rfl⟩

end MarketplaceApi.Denylist

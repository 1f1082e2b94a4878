import MarketplaceApi.Auth.Pods
import MarketplaceApi.Transition.Run

/-!
# Rotating the signing key

While no reload takes effect after a younger one, every pod verifies every live token through the
whole rotation. The invariant ties what a pod holds, and what it may still load, to the stage of
the vault.
-/
namespace MarketplaceApi.Auth

open Reload
open Transition (Run Always)

variable {PrivateKey PublicKey Signature : Type} {jose : Jose PrivateKey PublicKey Signature}

/-- Key texts with distinct kids, the signers among them. -/
def Readable (signers : List (KeyPair jose)) (blocks : List String) : Prop :=
  ∃ ks : List (KeyPair jose), blocks = ks.map KeyPair.publicPem ∧ (ks.map KeyPair.kid).Nodup ∧ ks ≠ [] ∧
    ∀ s ∈ signers, s ∈ ks

/-- A key set that verifies what the signers sign. -/
def Verifying (signers : List (KeyPair jose)) (keySet : List (Jwk PublicKey)) : Prop :=
  ∃ ks : List (KeyPair jose), keySet = ks.map KeyPair.jwk ∧ (ks.map KeyPair.kid).Nodup ∧ ∀ s ∈ signers, s ∈ ks

/-- What holds of a pod at every stage. -/
structure PodInv (signers : List (KeyPair jose)) (used : List String) (p : Pod jose) : Prop where
  keyId : p.tokens.keyId = jose.kid p.tokens.privateKey
  verifying : Verifying signers p.keys.keySet
  signing : ∃ s ∈ signers, p.tokens.privateKey = s.privateKey
  freshPublic : Fresh (Readable signers) p.publicReads
  freshPrivate : Fresh (fun pem => ∃ s ∈ signers, pem = s.privatePem) p.privateReads
  publicReads : ∀ r ∈ p.publicReads, ∃ ks : List (KeyPair jose), r.value = ks.map KeyPair.publicPem ∧ ks ≠ [] ∧
    ∀ kid ∈ ks.map KeyPair.kid, kid ∈ used
  privateReads : ∀ r ∈ p.privateReads, ∃ s : KeyPair jose, r.value = s.privatePem ∧ s.kid ∈ used
  publicLog : ∀ t kids, (t, kids) ∈ p.keys.log → ∀ kid ∈ kids, kid ∈ used
  signingLog : ∀ t kid, (t, .signingKey kid) ∈ p.tokens.log → kid ∈ used

def both (k next : KeyPair jose) : List String := [k.publicPem, next.publicPem]

/-- Between publishing `next` and signing with it. Once a pod has loaded both keys, it can load
nothing else in order. -/
structure Published (k next : KeyPair jose) (p : Pod jose) : Prop where
  ordered : Ordered (fun v v' => v = both k next → v' = both k next) p.publicReads
  publicReads : ∀ r ∈ p.publicReads, r.value = both k next ∨
    ∃ ks : List (KeyPair jose), r.value = ks.map KeyPair.publicPem ∧ ks ≠ [] ∧ next.kid ∉ ks.map KeyPair.kid
  logged : ∀ t, (t, [k.kid, next.kid]) ∈ p.keys.log → p.keys.keySet = [k.jwk, next.jwk] ∧
    Fresh (fun v => v = both k next) p.publicReads
  unsigned : ∀ t, (t, .signingKey next.kid) ∉ p.tokens.log
  privateReads : ∀ r ∈ p.privateReads, r.value ≠ next.privatePem

/-- From signing with `next` to dropping the old key. -/
structure Switched (next : KeyPair jose) (p : Pod jose) : Prop where
  ordered : Ordered (fun v v' => v = next.privatePem → v' = next.privatePem) p.privateReads
  logged : ∀ t, (t, .signingKey next.kid) ∈ p.tokens.log → p.tokens.privateKey = next.privateKey ∧
    Fresh (fun v => v = next.privatePem) p.privateReads

def AtStage (p : Pod jose) : Stage jose → Prop
  | .stable _ => True
  | .published k next => Published k next p
  | .switched _ next => Switched next p

section
variable {signers : List (KeyPair jose)} {used : List String} {p p' : Pod jose} {k next s : KeyPair jose}
  {ks ks' : List (KeyPair jose)} {blocks : List String} {pem : String} {now : Nat} {ev : PodEvent} {stage : Stage jose}

theorem kids_of_pems (h : ks.map KeyPair.publicPem = ks'.map KeyPair.publicPem) :
    ks.map KeyPair.kid = ks'.map KeyPair.kid := by
  have himport := importKeys_pairs ks
  rw [h, importKeys_pairs ks', Option.some.injEq] at himport
  have hkids := congrArg (List.map Jwk.kid) himport
  rw [List.map_map, List.map_map] at hkids
  exact hkids.symm

theorem privateKey_of_pem (h : k.privatePem = s.privatePem) : k.privateKey = s.privateKey := by
  have himport := k.imports
  rw [h, s.imports, Option.some.injEq] at himport
  exact himport.symm

theorem kid_of_privateKey (h : k.privateKey = s.privateKey) : k.kid = s.kid := congrArg jose.kid h

/-- What a pod does while the vault holds the keys of the stage keeps its invariant. -/
theorem PodInv.step (h : PodInv stage.signers used p) (hkeys : ∀ k ∈ stage.keys, k.kid ∈ used)
    (hdistinct : (stage.keys.map KeyPair.kid).Nodup)
    (hs : PodStep (stage.keys.map KeyPair.publicPem) stage.signing.privatePem now p ev p') (ho : p.InOrder ev) :
    PodInv stage.signers used p' := by
  have hne : stage.keys ≠ [] := by cases stage <;> exact List.cons_ne_nil _ _
  have hsub : ∀ s ∈ stage.signers, s ∈ stage.keys := by
    cases stage with
    | stable k => exact fun s hs => hs
    | published k next => exact fun s hs => List.mem_cons.mpr (Or.inl (List.mem_singleton.mp hs))
    | switched k next => exact fun s hs => hs
  have hsigning : stage.signing ∈ stage.signers := by
    cases stage with
    | stable k => exact List.mem_cons_self
    | published k next => exact List.mem_cons_self
    | switched k next => exact List.mem_cons_of_mem _ List.mem_cons_self
  cases hs with
  | readPublicKeys =>
    refine { h with freshPublic := h.freshPublic.start ⟨stage.keys, rfl, hdistinct, hne, hsub⟩, publicReads := ?_ }
    intro r hr
    rcases mem_start.mp hr with hold | rfl
    · exact h.publicReads r hold
    · refine ⟨stage.keys, rfl, hne, fun kid hkid => ?_⟩
      obtain ⟨k, hk, rfl⟩ := List.mem_map.mp hkid
      exact hkeys k hk
  | @loadPublicKeys n r hn =>
    have hr := List.mem_of_getElem? hn
    obtain ⟨ks, hvalue, hnodup, hksne, hin⟩ := h.freshPublic r hr (ho r hn)
    rw [hvalue]
    obtain ⟨hset, hlog⟩ : (JwtVerificationKeysService.refresh jose (ks.map KeyPair.publicPem) now p.keys).keySet = _ ∧
      _ := refresh_pairs hksne
    obtain ⟨ks', hvalue', _, hused⟩ := h.publicReads r hr
    have hkids : ks.map KeyPair.kid = ks'.map KeyPair.kid := kids_of_pems (hvalue.symm.trans hvalue')
    refine { h with
      verifying := ⟨ks, hset, hnodup, hin⟩
      freshPublic := h.freshPublic.finish
      publicReads := fun r hr => ?_
      publicLog := fun t kids hentry kid hkid => ?_ }
    · obtain ⟨r', hr', hsame, _⟩ := mem_finish hr
      rw [← hsame]
      exact h.publicReads r' hr'
    · rcases hlog (t, kids) hentry with hold | hnew
      · exact h.publicLog t kids hold kid hkid
      · cases hnew
        rw [hkids] at hkid
        exact hused kid hkid
  | failPublicKeys =>
    exact { h with
      freshPublic := h.freshPublic.fail
      publicReads := fun r hr => h.publicReads r (mem_fail hr) }
  | readPrivateKey =>
    refine { h with freshPrivate := h.freshPrivate.start ⟨stage.signing, hsigning, rfl⟩, privateReads := ?_ }
    intro r hr
    rcases mem_start.mp hr with hold | rfl
    · exact h.privateReads r hold
    · exact ⟨stage.signing, rfl, hkeys _ (hsub _ hsigning)⟩
  | @loadPrivateKey n r hn =>
    have hr := List.mem_of_getElem? hn
    obtain ⟨s, hs, hvalue⟩ := h.freshPrivate r hr (ho r hn)
    rw [hvalue]
    obtain ⟨hprivate, hkid⟩ : (TokenService.refreshSigningKey jose p.keys.loadedKids s.privatePem now
        p.tokens).privateKey = s.privateKey ∧ _ := refreshSigningKey_pair
    refine { h with
      keyId := refreshSigningKey_keyId h.keyId
      signing := ⟨s, hs, hprivate⟩
      freshPrivate := h.freshPrivate.finish
      privateReads := fun r hr => ?_
      signingLog := fun t kid hentry => ?_ }
    · obtain ⟨r', hr', hsame, _⟩ := mem_finish hr
      rw [← hsame]
      exact h.privateReads r' hr'
    · rcases refreshSigningKey_log hentry with hold | ⟨_, hnew⟩
      · exact h.signingLog t kid hold
      · rw [hnew, hkid]
        exact hkeys s (hsub s hs)
  | failPrivateKey =>
    exact { h with
      freshPrivate := h.freshPrivate.fail
      privateReads := fun r hr => h.privateReads r (mem_fail hr) }

/-- A pod logs a signing key when it takes it over. -/
theorem PodStep.signingLog (hs : PodStep blocks pem now p ev p') {t : Nat} {kid : String}
    (hlog : (t, .signingKey kid) ∈ p'.tokens.log) : (t, .signingKey kid) ∈ p.tokens.log ∨ t = now := by
  cases hs with
  | loadPrivateKey _ => exact (refreshSigningKey_log hlog).imp id And.left
  | _ => exact Or.inl hlog

theorem PodStep.keyId (hs : PodStep blocks pem now p ev p') (h : p.tokens.keyId = jose.kid p.tokens.privateKey) :
    p'.tokens.keyId = jose.kid p'.tokens.privateKey := by
  cases hs with
  | loadPrivateKey _ => exact refreshSigningKey_keyId h
  | _ => exact h

/-- A failed reload leaves both services as they were. -/
theorem PodStep.keeps (hs : PodStep blocks pem now p ev p') (hfails : p.Fails now ev) :
    p'.keys = p.keys ∧ p'.tokens = p.tokens := by
  cases hs with
  | loadPublicKeys hn =>
    have hnone := hfails _ hn
    simp only [JwtVerificationKeysService.refresh, hnone]
    exact ⟨rfl, trivial⟩
  | loadPrivateKey hn =>
    have hnone := hfails _ hn
    simp only [TokenService.refreshSigningKey, hnone]
    exact ⟨trivial, rfl⟩
  | _ => exact ⟨rfl, rfl⟩

theorem Published.step (h : Published k next p) (hinv : PodInv [k] used p) (hkid : k.kid ≠ next.kid)
    (hs : PodStep (both k next) k.privatePem now p ev p') (ho : p.InOrder ev) : Published k next p' := by
  cases hs with
  | readPublicKeys =>
    refine { h with
      ordered := h.ordered.start fun r _ _ => rfl
      publicReads := fun r hr => ?_
      logged := fun t hlog => ⟨(h.logged t hlog).1, (h.logged t hlog).2.start rfl⟩ }
    rcases mem_start.mp hr with hold | rfl
    · exact h.publicReads r hold
    · exact Or.inl rfl
  | @loadPublicKeys n r hn =>
    have hr := List.mem_of_getElem? hn
    refine { h with
      ordered := h.ordered.finish
      publicReads := fun r hr => ?_
      logged := fun t hlog => ?_ }
    · obtain ⟨r', hr', hsame, _⟩ := mem_finish hr
      rw [← hsame]
      exact h.publicReads r' hr'
    · have hboth : r.value = both k next := by
        rcases h.publicReads r hr with hboth | ⟨ks, hvalue, hne, hno⟩
        · exact hboth
        · -- the entry is an old one, and after it only both keys are loaded in order
          simp only [hvalue] at hlog
          rcases (refresh_pairs hne).2 _ hlog with hold | hnew
          · exact (h.logged t hold).2 r hr (ho r hn)
          · have hkids := (Prod.mk.inj hnew).2
            rw [← hkids] at hno
            exact absurd (List.mem_cons_of_mem _ List.mem_cons_self) hno
      have hpems : both k next = [k, next].map KeyPair.publicPem := rfl
      have hset : (JwtVerificationKeysService.refresh jose (both k next) now p.keys).keySet = [k.jwk, next.jwk] := by
        rw [hpems]
        exact (refresh_pairs (List.cons_ne_nil _ _)).1
      rw [hboth]
      exact ⟨hset, (h.ordered.fresh_finish hn).mono fun v hnewer => hnewer hboth⟩
  | failPublicKeys =>
    exact { h with
      ordered := h.ordered.fail
      publicReads := fun r hr => h.publicReads r (mem_fail hr)
      logged := fun t hlog => ⟨(h.logged t hlog).1, (h.logged t hlog).2.fail⟩ }
  | readPrivateKey =>
    refine { h with privateReads := fun r hr => ?_ }
    rcases mem_start.mp hr with hold | rfl
    · exact h.privateReads r hold
    · exact fun heq => hkid (kid_of_privateKey (privateKey_of_pem heq))
  | @loadPrivateKey n r hn =>
    have hr := List.mem_of_getElem? hn
    obtain ⟨s, hs, hvalue⟩ := hinv.freshPrivate r hr (ho r hn)
    rw [List.mem_singleton] at hs
    subst hs
    refine { h with
      unsigned := fun t hlog => ?_
      privateReads := fun r hr => ?_ }
    · simp only [hvalue] at hlog
      rcases refreshSigningKey_log hlog with hold | ⟨_, heq⟩
      · exact h.unsigned t hold
      · rw [refreshSigningKey_pair.2] at heq
        exact hkid heq.symm
    · obtain ⟨r', hr', hsame, _⟩ := mem_finish hr
      rw [← hsame]
      exact h.privateReads r' hr'
  | failPrivateKey => exact { h with privateReads := fun r hr => h.privateReads r (mem_fail hr) }

theorem Switched.step (h : Switched next p) (hinv : PodInv [k, next] used p) (hkid : k.kid ≠ next.kid)
    (hs : PodStep blocks next.privatePem now p ev p') (ho : p.InOrder ev) : Switched next p' := by
  cases hs with
  | readPublicKeys => exact ⟨h.ordered, h.logged⟩
  | loadPublicKeys _ => exact ⟨h.ordered, h.logged⟩
  | failPublicKeys => exact ⟨h.ordered, h.logged⟩
  | readPrivateKey =>
    exact ⟨h.ordered.start fun r _ _ => rfl, fun t hlog => ⟨(h.logged t hlog).1, (h.logged t hlog).2.start rfl⟩⟩
  | @loadPrivateKey n r hn =>
    have hr := List.mem_of_getElem? hn
    have hnext : (∃ t, (t, .signingKey next.kid) ∈
        (TokenService.refreshSigningKey jose p.keys.loadedKids r.value now p.tokens).log) →
        r.value = next.privatePem := by
      rintro ⟨t, hlog⟩
      obtain ⟨s, hs, hvalue⟩ := hinv.freshPrivate r hr (ho r hn)
      rw [hvalue] at hlog
      rcases refreshSigningKey_log hlog with hold | ⟨_, heq⟩
      · exact (h.logged t hold).2 r hr (ho r hn)
      · rw [refreshSigningKey_pair.2] at heq
        rcases List.mem_cons.mp hs with rfl | hs
        · exact absurd heq.symm hkid
        · rw [List.mem_singleton] at hs
          rw [hvalue, hs]
    refine ⟨h.ordered.finish, fun t hlog => ?_⟩
    have hvalue := hnext ⟨t, hlog⟩
    rw [hvalue]
    exact ⟨refreshSigningKey_pair.1, (h.ordered.fresh_finish hn).mono fun v hnewer => hnewer hvalue⟩
  | failPrivateKey =>
    exact ⟨h.ordered.fail, fun t hlog => ⟨(h.logged t hlog).1, (h.logged t hlog).2.fail⟩⟩

end

/-- One more kid in use. -/
theorem PodInv.more {signers : List (KeyPair jose)} {used : List String} {p : Pod jose} {kid : String}
    (h : PodInv signers used p) : PodInv signers (kid :: used) p :=
  { h with
    publicReads := fun r hr => by
      obtain ⟨ks, hvalue, hne, hused⟩ := h.publicReads r hr
      exact ⟨ks, hvalue, hne, fun kid hkid => List.mem_cons_of_mem _ (hused kid hkid)⟩
    privateReads := fun r hr => by
      obtain ⟨s, hvalue, hused⟩ := h.privateReads r hr
      exact ⟨s, hvalue, List.mem_cons_of_mem _ hused⟩
    publicLog := fun t kids hlog kid hkid => List.mem_cons_of_mem _ (h.publicLog t kids hlog kid hkid)
    signingLog := fun t kid hlog => List.mem_cons_of_mem _ (h.signingLog t kid hlog) }

/-- Nothing a pod loads before `next` is generated mentions it. -/
theorem PodInv.published {used : List String} {p : Pod jose} {k next : KeyPair jose} (h : PodInv [k] used p)
    (hfresh : next.kid ∉ used) : Published k next p := by
  have hold : ∀ r ∈ p.publicReads, ∃ ks : List (KeyPair jose), r.value = ks.map KeyPair.publicPem ∧ ks ≠ [] ∧
      next.kid ∉ ks.map KeyPair.kid := by
    intro r hr
    obtain ⟨ks, hvalue, hne, hused⟩ := h.publicReads r hr
    exact ⟨ks, hvalue, hne, fun hin => hfresh (hused _ hin)⟩
  have hother : ∀ r ∈ p.publicReads, r.value ≠ both k next := by
    intro r hr heq
    obtain ⟨ks, hvalue, _, hno⟩ := hold r hr
    have hpems : ks.map KeyPair.publicPem = [k, next].map KeyPair.publicPem := hvalue.symm.trans heq
    have hkids := kids_of_pems hpems
    rw [hkids] at hno
    exact hno (List.mem_cons_of_mem _ List.mem_cons_self)
  refine ⟨?_, fun r hr => Or.inr (hold r hr), fun t hlog => ?_, fun t hlog => ?_, fun r hr heq => ?_⟩
  · exact List.Pairwise.imp_of_mem (fun hr _ _ heq => absurd heq (hother _ hr))
      (List.pairwise_of_forall fun _ _ => trivial)
  · exact absurd (h.publicLog t _ hlog _ (List.mem_cons_of_mem _ List.mem_cons_self)) hfresh
  · exact hfresh (h.signingLog t _ hlog)
  · obtain ⟨s, hvalue, hused⟩ := h.privateReads r hr
    rw [hvalue] at heq
    rw [kid_of_privateKey (privateKey_of_pem heq)] at hused
    exact hfresh hused

/-- A pod that has loaded both keys is ready to sign with either. -/
theorem Published.switched {used : List String} {p : Pod jose} {k next : KeyPair jose} (h : Published k next p)
    (hinv : PodInv [k] used p) (hkid : k.kid ≠ next.kid) {t : Nat} (hlog : (t, [k.kid, next.kid]) ∈ p.keys.log) :
    Switched next p ∧ PodInv [k, next] used p := by
  obtain ⟨hset, hfresh⟩ := h.logged t hlog
  have hnodup : ([k, next].map KeyPair.kid).Nodup := by simpa using hkid
  refine ⟨⟨?_, fun t hlog => absurd hlog (h.unsigned t)⟩, { hinv with
    verifying := ⟨[k, next], hset, hnodup, fun s hs => hs⟩
    signing := ?_
    freshPublic := hfresh.mono fun v hv => ⟨[k, next], hv, hnodup, List.cons_ne_nil _ _, fun s hs => hs⟩
    freshPrivate := hinv.freshPrivate.mono fun v hv => ?_ }⟩
  · exact List.Pairwise.imp_of_mem (fun hr _ _ heq => absurd heq (h.privateReads _ hr))
      (List.pairwise_of_forall fun _ _ => trivial)
  · obtain ⟨s, hs, hkey⟩ := hinv.signing
    exact ⟨s, List.mem_append_left [next] hs, hkey⟩
  · obtain ⟨s, hs, hpem⟩ := hv
    exact ⟨s, List.mem_append_left [next] hs, hpem⟩

/-- A pod that has logged the new signing key no longer needs the old one. -/
theorem Switched.stable {used : List String} {p : Pod jose} {k next : KeyPair jose} (h : Switched next p)
    (hinv : PodInv [k, next] used p) {t : Nat} (hlog : (t, .signingKey next.kid) ∈ p.tokens.log) :
    PodInv [next] used p := by
  obtain ⟨hkey, hfresh⟩ := h.logged t hlog
  have hsub : ∀ s ∈ [next], s ∈ [k, next] := fun s hs => List.mem_cons_of_mem _ hs
  refine { hinv with
    verifying := ?_
    signing := ⟨next, List.mem_cons_self, hkey⟩
    freshPublic := hinv.freshPublic.mono fun v hv => ?_
    freshPrivate := hfresh.mono fun v hv => ⟨next, List.mem_cons_self, hv⟩ }
  · obtain ⟨ks, hset, hnodup, hin⟩ := hinv.verifying
    exact ⟨ks, hset, hnodup, fun s hs => hin s (hsub s hs)⟩
  · obtain ⟨ks, hvalue, hnodup, hne, hin⟩ := hv
    exact ⟨ks, hvalue, hnodup, hne, fun s hs => hin s (hsub s hs)⟩

end MarketplaceApi.Auth

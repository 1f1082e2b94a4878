import MarketplaceApi.Auth.Rotation

/-!
# No token is refused during a rotation

Any number of pods and any number of rotations, each with a key never published before.
-/
namespace MarketplaceApi.Auth

open Reload
open Transition (Run Always Reaches)

variable {PrivateKey PublicKey Signature ι : Type} {jose : Jose PrivateKey PublicKey Signature}

/-- Every pod verifies every token that has not expired. -/
def Verifiable (w : World ι jose) : Prop :=
  ∀ x ∈ w.issued, (x.token jose).payload.expired w.now = false → ∀ i,
    AccessTokenVerifierService.verifySignature jose (w.pods i).keys.keySet (x.token jose) w.now = some x.claims

/-- Every token names the key that signed it. -/
def Named (w : World ι jose) : Prop := ∀ x ∈ w.issued, (x.token jose).header.kid = jose.kid x.privateKey

/-- A reload that fails changes nothing a pod signs or verifies with. -/
def KeepsKeys (w : World ι jose) (ev : Event ι jose) (w' : World ι jose) : Prop :=
  ∀ i e, ev = .pod i e → (w.pods i).Fails w.now e →
    ∀ j, (w'.pods j).keys = (w.pods j).keys ∧ (w'.pods j).tokens = (w.pods j).tokens

/-- No reload takes effect after one of the same secret that read the vault later. -/
def InOrder (w : World ι jose) : Event ι jose → Prop
  | .pod i ev => (w.pods i).InOrder ev
  | _ => True

structure Invariant (w : World ι jose) : Prop where
  pods : ∀ i, PodInv w.stage.signers w.used (w.pods i)
  atStage : ∀ i, AtStage (w.pods i) w.stage
  keys : ∀ k ∈ w.stage.keys, k.kid ∈ w.used
  distinct : (w.stage.keys.map KeyPair.kid).Nodup
  times : ∀ x ∈ w.issued, x.issuedAt ≤ w.now
  live : ∀ x ∈ w.issued, w.now / 1000 < x.issuedAt / 1000 + 905 → ∃ s ∈ w.stage.signers, x.privateKey = s.privateKey
  replaced : ∀ k next, w.stage = .switched k next → ∀ x ∈ w.issued, x.privateKey = k.privateKey →
    ∀ t, (t, .signingKey next.kid) ∈ (w.pods x.pod).tokens.log → x.issuedAt ≤ t

section
variable {w w' : World ι jose} {ev : Event ι jose} {k : KeyPair jose} {now : Nat} {booted : ι → Nat}
  {tr : List (World ι jose × Event ι jose)}

theorem podInv_boot (k : KeyPair jose) (now : Nat) : PodInv [k] [k.kid] (Pod.boot k now) where
  keyId := rfl
  verifying := ⟨[k], rfl, by simp, fun s hs => hs⟩
  signing := ⟨k, List.mem_cons_self, rfl⟩
  freshPublic r hr := by cases hr
  freshPrivate r hr := by cases hr
  publicReads r hr := by cases hr
  privateReads r hr := by cases hr
  publicLog t kids hlog kid hkid := by
    simp only [Pod.boot, List.mem_singleton, Prod.mk.injEq] at hlog
    rwa [hlog.2] at hkid
  signingLog t kid hlog := by
    simp only [Pod.boot, List.mem_singleton, Prod.mk.injEq, SigningLog.signingKey.injEq] at hlog
    rw [hlog.2]
    exact List.mem_cons_self

theorem invariant_start : Invariant (World.start k now booted) where
  pods i := podInv_boot k (booted i)
  atStage _ := trivial
  keys k' hk' := by
    rw [List.mem_singleton.mp hk']
    exact List.mem_cons_self
  distinct := by simp [World.start, Stage.keys]
  times x hx := by cases hx
  live x hx := by cases hx
  replaced k' next hstage := by cases hstage

/-- The live tokens are signed with keys every pod verifies. -/
theorem Invariant.verifiable (h : Invariant w) (hnamed : ∀ x ∈ w.issued, x.keyId = jose.kid x.privateKey) :
    Verifiable w := by
  intro x hx hexpired i
  have hlive : w.now / 1000 < x.issuedAt / 1000 + 905 := by
    have hiff : (x.token jose).payload.expired w.now = true ↔ x.issuedAt / 1000 + 905 ≤ w.now / 1000 := expired_iff
    rw [hexpired] at hiff
    simp only [Bool.false_eq_true, false_iff] at hiff
    omega
  obtain ⟨s, hs, hkey⟩ := h.live x hx hlive
  obtain ⟨ks, hset, hnodup, hin⟩ := (h.pods i).verifying
  have hselect := getKey_pairs hnodup (hin s hs)
  unfold Issued.token
  rw [hset, hnamed x hx, hkey]
  exact verifySignature_accessToken hselect rfl hlive

theorem Invariant.tick (h : Invariant w) (d : Nat) : Invariant { w with now := w.now + d } :=
  { h with
    times := fun x hx => Nat.le_add_right_of_le (h.times x hx)
    live := fun x hx hlive => h.live x hx (by
      change (w.now + d) / 1000 < _ at hlive
      omega) }

/-- Whatever a pod signs, it signs with one of the keys of the stage. -/
theorem Invariant.issue (h : Invariant w) (i : ι) (identity : Identity) (tokenId familyId : Uuid) :
    Invariant { w with issued := ⟨i, (w.pods i).tokens.privateKey, (w.pods i).tokens.keyId, identity, tokenId, familyId,
      w.now⟩ :: w.issued } :=
  { h with
    times := fun x hx => by
      rcases List.mem_cons.mp hx with rfl | hold
      · exact Nat.le_refl _
      · exact h.times x hold
    live := fun x hx hlive => by
      rcases List.mem_cons.mp hx with rfl | hold
      · exact (h.pods i).signing
      · exact h.live x hold hlive
    replaced := fun k next hstage x hx hkey t hlog => by
      rcases List.mem_cons.mp hx with rfl | hold
      · have hat := h.atStage i
        have hkids := h.distinct
        rw [hstage] at hat hkids
        have hnext := (hat.logged t hlog).1
        have hsame : k.kid = next.kid := kid_of_privateKey (hkey.symm.trans hnext)
        simp [Stage.keys, hsame] at hkids
      · exact h.replaced k next hstage x hold hkey t hlog }

theorem Invariant.publish (h : Invariant w) {next : KeyPair jose} (hstage : w.stage = .stable k)
    (hfresh : next.kid ∉ w.used) : Invariant { w with stage := .published k next, used := next.kid :: w.used } := by
  have hpods : ∀ i, PodInv [k] w.used (w.pods i) := by
    intro i
    have hpod := h.pods i
    rw [hstage] at hpod
    exact hpod
  have hk : k.kid ∈ w.used := h.keys k (by
    rw [hstage]
    exact List.mem_cons_self)
  have hlive := h.live
  rw [hstage] at hlive
  exact
    { pods := fun i => (hpods i).more
      atStage := fun i => (hpods i).published hfresh
      keys := fun k' hk' => by
        rcases List.mem_cons.mp hk' with rfl | hnext
        · exact List.mem_cons_of_mem _ hk
        · rw [List.mem_singleton.mp hnext]
          exact List.mem_cons_self
      distinct := by
        have hne : k.kid ≠ next.kid := fun heq => hfresh (heq ▸ hk)
        simpa [Stage.keys] using hne
      times := h.times
      live := hlive
      replaced := nofun }

theorem Invariant.switch (h : Invariant w) {next : KeyPair jose} (hstage : w.stage = .published k next)
    (hlogged : ∀ i, ∃ t, (t, [k.kid, next.kid]) ∈ (w.pods i).keys.log) :
    Invariant { w with stage := .switched k next } := by
  have hdistinct := h.distinct
  have hkeys := h.keys
  have hlive := h.live
  rw [hstage] at hdistinct hkeys hlive
  have hkid : k.kid ≠ next.kid := by simpa [Stage.keys] using hdistinct
  have hpods : ∀ i, Switched next (w.pods i) ∧ PodInv [k, next] w.used (w.pods i) := by
    intro i
    have hpod := h.pods i
    have hat := h.atStage i
    rw [hstage] at hpod hat
    obtain ⟨t, hlog⟩ := hlogged i
    exact hat.switched hpod hkid hlog
  exact
    { pods := fun i => (hpods i).2
      atStage := fun i => (hpods i).1
      keys := hkeys
      distinct := hdistinct
      times := h.times
      live := fun x hx hx' => by
        obtain ⟨s, hs, hkey⟩ := hlive x hx hx'
        exact ⟨s, List.mem_append_left [next] hs, hkey⟩
      replaced := fun k' next' hsame x _ _ t hlog => by
        cases hsame
        have hat := h.atStage x.pod
        rw [hstage] at hat
        exact absurd hlog (hat.unsigned t) }

/-- Once the wait is over, no token of the old key is live. -/
theorem Invariant.drop (h : Invariant w) {next : KeyPair jose} (hstage : w.stage = .switched k next)
    (hwaited : ∀ i, ∃ t, (t, .signingKey next.kid) ∈ (w.pods i).tokens.log ∧ t + 905000 ≤ w.now) :
    Invariant { w with stage := .stable next } := by
  have hkeys := h.keys
  have hlive := h.live
  have hpods := h.pods
  have hat := h.atStage
  rw [hstage] at hkeys hlive hpods
  exact
    { pods := fun i => by
        have hswitched := hat i
        rw [hstage] at hswitched
        obtain ⟨t, hlog, _⟩ := hwaited i
        exact hswitched.stable (hpods i) hlog
      atStage := fun _ => trivial
      keys := fun k' hk' => hkeys k' (List.mem_cons_of_mem _ hk')
      distinct := by simp [Stage.keys]
      times := h.times
      live := fun x hx hx' => by
        obtain ⟨s, hs, hkey⟩ := hlive x hx hx'
        rcases List.mem_cons.mp hs with rfl | hs
        · obtain ⟨t, hlog, hwait⟩ := hwaited x.pod
          have hbefore := h.replaced s next hstage x hx hkey t hlog
          change w.now / 1000 < _ at hx'
          omega
        · exact ⟨s, hs, hkey⟩
      replaced := nofun }

variable [DecidableEq ι]

theorem Invariant.pod (h : Invariant w) {i : ι} {e : PodEvent} {p : Pod jose} (ho : (w.pods i).InOrder e)
    (hs : PodStep (w.stage.keys.map KeyPair.publicPem) w.stage.signing.privatePem w.now (w.pods i) e p) :
    Invariant (w.setPod i p) := by
  have hpod := (h.pods i).step h.keys h.distinct hs ho
  have hat : AtStage p w.stage := by
    have hold := h.atStage i
    have hinv := h.pods i
    have hkids := h.distinct
    cases hstage : w.stage with
    | stable k => trivial
    | published k next =>
      rw [hstage] at hold hinv hkids hs
      exact hold.step hinv (by simpa [Stage.keys] using hkids) hs ho
    | switched k next =>
      rw [hstage] at hold hinv hkids hs
      exact hold.step hinv (by simpa [Stage.keys] using hkids) hs ho
  have hupdate : ∀ {P : ι → Pod jose → Prop}, (∀ j, P j (w.pods j)) → P i p → ∀ j, P j ((w.setPod i p).pods j) := by
    intro P hall hi j
    by_cases hj : j = i
    · subst hj
      change P j (Function.update w.pods j p j)
      rw [Function.update_self]
      exact hi
    · change P j (Function.update w.pods i p j)
      rw [Function.update_of_ne hj]
      exact hall j
  exact
    { h with
      pods := hupdate (P := fun _ q => PodInv w.stage.signers w.used q) h.pods hpod
      atStage := hupdate (P := fun _ q => AtStage q w.stage) h.atStage hat
      replaced := fun k next hstage => by
        have hall := h.replaced k next hstage
        refine fun x hx hkey => hupdate
          (P := fun j q => j = x.pod → ∀ t, (t, .signingKey next.kid) ∈ q.tokens.log → x.issuedAt ≤ t)
          (fun j hj t hlog => hall x hx hkey t (hj ▸ hlog)) (fun hi t hlog => ?_) x.pod rfl
        rcases hs.signingLog hlog with hold | hnow
        · exact hall x hx hkey t (hi ▸ hold)
        · rw [hnow]
          exact h.times x hx }

theorem invariant_step (h : Invariant w) (hm : InOrder w ev) (hs : Step w ev w') : Invariant w' := by
  cases hs with
  | tick => exact h.tick _
  | pod hpod => exact h.pod hm hpod
  | issue => exact h.issue _ _ _ _
  | publish hstage hfresh => exact h.publish hstage hfresh
  | switch hstage hlogged => exact h.switch hstage hlogged
  | drop hstage hwaited => exact h.drop hstage hwaited

/-- The kid a pod signs with is that of its key, whatever it loads. -/
structure NamedInv (w : World ι jose) : Prop where
  pods : ∀ i, (w.pods i).tokens.keyId = jose.kid (w.pods i).tokens.privateKey
  issued : ∀ x ∈ w.issued, x.keyId = jose.kid x.privateKey

theorem namedInv_step (h : NamedInv w) (hs : Step w ev w') : NamedInv w' := by
  cases hs with
  | @pod i e p hpod =>
    refine ⟨fun j => ?_, h.issued⟩
    by_cases hj : j = i
    · subst hj
      change (Function.update w.pods j p j).tokens.keyId = jose.kid (Function.update w.pods j p j).tokens.privateKey
      rw [Function.update_self]
      exact hpod.keyId (h.pods j)
    · change (Function.update w.pods i p j).tokens.keyId = jose.kid (Function.update w.pods i p j).tokens.privateKey
      rw [Function.update_of_ne hj]
      exact h.pods j
  | issue =>
    refine ⟨h.pods, fun x hx => ?_⟩
    rcases List.mem_cons.mp hx with rfl | hold
    · exact h.pods _
    · exact h.issued x hold
  | _ => exact ⟨h.pods, h.issued⟩

theorem namedInv_run (hr : Run Step (World.start k now booted) tr w) : NamedInv w :=
  hr.invariant ⟨fun _ => rfl, fun _ hx => by cases hx⟩ namedInv_step

theorem keepsKeys (hs : Step w ev w') : KeepsKeys w ev w' := by
  intro i e hev hfails j
  subst hev
  cases hs with
  | @pod _ _ p hpod =>
    change (Function.update w.pods i p j).keys = _ ∧ (Function.update w.pods i p j).tokens = _
    by_cases hj : j = i
    · subst hj
      rw [Function.update_self]
      exact hpod.keeps hfails
    · rw [Function.update_of_ne hj]
      exact ⟨rfl, rfl⟩

/-- While reloads take effect in order, a rotation refuses no token; a token names its key and a
failed reload keeps the keys in any case. -/
theorem rotation_seamless (hr : Run Step (World.start k now booted) tr w) (hm : Always InOrder tr) :
    Verifiable w ∧ Named w ∧ ∀ ev w', Step w ev w' → KeepsKeys w ev w' := by
  have hinv : Invariant w := hr.invariant_of_always hm invariant_start fun h hm hs => invariant_step h hm hs
  have hnamed := namedInv_run hr
  exact ⟨hinv.verifiable hnamed.issued, hnamed.issued, fun ev w' hs => keepsKeys hs⟩

end

/-- A library whose keys, texts and kids are the same words. -/
def sampleJose : Jose String String String where
  importPKCS8 := some
  importSPKI := some
  publicKeyOf key := key
  calculateJwkThumbprint key := key
  sign key _ := key
  verifies key _ signature := key == signature
  verifies_sign key _ := beq_self_eq_true key

def sampleKey (name : String) : KeyPair sampleJose := ⟨name, name, name, rfl, rfl⟩

def sampleIdentity : Identity := ⟨1, .user, some "ann@mail.test", none⟩

/-- One rotation from `k1` to `k2`, with a token of either key. -/
theorem rotation_seamless_rotated : ∃ tr w,
    Run Step (World.start (sampleKey "k1") 0 fun _ : Unit => 0) tr w ∧ w.stage.keys.map KeyPair.kid = ["k2"] ∧
    w.issued.map Issued.keyId = ["k2", "k1"] ∧ Verifiable w := by
  have hissued : Reaches Step InOrder (World.start (sampleKey "k1") 0 fun _ : Unit => 0) _ :=
    Reaches.refl.step (show Step _ (.issue () sampleIdentity 1 2) _ from .issue) trivial
  have hpublish := hissued.step (show Step _ (.publish (sampleKey "k2")) _ from .publish rfl (by decide)) trivial
  have hpublished := hpublish.step (.pod (i := ()) .readPublicKeys) trivial
  have hloaded := hpublished.step (.pod (i := ()) (.loadPublicKeys (n := 0) rfl)) fun r hr => by cases hr; rfl
  have hswitched := (hloaded.step (.switch rfl fun _ => ⟨0, List.mem_cons_self⟩) trivial).step
    (.pod (i := ()) .readPrivateKey) trivial
  have hsigning := hswitched.step (.pod (i := ()) (.loadPrivateKey (n := 0) rfl)) fun r hr => by cases hr; rfl
  have hwaited := hsigning.step (.tick (d := 905000)) trivial
  have hdropped := hwaited.step (.drop rfl fun _ => ⟨0, List.mem_cons_self, by decide⟩) trivial
  have hnew := hdropped.step (show Step _ (.issue () sampleIdentity 3 4) _ from .issue) trivial
  obtain ⟨tr, hr, hm⟩ := hnew
  exact ⟨tr, _, hr, rfl, rfl, (rotation_seamless hr hm).1⟩

/-- A reload that hangs for a minute and then takes effect after its successor. -/
theorem rotation_seamless_refuted : ¬ ∀ (ι PrivateKey PublicKey Signature : Type) (_ : DecidableEq ι)
    (jose : Jose PrivateKey PublicKey Signature) (k : KeyPair jose) (now : Nat) (booted : ι → Nat)
    (tr : List (World ι jose × Event ι jose)) (w : World ι jose), Run Step (World.start k now booted) tr w →
    Verifiable w ∧ Named w ∧ ∀ ev w', Step w ev w' → KeepsKeys w ev w' := by
  intro hclaim
  have hstart : Run Step (World.start (sampleKey "k1") 60000 fun _ : Unit => 0) [] _ := .nil
  have hslow := hstart.snoc (.pod (i := ()) .readPublicKeys)
  have hpublish := hslow.snoc (show Step _ (.publish (sampleKey "k2")) _ from .publish rfl (by decide))
  have hread := (hpublish.snoc (.tick (d := 60000))).snoc (.pod (i := ()) .readPublicKeys)
  have hloaded := hread.snoc (.pod (i := ()) (.loadPublicKeys (n := 1) rfl))
  have hswitched := hloaded.snoc (.switch rfl fun _ => ⟨120000, List.mem_cons_self⟩)
  have hsigning := (hswitched.snoc (.pod (i := ()) .readPrivateKey)).snoc
    (.pod (i := ()) (.loadPrivateKey (n := 0) rfl))
  have hreverted := hsigning.snoc (.pod (i := ()) (.loadPublicKeys (n := 0) rfl))
  have hissued := hreverted.snoc (show Step _ (.issue () sampleIdentity 1 2) _ from .issue)
  have hverified := (hclaim _ _ _ _ _ _ _ _ _ _ _ hissued).1 _ List.mem_cons_self rfl ()
  exact absurd hverified (by decide)

end MarketplaceApi.Auth

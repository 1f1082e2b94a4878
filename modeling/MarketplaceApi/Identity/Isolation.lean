import MarketplaceApi.Identity.Handlers

/-!
# The identity handlers run interleaved

`consume` names its row by the token hash alone; that the row lies in the locked family is
known from the look before, and rows never change family.
-/
namespace MarketplaceApi.Identity

open Txn

/-- The same row at a later time: only the two timestamps may be filled in. -/
structure Before (x y : IdentitySession) : Prop where
  tokenHash : y.tokenHash = x.tokenHash
  familyId : y.familyId = x.familyId
  identityId : y.identityId = x.identityId
  createdAt : y.createdAt = x.createdAt
  expiresAt : y.expiresAt = x.expiresAt
  usedAt : x.usedAt.isSome → y.usedAt.isSome
  revokedAt : x.revokedAt.isSome → y.revokedAt.isSome

theorem Before.refl (x : IdentitySession) : Before x x := ⟨rfl, rfl, rfl, rfl, rfl, id, id⟩

theorem Before.trans {x y z : IdentitySession} (h : Before x y) (h' : Before y z) : Before x z where
  tokenHash := h'.tokenHash.trans h.tokenHash
  familyId := h'.familyId.trans h.familyId
  identityId := h'.identityId.trans h.identityId
  createdAt := h'.createdAt.trans h.createdAt
  expiresAt := h'.expiresAt.trans h.expiresAt
  usedAt hx := h'.usedAt (h.usedAt hx)
  revokedAt hx := h'.revokedAt (h.revokedAt hx)

theorem before_consume (x : IdentitySession) (tokenHash : TokenHash) (now : Nat) :
    Before x (x.consume tokenHash now) := by
  unfold IdentitySession.consume
  split
  · exact ⟨rfl, rfl, rfl, rfl, rfl, fun _ => rfl, id⟩
  · exact .refl x

theorem before_revoke (x : IdentitySession) (familyId : Uuid) (now : Nat) :
    Before x (x.revoke familyId now) := by
  unfold IdentitySession.revoke
  split
  · exact ⟨rfl, rfl, rfl, rfl, rfl, id, fun _ => rfl⟩
  · exact .refl x

def isolation : Isolation Lock Tables where
  Part
    | .advisory .. => Unit
    | .family .. => List IdentitySession
    | .token .. => Bool
    | .identity .. => Bool
  part
    | .advisory _, _ => ()
    | .family familyId, s => s.family familyId
    | .token tokenHash, s => (s.find tokenHash).isSome
    | .identity id, s => (s.identities id).isSome
  le s s' := s.clock ≤ s'.clock ∧ (∀ id, (s.identities id).isSome → (s'.identities id).isSome) ∧
    ∀ x ∈ s.sessions, ∃ y ∈ s'.sessions, Before x y
  le_refl s := ⟨Nat.le_refl _, fun _ h => h, fun x hx => ⟨x, hx, .refl x⟩⟩
  le_trans h h' := by
    refine ⟨Nat.le_trans h.1 h'.1, fun id hid => h'.2.1 id (h.2.1 id hid), fun x hx => ?_⟩
    obtain ⟨y, hy, hxy⟩ := h.2.2 x hx
    obtain ⟨z, hz, hyz⟩ := h'.2.2 y hy
    exact ⟨z, hz, hxy.trans hyz⟩

section
variable {s s' b : Tables} {familyId : Uuid}

/-- A token seen in a family stays in that family. -/
theorem family_known {x y : IdentitySession} (hx : x ∈ b.sessions) (hle : isolation.le b s)
    (hy : y ∈ s.sessions) (h : y.tokenHash = x.tokenHash) : y.familyId = x.familyId := by
  obtain ⟨z, hz, hb⟩ := hle.2.2 x hx
  rw [← hb.familyId, eq_of_tokenHash hy hz (h.trans hb.tokenHash.symm)]

theorem agree_family (familyId : Uuid) {ks : List Lock} (ha : isolation.Agree ks s s')
    (h : Lock.family familyId ∈ ks) : s.family familyId = s'.family familyId := ha (.family familyId) h

/-- An update that touches one family only, decided by that family. -/
theorem confined_update (familyId : Uuid) (g : IdentitySession → IdentitySession)
    (hg : ∀ x, (g x).tokenHash = x.tokenHash) (hbefore : ∀ x, Before x (g x))
    (p : List IdentitySession → Bool) {w : Tables → Tables}
    (hin : ∀ s, isolation.le b s → ∀ x ∈ s.sessions, x.familyId ≠ familyId → g x = x)
    (hw : ∀ s, isolation.le b s → w s = if p (s.family familyId) then s.update g hg else s) :
    Confined isolation b [.family familyId] w where
  frame {s} hle k hk := by
    rw [hw s hle]
    split
    · cases k with
      | advisory _ => rfl
      | family f =>
        simp only [List.mem_singleton, Lock.family.injEq] at hk
        change (s.update g hg).family f = s.family f
        rw [family_update g hg fun x => (hbefore x).familyId]
        refine (List.map_congr_left fun x hx => ?_).trans (List.map_id _)
        obtain ⟨hmem, hf⟩ := mem_family.mp hx
        exact hin s hle x hmem (hf ▸ hk)
      | token h =>
        change ((s.update g hg).find h).isSome = (s.find h).isSome
        rw [find_update g hg, Option.isSome_map]
      | identity id => rfl
    · rfl
  inside {s s'} hle hle' ha k hk := by
    simp only [List.mem_singleton] at hk
    subst hk
    have hf := agree_family familyId ha (by simp)
    rw [hw s hle, hw s' hle', ← hf]
    split
    · change (s.update g hg).family familyId = (s'.update g hg).family familyId
      rw [family_update g hg fun x => (hbefore x).familyId,
        family_update g hg fun x => (hbefore x).familyId, hf]
    · exact hf
  grows {s} hle := by
    rw [hw s hle]
    split
    · exact ⟨Nat.le_refl _, fun _ h => h, fun x hx => ⟨g x, List.mem_map_of_mem hx, hbefore x⟩⟩
    · exact isolation.le_refl s
  mono {s s'} hle hss ha := by
    have hle' := isolation.le_trans hle hss
    rw [hw s hle, hw s' hle', ← agree_family familyId ha (by simp)]
    split
    · refine ⟨hss.1, hss.2.1, fun y hy => ?_⟩
      obtain ⟨x, hx, rfl⟩ := List.mem_map.mp hy
      by_cases hf : x.familyId = familyId
      · have hx' : x ∈ s'.family familyId := agree_family familyId ha (by simp) ▸ mem_family.mpr ⟨hx, hf⟩
        exact ⟨g x, List.mem_map_of_mem (mem_family.mp hx').1, .refl _⟩
      · obtain ⟨z, hz, hxz⟩ := hss.2.2 x hx
        rw [hin s hle x hx hf]
        refine ⟨g z, List.mem_map_of_mem hz, ?_⟩
        rw [hin s' hle' z hz (hxz.familyId ▸ hf)]
        exact hxz
    · exact hss

/-- The insert of one session, decided by its token hash. -/
theorem confined_insertSession (x : IdentitySession) {w : Tables → Tables}
    (hw : ∀ s, w s = if h : s.find x.tokenHash = none then s.insert x h else s) :
    Confined isolation b [.family x.familyId, .token x.tokenHash] w where
  frame {s} _ k hk := by
    simp only [List.mem_cons, List.not_mem_nil, or_false, not_or] at hk
    rw [hw]
    split
    · rename_i hnone
      cases k with
      | advisory _ => rfl
      | family f =>
        change (s.insert x hnone).family f = s.family f
        rw [family_insert, if_neg]
        exact fun he => hk.1 (by rw [he])
      | token h =>
        change ((s.insert x hnone).find h).isSome = (s.find h).isSome
        rw [find_insert, if_neg]
        exact fun he => hk.2 (by rw [he])
      | identity id => rfl
    · rfl
  inside {s s'} _ _ ha k hk := by
    have hf := agree_family x.familyId ha (by simp)
    have ht : (s.find x.tokenHash).isSome = (s'.find x.tokenHash).isSome :=
      ha (.token x.tokenHash) (by simp)
    rw [hw, hw]
    by_cases hnone : s.find x.tokenHash = none
    · have hnone' : s'.find x.tokenHash = none := by
        rw [hnone] at ht
        simpa using ht.symm
      rw [dif_pos hnone, dif_pos hnone']
      simp only [List.mem_cons, List.not_mem_nil, or_false] at hk
      rcases hk with rfl | rfl
      · change (s.insert x hnone).family _ = (s'.insert x hnone').family _
        rw [family_insert, family_insert, hf]
      · change ((s.insert x hnone).find _).isSome = ((s'.insert x hnone').find _).isSome
        rw [find_insert, find_insert, if_pos rfl, if_pos rfl]
    · have hsome' : ¬ s'.find x.tokenHash = none := by
        intro he
        rw [he] at ht
        exact hnone (by simpa using ht)
      rw [dif_neg hnone, dif_neg hsome']
      exact ha k hk
  grows {s} _ := by
    rw [hw]
    split
    · exact ⟨Nat.le_refl _, fun _ h => h, fun y hy => ⟨y, List.mem_cons_of_mem _ hy, .refl y⟩⟩
    · exact isolation.le_refl s
  mono {s s'} _ hss ha := by
    have ht : (s.find x.tokenHash).isSome = (s'.find x.tokenHash).isSome :=
      ha (.token x.tokenHash) (by simp)
    rw [hw, hw]
    by_cases hnone : s.find x.tokenHash = none
    · have hnone' : s'.find x.tokenHash = none := by
        rw [hnone] at ht
        simpa using ht.symm
      rw [dif_pos hnone, dif_pos hnone']
      refine ⟨hss.1, hss.2.1, fun y hy => ?_⟩
      rcases List.mem_cons.mp hy with rfl | hy
      · exact ⟨y, List.mem_cons_self, .refl y⟩
      · obtain ⟨z, hz, hyz⟩ := hss.2.2 y hy
        exact ⟨z, List.mem_cons_of_mem _ hz, hyz⟩
    · have hsome' : ¬ s'.find x.tokenHash = none := by
        intro he
        rw [he] at ht
        exact hnone (by simpa using ht)
      rw [dif_neg hnone, dif_neg hsome']
      exact hss

/-- The insert of one identity, decided by its id. -/
theorem confined_identity (id : Nat) {w : Tables → Tables}
    (hw : ∀ s, w s = if (s.identities id).isNone then s.addIdentity id else s) :
    Confined isolation b [.identity id] w where
  frame {s} _ k hk := by
    rw [hw]
    split
    · cases k with
      | advisory _ => rfl
      | family f => rfl
      | token h => rfl
      | identity i =>
        simp only [List.mem_singleton, Lock.identity.injEq] at hk
        change ((s.addIdentity id).identities i).isSome = (s.identities i).isSome
        rw [addIdentity_other s hk]
    · rfl
  inside {s s'} _ _ ha k hk := by
    simp only [List.mem_singleton] at hk
    subst hk
    have hi : (s.identities id).isSome = (s'.identities id).isSome := ha (.identity id) (by simp)
    change ((w s).identities id).isSome = ((w s').identities id).isSome
    rw [hw, hw]
    cases hs : s.identities id <;> cases hs' : s'.identities id <;> simp_all
  grows {s} _ := by
    rw [hw]
    split
    · refine ⟨Nat.le_refl _, fun i hi => ?_, fun x hx => ⟨x, hx, .refl x⟩⟩
      by_cases e : i = id
      · subst e; simp
      · rwa [addIdentity_other s e]
    · exact isolation.le_refl s
  mono {s s'} _ hss ha := by
    have hi : (s.identities id).isSome = (s'.identities id).isSome := ha (.identity id) (by simp)
    rw [hw, hw]
    have hn : (s.identities id).isNone = (s'.identities id).isNone := by
      rw [← Option.not_isSome, ← Option.not_isSome, hi]
    rw [← hn]
    split
    · refine ⟨hss.1, fun i h => ?_, hss.2.2⟩
      by_cases e : i = id
      · subst e; simp
      · rw [addIdentity_other s e] at h
        rw [addIdentity_other s' e]
        exact hss.2.1 i h
    · exact hss

end

section
variable (b : Tables) (start readAt identityId : Nat) (familyId : Uuid) (next : NewToken)

theorem safe_findById : (IdentityRepository.findById identityId).Safe isolation b := Prog.safe_look _ b

theorem safe_createIdentity : (IdentityRepository.create identityId).Safe isolation b := by
  refine Prog.safe_exec (confined_identity identityId fun s => ?_) fun s s' _ _ ha => ?_
  · split <;> rfl
  · have hi : (s.identities identityId).isSome = (s'.identities identityId).isSome :=
      ha (.identity identityId) (by simp)
    rw [← Option.not_isSome, ← Option.not_isSome, hi]
    split <;> rfl

/-- A statement under the family's lock that writes nothing. -/
theorem safe_familyCheck {R : Type} {f : Tables → Except Failure (Tables × R)}
    (hw : ∀ s, Prog.leave s (f s) = s)
    (hf : ∀ s s', s.family familyId = s'.family familyId → (f s).map Prod.snd = (f s').map Prod.snd) :
    (Prog.exec [.family familyId] f).Safe isolation b :=
  Prog.safe_exec (.of_id hw) fun s s' _ _ ha => hf s s' (agree_family familyId ha (by simp))

theorem safe_lockFamily (hash : Uuid → Int) : (IdentitySessionRepository.lockFamily hash familyId).Safe isolation b :=
  Prog.safe_exec (.of_id fun _ => rfl) fun _ _ _ _ _ => rfl

theorem safe_freshFamily : (IdentitySessionRepository.freshFamily familyId).Safe isolation b := by
  refine safe_familyCheck b familyId (fun s => ?_) fun s s' hf => ?_
  · split <;> rfl
  · rw [hf]
    split <;> rfl

theorem safe_create :
    (IdentitySessionRepository.create start identityId familyId next).Safe isolation b := by
  refine (Prog.safe_look _ b).bind fun missing b' _ => ?_
  split
  · trivial
  · have agree : ∀ s s', isolation.Agree [.family familyId, .token next.tokenHash] s s' →
        (s.find next.tokenHash = none ↔ s'.find next.tokenHash = none) := by
      intro s s' ha
      have ht : (s.find next.tokenHash).isSome = (s'.find next.tokenHash).isSome :=
        ha (.token next.tokenHash) (by simp)
      simp only [← Option.not_isSome_iff_eq_none, ht]
    by_cases hlt : start < next.expiresAt
    · refine Prog.safe_exec (confined_insertSession
        ⟨identityId, familyId, next.tokenHash, next.expiresAt, none, none, start⟩ fun s => ?_)
        fun s s' _ _ ha => ?_
      · by_cases h : s.find next.tokenHash = none
        · rw [dif_pos h, dif_pos h, if_pos hlt]; rfl
        · rw [dif_neg h, dif_neg h]; rfl
      · by_cases h : s.find next.tokenHash = none
        · rw [dif_pos h, dif_pos ((agree s s' ha).mp h), if_pos hlt, if_pos hlt]; rfl
        · rw [dif_neg h, dif_neg (h ∘ (agree s s' ha).mpr)]
    · refine Prog.safe_exec (.of_id fun s => ?_) fun s s' _ _ ha => ?_
      · by_cases h : s.find next.tokenHash = none
        · rw [dif_pos h, if_neg hlt]; rfl
        · rw [dif_neg h]; rfl
      · by_cases h : s.find next.tokenHash = none
        · rw [dif_pos h, dif_pos ((agree s s' ha).mp h), if_neg hlt, if_neg hlt]
        · rw [dif_neg h, dif_neg (h ∘ (agree s s' ha).mpr)]

theorem safe_createTokenPair :
    (TokenService.createTokenPair start identityId familyId next).Safe isolation b :=
  (safe_create b start identityId familyId next).bind fun _ _ _ => trivial

/-- The row of a token that was seen in a family is found in that family. -/
theorem find_eq_family {s : Tables} {x : IdentitySession} (hx : x ∈ b.sessions)
    (hle : isolation.le b s) : s.find x.tokenHash =
      (s.family x.familyId).find? fun y => y.tokenHash = x.tokenHash := by
  unfold Tables.find Tables.family
  rw [← List.head?_filter, ← List.head?_filter, List.filter_filter]
  refine congrArg List.head? (List.filter_congr fun y hy => ?_)
  by_cases h : y.tokenHash = x.tokenHash
  · simp [h, family_known hx hle hy h]
  · simp [h]

/-- The token was seen in the family whose lock the update takes. -/
theorem safe_consume {x : IdentitySession} (hx : x ∈ b.sessions) :
    (IdentitySessionRepository.consume start readAt x.tokenHash x.familyId).Safe isolation b := by
  refine Prog.safe_exec (confined_update x.familyId (fun y => y.consume x.tokenHash start) (by simp)
    (fun y => before_consume y _ _)
    (fun rows => (rows.find? fun y => y.tokenHash = x.tokenHash).any fun y =>
      y.live && decide (readAt < y.expiresAt) && decide (y.createdAt ≤ start)) ?_ ?_) ?_
  · intro s hle y hy hf
    rw [IdentitySession.consume, if_neg]
    exact fun h => hf (family_known hx hle hy h)
  · intro s hle
    rw [← find_eq_family b hx hle]
    cases s.find x.tokenHash with
    | none => rfl
    | some y =>
      by_cases hc : y.live && decide (readAt < y.expiresAt) <;> by_cases ht : y.createdAt ≤ start <;>
        simp [hc, ht, Prog.leave]
  · intro s s' hle hle' ha
    rw [find_eq_family b hx hle, find_eq_family b hx hle', agree_family x.familyId ha (by simp)]
    cases (s'.family x.familyId).find? fun y => y.tokenHash = x.tokenHash with
    | none => rfl
    | some y =>
      by_cases hc : y.live && decide (readAt < y.expiresAt) <;> by_cases ht : y.createdAt ≤ start <;>
        simp [hc, ht, Except.map]

theorem safe_revokeRows : (IdentitySessionRepository.revokeFamily start familyId).Safe isolation b := by
  refine Prog.safe_exec (confined_update familyId (fun y => y.revoke familyId start) (by simp)
    (fun y => before_revoke y _ _)
    (fun rows => !rows.any fun y => y.revokedAt.isNone && decide (start < y.createdAt)) ?_ ?_) ?_
  · intro s _ y _ hf
    rw [IdentitySession.revoke, if_neg]
    exact fun h => hf h.1
  · intro s _
    cases (s.family familyId).any fun y => y.revokedAt.isNone && decide (start < y.createdAt) <;> rfl
  · intro s s' _ _ ha
    rw [agree_family familyId ha (by simp)]
    cases (s'.family familyId).any fun y => y.revokedAt.isNone && decide (start < y.createdAt) <;> rfl

theorem safe_rotate (hash : Uuid → Int) (tokenHash : TokenHash) :
    (IdentityRefreshCommandHandler.rotate hash start readAt tokenHash next).Safe isolation b := by
  refine Prog.safe_look_bind fun v _ => ?_
  cases hfind : v.find tokenHash with
  | none => trivial
  | some x =>
    obtain ⟨hx, rfl⟩ := find_mem hfind
    refine (safe_lockFamily v x.familyId hash).bind fun _ m hm => ?_
    obtain ⟨y, hy, hxy⟩ := hm.2.2 x hx
    rw [← hxy.tokenHash, ← hxy.familyId]
    refine (safe_consume m start readAt hy).bind fun consumed m' _ => ?_
    cases consumed with
    | none => trivial
    | some session =>
      refine (safe_findById m' _).bind fun found m'' _ => ?_
      split
      · exact safe_createTokenPair m'' _ _ _ _
      · trivial

theorem safe_revokeFamily (hash : Uuid → Int) :
    (IdentityRefreshCommandHandler.revokeFamily hash start familyId).Safe isolation b :=
  (safe_lockFamily b familyId hash).bind fun _ m _ =>
    (safe_revokeRows m start familyId).bind fun _ _ _ => trivial

theorem safe_signIn (who : SignIn) : (signIn start who familyId next).Safe isolation b := by
  refine (safe_freshFamily b familyId).bind fun _ m _ => ?_
  cases who with
  | found identityId =>
    refine (safe_findById m identityId).bind fun found m' _ => ?_
    split
    · exact safe_createTokenPair m' _ _ _ _
    · trivial
  | created identityId =>
    exact (safe_createIdentity m identityId).bind fun _ m' _ => safe_createTokenPair m' _ _ _ _

theorem safe_handler (hash : Uuid → Int) (q : Request) : (handler hash q).Safe isolation b := by
  cases q with
  | refresh start readAt presented next => exact safe_rotate b start readAt next hash presented
  | reuse start presented familyId => exact safe_revokeFamily b start familyId hash
  | logout start presented familyId => exact safe_revokeFamily b start familyId hash
  | signIn start who familyId next => exact safe_signIn b start familyId next who

end

/-- Sign-ins, refreshes and revocations of any identities and families, in any interleaving. -/
def system (hash : Uuid → Int) : System Lock Tables Failure Status Request where
  isolation := isolation
  handler := handler hash
  allowed := Allowed
  env := Env
  safe q b := safe_handler b hash q
  env_part h k := by
    cases k with
    | advisory _ => rfl
    | family f => simp only [isolation, Tables.family, h.2.1]
    | token t => simp only [isolation, Tables.find, h.2.1]
    | identity id => exact h.2.2 id
  env_le h := ⟨h.1, fun id hid => by rwa [h.2.2 id], fun x hx => ⟨x, by rwa [h.2.1], .refl x⟩⟩

end MarketplaceApi.Identity

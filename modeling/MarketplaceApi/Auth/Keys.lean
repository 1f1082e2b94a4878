import MarketplaceApi.Auth.Token

/-!
# The keys of a pod

`JwtVerificationKeysService` and `TokenService` with what they hold and what they log. A secret
is given as its PEM blocks. A load that fails is `none` and leaves the service as it was.
-/
namespace MarketplaceApi.Auth

structure JwtVerificationKeysService (PublicKey : Type) where
  keySet : List (Jwk PublicKey)
  loadedKids : List String
  loadedPublicKeys : List (Jwk PublicKey)
  log : List (Nat × List String)

inductive SigningLog where
  | notVerifiable (kid : String) (kids : List String)
  | signingKey (kid : String)
  deriving DecidableEq

structure TokenService (PrivateKey : Type) where
  privateKey : PrivateKey
  keyId : String
  log : List (Nat × SigningLog)

variable {PrivateKey PublicKey Signature : Type} (jose : Jose PrivateKey PublicKey Signature)

def Jose.toJwk (key : PublicKey) : Jwk PublicKey :=
  ⟨key, jose.calculateJwkThumbprint key, ACCESS_TOKEN_ALGORITHM, "sig"⟩

namespace JwtVerificationKeysService

/-- The keys of all blocks, or none of them. -/
def importKeys (blocks : List String) : Option (List (Jwk PublicKey)) :=
  blocks.mapM fun block => (jose.importSPKI block).map jose.toJwk

def load (blocks : List String) (now : Nat) (s : JwtVerificationKeysService PublicKey) :
    Option (JwtVerificationKeysService PublicKey) :=
  if blocks.length = 0 then none
  else
    (importKeys jose blocks).map fun keys =>
      let kids := keys.map Jwk.kid
      if String.intercalate "," kids != String.intercalate "," s.loadedKids then
        ⟨keys, kids, keys, (now, kids) :: s.log⟩
      else
        ⟨keys, s.loadedKids, keys, s.log⟩

/-- Keeps the keys when the load fails. -/
def refresh (blocks : List String) (now : Nat) (s : JwtVerificationKeysService PublicKey) :
    JwtVerificationKeysService PublicKey := (load jose blocks now s).getD s

end JwtVerificationKeysService

namespace TokenService

def loadSigningKey (kids : List String) (pem : String) (now : Nat) (s : TokenService PrivateKey) :
    Option (TokenService PrivateKey) :=
  (jose.importPKCS8 pem).map fun privateKey =>
    let keyId := jose.kid privateKey
    let warned := if !kids.contains keyId then (now, .notVerifiable keyId kids) :: s.log else s.log
    ⟨privateKey, keyId, if keyId != s.keyId then (now, .signingKey keyId) :: warned else warned⟩

def refreshSigningKey (kids : List String) (pem : String) (now : Nat) (s : TokenService PrivateKey) :
    TokenService PrivateKey := (loadSigningKey jose kids pem now s).getD s

end TokenService

/-- A key as the operator generates it: both texts import to its two halves. -/
structure KeyPair where
  privatePem : String
  publicPem : String
  privateKey : PrivateKey
  imports : jose.importPKCS8 privatePem = some privateKey
  exports : jose.importSPKI publicPem = some (jose.publicKeyOf privateKey)

section
variable {jose} {ks : List (KeyPair jose)} {k : KeyPair jose} {keys : JwtVerificationKeysService PublicKey}
  {tokens : TokenService PrivateKey} {kids : List String} {now : Nat}

def KeyPair.kid (k : KeyPair jose) : String := jose.kid k.privateKey

def KeyPair.jwk (k : KeyPair jose) : Jwk PublicKey := jose.toJwk (jose.publicKeyOf k.privateKey)

@[simp] theorem jwk_kid (k : KeyPair jose) : k.jwk.kid = k.kid := rfl

theorem importKeys_pairs (ks : List (KeyPair jose)) :
    JwtVerificationKeysService.importKeys jose (ks.map KeyPair.publicPem) = some (ks.map KeyPair.jwk) := by
  induction ks with
  | nil => rfl
  | cons k ks ih =>
    unfold JwtVerificationKeysService.importKeys at ih ⊢
    rw [List.map_cons, List.mapM_cons, k.exports, ih]
    rfl

/-- A reload of good keys takes them all over and logs their kids if they changed. -/
theorem refresh_pairs (hne : ks ≠ []) :
    (JwtVerificationKeysService.refresh jose (ks.map KeyPair.publicPem) now keys).keySet = ks.map KeyPair.jwk ∧
    ∀ entry ∈ (JwtVerificationKeysService.refresh jose (ks.map KeyPair.publicPem) now keys).log,
      entry ∈ keys.log ∨ entry = (now, ks.map KeyPair.kid) := by
  have hlength : (ks.map KeyPair.publicPem).length ≠ 0 := by simpa using hne
  have hkids : (ks.map KeyPair.jwk).map Jwk.kid = ks.map KeyPair.kid := by
    rw [List.map_map]
    rfl
  unfold JwtVerificationKeysService.refresh JwtVerificationKeysService.load
  rw [if_neg hlength, importKeys_pairs]
  simp only [Option.map_some, Option.getD_some, hkids]
  split
  · refine ⟨rfl, fun entry hentry => ?_⟩
    rcases List.mem_cons.mp hentry with hnew | hold
    · exact Or.inr hnew
    · exact Or.inl hold
  · exact ⟨rfl, fun entry hentry => Or.inl hentry⟩

/-- Key and kid are set together. -/
theorem refreshSigningKey_keyId {pem : String} (h : tokens.keyId = jose.kid tokens.privateKey) :
    (TokenService.refreshSigningKey jose kids pem now tokens).keyId =
      jose.kid (TokenService.refreshSigningKey jose kids pem now tokens).privateKey := by
  unfold TokenService.refreshSigningKey TokenService.loadSigningKey
  cases jose.importPKCS8 pem with
  | none => exact h
  | some privateKey => rfl

/-- A new kid is logged when it is taken over. -/
theorem refreshSigningKey_log {pem : String} {t : Nat} {kid : String}
    (h : (t, .signingKey kid) ∈ (TokenService.refreshSigningKey jose kids pem now tokens).log) :
    (t, .signingKey kid) ∈ tokens.log ∨
      t = now ∧ kid = (TokenService.refreshSigningKey jose kids pem now tokens).keyId := by
  unfold TokenService.refreshSigningKey TokenService.loadSigningKey at h ⊢
  cases hkey : jose.importPKCS8 pem with
  | none =>
    rw [hkey] at h
    exact Or.inl h
  | some privateKey =>
    simp only [hkey, Option.map_some, Option.getD_some] at h ⊢
    have hwarned : (t, SigningLog.signingKey kid) ∈
        (if !kids.contains (jose.kid privateKey) then (now, .notVerifiable (jose.kid privateKey) kids) :: tokens.log
          else tokens.log) → (t, SigningLog.signingKey kid) ∈ tokens.log := by
      intro hin
      split at hin
      · simpa using hin
      · exact hin
    split at h
    · rcases List.mem_cons.mp h with hnew | hold
      · simp only [Prod.mk.injEq, SigningLog.signingKey.injEq] at hnew
        exact Or.inr hnew
      · exact Or.inl (hwarned hold)
    · exact Or.inl (hwarned h)

/-- A reload of a good signing key switches to it. -/
theorem refreshSigningKey_pair :
    (TokenService.refreshSigningKey jose kids k.privatePem now tokens).privateKey = k.privateKey ∧
    (TokenService.refreshSigningKey jose kids k.privatePem now tokens).keyId = k.kid := by
  unfold TokenService.refreshSigningKey TokenService.loadSigningKey
  rw [k.imports]
  exact ⟨rfl, rfl⟩

/-- What `createLocalJWKSet` asks of a key, for the keys a pod loads. -/
theorem selects_iff (other k : KeyPair jose) :
    selects (TokenService.header k.kid) other.jwk = true ↔ other.kid = k.kid := by
  change (other.kid == k.kid && true && true) = true ↔ _
  simp

/-- Among keys of different kids, the kid of each selects it. -/
theorem getKey_pairs (hnodup : (ks.map KeyPair.kid).Nodup) (hk : k ∈ ks) :
    getKey (ks.map KeyPair.jwk) (TokenService.header k.kid) = some k.jwk := by
  have hfilter : (ks.map KeyPair.jwk).filter (selects (TokenService.header k.kid)) = [k.jwk] := by
    induction ks with
    | nil => cases hk
    | cons other ks ih =>
      rw [List.map_cons, List.nodup_cons] at hnodup
      rw [List.map_cons]
      rcases List.mem_cons.mp hk with rfl | hin
      · rw [List.filter_cons_of_pos ((selects_iff k k).mpr rfl)]
        refine congrArg _ (List.filter_eq_nil_iff.mpr fun jwk hjwk => ?_)
        obtain ⟨other, hother, rfl⟩ := List.mem_map.mp hjwk
        rw [selects_iff]
        intro heq
        exact hnodup.1 (heq ▸ List.mem_map_of_mem hother)
      · rw [List.filter_cons_of_neg, ih hnodup.2 hin]
        rw [selects_iff]
        intro heq
        exact hnodup.1 (heq ▸ List.mem_map_of_mem hin)
  unfold getKey
  rw [hfilter]

end

end MarketplaceApi.Auth

import MarketplaceApi.Provisioning.Users
import MarketplaceApi.Txn.Interleaving

/-!
# A user and its outbox row

What a committed delivery of `identity.registered` can have done: nothing, or one new user
together with the one row that announces it.
-/
namespace MarketplaceApi.Provisioning

open Messaging Txn

/-- A key protects the rows that carry it. -/
def userIsolation : Isolation UserLock UserTables where
  Part _ := List User × List UserOutbox
  part k s := (s.users.filter fun user => k ∈ user.keys, s.outbox.filter fun row => k = .event row.id)
  le s s' := s.users.Sublist s'.users ∧ s.outbox.Sublist s'.outbox
  le_refl _ := ⟨.refl _, .refl _⟩
  le_trans h h' := ⟨h.1.trans h'.1, h.2.trans h'.2⟩

section
variable {s s' b : UserTables} {k : UserLock} {ks : List UserLock} {gen : Generated} {input : UserCreate}

theorem agree_users (h : userIsolation.Agree ks s s') (hk : k ∈ ks) :
    (s.users.filter fun user => k ∈ user.keys) = s'.users.filter fun user => k ∈ user.keys :=
  congrArg Prod.fst (h k hk)

theorem agree_events (h : userIsolation.Agree ks s s') (hk : k ∈ ks) :
    (s.outbox.filter fun row => k = .event row.id) = s'.outbox.filter fun row => k = .event row.id :=
  congrArg Prod.snd (h k hk)

/-- A key is taken if its part is not empty. -/
theorem taken_eq (s : UserTables) (k : UserLock) : s.taken k =
    (((s.users.filter fun user => k ∈ user.keys).any fun _ => true) ||
      (s.outbox.filter fun row => k = .event row.id).any fun _ => true) := by
  simp only [UserTables.taken, List.any_filter, Bool.and_true]

theorem agree_taken (h : userIsolation.Agree ks s s') (hk : k ∈ ks) : s.taken k = s'.taken k := by
  rw [taken_eq, taken_eq, agree_users h hk, agree_events h hk]

theorem agree_any_taken (h : userIsolation.Agree ks s s') : ks.any s.taken = ks.any s'.taken := by
  rw [Bool.eq_iff_iff, List.any_eq_true, List.any_eq_true]
  exact exists_congr fun k => and_congr_right fun hk => by rw [agree_taken h hk]

theorem taken_later (h : userIsolation.le s s') (hk : s.taken k = true) : s'.taken k = true := by
  unfold UserTables.taken at hk ⊢
  rw [Bool.or_eq_true, List.any_eq_true, List.any_eq_true] at hk ⊢
  rcases hk with ⟨user, huser, hkey⟩ | ⟨row, hrow, hkey⟩
  · exact Or.inl ⟨user, h.1.subset huser, hkey⟩
  · exact Or.inr ⟨row, h.2.subset hrow, hkey⟩

theorem safe_createIfAbsent : (UserRepository.createIfAbsent gen input).Safe userIsolation b := by
  unfold UserRepository.createIfAbsent
  split
  · trivial
  split
  · trivial
  · refine (Prog.safe_look _ b).bind fun found b' _ => ?_
    split
    · trivial
    · refine Prog.safe_add
        (fun s => if (input.toUser gen).keys.any s.taken then some (.ok false) else none)
        (fun s => s.addUser (input.toUser gen)) true
        (fun k p => if k ∈ (input.toUser gen).keys then ((input.toUser gen) :: p.1, p.2) else p)
        (fun s => ?_) (fun s k => ?_) (fun k hk p => if_neg hk) (fun s s' ha => ?_)
        (fun s => ⟨List.sublist_cons_self _ _, .refl _⟩) fun s s' hle => ⟨hle.1.cons_cons _, hle.2⟩
      · split <;> rfl
      · change ((_ :: s.users).filter _, _) = _
        by_cases hk : k ∈ (input.toUser gen).keys
        · rw [List.filter_cons_of_pos (by simpa using hk)]
          exact (if_pos hk).symm
        · rw [List.filter_cons_of_neg (by simpa using hk)]
          exact (if_neg hk).symm
      · rw [agree_any_taken ha]

theorem find_eq (s : UserTables) (identityId : Nat) :
    (s.users.find? fun user => user.identityId = identityId) =
      (s.users.filter fun user => UserLock.identityId identityId ∈ user.keys).head? := by
  rw [List.head?_filter]
  refine congrArg s.users.find? (funext fun user => ?_)
  simp [User.keys, eq_comm]

theorem safe_findByIdentityIdOrFail (identityId : Nat) :
    (UserRepository.findByIdentityIdOrFail identityId).Safe userIsolation b := by
  refine Prog.safe_exec (Confined.of_id fun s => ?_) fun s s' _ _ ha => ?_
  · split <;> rfl
  · rw [find_eq, find_eq, agree_users ha (by simp)]
    cases (s'.users.filter fun user => UserLock.identityId identityId ∈ user.keys).head? <;> rfl

theorem safe_outboxCreate (row : UserOutbox) : (UserOutboxRepository.create row).Safe userIsolation b := by
  refine Prog.safe_insert (fun s => if s.taken (.event row.id) then some .eventKey else none)
    (fun s => s.addOutbox row) () (fun k p => if k = .event row.id then (p.1, row :: p.2) else p)
    (fun s => ?_) (fun s k => ?_) (fun k hk p => if_neg (by simpa using hk)) (fun s s' ha => ?_)
    (fun s => ⟨.refl _, List.sublist_cons_self _ _⟩) fun s s' hle => ⟨hle.1, hle.2.cons_cons _⟩
  · split <;> rfl
  · change (_, (row :: s.outbox).filter _) = _
    by_cases hk : k = .event row.id
    · rw [List.filter_cons_of_pos (by simpa using hk)]
      exact (if_pos hk).symm
    · rw [List.filter_cons_of_neg (by simpa using hk)]
      exact (if_neg hk).symm
  · rw [agree_taken ha (by simp)]

theorem safe_userCreate : (UserCreateCommandHandler.execute gen input).Safe userIsolation b := by
  refine safe_createIfAbsent.bind fun created b' _ => ?_
  split
  · exact (safe_findByIdentityIdOrFail _).bind fun user b'' _ => safe_outboxCreate _
  · trivial

theorem safe_identityEvent (isUuid isEmail : String → Bool) (event : CloudEvent IdentityRegisteredEvent.Data) :
    (UserIdentityEventsGateway.handle isUuid isEmail gen event).Safe userIsolation b := by
  unfold UserIdentityEventsGateway.handle
  split
  · trivial
  · split
    · trivial
    · exact safe_userCreate

/-- The tables after a registration: the user and the row that announces it. -/
def UserTables.provision (s : UserTables) (user : User) : UserTables :=
  (s.addUser user).addOutbox (UserMessageService.toUserCreatedOutbox user)

theorem exec_createIfAbsent {created : Bool}
    (h : Exec userIsolation b (UserRepository.createIfAbsent gen input) s s' (.ok created)) :
    (input.toUser gen).allowed = true ∧
      ((created = true ∧ (input.toUser gen).keys.any s.taken = false ∧ s' = s.addUser (input.toUser gen)) ∨
        (created = false ∧ (input.toUser gen).keys.any s.taken = true ∧ s' = s)) := by
  unfold UserRepository.createIfAbsent at h
  split at h
  · cases h
  split at h
  · cases h
  · rename_i hallowed
    refine ⟨by simpa using hallowed, ?_⟩
    obtain ⟨_, m, found, _, hl, hf⟩ := Exec.of_bind h
    obtain ⟨rfl, v, _, hv, hseen⟩ := hl.of_look
    cases found with
    | true =>
      cases hf
      obtain ⟨k, hk, htaken⟩ := List.any_eq_true.mp hseen
      exact Or.inr ⟨rfl, List.any_eq_true.mpr ⟨k, hk, taken_later hv htaken⟩, rfl⟩
    | false =>
      have he := hf.of_exec
      split at he
      · cases he
        exact Or.inr ⟨rfl, ‹_›, rfl⟩
      · rename_i hfree
        cases he
        exact Or.inl ⟨rfl, by simpa using hfree, rfl⟩

/-- The row read back is the one just inserted. -/
theorem find_addUser (s : UserTables) (user : User) :
    ((s.addUser user).users.find? fun other => other.identityId = user.identityId) = some user := by
  change (user :: s.users).find? _ = _
  rw [List.find?_cons_of_pos (by simp)]

theorem exec_userCreate {u : Unit}
    (h : Exec userIsolation b (UserCreateCommandHandler.execute gen input) s s' (.ok u)) :
    ((input.toUser gen).keys.any s.taken = true ∧ s' = s) ∨
      ((input.toUser gen).keys.any s.taken = false ∧ s' = s.provision (input.toUser gen)) := by
  obtain ⟨_, m, created, _, hc, hf⟩ := Exec.of_bind h
  rcases (exec_createIfAbsent hc).2 with ⟨rfl, hfree, rfl⟩ | ⟨rfl, htaken, rfl⟩
  · obtain ⟨_, _, user, _, hfind, hcreate⟩ := Exec.of_bind hf
    have hread := hfind.of_exec
    have hown : ((s.addUser (input.toUser gen)).users.find? fun other => other.identityId = input.identityId) =
        some (input.toUser gen) := find_addUser s (input.toUser gen)
    simp only [hown] at hread
    cases hread
    have hwrite := hcreate.of_exec
    split at hwrite
    · cases hwrite
    · cases hwrite
      exact Or.inr ⟨hfree, rfl⟩
  · cases hf
    exact Or.inl ⟨htaken, rfl⟩

end

/-- A delivery of an event to the profile consumer, with the values an insert would draw. -/
structure UserRequest where
  gen : Generated
  event : CloudEvent IdentityRegisteredEvent.Data

/-- The values an accepted event hands to the command handler. -/
def UserRequest.input (q : UserRequest) : UserCreate :=
  ⟨q.event.data.identityId, q.event.data.identityPublicId, q.event.data.email, q.event.data.phoneNumber⟩

def UserRequest.user (q : UserRequest) : User := q.input.toUser q.gen

/-- A committed delivery left everything as it was, or inserted its user under keys no row had. -/
theorem exec_identityEvent {isUuid isEmail : String → Bool} {b s s' : UserTables} {q : UserRequest} {u : Unit}
    (h : Exec userIsolation b (UserIdentityEventsGateway.handle isUuid isEmail q.gen q.event) s s' (.ok u)) :
    s' = s ∨ (identityRegisteredEventSchema isUuid isEmail q.event = true ∧ q.user.keys.any s.taken = false ∧
      s' = s.provision q.user) := by
  unfold UserIdentityEventsGateway.handle at h
  split at h
  · cases h
    exact Or.inl rfl
  · split at h
    · cases h
    · rename_i haccepted
      rcases exec_userCreate h with ⟨_, rfl⟩ | ⟨hfree, rfl⟩
      · exact Or.inl rfl
      · exact Or.inr ⟨by simpa using haccepted, hfree, rfl⟩

/-- The profile consumers: any number of deliveries, interleaved statement by statement. -/
def profile (isUuid isEmail : String → Bool) : System UserLock UserTables UserFailure Unit UserRequest where
  isolation := userIsolation
  handler q := UserIdentityEventsGateway.handle isUuid isEmail q.gen q.event
  allowed _ _ := True
  env _ _ := False
  safe q _ := safe_identityEvent isUuid isEmail q.event
  env_part h := h.elim
  env_le h := h.elim

end MarketplaceApi.Provisioning

import Mathlib.Data.List.Pairwise
import MarketplaceApi.Placement.Requests
import MarketplaceApi.Provisioning.Delivery

/-!
# Every effect of a registration, once

For any order, number and overlap of deliveries: one user for an identity, one row for a user,
one buyer bound for good, one account opened at zero.
-/
namespace MarketplaceApi.Provisioning

open Messaging Txn
open Placement (OrderBuyer)
open Transition (Run)

/-- The user is of this identity, by either of its ids. -/
def User.belongs (user : User) (identity : Identity) : Bool :=
  decide (user.identityId = identity.id) || decide (user.identityPublicId = identity.publicId)

def OneUser (w : World) : Prop :=
  ∀ identity ∈ w.identities, (w.users.db.users.filter fun user => user.belongs identity).length ≤ 1

/-- The users inserted since the start, each with the one row written for it. -/
def AnnouncedOnce (start w : World) : Prop :=
  ∃ inserted, w.users.db.users = inserted ++ start.users.db.users ∧
    w.users.db.outbox = inserted.map UserMessageService.toUserCreatedOutbox ++ start.users.db.outbox

/-- Every buyer names an identity and the id of that identity's user. -/
def BoundToUser (w : World) : Prop :=
  ∀ buyer ∈ w.buyers.db, ∃ identity ∈ w.identities, buyer.identityPublicId = identity.publicId ∧
    ∃ user ∈ w.users.db.users, user.belongs identity = true ∧ buyer.userId = user.id

def OpenedOnce (w : World) : Prop :=
  ∀ customerId, (w.accounts.answers.filter (opened customerId)).length ≤ 1

/-- Only a commit of the profile consumer writes a user or a row, and it writes both. -/
def WritesBoth (w : World) (ev : Event) (w' : World) : Prop :=
  w'.users.db = w.users.db ∨ ∃ i t, ev = .profile (.commit i) ∧ w.users.txs i = some t ∧
    w'.users.db.users = t.request.user :: w.users.db.users ∧
    w'.users.db.outbox = UserMessageService.toUserCreatedOutbox t.request.user :: w.users.db.outbox

/-- A delivery of `user.created` keeps every account there is, and opens a missing one at zero. -/
def KeepsBalances (w : World) (ev : Event) (w' : World) : Prop :=
  ∀ i t customerId, ev = .accounts (.commit i) → w.accounts.txs i = some t → t.request = .userCreated customerId →
    (∀ c balance, w.accounts.db.balance c = some balance → w'.accounts.db.balance c = some balance) ∧
    (w.accounts.db.balance customerId = none → w'.accounts.db.balance customerId = some 0)

section
variable {isUuid isEmail : String → Bool} {w₀ w w' : World} {ev : Event} {tr tr' : List (World × Event)}

theorem length_filter_le_one {R : Type} {P : R → R → Prop} {p : R → Bool} {rows : List R} (h : rows.Pairwise P)
    (hp : ∀ x ∈ rows, ∀ y ∈ rows, p x = true → p y = true → ¬ P x y) : (rows.filter p).length ≤ 1 := by
  have hsub := h.filter p
  match hrows : rows.filter p, hsub with
  | [], _ => simp
  | [x], _ => simp
  | x :: y :: rest, hpair =>
    have hx : x ∈ rows.filter p := by simp [hrows]
    have hy : y ∈ rows.filter p := by simp [hrows]
    rw [List.mem_filter] at hx hy
    exact absurd ((List.pairwise_cons.mp hpair).1 y List.mem_cons_self) (hp x hx.1 y hy.1 hx.2 hy.2)

instance : Std.Symm Identity.Distinct where
  symm _ _ h := ⟨Ne.symm h.1, Ne.symm h.2⟩

/-- A user knows its identity by both ids if by either. -/
theorem Consistent.belongs (h : Consistent w) {identity : Identity} (hidentity : identity ∈ w.identities) {user : User}
    (huser : user ∈ w.users.db.users) (hbelongs : user.belongs identity = true) :
    user.identityId = identity.id ∧ user.identityPublicId = identity.publicId := by
  obtain ⟨owner, howner, hid, hpublic⟩ := h.owned user huser
  have hsame : owner = identity := by
    by_contra hne
    have hdistinct := h.identities.forall howner hidentity hne
    unfold User.belongs at hbelongs
    rw [hid, hpublic, Bool.or_eq_true, decide_eq_true_eq, decide_eq_true_eq] at hbelongs
    exact hbelongs.elim hdistinct.1 hdistinct.2
  subst hsame
  exact ⟨hid, hpublic⟩

theorem Consistent.oneUser (h : Consistent w) : OneUser w := by
  intro identity hidentity
  refine length_filter_le_one h.users fun x hx y hy hxi hyi hfree => ?_
  have hxid := (h.belongs hidentity hx hxi).1
  have hyid := (h.belongs hidentity hy hyi).1
  have hkey : UserLock.identityId identity.id ∈ x.keys := by simp [User.keys, hxid]
  exact hfree _ hkey (by simp [User.keys, hyid])

theorem Consistent.boundToUser (h : Consistent w) : BoundToUser w := by
  intro buyer hbuyer
  obtain ⟨user, huser, hid, hpublic⟩ := h.bound buyer hbuyer
  obtain ⟨identity, hidentity, howner, howner'⟩ := h.owned user huser
  exact ⟨identity, hidentity, hpublic.trans howner', user, huser, by simp [User.belongs, howner], hid⟩

theorem Keyed.forall {R K : Type} {keys : R → List K} {rows : List R} (h : Keyed keys rows) {x y : R} (hx : x ∈ rows)
    (hy : y ∈ rows) {k : K} (hkx : k ∈ keys x) (hky : k ∈ keys y) : x = y := by
  have : Std.Symm fun x y => ∀ k ∈ keys x, k ∉ keys y := ⟨fun _ _ h k hky hkx => h k hkx hky⟩
  by_contra hne
  exact List.Pairwise.forall h hx hy hne k hkx hky

theorem invariant_run (h : Deployed w₀) (hr : Run (Step isUuid isEmail) w₀ tr w) : Invariant isUuid isEmail w :=
  hr.invariant (invariant_deployed h) invariant_step

/-- No step takes a buyer away. -/
theorem buyers_grow (h : Invariant isUuid isEmail w) (hs : Step isUuid isEmail w ev w') :
    w.buyers.db.Sublist w'.buyers.db := by
  cases hs with
  | buyers hstep _ =>
    rcases buyers_step h hstep with hsame | ⟨event, _, identityPublicId, _, _, hdb⟩
    · rw [hsame]
    · rw [hdb]
      exact List.sublist_cons_self _ _
  | _ => exact .refl _

theorem buyers_grow_run (h : Invariant isUuid isEmail w) (hr : Run (Step isUuid isEmail) w tr w') :
    Invariant isUuid isEmail w' ∧ w.buyers.db.Sublist w'.buyers.db := by
  induction hr with
  | nil => exact ⟨h, .refl _⟩
  | snoc _ hstep ih => exact ⟨invariant_step ih.1 hstep, ih.2.trans (buyers_grow ih.1 hstep)⟩

/-- A buyer once bound is what every later lookup finds. -/
theorem never_rebound (h : Invariant isUuid isEmail w) (hr : Run (Step isUuid isEmail) w tr w') {buyer : OrderBuyer}
    (hbuyer : buyer ∈ w.buyers.db) :
    OrderBuyerRepository.findByIdentityPublicId buyer.identityPublicId w'.buyers.db = some buyer := by
  obtain ⟨h', hgrow⟩ := buyers_grow_run h hr
  have hlater := hgrow.subset hbuyer
  unfold OrderBuyerRepository.findByIdentityPublicId
  cases hfind : w'.buyers.db.find? fun other => other.identityPublicId = buyer.identityPublicId with
  | none =>
    have hno := List.find?_eq_none.mp hfind buyer hlater
    simp at hno
  | some other =>
    have hid : other.identityPublicId = buyer.identityPublicId := by simpa using List.find?_some hfind
    have hother := List.mem_of_find?_eq_some hfind
    have hkey : BuyerLock.identityPublicId buyer.identityPublicId ∈ buyerKeys other := by
      simp [buyerKeys, hid]
    rw [h'.consistent.buyers.forall hother hlater hkey (by simp [buyerKeys])]

theorem writesBoth (h : Invariant isUuid isEmail w) (hs : Step isUuid isEmail w ev w') : WritesBoth w ev w' := by
  cases hs with
  | profile hstep _ =>
    rcases profile_step h hstep with hsame | ⟨i, t, rfl, hi, _, _, hdb⟩
    · exact Or.inl hsame
    · refine Or.inr ⟨i, t, rfl, hi, ?_⟩
      constructor
      · exact congrArg UserTables.users hdb
      · exact congrArg UserTables.outbox hdb
  | _ => exact Or.inl rfl

theorem announcedOnce_step (h : Invariant isUuid isEmail w) (ha : AnnouncedOnce w₀ w)
    (hs : Step isUuid isEmail w ev w') : AnnouncedOnce w₀ w' := by
  obtain ⟨inserted, husers, hrows⟩ := ha
  rcases writesBoth h hs with hsame | ⟨i, t, _, _, husers', hrows'⟩
  · unfold AnnouncedOnce
    rw [hsame]
    exact ⟨inserted, husers, hrows⟩
  · refine ⟨t.request.user :: inserted, ?_, ?_⟩
    · rw [husers', husers, List.cons_append]
    · rw [hrows', hrows, List.map_cons, List.cons_append]

theorem announcedOnce_run (h : Deployed w₀) (hr : Run (Step isUuid isEmail) w₀ tr w) : AnnouncedOnce w₀ w := by
  induction hr with
  | nil => exact ⟨[], rfl, rfl⟩
  | snoc hr hstep ih => exact announcedOnce_step (invariant_run h hr) ih hstep

/-- What an account commit does to the accounts there are. -/
theorem keepsBalances (h : Invariant isUuid isEmail w) (hs : Step isUuid isEmail w ev w') :
    KeepsBalances w ev w' := by
  intro i t customerId hev hi hq
  cases hs with
  | @accounts e c hstep _ =>
    cases hev
    rcases hstep.moves h.openings with ⟨hno, _⟩ | ⟨j, u, b, status, hj, hu, _, he⟩
    · exact absurd rfl (hno i)
    · cases hj
      rw [hi] at hu
      cases hu
      have hc := Account.commit_of_exec he
      rw [hq] at hc
      change (∀ x balance, w.accounts.db.balance x = some balance → c.db.balance x = some balance) ∧
        (w.accounts.db.balance customerId = none → c.db.balance customerId = some 0)
      generalize c.db = db at hc
      cases hc with
      | accountCreated hnone =>
        refine ⟨fun x balance hx => ?_, fun _ => Account.setBalance_self _ _ _⟩
        have hne : x ≠ customerId := by
          rintro rfl
          rw [hnone] at hx
          cases hx
        rw [Account.setBalance_other _ _ hne]
        exact hx
      | accountKept hsome =>
        refine ⟨fun _ _ hx => hx, fun hnone => ?_⟩
        rw [hnone] at hsome
        cases hsome
  | _ => cases hev

/-- An account is answered as opened once at most, and then it is there. -/
def Openings (w : World) : Prop :=
  ∀ customerId, (w.accounts.answers.filter (opened customerId)).length ≤
    if (w.accounts.db.balance customerId).isSome then 1 else 0

/-- An answer that opened no account, however the tables grew. -/
theorem Openings.other {customerId : Nat} {s s' : Account.Tables}
    {answers : List (Account.Request × Except Account.Failure Account.Status)}
    {answer : Account.Request × Except Account.Failure Account.Status}
    (h : (answers.filter (opened customerId)).length ≤ if (s.balance customerId).isSome then 1 else 0)
    (hno : opened customerId answer = false) (hgrow : (s.balance customerId).isSome → (s'.balance customerId).isSome) :
    ((answer :: answers).filter (opened customerId)).length ≤ if (s'.balance customerId).isSome then 1 else 0 := by
  rw [List.filter_cons_of_neg (by simp [hno])]
  by_cases hsome : (s.balance customerId).isSome
  · rw [if_pos hsome] at h
    rw [if_pos (hgrow hsome)]
    exact h
  · rw [if_neg hsome] at h
    omega

theorem openings_commit {customerId : Nat} {s s' : Account.Tables} {q : Account.Request} {status : Account.Status}
    {answers : List (Account.Request × Except Account.Failure Account.Status)}
    (h : (answers.filter (opened customerId)).length ≤ if (s.balance customerId).isSome then 1 else 0)
    (hgrow : (s.balance customerId).isSome → (s'.balance customerId).isSome) (hc : Account.Commit q s s' status) :
    (((q, .ok status) :: answers).filter (opened customerId)).length ≤
      if (s'.balance customerId).isSome then 1 else 0 := by
  cases hc with
  | @accountCreated c s hnone =>
    by_cases hsame : c = customerId
    · subst hsame
      rw [hnone] at h
      rw [List.filter_cons_of_pos (by simp [opened]), Account.setBalance_self, List.length_cons]
      simpa using h
    · exact Openings.other h (by simp [opened, hsame]) hgrow
  | _ => exact Openings.other h rfl hgrow

theorem openings_step (h : Invariant isUuid isEmail w) (ho : Openings w) (hs : Step isUuid isEmail w ev w') :
    Openings w' := by
  cases hs with
  | @accounts e c hstep _ =>
    intro customerId
    have hbefore := ho customerId
    change (c.answers.filter (opened customerId)).length ≤ if (c.db.balance customerId).isSome then 1 else 0
    rcases hstep.serial h.openings with ⟨hd, ha, _⟩ | ⟨i, t, b, status, _, _, _, hb, he, ha⟩ |
      ⟨i, t, b, m, failure, _, _, _, _, _, hd, ha⟩ | ⟨_, henv, _⟩
    · rw [hd, ha]
      exact hbefore
    · rw [ha]
      have hgrow := (he.grows (Account.safe_handler b t.request) hb).2.2 customerId
      have hc := Account.commit_of_exec he
      exact openings_commit hbefore hgrow hc
    · rw [hd, ha, List.filter_cons_of_neg (by simp [opened])]
      exact hbefore
    · exact henv.elim
  | _ => exact ho

theorem openedOnce_run (h : Deployed w₀) (hr : Run (Step isUuid isEmail) w₀ tr w) : OpenedOnce w := by
  have hopen : Openings w := by
    induction hr with
    | nil =>
      intro customerId
      rw [h.accounts]
      exact Nat.zero_le _
    | snoc hr hstep ih => exact openings_step (invariant_run h hr) ih hstep
  intro customerId
  have hle := hopen customerId
  split at hle
  · exact hle
  · omega

/-- Provisioning is idempotent and consistent, in every state of every run. -/
theorem provisioned_once (h : Deployed w₀) (hr : Run (Step isUuid isEmail) w₀ tr w) :
    OneUser w ∧ AnnouncedOnce w₀ w ∧ BoundToUser w ∧ OpenedOnce w ∧
    (∀ tr' w', Run (Step isUuid isEmail) w tr' w' → ∀ buyer ∈ w.buyers.db,
      OrderBuyerRepository.findByIdentityPublicId buyer.identityPublicId w'.buyers.db = some buyer) ∧
    ∀ ev w', Step isUuid isEmail w ev w' → WritesBoth w ev w' ∧ KeepsBalances w ev w' := by
  have hinv := invariant_run h hr
  have hconsistent := hinv.consistent
  exact ⟨hconsistent.oneUser, announcedOnce_run h hr, hconsistent.boundToUser, openedOnce_run h hr,
    fun tr' w' hr' buyer hbuyer => never_rebound hinv hr' hbuyer,
    fun ev w' hs => ⟨writesBoth hinv hs, keepsBalances hinv hs⟩⟩

end

def sampleIdentity : Identity := ⟨3, "3f2504e0-4f89-41d3-9a0c-0305e82c3301", some "ann@mail.test", none, "user", 1_500⟩

def sampleDelivery : UserRequest where
  gen := ⟨7, "9b2d4c1e-8a37-4f5d-b6e0-2c71f3a9d845", 1_600⟩
  event :=
    toCloudEvent IdentityRegisteredEvent.SOURCE (IdentityMessageService.toIdentityRegisteredOutbox sampleIdentity)

def sampleCreated : CloudEvent UserCreatedEvent.Data :=
  toCloudEvent UserCreatedEvent.SOURCE (UserMessageService.toUserCreatedOutbox sampleDelivery.user)

/-- Before the first registration. -/
def emptyWorld : World := ⟨[], [], .start ⟨[], []⟩, [], .start [], .start .empty⟩

theorem deployed_empty : Deployed emptyWorld where
  consistent := ⟨.nil, fun _ h => absurd h List.not_mem_nil, .nil, fun _ h => absurd h List.not_mem_nil,
    fun _ h => absurd h List.not_mem_nil, fun _ h => absurd h List.not_mem_nil, .nil,
    fun _ h => absurd h List.not_mem_nil⟩
  users := rfl
  buyers := rfl
  accounts := rfl

/-- `z.email()`, as far as the sample goes. -/
def hasEmailShape (text : String) : Bool := isEmailFormat text.toList

section
open Placement (hasUuidShape)

/-- The deliveries of one registration, one after the other. -/
theorem provisioned_once_registered : ∃ tr w, Run (Step hasUuidShape hasEmailShape) emptyWorld tr w ∧
    w.users.db.users = [sampleDelivery.user] ∧ w.buyers.db = [⟨sampleIdentity.publicId, 7⟩] ∧
    w.accounts.db.balance 7 = some 0 ∧ OneUser w := by
  have hprofile : ((profile hasUuidShape hasEmailShape).handler sampleDelivery).run ⟨[], []⟩ =
      .ok (UserTables.provision ⟨[], []⟩ sampleDelivery.user, ()) := rfl
  have hbuyer : ((buyersConsumer hasUuidShape).handler sampleCreated).run [] =
      .ok ([⟨sampleIdentity.publicId, 7⟩], .registered true) := rfl
  have haccount : (Account.traffic.handler (.userCreated 7)).run .empty =
      .ok (Account.Tables.empty.setBalance 7 0, .created true) := rfl
  have hmessage : AccountUserEventsGateway.userCreated? hasUuidShape sampleCreated = some (.userCreated 7) := rfl
  let users : Config UserLock UserTables UserFailure Unit UserRequest :=
    ⟨.provision ⟨[], []⟩ sampleDelivery.user, fun _ => none, [(sampleDelivery, .ok ())]⟩
  let announced : World := ⟨[sampleIdentity], [sampleDelivery.event], .start ⟨[], []⟩, [], .start [], .start .empty⟩
  let relayed : World := ⟨[sampleIdentity], [sampleDelivery.event], users, [sampleCreated], .start [], .start .empty⟩
  have hregister : Step hasUuidShape hasEmailShape emptyWorld (.register sampleIdentity)
      ⟨[sampleIdentity], [], .start ⟨[], []⟩, [], .start [], .start .empty⟩ := .register nofun
  have hrelay : Step hasUuidShape hasEmailShape ⟨[sampleIdentity], [], .start ⟨[], []⟩, [], .start [], .start .empty⟩
      (.relayIdentity sampleIdentity) announced := .relayIdentity List.mem_cons_self
  obtain ⟨_, hr, hbegins⟩ := process_begins (Y := profile hasUuidShape hasEmailShape) sampleDelivery ⟨[], []⟩ []
    trivial hprofile
  have hcreate : ∃ tr, Run (Step hasUuidShape hasEmailShape) announced tr { announced with users := users } :=
    hr.lift (fun c => { announced with users := c }) .profile hbegins fun hmeets hstep =>
      .profile hstep fun i q hq => by
        rw [hmeets i q hq]
        exact List.mem_cons_self
  obtain ⟨_, hcreate⟩ := hcreate
  have hrelay' : Step hasUuidShape hasEmailShape { announced with users := users }
      (.relayUser (UserMessageService.toUserCreatedOutbox sampleDelivery.user)) relayed :=
    .relayUser List.mem_cons_self
  obtain ⟨_, hr', hbegins'⟩ := process_begins (Y := buyersConsumer hasUuidShape) sampleCreated [] [] trivial hbuyer
  have hbind : ∃ tr, Run (Step hasUuidShape hasEmailShape) relayed tr { relayed with buyers := _ } :=
    hr'.lift (fun c => { relayed with buyers := c }) .buyers hbegins' fun hmeets hstep =>
      .buyers hstep fun i event hevent => by
        rw [hmeets i event hevent]
        exact List.mem_cons_self
  obtain ⟨_, hbind⟩ := hbind
  obtain ⟨_, hr'', hbegins''⟩ := process_begins (Y := Account.traffic) (.userCreated 7) .empty [] trivial haccount
  let bound : World := { relayed with buyers := ⟨[⟨sampleIdentity.publicId, 7⟩], fun _ => none,
    [(sampleCreated, .ok (.registered true))]⟩ }
  have hopen : ∃ tr, Run (Step hasUuidShape hasEmailShape) bound tr { bound with accounts := _ } :=
    hr''.lift (fun c => { bound with accounts := c }) .accounts hbegins'' fun hmeets hstep =>
      .accounts hstep fun i customerId hevent => by
        rw [hmeets i _ hevent]
        exact ⟨sampleCreated, List.mem_cons_self, hmessage⟩
  obtain ⟨_, hopen⟩ := hopen
  have hrun := ((((Run.nil.snoc hregister).snoc hrelay).append hcreate).snoc hrelay').append (hbind.append hopen)
  exact ⟨_, _, hrun, rfl, rfl, Account.setBalance_self _ _ _, (provisioned_once deployed_empty hrun).1⟩

end

end MarketplaceApi.Provisioning

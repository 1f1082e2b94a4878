import Mathlib.Data.Countable.Basic
import Mathlib.Data.Fintype.EquivFin
import Mathlib.Logic.Equiv.List
import MarketplaceApi.Kafka.Progress
import MarketplaceApi.Provisioning.Pipeline

/-!
# Every registration arrives

What the three groups owe, in any run; and nothing malformed, refused or repeated on `identity.events` holds
`user.profile` back for good: from every state in which no transaction of it is open, it can go through any partition.
Only an id beyond its column would, which no identity has.
-/
namespace MarketplaceApi.Provisioning

open Messaging Txn
open Placement (OrderBuyer hasUuidShape)
open Kafka (Parsed Purpose)
open Transition (Run Always always_nil always_snoc always_append)

section
variable {isUuid isEmail : String → Bool} {s : UserTables} {gen : Generated} {input : UserCreate}

/-- The grammar of the consumer is narrower than the CHECK constraints of `User`. -/
theorem allowed_of_accepted (hemail : ∀ text, isEmail text = true → isEmailFormat text.toList = true)
    {event : CloudEvent IdentityRegisteredEvent.Data} (h : identityRegisteredEventSchema isUuid isEmail event = true) :
    (UserRequest.user ⟨gen, event⟩).allowed = true := by
  simp only [identityRegisteredEventSchema, Bool.and_eq_true] at h
  obtain ⟨⟨_, haddress⟩, hphone⟩ := h
  change ((event.data.email.all fun email => isEmailFormat email.toList) && _) = true
  rw [Bool.and_eq_true]
  refine ⟨?_, hphone⟩
  cases he : event.data.email with
  | none => rfl
  | some email =>
    rw [he] at haddress
    exact hemail email haddress

/-- No row of the outbox is in the way of the new user's. -/
theorem free_event (hrow : ∀ row ∈ s.outbox, row.id ≠ gen.publicId) :
    (s.addUser (input.toUser gen)).taken (.event gen.publicId) = false := by
  unfold UserTables.taken
  rw [Bool.or_eq_false_iff]
  constructor
  · simp [User.keys]
  · refine List.any_eq_false.mpr fun row hin => ?_
    have hne := hrow row hin
    simpa using hne.symm

/-- With nothing in the way, the command handler commits. -/
theorem run_userCreate (hinteger : isInteger input.identityId = true)
    (hallowed : (input.toUser gen).allowed = true) (hrow : ∀ row ∈ s.outbox, row.id ≠ gen.publicId) :
    ∃ s', (UserCreateCommandHandler.execute gen input).run s = .ok (s', ()) := by
  have hcreate : (UserRepository.createIfAbsent gen input).run s =
      if (input.toUser gen).keys.any s.taken then .ok (s, false) else .ok (s.addUser (input.toUser gen), true) := by
    unfold UserRepository.createIfAbsent
    rw [if_neg (by simp [hinteger]), if_neg (by simp [hallowed]), Prog.bind_eq, Prog.run_bind, Prog.run_look]
    change Prog.run (if (input.toUser gen).keys.any s.taken then _ else _) s = _
    split
    · rfl
    · rename_i hfree
      rw [Prog.run_exec, if_neg hfree]
  unfold UserCreateCommandHandler.execute
  rw [Prog.bind_eq, Prog.run_bind, hcreate]
  split
  · exact ⟨s, rfl⟩
  · change ∃ s', Prog.run (Prog.bind (UserRepository.findByIdentityIdOrFail input.identityId) _) _ = _
    have hfind : (UserRepository.findByIdentityIdOrFail input.identityId).run (s.addUser (input.toUser gen)) =
        .ok (s.addUser (input.toUser gen), input.toUser gen) := by
      unfold UserRepository.findByIdentityIdOrFail
      rw [Prog.run_exec]
      have hown : ((s.addUser (input.toUser gen)).users.find? fun other => other.identityId = input.identityId) =
          some (input.toUser gen) := find_addUser s (input.toUser gen)
      rw [hown]
    rw [Prog.run_bind, hfind]
    change ∃ s', (UserOutboxRepository.create (UserMessageService.toUserCreatedOutbox (input.toUser gen))).run
      (s.addUser (input.toUser gen)) = _
    unfold UserOutboxRepository.create
    rw [Prog.run_exec]
    have hkey : (s.addUser (input.toUser gen)).taken
      (.event (UserMessageService.toUserCreatedOutbox (input.toUser gen)).id) = false := free_event hrow
    rw [if_neg (by simp [hkey])]
    exact ⟨_, rfl⟩
end

section
variable {isUuid isEmail : String → Bool} {decode : String → Parsed (CloudEvent IdentityRegisteredEvent.Data)}

/-- A commit is the column's consent to the id. -/
theorem integer_of_exec {b s s' : UserTables} {q : UserRequest} {u : Unit}
    (h : Exec userIsolation b (UserIdentityEventsGateway.handle isUuid isEmail q.gen q.event) s s' (.ok u)) :
    q.event.type ≠ IdentityRegisteredEvent.TYPE ∨
      (identityRegisteredEventSchema isUuid isEmail q.event = true ∧ isInteger q.event.data.identityId = true) := by
  unfold UserIdentityEventsGateway.handle at h
  split at h
  · rename_i hother
    exact Or.inl (by simpa using hother)
  · split at h
    · cases h
    · rename_i haccepted
      obtain ⟨_, _, _, _, hcreate, _⟩ := Exec.of_bind h
      unfold UserRepository.createIfAbsent at hcreate
      split at hcreate
      · cases hcreate
      · rename_i hinteger
        exact Or.inr ⟨by simpa using haccepted, by simpa using hinteger⟩

/-- What `user.profile` takes for done, whoever wrote to the topic. -/
def integerPurpose : Purpose (profileSubscription isUuid isEmail decode) where
  Admitted _ := True
  Fresh _ _ := True
  Good _ := True
  Done _ event := event.type ≠ IdentityRegisteredEvent.TYPE ∨
    (identityRegisteredEventSchema isUuid isEmail event = true ∧ isInteger event.data.identityId = true)
  Refused event :=
    event.type = IdentityRegisteredEvent.TYPE ∧ identityRegisteredEventSchema isUuid isEmail event = false
  done := by
    intro event q b s s' u hq _ _ _ _ he
    obtain rfl : q.event = event := hq
    exact integer_of_exec he
  refused := @profile_refused isUuid isEmail decode
  apart := by
    rintro s event hrefused (hother | ⟨haccepted, _⟩)
    · exact hother hrefused.1
    · exact not_refused haccepted hrefused
  good := by
    intros
    trivial
  kept _ _ h := h
  env_good h := h.elim
  env_kept h := h.elim

/-- An accepted event whose id is beyond the column is tried for ever: its offset is never committed, nor is one
behind it. -/
theorem held_back {c : ProfileGroup} {tr : List (ProfileGroup × Kafka.Event UserRequest)}
    (hr : Run (Kafka.Step (profileSubscription isUuid isEmail decode)) (.start ⟨[], []⟩) tr c)
    {position : Kafka.Position} {message : Kafka.Message} (hmessage : c.message? position = some message)
    {event : CloudEvent IdentityRegisteredEvent.Data} (hread : decode (message.value.getD "") = .event event)
    (haccepted : identityRegisteredEventSchema isUuid isEmail event = true)
    (hinteger : isInteger event.data.identityId = false) :
    c.committed position.partition ≤ position.offset := by
  have hmeets : Always (@integerPurpose isUuid isEmail decode).Meets tr :=
    fun _ _ => ⟨fun _ _ _ _ => trivial, fun _ _ _ _ _ _ _ => trivial, fun _ _ _ _ => trivial⟩
  by_contra hpast
  rcases (Kafka.delivered_run trivial hr hmeets).done (by omega) hmessage hread (not_refused haccepted) with
    hother | ⟨_, hcolumn⟩
  · simp only [identityRegisteredEventSchema, Bool.and_eq_true] at haccepted
    obtain ⟨⟨⟨⟨⟨_, htype⟩, _⟩, _⟩, _⟩, _⟩ := haccepted
    exact hother (by simpa using htype)
  · rw [hinteger] at hcolumn
    cases hcolumn

end

/-- Two values that no row has. -/
theorem exists_fresh (s : UserTables) : ∃ gen : Generated,
    (∀ user ∈ s.users, user.id ≠ gen.id ∧ user.publicId ≠ gen.publicId) ∧ ∀ row ∈ s.outbox, row.id ≠ gen.publicId := by
  obtain ⟨id, hid⟩ := Infinite.exists_notMem_finset (s.users.map User.id).toFinset
  obtain ⟨publicId, hpublic⟩ :=
    Infinite.exists_notMem_finset (s.users.map User.publicId ++ s.outbox.map OutboxRow.id).toFinset
  simp only [List.mem_toFinset, List.mem_append, List.mem_map, not_or, not_exists, not_and] at hid hpublic
  exact ⟨⟨id, publicId, 0⟩, fun user huser => ⟨hid user huser, hpublic.1 user huser⟩, hpublic.2⟩

section
variable {isUuid isEmail : String → Bool} {I : Codec IdentityRegisteredEvent.Data} {U : Codec UserCreatedEvent.Data}
  {w w' : Pipeline} {tr : List (Pipeline × Pipeline.Event)} {identities : List Identity}

/-- Only `user.profile` draws ids. -/
theorem draws_of_ne {ev : Pipeline.Event} (h : ∀ e, ev ≠ .profile e) : DrawsFreshIds w ev :=
  fun _ _ he => absurd he (h _)

theorem draws_of_idle (h : ∀ p ∈ tr, ∀ e, p.2 ≠ .profile e) : Always DrawsFreshIds tr :=
  fun p hp => draws_of_ne (h p hp)

/-- The column of the ids is an `integer`. -/
theorem integers_run (hr : Run (Pipeline.Step isUuid isEmail I U) Pipeline.start tr w) :
    ∀ identity ∈ w.identities, isInteger identity.id = true := by
  induction hr with
  | nil => exact fun _ h => absurd h List.not_mem_nil
  | snoc _ hstep ih =>
    cases hstep with
    | register hinteger _ => exact List.forall_mem_cons.mpr ⟨hinteger, ih⟩
    | _ => exact ih

/-- Any event that comes of an identity or is refused can be handled or rejected, on any tables. -/
theorem profile_able (hemail : ∀ text, isEmail text = true → isEmailFormat text.toList = true)
    (hids : Identified identities) (hintegers : ∀ identity ∈ identities, isInteger identity.id = true) :
    (@profilePurpose isUuid isEmail identities I.decode hids).Able := by
  intro s event _ hadmitted
  obtain ⟨gen, hfresh, hrow⟩ := exists_fresh s
  refine ⟨⟨gen, event⟩, rfl, trivial, hfresh, ?_⟩
  change (∃ s' r, (UserIdentityEventsGateway.handle isUuid isEmail gen event).run s = .ok (s', r)) ∨
    ∃ e, (UserIdentityEventsGateway.handle isUuid isEmail gen event).run s = .error e ∧ _
  unfold UserIdentityEventsGateway.handle
  split
  · exact Or.inl ⟨s, (), rfl⟩
  · split
    · exact Or.inr ⟨.rejectedMessage, rfl, rfl⟩
    · rename_i hnot
      have haccepted : identityRegisteredEventSchema isUuid isEmail event = true := by simpa using hnot
      obtain ⟨identity, hidentity, hid, _⟩ := hadmitted ⟨gen, event⟩ rfl haccepted
      have hinteger : isInteger event.data.identityId = true := by
        rw [hid]
        exact hintegers identity hidentity
      have hallowed : (UserRequest.user ⟨gen, event⟩).allowed = true := allowed_of_accepted hemail haccepted
      obtain ⟨s', hrun⟩ := run_userCreate hinteger hallowed hrow
      exact Or.inl ⟨s', (), hrun⟩

/-- What a group does by itself is a run of the whole. -/
theorem group_lift {K S E R Q V : Type} {X : Kafka.Subscription K S E R Q V} {P : Purpose X}
    {c c' : Kafka.World K S E R Q} {tr : List (Kafka.World K S E R Q × Kafka.Event Q)}
    (embed : Kafka.World K S E R Q → Pipeline) (event : Kafka.Event Q → Pipeline.Event)
    (hr : Run (Kafka.Step X) c tr c') (ha : Always P.Acts tr)
    (hstep : ∀ {c e c'}, Fed c (fun _ => True) e → Kafka.Step X c e c' →
      Pipeline.Step isUuid isEmail I U (embed c) (event e) (embed c'))
    (hfresh : ∀ {c e}, P.Meets c e → DrawsFreshIds (embed c) (event e)) :
    ∃ tr', Run (Pipeline.Step isUuid isEmail I U) (embed c) tr' (embed c') ∧ Always DrawsFreshIds tr' := by
  induction hr with
  | nil => exact ⟨[], .nil, always_nil⟩
  | snoc _ hlast ih =>
    obtain ⟨hbefore, hmeets, happend, hbegin⟩ := always_snoc.mp ha
    obtain ⟨tr', hr', hdraws⟩ := ih hbefore
    have hfed : Fed _ (fun _ => True) _ := ⟨happend, fun i q he hnone => absurd hnone (hbegin i q he)⟩
    exact ⟨_, hr'.snoc (hstep hfed hlast), always_snoc.mpr ⟨hdraws, hfresh hmeets⟩⟩

theorem profile_lift {hids : Identified identities} {c : ProfileGroup}
    {tr : List (ProfileGroup × Kafka.Event UserRequest)}
    (hr : Run (Kafka.Step (profileSubscription isUuid isEmail I.decode)) w.profile tr c)
    (ha : Always (@profilePurpose isUuid isEmail identities I.decode hids).Acts tr) :
    ∃ tr', Run (Pipeline.Step isUuid isEmail I U) w tr' { w with profile := c } ∧ Always DrawsFreshIds tr' :=
  group_lift (fun c => { w with profile := c }) .profile hr ha (fun hfed hstep => .profile hfed hstep)
    fun hmeets i t he hi => hmeets.fresh i t (Pipeline.Event.profile.inj he) hi

/-- With no transaction open, `user.profile` can get to the end of any partition. -/
theorem profile_catches_up (hemail : ∀ text, isEmail text = true → isEmailFormat text.toList = true)
    (hr : Run (Pipeline.Step isUuid isEmail I U) Pipeline.start tr w) (hm : Always DrawsFreshIds tr)
    (hidle : w.profile.db.txs = fun _ => none) (partition : Nat) :
    ∃ tr' c, Run (Pipeline.Step isUuid isEmail I U) w tr' { w with profile := c } ∧ Always DrawsFreshIds tr' ∧
      c.log = w.profile.log ∧ c.committed partition = (w.profile.log partition).length := by
  have hids := identified_of_distinct (distinct_run hr)
  obtain ⟨_, hprofile, hmeets⟩ := profile_run hids hr hm (List.Subset.refl _)
  obtain ⟨hsound, hinv⟩ := Kafka.invariant_run provisioned_empty hprofile hmeets
  have hcommitted : w.profile.committed partition ≤ (w.profile.log partition).length := by
    by_contra hlt
    obtain ⟨_, hmessage, _⟩ := hinv.settled partition (w.profile.log partition).length (by simpa using hlt)
    simp [Kafka.World.message?] at hmessage
  obtain ⟨_, c, hr', hacts, hlog, hend⟩ :=
    Kafka.catches_up (profile_able hemail hids (integers_run hr)) hsound hcommitted hidle
  obtain ⟨tr', hr'', hfresh⟩ := profile_lift (U := U) hr' hacts
  exact ⟨tr', c, hr'', hfresh, hlog, hend⟩

end

theorem countable_string : Countable String := by
  have hchar : Countable Char := Function.Injective.countable (f := Char.toNat) fun _ _ h => Char.toNat_inj.mp h
  exact Function.Injective.countable (f := String.toList) fun _ _ h => String.toList_inj.mp h

/-- Events can be written down: any injective text will do, and leave others that are none. -/
theorem exists_codec {D : Type} [Countable D] : ∃ J : Codec D, J.decode "malformed" = .rejected := by
  have hstring := countable_string
  have hevents : Countable (CloudEvent D) := by
    refine Function.Injective.countable (f := fun event => (event.specversion, event.id, event.source, event.type,
      event.datacontenttype, event.subject, event.correlationid, event.data)) fun x y h => ?_
    cases x
    cases y
    simpa using h
  obtain ⟨number, hnumber⟩ := exists_injective_nat (CloudEvent D)
  let encode : CloudEvent D → String := fun event => String.ofList (List.replicate (number event) 'a')
  have hencode : ∀ x y, encode x = encode y → x = y := by
    intro x y h
    have hlength := congrArg (fun text => text.toList.length) h
    exact hnumber (by simpa [encode] using hlength)
  classical
  refine ⟨⟨encode, fun text => if h : ∃ event, encode event = text then .event h.choose else .rejected,
    fun event => ?_⟩, ?_⟩
  · have hfound : ∃ other, encode other = encode event := ⟨event, rfl⟩
    rw [dif_pos hfound, hencode _ _ hfound.choose_spec]
  · refine dif_neg ?_
    rintro ⟨event, heq⟩
    have hin : 'm' ∈ (encode event).toList := by simp [heq]
    simp [encode] at hin

theorem countable_identityRegistered : Countable IdentityRegisteredEvent.Data := by
  have hstring := countable_string
  refine Function.Injective.countable (f := fun data => (data.identityId, data.identityPublicId, data.email,
    data.phoneNumber, data.role, data.createdAt)) fun x y h => ?_
  cases x
  cases y
  simpa using h

theorem countable_userCreated : Countable UserCreatedEvent.Data := by
  have hstring := countable_string
  have hlanguage : Countable Language :=
    Function.Injective.countable (f := fun language => decide (language = .en)) fun x y => by
      cases x <;> cases y <;> simp
  refine Function.Injective.countable (f := fun data => (data.userId, data.userPublicId, data.identityId,
    data.identityPublicId, data.email, data.phoneNumber, data.firstName, data.lastName, data.language,
    data.createdAt)) fun x y h => ?_
  cases x
  cases y
  simpa using h

theorem sampleIdentity_valid : sampleIdentity.valid hasUuidShape hasEmailShape := by
  unfold Identity.valid
  rfl

section
variable {isUuid isEmail : String → Bool} {I : Codec IdentityRegisteredEvent.Data} {U : Codec UserCreatedEvent.Data}
  {w w' : Pipeline} {tr : List (Pipeline × Pipeline.Event)}

/-- What `order.buyers` has done by then, against the users there are. -/
theorem buyers_delivered (hr : Run (Pipeline.Step isUuid isEmail I U) Pipeline.start tr w)
    (hm : Always DrawsFreshIds tr) :
    Kafka.Delivered (@buyersPurpose isUuid _ U.decode (known_of_keyed (users_provisioned hr hm).keyed)) w.buyers := by
  obtain ⟨_, hbuyers, hmeets⟩ := buyers_run (known_of_keyed (users_provisioned hr hm).keyed) hr hm
    fun user huser => List.mem_map_of_mem huser
  exact Kafka.delivered_run (fun buyer h => absurd h List.not_mem_nil) hbuyers hmeets

theorem accounts_delivered (hr : Run (Pipeline.Step isUuid isEmail I U) Pipeline.start tr w) :
    Kafka.Delivered (@accountPurpose isUuid U.decode) w.accounts := by
  obtain ⟨_, haccounts⟩ := accounts_run hr
  exact Kafka.delivered_run trivial haccounts accounts_meet

theorem buyers_arrived (hr : Run (Pipeline.Step isUuid isEmail I U) Pipeline.start tr w)
    (hm : Always DrawsFreshIds tr) :
    ∀ position, position.offset < w.buyers.committed position.partition → ∀ user ∈ w.profile.db.db.users,
      w.buyers.message? position = some (userMessage U user) → user.validFor isUuid orderUserCreatedEventSchema →
      ⟨user.identityPublicId, (user.id : Int)⟩ ∈ w.buyers.db.db := by
  intro position ho user huser hmessage hvalid
  have hdone := (buyers_delivered hr hm).done ho hmessage (read_user user) (not_refused hvalid)
  rcases hdone with hother | ⟨_, hbuyer⟩
  · exact absurd rfl hother
  · exact hbuyer _ rfl

theorem accounts_arrived (hr : Run (Pipeline.Step isUuid isEmail I U) Pipeline.start tr w) :
    ∀ position, position.offset < w.accounts.committed position.partition → ∀ user ∈ w.profile.db.db.users,
      w.accounts.message? position = some (userMessage U user) → user.validFor isUuid accountUserCreatedEventSchema →
      (w.accounts.db.db.balance user.id).isSome := by
  intro position ho user huser hmessage hvalid
  exact (accounts_delivered hr).done ho hmessage (read_account hvalid) id

theorem identityLetters_run (hr : Run (Pipeline.Step isUuid isEmail I U) Pipeline.start tr w)
    (hm : Always DrawsFreshIds tr) :
    ∀ letter ∈ w.profile.deadLetters, ∀ identity : Identity, identity.valid isUuid isEmail →
      letter.message ≠ identityMessage I identity := by
  intro letter hletter identity hvalid hsame
  have hread := @read_identity isUuid isEmail I identity
  rw [← hsame] at hread
  exact not_refused hvalid ((profile_delivered hr hm).refused hletter hread)

theorem buyerLetters_run (hr : Run (Pipeline.Step isUuid isEmail I U) Pipeline.start tr w)
    (hm : Always DrawsFreshIds tr) :
    ∀ letter ∈ w.buyers.deadLetters, ∀ user : User, user.validFor isUuid orderUserCreatedEventSchema →
      letter.message ≠ userMessage U user := by
  intro letter hletter user hvalid hsame
  have hread := @read_user isUuid U user
  rw [← hsame] at hread
  exact not_refused hvalid ((buyers_delivered hr hm).refused hletter hread)

theorem accountLetters_run (hr : Run (Pipeline.Step isUuid isEmail I U) Pipeline.start tr w) :
    ∀ letter ∈ w.accounts.deadLetters, ∀ user : User, user.validFor isUuid accountUserCreatedEventSchema →
      letter.message ≠ userMessage U user := by
  intro letter hletter user hvalid hsame
  have hread := read_account (U := U) hvalid
  rw [← hsame] at hread
  exact (accounts_delivered hr).refused hletter hread

/-- Whatever fails and however the members of a group overlap: behind its committed offset every valid registration
has its user, and every valid user its buyer and its account; no valid event is a dead letter. -/
theorem pipeline_arrived (hr : Run (Pipeline.Step isUuid isEmail I U) Pipeline.start tr w)
    (hm : Always DrawsFreshIds tr) : Arrived isUuid isEmail I U w where
  users := users_arrived hr hm
  rows := (users_provisioned hr hm).rows
  buyers := buyers_arrived hr hm
  accounts := accounts_arrived hr
  identityLetters := identityLetters_run hr hm
  buyerLetters := buyerLetters_run hr hm
  accountLetters := accountLetters_run hr

/-- Every registration that the schema accepts can still get its user, whatever it shares the topic with; the whole
partition that its event goes to is done with then. -/
theorem user_within_reach (hemail : ∀ text, isEmail text = true → isEmailFormat text.toList = true)
    (hr : Run (Pipeline.Step isUuid isEmail I U) Pipeline.start tr w) (hm : Always DrawsFreshIds tr)
    (hidle : w.profile.db.txs = fun _ => none) {identity : Identity} (hidentity : identity ∈ w.identities)
    (hvalid : identity.valid isUuid isEmail) (partition : Nat) :
    ∃ tr' w', Run (Pipeline.Step isUuid isEmail I U) w tr' w' ∧ Always DrawsFreshIds tr' ∧
      w.profile.log partition <+: w'.profile.log partition ∧
      w'.profile.committed partition = (w'.profile.log partition).length ∧
      ∃ user ∈ w'.profile.db.db.users, identity.owns user := by
  have hrelay : Pipeline.Step isUuid isEmail I U w (.relayIdentity identity partition) _ := .relayIdentity hidentity
  have hr₁ := hr.snoc hrelay
  have hm₁ : Always DrawsFreshIds (tr ++ [(w, .relayIdentity identity partition)]) :=
    always_snoc.mpr ⟨hm, draws_of_ne (by simp)⟩
  obtain ⟨tr', c, hr', hfresh, hlog, hend⟩ := profile_catches_up hemail hr₁ hm₁ hidle partition
  have harrived := users_arrived (hr₁.append hr') (always_append.mpr ⟨hm₁, hfresh⟩)
  have hown : c.log partition = w.profile.log partition ++ [identityMessage I identity] := by
    rw [hlog, Kafka.append_log, if_pos rfl]
  have hcommitted : c.committed partition = (c.log partition).length := by rw [hend, hlog]
  have hmessage : c.message? ⟨partition, (w.profile.log partition).length⟩ = some (identityMessage I identity) := by
    simp [Kafka.World.message?, hown]
  have hpast : (w.profile.log partition).length < c.committed partition := by
    rw [hcommitted, hown]
    simp
  have hgrown : w.profile.log partition <+: c.log partition := ⟨[identityMessage I identity], hown.symm⟩
  exact ⟨_, { w with profile := c }, (Run.nil.snoc hrelay).append hr', always_append.mpr ⟨always_snoc.mpr ⟨always_nil,
    (always_snoc.mp hm₁).2⟩, hfresh⟩, hgrown, hcommitted, harrived _ hpast identity hidentity hmessage hvalid⟩

end

section
variable {I : Codec IdentityRegisteredEvent.Data} {U : Codec UserCreatedEvent.Data}

theorem buyers_lift {w : Pipeline} {known : List OrderBuyer} {hknown : Known known} {c : BuyersGroup}
    {tr : List (BuyersGroup × Kafka.Event (CloudEvent UserCreatedEvent.Data))}
    (hr : Run (Kafka.Step (buyersSubscription hasUuidShape U.decode)) w.buyers tr c)
    (ha : Always (@buyersPurpose hasUuidShape known U.decode hknown).Acts tr) :
    ∃ tr', Run (Pipeline.Step hasUuidShape hasEmailShape I U) w tr' { w with buyers := c } ∧
      Always DrawsFreshIds tr' :=
  group_lift (fun c => { w with buyers := c }) .buyers hr ha (fun hfed hstep => .buyers hfed hstep)
    fun _ => draws_of_ne (by simp)

theorem accounts_lift {w : Pipeline} {c : AccountsGroup} {tr : List (AccountsGroup × Kafka.Event Account.Request)}
    (hr : Run (Kafka.Step (accountSubscription hasUuidShape U.decode)) w.accounts tr c)
    (ha : Always (@accountPurpose hasUuidShape U.decode).Acts tr) :
    ∃ tr', Run (Pipeline.Step hasUuidShape hasEmailShape I U) w tr' { w with accounts := c } ∧
      Always DrawsFreshIds tr' :=
  group_lift (fun c => { w with accounts := c }) .accounts hr ha
    (fun hfed hstep => .accounts ⟨hfed.1, fun i q he hnone => absurd trivial (hfed.2 i q he hnone)⟩ hstep)
    fun _ => draws_of_ne (by simp)

theorem identified_sample : Identified [sampleIdentity] := by
  intro x hx y hy _
  rw [List.mem_singleton.mp hx, List.mem_singleton.mp hy]

theorem known_sample : Known [sampleDelivery.user.buyer] := by
  intro x hx y hy _
  rw [List.mem_singleton.mp hx, List.mem_singleton.mp hy]

/-- One registration through the three groups, on an empty pipeline. -/
theorem registered_run (I : Codec IdentityRegisteredEvent.Data) (U : Codec UserCreatedEvent.Data) :
    ∃ tr w, Run (Pipeline.Step hasUuidShape hasEmailShape I U) Pipeline.start tr w ∧ Always DrawsFreshIds tr ∧
      w.identities = [sampleIdentity] ∧ w.profile.message? ⟨0, 0⟩ = some (identityMessage I sampleIdentity) ∧
      w.profile.committed 0 = 1 ∧ w.profile.db.db.users = [sampleDelivery.user] ∧
      w.buyers.message? ⟨1, 0⟩ = some (userMessage U sampleDelivery.user) ∧ w.buyers.committed 1 = 1 ∧
      w.accounts.message? ⟨1, 0⟩ = some (userMessage U sampleDelivery.user) ∧ w.accounts.committed 1 = 1 := by
  have huser : ((profile hasUuidShape hasEmailShape).handler sampleDelivery).run ⟨[], []⟩ =
      .ok (UserTables.provision ⟨[], []⟩ sampleDelivery.user, ()) := rfl
  have hbuyer : ((buyersConsumer hasUuidShape).handler sampleCreated).run [] =
      .ok ([⟨sampleIdentity.publicId, 7⟩], .registered true) := rfl
  have haccount : (Account.traffic.handler (.userCreated 7)).run .empty =
      .ok (Account.Tables.empty.setBalance 7 0, .created true) := rfl
  have hrequest : (accountSubscription hasUuidShape U.decode).request sampleCreated (.userCreated 7) := rfl
  have hregister : Pipeline.Step hasUuidShape hasEmailShape I U Pipeline.start (.register sampleIdentity)
      { Pipeline.start with identities := [sampleIdentity] } := .register rfl nofun
  have hrelay : Pipeline.Step hasUuidShape hasEmailShape I U { Pipeline.start with identities := [sampleIdentity] }
      (.relayIdentity sampleIdentity 0) _ := .relayIdentity List.mem_cons_self
  obtain ⟨_, c, hprofile, hacts, hmessage, hcommitted, hdb⟩ := Kafka.first_run
    (@profilePurpose hasUuidShape hasEmailShape _ I.decode identified_sample) 0 ⟨[], []⟩
    (read_identity sampleIdentity) (q := sampleDelivery) rfl trivial nofun huser
  obtain ⟨_, hprofile, hdraws⟩ := profile_lift (U := U) (w := ⟨[sampleIdentity], _, .start [], .start .empty⟩)
    hprofile hacts
  have hrow : UserMessageService.toUserCreatedOutbox sampleDelivery.user ∈ c.db.db.outbox := by
    rw [hdb]
    exact List.mem_cons_self
  have hrelay' : Pipeline.Step hasUuidShape hasEmailShape I U ⟨[sampleIdentity], c, .start [], .start .empty⟩
      (.relayUser (UserMessageService.toUserCreatedOutbox sampleDelivery.user) 1) _ := .relayUser hrow
  obtain ⟨_, c', hbuyers, hacts', hmessage', hcommitted', _⟩ := Kafka.first_run
    (@buyersPurpose hasUuidShape _ U.decode known_sample) 1 [] (read_user sampleDelivery.user) (q := sampleCreated) rfl
    trivial trivial hbuyer
  obtain ⟨_, hbuyers, hdraws'⟩ := buyers_lift (I := I) (w := ⟨[sampleIdentity], c, _,
    Kafka.World.append (.start .empty) 1 (userMessage U sampleDelivery.user)⟩) hbuyers hacts'
  obtain ⟨_, c'', haccounts, hacts'', hmessage'', hcommitted'', _⟩ := Kafka.first_run
    (@accountPurpose hasUuidShape U.decode) 1 .empty (@read_account _ U sampleDelivery.user rfl) hrequest trivial
    trivial haccount
  obtain ⟨_, haccounts, hdraws''⟩ := accounts_lift (I := I) (w := ⟨[sampleIdentity], c, c', _⟩) haccounts hacts''
  have hrun := ((((Run.nil.snoc hregister).snoc hrelay).append hprofile).snoc hrelay').append
    (hbuyers.append haccounts)
  refine ⟨_, _, hrun, ?_, rfl, hmessage, hcommitted, by rw [hdb]; rfl, hmessage', hcommitted', hmessage'',
    hcommitted''⟩
  refine always_append.mpr ⟨always_snoc.mpr ⟨always_append.mpr ⟨?_, hdraws⟩, draws_of_ne (by simp)⟩,
    always_append.mpr ⟨hdraws', hdraws''⟩⟩
  exact always_snoc.mpr ⟨always_snoc.mpr ⟨always_nil, draws_of_ne (by simp)⟩, draws_of_ne (by simp)⟩

/-- The registered identity has its user, its buyer and its account. -/
theorem pipeline_arrived_sample : ∃ (I : Codec IdentityRegisteredEvent.Data) (U : Codec UserCreatedEvent.Data)
    (tr : List (Pipeline × Pipeline.Event)) (w : Pipeline),
    Run (Pipeline.Step hasUuidShape hasEmailShape I U) Pipeline.start tr w ∧ w.profile.committed 0 = 1 ∧
      w.buyers.committed 1 = 1 ∧ w.accounts.committed 1 = 1 ∧
      (∃ user ∈ w.profile.db.db.users, sampleIdentity.owns user) ∧
      ⟨sampleIdentity.publicId, 7⟩ ∈ w.buyers.db.db ∧ (w.accounts.db.db.balance 7).isSome := by
  have := countable_identityRegistered
  have := countable_userCreated
  obtain ⟨I, _⟩ := exists_codec (D := IdentityRegisteredEvent.Data)
  obtain ⟨U, _⟩ := exists_codec (D := UserCreatedEvent.Data)
  obtain ⟨tr, w, hr, hm, hidentities, hidentity, hprofile, husers, hbuyer, hbuyers, haccount, haccounts⟩ :=
    registered_run I U
  have harrived := pipeline_arrived hr hm
  have hin : sampleDelivery.user ∈ w.profile.db.db.users := by simp [husers]
  refine ⟨I, U, tr, w, hr, hprofile, hbuyers, haccounts, ?_, ?_, ?_⟩
  · exact harrived.users ⟨0, 0⟩ (by simp [hprofile]) sampleIdentity (by simp [hidentities]) hidentity
      sampleIdentity_valid
  · exact harrived.buyers ⟨1, 0⟩ (by simp [hbuyers]) sampleDelivery.user hin hbuyer rfl
  · exact harrived.accounts ⟨1, 0⟩ (by simp [haccounts]) sampleDelivery.user hin haccount rfl

/-- An event that the schema refuses, and a text that is none. -/
def refusedEvent : CloudEvent IdentityRegisteredEvent.Data :=
  toCloudEvent IdentityRegisteredEvent.SOURCE
    (IdentityMessageService.toIdentityRegisteredOutbox { sampleIdentity with id := 0 })

/-- Behind a malformed text, a refused event and a copy of its own event. -/
theorem user_within_reach_sample : ∃ (I : Codec IdentityRegisteredEvent.Data) (U : Codec UserCreatedEvent.Data)
    (tr tr' : List (Pipeline × Pipeline.Event)) (w w' : Pipeline),
    Run (Pipeline.Step hasUuidShape hasEmailShape I U) Pipeline.start tr w ∧
      w.profile.log 0 =
        [⟨none, some "malformed"⟩, ⟨none, some (I.encode refusedEvent)⟩, identityMessage I sampleIdentity] ∧
      Run (Pipeline.Step hasUuidShape hasEmailShape I U) w tr' w' ∧
      w.profile.log 0 <+: w'.profile.log 0 ∧ w'.profile.committed 0 = (w'.profile.log 0).length ∧
      ∃ user ∈ w'.profile.db.db.users, sampleIdentity.owns user := by
  have := countable_identityRegistered
  have := countable_userCreated
  obtain ⟨I, hmalformed⟩ := exists_codec (D := IdentityRegisteredEvent.Data)
  obtain ⟨U, _⟩ := exists_codec (D := UserCreatedEvent.Data)
  have hregister : Pipeline.Step hasUuidShape hasEmailShape I U Pipeline.start (.register sampleIdentity)
      { Pipeline.start with identities := [sampleIdentity] } := .register rfl nofun
  have htext : I.Foreign (identityRegisteredEventSchema hasUuidShape hasEmailShape) ⟨none, some "malformed"⟩ := by
    intro event hevent
    exact absurd (hmalformed.symm.trans hevent) (by simp)
  have hrefused : I.Foreign (identityRegisteredEventSchema hasUuidShape hasEmailShape)
      ⟨none, some (I.encode refusedEvent)⟩ := by
    intro event hevent
    obtain rfl := Parsed.event.inj ((I.decode_encode refusedEvent).symm.trans hevent)
    rfl
  have hrelay {w : Pipeline} (h : sampleIdentity ∈ w.identities) : Pipeline.Step hasUuidShape hasEmailShape I U w
      (.relayIdentity sampleIdentity 0) _ := .relayIdentity h
  have hforeign {w : Pipeline} {message : Kafka.Message}
      (h : I.Foreign (identityRegisteredEventSchema hasUuidShape hasEmailShape) message) :
      Pipeline.Step hasUuidShape hasEmailShape I U w (.foreignIdentity message 0) _ := .foreignIdentity h
  have hr := (((Run.nil.snoc hregister).snoc (hforeign htext)).snoc (hforeign hrefused)).snoc
    (hrelay List.mem_cons_self)
  obtain ⟨tr', w', hr', _, hgrown, hend, husers⟩ := user_within_reach (fun _ h => h) hr (draws_of_idle (by simp)) rfl
    List.mem_cons_self sampleIdentity_valid 0
  exact ⟨I, U, _, tr', _, w', hr, rfl, hr', hgrown, hend, husers⟩

end

end MarketplaceApi.Provisioning

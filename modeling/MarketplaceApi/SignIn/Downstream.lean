import MarketplaceApi.Provisioning.Reach
import MarketplaceApi.SignIn.Announced

/-!
# Whether a registration is good for what comes after it

A body passes four grammars one after another: class-validator's, the CHECK constraints of `Identity`, the
schema of the profile consumer, the CHECK constraints of `User`. The first lets through what the others refuse.
-/
namespace MarketplaceApi.SignIn

open Placement (maxInteger)
open Provisioning (Codec Pipeline DrawsFreshIds User UserCreate isEmailFormat isPositiveInt identityMessage userMessage
  profile orderUserCreatedEventSchema accountUserCreatedEventSchema)
open Transition (Run Always)

/-- The identity as the groups know it. -/
def Identity.registered (row : Identity) : Provisioning.Identity :=
  ⟨row.id, row.publicId, row.email, row.loginPhone.fullNumber, row.role.text, row.createdAt⟩

section
variable (isUuid isEmail : String → Bool) (I : Codec Provisioning.IdentityRegisteredEvent.Data)
  (U : Codec Provisioning.UserCreatedEvent.Data)

/-- What becomes of a registered identity: its event is no dead letter, and has made the user once it is behind the
committed offset; so has the user's event, if its ids are those of a database, made the buyer and the account. -/
structure Provided (row : Identity) (w : Pipeline) : Prop where
  letter : ∀ letter ∈ w.profile.deadLetters, letter.message ≠ identityMessage I row.registered
  user : ∀ position, position.offset < w.profile.committed position.partition →
    w.profile.message? position = some (identityMessage I row.registered) →
    ∃ user ∈ w.profile.db.db.users, row.registered.owns user
  letters : ∀ user ∈ w.profile.db.db.users, row.registered.owns user → isPositiveInt user.id = true →
    isUuid user.publicId = true → (∀ letter ∈ w.buyers.deadLetters, letter.message ≠ userMessage U user) ∧
      ∀ letter ∈ w.accounts.deadLetters, letter.message ≠ userMessage U user
  buyer : ∀ user ∈ w.profile.db.db.users, row.registered.owns user → isPositiveInt user.id = true →
    isUuid user.publicId = true → ∀ position, position.offset < w.buyers.committed position.partition →
    w.buyers.message? position = some (userMessage U user) → ⟨row.publicId, (user.id : Int)⟩ ∈ w.buyers.db.db
  account : ∀ user ∈ w.profile.db.db.users, row.registered.owns user → isPositiveInt user.id = true →
    isUuid user.publicId = true → ∀ position, position.offset < w.accounts.committed position.partition →
    w.accounts.message? position = some (userMessage U user) → (w.accounts.db.db.balance user.id).isSome

/-- Nothing after the registration refuses the row. -/
structure Welcome (row : Identity) : Prop where
  checked : row.checked = true
  accepted : Provisioning.identityRegisteredEventSchema isUuid isEmail (announcement row) = true
  user : ∀ gen, (UserCreate.toUser ⟨row.id, row.publicId, row.email, row.loginPhone.fullNumber⟩ gen).allowed = true
  delivered : ∀ s tr c q o, Run (Txn.Step (profile isUuid isEmail)) (.start s) tr c → q.event = announcement row →
    (q, o) ∈ c.answers → o ≠ .error .rejectedMessage ∧ o ≠ .error .userCheck ∧ o ≠ .error .integerOverflow
  provided : ∀ tr w, Run (Pipeline.Step isUuid isEmail I U) Pipeline.start tr w → Always DrawsFreshIds tr →
    row.registered ∈ w.identities → Provided isUuid I U row w

/-- The body names a login, and its email is one for the tables and for the consumer. -/
structure Fitting (body : Json) : Prop where
  login : (body.get? "email").isSome ∨ ∃ members, body.get? "phone" = some (.object members)
  email : ∀ email, text? (body.get? "email") = some email →
    isEmailFormat email.toList = true ∧ isEmail email = true

end

section
variable {isUuid isEmail : String → Bool} {I : Codec Provisioning.IdentityRegisteredEvent.Data}
  {U : Codec Provisioning.UserCreatedEvent.Data}
  {row : Identity} {user : User} {lib : ClassValidator} {body : Json} {values : Generated} {passwordHash : String}

/-- With the ids of a database, the other two groups take the event of the identity's user. -/
theorem user_valid (huuid : isUuid row.publicId = true) (howns : row.registered.owns user)
    (hid : isPositiveInt user.id = true) (hpublic : isUuid user.publicId = true) :
    user.validFor isUuid orderUserCreatedEventSchema ∧ user.validFor isUuid accountUserCreatedEventSchema := by
  have hidentity : isUuid user.identityPublicId = true := by
    rw [howns.2]
    exact huuid
  unfold User.validFor orderUserCreatedEventSchema accountUserCreatedEventSchema
  simp only [Provisioning.toCloudEvent, Provisioning.UserMessageService.toUserCreatedOutbox, hid, hpublic, hidentity,
    beq_self_eq_true, Bool.and_true, Option.all_some, and_self]

/-- A valid event goes all the way. -/
theorem provided_run {tr : List (Pipeline × Pipeline.Event)} {w : Pipeline} (huuid : isUuid row.publicId = true)
    (haccepted : Provisioning.identityRegisteredEventSchema isUuid isEmail (announcement row) = true)
    (hr : Run (Pipeline.Step isUuid isEmail I U) Pipeline.start tr w) (hm : Always DrawsFreshIds tr)
    (hrow : row.registered ∈ w.identities) : Provided isUuid I U row w where
  letter letter hletter := Provisioning.identityLetters_run hr hm letter hletter row.registered haccepted
  user position ho hmessage := Provisioning.users_arrived hr hm position ho row.registered hrow hmessage haccepted
  letters user huser howns hid hpublic := by
    obtain ⟨horder, haccount⟩ := user_valid huuid howns hid hpublic
    exact ⟨fun letter hletter => Provisioning.buyerLetters_run hr hm letter hletter user horder,
      fun letter hletter => Provisioning.accountLetters_run hr letter hletter user haccount⟩
  buyer user huser howns hid hpublic position ho hmessage := by
    have hbuyer := Provisioning.buyers_arrived hr hm position ho user huser hmessage
      (user_valid huuid howns hid hpublic).1
    rwa [howns.2] at hbuyer
  account user huser howns hid hpublic position ho hmessage :=
    Provisioning.accounts_arrived hr position ho user huser hmessage (user_valid huuid howns hid hpublic).2

/-- The row of a valid body passes the CHECK constraints if the body names a login and its email has their format. -/
theorem checked_iff (values : Generated) (passwordHash : String) (h : IdentityRegisterInput.valid lib body = true) :
    (IdentityRegisterCommandHandler.identity values (IdentityRegisterInput.ofBody body) passwordHash).checked = true ↔
      ((body.get? "email").isSome = true ∨ ∃ members, body.get? "phone" = some (.object members)) ∧
        (text? (body.get? "email")).all (fun email => isEmailFormat email.toList) = true := by
  obtain ⟨hfits, hfull⟩ := fits_of_body h
  rw [← hfull, ← email_of_valid h]
  simp only [Identity.checked, IdentityRegisterCommandHandler.identity, Bool.and_eq_true, Bool.or_eq_true,
    hfits.fullNumber, hfits.nationalNumber, and_true]
  rfl

/-- A body that passes the validation is welcome downstream exactly if it is fitting. -/
theorem welcome_iff (hvalid : IdentityRegisterInput.valid lib body = true)
    (hid : 0 < values.id ∧ (values.id : Int) ≤ maxInteger) (huuid : isUuid values.publicId = true) :
    Welcome isUuid isEmail I U
        (IdentityRegisterCommandHandler.identity values (IdentityRegisterInput.ofBody body) passwordHash) ↔
      Fitting isEmail body := by
  have hchecks := checked_iff values passwordHash hvalid
  generalize hrow : IdentityRegisterCommandHandler.identity values (IdentityRegisterInput.ofBody body) passwordHash =
    row at hchecks ⊢
  have hemail : row.email = text? (body.get? "email") := by rw [← hrow]; rfl
  have hrowId : 0 < row.id ∧ (row.id : Int) ≤ maxInteger := by rw [← hrow]; exact hid
  have hrowUuid : isUuid row.publicId = true := by rw [← hrow]; exact huuid
  have hgrammar := fun hchecked =>
    @announcement_accepted isUuid isEmail row hchecked (id_taken hrowId).1 hrowUuid
  constructor
  · intro hwelcome
    obtain ⟨hlogin, hformat⟩ := hchecks.mp hwelcome.checked
    have haccepted := hwelcome.accepted
    rw [hgrammar hwelcome.checked, hemail] at haccepted
    refine ⟨hlogin, fun email heq => ?_⟩
    rw [heq] at hformat haccepted
    exact ⟨hformat, haccepted⟩
  · intro hfitting
    have hall : ∀ p : String → Bool, (∀ email, text? (body.get? "email") = some email → p email = true) →
        (text? (body.get? "email")).all p = true := by
      intro p hp
      cases htext : text? (body.get? "email") with
      | none => rfl
      | some email => exact hp email htext
    have hchecked := hchecks.mpr ⟨hfitting.login, hall _ fun email heq => (hfitting.email email heq).1⟩
    have hzod : row.email.all isEmail = true := by
      rw [hemail]
      exact hall _ fun email heq => (hfitting.email email heq).2
    have haccepted := (hgrammar hchecked).trans hzod
    refine ⟨hchecked, haccepted, user_allowed hchecked, ?_, ?_⟩
    · intro s tr c q o hr hq ha
      have hanswer := delivered hchecked hrowId hrowUuid hr hq ha
      rwa [if_pos hzod] at hanswer
    · exact fun tr w hr hm hin => provided_run hrowUuid haccepted hr hm hin

end

/-- Both ways to be unwelcome: no login at all, and an email that class-validator takes and zod does not. -/
theorem welcome_refuted : (IdentityRegisterInput.valid plainValidator nullPhone = true ∧
      ∀ I U, ¬ Welcome plainUuid plainEmail I U (IdentityRegisterCommandHandler.identity sampleValues
        (IdentityRegisterInput.ofBody nullPhone) "hash")) ∧
    IdentityRegisterInput.valid plainValidator sampleBody = true ∧
      ∀ I U, ¬ Welcome plainUuid plainEmail I U sampleRow := by
  refine ⟨⟨by decide, fun I U hwelcome => ?_⟩, by decide, fun I U hwelcome => ?_⟩
  · exact absurd hwelcome.checked (by decide)
  · exact absurd hwelcome.accepted (by decide)

/-- An address that every grammar takes. -/
def fittingBody : Json := .object [("email", .string "a@b.co"), ("password", .string "password")]

theorem welcome_iff_both : ∃ I U,
    Welcome plainUuid plainEmail I U (IdentityRegisterCommandHandler.identity sampleValues
      (IdentityRegisterInput.ofBody fittingBody) "hash") ∧ ¬ Welcome plainUuid plainEmail I U sampleRow := by
  have := Provisioning.countable_identityRegistered
  have := Provisioning.countable_userCreated
  obtain ⟨I, _⟩ := Provisioning.exists_codec (D := Provisioning.IdentityRegisteredEvent.Data)
  obtain ⟨U, _⟩ := Provisioning.exists_codec (D := Provisioning.UserCreatedEvent.Data)
  have hid : 0 < sampleValues.id ∧ (sampleValues.id : Int) ≤ maxInteger := by decide
  have huuid : plainUuid sampleValues.publicId = true := by decide
  have hvalid : IdentityRegisterInput.valid plainValidator fittingBody = true := by decide
  have hunfit : IdentityRegisterInput.valid plainValidator sampleBody = true := by decide
  refine ⟨I, U, ?_, fun hwelcome => ?_⟩
  · refine (welcome_iff hvalid hid huuid).mpr ⟨Or.inl rfl, ?_⟩
    intro email heq
    obtain rfl : "a@b.co" = email := Option.some_inj.mp heq
    decide
  · have hfitting := (welcome_iff hunfit hid huuid).mp hwelcome
    exact absurd (hfitting.email "a!b@c.co" rfl).2 (by decide)

end MarketplaceApi.SignIn

import MarketplaceApi.Provisioning.Delivery
import MarketplaceApi.SignIn.Registration

/-!
# What becomes of a registration downstream

The row of a registered identity announces it with an event that the profile consumer checks with a
grammar of its own. Of an insertable row it can refuse the email only, and what follows accepts the rest.
-/
namespace MarketplaceApi.SignIn

open Messaging (CloudEvent)
open Placement (isE164 maxInteger)
open Provisioning (UserTables UserFailure UserLock UserCreate UserRequest isInteger isPositiveInt profile userIsolation)
open Txn
open Transition (Run)

/-- The event a relay publishes for an identity. -/
def announcement (x : Identity) : CloudEvent Provisioning.IdentityRegisteredEvent.Data :=
  Provisioning.toCloudEvent Provisioning.IdentityRegisteredEvent.SOURCE
    (IdentityMessageService.toIdentityRegisteredOutbox x)

section
variable {isUuid isEmail : String → Bool} {x : Identity} {gen : Provisioning.Generated} {input : UserCreate}
  {s s' b : UserTables} {e : UserFailure}

/-- What a sequence draws for an `integer` column is an id for the column of `User` and for the schema. -/
theorem id_taken {n : Nat} (h : 0 < n ∧ (n : Int) ≤ maxInteger) : isPositiveInt n = true ∧ isInteger n = true := by
  obtain ⟨hpositive, hle⟩ := h
  simp only [maxInteger] at hle
  constructor
  · simp only [isPositiveInt, decide_eq_true_eq]
    omega
  · simp only [isInteger, maxInteger]
    exact decide_eq_true (by omega)

theorem checked_of_allowed (hx : x.allowed = true) : x.checked = true := by
  simp only [Identity.allowed, Bool.and_eq_true] at hx
  simp only [Identity.checked, Bool.and_eq_true]
  exact hx.1.1.1.1

/-- The columns that a user takes over from an identity are allowed there. -/
theorem user_allowed (hx : x.checked = true) (gen : Provisioning.Generated) :
    (UserCreate.toUser ⟨x.id, x.publicId, x.email, x.loginPhone.fullNumber⟩ gen).allowed = true := by
  simp only [Identity.checked, Bool.and_eq_true] at hx
  simp only [Provisioning.User.allowed, UserCreate.toUser, Bool.and_eq_true]
  exact ⟨hx.2, hx.1.1.2⟩

/-- The consumer's schema asks more of an identity only in its email. -/
theorem announcement_accepted (hx : x.checked = true) (hid : isPositiveInt x.id = true)
    (huuid : isUuid x.publicId = true) :
    Provisioning.identityRegisteredEventSchema isUuid isEmail (announcement x) = x.email.all isEmail := by
  simp only [Identity.checked, Bool.and_eq_true] at hx
  have hphone := hx.1.1.2
  simp only [Provisioning.identityRegisteredEventSchema, announcement, Provisioning.toCloudEvent,
    IdentityMessageService.toIdentityRegisteredOutbox, huuid, hid, hphone, beq_self_eq_true, Bool.true_and,
    Bool.and_true]

/-- With allowed columns the transaction fails on unique keys only. -/
theorem exec_execute_error (hinteger : isInteger input.identityId = true) (hallowed : (input.toUser gen).allowed = true)
    (h : Exec userIsolation b (Provisioning.UserCreateCommandHandler.execute gen input) s s' (.error e)) :
    e = .entityNotFound ∨ e = .eventKey := by
  rcases Exec.of_bind_error h with hcreate | ⟨_, m, inserted, _, _, hrest⟩
  · unfold Provisioning.UserRepository.createIfAbsent at hcreate
    rw [hinteger, hallowed] at hcreate
    rcases Exec.of_bind_error hcreate with hlook | ⟨_, _, taken, _, _, hinsert⟩
    · exact nomatch hlook
    · cases taken with
      | true => cases hinsert
      | false =>
        have he := hinsert.of_exec_error
        split at he
        · cases he
        · cases he
  · cases inserted with
    | false => cases hrest
    | true =>
      rcases Exec.of_bind_error hrest with hfind | ⟨_, _, user, _, _, hrow⟩
      · have he := hfind.of_exec_error
        split at he
        · cases he
        · exact Or.inl (Except.error.inj he).symm
      · have he := hrow.of_exec_error
        split at he
        · exact Or.inr (Except.error.inj he).symm
        · cases he

theorem handle_announcement (hx : x.checked = true) (hid : isPositiveInt x.id = true) (huuid : isUuid x.publicId = true)
    (gen : Provisioning.Generated) :
    Provisioning.UserIdentityEventsGateway.handle isUuid isEmail gen (announcement x) =
      if x.email.all isEmail then
        Provisioning.UserCreateCommandHandler.execute gen ⟨x.id, x.publicId, x.email, x.loginPhone.fullNumber⟩
      else .throw .rejectedMessage := by
  have hskip : ((announcement x).type != Provisioning.IdentityRegisteredEvent.TYPE) = false := bne_self_eq_false _
  unfold Provisioning.UserIdentityEventsGateway.handle
  rw [hskip, announcement_accepted hx hid huuid]
  cases x.email.all isEmail with
  | true => rfl
  | false => rfl

/-- How the deliveries of an identity's announcement end. -/
theorem delivered (hx : x.checked = true) (hid : 0 < x.id ∧ (x.id : Int) ≤ maxInteger)
    (huuid : isUuid x.publicId = true)
    {c : Config UserLock UserTables UserFailure Unit UserRequest} {tr : List (_ × Txn.Event UserRequest)}
    (hr : Run (Txn.Step (profile isUuid isEmail)) (.start s) tr c) {q : UserRequest} (hq : q.event = announcement x)
    {o : Except UserFailure Unit} (ha : (q, o) ∈ c.answers) :
    if x.email.all isEmail then
      o ≠ .error .rejectedMessage ∧ o ≠ .error .userCheck ∧ o ≠ .error .integerOverflow
    else o = .error .rejectedMessage := by
  obtain ⟨hpositive, hinteger⟩ := id_taken hid
  refine run_serial_invariant (Y := profile isUuid isEmail) (J := fun _ as => ∀ q o, q.event = announcement x →
    (q, o) ∈ as → if x.email.all isEmail then
        o ≠ .error .rejectedMessage ∧ o ≠ .error .userCheck ∧ o ≠ .error .integerOverflow
      else o = .error .rejectedMessage) ?_ ?_ ?_ ?_ hr q o hq ha
  · intro _ _ _ hin
    cases hin
  · intro q b u u' as r hu _ _ he q' o hq hin
    rcases List.mem_cons.mp hin with heq | hin
    · cases heq
      change Exec _ b (Provisioning.UserIdentityEventsGateway.handle isUuid isEmail q.gen q.event) u u' (.ok r) at he
      rw [hq, handle_announcement hx hpositive huuid] at he
      split
      · simp
      · rename_i hno
        rw [if_neg hno] at he
        cases he
    · exact hu q' o hq hin
  · intro q b u m as e hu _ _ he q' o hq hin
    rcases List.mem_cons.mp hin with heq | hin
    · cases heq
      change Exec _ b (Provisioning.UserIdentityEventsGateway.handle isUuid isEmail q.gen q.event) u m (.error e) at he
      rw [hq, handle_announcement hx hpositive huuid] at he
      split
      · rename_i hyes
        rw [if_pos hyes] at he
        rcases exec_execute_error hinteger (user_allowed hx _) he with rfl | rfl
        · simp
        · simp
      · rename_i hno
        rw [if_neg hno] at he
        cases he
        rfl
    · exact hu q' o hq hin
  · intro _ _ _ _ henv
    exact henv.elim

/-- A registered body is refused downstream exactly if its email is not one for the consumer. -/
theorem registration_delivered {lib : ClassValidator} {body : Json} {values : Generated} {passwordHash : String}
    (hvalid : IdentityRegisterInput.valid lib body = true) (hregistrable : Registrable body passwordHash)
    (hid : 0 < values.id ∧ (values.id : Int) ≤ maxInteger) (huuid : isUuid values.publicId = true)
    {c : Config UserLock UserTables UserFailure Unit UserRequest} {tr : List (_ × Txn.Event UserRequest)}
    (hr : Run (Txn.Step (profile isUuid isEmail)) (.start s) tr c) {q : UserRequest}
    (hq : q.event = announcement
      (IdentityRegisterCommandHandler.identity values (IdentityRegisterInput.ofBody body) passwordHash))
    {o : Except UserFailure Unit} (ha : (q, o) ∈ c.answers) :
    if (text? (body.get? "email")).all isEmail then
      o ≠ .error .rejectedMessage ∧ o ≠ .error .userCheck ∧ o ≠ .error .integerOverflow
    else o = .error .rejectedMessage := by
  have hrow := insertable_of_registrable values hvalid hregistrable
  rw [Identity.insertable, Bool.and_eq_true] at hrow
  exact delivered (checked_of_allowed hrow.1) hid huuid hr hq ha

end

/-- class-validator takes the email, and zod does not. -/
def sampleBody : Json := .object [("email", .string "a!b@c.co"), ("password", .string "password")]

def sampleValues : Generated :=
  ⟨1, "0b9a2f6e-8c1d-4e57-9a3b-5d2c7f10e8a4", "7c5e1d3a-2b4f-4c8e-8f6a-91d0b3e7c2f5", "h", 1_500⟩

def sampleRow : Identity :=
  IdentityRegisterCommandHandler.identity sampleValues (IdentityRegisterInput.ofBody sampleBody) "hash"

/-- Five groups of hexadecimal digits. -/
def plainUuid (text : String) : Bool :=
  (text.toList.splitOn '-').map List.length == [8, 4, 4, 4, 12] &&
    text.toList.all fun c => c == '-' || c.isDigit || ('a' ≤ c && c ≤ 'f')

/-- Letters, digits and `_'+-.` before the `@`. -/
def plainEmail (text : String) : Bool :=
  match text.toList.splitOn '@' with
  | [name, domain] => name.all (fun c => c.isAlphanum || "_'+-.".toList.contains c) && domain.contains '.'
  | _ => false

theorem sampleBody_registrable : Registrable sampleBody "hash" where
  login := Or.inl rfl
  email email heq := by
    obtain rfl : "a!b@c.co" = email := Option.some_inj.mp heq
    decide
  rawNumber := rfl
  hash := by decide
  storable := by decide

theorem registration_delivered_refused : ∃ tr c q o, Run (Txn.Step (profile plainUuid plainEmail))
    (.start ⟨[], []⟩) tr c ∧ q.event = announcement sampleRow ∧ (q, o) ∈ c.answers ∧ o = .error .rejectedMessage ∧
    IdentityRegisterInput.valid plainValidator sampleBody = true := by
  have hvalid : IdentityRegisterInput.valid plainValidator sampleBody = true := by decide
  have huuid : plainUuid sampleValues.publicId = true := by decide
  have hstart : Run (Txn.Step (profile plainUuid plainEmail)) (.start ⟨[], []⟩) [] (.start ⟨[], []⟩) := .nil
  have hbegun := hstart.snoc (@Txn.Step.begin _ _ _ _ _ (profile plainUuid plainEmail) _ 0
    ⟨⟨1, "u", 1_500⟩, announcement sampleRow⟩ rfl trivial)
  have hrun := hbegun.snoc (.rollback (Config.set_self _ 0 _) rfl)
  have hid : 0 < sampleValues.id ∧ (sampleValues.id : Int) ≤ maxInteger := by decide
  have hrefused := registration_delivered hvalid sampleBody_registrable hid huuid hrun rfl List.mem_cons_self
  exact ⟨_, _, _, _, hrun, rfl, List.mem_cons_self, hrefused, hvalid⟩

end MarketplaceApi.SignIn

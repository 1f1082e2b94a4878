import MarketplaceApi.Json.Value
import MarketplaceApi.SignIn.Handlers

/-!
# Bodies of a registration

`IdentityRegisterInput` as the global `ValidationPipe` checks it, and the row that an accepted body
becomes. What class-validator takes for an email, how it counts a length and how it goes into a nested
value are parameters.
-/
namespace MarketplaceApi.SignIn

open Placement (CountryCode isE164 isDigits)
open Provisioning (isEmailFormat)

/-- A member that is a string. -/
def text? (value : Option Json) : Option String :=
  match value with
  | some (.string text) => some text
  | _ => none

/-- The library's decorators, each on the value of a property, and what is known of them: only a string is an
email or matches, only `null` and `undefined` are optional, and an object is checked by its class. -/
structure ClassValidator where
  isEmail : Option Json → Bool
  isString : Option Json → Bool
  isEnum : List String → Option Json → Bool
  minLength : Nat → Option Json → Bool
  maxLength : Nat → Option Json → Bool
  pattern : (List Char → Bool) → Option Json → Bool
  isOptional : Option Json → Bool
  validateNested : (Json → Bool) → Option Json → Bool
  text_of_isEmail : ∀ {value}, isEmail value = true → (text? value).isSome = true
  text_of_pattern : ∀ {format value}, pattern format value = true →
    (text? value).any (fun text => format text.toList) = true
  null_of_isOptional : ∀ {value}, isOptional (some value) = true → value = .null
  valid_of_validateNested : ∀ {valid members}, validateNested valid (some (.object members)) = true →
    valid (.object members) = true

/-- `CountryCodeEnum` -/
def countryCodes : List (String × CountryCode) := [("UA", .ua), ("US", .us), ("PL", .pl), ("DE", .de), ("GB", .gb)]

def countryCode? (text : String) : Option CountryCode := countryCodes.lookup text

namespace IdentityRegisterPhoneInput

def valid (lib : ClassValidator) (phone : Json) : Bool :=
  lib.isEnum (countryCodes.map Prod.fst) (phone.get? "countryCode") &&
    (lib.isString (phone.get? "rawNumber") && lib.maxLength 32 (phone.get? "rawNumber")) &&
    (lib.isString (phone.get? "fullNumber") && lib.maxLength 16 (phone.get? "fullNumber") &&
      lib.pattern isE164 (phone.get? "fullNumber")) &&
    (lib.isString (phone.get? "nationalNumber") && lib.maxLength 15 (phone.get? "nationalNumber") &&
      lib.pattern (isDigits 4 15) (phone.get? "nationalNumber"))

end IdentityRegisterPhoneInput

namespace IdentityRegisterInput

def valid (lib : ClassValidator) (body : Json) : Bool :=
  (!((body.get? "email").isSome || (body.get? "phone").isNone) ||
      (lib.isEmail (body.get? "email") && lib.maxLength 254 (body.get? "email"))) &&
    (lib.isOptional (body.get? "phone") ||
      lib.validateNested (IdentityRegisterPhoneInput.valid lib) (body.get? "phone")) &&
    (lib.isString (body.get? "password") && lib.minLength 8 (body.get? "password") &&
      lib.maxLength 128 (body.get? "password"))

/-- What `IdentityRegisterCommandHandler` reads of the body. An array has none of a phone's members. -/
def ofBody (body : Json) : IdentityRegisterInput where
  email := text? (body.get? "email")
  loginPhone :=
    { countryCode := (text? ((body.get? "phone").bind (·.get? "countryCode"))).bind countryCode?
      rawNumber := text? ((body.get? "phone").bind (·.get? "rawNumber"))
      fullNumber := text? ((body.get? "phone").bind (·.get? "fullNumber"))
      nationalNumber := text? ((body.get? "phone").bind (·.get? "nationalNumber")) }

end IdentityRegisterInput

def storable (text : Option String) : Bool := text.all Text.isStorable

/-- The database takes the row, but for its unique constraints. -/
def Identity.insertable (row : Identity) : Bool :=
  row.allowed && (storable row.email && storable row.loginPhone.rawNumber && storable row.loginPhone.fullNumber &&
    storable row.loginPhone.nationalNumber && storable row.passwordHash)

/-- What a valid body has to meet besides to become a row. -/
structure Registrable (body : Json) (passwordHash : String) : Prop where
  login : (body.get? "email").isSome ∨ ∃ members, body.get? "phone" = some (.object members)
  email : ∀ email, text? (body.get? "email") = some email → isEmailFormat email.toList = true
  rawNumber : varchar 32 (IdentityRegisterInput.ofBody body).loginPhone.rawNumber = true
  hash : passwordHash.length ≤ 255
  storable : storable (IdentityRegisterInput.ofBody body).email = true ∧
    storable (IdentityRegisterInput.ofBody body).loginPhone.rawNumber = true ∧ storable (some passwordHash) = true

section
variable {lib : ClassValidator} {body phone : Json} {gen : Generated} {passwordHash : String} {value : Option Json}

theorem length_of_isE164 {text : List Char} (h : isE164 text = true) : text.length ≤ 16 := by
  unfold isE164 at h
  split at h
  · simp only [Bool.and_eq_true, isDigits, decide_eq_true_eq] at h
    simp only [List.length_cons]
    omega
  · cases h

theorem ne_nul_of_isDigit {c : Char} (h : c.isDigit = true) : (c != '\x00') = true := by
  have hne : c ≠ '\x00' := by
    intro heq
    subst heq
    cases h
  simpa using hne

theorem storable_of_isE164 {text : String} (h : isE164 text.toList = true) : storable (some text) = true := by
  simp only [storable, Text.isStorable, Option.all_some, List.all_eq_true]
  unfold isE164 at h
  split at h
  · rename_i first rest heq
    simp only [Bool.and_eq_true, isDigits, List.all_eq_true] at h
    intro c hc
    rw [heq, List.mem_cons, List.mem_cons] at hc
    rcases hc with hplus | hfirst | hrest
    · subst hplus
      rfl
    · exact ne_nul_of_isDigit (hfirst ▸ h.1.1)
    · exact ne_nul_of_isDigit (h.2.2 c hrest)
  · cases h

theorem pattern_some {format : List Char → Bool} (h : lib.pattern format value = true) :
    ∃ text, text? value = some text ∧ format text.toList = true :=
  (Option.any_eq_true _ _).mp (lib.text_of_pattern h)

/-- The columns of a phone that passed or of none are allowed and can be stored. -/
structure PhoneFits (phone : LoginPhone) : Prop where
  fullNumber : phone.fullNumber.all (fun fullNumber => isE164 fullNumber.toList) = true
  nationalNumber : phone.nationalNumber.all (fun nationalNumber => isDigits 4 15 nationalNumber.toList) = true
  lengths : varchar 16 phone.fullNumber = true ∧ varchar 15 phone.nationalNumber = true
  storable : storable phone.fullNumber = true ∧ storable phone.nationalNumber = true

theorem fits_of_valid (h : IdentityRegisterPhoneInput.valid lib phone = true)
    (hphone : body.get? "phone" = some phone) :
    PhoneFits (IdentityRegisterInput.ofBody body).loginPhone ∧
      (IdentityRegisterInput.ofBody body).loginPhone.fullNumber.isSome = true := by
  simp only [IdentityRegisterPhoneInput.valid, Bool.and_eq_true] at h
  obtain ⟨fullNumber, hfull, he164⟩ := pattern_some h.1.2.2
  obtain ⟨nationalNumber, hnational, hdigits⟩ := pattern_some h.2.2
  have hshort : nationalNumber.toList.length ≤ 15 ∧ ∀ c ∈ nationalNumber.toList, c.isDigit = true := by
    simp only [isDigits, Bool.and_eq_true, decide_eq_true_eq, List.all_eq_true] at hdigits
    exact ⟨hdigits.1.2, hdigits.2⟩
  have hlength := length_of_isE164 he164
  rw [String.length_toList] at hlength hshort
  constructor
  · constructor
    · simpa [IdentityRegisterInput.ofBody, hphone, hfull] using he164
    · simpa [IdentityRegisterInput.ofBody, hphone, hnational] using hdigits
    · simp [IdentityRegisterInput.ofBody, hphone, hfull, hnational, varchar, hlength, hshort.1]
    · refine ⟨?_, ?_⟩
      · simpa [IdentityRegisterInput.ofBody, hphone, hfull] using storable_of_isE164 he164
      · simp only [IdentityRegisterInput.ofBody, hphone, Option.bind_some, hnational, storable, Text.isStorable,
          Option.all_some, List.all_eq_true]
        exact fun c hc => ne_nul_of_isDigit (hshort.2 c hc)
  · simp [IdentityRegisterInput.ofBody, hphone, hfull]

/-- A valid body has a valid phone, or nothing that is read as one. -/
theorem phone_of_valid (h : IdentityRegisterInput.valid lib body = true) :
    (∃ members, body.get? "phone" = some (.object members) ∧
      IdentityRegisterPhoneInput.valid lib (.object members) = true) ∨
    (∀ members, body.get? "phone" ≠ some (.object members)) ∧
      (IdentityRegisterInput.ofBody body).loginPhone = ⟨none, none, none, none⟩ := by
  simp only [IdentityRegisterInput.valid, Bool.and_eq_true] at h
  have hphone := h.1.2
  unfold IdentityRegisterInput.ofBody
  generalize body.get? "phone" = phone at hphone
  cases phone with
  | none => exact Or.inr ⟨by simp, rfl⟩
  | some phone =>
    cases phone with
    | object members =>
      rcases Bool.or_eq_true _ _ |>.mp hphone with hnull | hnested
      · cases lib.null_of_isOptional hnull
      · exact Or.inl ⟨members, rfl, lib.valid_of_validateNested hnested⟩
    | _ => exact Or.inr ⟨by simp, rfl⟩

theorem fits_of_body (h : IdentityRegisterInput.valid lib body = true) :
    PhoneFits (IdentityRegisterInput.ofBody body).loginPhone ∧
      ((IdentityRegisterInput.ofBody body).loginPhone.fullNumber.isSome = true ↔
        ∃ members, body.get? "phone" = some (.object members)) := by
  rcases phone_of_valid h with ⟨members, hphone, hvalid⟩ | ⟨hno, hnone⟩
  · have hfits := fits_of_valid hvalid hphone
    exact ⟨hfits.1, iff_of_true hfits.2 ⟨members, hphone⟩⟩
  · rw [hnone]
    refine ⟨⟨rfl, rfl, ⟨rfl, rfl⟩, rfl, rfl⟩, iff_of_false (by simp) ?_⟩
    intro ⟨members, hphone⟩
    exact hno members hphone

/-- A given email passed as one. -/
theorem email_of_valid (h : IdentityRegisterInput.valid lib body = true) :
    (text? (body.get? "email")).isSome = (body.get? "email").isSome := by
  simp only [IdentityRegisterInput.valid, Bool.and_eq_true] at h
  cases hemail : body.get? "email" with
  | none => rfl
  | some email =>
    have hgiven := h.1.1
    simp only [hemail, Option.isSome_some, Bool.true_or, Bool.not_true, Bool.false_or, Bool.and_eq_true] at hgiven
    exact lib.text_of_isEmail hgiven.1

/-- What the columns of a valid body's row come down to. -/
theorem insertable_columns (gen : Generated) (h : IdentityRegisterInput.valid lib body = true) :
    (IdentityRegisterCommandHandler.identity gen (IdentityRegisterInput.ofBody body) passwordHash).insertable = true ↔
      ((body.get? "email").isSome = true ∨ ∃ members, body.get? "phone" = some (.object members)) ∧
      (text? (body.get? "email")).all (fun email => isEmailFormat email.toList) = true ∧
      varchar 32 (IdentityRegisterInput.ofBody body).loginPhone.rawNumber = true ∧ passwordHash.length ≤ 255 ∧
      storable (IdentityRegisterInput.ofBody body).email = true ∧
      storable (IdentityRegisterInput.ofBody body).loginPhone.rawNumber = true ∧
      storable (some passwordHash) = true := by
  obtain ⟨hfits, hfull⟩ := fits_of_body h
  have hemail := email_of_valid h
  rw [← hfull, ← hemail]
  have hhash : varchar 255 (some passwordHash) = true ↔ passwordHash.length ≤ 255 := decide_eq_true_iff
  simp only [Identity.insertable, Identity.allowed, IdentityRegisterCommandHandler.identity, Bool.and_eq_true,
    Bool.or_eq_true, hfits.fullNumber, hfits.nationalNumber, hfits.lengths.1, hfits.lengths.2, hfits.storable.1,
    hfits.storable.2, hhash]
  simp only [IdentityRegisterInput.ofBody, and_true, and_assoc]

theorem insertable_of_registrable (gen : Generated) (h : IdentityRegisterInput.valid lib body = true)
    (hr : Registrable body passwordHash) :
    (IdentityRegisterCommandHandler.identity gen (IdentityRegisterInput.ofBody body) passwordHash).insertable =
      true := by
  refine (insertable_columns gen h).mpr ⟨hr.login, ?_, hr.rawNumber, hr.hash, hr.storable⟩
  cases htext : text? (body.get? "email") with
  | none => rfl
  | some email => exact hr.email email htext

/-- A body that passes the validation becomes a row exactly if it is registrable. -/
theorem insertable_iff (gen : Generated) (h : IdentityRegisterInput.valid lib body = true) :
    (IdentityRegisterCommandHandler.identity gen (IdentityRegisterInput.ofBody body) passwordHash).insertable = true ↔
      Registrable body passwordHash := by
  constructor
  · intro hrow
    obtain ⟨hlogin, hformat, hraw, hhash, hstorable⟩ := (insertable_columns gen h).mp hrow
    refine ⟨hlogin, fun email heq => ?_, hraw, hhash, hstorable⟩
    rw [heq] at hformat
    exact hformat
  · exact insertable_of_registrable gen h

end

/-- Every text with an `@` is an email, and a nested value is an object. -/
def plainValidator : ClassValidator where
  isEmail value := (text? value).any fun text => text.toList.contains '@'
  isString value := (text? value).isSome
  isEnum texts value := (text? value).any texts.contains
  minLength min value := (text? value).any fun text => decide (min ≤ text.length)
  maxLength max value := (text? value).any fun text => decide (text.length ≤ max)
  pattern format value := (text? value).any fun text => format text.toList
  isOptional value :=
    match value with
    | none => true
    | some .null => true
    | _ => false
  validateNested valid value :=
    match value with
    | some (.object members) => valid (.object members)
    | _ => false
  text_of_isEmail h := Option.isSome_of_any h
  text_of_pattern h := h
  null_of_isOptional {value} h := by cases value <;> first | rfl | cases h
  valid_of_validateNested h := h

def nullPhone : Json := .object [("phone", .null), ("password", .string "password")]

/-- `{"phone": null, …}` passes and names no login. -/
theorem insertable_iff_nullPhone : IdentityRegisterInput.valid plainValidator nullPhone = true ∧
    (IdentityRegisterCommandHandler.identity ⟨1, "p", "f", "h", 1_500⟩
      (IdentityRegisterInput.ofBody nullPhone) "hash").insertable = false := by
  have hvalid : IdentityRegisterInput.valid plainValidator nullPhone = true := rfl
  refine ⟨hvalid, Bool.eq_false_iff.mpr fun hrow => ?_⟩
  have hregistrable := (insertable_iff _ hvalid).mp hrow
  rcases hregistrable.login with hemail | ⟨members, hphone⟩
  · cases hemail
  · cases hphone

end MarketplaceApi.SignIn

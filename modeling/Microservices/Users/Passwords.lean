import Microservices.Identity.Signing
import Microservices.Users.Accounts
import Microservices.Users.Registration

/-!
# Passwords

Three requests set a password, and the schemas of all three bound it by its
characters. bcrypt is given the bytes of its UTF-8 and hashes the first 72 of them.

The module `bcrypt` is a parameter. What is assumed of it is that it has no
collisions on those bytes.
-/

namespace Microservices.Users

open Identity

/-! ## What the schemas accept -/

/-- The predicates of `str` on one character. -/
structure CharClasses where
  isupper : Char → Bool
  isdigit : Char → Bool

inductive FieldError where
  | stringTooShort (minLength : Nat)
  | stringTooLong (maxLength : Nat)
  /-- The `ValueError` of a validator. -/
  | valueError (message : String)
  deriving DecidableEq, Repr

/-- `Field(min_length=…, max_length=…)`: a length is a number of characters. -/
def boundedString (minLength maxLength : Nat) (v : String) : Except FieldError String :=
  if v.length < minLength then .error (.stringTooShort minLength)
  else if maxLength < v.length then .error (.stringTooLong maxLength)
  else .ok v

section

variable (classes : CharClasses)

/-- What the validators called `password_complexity` share. -/
def complexity (v : String) : Except FieldError String :=
  if !v.toList.any classes.isupper then
    .error (.valueError "Password must contain at least one uppercase letter")
  else if !v.toList.any classes.isdigit then
    .error (.valueError "Password must contain at least one digit")
  else .ok v

/-- A field with both. -/
def passwordWithin (minLength maxLength : Nat) (v : String) : Except FieldError String := do
  let v ← boundedString minLength maxLength v
  complexity classes v

/-- `UserCreate.password`. -/
def UserCreate.passwordField : String → Except FieldError String := passwordWithin classes 8 100

/-- `UserUpdate.password`, which lets `None` through. -/
def UserUpdate.passwordField : Option String → Except FieldError (Option String)
  | none => .ok none
  | some v => (passwordWithin classes 8 100 v).map some

/-- `ResetPasswordRequest.new_password`. -/
def ResetPasswordRequest.newPasswordField : String → Except FieldError String :=
  passwordWithin classes 8 100

/-- `full_name`, of `UserCreate` and of `UserUpdate`. -/
def fullNameField : Option String → Except FieldError (Option String)
  | none => .ok none
  | some v => (boundedString 0 255 v).map some

/-- The validation of a `UserCreate`, less its email and user name. -/
def UserCreate.validate (payload : UserCreate) : Except FieldError Unit := do
  let _ ← UserCreate.passwordField classes payload.password
  let _ ← fullNameField payload.fullName

/-- The validation of a `UserUpdate`. -/
def UserUpdate.validate (payload : UserUpdate) : Except FieldError Unit := do
  let _ ← fullNameField payload.fullName
  let _ ← UserUpdate.passwordField classes payload.password

/-- The rules, which are the same for all three. -/
def Accepted (v : String) : Prop :=
  (8 ≤ v.length ∧ v.length ≤ 100) ∧ v.toList.any classes.isupper = true
    ∧ v.toList.any classes.isdigit = true

instance (v : String) : Decidable (Accepted classes v) :=
  inferInstanceAs (Decidable ((8 ≤ v.length ∧ v.length ≤ 100)
    ∧ v.toList.any classes.isupper = true ∧ v.toList.any classes.isdigit = true))

variable {classes} {v : String}

/-- **A field accepts what meets the rules**, and raises on anything else. -/
theorem passwordWithin_cases (classes : CharClasses) (v : String) :
    Accepted classes v ∧ passwordWithin classes 8 100 v = .ok v
      ∨ ¬ Accepted classes v ∧ ∃ e, passwordWithin classes 8 100 v = .error e := by
  unfold Accepted passwordWithin boundedString complexity
  by_cases hshort : v.length < 8
  · rw [if_pos hshort]
    exact Or.inr ⟨fun h => by omega, _, rfl⟩
  by_cases hlong : 100 < v.length
  · rw [if_neg hshort, if_pos hlong]
    exact Or.inr ⟨fun h => by omega, _, rfl⟩
  rw [if_neg hshort, if_neg hlong]
  simp only [bind, Except.bind]
  cases v.toList.any classes.isupper with
  | false => exact Or.inr ⟨fun h => absurd h.2.1 Bool.false_ne_true, _, rfl⟩
  | true =>
      cases v.toList.any classes.isdigit with
      | false => exact Or.inr ⟨fun h => absurd h.2.2 Bool.false_ne_true, _, rfl⟩
      | true => exact Or.inl ⟨⟨by omega, rfl, rfl⟩, rfl⟩

theorem passwordWithin_ok (h : Accepted classes v) : passwordWithin classes 8 100 v = .ok v := by
  rcases passwordWithin_cases classes v with ⟨-, hok⟩ | ⟨hno, -⟩
  · exact hok
  · exact absurd h hno

end

/-! ## What bcrypt makes of them -/

/-- The two functions of `bcrypt`; the salt is what `gensalt` draws. -/
structure Bcrypt where
  hashpw : Bytes → (salt : String) → String
  checkpw : Bytes → String → Bool

/-- The first 72 bytes are hashed, without collisions. -/
structure Bcrypt.CollisionFree (bcrypt : Bcrypt) : Prop where
  checkpw_hashpw : ∀ p salt q,
    bcrypt.checkpw q (bcrypt.hashpw p salt) = true ↔ q.take 72 = p.take 72

/-- `_hash_password`, and what `update_me` has in its place. -/
def Bcrypt.hashText (bcrypt : Bcrypt) (salt plain : String) : String :=
  bcrypt.hashpw (utf8 plain) salt

/-- `_verify_password`. -/
def Bcrypt.verifyText (bcrypt : Bcrypt) (plain hashed : String) : Bool :=
  bcrypt.checkpw (utf8 plain) hashed

/-- The part of a password that is hashed. -/
def hashedPart (v : String) : Bytes := (utf8 v).take 72

theorem Bcrypt.CollisionFree.verifyText_iff {bcrypt : Bcrypt} (laws : bcrypt.CollisionFree)
    (salt p q : String) :
    bcrypt.verifyText q (bcrypt.hashText salt p) = true ↔ hashedPart q = hashedPart p :=
  laws.checkpw_hashpw (utf8 p) salt (utf8 q)

/-! ## Passwords that are hashed whole -/

theorem length_utf8_le (v : String) : (utf8 v).length ≤ 4 * v.length := by
  have hbytes : utf8 v = v.toList.flatMap String.utf8EncodeChar := by
    unfold utf8
    rw [← String.utf8Encode_toList]
    simp [List.utf8Encode]
  have hsum : ∀ cs : List Char, (cs.flatMap String.utf8EncodeChar).length ≤ 4 * cs.length := by
    intro cs
    induction cs with
    | nil => exact le_refl _
    | cons c cs ih =>
        have hc := c.utf8Size_le_four
        rw [List.flatMap_cons, List.length_append, String.length_utf8EncodeChar,
          List.length_cons]
        omega
  rw [hbytes, ← String.length_toList]
  exact hsum v.toList

/-- **Up to 18 characters, different passwords differ in what is hashed.** -/
theorem hashedPart_ne_of_short {p q : String} (hp : p.length ≤ 18) (hq : q.length ≤ 18)
    (hne : p ≠ q) : hashedPart p ≠ hashedPart q := by
  intro h
  have hlp := length_utf8_le p
  have hlq := length_utf8_le q
  unfold hashedPart at h
  rw [List.take_of_length_le (by omega), List.take_of_length_le (by omega)] at h
  exact hne (utf8_injective h)

end Microservices.Users

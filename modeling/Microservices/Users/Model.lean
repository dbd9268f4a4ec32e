import Microservices.Lib.Uuid

/-!
# Accounts

The columns of the `users` table that the routes read or write.
-/

namespace Microservices.Users

/-- Clock readings and expiry times, in milliseconds. -/
abbrev Time := Int

structure User where
  id : UUID
  email : String
  username : String
  hashedPassword : String
  fullName : Option String := none
  isActive : Bool := true
  isAdmin : Bool := false
  lastLoginAt : Option Time := none
  emailVerified : Bool := false
  emailVerifiedAt : Option Time := none
  deriving DecidableEq, Repr

end Microservices.Users

/-!
# What requests and answers are made of

The part of the HTTP vocabulary that every service shares.
-/

namespace Microservices

abbrev Bytes := List UInt8

/-- `fastapi.HTTPException`: the status, the `detail` text and any extra headers. -/
structure HTTPException where
  statusCode : Nat
  detail : String
  headers : List (String × String) := []
  deriving DecidableEq, Repr

/-- The framework's answer to an exception that nothing handles. -/
def serverError : HTTPException := { statusCode := 500, detail := "Internal Server Error" }

end Microservices

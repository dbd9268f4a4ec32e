import Microservices.Lib.Dict
import Microservices.Identity.Signing

/-!
# The headers the proxy forwards

`_build_forward_headers`: strip what the client may not say, then assign what the
gateway says. The result is a dictionary keyed by *case-sensitive* names. The
server delivers client names in lower case and the gateway writes its own in
title case, so a client header that survives the stripping sits beside the
gateway's under a different key, and the HTTP client sends both.
-/

namespace Microservices.Gateway

open Identity

/-- `str.lower` on a header name. -/
def lower (s : String) : String := String.ofList (s.toList.map Char.toLower)

/-- `_HOP_BY_HOP`. -/
def hopByHop : List String :=
  ["connection", "keep-alive", "transfer-encoding", "te", "trailers", "upgrade",
   "proxy-authorization"]

/-- `_GATEWAY_OWNED`. -/
def gatewayOwned : List String :=
  ["x-user-id", "x-user-email", "x-user-roles", "x-forwarded-for", "x-forwarded-host",
   "x-forwarded-proto", "x-original-url", "x-rewrite-url", "host", "x-http-method-override",
   "x-method-override", "x-http-method"]

/-- `IDENTITY_SIG_HEADER`. -/
def identitySigHeader : String := "X-Identity-Signature"

/-- `IDENTITY_TS_HEADER`. -/
def identityTsHeader : String := "X-Identity-Issued-At"

/-- What the middlewares have put on `request.state`; `none` where an attribute is not set. -/
structure RequestState where
  userId : Option String := none
  userEmail : Option String := none
  userRoles : Option (List String) := none
  requestId : Option String := none

/-- The client's header list as the server delivers it: names in lower case, repeats allowed. -/
structure ClientHeaders where
  items : List (String × String)
  lowered : ∀ h ∈ items, lower h.1 = h.1

/-- `request.headers.get(name)`. -/
def ClientHeaders.get? (h : ClientHeaders) (name : String) : Option String :=
  (h.items.find? fun e => e.1 == name).map Prod.snd

/-- `request.headers.get(name, "")`: the first match. -/
def ClientHeaders.getD (h : ClientHeaders) (name : String) : String :=
  ((h.items.find? fun e => e.1 == name).map Prod.snd).getD ""

/-- What `_build_forward_headers` reads of a request. -/
structure ForwardRequest where
  headers : ClientHeaders
  clientHost : Option String
  urlScheme : String
  urlHostname : Option String
  state : RequestState

/-- `k.lower() not in _HOP_BY_HOP and k.lower() not in _GATEWAY_OWNED`. -/
def passesStripping (name : String) : Bool :=
  lower name ∉ hopByHop ∧ lower name ∉ gatewayOwned

abbrev HeaderDict := Dict String String

/-- The comprehension over `request.headers.items()`. -/
def strippedHeaders (h : ClientHeaders) : HeaderDict :=
  Dict.ofPairs (h.items.filter fun e => passesStripping e.1)

/-- `X-Forwarded-For`, `-Proto` and `-Host`. -/
def setForwarded (r : ForwardRequest) (headers : HeaderDict) : HeaderDict :=
  let headers := match r.clientHost with
    | some clientIp =>
        if clientIp = "" then headers
        else
          let prior := r.headers.getD "x-forwarded-for"
          headers.set "X-Forwarded-For" (if prior = "" then clientIp else prior ++ ", " ++ clientIp)
    | none => headers
  (headers.set "X-Forwarded-Proto" r.urlScheme).set "X-Forwarded-Host" (r.urlHostname.getD "")

/-- The identity headers and their signature, for an authenticated request. -/
def setIdentity (hmac : Bytes → Bytes → Bytes) (secret : String) (time : Int) (s : RequestState)
    (headers : HeaderDict) : HeaderDict :=
  let userId := orEmpty s.userId
  let userEmail := orEmpty s.userEmail
  let userRoles := ",".intercalate (s.userRoles.getD [])
  if userId = "" then headers
  else
    let headers := headers.set "X-User-Id" userId
    let headers := if userEmail = "" then headers else headers.set "X-User-Email" userEmail
    let headers := headers.set "X-User-Roles" userRoles
    let signed := signIdentity hmac secret userId (some userEmail) (some userRoles) none time
    (headers.set identitySigHeader signed.1).set identityTsHeader signed.2

/-- `if request_id := …: headers["X-Request-ID"] = request_id`. -/
def setRequestId (s : RequestState) (headers : HeaderDict) : HeaderDict :=
  let requestId := orEmpty s.requestId
  if requestId = "" then headers else headers.set "X-Request-ID" requestId

/-- `_build_forward_headers`. -/
def buildForwardHeaders (hmac : Bytes → Bytes → Bytes) (secret : String) (time : Int)
    (r : ForwardRequest) : HeaderDict :=
  setRequestId r.state
    (setIdentity hmac secret time r.state (setForwarded r (strippedHeaders r.headers)))

/-- The fields of a request that an upstream reads under `name`, compared without case. -/
def fields (name : String) (d : HeaderDict) : List (String × String) :=
  d.select fun k => lower k == name

end Microservices.Gateway

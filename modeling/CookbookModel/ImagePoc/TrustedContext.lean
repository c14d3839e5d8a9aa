import CookbookModel.ImagePoc.Interceptor

namespace ImagePoc

open PyString Json PyItems

def trustedHeaderNames : List (PyString × PyString) := [
  ("sub", "x-dnsid-sub"),
  ("issuer", "x-dnsid-iss"),
  ("audience", "x-dnsid-aud"),
  ("jti", "x-dnsid-jti"),
  ("dnsid_domain", "x-dnsid-domain"),
  ("scope", "x-dnsid-scope"),
  ("auth_mode", "x-dnsid-auth-mode"),
  ("verified_at", "x-dnsid-verified-at"),
  ("gateway_request_id", "x-gateway-request-id"),
  ("correlation_id", "x-correlation-id")
]

def requiredHeaderFields : List PyString :=
  ["sub", "issuer", "audience", "jti", "dnsid_domain"]

structure TrustedContext where
  sub              : PyString
  issuer           : PyString
  audience         : PyString
  jti              : PyString
  dnsidDomain      : PyString
  scope            : PyString
  authMode         : PyString
  verifiedAt       : PyString
  gatewayRequestId : PyString
  correlationId    : PyString
  deriving DecidableEq

def isSafeHeaderValue (value : PyString) : Bool :=
  value.all fun c => 0x20 ≤ c.val && c.val ≤ 0x7E

-- `TrustedContext(**values)`
def TrustedContext.of (values : PyString → PyString) : TrustedContext where
  sub              := values "sub"
  issuer           := values "issuer"
  audience         := values "audience"
  jti              := values "jti"
  dnsidDomain      := values "dnsid_domain"
  scope            := values "scope"
  authMode         := values "auth_mode"
  verifiedAt       := values "verified_at"
  gatewayRequestId := values "gateway_request_id"
  correlationId    := values "correlation_id"

def headerValue (normalized : PyItems PyString) (field : PyString × PyString) :
    Except Raised (PyString × PyString) := do
  let value := (get normalized field.2).getD []
  throwIf (value ≠ [] ∧ ¬isSafeHeaderValue value) <|
    .trustedContextError <| field.2 ++ ofString " must contain printable ASCII."
  return (field.1, strip value)

def parseTrustedContext [Python] (headers : Option Json) (expectedSub : Option PyString) :
    Except Raised TrustedContext := do
  let normalized ← (normalizeHeaders headers).mapError .python
  let values ← trustedHeaderNames.mapM (headerValue normalized)
  let value field := (get values field).getD []
  requiredHeaderFields.forM fun field =>
    throwIf (value field = []) <| .trustedContextError <|
      "Missing trusted header " ++ (get trustedHeaderNames field).getD [] ++ ofString "."
  throwIf (expectedSub.any (· ≠ []) ∧ some (value "sub") ≠ expectedSub) <|
    .trustedContextError "Unexpected DNSid subject."
  let authMode : PyString := if value "auth_mode" = [] then "gateway-dnsid-lab" else value "auth_mode"
  return { TrustedContext.of value with authMode }

end ImagePoc

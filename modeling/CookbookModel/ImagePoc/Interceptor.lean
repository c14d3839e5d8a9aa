import CookbookModel.Library.Json.RoundTrip
import CookbookModel.Library.PyText
import CookbookModel.Library.Time
import CookbookModel.Orders.Interceptor

namespace ImagePoc

open PyString Json PyItems
open Orders (dictOrEmpty gatewayRequest Transformed InterceptorOutput)

-- An exception that the recipe raises: one of its own classes, or one of Python's.
inductive Raised
  | interceptorError (text : PyString)
  | trustedContextError (text : PyString)
  | gatewayMcpError (code message : PyString) (status : Nat)
  | python (e : PyError)
  deriving DecidableEq

-- The variables of `os.environ` that say which tokens are expected
structure Environment where
  expectedDnsidSub        : Option PyString
  expectedDnsidIss        : Option PyString
  expectedGatewayAudience : Option PyString

-- What the clock and the source of randomness give during a call: `time.time()` in whole seconds,
-- the floats (given by their texts) that it has reached, `time.gmtime()` and `uuid.uuid4()`.
structure Moment where
  seconds : Int
  reached : PyString → Bool
  gmtime  : Time
  uuid4   : Fin (2 ^ 128)

namespace Moment

-- `time.strftime("%Y-%m-%dT%H:%M:%SZ", time.gmtime())`
def strftime (m : Moment) : PyString :=
  let t := m.gmtime.val
  let number width n := textOf (Time.digits width n)
  number 4 t.year ++ 0x2D :: number 2 t.month ++ 0x2D :: number 2 t.day ++ 0x54 ::
    number 2 t.hour ++ 0x3A :: number 2 t.minute ++ 0x3A :: number 2 t.second ++ [0x5A]

-- `uuid.uuid4().hex`
def hex (m : Moment) : PyString :=
  (List.range 32).map fun i => hexDigit (m.uuid4 / 16 ^ (31 - i))

end Moment

variable [Python]

-- The interceptor and the target each have a copy of what the interceptor of the orders does.
def normalizeHeaders (headers : Option Json) : Except PyError (PyItems PyString) :=
  Orders.normalizeHeaders headers

namespace Interceptor

-- `except (ValueError, UnicodeDecodeError)`
def unreadable : PyError → Raised
  | .valueError _ | .jsonDecodeError _ => .interceptorError "Bearer token claims are unreadable."
  | e                                  => .python e

-- `payload.encode("ascii")`
def encodeAscii (payload : PyString) : Except PyError PyString :=
  if payload.isascii then .ok payload else .error <| .valueError []

def claimsFromAuthorization (value : PyString) : Except Raised (PyItems Json) := do
  throwIf (¬startswith value "Bearer ") <| .interceptorError "Missing bearer token."
  match split (strip ( removeprefix value "Bearer ")) 0x2E with
  | _ :: part :: _ =>
    match ← (decoded part).mapError unreadable with
    | .object claims => return claims
    | _              => throw <| .interceptorError "Bearer token claims must be an object."
  | _ => throw <| .interceptorError "Bearer token is not a JWT."
where
  decoded (part : PyString) : Except PyError Json := do
    let payload := part ++ List.replicate ((4 - part.length % 4) % 4) 0x3D
    Python.loads (← decode (← Python.urlsafeB64decode (← encodeAscii payload)))

def requiredEnv (name : PyString) : Option PyString → Except Raised PyString
  | some (c :: s) => .ok <| c :: s
  | _             =>
    .error <| .interceptorError <| "Missing interceptor configuration " ++ name ++ ofString "."

-- `value == text`
def isText (value : Json) (text : PyString) : Bool :=
  match value with
  | .string s => s = text
  | _         => false

def audienceMatches (actual : Option Json) (expected : PyString) : Bool :=
  match actual with
  | some (.string s)    => s = expected
  | some (.array items) => items.any (isText · expected)
  | _                   => false

-- `not isinstance(exp, (int, float)) or exp <= time.time()`
def expired (m : Moment) : Option Json → Bool
  | some (.int n)      => n ≤ m.seconds
  | some (.bool b)     => (if b then 1 else 0) ≤ m.seconds
  | some (.float text) => m.reached text
  | _                  => true

def validateClaims (env : Environment) (m : Moment) (claims : PyItems Json) : Except Raised Unit := do
  let expectedSub ← requiredEnv "EXPECTED_DNSID_SUB" env.expectedDnsidSub
  let expectedIssuer ← requiredEnv "EXPECTED_DNSID_ISS" env.expectedDnsidIss
  let expectedAudience ← requiredEnv "EXPECTED_GATEWAY_AUDIENCE" env.expectedGatewayAudience
  throwIf (¬(get claims "sub").any (isText · expectedSub)) <|
    .interceptorError "Unexpected DNSid subject."
  throwIf (¬(get claims "iss").any (isText · expectedIssuer)) <|
    .interceptorError "Unexpected DNSid issuer."
  throwIf (¬audienceMatches (get claims "aud") expectedAudience) <|
    .interceptorError "Unexpected DNSid audience."
  throwIf (expired m (get claims "exp")) <|
    .interceptorError "Bearer token is expired or missing exp."
  throwIf (¬(get claims "jti").any truthy) <|
    .interceptorError "Bearer token is missing jti."

-- `str(value)` of a claim that may be missing
def text (value : Option Json) : PyString :=
  Python.str <| value.getD (.string [])

-- A claim that may be a list is written with blanks between its items.
def listText : Option Json → PyString
  | some (.array items) => join [0x20] (items.map Python.str)
  | value               => text value

-- `value if value else None`
def ifTruthy (value : Option Json) : Option Json :=
  value.filter truthy

def domainText (claims : PyItems Json) (sub : PyString) : PyString :=
  ((ifTruthy (get claims "dnsid") <|> ifTruthy (get claims "fqdn")).map Python.str).getD sub

def gatewayRequestId (request : PyItems Json) : PyString :=
  let context := asObject <| get request "requestContext"
  let id := ifTruthy (get request "requestId") <|> ifTruthy (get request "request_id") <|>
    ifTruthy (get request "id") <|> ifTruthy (get context "requestId")
  (id.map Python.str).getD []

-- The headers before those without a value are left out
def headersOf (claims : PyItems Json) (sub : PyString) (request : PyItems Json) (m : Moment) :
    PyItems PyString := [
  ("x-dnsid-sub", sub),
  ("x-dnsid-iss", text (get claims "iss")),
  ("x-dnsid-aud", listText (get claims "aud")),
  ("x-dnsid-jti", text (get claims "jti")),
  ("x-dnsid-domain", domainText claims sub),
  ("x-dnsid-scope", listText (get claims "scope")),
  ("x-dnsid-auth-mode", "gateway-dnsid-lab"),
  ("x-dnsid-verified-at", m.strftime),
  ("x-gateway-request-id", gatewayRequestId request),
  ("x-correlation-id", m.hex)
]

def trustedHeadersFromClaims (claims request : PyItems Json) (m : Moment) :
    Except PyError (PyItems PyString) :=
  match get claims "sub" with
  | none     => .error <| .other "KeyError"
  | some sub => .ok <| (headersOf claims (Python.str sub) request m).filter (·.2 ≠ [])

def jsonrpcId (body : Option Json) : Json :=
  (get (asObject body) "id").getD .null

def denied (request : PyItems Json) (message : PyString) : InterceptorOutput where
  mcp := .gatewayResponse 403 <| .object [
    ("jsonrpc", .string "2.0"),
    ("id", jsonrpcId (get request "body")),
    ("error", .object [("code", .string "trusted_context_error"), ("message", .string message)])
  ]

-- The headers for the target, from the request and the headers it came with
def trustedHeaders (env : Environment) (m : Moment) (request : PyItems Json) :
    Except Raised (PyItems PyString) := do
  let headers ← (normalizeHeaders (get request "headers")).mapError .python
  let claims ← claimsFromAuthorization ((get headers "authorization").getD [])
  validateClaims env m claims
  (trustedHeadersFromClaims claims request m).mapError .python

def transformRequest (env : Environment) (m : Moment) (event : PyItems Json) :
    Except Raised InterceptorOutput := do
  let request ← (gatewayRequest event).mapError .python
  match trustedHeaders env m request with
  | .ok headers                        =>
    return { mcp := .gatewayRequest ((get request "body").getD .null) headers }
  | .error (.interceptorError message) => return denied request message
  | .error e                           => throw e

end Interceptor

end ImagePoc

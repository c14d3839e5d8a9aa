import CookbookModel.Orders.Verifier

namespace Orders

open PyString Json PyItems

variable [Python] {σ ω : Type}

def protectedHeaders : List PyString :=
  ["authorization", "x-action-proof", "x-dnsid-status", "x-dnsid-sub", "x-gateway-sentinel"]

-- `(value or {})`, of which a method is called that only a `dict` has.
def dictOrEmpty : Option Json → Except PyError (PyItems Json)
  | none                  => .ok []
  | some (.object items)  => .ok items
  | some value            => if value.truthy then .error <| .other "AttributeError" else .ok []

def addHeader (headers : PyItems PyString) : PyString × Json → PyItems PyString
  | (_, .null)   => headers
  | (key, value) => set headers (Python.lower key) (Python.str value)

def normalizeHeaders (headers : Option Json) : Except PyError (PyItems PyString) := do
  return (← dictOrEmpty headers).foldl addHeader []

def requiredString (values : PyItems Json) (name : PyString) : Except PyError PyString :=
  match get values name with
  | some (.string (c :: s)) => .ok <| c :: s
  | _                       => .error <| .valueError <| "token missing " ++ name

def singleAudience : Option Json → Except PyError PyString
  | some (.string (c :: s))          => .ok <| c :: s
  | some (.array [.string (c :: s)]) => .ok <| c :: s
  | _                                => .error <| .valueError "token must have one audience"

def decodeClaims (token : PyString) : Except PyError (PyItems Json) := do
  match split token 0x2E with
  | [_, part, _] =>
    let payload := part ++ List.replicate ((4 - part.length % 4) % 4) 0x3D
    match ← Python.loadsBytes (← Python.urlsafeB64decode payload) with
    | .object decoded => return decoded
    | _               => throw <| .valueError "JWT payload must be an object"
  | _ => throw <| .valueError "token is not a JWT"

-- What the interceptor uses of a token.
structure TokenClaims where
  subject  : PyString
  audience : PyString
  jti      : PyString

def tokenClaims (token : PyString) : Except PyError TokenClaims := do
  let claims ← decodeClaims token
  let subject ← requiredString claims "sub"
  let audience ← singleAudience (get claims "aud")
  let jti ← requiredString claims "jti"
  return ⟨subject, audience, jti⟩

-- `except (TypeError, ValueError)`
def malformedToken : PyError → Raised
  | .typeError text | .valueError text | .jsonDecodeError text =>
    .requestError "malformed_token" text
  | e => .python e

section Request

variable (request : PyItems Json)

def body : PyItems Json :=
  asObject <| get request "body"

def params : PyItems Json :=
  asObject <| get (body request) "params"

def arguments : PyItems Json :=
  asObject <| get (params request) "arguments"

def isToolsCall : Bool :=
  match get (body request) "method" with
  | some (.string method) => method = ofString "tools/call"
  | _                     => false

def toolName : PyString :=
  afterLast "___" <| Python.str <| (get (params request) "name").getD (.string [])

end Request

-- A proof to verify and what it has to say.
structure ProofRequest where
  subject  : PyString
  jws      : PyString
  expected : List (PyString × PyString)
  deriving DecidableEq

-- The part of `verify_request` before the proof is verified. It is `none` for a request that is not
-- verified.
def proofRequest (request : PyItems Json) (expectedSubject : PyString) :
    Except Raised (Option ProofRequest) := do
  let headers ← (normalizeHeaders (get request "headers")).mapError Raised.python
  if isToolsCall request then
    let token := (get headers "authorization").getD []
    throwIf (¬startswith token "Bearer ") <| .requestError "missing_token" "missing bearer token"
    let claims ← (tokenClaims ( removeprefix token "Bearer ")).mapError malformedToken
    throwIf (claims.subject ≠ expectedSubject) <|
      .requestError "unexpected_subject" "unexpected DNSid subject"
    let jws := (get headers "x-action-proof").getD []
    throwIf (jws = []) <| .requestError "missing_action_proof" "missing action proof"
    let tokenJtiHash ← (sha256 claims.jti).mapError Raised.python
    let sessionHash ← (sha256 ((get headers "mcp-session-id").getD [])).mapError Raised.python
    return some {
      subject := claims.subject, jws,
      expected := [
        ("subject", claims.subject), ("audience", claims.audience),
        ("token_jti_hash", tokenJtiHash), ("tool_name", toolName request),
        ("arguments_hash", argumentsHash (arguments request)), ("session_hash", sessionHash)
      ]
    }
  else
    return none

-- `except ProofError`
def proofDenied : Raised → Raised
  | .proofError message state =>
    .requestError
      (if Python.upper state = ofString "REVOKED" then "dnsid_revoked" else "action_proof_denied")
      message
  | e => e

structure Verified where
  subject : PyString
  status  : PyString

def verifyRequest (request : PyItems Json) (v : ProofVerifier σ ω) (expectedSubject : PyString)
    (w : ProofVerifier.Stamp ω) (s : σ) : Except Raised (Option Verified) × σ :=
  match proofRequest request expectedSubject with
  | .error e     => (.error e, s)
  | .ok none     => (.ok none, s)
  | .ok (some p) =>
    match v.verify w.profile p.jws p.expected w.now w.answer s with
    | (.error e, s)   => (.error <| proofDenied e, s)
    | (.ok action, s) => (.ok <| some ⟨p.subject, Python.lower action.identity.cachedState⟩, s)

-- What the gateway goes on with: a request for the target, or a response for the client.
inductive Transformed
  | gatewayRequest (body : Json) (headers : PyItems PyString)
  | gatewayResponse (statusCode : Nat) (body : Json)

structure InterceptorOutput where
  interceptorOutputVersion : PyString := "1.0"
  mcp                      : Transformed

def denied (request : PyItems Json) (code message : PyString) : InterceptorOutput where
  mcp := .gatewayResponse 403 <| .object [
    ("jsonrpc", .string "2.0"),
    ("id", (get (body request) "id").getD .null),
    ("error", .object [("code", .string code), ("message", .string message)])
  ]

def gatewayRequest (event : PyItems Json) : Except PyError (PyItems Json) := do
  let mcp ← dictOrEmpty (get event "mcp")
  dictOrEmpty (get mcp "gatewayRequest")

def forwardedHeaders (headers : PyItems PyString) (verified : Option Verified)
    (sentinel : PyString) : PyItems PyString :=
  let headers := headers.filter fun header => header.1 ∉ protectedHeaders
  match verified with
  | none          => headers
  | some verified =>
    set (set (set headers "x-dnsid-sub" verified.subject) "x-dnsid-status" verified.status)
      "x-gateway-sentinel" sentinel

-- The headers of a request that was verified are normalized once more.
def transformRequest (event : PyItems Json) (v : ProofVerifier σ ω)
    (expectedSubject sentinel : PyString) (w : ProofVerifier.Stamp ω) (s : σ) :
    Except Raised InterceptorOutput × σ :=
  match gatewayRequest event with
  | .error e    => (.error <| .python e, s)
  | .ok request =>
    match verifyRequest request v expectedSubject w s with
    | (.error (.requestError code message), s) => (.ok <| denied request code message, s)
    | (.error e, s)                            => (.error e, s)
    | (.ok verified, s)                        =>
      match normalizeHeaders (get request "headers") with
      | .error e    => (.error <| .python e, s)
      | .ok headers =>
        let body := (get request "body").getD .null
        (.ok { mcp := .gatewayRequest body <| forwardedHeaders headers verified sentinel }, s)

end Orders

import CookbookModel.Library.System
import CookbookModel.Workers.Replay

namespace Workers

open JsString

structure URL where
  protocol : JsString
  username : JsString
  password : JsString
  host     : JsString
  pathname : JsString
  search   : JsString
  hash     : JsString
  deriving DecidableEq

structure Request where
  method  : JsString
  url     : URL
  headers : Headers
  body    : Option (List UInt8)
  deriving DecidableEq

-- A response of the handler's own, or one of the origin.
inductive Response
  | json (status : Nat) (error message : JsString)
  | origin (status : Nat) (body : List UInt8)
  deriving DecidableEq

inductive Thrown
  | verificationError (code message : JsString)
  | other (text : JsString)
  deriving DecidableEq

-- The parameters of one signature, in seconds where they are times.
structure SignatureParams where
  keyId   : Option JsString
  nonce   : Option JsString
  created : Option Int
  deriving DecidableEq

structure VerifiedDomain where
  domain : JsString
  gi     : Option JsString
  deriving DecidableEq

-- What the SDK computes from texts.
class HttpSignatures where
  -- The signatures of a `Signature-Input` header, `none` where it is malformed.
  parseSignatureInput : JsString → Option (List SignatureParams)
  -- The domain of a key id
  parseKeyId : Option JsString → Except Thrown JsString

structure IngressEnv where
  originUrl    : URL
  originSecret : JsString
  deriving DecidableEq

def maxAgeSeconds : Int := 300
def clockSkewSeconds : Int := 5

def deny (status : Nat) (code message : JsString) : Response :=
  .json status code message

-- The operations of a request: the SDK's verification, the claim of a nonce in the store of its
-- signer, and the request to the origin.
inductive Op
  | verifySignedHttpRequest (request : Request)
  | claim (signerDomain nonce : JsString) (expiresAtMs : Int)
  | fetch (outbound : Request)
  deriving DecidableEq

abbrev Op.Res : Op → Type
  | verifySignedHttpRequest _ => Except Thrown VerifiedDomain
  | claim _ _ _               => Except Thrown Bool
  | fetch _                   => Except Thrown Response

abbrev Handler (α : Type) := Program Op Op.Res Thrown α

section Handle

variable [HttpSignatures]

def expiresAtMs (signature : SignatureParams) : Int :=
  (signature.created.getD 0 + maxAgeSeconds + clockSkewSeconds) * 1000

def claimSignatureNonce (signature : SignatureParams) (nonce : JsString) : Handler Bool := do
  let signerDomain ← Program.ofExcept <| HttpSignatures.parseKeyId signature.keyId
  Program.ofExcept (← Program.perform (Op.claim signerDomain nonce (expiresAtMs signature)))

def setHeader (headers : Headers) (name value : JsString) : Except Thrown Headers :=
  match headers.assign name value with
  | some headers => .ok headers
  | none         => .error <| .other "TypeError"

def prepareOriginHeaders (request : Request) (agentDomain : JsString)
    (entityDomain : Option JsString) (originSecret : JsString) : Except Thrown Headers := do
  let headers := request.headers.filter fun name _ => !startsWith name "dnsid-"
  let headers ← setHeader headers "DNSid-Agent" agentDomain
  let headers ← match entityDomain with
    | none | some []      => pure headers
    | some entityDomain   => setHeader headers "DNSid-Accountable-Entity" entityDomain
  setHeader headers "DNSid-Origin-Auth" originSecret

-- `new Request(target, ...)` refuses a URL with credentials.
def outboundRequest (request : Request) (target : URL) (headers : Headers) :
    Except Thrown Request := do
  throwIf (target.username ≠ [] ∨ target.password ≠ []) <| .other "TypeError"
  return {
    method := request.method
    url    := { target with pathname := request.url.pathname, search := request.url.search }
    headers
    body   := request.body
  }

def forward (env : IngressEnv) (request : Request) (verified : VerifiedDomain) : Handler Response := do
  let headers ← Program.ofExcept <|
    prepareOriginHeaders request verified.domain verified.gi env.originSecret
  let outbound ← Program.ofExcept <| outboundRequest request env.originUrl headers
  Program.ofExcept (← Program.perform (Op.fetch outbound))

-- What follows once the request is known to have one signature, with a nonce.
def handleSigned (env : IngressEnv) (request : Request) (signature : SignatureParams)
    (nonce : JsString) : Handler Response := do
  let verified : Op.Res (.verifySignedHttpRequest request) ← Program.perform _
  match (verified : Except Thrown VerifiedDomain) with
  | .error (.verificationError code message) =>
    return deny 401 (ofString "verification_failed:" ++ code) message
  | .error e => throw e
  | .ok verified =>
    if ← claimSignatureNonce signature nonce then
      forward env request verified
    else
      return deny 401 "replay" "nonce already used"

-- The handler that `createIngressHandler` returns.
def handle (env : IngressEnv) (request : Request) : Handler Response :=
  match request.headers[ofString "signature-input"]? with
  | none | some []      => return deny 401 "unsigned" "request is not signed"
  | some signatureInput =>
    match HttpSignatures.parseSignatureInput signatureInput with
    | none             => return deny 401 "signature_malformed" "Signature-Input is malformed"
    | some [signature] =>
      match signature.nonce with
      | none | some [] => return deny 401 "nonce_required" "signature must include a nonce"
      | some nonce     => handleSigned env request signature nonce
    | some _ => return deny 401 "signature_count" "exactly one signature is required"

end Handle

-- The only signature of a request
def Request.signature [HttpSignatures] (request : Request) : Option SignatureParams :=
  match request.headers[ofString "signature-input"]?.bind HttpSignatures.parseSignatureInput with
  | some [signature] => some signature
  | _                => none

-- How the surroundings of a request resolve one of its steps: the time, in milliseconds, what the
-- SDK finds, the failure of a claim and whether it was executed, and what the origin answers.
structure Outcome where
  now      : Int
  verified : Except Thrown VerifiedDomain
  failure  : Option (Thrown × Bool)
  fetched  : Except Thrown Response

structure State where
  clock  : Int
  stores : JsString → NonceStore

def exec : (o : Op) → Outcome → State → o.Res × State
  | .verifySignedHttpRequest _, w, s => (w.verified, { s with clock := w.now })
  | .claim signerDomain nonce expiresAtMs, w, s =>
    let (fresh, seen) := (s.stores signerDomain).claim nonce expiresAtMs w.now
    let claimed := fun domain => if domain = signerDomain then seen else s.stores domain
    match w.failure with
    | none                   => (.ok fresh, ⟨w.now, claimed⟩)
    | some (thrown, true)    => (.error thrown, ⟨w.now, claimed⟩)
    | some (thrown, false)   => (.error thrown, { s with clock := w.now })
  | .fetch _, w, s => (w.fetched, { s with clock := w.now })

-- The clock does not run backwards, and the SDK accepts no request after its signature's maximum age
-- and the clock skew.
def may [HttpSignatures] (o : Op) (w : Outcome) (s : State) : Bool :=
  s.clock ≤ w.now &&
  match o with
  | .verifySignedHttpRequest request =>
    match w.verified with
    | .ok _    => request.signature.any fun signature => w.now ≤ expiresAtMs signature
    | .error _ => true
  | _ => true

-- Requests that are in flight at the same time.
def system [HttpSignatures] (env : IngressEnv) :
    System Op Op.Res Thrown Response State Outcome Request where
  init := ⟨0, fun _ => ∅⟩
  body := handle env
  exec := exec
  may  := may

end Workers

-- Two requests with the same signature
namespace Workers.Sample

open JsString

def signatureInput : JsString :=
  "sig1=(\"@method\");created=1000;keyid=\"agent.example#key\";nonce=\"n-1\""

def signature : SignatureParams :=
  ⟨some "agent.example#key", some "n-1", some 1000⟩

@[reducible]
def httpSignatures : HttpSignatures where
  parseSignatureInput text := if text = signatureInput then some [signature] else none
  parseKeyId
    | some keyId => .ok <| keyId.takeWhile (· ≠ 0x23)
    | none       => .error <| .other "TypeError"

def url (host : String) : URL :=
  ⟨"https:", [], [], host, "/accounts", [], []⟩

def env : IngressEnv :=
  ⟨url "origin.example", "secret"⟩

def request : Request where
  method  := "GET"
  url     := url "bank.example"
  headers := GoMap.set ∅ "signature-input" signatureInput
  body    := none

def outcome (now : Int) : Outcome where
  now      := now
  verified := .ok ⟨"agent.example", none⟩
  failure  := none
  fetched  := .ok <| .origin 200 []

-- Both are verified at the last moment. One of them is claimed then, and the other at `later`.
def schedule (later : Int) : List (System.Action Outcome Request) := [
  .spawn request, .spawn request,
  .step 0 (outcome 1305000), .step 1 (outcome 1305000),
  .step 0 (outcome 1305000), .step 1 (outcome later),
  .step 0 (outcome later)
]

end Workers.Sample

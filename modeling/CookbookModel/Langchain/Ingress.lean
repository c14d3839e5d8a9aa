import CookbookModel.Library.History
import CookbookModel.Library.Python
import Mathlib.Algebra.Order.Field.Rat

namespace Langchain

open PyString PyItems

-- The parameters of one entry of a `Signature-Input` header
structure SignatureParams where
  keyid   : Option PyString
  nonce   : Option PyString
  tag     : Option PyString
  created : Option Int
  deriving DecidableEq

inductive Raised
  | dnsidError (text : PyString)
  | other (text : PyString)
  deriving DecidableEq

-- The SDK's `SignatureParams.parse_dictionary`, with the entries in order
class SignatureInput where
  parseDictionary : PyString → Except Raised (List SignatureParams)

def tag : PyString :=
  "dnsid-langchain-http-v1"

def maxBodyBytes : Nat :=
  8 * 1024 * 1024

structure Scope where
  type        : PyString
  method      : PyString
  path        : PyString
  rawPath     : List UInt8
  queryString : List UInt8
  headers     : List (List UInt8 × List UInt8)
  state       : PyItems PyString

structure HttpRequest where
  method  : PyString
  url     : PyString
  headers : PyItems PyString
  body    : Option (List UInt8)

-- When each nonce may be forgotten, in seconds
abbrev Seen := PyDict PyString ℚ

structure DnsidAuthMiddleware where
  authority : PyString
  maxAge    : ℚ := 300

-- What becomes of a request: it goes to the wrapped application with its body, or it is answered.
inductive Outcome
  | app (scope : Scope) (body : Option (List UInt8))
  | json (status : Nat) (error : PyString)
  | raised (e : Raised)

theorem toNat_lt (b : UInt8) : b.toNat < 0x110000 :=
  b.toNat_lt.trans (by decide)

-- `value.decode("latin-1")`
def latin1 (value : List UInt8) : PyString :=
  value.map fun b => ⟨b.toNat, toNat_lt b⟩

-- The body as it is read chunk by chunk, `none` once it is too large.
def readBody (body : List UInt8) : List (List UInt8) → Option (List UInt8)
  | []              => some body
  | chunk :: chunks =>
    let body := body ++ chunk
    if maxBodyBytes < body.length then none else readBody body chunks

-- `if p.created or now`
def createdOr (p : SignatureParams) (now : ℚ) : ℚ :=
  match p.created with
  | none         => now
  | some created => if created = 0 then now else created

namespace DnsidAuthMiddleware

-- The entries with our tag
def tagged (entries : List SignatureParams) : List SignatureParams :=
  entries.filter fun p => p.tag = some tag

-- The nonces of the entries, a later entry over an earlier one.
def record (m : DnsidAuthMiddleware) (now : ℚ) (seen : Seen) (params : List SignatureParams) : Seen :=
  params.foldl (fun seen p => seen.set (p.nonce.getD []) (createdOr p now + m.maxAge + 1)) seen

section Call

variable [SignatureInput]

def checkReplay (m : DnsidAuthMiddleware) (headers : PyItems PyString) (now : ℚ) (seen : Seen) :
    Except Raised (Option PyString) × Seen :=
  let seen := seen.filter fun _ expiry => now < expiry
  match get headers "signature-input" with
  | none       => (.error <| .other "KeyError", seen)
  | some input =>
    match SignatureInput.parseDictionary input with
    | .error e     => (.error e, seen)
    | .ok entries =>
      let params := tagged entries
      if params.any fun p => p.nonce.getD [] = [] then
        (.ok <| some "signature has no nonce; replay protection requires one", seen)
      else if params.any fun p => p.nonce.getD [] ∈ seen.keys then
        (.ok <| some "replayed request: signature nonce already used", seen)
      else
        (.ok none, m.record now seen params)

def headersOf (m : DnsidAuthMiddleware) (scope : Scope) : PyItems PyString :=
  let headers := scope.headers.foldl (fun headers (k, v) => set headers (latin1 k) (latin1 v)) []
  set headers "host" m.authority

def urlOf (m : DnsidAuthMiddleware) (scope : Scope) : Except Raised PyString := do
  let path ← if scope.rawPath ≠ [] then pure scope.rawPath else
    match scope.path.encode with
    | some path => pure path
    | none      => throw <| .other "UnicodeEncodeError"
  let query := if scope.queryString = [] then [] else 0x3F :: latin1 scope.queryString
  return ofString "https://" ++ m.authority ++ latin1 path ++ query

-- The request as the SDK is asked to verify it.
def httpRequest (m : DnsidAuthMiddleware) (scope : Scope) (body : List UInt8) :
    Except Raised HttpRequest := do
  let headers := m.headersOf scope
  return {
    method  := scope.method
    url     := ← m.urlOf scope
    headers
    body    := if body ≠ [] ∨ (get headers "content-digest").isSome then some body else none
  }

-- `__call__`, where `verify` is the SDK's `verify_signed_http_request` with the domain it verifies.
def call (m : DnsidAuthMiddleware) (scope : Scope) (chunks : List (List UInt8))
    (verify : HttpRequest → Except Raised PyString) (now : ℚ) (seen : Seen) : Outcome × Seen :=
  if scope.type ≠ ofString "http" then
    (.app scope none, seen)
  else
    match readBody [] chunks with
    | none      => (.json 413 "request body too large", seen)
    | some body =>
      match m.httpRequest scope body >>= verify with
      | .error (.dnsidError text) => (.json 401 text, seen)
      | .error e                  => (.raised e, seen)
      | .ok domain                =>
        match m.checkReplay (m.headersOf scope) now seen with
        | (.error e, seen)           => (.raised e, seen)
        | (.ok (some error), seen)   => (.json 401 error, seen)
        | (.ok none, seen)           =>
          (.app { scope with state := set scope.state "dnsid_caller" domain } (some body), seen)

-- A request to the middleware
structure Inbound where
  scope  : Scope
  chunks : List (List UInt8)

-- What a request meets: the time, and what the SDK finds. Where it verifies the request, it has
-- accepted one `signature`, which it does not disclose.
structure Stamp where
  now       : ℚ
  verify    : HttpRequest → Except Raised PyString
  signature : SignatureParams

def exec (m : DnsidAuthMiddleware) (inbound : Inbound) (w : Stamp) (seen : Seen) : Outcome × Seen :=
  m.call inbound.scope inbound.chunks w.verify w.now seen

end Call
end DnsidAuthMiddleware
end Langchain

-- A signed request, and the same one with an entry of the sender's after the signature.
namespace Langchain.Sample

open PyString

def signature : SignatureParams :=
  ⟨some "peer.test#k1", some "n-1", some tag, some 1000⟩

def shadow : SignatureParams :=
  ⟨some "peer.test#k1", some "n-1", some tag, some 1⟩

def signatureText : String :=
  "sig1=(\"@method\");created=1000;keyid=\"peer.test#k1\";nonce=\"n-1\";tag=\"dnsid-langchain-http-v1\""

def shadowText : String :=
  ", sig2=(\"@method\");created=1;keyid=\"peer.test#k1\";nonce=\"n-1\";tag=\"dnsid-langchain-http-v1\""

@[reducible]
def signatureInput : SignatureInput where
  parseDictionary text :=
    if text = ofString signatureText then .ok [signature]
    else if text = ofString (signatureText ++ shadowText) then .ok [signature, shadow]
    else .error <| .other "malformed"

def middleware : DnsidAuthMiddleware where
  authority := "tools.test"

def utf8 (s : String) : List UInt8 :=
  s.toByteArray.data.toList

def inbound (signatureInput : String) : DnsidAuthMiddleware.Inbound where
  scope := {
    type        := "http"
    method      := "POST"
    path        := "/x"
    rawPath     := utf8 "/x"
    queryString := []
    headers     := [(utf8 "signature-input", utf8 signatureInput)]
    state       := []
  }
  chunks := []

def stamp (now : ℚ) : DnsidAuthMiddleware.Stamp where
  now       := now
  verify _  := .ok "peer.test"
  signature := signature

end Langchain.Sample

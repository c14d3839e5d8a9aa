import CookbookModel.Library.GoMap
import CookbookModel.Library.JsString

namespace ResearchLab

open JsString

def maxBody : Nat := 64 * 1024

def maxAgeS : Int := 300

inductive Refused
  | bodyTooLarge
  | noKeyidOrNonce
  | replayed
  | untrusted (accountable : JsString)
  deriving DecidableEq

def Refused.message : Refused → JsString
  | bodyTooLarge          => "body too large"
  | noKeyidOrNonce        => "signature has no keyid or nonce"
  | replayed              => "replayed signature"
  | untrusted accountable =>
    ofString "accountable entity " ++ accountable ++ " is not on the allowlist"

structure VerificationError where
  code    : JsString
  message : JsString
  deriving DecidableEq

-- The keys of the requests that were let through, with the times until which they are kept.
abbrev Seen := GoMap JsString Int

-- The group of the first match of a pattern `start([^"]+)"`
def firstQuoted (start : JsString) : JsString → Option JsString
  | []        => none
  | u :: text =>
    match start.isPrefixOf? (u :: text) with
    | none      => firstQuoted start text
    | some rest =>
      let value := rest.takeWhile (· ≠ 0x22)
      if value ≠ [] ∧ rest.dropWhile (· ≠ 0x22) ≠ [] then some value else firstQuoted start text

def firstKeyid (signatureInput : JsString) : Option JsString :=
  firstQuoted "keyid=\"" signatureInput

def firstNonce (signatureInput : JsString) : Option JsString :=
  firstQuoted "nonce=\"" signatureInput

def replayKey (keyid nonce : JsString) : JsString :=
  keyid ++ ofString " " ++ nonce

def purge (now : Int) (seen : Seen) : Seen :=
  seen.filter fun _ expiry => now ≤ expiry

def rejectReplay (signatureInput : JsString) (now : Int) (seen : Seen) :
    Except Refused Unit × Seen :=
  let seen := purge now seen
  match firstKeyid signatureInput, firstNonce signatureInput with
  | some keyid, some nonce =>
    if seen[replayKey keyid nonce]? ≠ none then
      (.error .replayed, seen)
    else
      (.ok (), seen.set (replayKey keyid nonce) (now + (maxAgeS + 5) * 1000))
  | _, _ => (.error .noKeyidOrNonce, seen)

-- A request as it comes in. `pathname` is that of its URL, `none` where `new Request` throws.
structure Incoming where
  pathname       : Option JsString
  signatureInput : Option JsString
  chunks         : List (List UInt8)

-- The loop of `toRequest`: the body, unless it is too large.
def readBody (body : List UInt8) : List (List UInt8) → Except Refused (List UInt8)
  | []              => .ok body
  | chunk :: chunks =>
    if maxBody < body.length + chunk.length then .error .bodyTooLarge
    else readBody (body ++ chunk) chunks

-- The data that the service publishes, by the code of a country
class Dataset (Row : Type) where
  byIso3 : JsString → Option Row

inductive Body (Row : Type)
  | countries
  | row (row : Row)
  | error (text : JsString) (others : List JsString)
  deriving DecidableEq

def isLetter (u : UInt16) : Bool :=
  (0x41 ≤ u && u ≤ 0x5A) || (0x61 ≤ u && u ≤ 0x7A)

def upperUnit (u : UInt16) : UInt16 :=
  if 0x61 ≤ u && u ≤ 0x7A then u - 0x20 else u

variable {Row : Type} [Dataset Row]

def route (pathname : JsString) : Nat × Body Row :=
  if pathname = "/v1/countries" then
    (200, .countries)
  else
    match ((ofString "/v1/health-spending/").isPrefixOf? pathname).filter
        fun code => code.length = 3 ∧ code.all isLetter with
    | none      => (404, .error "not found" ["/v1/countries", "/v1/health-spending/\x7bISO3\x7d"])
    | some code =>
      match Dataset.byIso3 (code.map upperUnit) with
      | none     => (404, .error "unknown country" ["/v1/countries"])
      | some row => (200, .row row)

-- Who the SDK has verified the sender to be
structure Sender where
  domain      : JsString
  accountable : JsString
  state       : JsString
  deriving DecidableEq

-- What the SDK has found valid about a request.
structure Signature where
  keyid   : JsString
  nonce   : JsString
  created : Int
  deriving DecidableEq

-- What a request meets: the time at which the SDK accepts it, the one at which the guard runs, what
-- the SDK answers and whether the log can be written. Where it accepts the request, it has found one
-- `signature` with the required tag valid, which it does not disclose.
structure Stamp where
  accepted  : Int
  now       : Int
  verify    : Except VerificationError Sender
  signature : Signature
  logged    : Bool

-- How a request ends: it is served, refused with an answer that keeps the reason back, or fails.
inductive Outcome (Row : Type)
  | served (status : Nat) (body : Body Row)
  | refused (reason : Refused)
  | unverified (e : VerificationError)
  | badRequest
  | notLogged
  deriving DecidableEq

def Outcome.status : Outcome Row → Nat
  | served status _          => status
  | refused _ | unverified _ => 401
  | badRequest | notLogged   => 500

-- `trusted` are the accountable entities that may read, where there is such a list.
def handle (trusted : Option (List JsString)) (req : Incoming) (w : Stamp) (seen : Seen) :
    Outcome Row × Seen :=
  match readBody [] req.chunks, req.pathname with
  | .error e, _          => (.refused e, seen)
  | .ok _, none          => (.badRequest, seen)
  | .ok _, some pathname =>
    match w.verify with
    | .error e   => (.unverified e, seen)
    | .ok sender =>
      match rejectReplay (req.signatureInput.getD []) w.now seen with
      | (.error e, seen) => (.refused e, seen)
      | (.ok (), seen)   =>
        if trusted.any (sender.accountable ∉ ·) then
          (.refused (.untrusted sender.accountable), seen)
        else if w.logged then
          let (status, body) := route pathname
          (.served status body, seen)
        else
          (.notLogged, seen)

end ResearchLab

import CookbookModel.Library.TextDecoder
import CookbookModel.Workers.Ingress

namespace Workers

open JsString

-- `url.hostname`: the host without its port
def URL.hostname (url : URL) : JsString :=
  match url.host.reverse.dropWhile fun u => 0x30 ≤ u && u ≤ 0x39 with
  | 0x3A :: rest => rest.reverse
  | _            => url.host

namespace FetchJson

-- What `workersFetchJson` takes from the platform: `new URL(text, base)` and `JSON.parse(text)`,
-- `none` where they throw, and the text of a URL.
class Platform (Data : Type) where
  newUrl    : (text : JsString) → (base : Option URL) → Option URL
  href      : URL → JsString
  parseJson : JsString → Option Data

def maxRedirects : Nat := 5

def defaultMaxResponseBytes : Nat := 1024 * 1024

-- The options of a download, but for the signal that aborts it
structure Options where
  allowedHost      : Option JsString := none
  domainBoundary   : Option Bool := none
  maxResponseBytes : Option Nat := none

structure Response (Body : Type) where
  status   : Nat
  location : Option JsString
  body     : Body

inductive Code
  | tlsError
  | recordInvalid
  deriving DecidableEq

inductive Failure
  | verificationError (message : JsString) (code : Code) (transient : Bool)
  | other (text : JsString)
  deriving DecidableEq

structure Fetched (Data : Type) where
  data     : Data
  notAfter : Int
  san      : List JsString

-- The operations of a download: the fetcher, the SDK's reader of bodies and the clock. A fetch
-- fails with a message.
inductive Op (Body : Type)
  | fetch (target : URL) (redirect accept : JsString)
  | readBoundedBody (res : Response Body) (limit : Nat)
  | now

abbrev Op.Res {Body : Type} : Op Body → Type
  | fetch ..           => Except JsString (Response Body)
  | readBoundedBody .. => Except Failure (List UInt8)
  | now                => Int

abbrev Handler (Body α : Type) := Program (Op Body) Op.Res Failure α

-- Matches the exact host, or its subdomains where `boundary` is set.
def hostAllowed (host allowed : JsString) (boundary : Bool) : Bool :=
  host == allowed || (boundary && (ofString "." ++ allowed).isSuffixOf host)

def tlsError (message : JsString) : Failure :=
  .verificationError message .tlsError false

-- An empty host is no host.
def Options.host (opts : Options) : Option JsString :=
  opts.allowedHost.filter (· ≠ [])

variable {Body Data : Type} [Platform Data]

-- The checks that a URL has to pass on every hop
def checkUrl (Data : Type) [Platform Data] (opts : Options) (target : URL) : Except Failure Unit := do
  throwIf (target.protocol ≠ "https:") <|
    tlsError (ofString "non-HTTPS URL: " ++ Platform.href Data target)
  match opts.host with
  | none         => pure ()
  | some allowed =>
    throwIf (!hostAllowed target.hostname allowed (opts.domainBoundary.getD false)) <|
      tlsError (ofString "URL host not permitted: expected " ++ allowed ++ ", got " ++ target.hostname)

-- What a response with status 200 is made of.
def readJson (evidenceTtlMs : Int) (opts : Options) (target : URL) (res : Response Body) :
    Handler Body (Fetched Data) := do
  let limit := opts.maxResponseBytes.getD defaultMaxResponseBytes
  let bytes ← Program.perform (Op.readBoundedBody res limit)
  let bytes ← Program.ofExcept bytes
  match Platform.parseJson (decode bytes) with
  | none      => throw <| .verificationError "response body is not valid JSON" .recordInvalid false
  | some data =>
    let now ← Program.perform Op.now
    return ⟨data, (now : Int) + evidenceTtlMs, [target.hostname]⟩

-- The loop from the given hop on
def fetchFrom (evidenceTtlMs : Int) (opts : Options) (target : URL) (hop : Nat) :
    Handler Body (Fetched Data) := do
  Program.ofExcept <| checkUrl Data opts target
  match ← Program.perform (Op.fetch target "manual" "application/json") with
  | .error message => throw <| .verificationError (ofString "fetch failed: " ++ message) .tlsError true
  | .ok res        =>
    if 300 ≤ res.status ∧ res.status < 400 then
      if _h : res.location.getD [] = [] ∨ hop ≥ maxRedirects then
        throw <| tlsError "bad or excessive redirect"
      else
        match Platform.newUrl Data (res.location.getD []) (some target) with
        | none        => throw <| .other "TypeError"
        | some target => fetchFrom evidenceTtlMs opts target (hop + 1)
    else if res.status ≠ 200 then
      throw <| .verificationError
        (ofString "HTTP " ++ ofString (toString res.status) ++ " from " ++ target.host) .tlsError
        (res.status ≥ 500)
    else
      readJson evidenceTtlMs opts target res
termination_by maxRedirects - hop
decreasing_by omega

-- The downloader that `workersFetchJson(evidenceTtlMs, fetcher)` returns, on a URL and options.
def workersFetchJson (evidenceTtlMs : Int) (url : JsString) (opts : Options) :
    Handler Body (Fetched Data) :=
  match Platform.newUrl Data url none with
  | none        => throw <| .other "TypeError"
  | some target => fetchFrom evidenceTtlMs opts target 0

end FetchJson
end Workers

import CookbookModel.Workers.Ingress

namespace Workers

open JsString

-- `url.origin` where the URL has a host
def URL.origin (url : URL) : JsString :=
  url.protocol ++ "//" ++ url.host

-- What the egress Worker takes from the platform: `new URL(text)`, `none` where it throws, and the
-- SHA-256 digest of some bytes.
class Platform where
  parseUrl : JsString → Option URL
  sha256   : List UInt8 → List UInt8

-- A URL needs a scheme, and the origin of an HTTPS URL is the URL of its host.
class LawfulUrls [Platform] : Prop where
  empty  : Platform.parseUrl [] = none
  origin : Platform.parseUrl text = some url → url.protocol = "https:" →
    Platform.parseUrl url.origin = some ⟨"https:", [], [], url.host, "/", [], []⟩

namespace Egress

structure Agent (Key : Type) where
  keyProvider : Key
  tokenHashes : List JsString

def isBlank (domain : JsString) : Bool :=
  domain.all isSpace

structure EgressAgents (Key : Type) extends JsObject (Agent Key) where
  nonblank : ∀ e ∈ entries, isBlank e.1 = false

def maxBodyBytes : Nat := 8 * 1024 * 1024

def hopHeaders : List JsString := [
  "authorization",
  "signature",
  "signature-input",
  "content-digest",
  (ofString "DNSid-Destination").toLowerCase,
  "host",
  "cf-connecting-ip",
  "x-forwarded-for",
  "x-real-ip"
]

-- A signer of the SDK
structure Profile (Key : Type) where
  domain      : JsString
  keyProvider : Key
  maxAge      : Int
  clockSkew   : Int

-- The operations of a request: the SDK reads the body and signs what goes out, and the signed
-- request is sent.
inductive Op (Key : Type)
  | readBoundedBody (request : Request) (limit : Nat)
  | createSignedHttpRequest (profile : Profile Key) (outbound : Request) (expiresInSeconds : Int)
  | fetch (signed : Request) (redirect : JsString)

abbrev Op.Res {Key : Type} : Op Key → Type
  | readBoundedBody _ _           => Except Thrown (List UInt8)
  | createSignedHttpRequest _ _ _ => Except Thrown Request
  | fetch _ _                     => Except Thrown Response

abbrev Handler (Key α : Type) := Program (Op Key) Op.Res Thrown α

abbrev Lookup := GoMap JsString JsString

def prepareForwardingHeaders (request : Request) : Headers :=
  hopHeaders.foldl (fun headers name => headers.delete name) request.headers

-- `/^Bearer (.+)$/`
def bearerToken (authorizationHeader : JsString) : Option JsString := do
  let token ← (ofString "Bearer ").isPrefixOf? authorizationHeader
  if token = [] ∨ token.any isLineTerminator then none else some token

def assign (domain : JsString) (agentsByTokenHash : Lookup) (hash : JsString) :
    Except Thrown Lookup :=
  match agentsByTokenHash[hash]? with
  | none          => return agentsByTokenHash.set hash domain
  | some existing => do
    throwIf (existing ≠ [] ∧ existing ≠ domain) <|
      .other "A token hash cannot belong to multiple agents"
    return agentsByTokenHash.set hash domain

def buildTokenToAgentLookup (agents : EgressAgents Key) : Except Thrown Lookup :=
  agents.entries.foldlM (fun agentsByTokenHash (domain, agent) =>
    agent.tokenHashes.foldlM (assign domain) agentsByTokenHash) ∅

section

variable [Platform]

def hashBearerToken (token : JsString) : JsString :=
  (Platform.sha256 token.encode).flatMap hexByte

def authenticate (request : Request) (agentsByTokenHash : Lookup) : Option JsString := do
  let token ← bearerToken <| request.headers[ofString "authorization"]?.getD []
  let domain ← agentsByTokenHash[hashBearerToken token]?
  if domain = [] then none else some domain

def deny (status : Nat) (code message : JsString) : Response :=
  .json status code message

def destinationRequired : Response :=
  deny 400 "destination_required" "DNSid-Destination must be an absolute HTTPS URL"

def readBody (request : Request) : Handler Key (Except Thrown (Option (List UInt8))) :=
  match request.body with
  | none   => return .ok none
  | some _ => do
    let body : Op.Res (.readBoundedBody request maxBodyBytes : Op Key) ← Program.perform _
    return (body : Except Thrown (List UInt8)).map some

-- What follows once the request has its agent and its destination.
def forward (agents : EgressAgents Key) (request : Request) (domain origin : JsString) :
    Handler Key Response := do
  let headers := prepareForwardingHeaders request
  match ← readBody request with
  | .error _ => return deny 413 "too_large" "request body exceeds 8388608 bytes"
  | .ok body =>
    match Platform.parseUrl origin, agents.get? domain with
    | some target, some agent =>
      let outbound ← Program.ofExcept <| outboundRequest { request with body } target headers
      let profile := {
        domain
        keyProvider := agent.keyProvider
        maxAge      := maxAgeSeconds
        clockSkew   := clockSkewSeconds
      }
      let signed ← Program.perform (Op.createSignedHttpRequest profile outbound 60)
      let signed ← Program.ofExcept signed
      Program.ofExcept (← Program.perform (Op.fetch signed "manual"))
    | _, _ => throw <| .other "TypeError"

def handle (agents : EgressAgents Key) (agentsByTokenHash : Lookup) (request : Request) :
    Handler Key Response :=
  match authenticate request agentsByTokenHash with
  | none        => return deny 401 "unauthenticated" "missing or unknown bearer token"
  | some domain =>
    let destination := request.headers[(ofString "DNSid-Destination").toLowerCase]?
    match Platform.parseUrl (destination.getD []) with
    | none                => return destinationRequired
    | some destinationUrl =>
      if destinationUrl.protocol ≠ "https:" then
        return destinationRequired
      else
        forward agents request domain destinationUrl.origin

def createEgressHandler (agents : EgressAgents Key) :
    Except Thrown (Request → Handler Key Response) := do
  let agentsByTokenHash ← buildTokenToAgentLookup agents
  return handle agents agentsByTokenHash

end

-- An entry of `DNSID_AGENTS`
structure AgentConfiguration where
  privateJwk  : JsString
  tokenHashes : List JsString

-- The texts behind the configuration: the JSON object, `none` where the text is no JSON and
-- `some none` where it is JSON of another shape, and the key of a private JWK.
class Secrets (Key : Type) where
  parse             : JsString → Option (Option (JsObject AgentConfiguration))
  secretKeyProvider : JsString → Except Thrown Key

-- `/^[a-f0-9]{64}$/`
def isTokenHash (hash : JsString) : Bool :=
  hash.length = 64 && hash.all fun u => hexDigits.contains u

def invalidAgents : Thrown :=
  .other <| ofString "DNSID_AGENTS must map nonblank agent domains to entries with a privateJwk " ++
    "string and SHA-256 tokenHashes array"

def configuredAgent {κ : Type} [Secrets κ] (configurationEntry : AgentConfiguration) :
    Except Thrown (Agent κ) :=
  match Secrets.secretKeyProvider configurationEntry.privateJwk with
  | .error _        => .error <| .other "DNSID_AGENTS contains an invalid signing key"
  | .ok keyProvider => .ok ⟨keyProvider, configurationEntry.tokenHashes⟩

def createEgressHandlerFromConfig [Platform] [Secrets Key] (serializedAgents : JsString) :
    Except Thrown (Request → Handler Key Response) := do
  match Secrets.parse Key serializedAgents with
  | none               => throw <| .other "DNSID_AGENTS must be valid JSON"
  | some none          => throw invalidAgents
  | some (some parsed) =>
    if h : ∀ e ∈ parsed.entries, isBlank e.1 = false ∧ e.2.tokenHashes.all isTokenHash then
      let ⟨agents, hk⟩ ← parsed.mapM fun _ => configuredAgent (κ := Key)
      let nonblank := JsObject.forall_keys (P := fun domain => isBlank domain = false) hk
        fun e he => (h e he).left
      createEgressHandler ⟨agents, nonblank⟩
    else
      throw invalidAgents

end Egress
end Workers

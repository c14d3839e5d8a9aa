import CookbookModel.Library.Json.RoundTrip
import CookbookModel.Orders.Action
import CookbookModel.Orders.Target

namespace Orders

open PyString Json PyItems

section

variable {parseFloat : PyString → PyString} {v w : Json}

section Bytes

end Bytes

section Payloads

-- A payload whose texts are all there
structure ActionPayload.Complete (payload : ActionPayload) : Prop where
  subject       : payload.subject ≠ [] ∧ Scalar payload.subject
  audience      : payload.audience ≠ [] ∧ Scalar payload.audience
  tokenJtiHash  : payload.tokenJtiHash ≠ [] ∧ Scalar payload.tokenJtiHash
  toolName      : payload.toolName ≠ [] ∧ Scalar payload.toolName
  argumentsHash : payload.argumentsHash ≠ [] ∧ Scalar payload.argumentsHash
  sessionHash   : payload.sessionHash ≠ [] ∧ Scalar payload.sessionHash
  nonce         : payload.nonce ≠ [] ∧ Scalar payload.nonce

variable {payload : ActionPayload}

end Payloads

section Names

variable {name target s t : PyString}

theorem afterLast_self (h : contains s t = false) : afterLast s t = t := by
  cases t
  case nil => rfl
  case cons c t =>
    simp only [contains, Bool.or_eq_false_iff] at h
    have hPrefix : List.isPrefixOf? s (c :: t) = none := by
      rw [←Option.isNone_iff_eq_none, ←Option.not_isSome, List.isSome_isPrefixOf?_eq_isPrefixOf, h.left]
      rfl
    rw [afterLast, if_neg (by simp [h.right]), removeprefix, hPrefix, Option.getD_none]

theorem contains_separator : contains "___" (target ++ (ofString "___" ++ name)) = true := by
  induction target
  case nil              => rfl
  case cons c target hi => rw [List.cons_append, contains, hi, Bool.or_true]

-- The name of a tool without the name of its target
theorem afterLast_target (h : contains "___" name = false) (hHead : name.head? ≠ some 0x5F) :
    afterLast "___" (target ++ (ofString "___" ++ name)) = name := by
  induction target
  case nil =>
    have hInner : contains [0x5F, 0x5F, 0x5F] (0x5F :: 0x5F :: name) = false := by
      cases name
      case nil         => rfl
      case cons c name =>
        have hc : ¬0x5F = c := fun he => hHead (congrArg some he.symm)
        have h : contains [0x5F, 0x5F, 0x5F] (c :: name) = false := h
        rw [contains, contains, h]
        simp [List.isPrefixOf, hc]
    have hInner : ¬contains "___" (0x5F :: 0x5F :: name) = true := by
      rw [Bool.not_eq_true]
      exact hInner
    exact (if_neg hInner).trans <| removeprefix_append
  case cons c target hi => rw [List.cons_append, afterLast, if_pos contains_separator, hi]

end Names

section Actions

variable [Python] {action : Action} {payload : ActionPayload} {request : PyItems Json}
  {identity : VerifiedDomain} {timestamp : Int} {nonce jws : PyString} {σ ω : Type}

-- What a client signs a proof for.
structure Action.Signable (action : Action) : Prop where
  subject   : action.subject ≠ [] ∧ Scalar action.subject
  audience  : action.audience ≠ [] ∧ Scalar action.audience
  tokenJti  : action.tokenJti ≠ [] ∧ Scalar action.tokenJti
  toolName  : action.toolName ≠ [] ∧ Scalar action.toolName
  plainName : contains "___" action.toolName = false ∧ action.toolName.head? ≠ some 0x5F
  sessionId : Scalar action.sessionId
  arguments : Plain (.object action.arguments)

theorem payload_eq_ok :
    action.payload timestamp nonce = .ok payload ↔
      ∃ tokenJtiHash sessionHash, sha256 action.tokenJti = .ok tokenJtiHash ∧
        sha256 action.sessionId = .ok sessionHash ∧ payload = {
          subject := action.subject, audience := action.audience, tokenJtiHash,
          toolName := action.toolName, argumentsHash := argumentsHash action.arguments,
          sessionHash, timestamp, nonce
        } := by
  simp only [Action.payload, Except.bind_eq_ok, Except.pure_eq_ok, eq_comm (b := payload)]
  constructor
  case mp =>
    intro ⟨_, hj, _, hs, he⟩
    exact ⟨_, _, hj, hs, he⟩
  case mpr =>
    intro ⟨_, _, hj, hs, he⟩
    exact ⟨_, hj, _, hs, he⟩

-- A request to call the tool of an action, with the claims of its token, its session and a proof.
structure Carries (request : PyItems Json) (action : Action) (jws : PyString) : Prop where
  toolsCall : isToolsCall request = true
  headers   : ∃ headers token claims,
    normalizeHeaders (get request "headers") = .ok headers ∧
    get headers "authorization" = some (ofString "Bearer " ++ token) ∧
    decodeClaims token = .ok claims ∧
    get claims "sub" = some (.string action.subject) ∧
    (get claims "aud" = some (.string action.audience) ∨
      get claims "aud" = some (.array [.string action.audience])) ∧
    get claims "jti" = some (.string action.tokenJti) ∧
    get headers "x-action-proof" = some jws ∧
    (get headers "mcp-session-id").getD [] = action.sessionId
  name      : ∃ name, get (params request) "name" = some (.string name) ∧
    (name = action.toolName ∨ ∃ target, name = target ++ (ofString "___" ++ action.toolName))

theorem Carries.toolName (h : Carries request action jws) (hAction : action.Signable) :
    toolName request = action.toolName := by
  have ⟨hPlain, hHead⟩ := hAction.plainName
  have ⟨name, hName, hCase⟩ := h.name
  rw [Orders.toolName, hName, Option.getD_some, Python.str_string]
  cases hCase
  case inl he => rw [he, afterLast_self hPlain]
  case inr he =>
    have ⟨target, he⟩ := he
    rw [he, afterLast_target hPlain hHead]

omit [Python] in
theorem requiredString_eq {values : PyItems Json} {name s : PyString}
    (h : get values name = some (.string s)) (hs : s ≠ []) : requiredString values name = .ok s := by
  cases s
  case nil  => exact absurd rfl hs
  case cons => rw [requiredString, h]

omit [Python] in
theorem singleAudience_eq {value : Option Json} {s : PyString}
    (h : value = some (.string s) ∨ value = some (.array [.string s])) (hs : s ≠ []) :
    singleAudience value = .ok s := by
  cases s
  case nil  => exact absurd rfl hs
  case cons => cases h <;> simp_all [singleAudience]

-- What is expected of a proof for an action, with the hash of the arguments of a request.
def expectedOf (payload : ActionPayload) (hash : PyString) : List (PyString × PyString) := [
  ("subject", payload.subject), ("audience", payload.audience),
  ("token_jti_hash", payload.tokenJtiHash), ("tool_name", payload.toolName),
  ("arguments_hash", hash), ("session_hash", payload.sessionHash)
]

theorem Carries.proofRequest (h : Carries request action jws) (hAction : action.Signable)
    (hPayload : action.payload timestamp nonce = .ok payload) (hJws : jws ≠ []) :
    proofRequest request action.subject = .ok (some {
      subject := action.subject, jws,
      expected := expectedOf payload (argumentsHash (arguments request))
    }) := by
  have ⟨headers, token, claims, hHeaders, hToken, hClaims, hSub, hAud, hJti, hProof, hSession⟩ :=
    h.headers
  have ⟨tokenJtiHash, sessionHash, hTokenHash, hSessionHash, he⟩ := payload_eq_ok.mp hPayload
  have hStart : startswith (ofString "Bearer " ++ token) "Bearer " = true :=
    List.isPrefixOf_iff_prefix.mpr (List.prefix_append ..)
  have hTokenClaims : tokenClaims token = .ok ⟨action.subject, action.audience, action.tokenJti⟩ := by
    simp only [tokenClaims, hClaims, requiredString_eq hSub hAction.subject.left,
      singleAudience_eq hAud hAction.audience.left, requiredString_eq hJti hAction.tokenJti.left,
      bind, Except.bind, pure, Except.pure]
  subst he
  simp only [Orders.proofRequest, hHeaders, Except.mapError, bind, Except.bind, h.toolsCall, if_true,
    hToken, Option.getD_some, hStart, not_true_eq_false, throwIf, if_false, pure, Except.pure,
    removeprefix_append, hTokenClaims, ne_eq, hProof, hJws, hTokenHash, hSession, hSessionHash,
    h.toolName hAction, expectedOf]

variable {v : ProofVerifier σ ω} {profile : JoseProfile} {hash : PyString} {now : Int}

end Actions

end

-- A call whose arguments have their members in another order than when they were signed.
namespace Sample

def claims : PyItems Json :=
  [("aud", .string "https://gateway.example/mcp"), ("jti", .string "token-1"),
    ("sub", .string "bank-a-agent.test")]

def claimsPart : PyString :=
  "eyJhdWQiOiJodHRwczovL2dhdGV3YXkuZXhhbXBsZS9tY3AiLCJqdGkiOiJ0b2tlbi0xIiwic3ViIjoiYmFuay1hLWFnZW50LnRlc3QifQ"

def digest (bytes : List UInt8) : PyString :=
  if bytes = jsonBytes (.object order) then orderHash
  else if bytes = utf8 "token-1" then jtiHash
  else if bytes = utf8 "session-1" then sessionHash
  else 0x78 :: textOf bytes

@[reducible]
def parser : Python where
  __ := python
  loadsBytes bytes :=
    match Json.loads id (textOf bytes) with
    | some v => .ok v
    | none   => .error (.jsonDecodeError [])
  urlsafeB64decode s :=
    if s = claimsPart ++ ofString "==" then .ok (jsonBytes (.object claims))
    else .error (.valueError [])
  sha256 := digest

end Sample

section

attribute [local instance] Sample.parser

end

end Orders

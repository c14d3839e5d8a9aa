import CookbookModel.Orders.Proof
import CookbookModel.Library.History

namespace Orders

open PyString

-- An exception that a proof check or a request check raises: one of the SDK's, one of the program's
-- own, or one of Python's.
inductive Raised
  | dnsidError (text agentState : PyString)
  | proofError (message state : PyString)
  | replayError (message : PyString)
  | requestError (code message : PyString)
  | python (e : PyError)
  deriving DecidableEq

-- A replay store. An answer `ω` resolves what the store's surroundings decide about a call. Where
-- entries have a time to live, they may `expire` between two calls.
structure ReplayStore (σ ω : Type) where
  init    : σ
  reserve : (nonce : PyString) → (ttl now : Int) → ω → σ → Except Raised Unit × σ
  expire  : (nonce : PyString) → (now : Int) → σ → σ

def replayed : Raised :=
  .replayError "action proof was replayed"

-- When each nonce may be forgotten
abbrev Seen := PyDict PyString Int

def MemoryReplayStore : ReplayStore Seen Unit where
  init := ∅
  reserve nonce ttl now _ seen :=
    let seen := seen.filter fun _ expiry => now < expiry
    if nonce ∈ seen.keys then (.error replayed, seen) else (.ok (), seen.set nonce (now + ttl))
  expire _ _ seen := seen

-- How DynamoDB answers a `put_item`. A request that fails with an error other than that of its
-- condition may have stored the item.
inductive PutAnswer
  | served
  | clientError (code : PyString) (stored : Bool)
  | unreachable (e : PyError) (stored : Bool)

-- The table has the items' attribute `expires_at` by their key `nonce`.
def DynamoReplayStore : ReplayStore Seen PutAnswer where
  init := ∅
  reserve nonce ttl now answer items :=
    let put := if nonce ∈ items.keys then items else items.set nonce (now + ttl)
    match answer with
    | .served => if nonce ∈ items.keys then (.error replayed, items) else (.ok (), put)
    | .clientError code stored =>
      if code = ofString "ConditionalCheckFailedException" then
        (.error replayed, if stored then put else items)
      else
        (.error <| .replayError "replay store unavailable", if stored then put else items)
    | .unreachable e stored => (.error <| .python e, if stored then put else items)
  expire nonce now items :=
    if items[nonce]?.any (· ≤ now) then items.delete nonce else items

-- What the SDK says about the signer of a proof.
structure VerifiedDomain where
  domain      : PyString
  cachedState : PyString
  deriving DecidableEq

-- The SDK's `verify_jws`: the signed bytes and the identity of the signer.
abbrev JoseProfile := PyString → Except Raised (List UInt8 × VerifiedDomain)

structure VerifiedAction where
  payload  : ActionPayload
  identity : VerifiedDomain
  deriving DecidableEq

-- `except (DNSidError, TypeError, ValueError)`
def verificationFailed : Raised → Raised
  | .dnsidError _ state => .proofError "DNSid action proof verification failed" state
  | .python (.typeError _) | .python (.valueError _) | .python (.jsonDecodeError _) =>
    .proofError "DNSid action proof verification failed" []
  | e => e

structure ProofVerifier (σ ω : Type) where
  replayStore : ReplayStore σ ω
  maxAge      : Int := 300

namespace ProofVerifier

variable [Python] {σ ω : Type}

-- Everything that `verify` checks before it turns to the replay store.
def checks (v : ProofVerifier σ ω) (profile : JoseProfile) (jws : PyString)
    (expected : List (PyString × PyString)) (now : Int) : Except Raised VerifiedAction := do
  let ⟨payload, identity⟩ ← signed.mapError verificationFailed
  throwIf (identity.domain ≠ payload.subject) <|
    .proofError "action proof subject does not match signer identity" []
  expected.forM fun (field, value) => do
    match ← (payload.getattr field).mapError Raised.python with
    | .string s => throwIf (s ≠ value) <| .proofError ("action proof does not match " ++ field) []
    | _         => throw <| .proofError ("action proof does not match " ++ field) []
  throwIf (v.maxAge < (now - payload.timestamp).natAbs) <| .proofError "action proof is stale" []
  throwIf (Python.upper identity.cachedState ≠ ofString "ACTIVE") <|
    .proofError ("DNSid identity is " ++ Python.lower identity.cachedState) identity.cachedState
  return ⟨payload, identity⟩
where
  signed : Except Raised VerifiedAction := do
    let (signed, identity) ← profile jws
    return ⟨← (decodePayload signed).mapError Raised.python, identity⟩

-- What the checks have established about an action that passes them.
structure Checked (v : ProofVerifier σ ω) (profile : JoseProfile) (jws : PyString)
    (expected : List (PyString × PyString)) (now : Int) (action : VerifiedAction) : Prop where
  signed : checks.signed profile jws = .ok action
  signer : action.identity.domain = action.payload.subject
  bound  : ∀ b ∈ expected, action.payload.getattr b.1 = .ok (.string b.2)
  fresh  : (now - action.payload.timestamp).natAbs ≤ v.maxAge
  active : Python.upper action.identity.cachedState = ofString "ACTIVE"

theorem checked {v : ProofVerifier σ ω} (h : v.checks profile jws expected now = .ok action) :
    v.Checked profile jws expected now action := by
  simp only [checks, Except.bind_eq_ok, Except.pure_eq_ok, Except.throwIf_eq_ok] at h
  have ⟨_, hs, _, hd, _, he, _, hf, _, hu, ha⟩ := h
  subst ha
  refine ⟨Except.mapError_eq_ok.mp hs, not_ne_iff.mp hd, fun b hb => ?_, Int.not_lt.mp hf,
    not_ne_iff.mp hu⟩
  have hb := Except.forM_ok he b hb
  rw [Except.bind_eq_ok] at hb
  have ⟨value, hv, hb⟩ := hb
  cases value
  case string s =>
    rw [Except.throwIf_eq_ok, not_ne_iff] at hb
    exact hb ▸ Except.mapError_eq_ok.mp hv
  all_goals simp [throw, throwThe, MonadExceptOf.throw] at hb

def lifetime (v : ProofVerifier σ ω) (payload : ActionPayload) (now : Int) : Int :=
  max 1 (payload.timestamp + v.maxAge - now + 1)

def verify (v : ProofVerifier σ ω) (profile : JoseProfile) (jws : PyString)
    (expected : List (PyString × PyString)) (now : Int) (answer : ω) (s : σ) :
    Except Raised VerifiedAction × σ :=
  match v.checks profile jws expected now with
  | .error e => (.error e, s)
  | .ok action =>
    match v.replayStore.reserve action.payload.nonce (v.lifetime action.payload now) now answer s with
    | (.ok (), s)                   => (.ok action, s)
    | (.error (.replayError m), s)  => (.error <| .proofError m [], s)
    | (.error e, s)                 => (.error e, s)

theorem verify_ok {v : ProofVerifier σ ω}
    (h : (v.verify profile jws expected now answer s).1 = .ok action) :
    v.checks profile jws expected now = .ok action ∧
    v.replayStore.reserve action.payload.nonce (v.lifetime action.payload now) now answer s =
      (.ok (), (v.verify profile jws expected now answer s).2) := by
  simp only [verify] at h ⊢
  split at h
  case h_1 => simp at h
  case h_2 action' hc =>
    split at h <;> simp at h
    case h_1 hr =>
      subst h
      simp [hc, hr]

-- What happens to a verifier and its store.
inductive Call
  | verify (jws : PyString) (expected : List (PyString × PyString))
  | expire (nonce : PyString)

-- What a call reads from outside: the clock, what the SDK says about the proof, and the store's
-- answer.
structure Stamp (ω : Type) where
  now     : Int
  profile : JoseProfile
  answer  : ω

def exec (v : ProofVerifier σ ω) : Call → Stamp ω → σ → Option (Except Raised VerifiedAction) × σ
  | .verify jws expected, w, s =>
    let (r, s) := v.verify w.profile jws expected w.now w.answer s
    (some r, s)
  | .expire nonce, w, s => (none, v.replayStore.expire nonce w.now s)

end ProofVerifier
end Orders

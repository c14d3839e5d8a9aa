import CookbookModel.Workers.Ingress

namespace Workers

open JsString

variable [HttpSignatures] {env : IngressEnv} {request outbound : Request}
  {path : List (Σ o, Op.Res o)} {verified : VerifiedDomain}

-- The request has exactly one signature, and the signature has a nonce.
structure Signs (request : Request) (params : SignatureParams) (nonce : JsString) : Prop where
  input : ∃ input, request.headers[ofString "signature-input"]? = some input ∧ input ≠ [] ∧
    HttpSignatures.parseSignatureInput input = some [params]
  nonce : params.nonce = some nonce ∧ nonce ≠ []

theorem claimSignatureNonce_emits {params : SignatureParams} {nonce : JsString}
    (h : (claimSignatureNonce params nonce).Emits path o) : ∃ domain,
      HttpSignatures.parseKeyId params.keyId = .ok domain ∧ path = [] ∧
      o = .claim domain nonce (Workers.expiresAtMs params) := by
  simp only [claimSignatureNonce, Program.ofExcept, Program.emits_done_bind] at h
  obtain ⟨domain, hd, h⟩ := h
  rcases Program.emits_call.mp h with ⟨hp, ho⟩ | ⟨r, _, _, h⟩
  · exact ⟨domain, hd, hp, ho⟩
  · exact absurd h Program.emits_done

theorem claimSignatureNonce_returns {params : SignatureParams} {nonce : JsString}
    (h : (claimSignatureNonce params nonce).Returns path fresh) : ∃ domain,
      HttpSignatures.parseKeyId params.keyId = .ok domain ∧
      path = [⟨.claim domain nonce (Workers.expiresAtMs params), .ok fresh⟩] := by
  simp only [claimSignatureNonce, Program.ofExcept, Program.returns_done_bind] at h
  obtain ⟨domain, hd, h⟩ := h
  obtain ⟨r, _, hp, h⟩ := Program.returns_call.mp h
  obtain ⟨hn, hr⟩ := Program.returns_done.mp h
  exact ⟨domain, hd, by rw [hp, hn]; exact hr ▸ rfl⟩

omit [HttpSignatures] in
theorem forward_emits {verified : VerifiedDomain} (h : (forward env request verified).Emits path o) :
    path = [] ∧ ∃ outbound, o = .fetch outbound := by
  simp only [forward, Program.ofExcept, Program.emits_done_bind] at h
  obtain ⟨_, _, outbound, _, h⟩ := h
  rcases Program.emits_call.mp h with ⟨hp, ho⟩ | ⟨r, _, _, h⟩
  · exact ⟨hp, outbound, ho⟩
  · exact absurd h Program.emits_done

-- A request is forwarded after it was verified and its signature was claimed.
theorem handleSigned_fetch {params : SignatureParams} {nonce : JsString} :
    (handleSigned env request params nonce).Emits path (.fetch outbound) ↔ ∃ domain verified,
      HttpSignatures.parseKeyId params.keyId = .ok domain ∧
      path = [⟨.verifySignedHttpRequest request, .ok verified⟩,
        ⟨.claim domain nonce (expiresAtMs params), .ok true⟩] ∧
      (forward env request verified).Emits [] (.fetch outbound) := by
  simp only [handleSigned, Program.perform_bind]
  constructor
  case mp =>
    intro h
    rcases Program.emits_call.mp h with ⟨_, ho⟩ | ⟨verified, path', hp, h⟩
    case inl => cases ho
    case inr =>
      split at h
      case h_1 => exact absurd h Program.emits_done
      case h_2 => exact absurd h Program.emits_done
      case h_3 verified =>
        rcases Program.emits_bind.mp h with h | ⟨fresh, path₁, path₂, hp', hr, h⟩
        case inl =>
          have ⟨_, _, _, ho⟩ := claimSignatureNonce_emits h
          cases ho
        case inr =>
          have ⟨domain, hd, hr⟩ := claimSignatureNonce_returns hr
          cases fresh
          case false => exact absurd h Program.emits_done
          case true  =>
            have ⟨hn, _⟩ := forward_emits h
            exact ⟨domain, verified, hd, by rw [hp, hp', hr, hn]; rfl, hn ▸ h⟩
  case mpr =>
    rintro ⟨domain, verified, hd, rfl, h⟩
    refine Program.emits_call.mpr <| .inr ⟨.ok verified, _, rfl, ?_⟩
    simp only [claimSignatureNonce, hd]
    exact Program.emits_call.mpr <| .inr ⟨.ok true, _, rfl, h⟩

theorem handle_eq {params : SignatureParams} {nonce : JsString} (h : Signs request params nonce) :
    handle env request = handleSigned env request params nonce := by
  have ⟨input, hInput, hne, hParse⟩ := h.input
  have ⟨hNonce, hn⟩ := h.nonce
  cases input
  case nil       => contradiction
  case cons u us =>
    cases nonce
    case nil       => contradiction
    case cons v vs => simp only [handle, hInput, hParse, hNonce]

-- When the handler sends a request to the origin.
theorem handle_fetch : (handle env request).Emits path (.fetch outbound) ↔
    ∃ params nonce domain verified, Signs request params nonce ∧
      HttpSignatures.parseKeyId params.keyId = .ok domain ∧
      path = [⟨.verifySignedHttpRequest request, .ok verified⟩,
        ⟨.claim domain nonce (expiresAtMs params), .ok true⟩] ∧
      (forward env request verified).Emits [] (.fetch outbound) := by
  constructor
  case mp =>
    intro h
    suffices hs : ∃ params nonce, Signs request params nonce by
      have ⟨params, nonce, hs⟩ := hs
      rw [handle_eq hs] at h
      have ⟨domain, verified, hd, hp, h⟩ := handleSigned_fetch.mp h
      exact ⟨params, nonce, domain, verified, hs, hd, hp, h⟩
    simp only [handle] at h
    split at h
    case h_1 => exact absurd h Program.emits_done
    case h_2 => exact absurd h Program.emits_done
    case h_3 input hne hInput =>
      split at h
      case h_1 => exact absurd h Program.emits_done
      case h_2 params hParse =>
        split at h
        case h_1 => exact absurd h Program.emits_done
        case h_2 => exact absurd h Program.emits_done
        case h_3 nonce hn hNonce => exact ⟨params, nonce, ⟨input, hInput, hne, hParse⟩, hNonce, hn⟩
      case h_3 => exact absurd h Program.emits_done
  case mpr =>
    rintro ⟨params, nonce, domain, verified, hs, hd, hp, h⟩
    rw [handle_eq hs]
    exact handleSigned_fetch.mpr ⟨domain, verified, hd, hp, h⟩

end Workers

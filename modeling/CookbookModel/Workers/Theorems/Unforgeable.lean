import CookbookModel.Workers.Theorems.Handling

namespace Workers

open JsString

theorem setHeader_ok {headers headers' : Headers} : setHeader headers name value = .ok headers' ↔
    ∃ v, Headers.normalize value = some v ∧ headers' = headers.set name.toLowerCase v := by
  unfold setHeader Headers.assign
  cases Headers.normalize value <;> simp [eq_comm]

theorem get_filter_dnsid {request : Request} {name : JsString} :
    (request.headers.filter fun name _ => !startsWith name "dnsid-")[name]? =
      if startsWith name "dnsid-" then none else request.headers[name]? := by
  rw [GoMap.get_filter]
  cases request.headers[name]? <;> cases startsWith name "dnsid-" <;> rfl

section

variable {request request₁ request₂ outbound : Request} {env : IngressEnv}
  {path : List (Σ o, Op.Res o)} {verified : VerifiedDomain} {headers : Headers}

-- The identity headers that the origin sees.
structure Identifies (env : IngressEnv) (verified : VerifiedDomain) (headers : Headers) : Prop where
  agent  : headers[ofString "dnsid-agent"]? = Headers.normalize verified.domain
  entity : headers[ofString "dnsid-accountable-entity"]? =
    verified.gi.bind fun gi => if gi = [] then none else Headers.normalize gi
  secret : headers[ofString "dnsid-origin-auth"]? = Headers.normalize env.originSecret
  only   : ∀ name, startsWith name "dnsid-" → headers[name]?.isSome →
    name ∈ [ofString "dnsid-agent", "dnsid-accountable-entity", "dnsid-origin-auth"]

theorem lower_names :
    (ofString "DNSid-Agent").toLowerCase = "dnsid-agent" ∧
    (ofString "DNSid-Accountable-Entity").toLowerCase = "dnsid-accountable-entity" ∧
    (ofString "DNSid-Origin-Auth").toLowerCase = "dnsid-origin-auth" := by
  decide

theorem prepareOriginHeaders_get
    (h : prepareOriginHeaders request verified.domain verified.gi env.originSecret = .ok headers)
    (name : JsString) : headers[name]? =
      if name = "dnsid-origin-auth" then Headers.normalize env.originSecret
      else if name = "dnsid-accountable-entity" then
        verified.gi.bind fun gi => if gi = [] then none else Headers.normalize gi
      else if name = "dnsid-agent" then Headers.normalize verified.domain
      else if startsWith name "dnsid-" then none else request.headers[name]? := by
  have ⟨hAgent, hEntity, hSecret⟩ := lower_names
  have hPrefix : startsWith (ofString "dnsid-accountable-entity") "dnsid-" = true := by decide
  have hDistinct : ofString "dnsid-accountable-entity" ≠ ofString "dnsid-agent" := by decide
  simp only [prepareOriginHeaders, Except.bind_eq_ok, setHeader_ok, hAgent] at h
  obtain ⟨_, ⟨agent, ha, rfl⟩, h⟩ := h
  split at h
  case h_3 gi hne hg =>
    have hne : gi ≠ [] := hne
    simp only [Except.bind_eq_ok, setHeader_ok, hEntity, hSecret] at h
    obtain ⟨_, ⟨entity, he, rfl⟩, secret, hs, rfl⟩ := h
    simp only [GoMap.get_set, get_filter_dnsid, ha, he, hs, hg, Option.bind_some, if_neg hne]
  all_goals
    rename_i hg
    simp only [Except.bind_eq_ok, Except.pure_eq_ok, setHeader_ok, hSecret] at h
    obtain ⟨_, rfl, secret, hs, rfl⟩ := h
    simp only [GoMap.get_set, get_filter_dnsid, ha, hs, hg]
    split_ifs <;> simp_all

theorem prepareOriginHeaders_ok
    (h : prepareOriginHeaders request verified.domain verified.gi env.originSecret = .ok headers) :
    Identifies env verified headers ∧
    ∀ name, startsWith name "dnsid-" = false → headers[name]? = request.headers[name]? := by
  have hDistinct : ofString "dnsid-agent" ≠ ofString "dnsid-accountable-entity" ∧
      ofString "dnsid-agent" ≠ ofString "dnsid-origin-auth" ∧
      ofString "dnsid-accountable-entity" ≠ ofString "dnsid-origin-auth" := by
    decide
  have hPrefix : ∀ name ∈ [ofString "dnsid-agent", "dnsid-accountable-entity", "dnsid-origin-auth"],
      startsWith name "dnsid-" = true := by
    decide
  have hGet := prepareOriginHeaders_get h
  refine ⟨⟨?_, ?_, ?_, fun name hn hs => ?_⟩, fun name hn => ?_⟩
  · rw [hGet, if_neg hDistinct.right.left, if_neg hDistinct.left, if_pos rfl]
  · rw [hGet, if_neg hDistinct.right.right, if_pos rfl]
  · rw [hGet, if_pos rfl]
  · by_contra hm
    simp only [List.mem_cons, List.not_mem_nil, or_false, not_or] at hm
    rw [hGet, if_neg hm.right.right, if_neg hm.right.left, if_neg hm.left, if_pos hn] at hs
    cases hs
  · have hne {name' : JsString} (hm : startsWith name' "dnsid-" = true) : name ≠ name' := by
      rintro rfl
      rw [hn] at hm
      cases hm
    rw [hGet, if_neg (hne (hPrefix _ (by simp))), if_neg (hne (hPrefix _ (by simp))),
      if_neg (hne (hPrefix _ (by simp))), hn]
    rfl

-- What goes to the origin: the request as it came in, at the configured origin and with identity
-- headers of its own.
structure Relayed (env : IngressEnv) (request : Request) (verified : VerifiedDomain)
    (outbound : Request) : Prop where
  method   : outbound.method = request.method
  body     : outbound.body = request.body
  origin   : outbound.url.protocol = env.originUrl.protocol ∧ outbound.url.host = env.originUrl.host
  target   : outbound.url.pathname = request.url.pathname ∧ outbound.url.search = request.url.search
  identity : Identifies env verified outbound.headers
  others   : ∀ name, startsWith name "dnsid-" = false →
    outbound.headers[name]? = request.headers[name]?

theorem forward_relayed (h : (forward env request verified).Emits path (.fetch outbound)) :
    Relayed env request verified outbound := by
  simp only [forward, Program.ofExcept, Program.emits_done_bind] at h
  have ⟨headers, hHeaders, outbound', hOutbound, h⟩ := h
  rcases Program.emits_call.mp h with ⟨_, ho⟩ | ⟨_, _, _, h⟩
  case inr => exact absurd h Program.emits_done
  case inl =>
    cases ho
    have ⟨hIdentity, hOthers⟩ := prepareOriginHeaders_ok hHeaders
    simp only [outboundRequest, Except.bind_eq_ok, Except.pure_eq_ok] at hOutbound
    obtain ⟨_, _, rfl⟩ := hOutbound
    exact ⟨rfl, rfl, ⟨rfl, rfl⟩, ⟨rfl, rfl⟩, hIdentity, hOthers⟩

-- Requests that differ in `dnsid-` headers only.
structure Alike (request₁ request₂ : Request) : Prop where
  method : request₁.method = request₂.method
  url    : request₁.url = request₂.url
  body   : request₁.body = request₂.body
  others : ∀ name, startsWith name "dnsid-" = false →
    request₁.headers[name]? = request₂.headers[name]?

theorem Alike.symm (h : Alike request₁ request₂) : Alike request₂ request₁ :=
  ⟨h.method.symm, h.url.symm, h.body.symm, fun name hn => (h.others name hn).symm⟩

theorem Alike.forward (h : Alike request₁ request₂) :
    forward env request₁ verified = forward env request₂ verified := by
  have hFilter : (request₁.headers.filter fun name _ => !startsWith name "dnsid-") =
      request₂.headers.filter fun name _ => !startsWith name "dnsid-" := by
    refine GoMap.ext fun name => ?_
    rw [get_filter_dnsid, get_filter_dnsid]
    cases hn : startsWith name "dnsid-"
    case true  => rfl
    case false => exact h.others name hn
  simp only [Workers.forward, prepareOriginHeaders, outboundRequest, hFilter, h.method, h.url, h.body]

variable [HttpSignatures]

theorem Alike.signs (h : Alike request₁ request₂) (hs : Signs request₁ params nonce) :
    Signs request₂ params nonce := by
  have ⟨input, hInput, hs'⟩ := hs.input
  rw [h.others _ (by decide)] at hInput
  exact ⟨⟨input, hInput, hs'⟩, hs.nonce⟩

theorem Alike.fetch (h : Alike request₁ request₂)
    (he : (handle env request₁).Emits [⟨.verifySignedHttpRequest request₁, verification⟩,
      ⟨.claim domain nonce expires, claimed⟩] (.fetch outbound)) :
    (handle env request₂).Emits [⟨.verifySignedHttpRequest request₂, verification⟩,
      ⟨.claim domain nonce expires, claimed⟩] (.fetch outbound) := by
  have ⟨params, nonce, domain, verified, hs, hd, hp, hf⟩ := handle_fetch.mp he
  cases hp
  exact handle_fetch.mpr ⟨params, nonce, domain, verified, h.signs hs, hd, rfl, h.forward ▸ hf⟩

-- A request reaches the origin only after its one signature was verified and the signature's nonce
-- was claimed, and nothing that a client writes into `dnsid-` headers reaches it or matters to what
-- does.
theorem identity_unforgeable (env : IngressEnv) (request : Request) :
    (∀ {path outbound}, (handle env request).Emits path (.fetch outbound) →
      ∃ params nonce domain verified, Signs request params nonce ∧
        HttpSignatures.parseKeyId params.keyId = .ok domain ∧
        path = [⟨.verifySignedHttpRequest request, .ok verified⟩,
          ⟨.claim domain nonce (expiresAtMs params), .ok true⟩] ∧
        Relayed env request verified outbound) ∧
    ∀ {request'}, Alike request request' →
      ∀ {verification domain nonce expires claimed outbound},
        (handle env request).Emits [⟨.verifySignedHttpRequest request, verification⟩,
          ⟨.claim domain nonce expires, claimed⟩] (.fetch outbound) ↔
        (handle env request').Emits [⟨.verifySignedHttpRequest request', verification⟩,
          ⟨.claim domain nonce expires, claimed⟩] (.fetch outbound) := by
  refine ⟨fun h => ?_, fun h => ⟨h.fetch, h.symm.fetch⟩⟩
  have ⟨params, nonce, domain, verified, hs, hd, hp, hf⟩ := handle_fetch.mp h
  exact ⟨params, nonce, domain, verified, hs, hd, hp, forward_relayed hf⟩

end

section

attribute [local instance] Sample.httpSignatures

-- A client that calls itself another agent.
theorem identity_unforgeable_forged :
    let forged : Request := { Sample.request with
      headers := Sample.request.headers.set "dnsid-agent" "forged.example" }
    ∃ outbound, (handle Sample.env forged).Emits
        [⟨.verifySignedHttpRequest forged, .ok ⟨"agent.example", none⟩⟩,
          ⟨.claim "agent.example" "n-1" 1305000, .ok true⟩] (.fetch outbound) ∧
      outbound.headers[ofString "dnsid-agent"]? = some (ofString "agent.example") := by
  intro forged
  have hAlike : Alike Sample.request forged := by
    refine ⟨rfl, rfl, rfl, fun name hn => ?_⟩
    have hne : name ≠ "dnsid-agent" := by
      rintro rfl
      exact absurd hn (by decide)
    exact (GoMap.get_set_ne hne).symm
  have ⟨outbound, h⟩ : ∃ outbound, (handle Sample.env Sample.request).Emits
      [⟨.verifySignedHttpRequest Sample.request, .ok ⟨"agent.example", none⟩⟩,
        ⟨.claim "agent.example" "n-1" 1305000, .ok true⟩] (.fetch outbound) :=
    ⟨_, _, .call <| .call .here⟩
  have ⟨_, hForged⟩ := identity_unforgeable Sample.env Sample.request
  have h := (hForged hAlike).mp h
  have ⟨_, _, _, _, _, _, hPath, hRelayed⟩ := (identity_unforgeable Sample.env forged).left h
  cases (List.cons.inj hPath).left
  exact ⟨outbound, h, hRelayed.identity.agent.trans (by decide)⟩

end
end Workers

import CookbookModel.Library.Index
import CookbookModel.Workers.Egress

namespace Workers.Egress

open Index JsString

section

variable {Key : Type} {agents agents' : EgressAgents Key} {lookup lookup' : Lookup}
  {domain hash : JsString}

-- The domains that list token hashes, with each hash.
def listed (agents : EgressAgents Key) : List (JsString × JsString) :=
  agents.entries.flatMap fun (domain, agent) => agent.tokenHashes.map (domain, ·)

theorem mem_listed : (domain, hash) ∈ listed agents ↔
    ∃ agent, (domain, agent) ∈ agents.entries ∧ hash ∈ agent.tokenHashes := by
  simp only [listed, List.mem_flatMap, List.mem_map, Prod.mk.injEq]
  constructor
  case mp  => rintro ⟨⟨domain, agent⟩, he, hash, hh, rfl, rfl⟩; exact ⟨agent, he, hh⟩
  case mpr => rintro ⟨agent, he, hh⟩; exact ⟨(domain, agent), he, hash, hh, rfl, rfl⟩

theorem listed_nonempty : ∀ p ∈ listed agents, p.1 ≠ [] := by
  rintro ⟨domain, hash⟩ hp rfl
  have ⟨agent, he, _⟩ := mem_listed.mp hp
  exact absurd (agents.nonblank _ he) (by simp [isBlank])

-- The two loops run through the listed pairs.
theorem buildTokenToAgentLookup_eq : buildTokenToAgentLookup agents =
    (listed agents).foldlM (fun lookup p => assign p.1 lookup p.2) ∅ := by
  unfold buildTokenToAgentLookup listed
  generalize (∅ : Lookup) = lookup
  induction agents.entries generalizing lookup
  case nil => rfl
  case cons e entries hi =>
    rw [List.foldlM_cons, List.flatMap_cons, List.foldlM_append, List.foldlM_map]
    exact congrArg _ (funext hi)

theorem assign_ok {pairs : List (JsString × JsString)} {p : JsString × JsString}
    (h : Indexes lookup pairs) (hp : ∀ q ∈ pairs, q.1 ≠ []) :
    assign p.1 lookup p.2 = .ok lookup' ↔
      (∀ domain, (domain, p.2) ∈ pairs → domain = p.1) ∧ lookup' = lookup.set p.2 p.1 := by
  unfold assign
  split
  case h_1 hn =>
    have hNone (domain : JsString) : (domain, p.2) ∉ pairs := fun hm => by
      rw [←h.get, hn] at hm
      cases hm
    simp only [Except.pure_eq_ok, hNone, false_imp_iff, implies_true, true_and]
    exact eq_comm
  case h_2 existing he =>
    have hm := h.get.mp he
    have hOnly : (∀ domain, (domain, p.2) ∈ pairs → domain = p.1) ↔ existing = p.1 :=
      ⟨fun ha => ha existing hm, fun ha domain hd => (h.functional hd hm).trans ha⟩
    simp only [Except.bind_eq_ok, Except.throwIf_eq_ok, Except.pure_eq_ok, hOnly]
    have hne := hp _ hm
    constructor
    case mp =>
      rintro ⟨_, hc, rfl⟩
      exact ⟨by tauto, rfl⟩
    case mpr =>
      rintro ⟨ha, rfl⟩
      exact ⟨(), by tauto, rfl⟩

theorem buildTokenToAgentLookup_ok : buildTokenToAgentLookup agents = .ok lookup ↔
    Functional (listed agents) ∧ Indexes lookup (listed agents) := by
  rw [buildTokenToAgentLookup_eq]
  exact Indexes.foldlM_ok (P := (· ≠ [])) (fun h hp _ => assign_ok h hp) .empty listed_nonempty

theorem buildTokenToAgentLookup_isOk :
    (∃ lookup, buildTokenToAgentLookup agents = .ok lookup) ↔ Functional (listed agents) := by
  simp only [buildTokenToAgentLookup_eq]
  exact Indexes.foldlM_isOk (P := (· ≠ [])) (fun h hp _ => assign_ok h hp) .empty listed_nonempty

-- The headers that the SDK adds to what it signs
def signatureHeaders : List JsString :=
  ["signature", "signature-input", "content-digest"]

structure Adds (outbound signed : Request) : Prop where
  method  : signed.method = outbound.method
  url     : signed.url = outbound.url
  body    : signed.body = outbound.body
  headers : ∀ name ∉ signatureHeaders, signed.headers[name]? = outbound.headers[name]?

variable {path : List (Σ o : Op Key, Op.Res o)} {request signed : Request} {origin : JsString}

-- The SDK reads the whole body or fails, and it adds nothing but its headers.
structure Honest (path : List (Σ o : Op Key, Op.Res o)) : Prop where
  reads : ∀ {request limit body},
    (⟨.readBoundedBody request limit, .ok body⟩ : Σ o : Op Key, Op.Res o) ∈ path →
    request.body = some body
  signs : ∀ {profile outbound seconds signed},
    (⟨.createSignedHttpRequest profile outbound seconds, .ok signed⟩ : Σ o : Op Key, Op.Res o) ∈
      path → Adds outbound signed

theorem get_deleteAll {names : List JsString} {headers : Headers} (name : JsString) :
    (names.foldl (fun headers name => headers.delete name) headers)[name]? =
      if name ∈ names then none else headers[name]? := by
  induction names generalizing headers
  case nil => simp
  case cons name' names hi =>
    rw [List.foldl_cons, hi, GoMap.get_delete]
    by_cases he : name = name' <;> simp [he]

-- How the body is read when the handler goes on after it.
def Reads (request : Request) (body : Option (List UInt8)) (path : List (Σ o : Op Key, Op.Res o)) :
    Prop :=
  request.body = none ∧ body = none ∧ path = [] ∨
  ∃ bytes, body = some bytes ∧ path = [⟨.readBoundedBody request maxBodyBytes, .ok bytes⟩]

theorem readBody_emits {o : Op Key} (h : (readBody request).Emits path o) :
    o = .readBoundedBody request maxBodyBytes := by
  unfold readBody at h
  split at h
  case h_1 => exact absurd h Program.emits_done
  case h_2 =>
    rcases Program.emits_call.mp h with ⟨_, ho⟩ | ⟨_, _, _, h⟩
    case inl => exact ho
    case inr => exact absurd h Program.emits_done

theorem readBody_returns (h : (readBody request : Handler Key _).Returns path (.ok body)) :
    Reads request body path := by
  unfold readBody at h
  split at h
  case h_1 hb =>
    have ⟨hp, he⟩ := Program.returns_done.mp h
    cases he
    exact .inl ⟨hb, rfl, hp⟩
  case h_2 =>
    have ⟨r, path', hp, h⟩ := Program.returns_call.mp h
    have ⟨hn, he⟩ := Program.returns_done.mp h
    cases r
    case error => cases he
    case ok bytes =>
      cases he
      exact .inr ⟨bytes, rfl, hn ▸ hp⟩

variable [Platform]

theorem forward_fetch (h : (forward agents request domain origin).Emits path (.fetch signed redirect)) :
    ∃ body read target agent outbound, Reads request body read ∧
      Platform.parseUrl origin = some target ∧ agents.get? domain = some agent ∧
      outboundRequest { request with body } target (prepareForwardingHeaders request) =
        .ok outbound ∧
      path = read ++ [⟨.createSignedHttpRequest ⟨domain, agent.keyProvider, maxAgeSeconds,
        clockSkewSeconds⟩ outbound 60, .ok signed⟩] := by
  unfold forward at h
  rcases Program.emits_bind.mp h with h | ⟨body, read, path', hp, hr, h⟩
  case inl => cases readBody_emits h
  case inr =>
    split at h
    case h_1 => exact absurd h Program.emits_done
    case h_2 body =>
      split at h
      case h_2 => exact absurd h Program.emits_done
      case h_1 target agent hTarget hAgent =>
        simp only [Program.ofExcept, Program.perform_bind, Program.emits_done_bind] at h
        obtain ⟨outbound, hOutbound, h⟩ := h
        refine ⟨body, read, target, agent, outbound, readBody_returns hr, hTarget, hAgent,
          hOutbound, ?_⟩
        rcases Program.emits_call.mp h with ⟨_, ho⟩ | ⟨r, path₂, hp', h⟩
        case inl => cases ho
        case inr =>
          obtain ⟨signed', hs, h⟩ := Program.emits_done_bind.mp h
          rcases Program.emits_call.mp h with ⟨hn, ho⟩ | ⟨_, _, _, h⟩
          case inr => exact absurd h Program.emits_done
          case inl =>
            cases ho
            rw [hp, hp', hn, hs]

theorem authenticate_some (h : authenticate request lookup = some domain) : ∃ token,
    request.headers[ofString "authorization"]? = some (ofString "Bearer " ++ token) ∧
    token ≠ [] ∧ lookup[hashBearerToken token]? = some domain := by
  simp only [authenticate, Option.bind_eq_bind, Option.bind_eq_some_iff] at h
  have ⟨token, hToken, domain', hDomain, h⟩ := h
  simp only [bearerToken, Option.bind_eq_bind, Option.bind_eq_some_iff] at hToken
  have ⟨token', hPrefix, hToken⟩ := hToken
  have hPrefix := List.isPrefixOf?_eq_some_iff_append_eq.mp hPrefix
  split at h
  case isTrue => cases h
  case isFalse =>
    split at hToken
    case isTrue => cases hToken
    case isFalse hne =>
      cases h
      cases hToken
      refine ⟨token, ?_, fun he => hne <| .inl he, hDomain⟩
      cases hHeader : request.headers[ofString "authorization"]?
      case none =>
        rw [hHeader] at hPrefix
        exact absurd (List.append_eq_nil_iff.mp hPrefix).left (by decide)
      case some header =>
        rw [hHeader] at hPrefix
        exact congrArg some hPrefix.symm

-- A request that goes out: who has asked for it, who has signed it, and what it consists of.
structure Sends (agents : EgressAgents Key) (request : Request)
    (path : List (Σ o : Op Key, Op.Res o)) (signed : Request) (token domain : JsString)
    (agent : Agent Key) (url : URL) (outbound : Request) : Prop where
  bearer      : token ≠ [] ∧
    request.headers[ofString "authorization"]? = some (ofString "Bearer " ++ token)
  listed      : (domain, agent) ∈ agents.entries ∧ hashBearerToken token ∈ agent.tokenHashes
  only        : ∀ {domain' agent'}, (domain', agent') ∈ agents.entries →
    hashBearerToken token ∈ agent'.tokenHashes → domain' = domain
  destination : ∃ destination, request.headers[ofString "dnsid-destination"]? = some destination ∧
    Platform.parseUrl destination = some url ∧ url.protocol = "https:"
  signature   : ∃ body read, Reads request body read ∧
    path = read ++ [⟨.createSignedHttpRequest ⟨domain, agent.keyProvider, maxAgeSeconds,
      clockSkewSeconds⟩ outbound 60, .ok signed⟩]
  target      : signed.url =
    ⟨"https:", [], [], url.host, request.url.pathname, request.url.search, []⟩
  method      : signed.method = request.method
  body        : signed.body = request.body
  unsigned    : ∀ name ∈ hopHeaders, outbound.headers[name]? = none
  stripped    : ∀ name ∈ hopHeaders, name ∉ signatureHeaders → signed.headers[name]? = none
  others      : ∀ name ∉ hopHeaders, signed.headers[name]? = request.headers[name]?

omit [Platform] in
theorem Reads.body_eq {body : Option (List UInt8)} {read : List (Σ o : Op Key, Op.Res o)}
    (h : Reads request body read) (hHonest : Honest (read ++ path)) : body = request.body := by
  rcases h with ⟨hb, he, _⟩ | ⟨bytes, he, rfl⟩
  case inl => rw [hb, he]
  case inr => rw [he, hHonest.reads (List.mem_append_left _ (List.mem_singleton_self _))]

theorem handle_sends [LawfulUrls] (hb : buildTokenToAgentLookup agents = .ok lookup)
    (hHonest : Honest path) (h : (handle agents lookup request).Emits path (.fetch signed redirect)) :
    ∃ token domain agent url outbound,
      Sends agents request path signed token domain agent url outbound := by
  obtain ⟨_, hIndex⟩ := buildTokenToAgentLookup_ok.mp hb
  unfold handle at h
  split at h
  case h_1 => exact absurd h Program.emits_done
  case h_2 domain hAuth =>
    obtain ⟨token, hToken, hne, hLookup⟩ := authenticate_some hAuth
    obtain ⟨agent, hAgent, hHash⟩ := mem_listed.mp <| hIndex.get.mp hLookup
    simp only at h
    split at h
    case h_1 => exact absurd h Program.emits_done
    case h_2 url hUrl =>
      split at h
      case isTrue => exact absurd h Program.emits_done
      case isFalse hHttps =>
        obtain ⟨body, read, target, agent', outbound, hRead, hTarget, hAgent', hOutbound, hPath⟩ :=
          forward_fetch h
        have hHttps := not_not.mp hHttps
        cases (LawfulUrls.origin hUrl hHttps).symm.trans hTarget
        cases (JsObject.get?_eq_some.mpr hAgent).symm.trans hAgent'
        simp only [outboundRequest, Except.bind_eq_ok, Except.pure_eq_ok] at hOutbound
        obtain ⟨_, _, rfl⟩ := hOutbound
        subst hPath
        have hAdds := hHonest.signs (List.mem_append_right _ (List.mem_singleton_self _))
        have hBody := hRead.body_eq hHonest
        have hGet := @get_deleteAll hopHeaders request.headers
        refine ⟨token, domain, agent, url, _, ⟨hne, hToken⟩, ⟨hAgent, hHash⟩, fun ha hh => ?_, ?_,
          ⟨body, read, hRead, rfl⟩, hAdds.url, hAdds.method, hAdds.body.trans hBody, fun name hn => ?_,
          fun name hn hs => ?_, fun name hn => ?_⟩
        case refine_1 => exact hIndex.functional (mem_listed.mpr ⟨_, ha, hh⟩) (hIndex.get.mp hLookup)
        case refine_2 =>
          have hName : (ofString "DNSid-Destination").toLowerCase = "dnsid-destination" := by decide
          rw [hName] at hUrl
          cases hDestination : request.headers[ofString "dnsid-destination"]?
          case none =>
            rw [hDestination, Option.getD_none, LawfulUrls.empty] at hUrl
            cases hUrl
          case some destination =>
            rw [hDestination, Option.getD_some] at hUrl
            exact ⟨destination, rfl, hUrl, hHttps⟩
        case refine_3 => exact (hGet name).trans <| if_pos hn
        case refine_4 => exact (hAdds.headers name hs).trans <| (hGet name).trans <| if_pos hn
        case refine_5 =>
          have hs : name ∉ signatureHeaders := fun hs => hn <| by
            simp only [signatureHeaders, hopHeaders, List.mem_cons] at hs ⊢
            tauto
          exact (hAdds.headers name hs).trans <| (hGet name).trans <| if_neg hn

theorem createEgressHandler_ok {handler : Request → Handler Key Response} :
    createEgressHandler agents = .ok handler ↔
      ∃ lookup, buildTokenToAgentLookup agents = .ok lookup ∧ handle agents lookup = handler := by
  simp only [createEgressHandler, Except.bind_eq_ok, Except.pure_eq_ok]

-- The order in which the agents are configured does not matter.
theorem createEgressHandler_perm {handler : Request → Handler Key Response}
    (hp : agents.entries.Perm agents'.entries) (h : createEgressHandler agents = .ok handler) :
    createEgressHandler agents' = .ok handler := by
  have hListed (p : JsString × JsString) : p ∈ listed agents ↔ p ∈ listed agents' :=
    (hp.flatMap_right _).mem_iff
  have hGet : agents.get? = agents'.get? := by
    refine funext fun domain => Option.ext fun agent => ?_
    rw [JsObject.get?_eq_some, JsObject.get?_eq_some]
    exact hp.mem_iff
  have ⟨lookup, hb, hHandle⟩ := createEgressHandler_ok.mp h
  have ⟨hFunctional, hIndex⟩ := buildTokenToAgentLookup_ok.mp hb
  have hBuild : buildTokenToAgentLookup agents' = .ok lookup :=
    buildTokenToAgentLookup_ok.mpr
      ⟨fun hv hv' => hFunctional ((hListed _).mpr hv) ((hListed _).mpr hv'),
        ⟨fun {_ _} => hIndex.get.trans (hListed _)⟩⟩
  refine createEgressHandler_ok.mpr ⟨lookup, hBuild, ?_⟩
  rw [←hHandle]
  funext request
  simp only [handle, forward, hGet]

-- The egress Worker starts unless two domains share a token, in whichever order the agents are
-- configured. It sends a request only for a known token, signed by the token's agent.
theorem signs_as_own_agent [LawfulUrls] (agents : EgressAgents Key) :
    ((∃ handler, createEgressHandler agents = .ok handler) ↔
      ∀ {domain agent domain' agent' hash}, (domain, agent) ∈ agents.entries →
        (domain', agent') ∈ agents.entries → hash ∈ agent.tokenHashes →
        hash ∈ agent'.tokenHashes → domain = domain') ∧
    (∀ {agents' : EgressAgents Key} {handler}, agents.entries.Perm agents'.entries →
      (createEgressHandler agents = .ok handler ↔ createEgressHandler agents' = .ok handler)) ∧
    ∀ {handler request path signed redirect}, createEgressHandler agents = .ok handler →
      Honest path → (handler request).Emits path (.fetch signed redirect) →
      ∃ token domain agent url outbound,
        Sends agents request path signed token domain agent url outbound := by
  refine ⟨?_, fun hp => ⟨createEgressHandler_perm hp, createEgressHandler_perm hp.symm⟩,
    fun h hHonest he => ?_⟩
  case refine_1 =>
    simp only [createEgressHandler_ok]
    rw [exists_comm]
    simp only [exists_and_left, exists_eq', and_true, buildTokenToAgentLookup_isOk]
    constructor
    case mp =>
      intro hf _ _ _ _ _ ha ha' hh hh'
      exact hf (mem_listed.mpr ⟨_, ha, hh⟩) (mem_listed.mpr ⟨_, ha', hh'⟩)
    case mpr =>
      intro hAll hash domain domain' hm hm'
      have ⟨agent, ha, hh⟩ := mem_listed.mp hm
      have ⟨agent', ha', hh'⟩ := mem_listed.mp hm'
      exact hAll ha ha' hh hh'
  case refine_2 =>
    have ⟨lookup, hb, hHandle⟩ := createEgressHandler_ok.mp h
    exact handle_sends hb hHonest (hHandle ▸ he)

end
namespace Sample

-- The digest of `t-1`
def digest : List UInt8 := [
    0x46, 0xE9, 0xBC, 0x34, 0x76, 0xC9, 0x2E, 0xA2, 0x4F, 0xB1, 0x7A, 0xDA, 0xC6, 0xCD, 0x9C,
    0xDA, 0xCF, 0xF7, 0xA3, 0x4A, 0x5C, 0x75, 0x31, 0x00, 0x78, 0x7D, 0xA5, 0xA2, 0x99, 0x84,
    0xF8, 0x36
  ]

@[reducible]
def platform : Platform where
  parseUrl text :=
    if text = ofString "https://bank.example" then
      some ⟨"https:", [], [], "bank.example", "/", [], []⟩
    else
      none
  sha256 bytes := if bytes = (ofString "t-1").encode then digest else []

def agent : Agent JsString where
  keyProvider := "key"
  tokenHashes := [ofString "46e9bc3476c92ea24fb17adac6cd9cdacff7a34a5c753100787da5a29984f836"]

def agents : EgressAgents JsString where
  entries  := [(ofString "agent.example", agent)]
  distinct := by decide
  nonblank := by decide

def request : Request where
  method  := "GET"
  url     := ⟨"https:", [], [], "egress.example", "/accounts", [], []⟩
  headers := GoMap.set (GoMap.set ∅ "authorization" "Bearer t-1") "dnsid-destination"
    "https://bank.example"
  body    := none

def outbound : Request where
  method  := "GET"
  url     := ⟨"https:", [], [], "bank.example", "/accounts", [], []⟩
  headers := prepareForwardingHeaders request
  body    := none

def signed : Request :=
  { outbound with headers := outbound.headers.set "signature" "sig1=:AA==:" }

end Sample

section

attribute [local instance] Sample.platform

theorem signs_as_own_agent_one : ∃ handler path token domain agent url outbound,
    createEgressHandler Sample.agents = .ok handler ∧
    (handler Sample.request).Emits path (.fetch Sample.signed "manual") ∧
    Sends Sample.agents Sample.request path Sample.signed token domain agent url outbound := by
  have : LawfulUrls := by
    refine ⟨rfl, fun {text url} h _ => ?_⟩
    simp only [Platform.parseUrl] at h
    split at h
    case isTrue  => cases h; rfl
    case isFalse => cases h
  let lookup : Lookup := GoMap.set ∅
    "46e9bc3476c92ea24fb17adac6cd9cdacff7a34a5c753100787da5a29984f836" "agent.example"
  have hHandler : createEgressHandler Sample.agents = .ok (handle Sample.agents lookup) := rfl
  have hEmits : (handle Sample.agents lookup Sample.request).Emits
      [⟨.createSignedHttpRequest ⟨"agent.example", "key", 300, 5⟩ Sample.outbound 60,
        .ok Sample.signed⟩] (.fetch Sample.signed "manual") :=
    ⟨_, .call .here⟩
  have hHonest : Honest [(⟨.createSignedHttpRequest ⟨"agent.example", "key", 300, 5⟩
      Sample.outbound 60, .ok Sample.signed⟩ : Σ o : Op JsString, Op.Res o)] := by
    refine ⟨fun h => ?_, fun h => ?_⟩
    · cases List.mem_singleton.mp h
    · cases List.mem_singleton.mp h
      refine ⟨rfl, rfl, rfl, fun name hn => GoMap.get_set_ne ?_⟩
      rintro rfl
      exact hn (by decide)
  have ⟨token, domain, agent, url, outbound, hSends⟩ :=
    (signs_as_own_agent Sample.agents).right.right hHandler hHonest hEmits
  exact ⟨_, _, token, domain, agent, url, outbound, hHandler, hEmits, hSends⟩

end
end Workers.Egress

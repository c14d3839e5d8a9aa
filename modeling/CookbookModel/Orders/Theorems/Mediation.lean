import CookbookModel.Orders.Target

namespace Orders

open PyString Json PyItems

section

variable [Python] {σ ω : Type} {v : ProofVerifier σ ω} {expectedSubject sentinel : PyString}
  {w : ProofVerifier.Stamp ω} {s : σ}

section Headers

-- Names in lower case, each of them once
structure Normal (headers : PyItems PyString) : Prop where
  keyed : Keyed headers
  lower : ∀ header ∈ headers, Python.lower header.1 = header.1

variable {headers : PyItems PyString} {name value : PyString}

theorem Normal.set (h : Normal headers) (hn : Python.lower name = name) :
    Normal (set headers name value) where
  keyed := h.keyed.set
  lower := by
    intro header hm
    cases mem_set (k := header.1) (v := header.2) hm
    case inl he => rw [congrArg Prod.fst he, hn]
    case inr hm => exact h.lower _ hm

theorem Normal.filter {p : PyString × PyString → Bool} (h : Normal headers) :
    Normal (headers.filter p) where
  keyed := h.keyed.filter
  lower header hm := h.lower header (List.mem_filter.mp hm).left

theorem Normal.addHeader {item : PyString × Json} (h : Normal headers) :
    Normal (addHeader headers item) := by
  have ⟨key, value⟩ := item
  cases value
  case null => exact h
  all_goals exact h.set (Python.lower_lower _)

theorem normal_normalizeHeaders {value : Option Json} (h : normalizeHeaders value = .ok headers) :
    Normal headers := by
  rw [normalizeHeaders, Except.bind_eq_ok] at h
  have ⟨items, _, h⟩ := h
  rw [Except.pure_eq_ok] at h
  have hf (items : PyItems Json) (acc : PyItems PyString) (ha : Normal acc) :
      Normal (items.foldl Orders.addHeader acc) := by
    induction items generalizing acc
    case nil             => exact ha
    case cons item _ hi  => exact hi _ ha.addHeader
  exact h ▸ hf items [] ⟨List.nodup_nil, by simp⟩

theorem lower_trusted : ∀ name ∈ [ofString "x-dnsid-sub", "x-dnsid-status", "x-gateway-sentinel"],
    Python.lower name = name := by
  intro name hn
  have hd : name.isascii ∧ name.map lowerAscii = name := by
    revert name
    decide
  rw [Python.lower_ascii name hd.left, hd.right]

-- The headers that only the interceptor sets, with the values it sets.
def trusted (subject status sentinel : PyString) : PyItems PyString :=
  [("x-dnsid-sub", subject), ("x-dnsid-status", status), ("x-gateway-sentinel", sentinel)]

theorem normal_forwarded {verified : Option Verified} (h : Normal headers) :
    Normal (forwardedHeaders headers verified sentinel) := by
  cases verified
  case none   => exact h.filter
  case some p =>
    refine .set (.set (.set h.filter ?_) ?_) ?_ <;> exact lower_trusted _ (by decide)

omit [Python] in
theorem mem_forwarded {verified : Option Verified} {header : PyString × PyString}
    (hm : header ∈ forwardedHeaders headers verified sentinel) (hp : header.1 ∈ protectedHeaders) :
    ∃ p, verified = some p ∧ header ∈ trusted p.subject p.status sentinel := by
  have hf : header ∉ headers.filter fun header => header.1 ∉ protectedHeaders := by
    simp [hp]
  cases verified
  case none   => exact absurd hm hf
  case some p =>
    refine ⟨p, rfl, ?_⟩
    rcases mem_set hm with he | hm
    · simp [trusted, show header = _ from he]
    rcases mem_set hm with he | hm
    · simp [trusted, show header = _ from he]
    rcases mem_set hm with he | hm
    · simp [trusted, show header = _ from he]
    exact absurd hm hf

omit [Python] in
theorem get_forwarded (headers : PyItems PyString) (p : Verified) (sentinel : PyString) :
    get (forwardedHeaders headers (some p) sentinel) "x-gateway-sentinel" = some sentinel ∧
    get (forwardedHeaders headers (some p) sentinel) "x-dnsid-status" = some p.status := by
  have hd : ofString "x-dnsid-status" ≠ "x-gateway-sentinel" := by decide
  simp [forwardedHeaders, get_set, hd]

-- The target reads the forwarded headers as they are.
theorem headersOf_delivered (body : Json) (h : Normal headers) :
    Target.headersOf (delivered body headers) = .ok headers := by
  have hf : (headers.map fun header => (header.1, Json.string header.2)).foldl
      (fun headers item => PyItems.set headers (Python.lower item.1) (Python.str item.2)) [] =
      headers.foldl (fun acc item => PyItems.set acc item.1 item.2) [] := by
    rw [List.foldl_map]
    refine List.foldl_ext _ _ _ fun acc header hm => ?_
    simp only [h.lower header hm, Python.str_string]
  simp only [Target.headersOf, delivered, get_cons, if_pos, dictOrEmpty]
  exact congrArg Except.ok <| hf.trans <| foldl_set h.keyed

end Headers
section Requests

variable {request : PyItems Json} {p : ProofRequest}

theorem proofRequest_eq_some (h : proofRequest request expectedSubject = .ok (some p)) :
    isToolsCall request = true ∧ ∃ headers claims tokenJtiHash sessionHash,
      normalizeHeaders (get request "headers") = .ok headers ∧
      tokenClaims ( removeprefix ((get headers "authorization").getD []) "Bearer ") = .ok claims ∧
      sha256 claims.jti = .ok tokenJtiHash ∧
      sha256 ((get headers "mcp-session-id").getD []) = .ok sessionHash ∧
      p = {
        subject := claims.subject, jws := (get headers "x-action-proof").getD [],
        expected := [
          ("subject", claims.subject), ("audience", claims.audience),
          ("token_jti_hash", tokenJtiHash), ("tool_name", toolName request),
          ("arguments_hash", argumentsHash (arguments request)), ("session_hash", sessionHash)
        ]
      } := by
  rw [proofRequest, Except.bind_eq_ok] at h
  obtain ⟨headers, hh, h⟩ := h
  split at h
  case isFalse => simp [pure, Except.pure] at h
  case isTrue ht =>
    simp only [Except.bind_eq_ok, Except.pure_eq_ok, Option.some.injEq] at h
    obtain ⟨_, _, claims, hc, _, _, _, _, _, hj, _, hs, he⟩ := h
    exact ⟨ht, headers, claims, _, _, Except.mapError_eq_ok.mp hh,
      Except.mapError_eq_ok.mp hc, Except.mapError_eq_ok.mp hj, Except.mapError_eq_ok.mp hs, he.symm⟩

-- The request is a call of a tool, and the verifier has accepted its proof for the subject, the
-- audience and the id of its token, for the tool and for the session.
structure Accepted (v : ProofVerifier σ ω) (w : ProofVerifier.Stamp ω) (s : σ)
    (request : PyItems Json) (action : VerifiedAction) : Prop where
  toolsCall : isToolsCall request = true
  bound : ∃ headers claims expected,
    normalizeHeaders (get request "headers") = .ok headers ∧
    tokenClaims ( removeprefix ((get headers "authorization").getD []) "Bearer ") = .ok claims ∧
    (v.verify w.profile ((get headers "x-action-proof").getD []) expected w.now w.answer s).1 =
      .ok action ∧
    action.payload.subject = claims.subject ∧ action.payload.audience = claims.audience ∧
    sha256 claims.jti = .ok action.payload.tokenJtiHash ∧
    action.payload.toolName = toolName request ∧
    sha256 ((get headers "mcp-session-id").getD []) = .ok action.payload.sessionHash

variable {action action' : VerifiedAction}

-- A proof says one thing only.
theorem Accepted.unique (h : Accepted v w s request action) (h' : Accepted v w s request action') :
    action = action' := by
  have ⟨headers, _, _, hh, _, hv, _⟩ := h.bound
  have ⟨headers', _, _, hh', _, hv', _⟩ := h'.bound
  cases hh.symm.trans hh'
  have hs := (ProofVerifier.checked (ProofVerifier.verify_ok hv).left).signed
  have hs' := (ProofVerifier.checked (ProofVerifier.verify_ok hv').left).signed
  exact Except.ok.inj <| hs.symm.trans hs'

-- A verified request is accepted, for the arguments as the interceptor reads them.
theorem accepted (hp : proofRequest request expectedSubject = .ok (some p))
    (hv : (v.verify w.profile p.jws p.expected w.now w.answer s).1 = .ok action) :
    Accepted v w s request action ∧ action.payload.subject = p.subject ∧
    action.payload.argumentsHash = argumentsHash (arguments request) := by
  have ⟨ht, headers, claims, tokenJtiHash, sessionHash, hh, hc, hj, hs, he⟩ := proofRequest_eq_some hp
  subst he
  have hb := (ProofVerifier.checked (ProofVerifier.verify_ok hv).left).bound
  simp [ActionPayload.getattr, ActionPayload.asdict] at hb
  have ⟨h₁, h₂, h₃, h₄, h₅, h₆⟩ := hb
  exact ⟨⟨ht, headers, claims, _, hh, hc, hv, h₁, h₂, h₃ ▸ hj, h₄, h₆ ▸ hs⟩, h₁, h₅⟩

theorem verifyRequest_eq_some {verified : Verified}
    (h : (verifyRequest request v expectedSubject w s).1 = .ok (some verified)) :
    ∃ p action, proofRequest request expectedSubject = .ok (some p) ∧
      (v.verify w.profile p.jws p.expected w.now w.answer s).1 = .ok action ∧
      verified = ⟨p.subject, Python.lower action.identity.cachedState⟩ := by
  simp only [verifyRequest] at h
  split at h <;> try simp at h
  case h_3 p hp =>
    split at h <;> simp at h
    case h_2 action _ hv => exact ⟨p, action, hp, by rw [hv], h.symm⟩

theorem verifyRequest_verified (hp : proofRequest request expectedSubject = .ok (some p))
    (hv : (v.verify w.profile p.jws p.expected w.now w.answer s).1 = .ok action) :
    (verifyRequest request v expectedSubject w s).1 =
      .ok (some ⟨p.subject, Python.lower action.identity.cachedState⟩) := by
  simp only [verifyRequest, hp]
  split <;> simp_all

end Requests

section Handler

variable {event : PyItems Json} {response : Target.Response}

omit [Python] in
theorem compareDigest_eq_true {a b : PyString} :
    Target.compareDigest a b = .ok true ↔ a = b ∧ b.isascii := by
  simp only [Target.compareDigest]
  split
  case isTrue h  => simp_all
  case isFalse h =>
    simp only [reduceCtorEq, false_iff]
    rintro ⟨rfl, ha⟩
    simp [ha] at h

-- What makes the target accept an order.
structure Orderly (targetSentinel : PyString) (headers : PyItems PyString) (order : PyItems Json)
    (sku : PyString) (quantity : Int) : Prop where
  sentinel : targetSentinel ≠ [] ∧ targetSentinel.isascii ∧
    (get headers "x-gateway-sentinel").getD [] = targetSentinel
  status   : get headers "x-dnsid-status" = some (ofString "active")
  sku      : Target.skuOf order = some sku
  quantity : Target.quantityOf order = some quantity

theorem lambdaHandler_ok {targetSentinel : PyString} {headers : PyItems PyString}
    (hh : Target.headersOf event = .ok headers)
    (h : Target.lambdaHandler targetSentinel event = .ok response) (hs : response.statusCode = 200) :
    ∃ order sku quantity, Target.readBody (get event "body") = .ok (some order) ∧
      Orderly targetSentinel headers order sku quantity ∧
      get response.body "sku" = some (.string sku) ∧
      get response.body "quantity" = some (.int quantity) := by
  simp only [Target.lambdaHandler, hh] at h
  change (if targetSentinel = [] then _ else _) = _ at h
  split at h
  case isTrue => cases h; simp [Target.refuse] at hs
  case isFalse hn =>
    rw [Except.bind_eq_ok] at h
    have ⟨same, hc, h⟩ := h
    cases same
    case false => cases h; simp [Target.refuse] at hs
    case true  =>
      have ⟨he, ha⟩ := compareDigest_eq_true.mp hc
      rw [if_neg (by simp)] at h
      split at h
      case isTrue => cases h; simp [Target.refuse] at hs
      case isFalse hd =>
        rw [Except.bind_eq_ok] at h
        have ⟨order, hb, h⟩ := h
        split at h
        case h_1 => cases h; simp [Target.refuse] at hs
        case h_2 order =>
          split at h
          case h_1 => cases h; simp [Target.refuse] at hs
          case h_2 => cases h; simp [Target.refuse] at hs
          case h_3 sku quantity hsku hq =>
            cases h
            exact ⟨order, sku, quantity, hb, ⟨⟨hn, ha, he⟩, not_ne_iff.mp hd, hsku, hq⟩, rfl, rfl⟩

theorem lambdaHandler_accepts {targetSentinel : PyString} {headers : PyItems PyString}
    (hh : Target.headersOf event = .ok headers)
    (hb : Target.readBody (get event "body") = .ok (some order))
    (ho : Orderly targetSentinel headers order sku quantity) :
    ∃ response, Target.lambdaHandler targetSentinel event = .ok response ∧
      response.statusCode = 200 := by
  have ⟨hn, ha, he⟩ := ho.sentinel
  have hc := compareDigest_eq_true.mpr ⟨he, ha⟩
  have hok {α β : Type} (a : α) (f : α → Except PyError β) : (Except.ok a >>= f) = f a := rfl
  simp only [Target.lambdaHandler, hh, hc, hb, hok, hn, ho.status, ho.sku, ho.quantity, reduceIte,
    ne_eq, not_true_eq_false, Bool.not_true, Bool.false_eq_true]
  exact ⟨_, rfl, rfl⟩

end Handler

section Transform

variable {event : PyItems Json} {version : PyString} {body : Json} {headers : PyItems PyString}

theorem transformRequest_forwards
    (h : (transformRequest event v expectedSubject sentinel w s).1 =
      .ok ⟨version, .gatewayRequest body headers⟩) :
    ∃ request verified headers', gatewayRequest event = .ok request ∧
      (verifyRequest request v expectedSubject w s).1 = .ok verified ∧
      normalizeHeaders (get request "headers") = .ok headers' ∧
      body = (get request "body").getD .null ∧
      headers = forwardedHeaders headers' verified sentinel := by
  simp only [transformRequest] at h
  split at h <;> try simp at h
  case h_2 request hr =>
    split at h <;> try simp [denied] at h
    case h_3 verified _ hv =>
      split at h <;> simp at h
      case h_2 headers' hh =>
        have ⟨_, hb, hf⟩ := h
        exact ⟨request, verified, headers', hr, by rw [hv], hh, hb.symm, hf.symm⟩

theorem transformRequest_forwarded {request : PyItems Json} {verified : Option Verified}
    (hr : gatewayRequest event = .ok request)
    (hv : (verifyRequest request v expectedSubject w s).1 = .ok verified)
    (hh : normalizeHeaders (get request "headers") = .ok headers) :
    (transformRequest event v expectedSubject sentinel w s).1 = .ok ⟨"1.0",
      .gatewayRequest ((get request "body").getD .null) (forwardedHeaders headers verified sentinel)⟩ := by
  simp only [transformRequest, hr]
  split <;> simp_all

end Transform
section Mediation

variable {event request : PyItems Json} {body : Json} {headers : PyItems PyString}
  {targetSentinel : PyString}

-- A header as the interceptor itself sets it, for a request whose proof was accepted.
def Own (v : ProofVerifier σ ω) (sentinel : PyString) (w : ProofVerifier.Stamp ω) (s : σ)
    (event : PyItems Json) (header : PyString × PyString) : Prop :=
  ∃ request action, gatewayRequest event = .ok request ∧ Accepted v w s request action ∧
    header ∈ trusted action.payload.subject (Python.lower action.identity.cachedState) sentinel

-- What is forwarded to the target: the protected headers in it are the interceptor's own, and an
-- order that the target accepts is the one whose hash the accepted proof has.
structure Mediated (v : ProofVerifier σ ω) (sentinel targetSentinel : PyString)
    (w : ProofVerifier.Stamp ω) (s : σ) (event : PyItems Json) (body : Json)
    (headers : PyItems PyString) : Prop where
  forwarded : ∀ header ∈ headers, Python.lower header.1 ∈ protectedHeaders →
    Own v sentinel w s event header
  received : ∀ received, Target.headersOf (delivered body headers) = .ok received →
    ∀ header ∈ received, header.1 ∈ protectedHeaders → Own v sentinel w s event header
  ordered : ∀ response,
    Target.lambdaHandler targetSentinel (delivered body headers) = .ok response →
    response.statusCode = 200 → ∃ request action arguments sku quantity,
      gatewayRequest event = .ok request ∧ Accepted v w s request action ∧
      Target.readBody (get (delivered body headers) "body") = .ok (some arguments) ∧
      Target.skuOf arguments = some sku ∧ get response.body "sku" = some (.string sku) ∧
      Target.quantityOf arguments = some quantity ∧
      get response.body "quantity" = some (.int quantity) ∧
      action.payload.argumentsHash = argumentsHash arguments

-- The arguments are text that holds an order. The interceptor takes them for no arguments.
def Misread (request order : PyItems Json) : Prop :=
  ∃ text, get (params request) "arguments" = some (.string text) ∧
    Python.loads text = .ok (.object order) ∧ (Target.skuOf order).isSome ∧
    (Target.quantityOf order).isSome ∧ argumentsHash order ≠ argumentsHash []

-- The call of an active agent, with a proof that is accepted, through an interceptor that the target
-- trusts.
def Admitted (v : ProofVerifier σ ω) (expectedSubject sentinel targetSentinel : PyString)
    (w : ProofVerifier.Stamp ω) (s : σ) (request : PyItems Json) : Prop :=
  (∃ p action, proofRequest request expectedSubject = .ok (some p) ∧
    (v.verify w.profile p.jws p.expected w.now w.answer s).1 = .ok action ∧
    Python.lower action.identity.cachedState = ofString "active") ∧
  targetSentinel = sentinel ∧ sentinel ≠ [] ∧ sentinel.isascii

theorem own_forwarded {verified : Option Verified} {header : PyString × PyString}
    (hr : gatewayRequest event = .ok request)
    (hv : (verifyRequest request v expectedSubject w s).1 = .ok verified)
    (hm : header ∈ forwardedHeaders headers verified sentinel) (hp : header.1 ∈ protectedHeaders) :
    Own v sentinel w s event header := by
  have ⟨verified, he, hm⟩ := mem_forwarded hm hp
  have ⟨p, action, hp, hv, he⟩ := verifyRequest_eq_some (he ▸ hv)
  have ⟨ha, hs, _⟩ := accepted hp hv
  subst he
  exact ⟨request, action, hr, ha, hs ▸ hm⟩

omit [Python] in
theorem delivered_body (hb : body = (get request "body").getD .null) :
    get (delivered body headers) "body" = some ((get (params request) "arguments").getD .null) := by
  subst hb
  have hd : ofString "headers" ≠ "body" := by simp
  simp only [delivered, get_cons, if_neg hd, if_pos, params, Orders.body]
  cases get request "body" <;> rfl

-- The target reads the arguments as the interceptor does, unless they are text.
theorem readBody_arguments (h : Target.readBody (some ((get (params request) "arguments").getD .null)) =
      .ok (some order)) (hsku : Target.skuOf order = some sku)
    (hq : Target.quantityOf order = some quantity) (hm : ¬Misread request order) :
    argumentsHash (arguments request) = argumentsHash order := by
  simp only [arguments]
  cases ha : get (params request) "arguments"
  case none => simp [ha, Target.readBody] at h
  case some value =>
    simp only [ha, Option.getD_some] at h
    cases value <;> simp [Target.readBody] at h
    case object arguments => exact h ▸ rfl
    case string text =>
      split at h <;> simp at h
      case h_1 body hl =>
        subst h
        by_contra hn
        exact hm ⟨text, ha, hl, by simp [hsku], by simp [hq], fun he => hn he.symm⟩

-- An order that the target accepts, in a request that was forwarded.
theorem ordered
    (hv : (verifyRequest request v expectedSubject w s).1 = .ok verified)
    (hb : Target.readBody (some ((get (params request) "arguments").getD .null)) = .ok (some order))
    (ho : Orderly targetSentinel (forwardedHeaders headers verified sentinel) order sku quantity)
    (hm : ∀ order, Admitted v expectedSubject sentinel targetSentinel w s request →
      ¬Misread request order) :
    ∃ action, Accepted v w s request action ∧
      action.payload.argumentsHash = argumentsHash order := by
  have ⟨hn, ha, he⟩ := ho.sentinel
  cases verified
  case none =>
    have hg : get (forwardedHeaders headers none sentinel) "x-gateway-sentinel" = none := by
      refine get_eq_none.mpr fun value hm => ?_
      simp [forwardedHeaders, protectedHeaders] at hm
    exact absurd (by simpa [hg] using he.symm) hn
  case some verified =>
    have ⟨hs, hst⟩ := get_forwarded headers verified sentinel
    have he : sentinel = targetSentinel := by simpa [hs] using he
    have hst : verified.status = ofString "active" := Option.some.inj <| hst.symm.trans ho.status
    have ⟨p, action, hp, hv', hd⟩ := verifyRequest_eq_some hv
    have ⟨hacc, _, hargs⟩ := accepted hp hv'
    subst he hd
    have hmis := hm order ⟨⟨p, action, hp, hv', hst⟩, rfl, hn, ha⟩
    exact ⟨action, hacc, hargs.trans <| readBody_arguments hb ho.sku ho.quantity hmis⟩

theorem misread_not_mediated (hr : gatewayRequest event = .ok request)
    (hadm : Admitted v expectedSubject sentinel targetSentinel w s request)
    (hm : Misread request order) :
    ¬∀ version body headers, (transformRequest event v expectedSubject sentinel w s).1 =
      .ok ⟨version, .gatewayRequest body headers⟩ →
      Mediated v sentinel targetSentinel w s event body headers := by
  have ⟨⟨p, action, hp, hv, hs⟩, ht, hn, ha⟩ := hadm
  have ⟨text, hargs, hl, hsku, hq, hne⟩ := hm
  intro h
  have ⟨hacc, _, hhash⟩ := accepted hp hv
  have ⟨sku, hsku⟩ := Option.isSome_iff_exists.mp hsku
  have ⟨quantity, hq⟩ := Option.isSome_iff_exists.mp hq
  have ⟨headers, _, _, hh, _⟩ := hacc.bound
  let verified : Verified := ⟨p.subject, Python.lower action.identity.cachedState⟩
  let body := (get request "body").getD .null
  let headers' := forwardedHeaders headers (some verified) sentinel
  have hf : (transformRequest event v expectedSubject sentinel w s).1 =
      .ok ⟨"1.0", .gatewayRequest body headers'⟩ :=
    transformRequest_forwarded hr (verifyRequest_verified hp hv) hh
  have hd : Target.headersOf (delivered body headers') = .ok headers' :=
    headersOf_delivered body <| normal_forwarded <| normal_normalizeHeaders hh
  have ⟨hg, hst⟩ := get_forwarded headers verified sentinel
  have hread : Target.readBody (get (delivered body headers') "body") = .ok (some order) := by
    rw [delivered_body rfl, hargs]
    simp [Target.readBody, hl]
  have ⟨response, hl, hs⟩ := lambdaHandler_accepts hd hread
    ⟨⟨ht ▸ hn, ht ▸ ha, by simp [headers', hg, ht]⟩, hst.trans (congrArg some hs), hsku, hq⟩
  have ⟨request', action', order', _, _, hr', hacc', hread', _, _, _, _, hhash'⟩ :=
    (h _ _ _ hf).ordered response hl hs
  cases hr.symm.trans hr'
  cases hread.symm.trans hread'
  cases hacc.unique hacc'
  refine hne <| hhash'.symm.trans <| hhash.trans ?_
  simp [arguments, hargs, asObject]

theorem mediated_of_not_misread
    (h : ∀ request order, gatewayRequest event = .ok request →
      Admitted v expectedSubject sentinel targetSentinel w s request → ¬Misread request order) :
    ∀ version body headers, (transformRequest event v expectedSubject sentinel w s).1 =
      .ok ⟨version, .gatewayRequest body headers⟩ →
      Mediated v sentinel targetSentinel w s event body headers := by
  intro version body headers hf
  have ⟨request, verified, headers', hr, hv, hh, hb, he⟩ := transformRequest_forwards hf
  subst he
  have hn : Normal (forwardedHeaders headers' verified sentinel) :=
    normal_forwarded <| normal_normalizeHeaders hh
  have hown : ∀ header ∈ forwardedHeaders headers' verified sentinel,
      header.1 ∈ protectedHeaders → Own v sentinel w s event header :=
    fun _ => own_forwarded hr hv
  have hd := headersOf_delivered body hn
  refine ⟨fun header hm hp => hown header hm (hn.lower header hm ▸ hp), ?_, ?_⟩
  case refine_1 =>
    intro received hd' header hm
    cases hd.symm.trans hd'
    exact hown header hm
  case refine_2 =>
    intro response hl hs
    have ⟨order, sku, quantity, hread, ho, hsku, hq⟩ := lambdaHandler_ok hd hl hs
    have hread' := hread
    rw [delivered_body hb] at hread'
    have ⟨action, ha, hx⟩ := ordered hv hread' ho fun order => h request order hr
    exact ⟨request, action, order, sku, quantity, hr, ha, hread, ho.sku, hsku, ho.quantity, hq, hx⟩

theorem mediated_iff_not_misread :
    (∀ version body headers, (transformRequest event v expectedSubject sentinel w s).1 =
      .ok ⟨version, .gatewayRequest body headers⟩ →
      Mediated v sentinel targetSentinel w s event body headers) ↔
    ∀ request order, gatewayRequest event = .ok request →
      Admitted v expectedSubject sentinel targetSentinel w s request → ¬Misread request order where
  mp h _ _ hr hadm hm := misread_not_mediated hr hadm hm h
  mpr := mediated_of_not_misread

end Mediation
end

section

attribute [local instance] Sample.python

set_option maxRecDepth 20000 in
theorem sample_admitted :
    Admitted Sample.verifier "bank-a-agent.test" "trusted" "trusted" Sample.stamp ∅ Sample.request := by
  refine ⟨⟨Sample.proofRequest, Sample.action, ?_, ?_, ?_⟩, rfl, ?_, ?_⟩ <;> decide

theorem sample_misread : Misread Sample.request Sample.order := by
  refine ⟨Sample.orderText, ?_, ?_, ?_, ?_, ?_⟩
  · simp [params, body, Sample.request, asObject]
  · rfl
  all_goals decide

theorem text_arguments_not_mediated :
    ¬∀ version body headers,
      (transformRequest Sample.event Sample.verifier "bank-a-agent.test" "trusted" Sample.stamp ∅).1 =
        .ok ⟨version, .gatewayRequest body headers⟩ →
      Mediated Sample.verifier "trusted" "trusted" Sample.stamp ∅ Sample.event body headers := by
  refine misread_not_mediated ?_ sample_admitted sample_misread
  simp [gatewayRequest, Sample.event, dictOrEmpty, bind, Except.bind]

end

end Orders

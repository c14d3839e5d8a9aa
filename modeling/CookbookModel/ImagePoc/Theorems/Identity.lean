import CookbookModel.ImagePoc.TrustedContext
import CookbookModel.Library.Time.Order
import CookbookModel.Orders.Theorems.Mediation

namespace ImagePoc

open PyString Json PyItems
open Orders (addHeader gatewayRequest Normal)

section Texts

variable {m : Moment} {text : PyString}

-- Printable ASCII without blanks
def Visible (text : PyString) : Prop :=
  ∀ c ∈ text, 0x21 ≤ c.val ∧ c.val ≤ 0x7E

theorem isSafe_iff : isSafeHeaderValue text ↔ ∀ c ∈ text, 0x20 ≤ c.val ∧ c.val ≤ 0x7E := by
  simp [isSafeHeaderValue]

theorem Visible.safe (h : Visible text) : isSafeHeaderValue text :=
  isSafe_iff.mpr fun c hc => ⟨Nat.le_of_lt (h c hc).left, (h c hc).right⟩

-- The only blanks that a safe text can have around it are spaces.
theorem space_of_safe {c : CodePoint} (h : isSafeHeaderValue text) (hc : c ∈ text)
    (hs : isspace c) : c = 0x20 := by
  have ⟨hLow, hHigh⟩ := isSafe_iff.mp h c hc
  have hAll : ∀ n < 0x7F, 0x20 ≤ n → isspace (Fin.ofNat 0x110000 n) → Fin.ofNat 0x110000 n = 0x20 := by
    decide
  have he : Fin.ofNat 0x110000 c.val = c := Fin.ext <| Nat.mod_eq_of_lt c.isLt
  exact he ▸ hAll c.val (Nat.lt_succ_of_le hHigh) hLow (he.symm ▸ hs)

theorem Visible.strip (h : Visible text) : strip text = text := by
  refine strip_of_no_space fun c hc => Bool.eq_false_iff.mpr fun hs => ?_
  have ⟨hLow, _⟩ := h c hc
  have he := space_of_safe h.safe hc hs
  simp [he] at hLow

theorem Visible.no_space (h : Visible text) : 0x20 ∉ text := by
  intro hm
  have ⟨hLow, _⟩ := h _ hm
  simp at hLow

theorem mem_split_strip {text word : PyString} (h : isSafeHeaderValue text) (hw : word ≠ [])
    (hm : word ∈ split text 0x20) : word ∈ split (strip text) 0x20 := by
  have ⟨left, right, he, hl, hr⟩ := strip_spec text
  have hSpaces {part : PyString} (hp : part.all isspace) (hs : ∀ c ∈ part, c ∈ text) :
      ∀ c ∈ part, c = 0x20 :=
    fun c hc => space_of_safe h (hs c hc) (List.all_eq_true.mp hp c hc)
  refine (mem_split_padded (hSpaces hl ?_) (hSpaces hr ?_) hw).mp (he ▸ hm)
  all_goals
    intro c hc
    rw [he]
    simp [hc]

theorem safe_hexDigit (n : Nat) : 0x20 ≤ (hexDigit n).val ∧ (hexDigit n).val ≤ 0x7E := by
  have h : ∀ d < 16, 0x20 ≤ (PyString.ofChar (Nat.digitChar d)).val ∧
      (PyString.ofChar (Nat.digitChar d)).val ≤ 0x7E := by decide
  exact h _ (Nat.mod_lt _ (by decide))

theorem safe_hex : isSafeHeaderValue m.hex := by
  refine isSafe_iff.mpr fun c hc => ?_
  have ⟨_, _, he⟩ := List.mem_map.mp hc
  exact he ▸ safe_hexDigit _

theorem safe_digits (width n : Nat) : isSafeHeaderValue (textOf (Time.digits width n)) := by
  refine isSafe_iff.mpr fun c hc => ?_
  have ⟨b, hb, he⟩ := List.mem_map.mp hc
  have ⟨hLow, hHigh⟩ := Time.digits_mem hb
  have hLow : 0x30 ≤ b.toNat := UInt8.le_iff_toNat_le.mp hLow
  have hHigh : b.toNat < 0x5A := UInt8.lt_iff_toNat_lt.mp hHigh
  rw [←he, Fin.val_ofNat, Nat.mod_eq_of_lt (by omega)]
  omega

theorem safe_append (s t : PyString) :
    isSafeHeaderValue (s ++ t) = (isSafeHeaderValue s && isSafeHeaderValue t) :=
  List.all_append

theorem safe_cons {c : CodePoint} (h : isSafeHeaderValue [c]) (t : PyString) :
    isSafeHeaderValue (c :: t) = isSafeHeaderValue t := by
  rw [←List.singleton_append, safe_append, h, Bool.true_and]

theorem safe_strftime : isSafeHeaderValue m.strftime := by
  have hDash := @safe_cons 0x2D (by decide)
  have hTime := @safe_cons 0x54 (by decide)
  have hColon := @safe_cons 0x3A (by decide)
  have hZone : isSafeHeaderValue [0x5A] := by decide
  simp only [Moment.strftime, safe_append, hDash, hTime, hColon, hZone, safe_digits, Bool.and_self]

theorem requiredEnv_eq_ok {name : PyString} {value : Option PyString} :
    Interceptor.requiredEnv name value = .ok text ↔ value = some text ∧ text ≠ [] := by
  rcases value with _ | _ | ⟨c, s⟩ <;> simp [Interceptor.requiredEnv]
  exact fun he => he ▸ List.cons_ne_nil _ _

theorem any_isText {value : Option Json} :
    value.any (Interceptor.isText · text) ↔ value = some (.string text) := by
  cases value
  case none       => simp
  case some value => cases value <;> simp [Interceptor.isText]

end Texts

section

variable [Python] {env : Environment} {m : Moment} {claims request : PyItems Json}

section Headers

variable {items acc acc' : PyItems Json} {headers : PyItems PyString} {name : PyString}

-- The entries of a client's headers that are read under a name
def named (name : PyString) (items : PyItems Json) : PyItems Json :=
  items.filter fun item => Python.lower item.1 = name

-- The other entries are not read under it.
theorem get_addHeaders {acc acc' : PyItems PyString} (h : get acc name = get acc' name) :
    get (items.foldl addHeader acc) name = get ((named name items).foldl addHeader acc') name := by
  induction items generalizing acc acc'
  case nil => exact h
  case cons item items hi =>
    have ⟨key, value⟩ := item
    rw [named, List.filter_cons]
    split
    case isTrue hn =>
      refine hi ?_
      cases value
      case null => exact h
      all_goals simp only [addHeader, get_set, h]
    case isFalse hn =>
      have hne : name ≠ Python.lower key := fun he => hn <| decide_eq_true he.symm
      refine hi ?_
      cases value
      case null => exact h
      all_goals simp only [addHeader, get_set, if_neg hne, h]

theorem normalizeHeaders_object :
    normalizeHeaders (some (.object items)) = .ok (items.foldl addHeader []) :=
  rfl

-- Headers that are sent on as they are
def sent (headers : PyItems PyString) : Option Json :=
  some <| .object <| headers.map fun header => (header.1, .string header.2)

theorem normalizeHeaders_sent (h : Normal headers) : normalizeHeaders (sent headers) = .ok headers := by
  rw [sent, normalizeHeaders_object, List.foldl_map]
  refine congrArg Except.ok <| (List.foldl_ext _ _ _ fun acc header hm => ?_).trans <| foldl_set h.keyed
  simp only [addHeader, h.lower header hm, Python.str_string]

-- Leaving out what is empty does not change what is read with the default.
omit [Python] in
theorem get_filter_nonempty (h : Keyed headers) :
    (get (headers.filter (·.2 ≠ [])) name).getD [] = (get headers name).getD [] := by
  induction headers
  case nil => rfl
  case cons header headers hi =>
    have ⟨hn, h⟩ := List.nodup_cons.mp h
    have hi := hi h
    rw [List.filter_cons]
    split
    case isTrue  => simp only [get_cons]; split <;> simp_all
    case isFalse he =>
      rw [hi, get_cons]
      split
      case isFalse => rfl
      case isTrue hk =>
        have hNone : get headers name = none :=
          get_eq_none.mpr fun v hm => hn <| List.mem_map.mpr ⟨_, hm, hk.symm⟩
        simp [hNone, show header.2 = [] by simpa using he]

end Headers

section Context

variable {headers : PyItems PyString} {expectedSub : PyString} {context : TrustedContext}

-- The text under a header's name, empty where there is none
def raw (headers : PyItems PyString) (name : PyString) : PyString :=
  (get headers name).getD []

-- What the target makes of the header of a field
def field (headers : PyItems PyString) (name : PyString) : PyString :=
  ((get trustedHeaderNames name).map fun header => strip (raw headers header)).getD []

def contextOf (headers : PyItems PyString) : TrustedContext :=
  { TrustedContext.of (field headers) with
    authMode := if field headers "auth_mode" = [] then "gateway-dnsid-lab" else field headers "auth_mode" }

-- What the target wants of the headers
structure Acceptable (headers : PyItems PyString) (expectedSub : PyString) : Prop where
  safe    : ∀ name ∈ trustedHeaderNames, isSafeHeaderValue (raw headers name.2)
  present : ∀ name ∈ requiredHeaderFields, field headers name ≠ []
  sub     : field headers "sub" = expectedSub

omit [Python] in
theorem headerValue_eq_ok {name value : PyString × PyString} :
    headerValue headers name = .ok value ↔
      isSafeHeaderValue (raw headers name.2) ∧ (name.1, strip (raw headers name.2)) = value := by
  simp only [headerValue, Except.bind_eq_ok, Except.throwIf_eq_ok, Except.pure_eq_ok, exists_const, raw]
  refine and_congr_left fun _ => ⟨fun h => ?_, fun h hn => hn.right h⟩
  by_contra hs
  refine h ⟨fun he => hs ?_, hs⟩
  rw [he]
  rfl

omit [Python] in
theorem headerValues_eq_ok {values : List (PyString × PyString)} :
    trustedHeaderNames.mapM (headerValue headers) = .ok values ↔
      (∀ name ∈ trustedHeaderNames, isSafeHeaderValue (raw headers name.2)) ∧
      trustedHeaderNames.map (fun name => (name.1, strip (raw headers name.2))) = values :=
  Except.mapM_eq_ok fun name value => @headerValue_eq_ok headers name value

omit [Python] in
theorem get_fields (name : PyString) :
    (get (trustedHeaderNames.map fun name => (name.1, strip (raw headers name.2))) name).getD [] =
      field headers name := by
  have hMap (names : List (PyString × PyString)) :
      get (names.map fun name => (name.1, strip (raw headers name.2))) name =
        (get names name).map fun header => strip (raw headers header) := by
    induction names
    case nil              => rfl
    case cons item _ hi => simp only [List.map_cons, get_cons, hi]; split <;> rfl
  rw [hMap, field]

theorem parseTrustedContext_eq_ok (h : Normal headers) (hs : expectedSub ≠ []) :
    parseTrustedContext (sent headers) (some expectedSub) = .ok context ↔
      Acceptable headers expectedSub ∧ contextOf headers = context := by
  simp only [parseTrustedContext, normalizeHeaders_sent h, Except.bind_eq_ok, Except.mapError_eq_ok,
    headerValues_eq_ok, Except.forM_eq_ok, Except.throwIf_eq_ok, Except.pure_eq_ok]
  constructor
  case mp =>
    rintro ⟨_, hHeaders, _, ⟨hSafe, rfl⟩, _, hPresent, _, hSub, rfl⟩
    cases hHeaders
    simp only [get_fields] at hPresent hSub ⊢
    refine ⟨⟨hSafe, hPresent, ?_⟩, rfl⟩
    simpa [hs] using hSub
  case mpr =>
    rintro ⟨⟨hSafe, hPresent, hSub⟩, rfl⟩
    refine ⟨headers, rfl, _, ⟨hSafe, rfl⟩, .unit, ?_, .unit, ?_, ?_⟩
    all_goals simp only [get_fields]
    · exact hPresent
    · simp [hSub]
    · rfl

end Context

section Claims

variable {sub issuer audience : PyString}

-- What the interceptor has established about the claims that it admits.
structure Admitted (env : Environment) (claims : PyItems Json) (sub issuer audience : PyString) :
    Prop where
  expectedSub      : env.expectedDnsidSub = some sub ∧ sub ≠ []
  expectedIssuer   : env.expectedDnsidIss = some issuer ∧ issuer ≠ []
  expectedAudience : env.expectedGatewayAudience = some audience ∧ audience ≠ []
  sub              : get claims "sub" = some (.string sub)
  issuer           : get claims "iss" = some (.string issuer)
  audience         : Interceptor.audienceMatches (get claims "aud") audience

omit [Python] in
theorem admitted (h : Interceptor.validateClaims env m claims = .ok .unit) :
    ∃ sub issuer audience, Admitted env claims sub issuer audience := by
  simp only [Interceptor.validateClaims, Except.bind_eq_ok, Except.throwIf_eq_ok, requiredEnv_eq_ok,
    not_not, any_isText] at h
  obtain ⟨sub, hSub, issuer, hIssuer, audience, hAudience, _, hs, _, hi, _, ha, _⟩ := h
  exact ⟨sub, issuer, audience, hSub, hIssuer, hAudience, hs, hi, ha⟩

-- The expected audience is one of the words that the audience is written with.
theorem mem_audience (h : Interceptor.audienceMatches (get claims "aud") audience)
    (hv : 0x20 ∉ audience) : audience ∈ split (Interceptor.listText (get claims "aud")) 0x20 := by
  simp only [Interceptor.audienceMatches] at h
  split at h
  case h_1 s hs =>
    have hText : Interceptor.listText (some (.string s)) = s := Python.str_string s
    rw [hs, hText, of_decide_eq_true h, split, List.splitOn_eq_singleton hv]
    exact List.mem_singleton_self audience
  case h_2 items hItems =>
    obtain ⟨item, hm, hItem⟩ := List.any_eq_true.mp h
    have hs : item = .string audience := by
      simpa using any_isText.mp (show (some item).any (Interceptor.isText · audience) from hItem)
    rw [hItems]
    refine mem_split_join hv <| List.mem_map.mpr ⟨item, hm, ?_⟩
    rw [hs, Python.str_string]
  case h_3 => contradiction

end Claims

section Forwarding

open Interceptor (text listText domainText gatewayRequestId trustedHeaders transformRequest)

variable {sub issuer audience name value : PyString} {headers : PyItems PyString}
  {context : TrustedContext}

-- The headers that the target gets
abbrev forwarded (claims : PyItems Json) (sub : PyString) (request : PyItems Json) (m : Moment) :
    PyItems PyString :=
  (Interceptor.headersOf claims sub request m).filter (·.2 ≠ [])

theorem headersOf_names : (Interceptor.headersOf claims sub request m).map (·.1) =
    trustedHeaderNames.map (·.2) :=
  rfl

omit [Python] in
set_option maxRecDepth 20000 in
theorem nodup_names : (trustedHeaderNames.map (·.2)).Nodup := by
  decide

theorem keyed_headersOf : Keyed (Interceptor.headersOf claims sub request m) := by
  rw [Keyed, headersOf_names]
  exact nodup_names

set_option maxRecDepth 20000 in
theorem lower_names : ∀ name ∈ trustedHeaderNames.map (·.2), Python.lower name = name := by
  intro name hn
  have hAll : (trustedHeaderNames.map (·.2)).all fun name =>
      name.isascii && decide (name.map lowerAscii = name) := by decide
  have ⟨hAscii, hLower⟩ := (Bool.and_eq_true ..).mp <| List.all_eq_true.mp hAll name hn
  rw [Python.lower_ascii name hAscii, of_decide_eq_true hLower]

theorem normal_forwardedHeaders : Normal (forwarded claims sub request m) where
  keyed := keyed_headersOf.filter
  lower header hm := by
    have hm := List.mem_map_of_mem (f := (·.1)) (List.mem_filter.mp hm).left
    exact lower_names _ (headersOf_names ▸ hm)

theorem raw_forwarded (h : (name, value) ∈ Interceptor.headersOf claims sub request m) :
    raw (forwarded claims sub request m) name = value := by
  rw [raw, get_filter_nonempty keyed_headersOf, get_of_mem keyed_headersOf h, Option.getD_some]

theorem safe_forwarded :
    (∀ name ∈ trustedHeaderNames, isSafeHeaderValue (raw (forwarded claims sub request m) name.2)) ↔
      ∀ header ∈ Interceptor.headersOf claims sub request m, isSafeHeaderValue header.2 := by
  have hNames : (∀ name ∈ trustedHeaderNames.map (·.2),
      isSafeHeaderValue (raw (forwarded claims sub request m) name)) ↔
      ∀ name ∈ (Interceptor.headersOf claims sub request m).map (·.1),
        isSafeHeaderValue (raw (forwarded claims sub request m) name) := by
    rw [headersOf_names]
  rw [List.forall_mem_map, List.forall_mem_map] at hNames
  exact hNames.trans <| forall₂_congr fun header hm => by rw [raw_forwarded hm]

-- What the target can read of an admitted token: printable texts, and a `jti` and a domain that are
-- not blank.
structure Readable (claims : PyItems Json) (sub : PyString) (request : PyItems Json) : Prop where
  audience  : isSafeHeaderValue (listText (get claims "aud"))
  jti       : isSafeHeaderValue (text (get claims "jti")) ∧ strip (text (get claims "jti")) ≠ []
  domain    : isSafeHeaderValue (domainText claims sub) ∧ strip (domainText claims sub) ≠ []
  scope     : isSafeHeaderValue (listText (get claims "scope"))
  requestId : isSafeHeaderValue (gatewayRequestId request)

-- The identity that the target reads is the one that the token is about.
structure Carried (claims : PyItems Json) (audience : PyString) (context : TrustedContext) : Prop where
  sub      : get claims "sub" = some (.string context.sub)
  issuer   : get claims "iss" = some (.string context.issuer)
  audience : audience ∈ split context.audience 0x20
  jti      : context.jti = strip (text (get claims "jti"))
  domain   : context.dnsidDomain = strip (domainText claims context.sub)

theorem field_forwarded {header : PyString} (h : get trustedHeaderNames name = some header)
    (hm : (header, value) ∈ Interceptor.headersOf claims sub request m) :
    field (forwarded claims sub request m) name = strip value := by
  rw [field, h, Option.map_some, Option.getD_some, raw_forwarded hm]

-- The fields that the target needs
structure Fields (claims : PyItems Json) (sub : PyString) (headers : PyItems PyString) : Prop where
  issuer   : field headers "issuer" = strip (text (get claims "iss"))
  audience : field headers "audience" = strip (listText (get claims "aud"))
  jti      : field headers "jti" = strip (text (get claims "jti"))
  domain   : field headers "dnsid_domain" = strip (domainText claims sub)
  sub      : field headers "sub" = strip sub

set_option maxRecDepth 20000 in
theorem fields : Fields claims sub (forwarded claims sub request m) where
  issuer   := field_forwarded (by decide) (.tail _ <| .head _)
  audience := field_forwarded (by decide) (.tail _ <| .tail _ <| .head _)
  jti      := field_forwarded (by decide) (.tail _ <| .tail _ <| .tail _ <| .head _)
  domain   := field_forwarded (by decide) (.tail _ <| .tail _ <| .tail _ <| .tail _ <| .head _)
  sub      := field_forwarded (by decide) (.head _)

variable (ha : Admitted env claims sub issuer audience)

include ha

theorem text_issuer : text (get claims "iss") = issuer := by
  rw [text, ha.issuer, Option.getD_some, Python.str_string]

theorem acceptable_iff (hs : Visible sub) (hi : Visible issuer) (hv : Visible audience) :
    Acceptable (forwarded claims sub request m) sub ↔ Readable claims sub request := by
  have hf : Fields claims sub (forwarded claims sub request m) := fields
  have hIssuer := text_issuer ha
  have hSafe : (∀ header ∈ Interceptor.headersOf claims sub request m, isSafeHeaderValue header.2) ↔
      isSafeHeaderValue (listText (get claims "aud")) ∧ isSafeHeaderValue (text (get claims "jti")) ∧
      isSafeHeaderValue (domainText claims sub) ∧ isSafeHeaderValue (listText (get claims "scope")) ∧
      isSafeHeaderValue (gatewayRequestId request) := by
    have hMode : isSafeHeaderValue "gateway-dnsid-lab" := by decide
    simp only [Interceptor.headersOf, List.forall_mem_cons, hIssuer, hs.safe, hi.safe, hMode,
      safe_strftime, safe_hex, true_and, List.not_mem_nil, false_imp_iff, implies_true, and_true]
  constructor
  case mp =>
    intro h
    have ⟨hAudience, hJti, hDomain, hScope, hId⟩ := hSafe.mp <| safe_forwarded.mp h.safe
    refine ⟨hAudience, ⟨hJti, ?_⟩, ⟨hDomain, ?_⟩, hScope, hId⟩
    · exact hf.jti ▸ h.present "jti" (by simp [requiredHeaderFields])
    · exact hf.domain ▸ h.present "dnsid_domain" (by simp [requiredHeaderFields])
  case mpr =>
    intro h
    have hWord := mem_split_strip h.audience ha.expectedAudience.right <|
      mem_audience ha.audience hv.no_space
    refine ⟨safe_forwarded.mpr <| hSafe.mpr
      ⟨h.audience, h.jti.left, h.domain.left, h.scope, h.requestId⟩, ?_, hf.sub.trans hs.strip⟩
    simp only [requiredHeaderFields, List.forall_mem_cons, hf.sub, hf.issuer, hf.audience, hf.jti,
      hf.domain, hs.strip, hIssuer, hi.strip]
    refine ⟨ha.expectedSub.right, ha.expectedIssuer.right, fun he => ?_, h.jti.right, h.domain.right,
      nofun⟩
    rw [he, split, List.splitOn_nil, List.mem_singleton] at hWord
    exact ha.expectedAudience.right hWord

theorem carried_contextOf (hs : Visible sub) (hi : Visible issuer) (hv : Visible audience)
    (h : Readable claims sub request) :
    Carried claims audience (contextOf (forwarded claims sub request m)) := by
  have hf : Fields claims sub (forwarded claims sub request m) := fields
  have hSub : (contextOf (forwarded claims sub request m)).sub = sub := hf.sub.trans hs.strip
  refine ⟨?_, ?_, ?_, hf.jti, hSub.symm ▸ hf.domain⟩
  case refine_1 => rw [hSub, ha.sub]
  case refine_2 =>
    have hIssuer : (contextOf (forwarded claims sub request m)).issuer = issuer :=
      hf.issuer.trans <| (text_issuer ha).symm ▸ hi.strip
    rw [hIssuer, ha.issuer]
  case refine_3 =>
    have hAudience : (contextOf (forwarded claims sub request m)).audience =
        strip (listText (get claims "aud")) := hf.audience
    rw [hAudience]
    exact mem_split_strip h.audience ha.expectedAudience.right <| mem_audience ha.audience hv.no_space

end Forwarding

section Requests

open Interceptor (claimsFromAuthorization validateClaims trustedHeaders transformRequest)

variable {event event' request' headers headers' : PyItems Json} {sub issuer audience : PyString}

-- Another request that only has other headers
structure Rewritten (event event' headers headers' : PyItems Json) : Prop where
  requests : ∃ request request', gatewayRequest event = .ok request ∧
    gatewayRequest event' = .ok request' ∧
    get request "headers" = some (.object headers) ∧ get request' "headers" = some (.object headers') ∧
    ∀ key ≠ ofString "headers", get request' key = get request key

theorem gatewayRequestId_congr (h : ∀ key ≠ ofString "headers", get request' key = get request key) :
    Interceptor.gatewayRequestId request' = Interceptor.gatewayRequestId request := by
  simp only [Interceptor.gatewayRequestId]
  rw [h "requestContext" (by simp), h "requestId" (by simp), h "request_id" (by simp), h "id" (by simp)]

theorem transformRequest_eq (hr : gatewayRequest event = .ok request) :
    transformRequest env m event = match trustedHeaders env m request with
      | .ok headers                        =>
        .ok { mcp := .gatewayRequest ((get request "body").getD .null) headers }
      | .error (.interceptorError message) => .ok <| Interceptor.denied request message
      | .error e                           => .error e := by
  rw [transformRequest, hr]
  rfl

-- Nothing of the client's headers is used but the authorization.
theorem transformRequest_rewritten (h : Rewritten event event' headers headers')
    (hn : named "authorization" headers' = named "authorization" headers) :
    transformRequest env m event' = transformRequest env m event := by
  have ⟨request, request', hr, hr', hh, hh', hOther⟩ := h.requests
  have hAuthorization : get (headers'.foldl addHeader []) "authorization" =
      get (headers.foldl addHeader []) "authorization" := by
    rw [@get_addHeaders _ headers' _ [] [] rfl, hn, ←@get_addHeaders _ headers _ [] [] rfl]
  have hTrusted : trustedHeaders env m request' = trustedHeaders env m request := by
    have hFrom (claims : PyItems Json) : Interceptor.trustedHeadersFromClaims claims request' m =
        Interceptor.trustedHeadersFromClaims claims request m := by
      simp only [Interceptor.trustedHeadersFromClaims, Interceptor.headersOf, gatewayRequestId_congr hOther]
    simp only [trustedHeaders, hh, hh', normalizeHeaders_object, hFrom]
    exact congrArg (fun value : Option PyString => do
      let claims ← claimsFromAuthorization (value.getD [])
      validateClaims env m claims
      (Interceptor.trustedHeadersFromClaims claims request m).mapError .python) hAuthorization
  have hBody : get request' "body" = get request "body" := hOther "body" (by simp)
  have hDenied (message : PyString) : Interceptor.denied request' message =
      Interceptor.denied request message := by
    rw [Interceptor.denied, Interceptor.denied, hBody]
  rw [transformRequest_eq hr, transformRequest_eq hr', hTrusted, hBody]
  simp only [hDenied]

theorem transformRequest_forwards (hr : gatewayRequest event = .ok request)
    (hh : get request "headers" = some (.object headers))
    (hc : claimsFromAuthorization ((get (headers.foldl addHeader []) "authorization").getD []) =
      .ok claims)
    (hv : validateClaims env m claims = .ok .unit) (ha : Admitted env claims sub issuer audience) :
    transformRequest env m event = .ok ⟨"1.0", .gatewayRequest ((get request "body").getD .null)
      (forwarded claims sub request m)⟩ := by
  have hFrom : Interceptor.trustedHeadersFromClaims claims request m =
      .ok (forwarded claims sub request m) := by
    simp only [Interceptor.trustedHeadersFromClaims, ha.sub, Python.str_string]
  have hTrusted : trustedHeaders env m request = .ok (forwarded claims sub request m) := by
    simp only [trustedHeaders, hh, normalizeHeaders_object, Except.bind_eq_ok, Except.mapError_eq_ok]
    exact ⟨_, rfl, claims, hc, .unit, hv, hFrom⟩
  rw [transformRequest_eq hr, hTrusted]

-- An admitted token is forwarded, whatever other headers the client sends. The target refuses what
-- it cannot read, and else it reads the identity of the token.
theorem identity_carried (hr : gatewayRequest event = .ok request)
    (hh : get request "headers" = some (.object headers))
    (hc : claimsFromAuthorization ((get (headers.foldl addHeader []) "authorization").getD []) =
      .ok claims)
    (hv : validateClaims env m claims = .ok .unit)
    (hVisible : ∀ text ∈ [env.expectedDnsidSub, env.expectedDnsidIss, env.expectedGatewayAudience],
      Visible (text.getD [])) :
    ∃ sub audience headers', env.expectedDnsidSub = some sub ∧
      env.expectedGatewayAudience = some audience ∧
      transformRequest env m event =
        .ok ⟨"1.0", .gatewayRequest ((get request "body").getD .null) headers'⟩ ∧
      (∀ event' headers', Rewritten event event' headers headers' →
        named "authorization" headers' = named "authorization" headers →
        transformRequest env m event' = transformRequest env m event) ∧
      ((∃ context, parseTrustedContext (sent headers') (some sub) = .ok context) ↔
        Readable claims sub request) ∧
      ∀ context, parseTrustedContext (sent headers') (some sub) = .ok context →
        Carried claims audience context := by
  have ⟨sub, issuer, audience, ha⟩ := admitted hv
  simp only [List.forall_mem_cons, ha.expectedSub.left, ha.expectedIssuer.left,
    ha.expectedAudience.left, Option.getD_some] at hVisible
  have ⟨hs, hi, hw, _⟩ := hVisible
  have hParse (context : TrustedContext) :
      parseTrustedContext (sent (forwarded claims sub request m)) (some sub) = .ok context ↔
        Acceptable (forwarded claims sub request m) sub ∧
        contextOf (forwarded claims sub request m) = context :=
    parseTrustedContext_eq_ok normal_forwardedHeaders ha.expectedSub.right
  have hReadable : Acceptable (forwarded claims sub request m) sub ↔ Readable claims sub request :=
    acceptable_iff ha hs hi hw
  refine ⟨sub, audience, forwarded claims sub request m, ha.expectedSub.left, ha.expectedAudience.left,
    transformRequest_forwards hr hh hc hv ha, fun _ _ => transformRequest_rewritten, ⟨?_, ?_⟩, ?_⟩
  case refine_1 =>
    intro ⟨context, h⟩
    exact hReadable.mp ((hParse context).mp h).left
  case refine_2 =>
    intro h
    exact ⟨_, (hParse _).mpr ⟨hReadable.mpr h, rfl⟩⟩
  case refine_3 =>
    intro context h
    have ⟨hAcceptable, he⟩ := (hParse context).mp h
    exact he ▸ carried_contextOf ha hs hi hw (hReadable.mp hAcceptable)

end Requests

end

-- Tokens of one agent, with what Python's library makes of them
namespace Sample

def claims (jti : PyString) : PyItems Json := [
  ("sub", .string "agent.test"), ("iss", .string "issuer"), ("aud", .array [.string "gateway"]),
  ("exp", .int 9), ("jti", .string jti)
]

def plainText : String :=
  "\x7b\"sub\":\"agent.test\",\"iss\":\"issuer\",\"aud\":[\"gateway\"],\"exp\":9,\"jti\":\"token-1\"\x7d"

def accentedText : String :=
  "\x7b\"sub\":\"agent.test\",\"iss\":\"issuer\",\"aud\":[\"gateway\"],\"exp\":9,\"jti\":\"é\"\x7d"

def plainPart : PyString :=
  "eyJzdWIiOiJhZ2VudC50ZXN0IiwiaXNzIjoiaXNzdWVyIiwiYXVkIjpbImdhdGV3YXkiXSwiZXhwIjo5LCJqdGkiOiJ0b2tlbi0xIn0"

def accentedPart : PyString :=
  "eyJzdWIiOiJhZ2VudC50ZXN0IiwiaXNzIjoiaXNzdWVyIiwiYXVkIjpbImdhdGV3YXkiXSwiZXhwIjo5LCJqdGkiOiLDqSJ9"

@[reducible]
def python : Python :=
  { Orders.Sample.python with
    loads := fun text =>
      if text = ofString plainText then .ok <| .object <| claims "token-1"
      else if text = ofString accentedText then .ok <| .object <| claims "é"
      else .error <| .jsonDecodeError []
    urlsafeB64decode := fun s =>
      if s = plainPart ++ ofString "=" then .ok <| Orders.Sample.utf8 plainText
      else if s = accentedPart then .ok <| Orders.Sample.utf8 accentedText
      else .error <| .valueError [] }

def environment : Environment where
  expectedDnsidSub        := some "agent.test"
  expectedDnsidIss        := some "issuer"
  expectedGatewayAudience := some "gateway"

def moment : Moment where
  seconds := 5
  reached := fun _ => true
  gmtime  := ⟨⟨1970, 1, 1, 0, 0, 5, 0⟩, by decide⟩
  uuid4   := 7

def headers (part : PyString) : PyItems Json := [
  ("Authorization", .string <| ofString "Bearer e30." ++ part ++ ofString ".signature"),
  ("x-dnsid-sub", .string "spoofed.example")
]

def request (part : PyString) : PyItems Json :=
  [("headers", .object <| headers part), ("body", .object [("method", .string "tools/list")])]

def event (part : PyString) : PyItems Json :=
  [("mcp", .object [("gatewayRequest", .object <| request part)])]

end Sample

section

open Interceptor (claimsFromAuthorization validateClaims transformRequest)

attribute [local instance] Sample.python

-- The token in a request has claims that are admitted.
def Holds (part : PyString) (claims : PyItems Json) : Prop :=
  claimsFromAuthorization
      ((get ((Sample.headers part).foldl addHeader []) "authorization").getD []) = .ok claims ∧
    validateClaims Sample.environment Sample.moment claims = .ok .unit

set_option maxRecDepth 40000 in
theorem plain_holds : Holds Sample.plainPart (Sample.claims "token-1") :=
  ⟨rfl, rfl⟩

set_option maxRecDepth 40000 in
theorem accented_holds : Holds Sample.accentedPart (Sample.claims "é") :=
  ⟨rfl, rfl⟩

theorem sample_request {part : PyString} :
    gatewayRequest (Sample.event part) = .ok (Sample.request part) ∧
    get (Sample.request part) "headers" = some (.object (Sample.headers part)) :=
  ⟨rfl, rfl⟩

theorem sample_visible : ∀ text ∈ [Sample.environment.expectedDnsidSub,
    Sample.environment.expectedDnsidIss, Sample.environment.expectedGatewayAudience],
    Visible (text.getD []) := by
  have hVisible : ∀ text ∈ [ofString "agent.test", "issuer", "gateway"], Visible text := by
    intro text hm
    have hAll : [ofString "agent.test", "issuer", "gateway"].all fun text =>
      text.all fun c => 0x21 ≤ c.val && c.val ≤ 0x7E := by decide
    simpa [Visible] using List.all_eq_true.mp (List.all_eq_true.mp hAll text hm)
  exact List.forall_mem_map.mp (show ∀ text ∈ _, Visible text from hVisible)

set_option maxRecDepth 20000 in
theorem identity_carried_sample :
    ∃ headers context, transformRequest Sample.environment Sample.moment
        (Sample.event Sample.plainPart) =
      .ok ⟨"1.0", .gatewayRequest (.object [("method", .string "tools/list")]) headers⟩ ∧
    parseTrustedContext (sent headers) (some "agent.test") = .ok context ∧
    Carried (Sample.claims "token-1") "gateway" context := by
  have ⟨hr, hh⟩ := @sample_request Sample.plainPart
  have ⟨hc, hv⟩ := plain_holds
  have ⟨sub, audience, headers, hSub, hAudience, hForwards, _, hAccepts, hCarried⟩ :=
    identity_carried hr hh hc hv sample_visible
  cases hSub
  cases hAudience
  have ⟨context, hContext⟩ := hAccepts.mpr ⟨by decide, by decide, by decide, by decide, by decide⟩
  exact ⟨headers, context, hForwards, hContext, hCarried context hContext⟩

-- The target refuses the token of an admitted request, because of an accent in its `jti`.
theorem accented_jti_refused :
    ∃ headers, Holds Sample.accentedPart (Sample.claims "é") ∧ transformRequest Sample.environment Sample.moment (Sample.event Sample.accentedPart) =
      .ok ⟨"1.0", .gatewayRequest (.object [("method", .string "tools/list")]) headers⟩ ∧
    ∀ context, parseTrustedContext (sent headers) (some "agent.test") ≠ .ok context := by
  have ⟨hr, hh⟩ := @sample_request Sample.accentedPart
  have ⟨hc, hv⟩ := accented_holds
  have ha : Admitted Sample.environment (Sample.claims "é") "agent.test" "issuer" "gateway" :=
    ⟨by decide, by decide, by decide, rfl, rfl, by decide⟩
  refine ⟨_, accented_holds, transformRequest_forwards hr hh hc hv ha, fun context h => ?_⟩
  have ⟨hAcceptable, _⟩ := (parseTrustedContext_eq_ok normal_forwardedHeaders ha.expectedSub.right).mp h
  have hJti : isSafeHeaderValue "é" :=
    safe_forwarded.mp hAcceptable.safe ("x-dnsid-jti", "é") (.tail _ <| .tail _ <| .tail _ <| .head _)
  exact absurd hJti (by decide)

end

end ImagePoc

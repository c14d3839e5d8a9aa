import CookbookModel.Langchain.Ingress
import CookbookModel.Library.Lease
import Mathlib.Tactic.Linarith

namespace Langchain.DnsidAuthMiddleware

open PyString PyItems

section

variable {m : DnsidAuthMiddleware} {now : ℚ} {seen : Seen} {params : List SignatureParams}
  {k : PyString} {t : ℚ}

def purge (seen : Seen) (now : ℚ) : Seen :=
  seen.filter fun _ expiry => now < expiry

theorem get_purge (h : seen[k]? = some t) (ht : now < t) : (purge seen now)[k]? = some t := by
  simp [purge, GoMap.get_filter, h, ht]

-- The last entry with a nonce
def lastOf (nonce : PyString) (params : List SignatureParams) : Option SignatureParams :=
  (params.filter fun p => p.nonce.getD [] = nonce).getLast?

theorem lastOf_mem {q : SignatureParams} (h : lastOf k params = some q) :
    q ∈ params ∧ q.nonce.getD [] = k := by
  have hm := List.mem_filter.mp <| List.mem_of_getLast? h
  exact ⟨hm.left, of_decide_eq_true hm.right⟩

theorem get_record : (m.record now seen params)[k]? =
    match lastOf k params with
    | some q => some (createdOr q now + m.maxAge + 1)
    | none   => seen[k]? := by
  induction params using List.reverseRecOn
  case nil => rfl
  case append_singleton params p hi =>
    simp only [record, List.foldl_append, List.foldl_cons, List.foldl_nil, GoMap.get_set, lastOf,
      List.filter_append] at hi ⊢
    by_cases hp : p.nonce.getD [] = k
    case pos => simp [hp]
    case neg => simp [hp, Ne.symm hp, hi]

end

section

variable [SignatureInput] {m : DnsidAuthMiddleware} {inbound : Inbound} {w : Stamp} {s s' : Seen}

-- The entries with our tag that a request carries.
def entries (m : DnsidAuthMiddleware) (inbound : Inbound) : List SignatureParams :=
  match (get (m.headersOf inbound.scope) "signature-input").map SignatureInput.parseDictionary with
  | some (.ok entries) => tagged entries
  | _                  => []

-- The SDK verifies the request.
def Verifies (m : DnsidAuthMiddleware) (inbound : Inbound) (w : Stamp) : Prop :=
  ∃ body domain, readBody [] inbound.chunks = some body ∧
    m.httpRequest inbound.scope body >>= w.verify = .ok domain

theorem checkReplay_cases (m : DnsidAuthMiddleware) (inbound : Inbound) (now : ℚ) (seen : Seen) :
    ((m.checkReplay (m.headersOf inbound.scope) now seen).2 = purge seen now ∧
      (m.checkReplay (m.headersOf inbound.scope) now seen).1 ≠ .ok none) ∨
    ((m.checkReplay (m.headersOf inbound.scope) now seen).1 = .ok none ∧
      (∀ p ∈ m.entries inbound, p.nonce.getD [] ∉ (purge seen now).keys) ∧
      (m.checkReplay (m.headersOf inbound.scope) now seen).2 =
        m.record now (purge seen now) (m.entries inbound)) := by
  simp only [checkReplay, entries, purge]
  cases get (m.headersOf inbound.scope) "signature-input"
  case none => simp
  case some input =>
    simp only [Option.map_some]
    cases SignatureInput.parseDictionary input
    case error => simp
    case ok params =>
      simp only
      split
      case isTrue => simp
      case isFalse =>
        split
        case isTrue  => simp
        case isFalse hs =>
          refine .inr ⟨rfl, fun p hp hk => hs ?_, rfl⟩
          exact List.any_eq_true.mpr ⟨p, hp, decide_eq_true hk⟩

-- The request goes through to the wrapped application.
def Passed (c : Completed Inbound Stamp Outcome) : Prop :=
  ∃ scope body, c.result = .app scope (some body)

-- What a request makes of the nonces: it leaves them, it drops those that have expired, or it passes
-- and records its own, of which none is remembered.
theorem exec_cases (m : DnsidAuthMiddleware) (inbound : Inbound) (w : Stamp) (s : Seen) :
    (m.exec inbound w s).2 = s ∧ ¬Passed ⟨inbound, w, (m.exec inbound w s).1⟩ ∨
    (m.exec inbound w s).2 = purge s w.now ∧ ¬Passed ⟨inbound, w, (m.exec inbound w s).1⟩ ∨
    m.Verifies inbound w ∧
      (∀ p ∈ m.entries inbound, p.nonce.getD [] ∉ (purge s w.now).keys) ∧
      (m.exec inbound w s).2 = m.record w.now (purge s w.now) (m.entries inbound) := by
  simp only [exec, call, Passed]
  split
  case isTrue => exact .inl ⟨rfl, by simp⟩
  case isFalse =>
    split
    case h_1 => exact .inl ⟨rfl, by simp⟩
    case h_2 body hb =>
      split
      case h_1 => exact .inl ⟨rfl, by simp⟩
      case h_2 => exact .inl ⟨rfl, by simp⟩
      case h_3 domain hv =>
        have hc := checkReplay_cases m inbound w.now s
        split
        all_goals
          rename_i hr
          simp only [hr] at hc
          simp at hc
        case h_1 => exact .inr <| .inl ⟨hc, by simp⟩
        case h_2 => exact .inr <| .inl ⟨hc, by simp⟩
        case h_3 => exact .inr <| .inr ⟨⟨body, domain, hb, hv⟩, hc⟩

variable {c c' : Completed Inbound Stamp Outcome} {h : List (Completed Inbound Stamp Outcome)}

theorem passed_cases (hr : History.Transition m.exec s c s') (hp : Passed c) :
    m.Verifies c.call c.stamp ∧
    (∀ p ∈ m.entries c.call, p.nonce.getD [] ∉ (purge s c.stamp.now).keys) ∧
    s' = m.record c.stamp.now (purge s c.stamp.now) (m.entries c.call) := by
  have ⟨scope, body, hb⟩ := hp
  have hp : Passed ⟨c.call, c.stamp, (m.exec c.call c.stamp s).1⟩ := ⟨scope, body, hr.left ▸ hb⟩
  rcases exec_cases m c.call c.stamp s with ⟨_, hn⟩ | ⟨_, hn⟩ | hc
  case inr.inr => exact hr.right ▸ hc
  all_goals exact absurd hp hn

def lease (m : DnsidAuthMiddleware) : Lease (History.Transition m.exec) PyString ℚ where
  clock c     := c.stamp.now
  held s k    := s[k]?
  takes c k t := Passed c ∧ ∃ q, lastOf k (m.entries c.call) = some q ∧
    t = createdOr q c.stamp.now + m.maxAge + 1
  keeps := by
    rintro s c s' k t ⟨_, rfl⟩ hs ht
    have hp := get_purge hs ht
    rcases exec_cases m c.call c.stamp s with
      ⟨he, _⟩ | ⟨he, _⟩ | ⟨_, hn, he⟩
    · rw [he, hs]
    · rw [he, hp]
    · rw [he, get_record]
      split
      case h_1 q hq =>
        have ⟨hm, hk⟩ := lastOf_mem hq
        exact absurd (GoMap.mem_keys hp) (hk ▸ hn q hm)
      case h_2 => exact hp
  free := by
    rintro s c s' k t t' hr ⟨hp, q, hq, _⟩ hs
    have ⟨_, hn, _⟩ := passed_cases hr hp
    have ⟨hm, hk⟩ := lastOf_mem hq
    by_contra ht
    exact hn q hm <| hk ▸ GoMap.mem_keys (get_purge hs (not_le.mp ht))
  taken := by
    rintro s c s' k t hr ⟨hp, q, hq, rfl⟩
    have ⟨_, _, he⟩ := passed_cases hr hp
    rw [he, get_record, hq]

-- A signature is valid until its maximum age.
def InWindow (m : DnsidAuthMiddleware) (p : SignatureParams) (now : ℚ) : Prop :=
  ∃ created : Int, p.created = some created ∧ now ≤ created + m.maxAge

-- The SDK verifies a request by one of the signatures with our tag, which is in its window. The
-- other entries are the sender's.
def Sound (m : DnsidAuthMiddleware) (c : Completed Inbound Stamp Outcome) : Prop :=
  m.Verifies c.call c.stamp →
    c.stamp.signature ∈ m.entries c.call ∧ m.InWindow c.stamp.signature c.stamp.now

end

section

def passes : Outcome → Bool
  | .app _ (some _) => true
  | _               => false

end

section

attribute [local instance] Sample.signatureInput

-- The same request at two times
def twice (text : String) : List (Completed Inbound Stamp Outcome) :=
  let r := Sample.middleware.exec (Sample.inbound text) (Sample.stamp 1010) ∅
  [⟨Sample.inbound text, Sample.stamp 1010, r.1⟩, ⟨Sample.inbound text, Sample.stamp 1020,
    (Sample.middleware.exec (Sample.inbound text) (Sample.stamp 1020) r.2).1⟩]

theorem twice_history (text : String) :
    ∃ s, History Sample.middleware.exec ∅ (twice text) s :=
  ⟨_, .call _ _ <| .call _ _ .init⟩

theorem twice_ordered (text : String) :
    (twice text).Pairwise fun c c' => c.stamp.now ≤ c'.stamp.now := by
  simp [twice, Sample.stamp]
  norm_num

end
end Langchain.DnsidAuthMiddleware

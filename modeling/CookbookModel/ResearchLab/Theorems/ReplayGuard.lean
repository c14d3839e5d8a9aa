import CookbookModel.Library.Lease
import CookbookModel.ResearchLab.Publicdata

namespace ResearchLab

open JsString

section

variable {Row : Type} [Dataset Row] {trusted : Option (List JsString)} {req : Incoming} {w : Stamp}
  {seen seen' : Seen} {signatureInput key : JsString} {now expiry : Int}

-- The key under which a request is remembered
def keyOf (signatureInput : JsString) : Option JsString :=
  match firstKeyid signatureInput, firstNonce signatureInput with
  | some keyid, some nonce => some (replayKey keyid nonce)
  | _, _                   => none

theorem get_purge (h : seen[key]? = some expiry) (hn : now ≤ expiry) :
    (purge now seen)[key]? = some expiry := by
  simp [purge, GoMap.get_filter, h, hn]

-- What the guard does: it lets the request through and remembers its key, which it did not know, or
-- it refuses it.
theorem rejectReplay_cases (signatureInput : JsString) (now : Int) (seen : Seen) :
    (∃ key, keyOf signatureInput = some key ∧ (purge now seen)[key]? = none ∧
      rejectReplay signatureInput now seen =
        (.ok (), (purge now seen).set key (now + (maxAgeS + 5) * 1000))) ∨
    (∃ reason, reason ≠ .bodyTooLarge ∧ (∀ accountable, reason ≠ .untrusted accountable) ∧
      rejectReplay signatureInput now seen = (.error reason, purge now seen)) := by
  unfold rejectReplay keyOf
  cases firstKeyid signatureInput
  case none => exact .inr ⟨_, by simp, by simp, rfl⟩
  case some keyid =>
    cases firstNonce signatureInput
    case none       => exact .inr ⟨_, by simp, by simp, rfl⟩
    case some nonce =>
      by_cases h : (purge now seen)[replayKey keyid nonce]? = none
      case pos => exact .inl ⟨_, rfl, h, if_neg (not_not.mpr h)⟩
      case neg => exact .inr ⟨_, by simp, by simp, if_pos h⟩

-- The guard lets the request through.
def passes : Outcome Row → Bool
  | .served .. | .refused (.untrusted _) | .notLogged => true
  | _                                                 => false

omit [Dataset Row] in
theorem readBody_error {body : List UInt8} {chunks : List (List UInt8)} {e : Refused}
    (h : readBody body chunks = .error e) : e = .bodyTooLarge := by
  induction chunks generalizing body
  case nil => contradiction
  case cons chunk chunks hi =>
    rw [readBody] at h
    split at h
    case isTrue  => exact (Except.error.inj h).symm
    case isFalse => exact hi h

-- What a request makes of the keys: it is let through and its own is added, or it is not.
theorem handle_cases (trusted : Option (List JsString)) (req : Incoming) (w : Stamp) (seen : Seen) :
    (∃ sender, w.verify = .ok sender) ∧
      (∃ key, keyOf (req.signatureInput.getD []) = some key ∧ (purge w.now seen)[key]? = none ∧
        (handle trusted req w seen : Outcome Row × Seen).2 =
          (purge w.now seen).set key (w.now + (maxAgeS + 5) * 1000)) ∨
    passes (handle trusted req w seen : Outcome Row × Seen).1 = false ∧
      ((handle trusted req w seen : Outcome Row × Seen).2 = seen ∨
        (handle trusted req w seen : Outcome Row × Seen).2 = purge w.now seen) := by
  unfold handle
  split
  case h_1 e he => exact .inr ⟨readBody_error he ▸ rfl, .inl rfl⟩
  case h_2 => exact .inr ⟨rfl, .inl rfl⟩
  case h_3 =>
    cases hVerify : w.verify
    case error   => exact .inr ⟨rfl, .inl rfl⟩
    case ok sender =>
      dsimp only
      rcases rejectReplay_cases (req.signatureInput.getD []) w.now seen with
        ⟨key, hKey, hNew, h⟩ | ⟨reason, hReason, hTrusted, h⟩
      · refine .inl ⟨⟨sender, rfl⟩, key, hKey, hNew, ?_⟩
        rw [h]
        dsimp only
        split_ifs <;> rfl
      · rw [h]
        refine .inr ⟨?_, .inr rfl⟩
        cases reason
        case untrusted accountable => exact absurd rfl (hTrusted accountable)
        all_goals rfl

-- A run of the service
abbrev Run (Row : Type) :=
  List (Completed Incoming Stamp (Outcome Row))

variable {c c' : Completed Incoming Stamp (Outcome Row)} {h : Run Row}

-- The guard lets a request through.
def Passed (c : Completed Incoming Stamp (Outcome Row)) : Prop :=
  passes c.result = true

theorem passed_cases (hr : History.Transition (handle trusted) seen c seen') (hp : Passed c) :
    (∃ sender, c.stamp.verify = .ok sender) ∧
    ∃ key, keyOf (c.call.signatureInput.getD []) = some key ∧ (purge c.stamp.now seen)[key]? = none ∧
      seen' = (purge c.stamp.now seen).set key (c.stamp.now + (maxAgeS + 5) * 1000) := by
  have ⟨hResult, hSeen⟩ := hr
  cases @handle_cases Row _ trusted c.call c.stamp seen
  case inl hCase => exact hSeen ▸ hCase
  case inr hCase => simp [Passed, hResult, hCase.left] at hp

-- A key is held until it may be taken again, a millisecond after the time until which it is kept.
def lease (Row : Type) [Dataset Row] (trusted : Option (List JsString)) :
    Lease (History.Transition (handle trusted : _ → _ → _ → Outcome Row × Seen)) JsString Int where
  clock c       := c.stamp.now
  held seen key := seen[key]?.map (· + 1)
  takes c key t := Passed c ∧ keyOf (c.call.signatureInput.getD []) = some key ∧
    t = c.stamp.now + (maxAgeS + 5) * 1000 + 1
  keeps := by
    intro seen c seen' key t hr hHeld hNow
    have ⟨expiry, hKey, ht⟩ := Option.map_eq_some_iff.mp hHeld
    have hPurge := get_purge hKey (by omega : c.stamp.now ≤ expiry)
    have hSeen : seen'[key]? = some expiry := by
      rw [hr.right]
      rcases @handle_cases Row _ trusted c.call c.stamp seen with
        ⟨_, key', _, hNew, he⟩ | ⟨_, he | he⟩
      · have hne : key ≠ key' := fun h => by simp [←h, hPurge] at hNew
        rw [he, GoMap.get_set_ne hne, hPurge]
      · rw [he, hKey]
      · rw [he, hPurge]
    exact Option.map_eq_some_iff.mpr ⟨expiry, hSeen, ht⟩
  free := by
    intro seen c seen' key t t' hr ⟨hp, hKey, _⟩ hHeld
    have ⟨expiry, hOld, ht⟩ := Option.map_eq_some_iff.mp hHeld
    have ⟨_, key', hKey', hNew, _⟩ := passed_cases hr hp
    cases hKey.symm.trans hKey'
    by_contra hn
    have hPurge := get_purge hOld (by omega : c.stamp.now ≤ expiry)
    simp [hPurge] at hNew
  taken := by
    intro seen c seen' key t hr ⟨hp, hKey, ht⟩
    have ⟨_, key', hKey', _, he⟩ := passed_cases hr hp
    cases hKey.symm.trans hKey'
    simp [he, ht]

-- The SDK accepts a request until 305 seconds after its signature was made. The signature is among
-- the entries of the header, whose other entries are the sender's.
structure Sound (c : Completed Incoming Stamp (Outcome Row)) : Prop where
  fresh   : (∃ sender, c.stamp.verify = .ok sender) →
    c.stamp.accepted ≤ (c.stamp.signature.created + maxAgeS + 5) * 1000
  carried : (∃ sender, c.stamp.verify = .ok sender) →
    ofString "keyid=\"" ++ c.stamp.signature.keyid ++ [0x22] <:+: c.call.signatureInput.getD [] ∧
    ofString "nonce=\"" ++ c.stamp.signature.nonce ++ [0x22] <:+: c.call.signatureInput.getD []
  later   : c.stamp.accepted ≤ c.stamp.now

-- The guard reads the signature that the SDK has accepted, while it is valid.
structure ReadsAccepted (c : Completed Incoming Stamp (Outcome Row)) : Prop where
  keyid : firstKeyid (c.call.signatureInput.getD []) = some c.stamp.signature.keyid
  nonce : firstNonce (c.call.signatureInput.getD []) = some c.stamp.signature.nonce
  made  : c.stamp.signature.created * 1000 ≤ c.stamp.now
  valid : c.stamp.now ≤ (c.stamp.signature.created + maxAgeS + 5) * 1000

-- No two requests with the same signature are let through.
def ServedOnce (h : Run Row) : Prop :=
  h.Pairwise fun c c' => Passed c → Passed c' → c.stamp.signature ≠ c'.stamp.signature

-- While the guard reads the accepted signatures, each of them is served at most once.
theorem served_once (hh : History (handle trusted) ∅ h seen)
    (ho : h.Pairwise fun c c' => c.stamp.now ≤ c'.stamp.now)
    (hr : ∀ c ∈ h, Passed c → ReadsAccepted c) : ServedOnce h := by
  have hExclusive := List.Pairwise.and_mem.mp <| (lease Row trusted).exclusive hh.trail ho
  refine hExclusive.imp fun {c c'} ⟨hm, hm', hx⟩ hp hp' he => ?_
  have hc := hr c hm hp
  have hc' := hr c' hm' hp'
  have hKey {c : Completed Incoming Stamp (Outcome Row)} (hc : ReadsAccepted c) :
      keyOf (c.call.signatureInput.getD []) =
        some (replayKey c.stamp.signature.keyid c.stamp.signature.nonce) := by
    simp [keyOf, hc.keyid, hc.nonce]
  have hTime : c.stamp.now + (maxAgeS + 5) * 1000 + 1 ≤ c'.stamp.now :=
    hx _ _ _ ⟨hp, hKey hc, rfl⟩ ⟨hp', he ▸ hKey hc', rfl⟩
  have hMade := hc.made
  have hValid := hc'.valid
  rw [←he] at hValid
  omega

end

-- A request with one signature, which is sent twice, the second time behind an entry of the sender's.
namespace Sample

def signature : Signature :=
  ⟨"agent.test#k1", "n-1", 1000⟩

def signed : String :=
  "sig1=();created=1000;keyid=\"agent.test#k1\";nonce=\"n-1\";tag=\"publicdata-v1\""

def incoming (signatureInput : String) : Incoming :=
  ⟨some (ofString "/v1/countries"), some (ofString signatureInput), []⟩

def stamp (now : Int) : Stamp :=
  ⟨now, now, .ok ⟨"agent.test", "entity.test", "ACTIVE"⟩, signature, true⟩

@[reducible]
def dataset : Dataset Unit :=
  ⟨fun _ => none⟩

-- What is left of two requests at 1010 s and at 1020 s
def twice (first second : String) : Run Unit :=
  let r := @handle Unit dataset none (incoming first) (stamp 1010000) ∅
  [⟨incoming first, stamp 1010000, r.1⟩, ⟨incoming second, stamp 1020000,
    (@handle Unit dataset none (incoming second) (stamp 1020000) r.2).1⟩]

end Sample

attribute [local instance] Sample.dataset

theorem twice_history (first second : String) :
    ∃ seen, History (handle none) ∅ (Sample.twice first second) seen :=
  ⟨_, .call _ _ <| .call _ _ .init⟩

theorem twice_ordered (first second : String) :
    (Sample.twice first second).Pairwise fun c c' => c.stamp.now ≤ c'.stamp.now := by
  simp [Sample.twice, Sample.stamp]

set_option maxRecDepth 20000 in
-- The entry in front has a keyid and a nonce of its own, and the guard reads these.
theorem served_twice :
    ¬∀ h seen, History (handle none : _ → _ → _ → Outcome Unit × Seen) ∅ h seen →
      h.Pairwise (fun c c' => c.stamp.now ≤ c'.stamp.now) → (∀ c ∈ h, Sound c) → ServedOnce h := by
  intro hAll
  let forged := "a=();keyid=\"x\";nonce=\"y\", " ++ Sample.signed
  have ⟨seen, hh⟩ := twice_history Sample.signed forged
  have hSound : ∀ c ∈ Sample.twice Sample.signed forged, Sound c := by
    intro c hm
    simp only [Sample.twice, List.mem_pair] at hm
    rcases hm with rfl | rfl
    · exact ⟨fun _ => by decide, fun _ => by decide, by decide⟩
    · exact ⟨fun _ => by decide, fun _ => by decide, by decide⟩
  have hOnce := hAll _ _ hh (twice_ordered _ _) hSound
  have hPassed : ∀ c ∈ Sample.twice Sample.signed forged, passes c.result = true := by
    with_unfolding_all decide
  have hOnce := (List.pairwise_cons.mp hOnce).left _ List.mem_cons_self
  exact hOnce (hPassed _ (by simp [Sample.twice])) (hPassed _ (by simp [Sample.twice])) rfl

set_option maxRecDepth 20000 in
theorem served_once_replayed : ∃ seen,
    History (handle none) ∅ (Sample.twice Sample.signed Sample.signed) seen ∧
    (Sample.twice Sample.signed Sample.signed).map (fun c => passes c.result) = [true, false] ∧
    ServedOnce (Sample.twice Sample.signed Sample.signed) := by
  have ⟨seen, hh⟩ := twice_history Sample.signed Sample.signed
  have hPassed : (Sample.twice Sample.signed Sample.signed).map (fun c => passes c.result) =
      [true, false] := by
    with_unfolding_all decide
  refine ⟨seen, hh, hPassed, served_once hh (twice_ordered _ _) fun c hm _ => ?_⟩
  simp only [Sample.twice, List.mem_pair] at hm
  rcases hm with rfl | rfl
  · exact ⟨by decide, by decide, by decide, by decide⟩
  · exact ⟨by decide, by decide, by decide, by decide⟩

end ResearchLab

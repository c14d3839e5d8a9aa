import CookbookModel.Library.Lease
import CookbookModel.Orders.Verifier

namespace Orders

-- What single use needs of a replay store: a nonce is reserved only where no entry of it is left or
-- it has expired, and an entry is not dropped before.
structure ReplayStore.Lawful (store : ReplayStore Seen ω) : Prop where
  reserve_keeps {s : Seen} {k nonce : PyString} {ttl now t : Int} {w : ω} :
    s[k]? = some t → now < t → (store.reserve nonce ttl now w s).2[k]? = some t
  reserve_free {s : Seen} {nonce : PyString} {ttl now t : Int} {w : ω} :
    (store.reserve nonce ttl now w s).1 = .ok () → s[nonce]? = some t → t ≤ now
  reserve_taken {s : Seen} {nonce : PyString} {ttl now : Int} {w : ω} :
    (store.reserve nonce ttl now w s).1 = .ok () →
    (store.reserve nonce ttl now w s).2[nonce]? = some (now + ttl)
  expire_keeps {s : Seen} {k nonce : PyString} {now t : Int} :
    s[k]? = some t → now < t → (store.expire nonce now s)[k]? = some t

section Stores

variable {s : Seen} {k nonce : PyString} {t : Int}

theorem get_put (nonce : PyString) (t' : Int) (h : s[k]? = some t) :
    (if nonce ∈ s.keys then s else s.set nonce t')[k]? = some t := by
  split
  case isTrue => exact h
  case isFalse hn =>
    rw [GoMap.get_set_ne fun (he : k = nonce) => hn <| he ▸ GoMap.mem_keys h]
    exact h

theorem MemoryReplayStore.lawful : MemoryReplayStore.Lawful where
  reserve_keeps {s k nonce ttl now t _} h ht := by
    have hf : (s.filter fun _ expiry => now < expiry)[k]? = some t := by simp [GoMap.get_filter, h, ht]
    have hp := get_put nonce (now + ttl) hf
    simp only [MemoryReplayStore]
    split <;> simp_all
  reserve_free {s nonce ttl now t _} hr h := by
    by_contra hn
    have hf : (s.filter fun _ expiry => now < expiry)[nonce]? = some t := by
      simp [GoMap.get_filter, h, not_le.mp hn]
    simp [MemoryReplayStore, GoMap.mem_keys hf] at hr
  reserve_taken hr := by
    simp only [MemoryReplayStore] at hr ⊢
    split at hr
    case isTrue      => simp at hr
    case isFalse hn  => simp [hn]
  expire_keeps h _ := h

theorem DynamoReplayStore.lawful : DynamoReplayStore.Lawful where
  reserve_keeps {s k nonce ttl now t w} h _ := by
    have hp := get_put nonce (now + ttl) h
    cases w
    case served =>
      simp only [DynamoReplayStore]
      split <;> simp_all
    all_goals
      simp only [DynamoReplayStore]
      split_ifs <;> simp_all
  reserve_free {s nonce ttl now t w} hr h := by
    cases w <;> simp [DynamoReplayStore, GoMap.mem_keys h] at hr
    split at hr <;> simp at hr
  reserve_taken {s nonce ttl now w} hr := by
    cases w
    case served =>
      simp only [DynamoReplayStore] at hr ⊢
      split at hr
      case isTrue     => simp at hr
      case isFalse hn => simp [hn]
    case clientError =>
      simp only [DynamoReplayStore] at hr
      split at hr <;> simp at hr
    case unreachable => simp [DynamoReplayStore] at hr
  expire_keeps {s k nonce now t} h ht := by
    simp only [DynamoReplayStore]
    split
    case isFalse => exact h
    case isTrue he =>
      rw [GoMap.get_delete_ne]
      · exact h
      · rintro rfl
        simp [h] at he
        omega

end Stores

namespace ProofVerifier

variable [Python] {ω : Type} {v : ProofVerifier Seen ω}

abbrev Verification (ω : Type) :=
  Completed Call (Stamp ω) (Option (Except Raised VerifiedAction))

-- The payload that a call accepts
def accepted (c : Verification ω) : Option ActionPayload :=
  match c.result with
  | some (.ok action) => some action.payload
  | _                 => none

variable {c : Verification ω} {h : List (Verification ω)} {s s' : Seen} {k : PyString} {t : Int}

theorem exec_accepted
    (h : History.Transition v.exec s c s') (ha : accepted c = some payload) :
    ∃ jws expected action, action.payload = payload ∧
      v.checks c.stamp.profile jws expected c.stamp.now = .ok action ∧
      v.replayStore.reserve payload.nonce (v.lifetime payload c.stamp.now) c.stamp.now
        c.stamp.answer s = (.ok (), s') := by
  have ⟨call, stamp, result⟩ := c
  have ⟨hr, hs⟩ := h
  cases call
  case expire =>
    simp only [exec] at hr
    simp [accepted, hr] at ha
  case verify jws expected =>
    simp only [exec] at hr hs
    simp only [accepted, hr] at ha
    split at ha <;> cases ha
    case _ action he =>
      have ⟨hc, hr⟩ := verify_ok (Option.some.inj he)
      exact ⟨jws, expected, action, rfl, hc, hs ▸ hr⟩

theorem exec_keeps (hl : v.replayStore.Lawful) (h : History.Transition v.exec s c s')
    (hs : s[k]? = some t) (ht : c.stamp.now < t) : s'[k]? = some t := by
  have ⟨call, stamp, result⟩ := c
  rw [h.right]
  cases call
  case expire nonce => exact hl.expire_keeps hs ht
  case verify jws expected =>
    simp only [exec, verify]
    split
    case h_1 => exact hs
    case h_2 action _ =>
      have hr : (v.replayStore.reserve action.payload.nonce (v.lifetime action.payload stamp.now)
          stamp.now stamp.answer s).2[k]? = some t := hl.reserve_keeps hs ht
      split <;> simp_all

def lease (v : ProofVerifier Seen ω) (hl : v.replayStore.Lawful) :
    Lease (History.Transition v.exec) PyString Int where
  clock c     := c.stamp.now
  held s k    := s[k]?
  takes c k t := ∃ payload, accepted c = some payload ∧ payload.nonce = k ∧
    t = c.stamp.now + v.lifetime payload c.stamp.now
  keeps       := exec_keeps hl
  free h ht hs := by
    have ⟨payload, ha, hk, _⟩ := ht
    have ⟨_, _, _, _, _, hr⟩ := exec_accepted h ha
    exact hl.reserve_free (congrArg Prod.fst hr) (hk ▸ hs)
  taken h ht := by
    have ⟨payload, ha, hk, ht⟩ := ht
    have ⟨_, _, _, _, _, hr⟩ := exec_accepted h ha
    have hs := hl.reserve_taken (congrArg Prod.fst hr)
    rwa [hr, hk, ←ht] at hs

omit [Python] in
theorem lifetime_le (v : ProofVerifier Seen ω) (payload : ActionPayload) (now : Int) :
    payload.timestamp + v.maxAge < now + v.lifetime payload now := by
  simp only [lifetime]
  omega

-- A call that gets as far as the replay store, or is none of `verify`.
def reaches (v : ProofVerifier Seen ω) (c : Verification ω) : Bool :=
  match c.call with
  | .verify jws expected => (v.checks c.stamp.profile jws expected c.stamp.now).isOk
  | .expire _            => true

theorem exec_unreached (h : v.reaches ⟨call, w, r⟩ = false) : (v.exec call w s).2 = s := by
  cases call
  case expire => simp [reaches] at h
  case verify jws expected =>
    simp only [reaches] at h
    cases hc : v.checks w.profile jws expected w.now
    case error e => simp [exec, verify, hc]
    case ok a    => simp [hc, Except.isOk, Except.toBool] at h

-- The calls that fail before they reach the replay store could as well not have been made.
theorem history_reaches (hh : History v.exec init h s) :
    History v.exec init (h.filter v.reaches) s := by
  induction hh
  case init => exact .init
  case call s c w _ hi =>
    simp only [List.filter_append, List.filter_cons, List.filter_nil]
    split
    case isTrue => exact hi.call c w
    case isFalse hr =>
      rw [List.append_nil, exec_unreached (by simpa using hr)]
      exact hi

-- The clock does not run backwards.
def Clocked (h : List (Verification ω)) : Prop :=
  h.Pairwise fun c c' => c.stamp.now ≤ c'.stamp.now

-- No nonce is accepted again while the proof it came with is fresh, so no payload is accepted twice,
-- and a proof that fails a check leaves no trace.
structure SingleUse (v : ProofVerifier Seen ω) : Prop where
  fresh {h : List (Verification ω)} {s : Seen} :
    History v.exec v.replayStore.init h s → Clocked h →
    h.Pairwise fun c c' => ∀ p p', accepted c = some p → accepted c' = some p' → p.nonce = p'.nonce →
      p.timestamp + v.maxAge < c'.stamp.now
  once {h : List (Verification ω)} {s : Seen} :
    History v.exec v.replayStore.init h s → Clocked h → (h.filterMap accepted).Nodup
  untouched {jws : PyString} {expected : List (PyString × PyString)} {w : Stamp ω} {s : Seen} :
    v.checks w.profile jws expected w.now = .error e →
    v.exec (.verify jws expected) w s = (some <| .error e, s)
  harmless {h : List (Verification ω)} {s : Seen} :
    History v.exec v.replayStore.init h s → History v.exec v.replayStore.init (h.filter v.reaches) s

theorem pairwise_fresh (hl : v.replayStore.Lawful) (hh : History v.exec init h s) (hc : Clocked h) :
    h.Pairwise fun c c' => ∀ p p', accepted c = some p → accepted c' = some p' → p.nonce = p'.nonce →
      p.timestamp + v.maxAge < c'.stamp.now := by
  refine ((v.lease hl).exclusive hh.trail hc).imp ?_
  intro c c' hx p p' ha ha' hn
  have hx := hx p.nonce _ _ ⟨p, ha, rfl, rfl⟩ ⟨p', ha', hn.symm, rfl⟩
  exact (v.lifetime_le p c.stamp.now).trans_le hx

theorem accepted_fresh (hh : History v.exec init h s) (hm : c ∈ h) (ha : accepted c = some p) :
    c.stamp.now ≤ p.timestamp + v.maxAge := by
  have ⟨h₁, h₂, he⟩ := List.append_of_mem hm
  have ⟨s₁, _, hr, _⟩ := hh.before he
  have ⟨_, _, action, hp, hc, _⟩ := exec_accepted ⟨hr, rfl⟩ ha
  have hf := (checked hc).fresh
  rw [hp] at hf
  omega

theorem nodup_accepted (hl : v.replayStore.Lawful) (hh : History v.exec init h s)
    (hc : Clocked h) : (h.filterMap accepted).Nodup := by
  refine List.pairwise_filterMap.mpr ?_
  refine (List.Pairwise.and_mem.mp <| pairwise_fresh hl hh hc).imp ?_
  intro c c' ⟨_, hm', hx⟩ p ha p' ha' he
  have := hx p p' ha ha' (by rw [he])
  have := accepted_fresh hh hm' ha'
  rw [he] at *
  omega

theorem singleUse (hl : v.replayStore.Lawful) : v.SingleUse where
  fresh hh hc    := pairwise_fresh hl hh hc
  once hh hc     := nodup_accepted hl hh hc
  untouched he   := by simp [exec, verify, he]
  harmless hh    := history_reaches hh

theorem proofs_single_use (maxAge : Int) :
    SingleUse ⟨MemoryReplayStore, maxAge⟩ ∧ SingleUse ⟨DynamoReplayStore, maxAge⟩ where
  left  := singleUse MemoryReplayStore.lawful
  right := singleUse DynamoReplayStore.lawful

end ProofVerifier
end Orders

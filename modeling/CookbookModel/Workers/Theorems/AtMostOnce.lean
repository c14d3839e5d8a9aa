import CookbookModel.Library.Lease
import CookbookModel.Workers.Theorems.Handling

namespace Workers

open JsString

section

variable [HttpSignatures] {env : IngressEnv} {request outbound : Request}
  {path : List (Σ o, Op.Res o)}

-- A signature as replay protection knows it: its signer, its nonce and when it was created.
structure Signature where
  signerDomain : JsString
  nonce        : JsString
  created      : Int
  deriving DecidableEq

namespace Signature

def expiresAtMs (signature : Signature) : Int :=
  (signature.created + maxAgeSeconds + clockSkewSeconds) * 1000

-- The operation that claims the signature.
def claim (signature : Signature) : Op :=
  .claim signature.signerDomain signature.nonce signature.expiresAtMs

end Signature

-- The only signature of a request that has a nonce and a signer
def Request.signed (request : Request) : Option Signature :=
  match request.signature with
  | none        => none
  | some params =>
    match params.nonce, HttpSignatures.parseKeyId params.keyId with
    | some (u :: nonce), .ok domain => some ⟨domain, u :: nonce, params.created.getD 0⟩
    | _, _                          => none

theorem handle_emits_fetch (h : (handle env request).Emits path (.fetch outbound)) :
    ∃ signature verified, request.signed = some signature ∧
      path = [⟨.verifySignedHttpRequest request, .ok verified⟩, ⟨signature.claim, .ok true⟩] := by
  have ⟨params, nonce, domain, verified, hSigns, hDomain, hPath, _⟩ := handle_fetch.mp h
  have ⟨input, hInput, _, hParse⟩ := hSigns.input
  have ⟨hNonce, hne⟩ := hSigns.nonce
  have hSignature : request.signature = some params := by
    simp [Request.signature, hInput, hParse]
  cases nonce
  case nil       => contradiction
  case cons u us =>
    refine ⟨⟨domain, u :: us, params.created.getD 0⟩, verified, ?_, hPath⟩
    simp only [Request.signed, hSignature, hNonce, hDomain]

section Claims

variable {signature : Signature} {tr : List (system env).Event} {s s' : State}
  {C : (system env).Config}

-- The step claims the signature and is told that it is fresh.
def Grants (e : (system env).Event) (signature : Signature) : Prop :=
  (⟨e.op, e.response⟩ : Σ o, Op.Res o) = ⟨signature.claim, .ok true⟩

def Forwards (e : (system env).Event) : Prop :=
  ∃ outbound, e.op = .fetch outbound

-- What a step does to the stores: nothing, or it claims a nonce in the store of a signer.
theorem post_stores (e : (system env).Event) : e.post.stores = e.store.stores ∨
    ∃ domain nonce expires, e.op = .claim domain nonce expires ∧
      e.post.stores = fun d => if d = domain then
        ((e.store.stores domain).claim nonce expires e.outcome.now).2 else e.store.stores d := by
  have ⟨i, c, o, w, s⟩ := e
  cases o
  case verifySignedHttpRequest => exact .inl rfl
  case fetch                   => exact .inl rfl
  case claim domain nonce expires =>
    have ⟨now, verified, failure, fetched⟩ := w
    match failure with
    | none            => exact .inr ⟨domain, nonce, expires, rfl, rfl⟩
    | some (_, true)  => exact .inr ⟨domain, nonce, expires, rfl, rfl⟩
    | some (_, false) => exact .inl rfl

theorem grants_claim {e : (system env).Event} (h : Grants e signature) :
    ((e.store.stores signature.signerDomain).claim signature.nonce signature.expiresAtMs
      e.outcome.now).1 = true ∧
    e.post.stores signature.signerDomain = ((e.store.stores signature.signerDomain).claim
      signature.nonce signature.expiresAtMs e.outcome.now).2 := by
  have ⟨i, c, o, w, s⟩ := e
  have ho : o = signature.claim := congrArg Sigma.fst h
  subst ho
  have hr := eq_of_heq (Sigma.mk.inj h).right
  have ⟨now, verified, failure, fetched⟩ := w
  match failure with
  | none => exact ⟨Except.ok.inj hr, if_pos rfl⟩
  | some (_, true)  => cases hr
  | some (_, false) => cases hr

-- A record may go in the millisecond after it has expired.
def lease (env : IngressEnv) : Lease (system env).Transition (JsString × JsString) Int where
  clock e   := e.outcome.now
  held s k  := (s.stores k.1)[k.2]?.map (· + 1)
  takes e k t := ∃ signature, Grants e signature ∧ (signature.signerDomain, signature.nonce) = k ∧
    t = signature.expiresAtMs + 1
  keeps := by
    rintro s e s' k t ⟨rfl, rfl⟩ hs ht
    have ⟨t', hs, he⟩ := Option.map_eq_some_iff.mp hs
    refine Option.map_eq_some_iff.mpr ⟨t', ?_, he⟩
    rcases post_stores e with hp | ⟨domain, nonce, expires, _, hp⟩
    case inl => rw [hp, hs]
    case inr =>
      rw [congrFun hp]
      split
      case isTrue hd  => exact NonceStore.claim_keeps (hd ▸ hs) (by omega)
      case isFalse    => exact hs
  free := by
    rintro s e s' k t t' ⟨rfl, rfl⟩ ⟨signature, hg, rfl, _⟩ hs
    have ⟨t'', hs, he⟩ := Option.map_eq_some_iff.mp hs
    have := NonceStore.claim_free (grants_claim hg).left hs
    omega
  taken := by
    rintro s e s' k t ⟨rfl, rfl⟩ ⟨signature, hg, rfl, rfl⟩
    have ⟨hc, hp⟩ := grants_claim hg
    rw [hp, NonceStore.claim_taken hc]
    rfl

theorem post_clock (e : (system env).Event) : e.post.clock = e.outcome.now := by
  have ⟨i, c, o, w, s⟩ := e
  cases o
  case verifySignedHttpRequest => rfl
  case fetch                   => rfl
  case claim                   =>
    have ⟨now, verified, failure, fetched⟩ := w
    match failure with
    | none            => rfl
    | some (_, true)  => rfl
    | some (_, false) => rfl

theorem run_clocked (h : (system env).Run tr C) :
    tr.Pairwise (fun e e' => e.outcome.now ≤ e'.outcome.now) ∧
    ∀ e ∈ tr, e.outcome.now ≤ C.store.clock := by
  refine System.Run.induction (I := fun tr s => tr.Pairwise (fun e e' => e.outcome.now ≤ e'.outcome.now) ∧
    ∀ e ∈ tr, e.outcome.now ≤ s.clock) ⟨.nil, by simp⟩ ?_ h
  intro tr e ⟨ho, hc⟩ _ hm
  have hm : e.store.clock ≤ e.outcome.now :=
    of_decide_eq_true (Bool.and_eq_true_iff.mp hm).left
  have hc : ∀ e' ∈ tr, e'.outcome.now ≤ e.outcome.now := fun e' he => (hc e' he).trans hm
  constructor
  case left  => exact List.pairwise_append.mpr ⟨ho, List.pairwise_singleton _ _, by simpa using hc⟩
  case right =>
    intro e' he
    rw [post_clock]
    cases List.mem_append.mp he
    case inl he => exact hc e' he
    case inr he => exact List.mem_singleton.mp he ▸ le_rfl

-- A signature that was granted before is claimed again before it expires, if at all.
def Prompt (tr : List (system env).Event) : Prop :=
  tr.Pairwise fun e e' => ∀ signature, Grants e signature → e'.op = signature.claim →
    e'.outcome.now ≤ signature.expiresAtMs

theorem granted_once (h : (system env).Run tr C) (hp : Prompt tr) :
    tr.Pairwise fun e e' => ∀ signature, ¬(Grants e signature ∧ Grants e' signature) := by
  have hx := (lease env).exclusive h.steps.trail (run_clocked h).left
  refine (List.pairwise_and_iff.mpr ⟨hx, hp⟩).imp ?_
  rintro e e' ⟨hx, hp⟩ signature ⟨hg, hg'⟩
  have hx := hx (signature.signerDomain, signature.nonce) _ _ ⟨signature, hg, rfl, rfl⟩
    ⟨signature, hg', rfl, rfl⟩
  have hp := hp signature hg (congrArg Sigma.fst hg')
  change signature.expiresAtMs + 1 ≤ e'.outcome.now at hx
  omega

theorem forwards_granted (h : (system env).Run tr C) (he : tr = tr₁ ++ e :: tr₂) (hf : Forwards e) :
    ∃ signature verified, e.call.signed = some signature ∧ System.path e.thread tr₁ =
      [⟨.verifySignedHttpRequest e.call, .ok verified⟩, ⟨signature.claim, .ok true⟩] := by
  have ⟨outbound, ho⟩ := hf
  exact handle_emits_fetch (ho ▸ h.event_emits he)

theorem exists_grants {tr₁ : List (system env).Event}
    (hp : System.path i tr₁ = [⟨.verifySignedHttpRequest request, .ok verified⟩,
      ⟨signature.claim, .ok true⟩]) : ∃ g ∈ tr₁, g.thread = i ∧ Grants g signature := by
  have hm : (⟨signature.claim, .ok true⟩ : Σ o, Op.Res o) ∈ System.path i tr₁ := by simp [hp]
  exact System.mem_path hm

-- Every signature lets one request through.
theorem forwarded_once (h : (system env).Run tr C) (hp : Prompt tr) :
    tr.Pairwise fun e e' => Forwards e → Forwards e' → ∃ signature signature',
      e.call.signed = some signature ∧ e'.call.signed = some signature' ∧ signature ≠ signature' := by
  refine System.pairwise_of_each fun {tr₁ e' tr₂} ht e hm hf hf' => ?_
  have ⟨a, b, ha⟩ := List.append_of_mem hm
  have ht' : tr = a ++ e :: (b ++ e' :: tr₂) := by simp [ht, ha]
  have ⟨signature, verified, hs, hpath⟩ := forwards_granted h ht' hf
  have ⟨signature', verified', hs', hpath'⟩ := forwards_granted h ht hf'
  refine ⟨signature, signature', hs, hs', ?_⟩
  rintro rfl
  have hne : e.thread ≠ e'.thread := by
    intro he
    have hm := System.path_mem hm
    have ⟨outbound, ho⟩ := hf
    rw [he, hpath', List.mem_pair] at hm
    rcases hm with hm | hm <;> cases ho.symm.trans (congrArg Sigma.fst hm)
  have ⟨g, hg, hi, hG⟩ := exists_grants hpath
  have ⟨g', hg', hi', hG'⟩ := exists_grants hpath'
  have : Std.Symm fun e e' : (system env).Event =>
      ∀ signature, ¬(Grants e signature ∧ Grants e' signature) :=
    ⟨fun _ _ h signature hg => h signature hg.symm⟩
  refine (granted_once h hp).forall ?_ ?_ ?_ signature ⟨hG, hG'⟩
  · simp [ht', hg]
  · simp [ht, hg']
  · exact fun he => hne <| hi.symm.trans <| (congrArg _ he).trans hi'

end Claims
def Forwarded (e : (system env).Event) : Bool :=
  match e.op with
  | .fetch _ => true
  | _        => false

theorem forwarded_iff {e : (system env).Event} : Forwarded e = true ↔ Forwards e := by
  simp only [Forwarded, Forwards]
  split <;> simp_all

-- The claim comes before the signature expires.
def OnTime (e : (system env).Event) : Bool :=
  match e.op with
  | .claim _ _ expires => e.outcome.now ≤ expires
  | _                  => true

theorem prompt_of_onTime {tr : List (system env).Event} (h : tr.all OnTime) : Prompt tr := by
  refine List.pairwise_of_forall_mem_list fun e _ e' he' signature _ ho => ?_
  have he := List.all_eq_true.mp h e' he'
  simpa [OnTime, ho, Signature.claim] using he

end

section

attribute [local instance] Sample.httpSignatures

-- The second request is claimed a millisecond after the signature has expired.
theorem late_claim_forwarded_twice :
    ¬∀ tr C, (system Sample.env).Run tr C → tr.Pairwise fun e e' => Forwards e → Forwards e' →
      ∃ signature signature', e.call.signed = some signature ∧ e'.call.signed = some signature' ∧
        signature ≠ signature' := by
  have h : ((system Sample.env).replay [] ⟨(system Sample.env).init, []⟩
      (Sample.schedule 1305001 ++ [.step 1 (Sample.outcome 1305001)])).any fun x =>
        ((x.1.filter Forwarded).map fun e => e.call.signed) =
          [some ⟨"agent.example", "n-1", 1000⟩, some ⟨"agent.example", "n-1", 1000⟩] := by
    decide
  have ⟨⟨tr, C⟩, hr, h⟩ := (Option.any_eq_true _ _).mp h
  have ⟨e, l, hl, he, h⟩ := List.map_eq_cons_iff.mp (of_decide_eq_true h)
  have ⟨e', l', hl', he', _⟩ := List.map_eq_cons_iff.mp h
  have hf (e : (system Sample.env).Event) (hm : e ∈ tr.filter Forwarded) : Forwards e :=
    forwarded_iff.mp (List.mem_filter.mp hm).right
  intro hall
  have hp := (hall tr C <| System.replay_run .init hr).filter Forwarded
  rw [hl, hl'] at hp hf
  have ⟨_, _, hs, hs', hne⟩ := (List.pairwise_cons.mp hp).left e' (by simp) (hf e <| by simp)
    (hf e' <| by simp)
  cases hs.symm.trans he
  cases hs'.symm.trans he'
  exact hne rfl

theorem forwarded_once_replayed : ∃ tr C, (system Sample.env).Run tr C ∧ Prompt tr ∧
    C.returned 1 = some (.ok <| deny 401 "replay" "nonce already used") ∧
    tr.Pairwise fun e e' => Forwards e → Forwards e' → ∃ signature signature',
      e.call.signed = some signature ∧ e'.call.signed = some signature' ∧
      signature ≠ signature' := by
  have h : ((system Sample.env).replay [] ⟨(system Sample.env).init, []⟩
      (Sample.schedule 1305000)).any fun x => x.1.all OnTime ∧
        x.2.returned 1 = some (.ok <| deny 401 "replay" "nonce already used") := by
    decide
  have ⟨⟨tr, C⟩, hr, h⟩ := (Option.any_eq_true _ _).mp h
  have ⟨ht, hd⟩ := of_decide_eq_true h
  have hRun := System.replay_run .init hr
  have hp := prompt_of_onTime ht
  exact ⟨tr, C, hRun, hp, hd, forwarded_once hRun hp⟩

end
end Workers

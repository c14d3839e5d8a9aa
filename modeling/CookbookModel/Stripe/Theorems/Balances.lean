import CookbookModel.Stripe.Server

namespace Stripe

open GoString

section Credits

variable {l : Ledger} {account account' : GoString} {amount : Int64}

-- A positive amount is refused exactly if the sum is not a 64-bit integer.
theorem overflows_iff (h : 0 < amount.toInt) :
    l.get account > maxInt64 - amount ↔ 2 ^ 63 ≤ (l.get account).toInt + amount.toInt := by
  have hAmount := amount.toInt_lt
  have hRoom : (maxInt64 - amount).toInt = 2 ^ 63 - 1 - amount.toInt := by
    rw [Int64.toInt_sub, maxInt64, Int64.toInt_maxValue]
    exact Int.bmod_eq_of_le (by omega) (by omega)
  rw [gt_iff_lt, Int64.lt_iff_toInt_lt, hRoom]
  omega

theorem toInt_credited (h : 0 < amount.toInt)
    (hFits : (l.get account).toInt + amount.toInt < 2 ^ 63) :
    (l.get account + amount).toInt = (l.get account).toInt + amount.toInt := by
  have hBalance := (l.get account).le_toInt
  rw [Int64.toInt_add]
  exact Int.bmod_eq_of_le (by omega) (by omega)

theorem credit_refused (h : 0 < amount.toInt) :
    (l.credit account amount).1 = none ↔ 2 ^ 63 ≤ (l.get account).toInt + amount.toInt := by
  rw [←overflows_iff h, Ledger.credit]
  split <;> simp_all

-- What a credit that is not refused has come to.
theorem credit_accepted (h : 0 < amount.toInt) (hSome : (l.credit account amount).1 = some b) :
    b.toInt = (l.get account).toInt + amount.toInt ∧
    (l.credit account amount).2.get account = b := by
  have hFits : ¬2 ^ 63 ≤ (l.get account).toInt + amount.toInt := by
    rw [←credit_refused h, hSome]
    simp
  have hRoom := (overflows_iff h).not.mpr hFits
  simp only [Ledger.credit, if_neg hRoom, Option.some.injEq] at hSome ⊢
  subst hSome
  exact ⟨toInt_credited h (not_le.mp hFits), by simp [Ledger.get]⟩

theorem credit_none (h : (l.credit account amount).1 = none) : (l.credit account amount).2 = l := by
  unfold Ledger.credit at h ⊢
  split <;> simp_all

theorem credit_other (hn : account' ≠ account) :
    (l.credit account amount).2.get account' = l.get account' := by
  unfold Ledger.credit
  split
  case isTrue  => rfl
  case isFalse => simp [Ledger.get, GoMap.get_set_ne hn]

theorem amount_pos : ¬amount ≤ 0 ↔ 0 < amount.toInt := by
  rw [Int64.le_iff_toInt_le, Int64.toInt_zero, not_le]

end Credits

-- The steps of a request: it is verified, and then it reads or credits one account, a credit only
-- if the caller is a writer.
inductive Asks (writers : List GoString) : Request → List (Σ o, Op.Res o) → Op → Prop
  | verify {r : Request} : Asks writers r [] .verifyHTTPRequest
  | get {account caller : GoString} :
    Asks writers (.balance account) [⟨.verifyHTTPRequest, .ok caller⟩]
      (.get <| if account = [] then "acct_demo" else account)
  | credit {account caller : GoString} {amount : Int64} (hWriter : caller ∈ writers)
      (hAccount : account ≠ []) (hAmount : 0 < amount.toInt) :
    Asks writers (.credit <| some ⟨account, amount⟩) [⟨.verifyHTTPRequest, .ok caller⟩]
      (.credit account amount)

-- The balance of a request that succeeds is what the last of its steps has answered.
inductive Replies : List (Σ o, Op.Res o) → Balance → Prop
  | get {account caller : GoString} {b : Int64} :
    Replies [⟨.verifyHTTPRequest, .ok caller⟩, ⟨.get account, b⟩] ⟨account, b, caller⟩
  | credit {account caller : GoString} {amount b : Int64} :
    Replies [⟨.verifyHTTPRequest, .ok caller⟩, ⟨.credit account amount, some b⟩]
      ⟨account, b, caller⟩

section Steps

variable {writers : List GoString} {r : Request} {path : List (Σ o, Op.Res o)} {o : Op}
  {caller : GoString} {reply : Balance} {next : GoString → Handler Balance}

theorem authenticate_emits : (authenticate next).Emits path o ↔
    (path = [] ∧ o = .verifyHTTPRequest) ∨
    ∃ caller path', path = ⟨.verifyHTTPRequest, .ok caller⟩ :: path' ∧
      (next caller).Emits path' o := by
  rw [authenticate, Program.perform_bind, Program.emits_call]
  refine or_congr_right ⟨?mp, ?mpr⟩
  case mp =>
    rintro ⟨verdict, path', rfl, h⟩
    cases verdict
    case error     => simp at h
    case ok caller => exact ⟨caller, path', rfl, h⟩
  case mpr =>
    rintro ⟨caller, path', rfl, h⟩
    exact ⟨.ok caller, path', rfl, h⟩

theorem authenticate_returns : (authenticate next).Returns path reply ↔
    ∃ caller path', path = ⟨.verifyHTTPRequest, .ok caller⟩ :: path' ∧
      (next caller).Returns path' reply := by
  rw [authenticate, Program.perform_bind, Program.returns_call]
  constructor
  case mp =>
    rintro ⟨verdict, path', rfl, h⟩
    cases verdict
    case error     => simp at h
    case ok caller => exact ⟨caller, path', rfl, h⟩
  case mpr =>
    rintro ⟨caller, path', rfl, h⟩
    exact ⟨.ok caller, path', rfl, h⟩

theorem api_emits (h : (api writers caller r).Emits path o) :
    Asks writers r (⟨.verifyHTTPRequest, .ok caller⟩ :: path) o := by
  cases r
  case other => simp [api] at h
  case balance account =>
    rw [api, balance, Program.perform_bind, Program.emits_call] at h
    obtain ⟨rfl, rfl⟩ | ⟨_, _, _, h⟩ := h
    case inl => exact .get
    case inr => simp at h
  case credit body =>
    rw [api, credit, Program.emits_throwIf_bind, not_not] at h
    obtain ⟨hWriter, h⟩ := h
    split at h
    case h_1 => simp at h
    case h_2 body hBody =>
      obtain ⟨rfl, hValid⟩ := Option.filter_eq_some_iff.mp hBody
      obtain ⟨hAccount, hAmount⟩ := of_decide_eq_true hValid
      rw [Program.perform_bind, Program.emits_call] at h
      obtain ⟨rfl, rfl⟩ | ⟨answer, _, _, h⟩ := h
      case inl => exact .credit hWriter hAccount (amount_pos.mp hAmount)
      case inr => cases answer <;> simp at h

theorem api_returns (h : (api writers caller r).Returns path reply) :
    Replies (⟨.verifyHTTPRequest, .ok caller⟩ :: path) reply := by
  cases r
  case other => simp [api] at h
  case balance account =>
    rw [api, balance, Program.perform_bind, Program.returns_call] at h
    obtain ⟨b, path', rfl, h⟩ := h
    simp only [Program.pure_eq, Program.returns_done, Except.ok.injEq] at h
    obtain ⟨rfl, rfl⟩ := h
    exact .get
  case credit body =>
    rw [api, credit, Program.returns_throwIf_bind] at h
    obtain ⟨_, h⟩ := h
    split at h
    case h_1 => simp at h
    case h_2 body _ =>
      rw [Program.perform_bind, Program.returns_call] at h
      obtain ⟨answer, path', rfl, h⟩ := h
      cases answer
      case none => simp at h
      case some =>
        simp only [Program.pure_eq, Program.returns_done, Except.ok.injEq] at h
        obtain ⟨rfl, rfl⟩ := h
        exact .credit

theorem body_emits (h : ((system writers).body r).Emits path o) : Asks writers r path o := by
  obtain ⟨rfl, rfl⟩ | ⟨caller, path', rfl, hNext⟩ := authenticate_emits.mp h
  case inl => exact .verify
  case inr => exact api_emits hNext

theorem body_returns (h : ((system writers).body r).Returns path reply) : Replies path reply := by
  obtain ⟨caller, path', rfl, hNext⟩ := authenticate_returns.mp h
  exact api_returns hNext

end Steps

-- What a step adds to an account.
def added (account : GoString) : (Σ o, Op.Res o) → Int
  | ⟨.credit account' amount, some _⟩ => if account' = account then amount.toInt else 0
  | _                                 => 0

section Runs

variable {writers : List GoString} {r : Request} {path : List (Σ o, Op.Res o)} {o : Op}
  {l : Ledger} {verdict : Except GoString GoString}
  {tr tr₁ tr₂ : List (system writers).Event} {e : (system writers).Event}
  {C : (system writers).Config}

def opening (account : GoString) : Int :=
  if account = ofString "acct_demo" then 1000 else 0

-- What an account holds if no credit is lost and none is counted twice.
def total (account : GoString) (tr : List (system writers).Event) : Int :=
  tr.foldl (fun balance e => balance + added account ⟨e.op, e.response⟩) (opening account)

theorem total_append {account : GoString} :
    total account (tr ++ [e]) = total account tr + added account ⟨e.op, e.response⟩ := by
  simp [total]

-- The step is allowed, and a credit is refused exactly if the account cannot hold it.
structure Sound (tr : List (system writers).Event) (e : (system writers).Event) : Prop where
  asks    : Asks writers e.call (System.path e.thread tr) e.op
  refused : ∀ account amount answer,
    (⟨e.op, e.response⟩ : Σ o, Op.Res o) = ⟨.credit account amount, answer⟩ →
      (answer = none ↔ 2 ^ 63 ≤ total account tr + amount.toInt)

theorem toInt_book {account : GoString} : (book.get account).toInt = opening account := by
  by_cases h : account = ofString "acct_demo"
  case pos => subst h; simp [book, Ledger.get, opening]
  case neg => simp [book, Ledger.get, opening, GoMap.get_set_ne h, h]

theorem exec_get {account : GoString} (ha : Asks writers r path o) :
    ((exec o verdict l).2.get account).toInt =
      (l.get account).toInt + added account ⟨o, (exec o verdict l).1⟩ := by
  cases ha
  case verify => simp [exec, added]
  case get    => simp [exec, added]
  case credit account' _ amount _ _ hAmount =>
    simp only [exec]
    cases hc : (l.credit account' amount).1
    case none => simp [added, credit_none hc]
    case some b =>
      obtain ⟨hSum, hPost⟩ := credit_accepted hAmount hc
      by_cases he : account' = account
      case pos => subst he; simp [added, hPost, hSum]
      case neg => simp [added, he, credit_other (Ne.symm he)]

theorem exec_refused {account : GoString} {amount : Int64} {answer : Option Int64}
    (ha : Asks writers r path o)
    (h : (⟨o, (exec o verdict l).1⟩ : Σ o, Op.Res o) = ⟨.credit account amount, answer⟩) :
    answer = none ↔ 2 ^ 63 ≤ (l.get account).toInt + amount.toInt := by
  obtain ⟨rfl, h⟩ := Sigma.mk.inj_iff.mp h
  rw [←eq_of_heq h]
  cases ha
  case credit hAmount => exact credit_refused hAmount

-- Whoever is told a balance is told what the account holds after the step.
theorem exec_read {account : GoString} {b : Int64}
    (h : (⟨o, (exec o verdict l).1⟩ : Σ o, Op.Res o) = ⟨.get account, b⟩) :
    (exec o verdict l).2.get account = b := by
  obtain ⟨rfl, h⟩ := Sigma.mk.inj_iff.mp h
  exact eq_of_heq h

theorem exec_credited {account : GoString} {amount b : Int64} (ha : Asks writers r path o)
    (h : (⟨o, (exec o verdict l).1⟩ : Σ o, Op.Res o) = ⟨.credit account amount, some b⟩) :
    (exec o verdict l).2.get account = b := by
  obtain ⟨rfl, h⟩ := Sigma.mk.inj_iff.mp h
  cases ha
  case credit hAmount => exact (credit_accepted hAmount (eq_of_heq h)).right

theorem store_total (h : (system writers).Run tr C) :
    ∀ account, (C.store.get account).toInt = total account tr := by
  refine h.induction (I := fun tr l => ∀ account, (l.get account).toInt = total account tr)
    (fun account => by simp [total, system, toInt_book]) ?_
  intro tr e hi he _ account
  rw [total_append, ←hi account]
  exact exec_get (body_emits he)

theorem event_sound (h : (system writers).Run tr C) : System.Each Sound tr := by
  intro tr₁ e tr₂ he
  obtain ⟨C', hRun, hStore⟩ := h.event_run he
  have hAsks := body_emits (h.event_emits he)
  refine ⟨hAsks, fun account amount answer hAnswer => ?_⟩
  rw [←store_total hRun account, hStore]
  exact exec_refused hAsks hAnswer

theorem post_total (h : (system writers).Run tr C) (he : tr = tr₁ ++ e :: tr₂)
    (account : GoString) : (e.post.get account).toInt = total account (tr₁ ++ [e]) := by
  obtain ⟨C', hRun, hStore⟩ := h.event_run he
  rw [total_append, ←store_total hRun account, hStore]
  exact exec_get (body_emits (h.event_emits he))

theorem reply_total {reply : Balance} (h : (system writers).Run tr C)
    (hr : C.returned i = some (.ok reply)) :
    ∃ tr₁ e tr₂, tr = tr₁ ++ e :: tr₂ ∧ e.thread = i ∧
      reply.balance.toInt = total reply.account (tr₁ ++ [e]) := by
  obtain ⟨c, hThread⟩ : ∃ c, C.threads[i]? = some ⟨c, .done <| .ok reply⟩ := by
    rw [System.Config.returned] at hr
    split at hr <;> simp_all
  have hReturns := body_returns (h.reaches hThread)
  generalize hPath : System.path i tr = path at hReturns
  cases hReturns
  case get caller account b =>
    obtain ⟨tr₁, e, tr₂, he, hi, hStep, _⟩ := System.path_eq_append (p := [_]) hPath
    exact ⟨tr₁, e, tr₂, he, hi, by rw [←post_total h he, ←exec_read hStep]; rfl⟩
  case credit caller account amount b =>
    obtain ⟨tr₁, e, tr₂, he, hi, hStep, _⟩ := System.path_eq_append (p := [_]) hPath
    have hAsks := body_emits (h.event_emits he)
    exact ⟨tr₁, e, tr₂, he, hi, by rw [←post_total h he, ←exec_credited hAsks hStep]; rfl⟩

-- However requests interleave, every account holds what it has been opened with and what has been
-- credited to it, and whoever is told a balance is told that.
theorem balances_exact (h : (system writers).Run tr C) :
    (∀ account, (C.store.get account).toInt = total account tr) ∧ System.Each Sound tr ∧
    ∀ i reply, C.returned i = some (.ok reply) →
      ∃ tr₁ e tr₂, tr = tr₁ ++ e :: tr₂ ∧ e.thread = i ∧
        reply.balance.toInt = total reply.account (tr₁ ++ [e]) :=
  ⟨store_total h, event_sound h, fun _ _ hr => reply_total h hr⟩

-- Two credits at the same time, for only one of which there is room
def filled : List (System.Action (Except GoString GoString) Request) :=
  [.spawn <| .credit <| some ⟨"acct_demo", 200⟩,
    .spawn <| .credit <| some ⟨"acct_demo", maxInt64 - 1100⟩,
    .step 1 <| .ok "payer", .step 0 <| .ok "payer", .step 0 <| .ok [], .step 1 <| .ok [],
    .spawn <| .balance [], .step 2 <| .ok "reader", .step 2 <| .ok []]

theorem balances_exact_filled : ∃ tr C, (system ["payer"]).Run tr C ∧
    C.returned 1 = some (.error ⟨400, "credit would overflow balance"⟩) ∧
    C.returned 2 = some (.ok ⟨"acct_demo", 1200, "reader"⟩) ∧
    ∀ account, (C.store.get account).toInt = total account tr := by
  have h : ((system ["payer"]).replay [] ⟨(system ["payer"]).init, []⟩ filled).any fun x =>
      x.2.returned 1 = some (.error ⟨400, "credit would overflow balance"⟩) ∧
      x.2.returned 2 = some (.ok ⟨"acct_demo", 1200, "reader"⟩) := by
    decide
  obtain ⟨⟨tr, C⟩, hr, h⟩ := (Option.any_eq_true _ _).mp h
  obtain ⟨hRefused, hTold⟩ := of_decide_eq_true h
  have hRun := System.replay_run .init hr
  exact ⟨tr, C, hRun, hRefused, hTold, (balances_exact hRun).left⟩

end Runs

end Stripe

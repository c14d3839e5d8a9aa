import CookbookModel.Library.Program

-- Any number of calls that run concurrently against one shared object. The calls interleave at the
-- object's operations, each of which is one atomic step. An outcome `ω` resolves what the object's
-- surroundings decide about a step: a clock reading, a random number, a failure.
structure System (Op : Type) (Res : Op → Type) (ε α σ ω Call : Type) where
  init : σ
  body : Call → Program Op Res ε α
  exec : (o : Op) → ω → σ → Res o × σ
  may  : Op → ω → σ → Bool

namespace System

variable {Op : Type} {Res : Op → Type} {ε α σ ω Call : Type}

structure Thread (S : System Op Res ε α σ ω Call) where
  call : Call
  rest : Program Op Res ε α

structure Config (S : System Op Res ε α σ ω Call) where
  store   : σ
  threads : List S.Thread

-- A step that was taken, with the state it was taken in.
structure Event (S : System Op Res ε α σ ω Call) where
  thread  : Nat
  call    : Call
  op      : Op
  outcome : ω
  store   : σ

variable {S : System Op Res ε α σ ω Call}

-- What the call of a thread has come to, if it is done.
def Config.returned (C : S.Config) (i : Nat) : Option (Except ε α) :=
  match C.threads[i]? with
  | some ⟨_, .done r⟩ => some r
  | _                 => none

namespace Event

def response (e : S.Event) : Res e.op :=
  (S.exec e.op e.outcome e.store).1

def post (e : S.Event) : σ :=
  (S.exec e.op e.outcome e.store).2

end Event

-- A run and the events it has seen, in order.
inductive Run (S : System Op Res ε α σ ω Call) : List S.Event → S.Config → Prop
  | init  : Run S [] ⟨S.init, []⟩
  | spawn : Run S tr C → Run S tr ⟨C.store, C.threads ++ [⟨c, S.body c⟩]⟩
  | step  : Run S tr C → C.threads[i]? = some ⟨c, .call o k⟩ → S.may o w C.store →
      Run S (tr ++ [⟨i, c, o, w, C.store⟩])
        ⟨(S.exec o w C.store).2, C.threads.set i ⟨c, k (S.exec o w C.store).1⟩⟩

-- What the thread `i` has done.
def path (i : Nat) (tr : List S.Event) : List (Σ o, Res o) :=
  (tr.filter (·.thread = i)).map fun e => ⟨e.op, e.response⟩

theorem path_append : path i (tr ++ tr') = path i tr ++ path i tr' := by
  simp [path]

theorem path_eq_nil {tr : List S.Event} (h : ∀ e ∈ tr, e.thread ≠ i) : path i tr = [] := by
  simpa [path] using h

theorem path_mem {tr : List S.Event} (h : e ∈ tr) :
    (⟨e.op, e.response⟩ : Σ o, Res o) ∈ path e.thread tr :=
  List.mem_map_of_mem (f := fun e : S.Event => (⟨e.op, e.response⟩ : Σ o, Res o)) <|
    List.mem_filter.mpr ⟨h, decide_eq_true rfl⟩

theorem mem_path (h : ⟨o, r⟩ ∈ path i tr) :
    ∃ e ∈ tr, e.thread = i ∧ (⟨e.op, e.response⟩ : Σ o, Res o) = ⟨o, r⟩ := by
  have ⟨e, he, heq⟩ := List.mem_map.mp h
  have ⟨he, hi⟩ := List.mem_filter.mp he
  exact ⟨e, he, by simpa using hi, heq⟩

-- Where a thread has taken the step that follows `p`.
theorem path_eq_append {tr : List S.Event} (h : path i tr = p ++ ⟨o, r⟩ :: q) :
    ∃ tr₁ e tr₂, tr = tr₁ ++ e :: tr₂ ∧ e.thread = i ∧
      (⟨e.op, e.response⟩ : Σ o, Res o) = ⟨o, r⟩ ∧ path i tr₁ = p ∧ path i tr₂ = q := by
  have ⟨l₁, l₂, hl, h₁, h₂⟩ := List.map_eq_append_iff.mp h
  have ⟨e, l₃, hl₂, he, h₃⟩ := List.map_eq_cons_iff.mp h₂
  rw [hl₂] at hl
  have ⟨tr₁, tr', hTr, hf₁, hf₂⟩ := List.filter_eq_append_iff.mp hl
  have ⟨tr₂, tr₃, hTr', hn, hi, hf₃⟩ := List.filter_eq_cons_iff.mp hf₂
  refine ⟨tr₁ ++ tr₂, e, tr₃, by simp [hTr, hTr'], by simpa using hi, he, ?_, ?_⟩
  · have hn : path i tr₂ = [] := path_eq_nil fun e he => by simpa using hn e he
    rw [path_append, hn, List.append_nil, path, hf₁, h₁]
  · rw [path, hf₃, h₃]

-- Every event satisfies `P`, given those before it.
def Each (P : List S.Event → S.Event → Prop) (tr : List S.Event) : Prop :=
  ∀ {tr₁ e tr₂}, tr = tr₁ ++ e :: tr₂ → P tr₁ e

@[simp]
theorem each_nil {P : List S.Event → S.Event → Prop} : Each P [] := by
  simp [Each]

@[simp]
theorem each_append_singleton {P : List S.Event → S.Event → Prop} :
    Each P (tr ++ [e]) ↔ Each P tr ∧ P tr e := by
  constructor
  case mp =>
    intro h
    refine ⟨fun {tr₁ e' tr₂} he => ?_, h rfl⟩
    have he' : tr ++ [e] = tr₁ ++ e' :: (tr₂ ++ [e]) := by simp [he]
    exact h he'
  case mpr =>
    rintro ⟨h, hP⟩ tr₁ e' tr₂ he
    rcases List.eq_nil_or_concat tr₂ with rfl | ⟨tr₂', e'', rfl⟩
    case inl =>
      have ⟨h₁, h₂⟩ := List.append_inj' he rfl
      cases h₂
      exact h₁ ▸ hP
    case inr =>
      rw [List.concat_eq_append, ←List.cons_append, ←List.append_assoc] at he
      exact h (List.append_inj' he rfl).left

-- What holds of every event and the ones before it.
theorem pairwise_of_each {R : S.Event → S.Event → Prop} {tr : List S.Event}
    (h : Each (fun tr₁ e' => ∀ e ∈ tr₁, R e e') tr) : tr.Pairwise R := by
  refine List.pairwise_iff_forall_sublist.mpr fun {e e'} hs => ?_
  have ⟨r₁, r₂, ht, hm, hs⟩ := List.cons_sublist_iff.mp hs
  have ⟨s₁, s₂, hr⟩ := List.append_of_mem (List.singleton_sublist.mp hs)
  have ht : tr = (r₁ ++ s₁) ++ e' :: s₂ := by simp [ht, hr]
  exact h ht e (List.mem_append_left _ hm)

-- Consecutive events: each is taken in the state that the one before has led to.
inductive Steps (S : System Op Res ε α σ ω Call) : σ → List S.Event → σ → Prop
  | nil  : Steps S s [] s
  | cons : Steps S e.post es s' → Steps S e.store (e :: es) s'

namespace Steps

theorem snoc (h : S.Steps s es s') (he : e.store = s') : S.Steps s (es ++ [e]) e.post := by
  induction h
  case nil     => exact he ▸ .cons .nil
  case cons hi => exact .cons (hi he)

theorem of_append (h : S.Steps s (es₁ ++ es₂) s') :
    ∃ s₁, S.Steps s es₁ s₁ ∧ S.Steps s₁ es₂ s' := by
  induction es₁ generalizing s
  case nil => exact ⟨s, .nil, h⟩
  case cons e es₁ hi =>
    cases h
    case cons h =>
      have ⟨s₁, h₁, h₂⟩ := hi h
      exact ⟨s₁, .cons h₁, h₂⟩

theorem of_cons (h : S.Steps s (e :: es) s') : e.store = s ∧ S.Steps e.post es s' := by
  cases h
  case cons h => exact ⟨rfl, h⟩

end Steps

-- A schedule: which call starts or moves next, and with which outcome.
inductive Action (ω Call : Type)
  | spawn (c : Call)
  | step (i : Nat) (w : ω)

def act (S : System Op Res ε α σ ω Call) (tr : List S.Event) (C : S.Config) :
    Action ω Call → Option (List S.Event × S.Config)
  | .spawn c  => some (tr, ⟨C.store, C.threads ++ [⟨c, S.body c⟩]⟩)
  | .step i w =>
    match C.threads[i]? with
    | some ⟨c, .call o k⟩ =>
      if S.may o w C.store then
        some (tr ++ [⟨i, c, o, w, C.store⟩],
          ⟨(S.exec o w C.store).2, C.threads.set i ⟨c, k (S.exec o w C.store).1⟩⟩)
      else
        none
    | _ => none

def replay (S : System Op Res ε α σ ω Call) (tr : List S.Event) (C : S.Config) :
    List (Action ω Call) → Option (List S.Event × S.Config)
  | [] => some (tr, C)
  | a :: as => (S.act tr C a).bind fun (tr, C) => S.replay tr C as

theorem act_run (h : S.Run tr C) (ha : S.act tr C a = some (tr', C')) : S.Run tr' C' := by
  cases a
  case spawn c =>
    simp only [act, Option.some.injEq, Prod.mk.injEq] at ha
    exact ha.left ▸ ha.right ▸ h.spawn
  case step i w =>
    simp only [act] at ha
    split at ha <;> try contradiction
    case _ ht =>
      split at ha <;> try contradiction
      case _ hw =>
        simp only [Option.some.injEq, Prod.mk.injEq] at ha
        exact ha.left ▸ ha.right ▸ h.step ht hw

theorem replay_run (h : S.Run tr C) (ha : S.replay tr C as = some (tr', C')) : S.Run tr' C' := by
  induction as generalizing tr C
  case nil =>
    simp only [replay, Option.some.injEq, Prod.mk.injEq] at ha
    exact ha.left ▸ ha.right ▸ h
  case cons a as hi =>
    have ⟨⟨_, _⟩, ha₁, ha₂⟩ := Option.bind_eq_some_iff.mp ha
    exact hi (act_run h ha₁) ha₂

theorem mem_set_cases {t t' : S.Thread} {ts : List S.Thread} (h : t ∈ ts.set i t') :
    t = t' ∨ t ∈ ts :=
  (List.mem_or_eq_of_mem_set h).symm

namespace Run

variable {P : Call → Op → Prop}

theorem always (hb : ∀ c, (S.body c).Always (P c)) (h : S.Run tr C) :
    ∀ t ∈ C.threads, t.rest.Always (P t.call) := by
  induction h
  case init => simp
  case spawn hi =>
    intro t ht
    cases List.mem_append.mp ht
    case inl ht => exact hi t ht
    case inr ht => exact List.mem_singleton.mp ht ▸ hb _
  case step i c o k w _ ht _ hi =>
    intro t ht'
    cases mem_set_cases ht'
    case inl he => exact he ▸ (hi _ <| List.mem_of_getElem? ht).right _
    case inr hm => exact hi t hm

-- What holds initially and is preserved by every operation that a call can reach holds throughout.
theorem invariant {I : List S.Event → σ → Prop} (hb : ∀ c, (S.body c).Always (P c))
    (h₀ : I [] S.init)
    (hs : ∀ {tr s i c o w}, I tr s → P c o → S.may o w s →
      I (tr ++ [⟨i, c, o, w, s⟩]) (S.exec o w s).2)
    (h : S.Run tr C) : I tr C.store := by
  induction h
  case init  => exact h₀
  case spawn => assumption
  case step h ht hw hi => exact hs hi (h.always hb _ <| List.mem_of_getElem? ht).left hw

theorem thread_lt (h : S.Run tr C) : ∀ e ∈ tr, e.thread < C.threads.length := by
  induction h
  case init     => simp
  case spawn hi =>
    intro e he
    have := hi e he
    simp only [List.length_append, List.length_singleton]
    omega
  case step ht _ hi =>
    intro e he
    rw [List.length_set]
    cases List.mem_append.mp he
    case inl he => exact hi e he
    case inr he =>
      rw [List.mem_singleton.mp he]
      exact (List.getElem?_eq_some_iff.mp ht).choose

-- The thread of an event is the one of its call.
theorem thread_call (h : S.Run tr C) (he : e ∈ tr) :
    ∃ t, C.threads[e.thread]? = some t ∧ t.call = e.call := by
  induction h
  case init => simp at he
  case spawn h hi =>
    have ⟨t, ht, hc⟩ := hi he
    exact ⟨t, by rw [List.getElem?_append_left (h.thread_lt e he), ht], hc⟩
  case step i c o k w h ht' _ hi =>
    have hl := (List.getElem?_eq_some_iff.mp ht').choose
    by_cases hj : i = e.thread
    case pos =>
      refine ⟨_, by rw [←hj, List.getElem?_set_self hl], ?_⟩
      cases List.mem_append.mp he
      case inl he =>
        have ⟨t, ht, hc⟩ := hi he
        cases ht'.symm.trans (hj ▸ ht)
        exact hc
      case inr he => cases List.mem_singleton.mp he; rfl
    case neg =>
      rw [List.getElem?_set_ne hj]
      cases List.mem_append.mp he
      case inl he => exact hi he
      case inr he => exact absurd (by rw [List.mem_singleton.mp he]) hj

-- What a thread has done so far follows the program of its call.
theorem reaches (h : S.Run tr C) (ht : C.threads[i]? = some t) :
    (S.body t.call).Reaches (path i tr) t.rest := by
  induction h generalizing t
  case init => simp at ht
  case spawn c h hi =>
    rw [List.getElem?_append] at ht
    split at ht
    case isTrue => exact hi ht
    case isFalse hl =>
      have hn : path i _ = [] := path_eq_nil fun e he hi => hl <| hi ▸ h.thread_lt e he
      rw [List.getElem?_singleton] at ht
      split at ht <;> cases ht
      exact hn ▸ .here
  case step j o w c k h ht' _ hi =>
    rw [path_append]
    by_cases hj : j = i
    case pos =>
      subst hj
      have hl := (List.getElem?_eq_some_iff.mp ht').choose
      rw [List.getElem?_set_self hl] at ht
      cases ht
      simpa [path, Event.response] using (hi ht').snoc _
    case neg =>
      rw [List.getElem?_set_ne hj] at ht
      simpa [path, hj] using hi ht

-- Every prefix of the events of a run is itself a run.
theorem event_run (h : S.Run tr C) (he : tr = tr₁ ++ e :: tr₂) :
    ∃ C', S.Run tr₁ C' ∧ C'.store = e.store := by
  induction h generalizing tr₂
  case init  => simp at he
  case spawn hi => exact hi he
  case step h _ _ hi =>
    cases List.eq_nil_or_concat tr₂
    case inl hn =>
      subst hn
      have ⟨h₁, h₂⟩ := List.append_inj' he rfl
      cases h₂
      exact ⟨_, h₁ ▸ h, rfl⟩
    case inr hn =>
      have ⟨tr₂', e', hn⟩ := hn
      subst hn
      rw [List.concat_eq_append, ←List.cons_append, ←List.append_assoc] at he
      exact hi (List.append_inj' he rfl).left

theorem event_emits (h : S.Run tr C) (he : tr = tr₁ ++ e :: tr₂) :
    (S.body e.call).Emits (path e.thread tr₁) e.op := by
  induction h generalizing tr₂
  case init  => simp at he
  case spawn hi => exact hi he
  case step h ht _ hi =>
    cases List.eq_nil_or_concat tr₂
    case inl hn =>
      subst hn
      have ⟨h₁, h₂⟩ := List.append_inj' he rfl
      cases h₂
      exact h₁ ▸ ⟨_, h.reaches ht⟩
    case inr hn =>
      have ⟨tr₂', e', hn⟩ := hn
      subst hn
      rw [List.concat_eq_append, ←List.cons_append, ←List.append_assoc] at he
      exact hi (List.append_inj' he rfl).left

-- What holds initially and is preserved by every step that a call takes holds throughout.
theorem induction {I : List S.Event → σ → Prop} (h₀ : I [] S.init)
    (hs : ∀ {tr e}, I tr e.store → (S.body e.call).Emits (path e.thread tr) e.op →
      S.may e.op e.outcome e.store → I (tr ++ [e]) e.post)
    (h : S.Run tr C) : I tr C.store := by
  induction h
  case init  => exact h₀
  case spawn => assumption
  case step i o w c k h ht hw hi => exact hs (e := ⟨i, c, o, w, _⟩) hi ⟨_, h.reaches ht⟩ hw

theorem steps (h : S.Run tr C) : S.Steps S.init tr C.store := by
  induction h
  case init  => exact .nil
  case spawn => assumption
  case step i o w c k h ht hw hi => exact hi.snoc (e := ⟨i, c, o, w, _⟩) rfl

-- The steps from one event of a run to a later one.
theorem steps_between (h : S.Run tr C) (he : tr = tr₁ ++ e₁ :: tr₂ ++ e₂ :: tr₃) :
    S.Steps e₁.store (e₁ :: tr₂) e₂.store := by
  have hs := he ▸ h.steps
  have ⟨s₂, hs₂, hs₃⟩ := hs.of_append
  have ⟨s₁, _, hs₁⟩ := hs₂.of_append
  exact hs₁.of_cons.left ▸ hs₃.of_cons.left ▸ hs₁

end Run

-- A run with an observer, who has come at some point of it and looks at the state now and then.
-- `seen` has the events since then, each with what the observer knew when it was taken.
inductive Observed (S : System Op Res ε α σ ω Call) (Look : σ → ρ → ρ → Prop) (r₀ : ρ) :
    List (ρ × S.Event) → List S.Event → S.Config → ρ → Prop
  | start : Run S tr C → Observed S Look r₀ [] tr C r₀
  | spawn : Observed S Look r₀ seen tr C r →
      Observed S Look r₀ seen tr ⟨C.store, C.threads ++ [⟨c, S.body c⟩]⟩ r
  | step  : Observed S Look r₀ seen tr C r → C.threads[i]? = some ⟨c, .call o k⟩ →
      S.may o w C.store →
      Observed S Look r₀ (seen ++ [(r, ⟨i, c, o, w, C.store⟩)]) (tr ++ [⟨i, c, o, w, C.store⟩])
        ⟨(S.exec o w C.store).2, C.threads.set i ⟨c, k (S.exec o w C.store).1⟩⟩ r
  | look  : Observed S Look r₀ seen tr C r → Look C.store r r' → Observed S Look r₀ seen tr C r'

namespace Observed

variable {ρ : Type} {Look : σ → ρ → ρ → Prop} {r₀ r : ρ} {seen : List (ρ × S.Event)}

theorem run (h : S.Observed Look r₀ seen tr C r) : S.Run tr C := by
  induction h
  case start h       => exact h
  case spawn hi      => exact hi.spawn
  case step ht hw hi => exact hi.step ht hw
  case look          => assumption

-- What holds when the observer comes and is preserved by every step and every look holds
-- throughout.
theorem induction {I : List (ρ × S.Event) → σ → ρ → Prop}
    (h₀ : ∀ {tr C}, S.Run tr C → I [] C.store r₀)
    (hs : ∀ {seen tr e r C}, S.Run tr C → C.store = e.store → I seen e.store r →
      (S.body e.call).Emits (path e.thread tr) e.op → I (seen ++ [(r, e)]) e.post r)
    (hl : ∀ {seen tr r r' C}, S.Run tr C → I seen C.store r → Look C.store r r' →
      I seen C.store r')
    (h : S.Observed Look r₀ seen tr C r) : I seen C.store r := by
  induction h
  case start h => exact h₀ h
  case spawn   => assumption
  case step i o w c k h ht _ hi =>
    exact hs (e := ⟨i, c, o, w, _⟩) h.run rfl hi ⟨_, h.run.reaches ht⟩
  case look h hLook hi => exact hl h.run hi hLook

theorem act (h : S.Observed Look r₀ seen tr C r) (ha : S.act tr C a = some (tr', C')) :
    ∃ seen', S.Observed Look r₀ seen' tr' C' r := by
  cases a
  case spawn c =>
    simp only [System.act, Option.some.injEq, Prod.mk.injEq] at ha
    exact ⟨_, ha.left ▸ ha.right ▸ h.spawn⟩
  case step i w =>
    simp only [System.act] at ha
    split at ha <;> try contradiction
    case _ ht =>
      split at ha <;> try contradiction
      case _ hw =>
        simp only [Option.some.injEq, Prod.mk.injEq] at ha
        exact ⟨_, ha.left ▸ ha.right ▸ h.step ht hw⟩

theorem replay (h : S.Observed Look r₀ seen tr C r) (ha : S.replay tr C as = some (tr', C')) :
    ∃ seen', S.Observed Look r₀ seen' tr' C' r := by
  induction as generalizing seen tr C
  case nil =>
    simp only [System.replay, Option.some.injEq, Prod.mk.injEq] at ha
    exact ⟨_, ha.left ▸ ha.right ▸ h⟩
  case cons a as hi =>
    have ⟨⟨_, _⟩, ha₁, ha₂⟩ := Option.bind_eq_some_iff.mp ha
    have ⟨_, h⟩ := h.act ha₁
    exact hi h ha₂

end Observed
end System

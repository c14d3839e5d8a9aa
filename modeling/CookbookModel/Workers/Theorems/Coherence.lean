import CookbookModel.Workers.Setup

namespace Workers

namespace Module

section

variable {Env κ ε ν : Type} {m m₁ m₂ : Module κ ε ν} {config : κ}
  {promise : Promise κ ε ν} {i : Nat}

-- What a promise can have become later on.
structure Later (promise promise' : Promise κ ε ν) : Prop where
  config  : promise'.config = promise.config
  caught  : promise.caught = true → promise'.caught = true
  outcome : ∀ {outcome}, promise.outcome = some outcome → promise'.outcome = some outcome

theorem Later.refl : Later promise promise :=
  ⟨rfl, id, id⟩

theorem Later.trans {p₁ p₂ p₃ : Promise κ ε ν} (h₁ : Later p₁ p₂) (h₂ : Later p₂ p₃) :
    Later p₁ p₃ :=
  ⟨h₂.config.trans h₁.config, h₂.caught ∘ h₁.caught, h₂.outcome ∘ h₁.outcome⟩

theorem setup_old (h : m.promises[i]? = some promise) :
    (m.setup config).2.promises[i]? = some promise := by
  have ⟨hi, _⟩ := List.getElem?_eq_some_iff.mp h
  rw [Module.setup, List.getElem?_append_left hi, h]

theorem setup_new :
    (m.setup config).2.promises[m.promises.length]? = some { config } := by
  simp [Module.setup]

-- What is cached has the configuration, and its rejection handler has not run. What has settled has
-- come to what its configuration can come to.
structure Sound (creates : κ → Except ε ν → Prop) (m : Module κ ε ν) : Prop where
  cached  : ∀ {config i}, m.cachedSetup = some ⟨config, i⟩ →
    ∃ promise, m.promises[i]? = some promise ∧ promise.config = config ∧ promise.caught = false
  created : ∀ {i : Nat} {promise : Promise κ ε ν} {outcome}, m.promises[i]? = some promise →
    promise.outcome = some outcome → creates promise.config outcome

variable {creates : κ → Except ε ν → Prop}

theorem Sound.setup (h : Sound creates m) : Sound creates (m.setup config).2 where
  cached he := by
    cases he
    exact ⟨_, setup_new, rfl, rfl⟩
  created {i promise outcome} hp ho := by
    by_cases hi : i < m.promises.length
    case pos =>
      rw [Module.setup, List.getElem?_append_left hi] at hp
      exact h.created hp ho
    case neg =>
      rw [Module.setup, List.getElem?_append_right (Nat.le_of_not_lt hi)] at hp
      have hMem := List.mem_of_getElem? hp
      simp only [List.mem_singleton] at hMem
      simp [hMem] at ho

variable [DecidableEq κ]

-- What a call does: it takes the cached setup if that has the configuration, and starts one if not.
theorem getHandler_cases (config : κ) (m : Module κ ε ν) :
    (m.cachedSetup = some ⟨config, (m.getHandler config).1⟩ ∧ (m.getHandler config).2 = m) ∨
    ((∀ i, m.cachedSetup ≠ some ⟨config, i⟩) ∧ m.getHandler config = m.setup config) := by
  unfold getHandler
  cases m.cachedSetup
  case none        => exact .inr ⟨fun _ => nofun, rfl⟩
  case some cached =>
    have ⟨config', i⟩ := cached
    by_cases he : config' = config
    case pos => exact .inl ⟨by simp [he], by simp [he]⟩
    case neg => exact .inr ⟨fun i h => he (by cases h; rfl), by simp [he]⟩

theorem Sound.getHandler (h : Sound creates m) : Sound creates (m.getHandler config).2 := by
  cases getHandler_cases config m
  case inl hCases => rw [hCases.right]; exact h
  case inr hCases => rw [hCases.right]; exact h.setup

-- A call receives a promise of its configuration, whose rejection handler has not run.
theorem Sound.received (h : Sound creates m) (config : κ) : ∃ promise,
    (m.getHandler config).2.promises[(m.getHandler config).1]? = some promise ∧
    promise.config = config ∧ promise.caught = false := by
  cases getHandler_cases config m
  case inl hCases => rw [hCases.right]; exact h.cached hCases.left
  case inr hCases => rw [hCases.right]; exact ⟨_, setup_new, rfl, rfl⟩

theorem getHandler_old (h : m.promises[i]? = some promise) :
    (m.getHandler config).2.promises[i]? = some promise := by
  cases getHandler_cases config m
  case inl hCases => rw [hCases.right, h]
  case inr hCases => rw [hCases.right, setup_old h]

end

section

variable {Env κ ε ν : Type} [DecidableEq κ] {m m₁ m₂ m₃ : Module κ ε ν} {config : κ}
  {promise : Promise κ ε ν} {i : Nat} {creates : κ → Except ε ν → Prop} {configOf : Env → κ}
  {e : Event Env ε ν} {es es' : List (Event Env ε ν)}

theorem Step.later (h : Step (fun env => getHandler (configOf env)) creates m₁ e m₂)
    (hp : m₁.promises[i]? = some promise) :
    ∃ promise', m₂.promises[i]? = some promise' ∧ Later promise promise' := by
  cases h
  case call env => exact ⟨promise, getHandler_old hp, .refl⟩
  case settle j promise' outcome hNone _ hj =>
    simp only [Module.settle, List.getElem?_modify, hp]
    by_cases he : j = i
    case neg => exact ⟨promise, by simp [he], .refl⟩
    case pos =>
      subst he
      cases hj.symm.trans hp
      exact ⟨{ promise with outcome := some outcome }, by simp, rfl, id, fun ho => by simp [hNone] at ho⟩
  case caught j promise' failure _ _ hj =>
    simp only [onRejected, List.getElem?_modify, hp]
    by_cases he : j = i
    case neg => exact ⟨promise, by simp [he], .refl⟩
    case pos => exact ⟨{ promise with caught := true }, by simp [he], rfl, fun _ => rfl, id⟩

theorem Step.sound (h : Step (fun env => getHandler (configOf env)) creates m₁ e m₂)
    (hs : Sound creates m₁) : Sound creates m₂ := by
  cases h
  case call env => exact hs.getHandler
  case settle j promise outcome _ hCreates hj =>
    constructor
    case cached =>
      intro config i hc
      have ⟨p, hp, hConfig, hCaught⟩ := hs.cached hc
      simp only [Module.settle, List.getElem?_modify, hp]
      by_cases he : j = i
      case neg => exact ⟨p, by simp [he], hConfig, hCaught⟩
      case pos => exact ⟨{ p with outcome := some outcome }, by simp [he], hConfig, hCaught⟩
    case created =>
      intro i p outcome' hp ho
      simp only [Module.settle, List.getElem?_modify] at hp
      by_cases he : j = i
      case neg => exact hs.created (by simpa [he] using hp) ho
      case pos =>
        subst he
        simp only [if_true, hj] at hp
        cases hp
        cases ho
        exact hCreates
  case caught j promise failure _ _ hj =>
    constructor
    case cached =>
      intro config i hc
      simp only [onRejected] at hc
      split at hc
      case isTrue     => contradiction
      case isFalse hn =>
        have ⟨p, hp, hConfig, hCaught⟩ := hs.cached hc
        have he : j ≠ i := by
          rintro rfl
          simp [hc] at hn
        exact ⟨p, by simp [onRejected, hp, he], hConfig, hCaught⟩
    case created =>
      intro i p outcome hp ho
      simp only [onRejected, List.getElem?_modify] at hp
      have ⟨p', hp', he⟩ := Option.map_eq_some_iff.mp hp
      have hSame : p.config = p'.config ∧ p.outcome = p'.outcome := by
        rw [←he]
        split <;> exact ⟨rfl, rfl⟩
      exact hSame.left ▸ hs.created hp' (hSame.right ▸ ho)

namespace Steps

theorem sound (h : Steps (fun env => getHandler (configOf env)) creates m₁ es m₂)
    (hs : Sound creates m₁) : Sound creates m₂ := by
  induction h
  case refl            => exact hs
  case cons hStep _ hi => exact hi (hStep.sound hs)

theorem later (h : Steps (fun env => getHandler (configOf env)) creates m₁ es m₂)
    (hp : m₁.promises[i]? = some promise) :
    ∃ promise', m₂.promises[i]? = some promise' ∧ Later promise promise' := by
  induction h generalizing promise
  case refl            => exact ⟨promise, hp, .refl⟩
  case cons hStep _ hi =>
    have ⟨p₁, hp₁, h₁⟩ := hStep.later hp
    have ⟨p₂, hp₂, h₂⟩ := hi hp₁
    exact ⟨p₂, hp₂, h₁.trans h₂⟩

omit [DecidableEq κ] in
theorem split {get : Env → Module κ ε ν → Nat × Module κ ε ν}
    (h : Steps get creates m₁ (es ++ es') m₃) :
    ∃ m₂, Steps get creates m₁ es m₂ ∧ Steps get creates m₂ es' m₃ := by
  induction es generalizing m₁
  case nil          => exact ⟨m₁, .refl, h⟩
  case cons e es hi =>
    cases h
    case cons hStep h =>
      have ⟨m₂, h₁, h₂⟩ := hi h
      exact ⟨m₂, .cons hStep h₁, h₂⟩

-- What a call receives has its configuration from then on, and has not been rejected and caught
-- before.
theorem received {env : Env} (h : Steps (fun env => getHandler (configOf env)) creates m₁ es m₂)
    (hs : Sound creates m₁) (hCall : .call env i ∈ es) :
    ∃ promise, m₂.promises[i]? = some promise ∧ promise.config = configOf env := by
  induction h
  case refl => contradiction
  case cons hStep h hi =>
    cases List.mem_cons.mp hCall
    case inr hCall => exact hi (hStep.sound hs) hCall
    case inl he    =>
      cases he
      cases hStep
      have ⟨p, hp, hConfig, _⟩ := hs.received (configOf env)
      have ⟨p', hp', hLater⟩ := h.later hp
      exact ⟨p', hp', hLater.config.trans hConfig⟩

-- No call receives a promise whose rejection handler has run.
theorem not_received {env : Env}
    (h : Steps (fun env => getHandler (configOf env)) creates m₁ es m₂) (hs : Sound creates m₁)
    (hp : m₁.promises[i]? = some promise) (hCaught : promise.caught = true) :
    .call env i ∉ es := by
  induction h generalizing promise
  case refl => exact List.not_mem_nil
  case cons hStep h hi =>
    have ⟨p', hp', hLater⟩ := hStep.later hp
    have hRest := hi (hStep.sound hs) hp' (hLater.caught hCaught)
    intro hCall
    cases List.mem_cons.mp hCall
    case inr hCall => exact hRest hCall
    case inl he    =>
      cases he
      cases hStep
      have ⟨p, hReceived, _, hNot⟩ := hs.received (configOf env)
      cases hp'.symm.trans hReceived
      simp [hLater.caught hCaught] at hNot

-- Calls with one configuration start one setup, if its rejection handler does not run. The first `n`
-- promises are older.
theorem started {n : Nat} (h : Steps (fun env => getHandler (configOf env)) creates m₁ es m₂)
    (hCalls : ∀ env i, .call env i ∈ es → configOf env = config)
    (hCaught : ∀ i, n ≤ i → .caught i ∉ es)
    (hOld : m₁.promises.length = n ∨
      (m₁.promises.length = n + 1 ∧ m₁.cachedSetup = some ⟨config, n⟩)) :
    m₂.promises.length ≤ n + 1 := by
  induction h
  case refl => omega
  case cons e es m₁ m₁' m₂ hStep h hi =>
    refine hi (fun env i hm => hCalls env i (List.mem_cons_of_mem _ hm))
      (fun i hi hm => hCaught i hi (List.mem_cons_of_mem _ hm)) ?_
    cases hStep
    case call env =>
      have hConfig := hCalls env _ List.mem_cons_self
      cases getHandler_cases (configOf env) m₁
      case inl hCases => exact hCases.right.symm ▸ hOld
      case inr hCases =>
        rw [hCases.right]
        cases hOld
        case inl hOld => exact .inr ⟨by simp [Module.setup, hOld], by simp [Module.setup, hOld, hConfig]⟩
        case inr hOld => exact absurd hOld.right (hConfig ▸ hCases.left n)
    case settle => simpa [Module.settle] using hOld
    case caught i _ _ _ _ _ =>
      cases hOld
      case inl hOld => exact .inl (by simpa [onRejected] using hOld)
      case inr hOld =>
        have hne : n ≠ i := fun he => hCaught i (Nat.le_of_eq he) List.mem_cons_self
        exact .inr ⟨by simpa [onRejected] using hOld.left, by simp [onRejected, hOld.right, hne]⟩

end Steps

-- What calls can rely on over every run of a module: they receive promises of handlers for their own
-- configurations, share setups, keep newer setups and are rid of failed ones.
structure Coherent (configOf : Env → κ) (get : Env → Module κ ε ν → Nat × Module κ ε ν)
    (creates : κ → Except ε ν → Prop) : Prop where
  received : ∀ {es m}, Steps get creates {} es m → ∀ {env i}, .call env i ∈ es →
    ∃ promise, m.promises[i]? = some promise ∧ promise.config = configOf env ∧
      ∀ outcome, promise.outcome = some outcome → creates (configOf env) outcome
  shared   : ∀ {es es' m m' config}, Steps get creates {} es m → Steps get creates m es' m' →
    (∀ env i, .call env i ∈ es' → configOf env = config) →
      (∀ i, m.promises.length ≤ i → .caught i ∉ es') →
        m'.promises.length ≤ m.promises.length + 1
  kept     : ∀ {es m m' i setup}, Steps get creates {} es m → Step get creates m (.caught i) m' →
    m.cachedSetup = some setup → setup.handlerPromise ≠ i → m'.cachedSetup = some setup
  dropped  : ∀ {es es' m i}, Steps get creates {} (es ++ .caught i :: es') m →
    ∀ env, .call env i ∉ es'

theorem coherent (configOf : Env → κ) (creates : κ → Except ε ν → Prop) :
    Coherent configOf (fun env => getHandler (configOf env)) creates := by
  have hEmpty : Sound creates {} := ⟨nofun, fun h => by simp at h⟩
  constructor
  case received =>
    intro es m h env i hCall
    have ⟨promise, hp, hConfig⟩ := h.received hEmpty hCall
    exact ⟨promise, hp, hConfig, fun outcome ho => hConfig ▸ (h.sound hEmpty).created hp ho⟩
  case shared => exact fun _ h hCalls hCaught => h.started hCalls hCaught (.inl rfl)
  case kept   =>
    intro es m m' i setup _ hStep hCached hne
    cases hStep
    simp [onRejected, hCached, hne]
  case dropped =>
    intro es es' m i h env
    have ⟨m₁, h₁, h⟩ := h.split
    cases h
    case cons hStep h =>
      have hSound := hStep.sound (h₁.sound hEmpty)
      cases hStep
      case caught promise failure _ _ hp =>
        have hCaught : (m₁.onRejected i).promises[i]? = some { promise with caught := true } := by
          simp [onRejected, hp]
        exact h.not_received hSound hCaught rfl

end

end Module

-- The setup caches of both Workers are coherent. A setup of the ingress Worker is configured by its
-- log policy and its DoH endpoint, one of the egress Worker by its serialized registry.
theorem setup_caches_coherent (Registry : Type) {Resolver Key : Type} [IngressSdk Registry Resolver]
    [Platform] [Egress.Secrets Key] :
    Module.Coherent IngressBindings.config getIngressHandler
      (fun config (outcome : Except Thrown Resolver) =>
        createIngressHandlerFromConfig Registry config outcome) ∧
    Module.Coherent id getEgressHandler
      fun serializedAgents (outcome : Except Thrown (Request → Egress.Handler Key Response)) =>
        outcome = Egress.createEgressHandlerFromConfig serializedAgents :=
  ⟨Module.coherent _ _, Module.coherent _ _⟩

end Workers

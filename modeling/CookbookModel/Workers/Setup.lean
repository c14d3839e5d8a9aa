import CookbookModel.Workers.Egress

namespace Workers

open JsString

-- A promise of a handler: the configuration of the setup that it belongs to, what it has come to
-- and whether its rejection handler has run.
structure Promise (κ ε ν : Type) where
  config  : κ
  outcome : Option (Except ε ν) := none
  caught  : Bool := false

-- The setup with the promise of the given number. No two setups share a promise.
structure Setup (κ : Type) where
  config         : κ
  handlerPromise : Nat
  deriving DecidableEq

-- What a Worker's module keeps, and the promises that it has made.
structure Module (κ ε ν : Type) where
  cachedSetup : Option (Setup κ) := none
  promises    : List (Promise κ ε ν) := []

namespace Module

variable {κ ε ν : Type}

-- A new setup takes the place of the cached one.
def setup (config : κ) (m : Module κ ε ν) : Nat × Module κ ε ν :=
  (m.promises.length, {
    cachedSetup := some ⟨config, m.promises.length⟩
    promises    := m.promises ++ [{ config }]
  })

-- The promise that a call receives. The two Workers differ in their configuration only.
def getHandler [DecidableEq κ] (config : κ) (m : Module κ ε ν) : Nat × Module κ ε ν :=
  match m.cachedSetup with
  | none        => m.setup config
  | some cached =>
    if cached.config ≠ config then m.setup config else (cached.handlerPromise, m)

def settle (promise : Nat) (outcome : Except ε ν) (m : Module κ ε ν) : Module κ ε ν :=
  { m with promises := m.promises.modify promise ({ · with outcome := some outcome }) }

-- The rejection handler of the setup with the promise
def onRejected (promise : Nat) (m : Module κ ε ν) : Module κ ε ν where
  cachedSetup := if m.cachedSetup.any (·.handlerPromise = promise) then none else m.cachedSetup
  promises    := m.promises.modify promise ({ · with caught := true })

end Module

-- What the ingress Worker is bound to
structure IngressBindings extends IngressEnv where
  logPolicyUrl : JsString
  dohUrl       : Option JsString

structure IngressConfig where
  logPolicyUrl : JsString
  dohUrl       : Option JsString
  deriving DecidableEq

def IngressBindings.config (env : IngressBindings) : IngressConfig :=
  ⟨env.logPolicyUrl, env.dohUrl⟩

-- What the setup of the ingress Worker takes from the SDK: what the creation of a registry for a log
-- policy can come to, and the resolver that is created from a DoH endpoint and a registry.
class IngressSdk (Registry Resolver : Type) where
  createC2spTlogVerificationRegistry : (policyUrl : JsString) → Except Thrown Registry → Prop
  createIdentityVerifier             : (dohUrl : Option JsString) → Registry → Resolver

-- What the promise of a handler can come to. The ingress handler is made of its resolver.
def createIngressHandlerFromConfig (Registry : Type) {Resolver : Type} [IngressSdk Registry Resolver]
    (config : IngressConfig) (outcome : Except Thrown Resolver) : Prop :=
  ∃ logRegistry : Except Thrown Registry,
    IngressSdk.createC2spTlogVerificationRegistry Resolver config.logPolicyUrl logRegistry ∧
    outcome = logRegistry.map (IngressSdk.createIdentityVerifier config.dohUrl)

def getIngressHandler {Resolver : Type} (env : IngressBindings) :
    Module IngressConfig Thrown Resolver → Nat × Module IngressConfig Thrown Resolver :=
  Module.getHandler env.config

def getEgressHandler {Key : Type} (serializedAgents : JsString) :
    Module JsString Thrown (Request → Egress.Handler Key Response) →
      Nat × Module JsString Thrown (Request → Egress.Handler Key Response) :=
  Module.getHandler serializedAgents

-- What happens to a module: a call, which receives a promise, a promise that settles, and the
-- rejection handler of a promise that was rejected.
inductive Event (Env ε ν : Type)
  | call (env : Env) (received : Nat)
  | settle (promise : Nat) (outcome : Except ε ν)
  | caught (promise : Nat)

section

variable {Env κ ε ν : Type}

-- A step of a module whose calls are answered by `get` and whose setups come to what `creates` says.
inductive Module.Step (get : Env → Module κ ε ν → Nat × Module κ ε ν)
    (creates : κ → Except ε ν → Prop) : Module κ ε ν → Event Env ε ν → Module κ ε ν → Prop
  | call {m : Module κ ε ν} (env : Env) : Step get creates m (.call env (get env m).1) (get env m).2
  | settle {m : Module κ ε ν} {promise : Promise κ ε ν} {outcome : Except ε ν} :
      m.promises[i]? = some promise → promise.outcome = none → creates promise.config outcome →
        Step get creates m (.settle i outcome) (m.settle i outcome)
  | caught {m : Module κ ε ν} {promise : Promise κ ε ν} {e : ε} :
      m.promises[i]? = some promise → promise.outcome = some (.error e) → promise.caught = false →
        Step get creates m (.caught i) (m.onRejected i)

-- Steps in any order, one after the other
inductive Module.Steps (get : Env → Module κ ε ν → Nat × Module κ ε ν)
    (creates : κ → Except ε ν → Prop) : Module κ ε ν → List (Event Env ε ν) → Module κ ε ν → Prop
  | refl {m : Module κ ε ν} : Steps get creates m [] m
  | cons {m₁ m₂ m₃ : Module κ ε ν} :
      Module.Step get creates m₁ e m₂ → Steps get creates m₂ es m₃ → Steps get creates m₁ (e :: es) m₃

end

end Workers

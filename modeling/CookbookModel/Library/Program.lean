import CookbookModel.Library.Control

-- A program over a shared object. It either is done, with a value or an error, or it calls an
-- atomic operation of the object and continues with what the operation answers.
inductive Program (Op : Type) (Res : Op → Type) (ε α : Type) : Type
  | done (r : Except ε α)
  | call (o : Op) (k : Res o → Program Op Res ε α)

namespace Program

variable {Op : Type} {Res : Op → Type} {ε ε' α β σ : Type}

def bind : Program Op Res ε α → (α → Program Op Res ε β) → Program Op Res ε β
  | done (.ok a), f    => f a
  | done (.error e), _ => done (.error e)
  | call o k, f        => call o fun r => (k r).bind f

def handle : Program Op Res ε α → (ε → Program Op Res ε α) → Program Op Res ε α
  | done (.ok a), _    => done (.ok a)
  | done (.error e), f => f e
  | call o k, f        => call o fun r => (k r).handle f

instance : Monad (Program Op Res ε) where
  pure a := done (.ok a)
  bind   := bind

instance : MonadExceptOf ε (Program Op Res ε) where
  throw e  := done (.error e)
  tryCatch := handle

-- An operation as a program of its own.
def perform (o : Op) : Program Op Res ε (Res o) :=
  call o fun r => done (.ok r)

def ofExcept : Except ε α → Program Op Res ε α :=
  done

-- Go's `x, err := f()` without the `return` on `err`: the error becomes a value.
def attempt : Program Op Res ε α → Program Op Res ε' (Except ε α)
  | done r   => done (.ok r)
  | call o k => call o fun r => (k r).attempt

-- The program with its operations among those of a larger object.
def embed {Op' : Type} {Res' : Op' → Type} (f : Op → Op') (g : ∀ o, Res' (f o) → Res o) :
    Program Op Res ε α → Program Op' Res' ε α
  | done r   => done r
  | call o k => call (f o) fun r => (k (g o r)).embed f g

@[simp]
theorem pure_eq (a : α) : (pure a : Program Op Res ε α) = done (.ok a) :=
  rfl

@[simp]
theorem throw_eq (e : ε) : (throw e : Program Op Res ε α) = done (.error e) :=
  rfl

@[simp]
theorem ok_bind (a : α) (f : α → Program Op Res ε β) : (done (.ok a) >>= f) = f a :=
  rfl

@[simp]
theorem error_bind (e : ε) (f : α → Program Op Res ε β) :
    (done (.error e) >>= f) = done (.error e) :=
  rfl

@[simp]
theorem call_bind (o : Op) (k : Res o → Program Op Res ε α) (f : α → Program Op Res ε β) :
    (call o k >>= f) = call o fun r => k r >>= f :=
  rfl

@[simp]
theorem perform_bind (o : Op) (f : Res o → Program Op Res ε β) :
    (perform o >>= f) = call o f :=
  rfl

@[simp]
theorem attempt_done (r : Except ε α) :
    ((done r : Program Op Res ε α).attempt : Program Op Res ε' _) = done (.ok r) :=
  rfl

@[simp]
theorem attempt_call (o : Op) (k : Res o → Program Op Res ε α) :
    ((call o k).attempt : Program Op Res ε' _) = call o fun r => (k r).attempt :=
  rfl

theorem embed_bind {Op' : Type} {Res' : Op' → Type} {g : Op → Op'}
    {back : ∀ o, Res' (g o) → Res o} (x : Program Op Res ε α)
    (f : α → Program Op Res ε β) : (x >>= f).embed g back =
      x.embed g back >>= fun a => (f a).embed g back := by
  induction x
  case done r      => cases r <;> rfl
  case call o k hi => exact congrArg (call (g o)) (funext fun r => hi (back o r))

theorem embed_throwIf {Op' : Type} {Res' : Op' → Type} {g : Op → Op'}
    {back : ∀ o, Res' (g o) → Res o} {c : Prop} [Decidable c] :
    (throwIf c e : Program Op Res ε Unit).embed g back = throwIf c e := by
  unfold throwIf
  split <;> rfl

theorem bind_pure (x : Program Op Res ε α) : x.bind (fun a => done (.ok a)) = x := by
  induction x
  case done r      => cases r <;> rfl
  case call o k hi => exact congrArg (call o) (funext hi)

theorem bind_assoc (x : Program Op Res ε α) (f : α → Program Op Res ε β)
    (g : β → Program Op Res ε γ) : (x.bind f).bind g = x.bind fun a => (f a).bind g := by
  induction x
  case done r      => cases r <;> rfl
  case call o k hi => exact congrArg (call o) (funext hi)

instance : LawfulMonad (Program Op Res ε) :=
  LawfulMonad.mk' _ bind_pure (fun _ _ => rfl) bind_assoc

-- Every operation that the program can reach satisfies `P`, whatever the operations before it have
-- answered.
def Always (P : Op → Prop) : Program Op Res ε α → Prop
  | done _   => True
  | call o k => P o ∧ ∀ r, (k r).Always P

-- The first program has become the second one after its operations have answered as in `path`.
inductive Reaches :
    Program Op Res ε α → List (Σ o, Res o) → Program Op Res ε α → Prop
  | here {p : Program Op Res ε α} : Reaches p [] p
  | call {o : Op} {k : Res o → Program Op Res ε α} {r : Res o} :
      Reaches (k r) path q → Reaches (call o k) (⟨o, r⟩ :: path) q

-- The program calls the operation when the operations before it answer as in `path`.
def Emits (p : Program Op Res ε α) (path : List (Σ o, Res o)) (o : Op) : Prop :=
  ∃ k, p.Reaches path (call o k)

-- The program is done with the value when its operations have answered as in `path`.
def Returns (p : Program Op Res ε α) (path : List (Σ o, Res o)) (a : α) : Prop :=
  p.Reaches path (done (.ok a))

-- The program run alone on a state that changes with its operations only.
def run (exec : (o : Op) → σ → Res o × σ) : Program Op Res ε α → σ → Except ε α × σ
  | done r, s   => (r, s)
  | call o k, s => (k (exec o s).1).run exec (exec o s).2

section

variable {P Q : Op → Prop} {x : Program Op Res ε α} {f : α → Program Op Res ε β}

@[simp]
theorem always_done {r : Except ε α} : (done r : Program Op Res ε α).Always P :=
  trivial

theorem always_true (x : Program Op Res ε α) : x.Always fun _ => True := by
  induction x
  case done        => trivial
  case call o k hi => exact ⟨trivial, hi⟩

theorem Always.bind (hx : x.Always P) (hf : ∀ a, (f a).Always P) : (x >>= f).Always P := by
  induction x
  case done r =>
    cases r
    case ok a    => exact hf a
    case error e => trivial
  case call o k hi => exact ⟨hx.left, fun r => hi r (hx.right r)⟩

theorem Always.throwIf_bind {c : Prop} [Decidable c] {f : Unit → Program Op Res ε β}
    (hf : (f ()).Always P) : (throwIf c e >>= f).Always P := by
  unfold throwIf
  split
  case isTrue  => trivial
  case isFalse => exact hf

theorem Always.attempt (hx : x.Always P) : (x.attempt : Program Op Res ε' _).Always P := by
  induction x
  case done        => trivial
  case call o k hi => exact ⟨hx.left, fun r => hi r (hx.right r)⟩

theorem Always.handle {f : ε → Program Op Res ε α} (hx : x.Always P) (hf : ∀ e, (f e).Always P) :
    (tryCatch x f).Always P := by
  induction x
  case done r =>
    cases r
    case ok a    => trivial
    case error e => exact hf e
  case call o k hi => exact ⟨hx.left, fun r => hi r (hx.right r)⟩

theorem Always.mono (h : ∀ o, P o → Q o) (hx : x.Always P) : x.Always Q := by
  induction x
  case done        => trivial
  case call o k hi => exact ⟨h o hx.left, fun r => hi r (hx.right r)⟩

theorem Always.reaches (hx : x.Always P) (h : x.Reaches path y) : y.Always P := by
  induction h
  case here    => exact hx
  case call hi => exact hi (hx.right _)

theorem Always.steps (hx : x.Always P) (h : x.Reaches path y) : ∀ s ∈ path, P s.1 := by
  induction h
  case here    => simp
  case call hi => exact List.forall_mem_cons.mpr ⟨hx.left, hi (hx.right _)⟩

theorem Always.emits (hx : x.Always P) (h : x.Emits path o) : P o :=
  have ⟨_, h⟩ := h
  (hx.reaches h).left

theorem Reaches.snoc {k : Res o → Program Op Res ε α} (h : x.Reaches path (.call o k))
    (r : Res o) : x.Reaches (path ++ [⟨o, r⟩]) (k r) := by
  generalize he : Program.call o k = y at h
  induction h
  case here    => subst he; exact .call .here
  case call hi => exact .call (hi he)

@[simp]
theorem reaches_done {r : Except ε α} :
    (done r : Program Op Res ε α).Reaches path y ↔ path = [] ∧ y = done r := by
  constructor
  case mp  => intro h; cases h; exact ⟨rfl, rfl⟩
  case mpr => rintro ⟨rfl, rfl⟩; exact .here

theorem reaches_call {o : Op} {k : Res o → Program Op Res ε α} :
    (call o k).Reaches path y ↔
      (path = [] ∧ y = call o k) ∨ ∃ r path', path = ⟨o, r⟩ :: path' ∧ (k r).Reaches path' y := by
  constructor
  case mp =>
    intro h
    cases h
    case here   => exact .inl ⟨rfl, rfl⟩
    case call h => exact .inr ⟨_, _, rfl, h⟩
  case mpr =>
    rintro (⟨rfl, rfl⟩ | ⟨r, path', rfl, h⟩)
    exacts [.here, .call h]

@[simp]
theorem emits_done {r : Except ε α} : ¬(done r : Program Op Res ε α).Emits path o := by
  simp [Emits]

theorem emits_call {o o' : Op} {k : Res o → Program Op Res ε α} :
    (call o k).Emits path o' ↔
      (path = [] ∧ o' = o) ∨ ∃ r path', path = ⟨o, r⟩ :: path' ∧ (k r).Emits path' o' := by
  constructor
  case mp =>
    rintro ⟨k', h⟩
    cases reaches_call.mp h
    case inl h => exact .inl ⟨h.left, (call.inj h.right).left⟩
    case inr h =>
      have ⟨r, path', hp, h⟩ := h
      exact .inr ⟨r, path', hp, k', h⟩
  case mpr =>
    rintro (⟨rfl, rfl⟩ | ⟨r, path', rfl, k', h⟩)
    exacts [⟨k, .here⟩, ⟨k', .call h⟩]

theorem emits_done_bind {r : Except ε α} :
    (done r >>= f).Emits path o ↔ ∃ a, r = .ok a ∧ (f a).Emits path o := by
  cases r <;> simp

theorem emits_bind : (x >>= f).Emits path o ↔ x.Emits path o ∨
    ∃ a path₁ path₂, path = path₁ ++ path₂ ∧ x.Returns path₁ a ∧ (f a).Emits path₂ o := by
  induction x generalizing path
  case done r => cases r <;> simp [Returns]
  case call o' k hi =>
    simp only [call_bind, emits_call, Returns, reaches_call, reduceCtorEq, and_false, false_or, hi]
    constructor
    case mp =>
      rintro (h | ⟨r, _, rfl, h | ⟨a, path₁, path₂, rfl, h₁, h₂⟩⟩)
      · exact .inl <| .inl h
      · exact .inl <| .inr ⟨r, _, rfl, h⟩
      · exact .inr ⟨a, _, path₂, rfl, ⟨r, path₁, rfl, h₁⟩, h₂⟩
    case mpr =>
      rintro ((h | ⟨r, path', rfl, h⟩) | ⟨a, _, path₂, rfl, ⟨r, path₁, rfl, h₁⟩, h₂⟩)
      · exact .inl h
      · exact .inr ⟨r, path', rfl, .inl h⟩
      · exact .inr ⟨r, path₁ ++ path₂, rfl, .inr ⟨a, path₁, path₂, rfl, h₁, h₂⟩⟩

@[simp]
theorem emits_attempt : (x.attempt : Program Op Res ε' _).Emits path o ↔ x.Emits path o := by
  induction x generalizing path
  case done        => simp
  case call o k hi => simp only [attempt_call, emits_call, hi]

theorem Always.embed {Op' : Type} {Res' : Op' → Type} {g : Op → Op'} {back : ∀ o, Res' (g o) → Res o}
    {Q : Op' → Prop} (hx : x.Always fun o => Q (g o)) : (x.embed g back).Always Q := by
  induction x
  case done        => trivial
  case call o k hi => exact ⟨hx.left, fun r => hi _ (hx.right _)⟩

theorem emits_bind_pure {g : α → β} :
    (x >>= fun a => pure (g a)).Emits path o ↔ x.Emits path o := by
  induction x generalizing path
  case done r      => cases r <;> simp
  case call o k hi => simp only [call_bind, emits_call, hi]

@[simp]
theorem returns_done {r : Except ε α} :
    (done r : Program Op Res ε α).Returns path a ↔ path = [] ∧ r = .ok a := by
  simp [Returns, eq_comm]

theorem returns_call {o : Op} {k : Res o → Program Op Res ε α} :
    (call o k).Returns path a ↔ ∃ r path', path = ⟨o, r⟩ :: path' ∧ (k r).Returns path' a := by
  simp [Returns, reaches_call]

theorem returns_done_bind {r : Except ε α} :
    (done r >>= f).Returns path b ↔ ∃ a, r = .ok a ∧ (f a).Returns path b := by
  cases r <;> simp

theorem returns_bind : (x >>= f).Returns path b ↔
    ∃ a path₁ path₂, path = path₁ ++ path₂ ∧ x.Returns path₁ a ∧ (f a).Returns path₂ b := by
  induction x generalizing path
  case done r      => cases r <;> simp
  case call o k hi =>
    simp only [call_bind, returns_call, hi]
    constructor
    case mp =>
      rintro ⟨r, _, rfl, a, path₁, path₂, rfl, h₁, h₂⟩
      exact ⟨a, ⟨o, r⟩ :: path₁, path₂, rfl, ⟨r, path₁, rfl, h₁⟩, h₂⟩
    case mpr =>
      rintro ⟨a, _, path₂, rfl, ⟨r, path₁, rfl, h₁⟩, h₂⟩
      exact ⟨r, path₁ ++ path₂, rfl, a, path₁, path₂, rfl, h₁, h₂⟩

theorem returns_bind_pure {g : α → β} :
    (x >>= fun a => pure (g a)).Returns path b ↔ ∃ a, x.Returns path a ∧ g a = b := by
  simp [returns_bind]

theorem returns_throwIf_bind {c : Prop} [Decidable c] {f : Unit → Program Op Res ε β} :
    (throwIf c e >>= f).Returns path b ↔ ¬c ∧ (f ()).Returns path b := by
  unfold throwIf
  split <;> simp_all

theorem emits_throwIf_bind {c : Prop} [Decidable c] {f : Unit → Program Op Res ε β} :
    (throwIf c e >>= f).Emits path o ↔ ¬c ∧ (f ()).Emits path o := by
  unfold throwIf
  split <;> simp_all

end

section

variable {exec : (o : Op) → σ → Res o × σ} {x : Program Op Res ε α}

@[simp]
theorem run_done (r : Except ε α) (s : σ) : (done r : Program Op Res ε α).run exec s = (r, s) :=
  rfl

@[simp]
theorem run_call (o : Op) (k : Res o → Program Op Res ε α) (s : σ) :
    (call o k).run exec s = (k (exec o s).1).run exec (exec o s).2 :=
  rfl

theorem run_bind_ok {f : α → Program Op Res ε β} (h : x.run exec s = (.ok a, s')) :
    (x >>= f).run exec s = (f a).run exec s' := by
  induction x generalizing s
  case done        => cases h; rfl
  case call o k hi => exact hi _ h

theorem run_bind_error {f : α → Program Op Res ε β} (h : x.run exec s = (.error e, s')) :
    (x >>= f).run exec s = (.error e, s') := by
  induction x generalizing s
  case done        => cases h; rfl
  case call o k hi => exact hi _ h

theorem run_attempt (h : x.run exec s = (r, s')) :
    (x.attempt : Program Op Res ε' _).run exec s = (.ok r, s') := by
  induction x generalizing s
  case done        => cases h; rfl
  case call o k hi => exact hi _ h

theorem run_bind (x : Program Op Res ε α) (f : α → Program Op Res ε β) (s : σ) :
    (x >>= f).run exec s =
      match x.run exec s with
      | (.ok a, s')    => (f a).run exec s'
      | (.error e, s') => (.error e, s') := by
  rcases h : x.run exec s with ⟨_ | _, _⟩
  case error => exact run_bind_error h
  case ok    => exact run_bind_ok h

theorem run_bind_eq_ok {f : α → Program Op Res ε β} : (x >>= f).run exec s = (.ok b, s') ↔
    ∃ a s₁, x.run exec s = (.ok a, s₁) ∧ (f a).run exec s₁ = (.ok b, s') := by
  rw [run_bind]
  rcases x.run exec s with ⟨_ | _, _⟩ <;> simp

theorem run_attempt_eq : (x.attempt : Program Op Res ε' _).run exec s =
    (.ok (x.run exec s).1, (x.run exec s).2) :=
  run_attempt rfl

theorem run_throwIf_eq_ok {c : Prop} [Decidable c] :
    (throwIf c e : Program Op Res ε Unit).run exec s = (.ok u, s') ↔ ¬c ∧ s = s' := by
  unfold throwIf
  split <;> simp_all

end

section

variable {ω : Type}

-- The operations with their outcomes drawn from a sequence.
def scripted (exec : (o : Op) → ω → σ → Res o × σ) (o : Op) :
    σ × (Nat → ω) → Res o × (σ × (Nat → ω))
  | (s, ws) => ((exec o (ws 0) s).1, (exec o (ws 0) s).2, fun n => ws (n + 1))

-- Whatever the outcomes of its operations, the program comes to `r` and leaves the state as it is.
def Settles (exec : (o : Op) → ω → σ → Res o × σ) (x : Program Op Res ε α) (s : σ)
    (r : Except ε α) : Prop :=
  ∀ ws, ∃ ws', x.run (scripted exec) (s, ws) = (r, s, ws')

variable {exec : (o : Op) → ω → σ → Res o × σ} {x : Program Op Res ε α}
  {f : α → Program Op Res ε β} {r : Except ε α}

namespace Settles

theorem done : Settles exec (.done r) s r :=
  fun ws => ⟨ws, rfl⟩

theorem call {k : Res o → Program Op Res ε α} (h : ∀ w, exec o w s = (res, s))
    (hk : Settles exec (k res) s r) : Settles exec (.call o k) s r := by
  intro ws
  have ⟨ws', hk⟩ := hk fun n => ws (n + 1)
  refine ⟨ws', ?_⟩
  rw [run_call, scripted, h]
  exact hk

theorem bind_ok {r : Except ε β} (hx : Settles exec x s (.ok a)) (hf : Settles exec (f a) s r) :
    Settles exec (x >>= f) s r := by
  intro ws
  have ⟨ws₁, hx⟩ := hx ws
  have ⟨ws₂, hf⟩ := hf ws₁
  exact ⟨ws₂, (run_bind_ok hx).trans hf⟩

theorem bind_error (hx : Settles exec x s (.error e)) : Settles exec (x >>= f) s (.error e) := by
  intro ws
  have ⟨ws', hx⟩ := hx ws
  exact ⟨ws', run_bind_error hx⟩

theorem attempt (hx : Settles exec x s r) :
    Settles exec (x.attempt : Program Op Res ε' _) s (.ok r) := by
  intro ws
  have ⟨ws', hx⟩ := hx ws
  exact ⟨ws', run_attempt hx⟩

end Settles
end

section

-- The steps of the path were answered in turn by what answers each operation as it likes, once it
-- has seen what came before.
def Answers (respond : List (Σ o, Res o) → (o : Op) → Res o) (path : List (Σ o, Res o)) : Prop :=
  ∀ before s after, path = before ++ s :: after → s.2 = respond before s.1

-- Every program comes to an end, whatever answers its operations.
theorem completes (respond : List (Σ o, Res o) → (o : Op) → Res o) (x : Program Op Res ε α) :
    ∃ path r, x.Reaches path (done r) ∧ Answers respond path := by
  induction x generalizing respond
  case done r      => exact ⟨[], r, .here, fun _ _ _ h => by simp at h⟩
  case call o k hi =>
    have ⟨path, r, h, ha⟩ := hi (respond [] o) fun before => respond (⟨o, respond [] o⟩ :: before)
    refine ⟨_, r, .call h, fun before s after he => ?_⟩
    cases before
    case nil =>
      have ⟨hs, _⟩ := List.cons.inj he
      exact hs ▸ rfl
    case cons =>
      have ⟨hs, he⟩ := List.cons.inj he
      exact hs ▸ ha _ _ _ he

end

end Program

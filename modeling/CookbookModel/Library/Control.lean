import Mathlib.Logic.Relation
import Mathlib.Tactic.Common

-- Go's `if c { return err }`
def throwIf [Monad m] [MonadExcept ε m] (c : Prop) [Decidable c] (e : ε) : m Unit :=
  if c then throw e else pure ()

namespace Except

variable {x : Except ε α} {f : α → Except ε β}

theorem bind_eq_ok : (x >>= f) = .ok b ↔ ∃ a, x = .ok a ∧ f a = .ok b := by
  cases x <;> simp [bind, Except.bind]

theorem pure_eq_ok : (pure a : Except ε α) = .ok b ↔ a = b := by
  simp [pure, Except.pure]

theorem throwIf_eq_ok {c : Prop} [Decidable c] :
    (throwIf c e : Except ε Unit) = .ok u ↔ ¬c := by
  unfold throwIf
  split <;> simp_all [throw, throwThe, MonadExceptOf.throw, pure, Except.pure]

@[simp]
theorem mapError_eq_ok {f : ε → ε'} : x.mapError f = .ok a ↔ x = .ok a := by
  cases x <;> simp [Except.mapError]

theorem forM_ok {f : α → Except ε PUnit} {l : List α} (h : l.forM f = .ok u) :
    ∀ a ∈ l, f a = .ok .unit := by
  induction l
  case nil => simp
  case cons a l hi =>
    rw [show (a :: l).forM f = f a >>= fun _ => l.forM f from rfl, bind_eq_ok] at h
    have ⟨_, ha, hl⟩ := h
    intro b hb
    cases List.mem_cons.mp hb
    case inl he => exact he ▸ ha
    case inr hm => exact hi hl b hm

theorem forM_eq_ok {f : α → Except ε PUnit} {l : List α} :
    l.forM f = .ok u ↔ ∀ a ∈ l, f a = .ok .unit := by
  refine ⟨forM_ok, fun h => ?_⟩
  induction l
  case nil          => rfl
  case cons a l hi =>
    have ⟨ha, h⟩ := List.forall_mem_cons.mp h
    rw [show (a :: l).forM f = f a >>= fun _ => l.forM f from rfl, bind_eq_ok]
    exact ⟨.unit, ha, hi h⟩

-- A loop over steps that each either fail or have one result.
theorem mapM_eq_ok {f : α → Except ε β} {P : α → Prop} {g : α → β} {l : List α} {l' : List β}
    (h : ∀ a b, f a = .ok b ↔ P a ∧ g a = b) :
    l.mapM f = .ok l' ↔ (∀ a ∈ l, P a) ∧ l.map g = l' := by
  induction l generalizing l'
  case nil         => simp [pure_eq_ok]
  case cons a l hi =>
    simp only [List.mapM_cons, bind_eq_ok, pure_eq_ok, h, hi, List.forall_mem_cons, List.map_cons]
    constructor
    case mp =>
      rintro ⟨_, ⟨ha, rfl⟩, _, ⟨hl, rfl⟩, rfl⟩
      exact ⟨⟨ha, hl⟩, rfl⟩
    case mpr =>
      rintro ⟨⟨ha, hl⟩, rfl⟩
      exact ⟨_, ⟨ha, rfl⟩, _, ⟨hl, rfl⟩, rfl⟩

end Except

namespace EStateM

variable {ε σ α β : Type} {x : EStateM ε σ α} {f : α → EStateM ε σ β} {s s' : σ}

theorem bind_run_ok :
    (x >>= f).run s = .ok b s' ↔ ∃ a s₁, x.run s = .ok a s₁ ∧ (f a).run s₁ = .ok b s' := by
  rw [run_bind]
  cases x.run s <;> simp

theorem bind_run_error :
    (x >>= f).run s = .error e s' ↔
      x.run s = .error e s' ∨ ∃ a s₁, x.run s = .ok a s₁ ∧ (f a).run s₁ = .error e s' := by
  rw [run_bind]
  cases x.run s <;> simp

theorem pure_run_ok : (pure a : EStateM ε σ α).run s = .ok b s' ↔ a = b ∧ s = s' := by
  simp

theorem get_run_ok : (get : EStateM ε σ σ).run s = .ok s₁ s' ↔ s = s₁ ∧ s = s' := by
  simp

theorem set_run_ok {s₁ : σ} : (set s₁ : EStateM ε σ Unit).run s = .ok u s' ↔ s₁ = s' := by
  simp

theorem modify_run_ok {g : σ → σ} :
    (modify g : EStateM ε σ Unit).run s = .ok u s' ↔ g s = s' := by
  simp

@[simp]
theorem throw_run {e : ε} : (throw e : EStateM ε σ α).run s = .error e s :=
  rfl

@[simp]
theorem map_run_ok {g : α → β} :
    (g <$> x).run s = .ok b s' ↔ ∃ a, x.run s = .ok a s' ∧ g a = b := by
  simp only [map_eq_pure_bind, bind_run_ok, pure_run_ok]
  constructor
  case mp  => rintro ⟨a, s₁, hx, hb, rfl⟩; exact ⟨a, hx, hb⟩
  case mpr => rintro ⟨a, hx, hb⟩; exact ⟨a, s', hx, hb, rfl⟩

theorem throwIf_run_ok {c : Prop} [Decidable c] :
    (throwIf c e : EStateM ε σ Unit).run s = .ok u s' ↔ ¬c ∧ s = s' := by
  unfold throwIf
  split <;> simp_all

theorem throwIf_run_error {c : Prop} [Decidable c] {e e' : ε} :
    (throwIf c e : EStateM ε σ Unit).run s = .error e' s' ↔ c ∧ e = e' ∧ s = s' := by
  unfold throwIf
  split <;> simp_all

-- A method that leaves the state alone, whatever it returns.
structure ReadOnly (x : EStateM ε σ α) : Prop where
  ok    : ∀ {s a s'}, x.run s = .ok a s' → s' = s
  error : ∀ {s e s'}, x.run s = .error e s' → s' = s

-- A method that leaves the state alone when it returns an error.
structure FailsClean (x : EStateM ε σ α) : Prop where
  error : ∀ {s e s'}, x.run s = .error e s' → s' = s

namespace ReadOnly

theorem pure : ReadOnly (Pure.pure a : EStateM ε σ α) :=
  ⟨fun h => by cases h; rfl, fun h => by cases h⟩

theorem throw : ReadOnly (MonadExcept.throw e : EStateM ε σ α) :=
  ⟨fun h => (by cases h), fun h => by cases h; rfl⟩

theorem get : ReadOnly (MonadState.get : EStateM ε σ σ) :=
  ⟨fun h => by cases h; rfl, fun h => by cases h⟩

theorem throwIf {c : Prop} [Decidable c] : ReadOnly (throwIf c e : EStateM ε σ Unit) :=
  ⟨fun h => (throwIf_run_ok.mp h).right.symm, fun h => (throwIf_run_error.mp h).right.right.symm⟩

theorem bind (hx : ReadOnly x) (hf : ∀ a, ReadOnly (f a)) : ReadOnly (x >>= f) where
  ok h := by
    have ⟨a, s₁, h₁, h₂⟩ := bind_run_ok.mp h
    exact (hf a).ok h₂ |>.trans <| hx.ok h₁
  error h := by
    cases bind_run_error.mp h
    case inl h => exact hx.error h
    case inr h =>
      have ⟨a, s₁, h₁, h₂⟩ := h
      exact (hf a).error h₂ |>.trans <| hx.ok h₁

theorem failsClean (h : ReadOnly x) : FailsClean x :=
  ⟨h.error⟩

end ReadOnly

namespace FailsClean

theorem bind (hx : ReadOnly x) (hf : ∀ a, FailsClean (f a)) : FailsClean (x >>= f) where
  error h := by
    cases bind_run_error.mp h
    case inl h => exact hx.error h
    case inr h =>
      have ⟨a, s₁, h₁, h₂⟩ := h
      exact (hf a).error h₂ |>.trans <| hx.ok h₁

-- What follows only rearranges the result.
theorem map {f : α → β} (hx : FailsClean x) : FailsClean (x >>= fun a => Pure.pure (f a)) where
  error h := by
    cases bind_run_error.mp h
    case inl h => exact hx.error h
    case inr h =>
      have ⟨a, s₁, _, h⟩ := h
      simp at h

-- Nothing fails after the state has been changed.
theorem of_ok (h : ∀ s, ∃ a s', x.run s = .ok a s') : FailsClean x where
  error {s _ _} he := by
    have ⟨a, s', hx⟩ := h s
    simp [hx] at he

end FailsClean

end EStateM

import CookbookModel.Library.History
import CookbookModel.Library.System
import Mathlib.Order.Lattice

-- Consecutive transitions of a relation
inductive Trail (R : σ → ε → σ → Prop) : σ → List ε → σ → Prop
  | nil  : Trail R s [] s
  | cons : R s e s₁ → Trail R s₁ es s' → Trail R s (e :: es) s'

theorem Trail.append (h₁ : Trail R s es₁ s₁) (h₂ : Trail R s₁ es₂ s') :
    Trail R s (es₁ ++ es₂) s' := by
  induction h₁
  case nil          => exact h₂
  case cons hr _ hi => exact .cons hr (hi h₂)

-- A store whose keys are taken until they expire: only a key whose entry has expired, or that has no
-- entry, can be taken, and an entry lasts at least until its expiry.
structure Lease (R : σ → ε → σ → Prop) (κ τ : Type) [LinearOrder τ] where
  clock : ε → τ
  held  : σ → κ → Option τ
  takes : ε → κ → τ → Prop
  keeps : R s e s' → held s k = some t → clock e < t → held s' k = some t
  free  : R s e s' → takes e k t → held s k = some t' → t' ≤ clock e
  taken : R s e s' → takes e k t → held s' k = some t

namespace Lease

variable {σ ε κ τ : Type} [LinearOrder τ] {R : σ → ε → σ → Prop} {s s' : σ} {e : ε} {es : List ε}
  {k : κ} {t t' : τ}

-- A key that is held is not taken before it expires.
theorem not_before (L : Lease R κ τ) (h : Trail R s es s')
    (ho : es.Pairwise (L.clock · ≤ L.clock ·)) (hs : L.held s k = some t) (he : e ∈ es)
    (ht : L.takes e k t') : t ≤ L.clock e := by
  induction h
  case nil => simp at he
  case cons e₁ _ _ _ hr _ hi =>
    have ⟨ho₁, ho⟩ := List.pairwise_cons.mp ho
    cases List.mem_cons.mp he
    case inl he =>
      subst he
      exact L.free hr ht hs
    case inr he =>
      by_cases hc : L.clock e₁ < t
      case pos => exact hi ho (L.keeps hr hs hc) he
      case neg => exact (not_lt.mp hc).trans (ho₁ e he)

theorem exclusive (L : Lease R κ τ) (h : Trail R s es s')
    (ho : es.Pairwise (L.clock · ≤ L.clock ·)) :
    es.Pairwise fun e₁ e₂ => ∀ k t t', L.takes e₁ k t → L.takes e₂ k t' → t ≤ L.clock e₂ := by
  induction h
  case nil => exact .nil
  case cons hr h hi =>
    have ⟨_, ho⟩ := List.pairwise_cons.mp ho
    refine List.pairwise_cons.mpr ⟨fun e₂ he k t t' h₁ h₂ => ?_, hi ho⟩
    exact L.not_before h ho (L.taken hr h₁) he h₂

end Lease

section

variable {Op ε α σ ω Call Res : Type} {Ans : Op → Type} {init s s' : σ}

-- What a completed call makes of the state it is made in.
def History.Transition (exec : Call → ω → σ → Res × σ) (s : σ) (c : Completed Call ω Res) (s' : σ) :
    Prop :=
  c.result = (exec c.call c.stamp s).1 ∧ s' = (exec c.call c.stamp s).2

theorem History.trail {exec : Call → ω → σ → Res × σ} {cs : List (Completed Call ω Res)}
    (h : History exec init cs s) : Trail (Transition exec) init cs s := by
  induction h
  case init          => exact .nil
  case call c w _ hi => exact hi.append <| .cons ⟨rfl, rfl⟩ .nil

-- What a step makes of the state it is taken in.
def System.Transition (S : System Op Ans ε α σ ω Call) (s : σ) (e : S.Event) (s' : σ) : Prop :=
  e.store = s ∧ e.post = s'

theorem System.Steps.trail {S : System Op Ans ε α σ ω Call} {es : List S.Event}
    (h : S.Steps s es s') : Trail S.Transition s es s' := by
  induction h
  case nil       => exact .nil
  case cons _ hi => exact .cons ⟨rfl, rfl⟩ hi

end

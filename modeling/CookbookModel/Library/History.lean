import Mathlib.Tactic.Common

-- An object whose method calls run one after another. `ω` is what a call reads from outside the
-- object, like the clock.
structure Completed (Call ω Res : Type) where
  call   : Call
  stamp  : ω
  result : Res

-- The calls completed so far and the state they have led to.
inductive History (exec : Call → ω → σ → Res × σ) (init : σ) :
    List (Completed Call ω Res) → σ → Prop
  | init : History exec init [] init
  | call (c : Call) (w : ω) : History exec init h s →
      History exec init (h ++ [⟨c, w, (exec c w s).1⟩]) (exec c w s).2

namespace History

variable {Call ω σ Res : Type} {exec : Call → ω → σ → Res × σ} {init s s' : σ}
  {h h₁ h₂ : List (Completed Call ω Res)} {c : Completed Call ω Res}

-- What a call preserves, every history preserves.
theorem invariant {I : List (Completed Call ω Res) → σ → Prop} (h₀ : I [] init)
    (hs : ∀ {h s} c w, I h s → I (h ++ [⟨c, w, (exec c w s).1⟩]) (exec c w s).2)
    (hh : History exec init h s) : I h s := by
  induction hh
  case init          => exact h₀
  case call c w _ hi => exact hs c w hi

theorem append (hh : History exec init h₁ s) (hh' : History exec s h₂ s') :
    History exec init (h₁ ++ h₂) s' := by
  induction hh'
  case init          => simpa using hh
  case call c w _ hi => simpa using hi.call c w

-- The state in which a completed call was made.
theorem before (hh : History exec init h s) (he : h = h₁ ++ c :: h₂) :
    ∃ s₁, History exec init h₁ s₁ ∧ c.result = (exec c.call c.stamp s₁).1 ∧
      History exec init (h₁ ++ [c]) (exec c.call c.stamp s₁).2 := by
  induction hh generalizing h₂
  case init => simp at he
  case call s c' w hh hi =>
    cases List.eq_nil_or_concat h₂
    case inl hn =>
      subst hn
      have ⟨h₁, h₂⟩ := List.append_inj' he rfl
      cases h₂
      exact ⟨s, h₁ ▸ hh, rfl, h₁ ▸ hh.call c' w⟩
    case inr hn =>
      have ⟨h₂', c'', hn⟩ := hn
      subst hn
      rw [List.concat_eq_append, ←List.cons_append, ←List.append_assoc] at he
      exact hi (List.append_inj' he rfl).left

-- The calls one after another.
def replay (exec : Call → ω → σ → Res × σ) :
    List (Call × ω) → σ → List (Completed Call ω Res) × σ
  | [], s           => ([], s)
  | (c, w) :: cs, s =>
    let (result, s') := exec c w s
    let (rest, s'')  := replay exec cs s'
    (⟨c, w, result⟩ :: rest, s'')

theorem replay_history {exec : Call → ω → σ → Res × σ} (cs : List (Call × ω)) (s : σ) :
    History exec s (replay exec cs s).1 (replay exec cs s).2 := by
  induction cs generalizing s
  case nil            => exact .init
  case cons call _ hi => exact (History.init.call call.1 call.2).append (hi _)

theorem replay_append {exec : Call → ω → σ → Res × σ} (cs ds : List (Call × ω)) (s : σ) :
    replay exec (cs ++ ds) s =
      ((replay exec cs s).1 ++ (replay exec ds (replay exec cs s).2).1,
        (replay exec ds (replay exec cs s).2).2) := by
  induction cs generalizing s
  case nil            => rfl
  case cons call _ hi => simp only [List.cons_append, replay, hi]

end History

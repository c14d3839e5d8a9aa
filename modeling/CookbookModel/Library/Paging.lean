import Mathlib.Data.List.Basic
import Mathlib.Order.Nat

-- A client that gets a list page by page while others change it.
namespace Paging

variable {σ C α : Type}

-- The client starts at some position. Every page takes it to another one, from which it goes on if
-- there is more.
inductive Walk (Change : σ → σ → Prop) (Turn : σ → C → List α → C → Prop) (More : C → Prop) (s₀ : σ)
    (c₀ : C) : σ → List (List α) → C → Prop
  | start  : Turn s₀ c₀ page c → Walk Change Turn More s₀ c₀ s₀ [page] c
  | change : Walk Change Turn More s₀ c₀ s pages c → Change s s' →
      Walk Change Turn More s₀ c₀ s' pages c
  | turn   : Walk Change Turn More s₀ c₀ s pages c → More c → Turn s c page c' →
      Walk Change Turn More s₀ c₀ s (pages ++ [page]) c'

-- An element that is not before a window is in it or after it.
theorem mem_window_or {l : List α} (hl : l[i]? = some a) (hi : offset ≤ i) :
    a ∈ (l.drop offset).take k ∨ offset + k ≤ i := by
  by_cases hk : i < offset + k
  case neg => exact .inr (not_lt.mp hk)
  case pos =>
    refine .inl <| List.mem_iff_getElem?.mpr ⟨i - offset, ?_⟩
    rw [List.getElem?_take_of_lt (by omega), List.getElem?_drop, ←hl]
    congr 1
    omega

-- Pages from the end of a list to its start: the client has got all but the first `rest` elements.
structure Backward (l : List α) (rest : Nat) (pages : List (List α)) : Prop where
  le      : rest ≤ l.length
  flatten : pages.reverse.flatten = l.drop rest
  bound   : rest + pages.length ≤ max 1 l.length

namespace Backward

variable {l l' : List α} {pages : List (List α)}

theorem start (hk : 0 < k) : Backward l (l.length - k) [l.drop (l.length - k)] where
  le      := Nat.sub_le _ _
  flatten := by simp
  bound   := by
    rw [List.length_singleton]
    omega

-- Elements that are added at the end do not concern a client that is under way.
theorem turn (h : Backward l rest pages) (hr : 0 < rest) (hk : 0 < k) (hl : l <+: l') :
    Backward l (rest - k) (pages ++ [(l'.take rest).drop (rest - k)]) where
  le      := Nat.le_trans (Nat.sub_le _ _) h.le
  flatten := by
    have ⟨t, ht⟩ := hl
    rw [List.reverse_append, List.reverse_singleton, List.singleton_append, List.flatten_cons,
      h.flatten, ←ht, List.take_append_of_le_length h.le]
    conv => rhs; rw [←List.take_append_drop rest l]
    rw [List.drop_append_of_le_length]
    rw [List.length_take]
    have := h.le
    omega
  bound   := by
    have := h.bound
    rw [List.length_append, List.length_singleton]
    omega

end Backward
end Paging

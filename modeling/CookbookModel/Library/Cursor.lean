import Mathlib.Data.List.Sort
import Mathlib.Data.Set.Insert
import Mathlib.Order.Basic

-- A reader that follows a growing set of keys: again and again it asks for the keys after the last
-- one that it has received.
namespace Cursor

variable {K : Type} [LinearOrder K] {keys keys' : Set K} {first after k : K} {received page l : List K}
  {missed : Set K}

-- The last key received, or the one that the reader has started from.
def last (first : K) (received : List K) : K :=
  received.getLast?.getD first

omit [LinearOrder K] in
theorem last_append : last first (received ++ page) = last (last first received) page := by
  cases hl : page.getLast? <;> simp [last, List.getLast?_append, hl]

-- The least keys after the given one, and at least one if there are any.
structure Page (keys : Set K) (after : K) (page : List K) : Prop where
  sorted   : page.Pairwise (· < ·)
  listed   : ∀ k ∈ page, k ∈ keys ∧ after < k
  gapless  : ∀ k ∈ keys, after < k → ∀ k' ∈ page, k ≤ k' → k ∈ page
  complete : page = [] → ∀ k ∈ keys, k ≤ after

-- The reader has received every key up to the last one, except for the missed ones.
structure Follows (keys : Set K) (first : K) (received : List K) (missed : Set K) : Prop where
  sorted : received.Pairwise (· < ·)
  passed : ∀ k, k ∈ received ∨ k ∈ missed ↔ k ∈ keys ∧ first < k ∧ k ≤ last first received
  missed : ∀ k ∈ missed, k ∉ received

theorem Page.of_take (hs : l.Pairwise (· < ·)) (hl : ∀ k, k ∈ l ↔ k ∈ keys ∧ after < k)
    (hn : 0 < n) : Page keys after (l.take n) where
  sorted := hs.sublist (List.take_sublist _ _)
  listed k hk := (hl k).mp <| List.mem_of_mem_take hk
  gapless k hk ha k' hk' hle := by
    have hk := (hl k).mpr ⟨hk, ha⟩
    rw [←List.take_append_drop n l] at hs hk
    cases List.mem_append.mp hk
    case inl hk => exact hk
    case inr hk => exact absurd ((List.pairwise_append.mp hs).right.right k' hk' k hk) (not_lt.mpr hle)
  complete he k hk := by
    by_contra ha
    have hm := (hl k).mpr ⟨hk, not_le.mp ha⟩
    cases List.take_eq_nil_iff.mp he
    case inl he => omega
    case inr he => simp [he] at hm

namespace Follows

theorem start : Follows keys first [] ∅ where
  sorted   := .nil
  passed k := by simp +contextual [last]
  missed   := by simp

theorem first_le (h : Follows keys first received missed) : first ≤ last first received := by
  cases hl : received.getLast?
  case none => simp [last, hl]
  case some k =>
    have hk := (h.passed k).mp <| .inl <| List.mem_of_getLast? hl
    simpa [last, hl] using hk.right.left.le

-- A key that is added where the reader has been before is missed.
theorem add (h : Follows keys first received missed) (hk : k ∉ keys) :
    Follows (insert k keys) first received
      (missed ∪ {k' | k' = k ∧ first < k ∧ k ≤ last first received}) where
  sorted := h.sorted
  passed k' := by
    have hp := h.passed k'
    simp only [Set.mem_union, Set.mem_ofPred_eq, ←or_assoc, hp, Set.mem_insert_iff]
    by_cases he : k' = k
    case pos => simp [he, hk]
    case neg => simp [he]
  missed k' hm hr := by
    have hp := h.passed k'
    cases hm
    case inl hm => exact h.missed k' hm hr
    case inr hm => exact hk <| hm.left ▸ (hp.mp <| .inl hr).left

-- Keys that are added after all others are not missed.
theorem grow (h : Follows keys first received ∅) (hk : keys ⊆ keys')
    (hNew : ∀ k ∈ keys', k ∉ keys → ∀ k' ∈ keys, k' < k) : Follows keys' first received ∅ where
  sorted := h.sorted
  passed k := by
    refine (h.passed k).trans ⟨fun hp => ⟨hk hp.left, hp.right⟩, fun hp => ⟨?_, hp.right⟩⟩
    by_contra hn
    have hKey := hp.left
    cases hl : received.getLast?
    case none      =>
      have hp := hp.right
      simp only [last, hl, Option.getD_none] at hp
      exact absurd hp.left (not_lt.mpr hp.right)
    case some top =>
      have hTop := ((h.passed top).mp <| .inl <| List.mem_of_getLast? hl).left
      have hp := hp.right.right
      simp only [last, hl, Option.getD_some] at hp
      exact absurd (hNew k hKey hn top hTop) (not_lt.mpr hp)
  missed := by simp

theorem read (h : Follows keys first received missed)
    (hp : Page keys (last first received) page) : Follows keys first (received ++ page) missed := by
  cases hl : page.getLast?
  case none =>
    rw [List.getLast?_eq_none_iff.mp hl, List.append_nil]
    exact h
  case some top =>
    have hTop := List.mem_of_getLast? hl
    have hLast : last first (received ++ page) = top := by simp [last, List.getLast?_append, hl]
    have hPage : ∀ k ∈ page, k ≤ top := fun k hk => by
      have ⟨_, he⟩ := List.getLast?_eq_some_iff.mp hl
      subst he
      cases List.mem_append.mp hk
      case inl hk => exact ((List.pairwise_append.mp hp.sorted).right.right k hk top (by simp)).le
      case inr hk => exact (List.mem_singleton.mp hk).le
    have hBefore {k : K} (hk : k ∈ received ∨ k ∈ missed) : k ≤ last first received :=
      ((h.passed k).mp hk).right.right
    constructor
    case sorted =>
      refine List.pairwise_append.mpr ⟨h.sorted, hp.sorted, fun k hk k' hk' => ?_⟩
      exact (hBefore <| .inl hk).trans_lt (hp.listed k' hk').right
    case passed =>
      intro k
      rw [hLast]
      constructor
      case mp =>
        intro hk
        by_cases hk' : k ∈ page
        case pos =>
          have ⟨hKey, hAfter⟩ := hp.listed k hk'
          exact ⟨hKey, h.first_le.trans_lt hAfter, hPage k hk'⟩
        case neg =>
          have ⟨hKey, hFirst, hk⟩ := (h.passed k).mp <| by simpa [hk'] using hk
          exact ⟨hKey, hFirst, hk.trans (hp.listed top hTop).right.le⟩
      case mpr =>
        rintro ⟨hKey, hFirst, hk⟩
        by_cases ha : k ≤ last first received
        case pos =>
          have hk := (h.passed k).mpr ⟨hKey, hFirst, ha⟩
          exact hk.imp_left (List.mem_append_left _)
        case neg =>
          have hk := hp.gapless k hKey (not_le.mp ha) top hTop hk
          exact .inl <| List.mem_append_right _ hk
    case missed =>
      intro k hk hm
      cases List.mem_append.mp hm
      case inl hm => exact h.missed k hk hm
      case inr hm => exact absurd (hp.listed k hm).right (not_lt.mpr <| hBefore <| .inr hk)

-- A reader that has come to an end has received everything if and only if it has missed nothing.
theorem exact_iff (h : Follows keys first received missed)
    (hp : Page keys (last first received) []) :
    (∀ k, k ∈ received ↔ k ∈ keys ∧ first < k) ↔ ∀ k, k ∉ missed := by
  have hEnd (k : K) : k ∈ received ∨ k ∈ missed ↔ k ∈ keys ∧ first < k := by
    rw [h.passed]
    exact ⟨fun hk => ⟨hk.left, hk.right.left⟩,
      fun hk => ⟨hk.left, hk.right, hp.complete rfl k hk.left⟩⟩
  constructor
  case mp  => exact fun he k hk => h.missed k hk <| (he k).mpr <| (hEnd k).mp <| .inr hk
  case mpr => exact fun hn k => by simpa [hn k] using hEnd k

end Follows
end Cursor

import Mathlib.Data.List.Sort

-- `sort.Slice` with a `less` that is a total order of the items
def sortSlice (less : α → α → Bool) (items : List α) : List α :=
  items.insertionSort fun a b => !less b a

@[simp]
theorem mem_sortSlice {items : List α} : a ∈ sortSlice less items ↔ a ∈ items :=
  List.mem_insertionSort _

-- The binary search of `sort.Search`, which looks at the indices from `i` to `j`. Each round at
-- least halves their number.
def searchFrom (f : Nat → Bool) : (rounds i j : Nat) → Nat
  | 0, i, _          => i
  | rounds + 1, i, j =>
    if i < j then
      let h := (i + j) / 2
      if f h then searchFrom f rounds i h else searchFrom f rounds (h + 1) j
    else
      i

-- `sort.Search`
def search (n : Nat) (f : Nat → Bool) : Nat :=
  searchFrom f n 0 n

theorem searchFrom_le (h : i ≤ j) : searchFrom f rounds i j ≤ j := by
  induction rounds generalizing i j
  case zero => exact h
  case succ rounds hi =>
    simp only [searchFrom]
    split
    case isFalse => exact h
    case isTrue  =>
      split
      case isTrue  => exact (hi (by omega)).trans (by omega)
      case isFalse => exact hi (by omega)

theorem search_le : search n f ≤ n :=
  searchFrom_le n.zero_le

theorem searchFrom_bounds (hr : j - i ≤ rounds) (hij : i ≤ j) :
    i ≤ searchFrom f rounds i j ∧
    (i < searchFrom f rounds i j → f (searchFrom f rounds i j - 1) = false) ∧
    (searchFrom f rounds i j < j → f (searchFrom f rounds i j) = true) := by
  induction rounds generalizing i j
  case zero =>
    simp only [searchFrom]
    exact ⟨le_rfl, fun h => absurd h (lt_irrefl i), fun h => by omega⟩
  case succ rounds hi =>
    simp only [searchFrom]
    split
    case isFalse h => exact ⟨le_rfl, fun h => absurd h (lt_irrefl i), fun h' => absurd h' h⟩
    case isTrue h =>
      split
      case isTrue hf =>
        have ⟨hLow, hBelow, hAbove⟩ := hi (i := i) (j := (i + j) / 2) (by omega) (by omega)
        have hHigh : searchFrom f rounds i ((i + j) / 2) ≤ (i + j) / 2 := searchFrom_le (by omega)
        refine ⟨hLow, hBelow, fun _ => ?_⟩
        rcases hHigh.lt_or_eq with hl | he
        case inl => exact hAbove hl
        case inr => rwa [he]
      case isFalse hf =>
        have ⟨hLow, hBelow, hAbove⟩ := hi (i := (i + j) / 2 + 1) (j := j) (by omega) (by omega)
        refine ⟨by omega, fun _ => ?_, hAbove⟩
        rcases hLow.lt_or_eq with hl | he
        case inl => exact hBelow hl
        case inr => rwa [←he, Nat.add_sub_cancel, ←Bool.not_eq_true]

-- Where `f` is monotone, the search finds the least index at which it holds.
theorem search_le_iff (hf : ∀ i j, i ≤ j → j < n → f i = true → f j = true) (hi : i < n) :
    search n f ≤ i ↔ f i = true := by
  have hHigh : search n f ≤ n := search_le
  have ⟨_, hBelow, hAbove⟩ := searchFrom_bounds (f := f) (Nat.sub_le n 0) n.zero_le
  rw [search] at hHigh ⊢
  constructor
  case mp  => exact fun hs => hf _ _ hs hi <| hAbove <| hs.trans_lt hi
  case mpr =>
    intro h
    by_contra hs
    have hFalse := hBelow <| by omega
    rw [hf i _ (by omega) (by omega) h] at hFalse
    contradiction

-- A search in a list that has the elements with the property at its end.
theorem drop_search {l : List α} {p : α → Bool} (hl : l.Pairwise fun a b => p a → p b) :
    l.drop (search l.length fun i => l[i]?.any p) = l.filter p := by
  have hp {i : Nat} (hi : i < l.length) :
      (search l.length fun i => l[i]?.any p) ≤ i ↔ p l[i] = true := by
    refine (search_le_iff (fun i j hij hj hf => ?_) hi).trans <| by simp [hi]
    simp only [hj, hij.trans_lt hj, List.getElem?_eq_getElem, Option.any_some] at hf ⊢
    rcases hij.lt_or_eq with h | h
    case inl => exact List.pairwise_iff_getElem.mp hl i j (hij.trans_lt hj) hj h hf
    case inr => subst h; exact hf
  generalize (search l.length fun i => l[i]?.any p) = k at hp ⊢
  conv => rhs; rw [←List.take_append_drop k l, List.filter_append]
  have hTake : (l.take k).filter p = [] := by
    refine List.filter_eq_nil_iff.mpr fun a ha => ?_
    have ⟨i, hi, he⟩ := List.mem_iff_getElem.mp ha
    rw [List.length_take] at hi
    rw [←he, List.getElem_take, ←hp (by omega)]
    omega
  have hDrop : (l.drop k).filter p = l.drop k := by
    refine List.filter_eq_self.mpr fun a ha => ?_
    have ⟨i, hi, he⟩ := List.mem_iff_getElem.mp ha
    rw [List.length_drop] at hi
    rw [←he, List.getElem_drop, ←hp (by omega)]
    omega
  rw [hTake, hDrop, List.nil_append]

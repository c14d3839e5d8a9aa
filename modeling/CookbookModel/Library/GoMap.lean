import Mathlib.Data.Finmap
import Mathlib.Data.Fintype.Quotient
import Mathlib.Data.List.Sort

-- A Go map: finitely many keys, each with one value.
def GoMap (α β : Type) :=
  Finmap fun _ : α => β

namespace GoMap

variable {α β γ : Type} [DecidableEq α] {m m₁ m₂ : GoMap α β} {k k' : α} {v : β}

instance [DecidableEq β] : DecidableEq (GoMap α β) :=
  inferInstanceAs <| DecidableEq (Finmap fun _ : α => β)

instance : EmptyCollection (GoMap α β) :=
  inferInstanceAs <| EmptyCollection (Finmap fun _ : α => β)

instance : Membership α (GoMap α β) :=
  inferInstanceAs <| Membership α (Finmap fun _ : α => β)

instance : GetElem? (GoMap α β) α β (fun m k => k ∈ m) where
  getElem m k h := (Finmap.lookup k m).get (Finmap.lookup_isSome.mpr h)
  getElem? m k := Finmap.lookup k m

-- `m[k] = v`
def set (m : GoMap α β) (k : α) (v : β) : GoMap α β :=
  Finmap.insert k v m

-- `delete(m, k)`
def delete (m : GoMap α β) (k : α) : GoMap α β :=
  Finmap.erase k m

-- Sets or deletes the value of a key.
def store (m : GoMap α β) (k : α) : Option β → GoMap α β
  | some v => m.set k v
  | none   => m.delete k

omit [DecidableEq α] in
theorem nodupKeys_filter {p : α → β → Bool} {entries : Multiset (Sigma fun _ : α => β)}
    (h : entries.NodupKeys) : (entries.filter fun e => p e.1 e.2).NodupKeys := by
  induction entries using Quotient.inductionOn
  case h l => exact h.sublist List.filter_sublist

-- The entries that satisfy `p`.
def filter (m : GoMap α β) (p : α → β → Bool) : GoMap α β where
  entries   := m.entries.filter fun e => p e.1 e.2
  nodupKeys := nodupKeys_filter m.nodupKeys

def keys (m : GoMap α β) : Finset α :=
  Finmap.keys m

-- `len(m)`
def len (m : GoMap α β) : Nat :=
  m.keys.card

theorem ext (h : ∀ k : α, m₁[k]? = m₂[k]?) : m₁ = m₂ :=
  Finmap.ext_lookup h

@[simp]
theorem get_empty : (∅ : GoMap α β)[k]? = none :=
  Finmap.lookup_empty _

theorem get_set : (m.set k v)[k']? = if k' = k then some v else m[k']? := by
  split
  case isTrue h  => subst h; exact Finmap.lookup_insert _
  case isFalse h => exact Finmap.lookup_insert_of_ne _ h

@[simp]
theorem get_set_self : (m.set k v)[k]? = some v :=
  Finmap.lookup_insert _

theorem get_set_ne (h : k' ≠ k) : (m.set k v)[k']? = m[k']? :=
  Finmap.lookup_insert_of_ne _ h

theorem set_same (h : m[k]? = some v) : m.set k v = m := by
  refine ext fun k' => ?_
  rw [get_set]
  split
  case isTrue e => rw [e, h]
  case isFalse  => rfl

theorem get_delete : (m.delete k)[k']? = if k' = k then none else m[k']? := by
  split
  case isTrue h  => subst h; exact Finmap.lookup_erase _ _
  case isFalse h => exact Finmap.lookup_erase_ne h

@[simp]
theorem get_delete_self : (m.delete k)[k]? = none :=
  Finmap.lookup_erase _ _

theorem get_delete_ne (h : k' ≠ k) : (m.delete k)[k']? = m[k']? :=
  Finmap.lookup_erase_ne h

@[simp]
theorem store_some : m.store k (some v) = m.set k v :=
  rfl

@[simp]
theorem store_none : m.store k none = m.delete k :=
  rfl

@[simp]
theorem store_get : m.store k m[k]? = m := by
  cases h : m[k]?
  case some v => exact set_same h
  case none   =>
    refine ext fun k' => ?_
    rw [store, get_delete]
    split
    case isTrue e => rw [e, h]
    case isFalse  => rfl

theorem get_store {x : Option β} : (m.store k x)[k']? = if k' = k then x else m[k']? := by
  cases x
  case none   => exact get_delete
  case some v => exact get_set

theorem get_filter {p : α → β → Bool} : (m.filter p)[k]? = m[k]?.filter (p k) := by
  refine Option.ext fun v => ?_
  have h : (m.filter p)[k]? = some v ↔ m[k]? = some v ∧ p k v := by
    refine Finmap.lookup_eq_some_iff.trans <| Multiset.mem_filter.trans ?_
    exact and_congr_left fun _ => Finmap.lookup_eq_some_iff.symm
  rw [h, Option.filter_eq_some_iff]

theorem mem_keys_iff_get : k ∈ m.keys ↔ ∃ v, m[k]? = some v :=
  Finmap.mem_keys.trans <| Finmap.lookup_isSome.symm.trans Option.isSome_iff_exists

theorem not_mem_keys_iff_get : k ∉ m.keys ↔ m[k]? = none := by
  simp [mem_keys_iff_get, Option.eq_none_iff_forall_ne_some]

theorem mem_keys (h : m[k]? = some v) : k ∈ m.keys :=
  mem_keys_iff_get.mpr ⟨v, h⟩

theorem not_mem_keys (h : m[k]? = none) : k ∉ m.keys :=
  not_mem_keys_iff_get.mpr h

omit [DecidableEq α] in
@[simp]
theorem keys_empty : (∅ : GoMap α β).keys = ∅ :=
  Finmap.keys_empty

@[simp]
theorem keys_set : (m.set k v).keys = insert k m.keys := by
  ext k'
  simp only [mem_keys_iff_get, get_set, Finset.mem_insert]
  split <;> simp_all

@[simp]
theorem keys_delete : (m.delete k).keys = m.keys.erase k := by
  ext k'
  simp only [mem_keys_iff_get, get_delete, Finset.mem_erase]
  split <;> simp_all

omit [DecidableEq α] in
@[simp]
theorem len_empty : (∅ : GoMap α β).len = 0 := by
  simp [len]

theorem len_set_new (h : m[k]? = none) : (m.set k v).len = m.len + 1 := by
  simp [len, Finset.card_insert_of_notMem (not_mem_keys h)]

theorem len_set_old (h : m[k]? = some v') : (m.set k v).len = m.len := by
  simp [len, Finset.insert_eq_of_mem (mem_keys h)]

theorem len_delete (h : m[k]? = some v) : (m.delete k).len = m.len - 1 := by
  simp [len, Finset.card_erase_of_mem (mem_keys h)]

theorem len_pos (h : m[k]? = some v) : 0 < m.len :=
  Finset.card_pos.mpr ⟨k, mem_keys h⟩

theorem len_store {x : Option β} :
    ((m.store k x).len : Int) = m.len + (if x.isSome then 1 else 0) - if m[k]?.isSome then 1 else 0 := by
  cases x <;> cases h : m[k]?
  case none.none     => simp [len, Finset.erase_eq_of_notMem (not_mem_keys h)]
  case none.some v   =>
    have := len_pos h
    simp [len_delete h]
    omega
  case some.none v   => simp [len_set_new h]
  case some.some v w => simp [len_set_old h]

-- The number of entries whose value satisfies `p`.
def count (m : GoMap α β) (p : β → Bool) : Nat :=
  (m.keys.filter fun k => m[k]?.any p).card

@[simp]
theorem count_empty : (∅ : GoMap α β).count p = 0 := by
  simp [count]

theorem count_set_new (h : m[k]? = none) :
    (m.set k v).count p = m.count p + if p v then 1 else 0 := by
  have hk := not_mem_keys h
  have hm : m.keys.filter (fun k' => (m.set k v)[k']?.any p) =
      m.keys.filter (fun k' => m[k']?.any p) := by
    refine Finset.filter_congr fun k' hk' => ?_
    rw [get_set_ne fun (e : k' = k) => hk (e ▸ hk')]
  simp only [count, keys_set, Finset.filter_insert, get_set_self, Option.any_some, hm]
  split
  case isTrue  => exact Finset.card_insert_of_notMem (by simp [hk])
  case isFalse => rfl

-- Replacing a value by one on which `p` agrees changes no count.
theorem count_set_old (h : m[k]? = some v') (hp : p v = p v') : (m.set k v).count p = m.count p := by
  simp only [count, keys_set, Finset.insert_eq_of_mem (mem_keys h)]
  congr 1
  refine Finset.filter_congr fun k' _ => ?_
  rw [get_set]
  split
  case isTrue e  => simp [e, h, hp]
  case isFalse   => rfl

section

variable {κ : Type} [LinearOrder κ] {m : GoMap κ β}

-- The values in the order of their keys. Go's `range` visits them in any order.
def values (m : GoMap κ β) : List β :=
  (Quotient.liftOn m.keys.val (List.insertionSort (· ≤ ·)) fun l₁ l₂ h =>
    @List.Perm.eq_of_pairwise _ (· ≤ ·) _ _ (fun _ _ _ _ => le_antisymm)
      (List.pairwise_insertionSort _ l₁) (List.pairwise_insertionSort _ l₂) <|
      (List.perm_insertionSort _ l₁).trans <| h.trans (List.perm_insertionSort _ l₂).symm).filterMap
    fun k => m[k]?

theorem mem_values [inst : DecidableEq κ] : v ∈ m.values ↔ ∃ k : κ, m[k]? = some v := by
  cases Subsingleton.elim inst fun a b => LinearOrder.toDecidableEq a b
  have hk (k : κ) : k ∈ m.keys.val ↔ ∃ v, m[k]? = some v := mem_keys_iff_get
  unfold values
  generalize m.keys.val = ks at hk ⊢
  induction ks using Quotient.inductionOn
  case h l =>
    simp only [Quotient.liftOn_mk, List.mem_filterMap, List.mem_insertionSort]
    exact ⟨fun ⟨k, _, hv⟩ => ⟨k, hv⟩, fun ⟨k, hv⟩ => ⟨k, (hk k).mpr ⟨v, hv⟩, hv⟩⟩

end

end GoMap

import CookbookModel.Library.Control
import CookbookModel.Library.DynamoDB.Table
import Mathlib.Data.List.Forall2

namespace DynamoDB

section

variable {c : Condition} {t : TransactWriteItem} {key : Key} {x x' : Option Item} {T T' : Table}
  {items : List TransactWriteItem}

theorem TransactWriteItem.conditionHolds_eq (hc : Condition.parse t.condition = some c)
    (old : Item) : t.conditionHolds old = some (c.eval t.bindings old) := by
  have hEmpty : Condition.parse [] = none := rfl
  have hne : t.condition ≠ [] := fun he => by simp [he, hEmpty] at hc
  simp [conditionHolds, hne, hc]

theorem TransactWriteItem.written_update (ht : t.write = .update key' expression)
    (he : Assignment.parse expression = some assignments)
    (ha : Assignment.apply t.bindings (x.getD ∅) assignments (x.getD key.item) = some item) :
    t.written key x = some (some item) := by
  simp [written, ht, he, ha]

theorem TransactWriteItem.step_ok :
    t.step key x = .ok x' ↔
      t.conditionHolds (x.getD ∅) = some true ∧ t.written key x = some x' := by
  unfold step
  split <;> simp_all

theorem TransactWriteItem.run_ok (hk : t.key = some key) :
    t.run T = .ok w ↔ ∃ x, t.step key T[key]? = .ok x ∧ w = (key, x) := by
  simp only [run, hk]
  cases t.step key T[key]? <;> simp [Except.map, eq_comm]

theorem Table.transactWriteItems_ok :
    T.transactWriteItems items = .ok T' ↔ ∃ writes, items.mapM (·.run T) = .ok writes ∧
      T' = writes.foldl (fun T (key, item) => T.store key item) T := by
  unfold transactWriteItems
  cases items.mapM (·.run T) <;> simp [eq_comm]

end

-- A table whose items stand for typed values under typed keys.
structure View (K V : Type) where
  key    : K → Key
  Stored : K → Item → V → Prop

-- What an item of a transaction does to a typed value: it goes through if the guard holds, and it
-- has the effect then.
structure Rule (K V : Type) where
  key    : K
  guard  : Option V → Prop
  effect : Option V → Option V

-- The value under the key is as required and stays as it is.
def Rule.check (k : K) (guard : V → Prop) : Rule K V where
  key    := k
  guard  := fun y => ∃ v ∈ y, guard v
  effect := id

def Rule.create (k : K) (v : V) : Rule K V where
  key    := k
  guard  := (· = none)
  effect := fun _ => some v

def Rule.modify (k : K) (guard : V → Prop) (f : V → V) : Rule K V where
  key    := k
  guard  := fun y => ∃ v ∈ y, guard v
  effect := Option.map f

def Rule.remove (k : K) (guard : V → Prop) : Rule K V where
  key    := k
  guard  := fun y => ∃ v ∈ y, guard v
  effect := fun _ => none

variable {K V : Type} [DecidableEq K] {view : View K V} {B B' : GoMap K V} {T T' : Table}
  {rules : List (Rule K V)} {items : List TransactWriteItem}

def Rules.Allowed (rules : List (Rule K V)) (B : GoMap K V) : Prop :=
  ∀ r ∈ rules, r.guard B[r.key]?

-- Every effect is computed from the map before the transaction.
def Rules.apply (rules : List (Rule K V)) (B : GoMap K V) : GoMap K V :=
  rules.foldl (fun B' r => B'.store r.key (r.effect B[r.key]?)) B

namespace View

structure Represents (view : View K V) (T : Table) (B : GoMap K V) : Prop where
  items : ∀ k, Option.Rel (view.Stored k) T[view.key k]? B[k]?
  keys  : ∀ key ∈ T.keys, ∃ k, view.key k = key

-- The item of a transaction does to the stored item what the rule does to the typed value.
structure Realizes (view : View K V) (t : TransactWriteItem) (r : Rule K V) : Prop where
  key       : t.key = some (view.key r.key)
  condition : ∀ {x y}, Option.Rel (view.Stored r.key) x y →
    (t.conditionHolds (x.getD ∅) = some true ↔ r.guard y)
  written   : ∀ {x y}, Option.Rel (view.Stored r.key) x y → r.guard y →
    ∃ x', t.written (view.key r.key) x = some x' ∧
      Option.Rel (view.Stored r.key) x' (r.effect y)

namespace Realizes

omit [DecidableEq K] in
theorem sound (ht : view.Realizes t r) (h : Option.Rel (view.Stored r.key) x y)
    (hx : t.step (view.key r.key) x = .ok x') :
    r.guard y ∧ Option.Rel (view.Stored r.key) x' (r.effect y) := by
  have ⟨hc, hw⟩ := TransactWriteItem.step_ok.mp hx
  have hGuard := (ht.condition h).mp hc
  have ⟨x'', hw', hRel⟩ := ht.written h hGuard
  cases hw.symm.trans hw'
  exact ⟨hGuard, hRel⟩

omit [DecidableEq K] in
theorem allowed (ht : view.Realizes t r) (h : Option.Rel (view.Stored r.key) x y)
    (hGuard : r.guard y) : ∃ x', t.step (view.key r.key) x = .ok x' :=
  have ⟨x', hw, _⟩ := ht.written h hGuard
  ⟨x', TransactWriteItem.step_ok.mpr ⟨(ht.condition h).mpr hGuard, hw⟩⟩

omit [DecidableEq K] in
theorem nodup_keys (hi : Function.Injective view.key) (ht : List.Forall₂ view.Realizes items rules)
    (hr : (rules.map (·.key)).Nodup) : (items.map (·.key)).Nodup := by
  have he : items.map (·.key) = (rules.map (·.key)).map fun k => some (view.key k) := by
    induction ht
    case nil            => rfl
    case cons ht _ hi' => simp [ht.key, hi' (List.nodup_cons.mp hr).right]
  rw [he]
  exact hr.map <| (Option.some_injective _).comp hi

end Realizes

namespace Represents

theorem empty : view.Represents ∅ (∅ : GoMap K V) where
  items k := by rw [GoMap.get_empty, GoMap.get_empty]; exact .none
  keys    := by simp

theorem store (hi : Function.Injective view.key) (h : view.Represents T B)
    (hx : Option.Rel (view.Stored k) x y) :
    view.Represents (T.store (view.key k) x) (B.store k y) where
  items k' := by
    rw [GoMap.get_store, GoMap.get_store]
    by_cases he : k' = k
    case pos => simpa [he] using hx
    case neg => simpa [he, hi.eq_iff] using h.items k'
  keys key hm := by
    have ⟨item, hItem⟩ := GoMap.mem_keys_iff_get.mp hm
    rw [GoMap.get_store] at hItem
    split at hItem
    case isTrue he => exact ⟨k, he.symm⟩
    case isFalse   => exact h.keys key (GoMap.mem_keys hItem)

theorem storeAll (hi : Function.Injective view.key)
    (hw : List.Forall₂ (fun (w : Key × Option Item) (v : K × Option V) =>
      w.1 = view.key v.1 ∧ Option.Rel (view.Stored v.1) w.2 v.2) writes values)
    (h : view.Represents T B) :
    view.Represents (writes.foldl (fun T w => T.store w.1 w.2) T)
      (values.foldl (fun B v => B.store v.1 v.2) B) := by
  induction hw generalizing T B
  case nil => exact h
  case cons w v writes values hwv _ hi' =>
    refine hi' ?_
    simp only [hwv.left]
    exact h.store hi hwv.right

-- The items that a transaction writes, one for each of its items.
theorem writes {ws : List (Key × Option Item)} (h : view.Represents T B)
    (ha : List.Forall₂ view.Realizes items rules) (hw : items.mapM (·.run T) = .ok ws) :
    Rules.Allowed rules B ∧ List.Forall₂ (fun (w : Key × Option Item) (v : K × Option V) =>
      w.1 = view.key v.1 ∧ Option.Rel (view.Stored v.1) w.2 v.2) ws
        (rules.map fun r => (r.key, r.effect B[r.key]?)) := by
  induction ha generalizing ws
  case nil =>
    cases Except.pure_eq_ok.mp hw
    exact ⟨by simp [Rules.Allowed], .nil⟩
  case cons t r items rules ha _ hi =>
    simp only [List.mapM_cons, Except.bind_eq_ok, Except.pure_eq_ok,
      TransactWriteItem.run_ok ha.key] at hw
    have ⟨w, ⟨x, hx, hw₁⟩, ws, hw₂, he⟩ := hw
    have ⟨hGuard, hRel⟩ := ha.sound (h.items r.key) hx
    have ⟨hGuards, hRels⟩ := hi hw₂
    subst hw₁ he
    exact ⟨List.forall_mem_cons.mpr ⟨hGuard, hGuards⟩, .cons ⟨rfl, hRel⟩ hRels⟩

-- A transaction that goes through was allowed and has the effects of its rules.
theorem transact (hi : Function.Injective view.key) (h : view.Represents T B)
    (ha : List.Forall₂ view.Realizes items rules) (ht : T.transactWriteItems items = .ok T') :
    Rules.Allowed rules B ∧ view.Represents T' (Rules.apply rules B) := by
  have ⟨writes, hw, he⟩ := Table.transactWriteItems_ok.mp ht
  have ⟨hGuards, hRels⟩ := h.writes ha hw
  have hAll := h.storeAll hi hRels
  rw [List.foldl_map] at hAll
  exact ⟨hGuards, he ▸ hAll⟩

-- A transaction that is allowed goes through.
theorem transact_allowed (h : view.Represents T B) (ha : List.Forall₂ view.Realizes items rules)
    (hGuards : Rules.Allowed rules B) : ∃ T', T.transactWriteItems items = .ok T' := by
  have hw : ∃ writes, items.mapM (·.run T) = .ok writes := by
    induction ha
    case nil => exact ⟨[], rfl⟩
    case cons t r items rules ha _ hi =>
      have ⟨hGuard, hGuards⟩ := List.forall_mem_cons.mp hGuards
      have ⟨x, hx⟩ := ha.allowed (h.items r.key) hGuard
      have ⟨writes, hw⟩ := hi hGuards
      refine ⟨(view.key r.key, x) :: writes, ?_⟩
      rw [List.mapM_cons, (TransactWriteItem.run_ok ha.key).mpr ⟨x, hx, rfl⟩, hw]
      rfl
  have ⟨writes, hw⟩ := hw
  exact ⟨_, Table.transactWriteItems_ok.mpr ⟨writes, hw, rfl⟩⟩

end Represents
end View
end DynamoDB

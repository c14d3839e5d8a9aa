import CookbookModel.Library.DynamoDB.View

namespace DynamoDB

section

variable {T : Table} {q : QueryInput}

-- The items of a query are those selected, in the order of their keys or the other way round.
theorem Table.query_sorted :
    ∃ keys : List Key,
      keys.Pairwise (fun k k' => toLex (k.sk, k.pk) < toLex (k'.sk, k'.pk)) ∧
      (∀ key, key ∈ keys ↔ ∃ item, T[key]? = some item ∧ q.selects key item = true) ∧
      (T.query q).items =
        ((if q.scanIndexForward then keys else keys.reverse).take q.limit).filterMap (T[·]?) := by
  let selected := T.keys.filter fun key => T[key]?.any (q.selects key)
  let sorted := (selected.image fun key => toLex (key.sk, key.pk)).sort (· ≤ ·)
  refine ⟨sorted.map fun k => ⟨(ofLex k).2, (ofLex k).1⟩, ?_, fun key => ?_, ?_⟩
  · exact List.pairwise_map.mpr (Finset.sortedLT_sort _).pairwise
  · have hm : key ∈ selected ↔ ∃ item, T[key]? = some item ∧ q.selects key item = true := by
      simp only [selected, Finset.mem_filter, Option.any_eq_true, GoMap.mem_keys_iff_get]
      exact and_iff_right_of_imp fun ⟨item, h, _⟩ => ⟨item, h⟩
    rw [←hm]
    simp only [sorted, List.mem_map, Finset.mem_sort, Finset.mem_image]
    constructor
    · rintro ⟨_, ⟨key', hk, rfl⟩, rfl⟩
      exact hk
    · exact fun hk => ⟨_, ⟨key, hk, rfl⟩, rfl⟩
  · simp only [Table.query, sorted, selected]
    split
    case isTrue  => rfl
    case isFalse => rw [List.map_reverse]

-- A query over keys that are ordered by an index.
theorem Table.query_indexed [LinearOrder ι] {f : ι → Key} {P : ι → Prop}
    (hf : Function.Injective f)
    (hOrder : ∀ {i j}, toLex ((f i).sk, (f i).pk) < toLex ((f j).sk, (f j).pk) → i < j)
    (hSelects : ∀ {key item}, T[key]? = some item →
      (q.selects key item = true ↔ ∃ i, P i ∧ f i = key)) :
    ∃ l : List ι, l.Pairwise (· < ·) ∧ (∀ i, i ∈ l ↔ f i ∈ T.keys ∧ P i) ∧
      (T.query q).items =
        ((if q.scanIndexForward then l else l.reverse).take q.limit).filterMap (T[f ·]?) := by
  have ⟨keys, hSorted, hKeys, hItems⟩ := Table.query_sorted (T := T) (q := q)
  have hRange : keys ∈ Set.range (List.map f) := by
    rw [Set.range_list_map]
    intro key hk
    have ⟨item, hItem, hs⟩ := (hKeys key).mp hk
    have ⟨i, _, hi⟩ := (hSelects hItem).mp hs
    exact ⟨i, hi⟩
  have ⟨l, hl⟩ := hRange
  subst hl
  refine ⟨l, (List.pairwise_map.mp hSorted).imp hOrder, fun i => ?_, ?_⟩
  · rw [←List.mem_map_of_injective hf, hKeys, GoMap.mem_keys_iff_get]
    constructor
    · rintro ⟨item, hItem, hs⟩
      have ⟨j, hj, he⟩ := (hSelects hItem).mp hs
      exact ⟨⟨item, hItem⟩, hf he ▸ hj⟩
    · rintro ⟨⟨item, hItem⟩, hi⟩
      exact ⟨item, hItem, (hSelects hItem).mpr ⟨i, hi, rfl⟩⟩
  · rw [hItems]
    split
    case isTrue  => rw [←List.map_take, List.filterMap_map]; rfl
    case isFalse => rw [←List.map_reverse, ←List.map_take, List.filterMap_map]; rfl

end

section

variable {K V : Type} [DecidableEq K] {view : View K V} {B : GoMap K V} {T : Table}
  {rules : List (Rule K V)} {items : List TransactWriteItem} {k : K}

-- A value that no rule is about stays as it is.
theorem Rules.apply_other (hk : ∀ r ∈ rules, r.key ≠ k) : (Rules.apply rules B)[k]? = B[k]? := by
  have hAll {B' : GoMap K V} (h : B'[k]? = B[k]?) :
      (rules.foldl (fun B' r => B'.store r.key (r.effect B[r.key]?)) B')[k]? = B[k]? := by
    induction rules generalizing B'
    case nil => exact h
    case cons r rules hi =>
      have ⟨hr, hk⟩ := List.forall_mem_cons.mp hk
      refine hi hk ?_
      rw [GoMap.get_store, if_neg hr.symm, h]
  exact hAll rfl

omit [DecidableEq K] in
theorem View.Realizes.mem_keys (hi : Function.Injective view.key)
    (h : List.Forall₂ view.Realizes items rules) :
    (∃ t ∈ items, t.key = some (view.key k)) ↔ ∃ r ∈ rules, r.key = k := by
  induction h
  case nil               => simp
  case cons ht _ hAll => simp [ht.key, hi.eq_iff, hAll]

end

end DynamoDB

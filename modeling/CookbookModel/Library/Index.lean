import CookbookModel.Library.Control
import CookbookModel.Library.GoMap

-- An index that tells of every key whom it belongs to. It is built from pairs of owners and keys,
-- which must agree about the owner of a key.
namespace Index

variable {κ ν ε : Type} [DecidableEq κ] {pairs pairs' : List (ν × κ)} {m m' : GoMap κ ν} {k : κ}
  {v : ν}

def Functional (pairs : List (ν × κ)) : Prop :=
  ∀ {k v v'}, (v, k) ∈ pairs → (v', k) ∈ pairs → v = v'

structure Indexes (m : GoMap κ ν) (pairs : List (ν × κ)) : Prop where
  get : ∀ {k v}, m[k]? = some v ↔ (v, k) ∈ pairs

namespace Indexes

theorem empty : Indexes (∅ : GoMap κ ν) [] where
  get := by simp

theorem functional (h : Indexes m pairs) : Functional pairs := by
  intro k v v' hv hv'
  exact Option.some_inj.mp <| (h.get.mpr hv).symm.trans (h.get.mpr hv')

theorem unique (h : Indexes m pairs) (h' : Indexes m' pairs') (he : ∀ p, p ∈ pairs ↔ p ∈ pairs') :
    m = m' :=
  GoMap.ext fun _ => Option.ext fun _ => h.get.trans <| (he _).trans h'.get.symm

theorem set (h : Indexes m pairs) (hk : ∀ v', (v', k) ∈ pairs → v' = v) :
    Indexes (m.set k v) (pairs ++ [(v, k)]) where
  get {k' v'} := by
    rw [GoMap.get_set, List.mem_append, List.mem_singleton, Prod.mk.injEq]
    split
    case isTrue he =>
      subst he
      rw [Option.some_inj]
      exact ⟨fun he => .inr ⟨he.symm, rfl⟩, fun hm => hm.elim (fun hm => (hk _ hm).symm) (·.left.symm)⟩
    case isFalse he => simp [h.get, he]

-- A loop that refuses a key with another owner.
theorem foldlM_ok {f : GoMap κ ν → ν × κ → Except ε (GoMap κ ν)} {P : ν → Prop}
    (hf : ∀ {m m' pairs p}, Indexes m pairs → (∀ q ∈ pairs, P q.1) → P p.1 →
      (f m p = .ok m' ↔ (∀ v, (v, p.2) ∈ pairs → v = p.1) ∧ m' = m.set p.2 p.1))
    (h : Indexes m pairs) (hp : ∀ q ∈ pairs ++ pairs', P q.1) :
    pairs'.foldlM f m = .ok m' ↔ Functional (pairs ++ pairs') ∧ Indexes m' (pairs ++ pairs') := by
  induction pairs' generalizing m pairs
  case nil =>
    simp only [List.foldlM_nil, Except.pure_eq_ok, List.append_nil]
    constructor
    case mp  => rintro rfl; exact ⟨h.functional, h⟩
    case mpr => exact fun h' => h.unique h'.right fun _ => Iff.rfl
  case cons p pairs' hi =>
    have hPairs (q) (hq : q ∈ pairs) : P q.1 := hp q <| List.mem_append_left _ hq
    have hStep {n : GoMap κ ν} : f m p = .ok n ↔ (∀ v, (v, p.2) ∈ pairs → v = p.1) ∧ n = m.set p.2 p.1 :=
      hf h hPairs <| hp p <| by simp
    rw [List.append_cons] at hp ⊢
    simp only [List.foldlM_cons, Except.bind_eq_ok, hStep]
    constructor
    case mp =>
      rintro ⟨_, ⟨hk, rfl⟩, hRest⟩
      exact (hi (h.set hk) hp).mp hRest
    case mpr =>
      intro hAll
      have hk (v : ν) (hv : (v, p.2) ∈ pairs) : v = p.1 :=
        hAll.left (k := p.2) (by simp [hv]) (by simp)
      exact ⟨_, ⟨hk, rfl⟩, (hi (h.set hk) hp).mpr hAll⟩

-- The loop comes to an end unless a key has two owners.
theorem foldlM_isOk {f : GoMap κ ν → ν × κ → Except ε (GoMap κ ν)} {P : ν → Prop}
    (hf : ∀ {m m' pairs p}, Indexes m pairs → (∀ q ∈ pairs, P q.1) → P p.1 →
      (f m p = .ok m' ↔ (∀ v, (v, p.2) ∈ pairs → v = p.1) ∧ m' = m.set p.2 p.1))
    (h : Indexes m pairs) (hp : ∀ q ∈ pairs ++ pairs', P q.1) :
    (∃ m', pairs'.foldlM f m = .ok m') ↔ Functional (pairs ++ pairs') := by
  refine ⟨fun ⟨_, hm⟩ => ((foldlM_ok hf h hp).mp hm).left, fun hAll => ?_⟩
  induction pairs' generalizing m pairs
  case nil => exact ⟨m, rfl⟩
  case cons p pairs' hi =>
    have hPairs (q) (hq : q ∈ pairs) : P q.1 := hp q <| List.mem_append_left _ hq
    have hStep {n : GoMap κ ν} : f m p = .ok n ↔ (∀ v, (v, p.2) ∈ pairs → v = p.1) ∧ n = m.set p.2 p.1 :=
      hf h hPairs <| hp p <| by simp
    have hk (v : ν) (hv : (v, p.2) ∈ pairs) : v = p.1 :=
      hAll (k := p.2) (by simp [hv]) (by simp)
    rw [List.append_cons] at hp hAll
    have ⟨m', hm⟩ := hi (h.set hk) hp hAll
    exact ⟨m', by rw [List.foldlM_cons, hStep.mpr ⟨hk, rfl⟩]; exact hm⟩

end Indexes
end Index

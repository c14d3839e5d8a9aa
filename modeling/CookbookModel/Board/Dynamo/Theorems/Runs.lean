import CookbookModel.Board.Dynamo.Theorems.Commit

namespace Board.Dynamo

open GoString DynamoDB

section

variable {o : Op} {w : Outcome} {T : Table} {items : List TransactWriteItem}

theorem committed_none (h : committed o w T = none) : (exec o w T).2 = T := by
  unfold committed at h
  unfold exec
  cases o <;> try rfl
  case transactWriteItems items =>
    dsimp only at h ⊢
    cases hw : w.answer <;> cases hT : T.transactWriteItems items <;> simp_all

theorem committed_some (h : committed o w T = some items) :
    o = .transactWriteItems items ∧ T.transactWriteItems items = .ok (exec o w T).2 := by
  unfold committed at h
  unfold exec
  cases o <;> try contradiction
  case transactWriteItems items =>
    dsimp only at h ⊢
    cases hw : w.answer <;> cases hT : T.transactWriteItems items <;> simp_all

end

variable [Platform] {limits : Limits} {B : Contents} {tr : List (system limits).Event}
  {C : (system limits).Config} {e : (system limits).Event}

-- A step that carries out a transaction makes a commit, and any other step leaves the table alone.
theorem step_commit (h : Represents e.store B)
    (he : (method limits e.call).Emits (System.path e.thread tr) e.op) :
    (committed e.op e.outcome e.store = none ∧ Represents e.post B) ∨
      ∃ items B', committed e.op e.outcome e.store = some items ∧
        Commit limits B e.call (System.path e.thread tr) items B' ∧ Represents e.post B' := by
  cases hc : committed e.op e.outcome e.store
  case none =>
    have hT : e.post = e.store := committed_none hc
    exact .inl ⟨rfl, hT ▸ h⟩
  case some items =>
    have ⟨ho, hT⟩ := committed_some hc
    have ⟨B', hCommit, hRep⟩ := (method_transacts (ho ▸ he)).commit h hT
    exact .inr ⟨items, B', rfl, hCommit, hRep⟩

-- What the commits of a run preserve holds of the contents of its table throughout.
theorem run_contents {I : List (system limits).Event → Contents → Prop} (h₀ : I [] ∅)
    (hSame : ∀ {tr e B}, I tr B → Represents e.post B → committed e.op e.outcome e.store = none →
      I (tr ++ [e]) B)
    (hs : ∀ {tr e B items B'}, I tr B → Represents e.store B → Represents e.post B' →
      committed e.op e.outcome e.store = some items →
      Commit limits B e.call (System.path e.thread tr) items B' → I (tr ++ [e]) B')
    (h : (system limits).Run tr C) : ∃ B, Represents C.store B ∧ I tr B := by
  refine h.induction (I := fun tr T => ∃ B, Represents T B ∧ I tr B)
    ⟨∅, View.Represents.empty, h₀⟩ fun hI he _ => ?_
  have ⟨B, hRep, hB⟩ := hI
  cases step_commit hRep he
  case inl hn => exact ⟨B, hn.right, hSame hB hn.right hn.left⟩
  case inr hc =>
    have ⟨items, B', hc, hCommit, hRep'⟩ := hc
    exact ⟨B', hRep', hs hB hRep hRep' hc hCommit⟩

-- Every item of a reachable table is the one of something.
theorem run_stored (h : (system limits).Run tr C) {key : Key} (hKey : key ∈ C.store.keys) :
    ∃ k d, k.key = key ∧ stored C.store k = some d := by
  have ⟨B, hRep, _⟩ := run_contents (I := fun _ _ => True) trivial (fun _ _ _ => trivial)
    (fun _ _ _ _ _ => trivial) h
  have ⟨k, hk⟩ := hRep.keys key hKey
  subst hk
  have ⟨d, hd⟩ := (mem_keys_iff hRep).mp hKey
  exact ⟨k, d, rfl, (stored_eq hRep k).trans hd⟩

theorem event_represents (h : (system limits).Run tr C) (he : e ∈ tr) :
    ∃ B, Represents e.store B := by
  have ⟨tr₁, tr₂, he⟩ := List.mem_iff_append.mp he
  have ⟨C', h', hs⟩ := h.event_run he
  have ⟨B, hRep, _⟩ := run_contents (I := fun _ _ => True) trivial (fun _ _ _ => trivial)
    (fun _ _ _ _ _ => trivial) h'
  exact ⟨B, hs ▸ hRep⟩

section

variable {i : Nat} {k : BoardKey} {d : DdbItem} {items : List TransactWriteItem}

-- What a call has read was stored.
theorem path_read (h : ⟨.getItem k.key, r⟩ ∈ System.path (S := system limits) i tr)
    (hr : itemRead r = .ok d) : ∃ e ∈ tr, stored e.store k = some d := by
  have ⟨⟨_, _, _, w, T⟩, he, _, hOp⟩ := System.mem_path h
  have ⟨hOp, hRes⟩ := Sigma.mk.inj hOp
  subst hOp
  refine ⟨_, he, ?_⟩
  have hRes : w.answer.read T[k.key]? = r := eq_of_heq hRes
  have hRead : itemRead (w.answer.read T[k.key]?) = .ok d := hRes ▸ hr
  simp only [stored]
  revert hRead
  cases w.answer <;> cases T[k.key]? <;> intro hRead <;> try cases hRead
  case served.some item => simp [show DdbItem.unmarshalMap item = .ok d from hRead, Except.toOption]

-- A transaction that a call has seen go through was carried out.
theorem path_transact
    (h : ⟨.transactWriteItems items, .ok ()⟩ ∈ System.path (S := system limits) i tr) :
    ∃ e ∈ tr, e.store.transactWriteItems items = .ok e.post := by
  have ⟨⟨_, _, _, w, T⟩, he, _, hOp⟩ := System.mem_path h
  have ⟨hOp, hRes⟩ := Sigma.mk.inj hOp
  subst hOp
  refine ⟨_, he, ?_⟩
  have hDone : (exec (.transactWriteItems items) w T).1 = .ok () := eq_of_heq hRes
  change T.transactWriteItems items = .ok (exec (.transactWriteItems items) w T).2
  simp only [exec] at hDone ⊢
  cases hw : w.answer <;> cases hT : T.transactWriteItems items <;> simp_all

end

end Board.Dynamo

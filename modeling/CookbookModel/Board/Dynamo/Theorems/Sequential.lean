import CookbookModel.Board.Dynamo.Theorems.Requests
import CookbookModel.Board.Dynamo.Theorems.Transactions
import CookbookModel.Board.Refinement

namespace Board.Dynamo

open GoString DynamoDB
open Memory (Stamp)

-- What `getItem` makes of what is stored.
def loaded : Option DdbItem → Except Err DdbItem
  | none   => .error .notFound
  | some d => .ok d

@[simp]
theorem loaded_eq_ok {x : Option DdbItem} : loaded x = .ok d ↔ x = some d := by
  cases x <;> simp [loaded]

section

variable {w : Stamp} {T T' : Table} {B : Contents} {items : List TransactWriteItem}
  {rules : List (Rule BoardKey DdbItem)}

theorem run_getItem (h : Represents T B) (k : BoardKey) :
    (getItem k.key.pk k.key.sk).run (served w) T = (loaded B[k]?, T) := by
  rw [getItem_eq, Program.run_call, Program.run_done]
  refine congrArg (·, T) ?_
  change itemRead (.ok T[k.key]?) = loaded B[k]?
  have hk := item_rel h k
  revert hk
  cases T[k.key]? <;> cases B[k]? <;> intro hk <;> cases hk
  case none           => rfl
  case some hStored => exact hStored.fields

theorem run_getRoom (h : Represents T B) (key : GoString) :
    (getItem (roomPK key) "META").run (served w) T = (loaded B[BoardKey.room key]?, T) :=
  run_getItem h (.room key)

theorem run_getMember (h : Represents T B) (key agent : GoString) :
    (getItem (roomPK key) (memberSK agent)).run (served w) T =
      (loaded B[BoardKey.member key agent]?, T) :=
  run_getItem h (.member key agent)

theorem run_getMessage (h : Represents T B) (key id : GoString) :
    (getItem (roomPK key) (messageSK id)).run (served w) T =
      (loaded B[BoardKey.message key id]?, T) :=
  run_getItem h (.message key id)

theorem run_getIdempotency (h : Represents T B) (key agent k : GoString) :
    (getItem (roomPK key) (idempotencySK agent k)).run (served w) T =
      (loaded B[BoardKey.idempotency key (agent ++ "#" ++ k)]?, T) := by
  have he : idempotencySK agent k =
      (BoardKey.idempotency key (agent ++ "#" ++ k)).key.sk := by
    simp [BoardKey.key, idempotencySK]
  rw [he]
  exact run_getItem h (.idempotency key (agent ++ "#" ++ k))

theorem run_now : now.run (served w) T = (.ok w.now.format, T) :=
  rfl

theorem run_ulid : ulid.run (served w) T = (.ok w.ulid, T) :=
  rfl

theorem run_validated [Platform] {x : Except GoString α} :
    (validated x : StoreM α).run (served w) T = (.ok a, T') ↔ x = .ok a ∧ T = T' := by
  cases x <;> simp [validated]

theorem run_transact (items : List TransactWriteItem) :
    (transactWriteItems items).run (served w) T =
      match T.transactWriteItems items with
      | .ok T'   => (.ok (), T')
      | .error e => (.error (translateDDBWriteError e), T) := by
  rw [transactWriteItems_eq, Program.run_call, Program.run_done]
  change (Except.mapError translateDDBWriteError (exec (.transactWriteItems items) _ T).1,
    (exec (.transactWriteItems items) _ T).2) = _
  simp only [exec]
  cases T.transactWriteItems items <;> rfl

theorem run_transact_allowed (h : Represents T B) (ha : List.Forall₂ view.Realizes items rules)
    (hAllowed : Rules.Allowed rules B) : ∃ T',
      (transactWriteItems items).run (served w) T = (.ok (), T') ∧
      Represents T' (Rules.apply rules B) := by
  have ⟨T', hT⟩ := h.transact_allowed ha hAllowed
  refine ⟨T', ?_, (h.transact BoardKey.key_injective ha hT).right⟩
  rw [run_transact, hT]

theorem run_transact_ok (h : Represents T B) (ha : List.Forall₂ view.Realizes items rules)
    (hr : (transactWriteItems items).run (served w) T = (.ok u, T')) : Rules.Allowed rules B := by
  rw [run_transact] at hr
  split at hr
  case h_1 hT => exact (h.transact BoardKey.key_injective ha hT).left
  case h_2    => cases hr

end

-- Whatever the program comes to, it leaves the contents of the table as they are.
structure Quiet (w : Stamp) (B : Contents) (x : StoreM α) : Prop where
  same : ∀ {T}, Represents T B → Represents (x.run (served w) T).2 B

-- When the program fails, it leaves the contents of the table as they are.
structure FailsQuiet (w : Stamp) (B : Contents) (x : StoreM α) : Prop where
  same : ∀ {T e T'}, Represents T B → x.run (served w) T = (.error e, T') → Represents T' B

section

variable {w : Stamp} {B : Contents} {x : StoreM α} {f : α → StoreM β} {items : List TransactWriteItem}
  {rules : List (Rule BoardKey DdbItem)}

theorem Quiet.done {r : Except Err α} : Quiet w B (.done r) :=
  ⟨id⟩

namespace Quiet

theorem ite {c : Prop} [Decidable c] {x y : StoreM α} (hx : Quiet w B x) (hy : Quiet w B y) :
    Quiet w B (if c then x else y) := by
  split
  case isTrue  => exact hx
  case isFalse => exact hy

theorem throwIf {c : Prop} [Decidable c] {e : Err} : Quiet w B (throwIf c e) :=
  ite .done .done

theorem getItem (pk sk : GoString) : Quiet w B (getItem pk sk) :=
  ⟨fun h => by rwa [getItem_eq]⟩

theorem now : Quiet w B now :=
  ⟨id⟩

theorem ulid : Quiet w B ulid :=
  ⟨id⟩

theorem validated [Platform] {r : Except GoString α} : Quiet w B (validated r) := by
  cases r <;> exact done

-- A transaction of condition checks.
theorem transact (ha : List.Forall₂ view.Realizes items rules) (hNone : Rules.apply rules B = B) :
    Quiet w B (transactWriteItems items) where
  same {T} h := by
    rw [run_transact]
    split
    case h_1 hT => exact hNone ▸ (h.transact BoardKey.key_injective ha hT).right
    case h_2    => exact h

theorem attempt (h : Quiet w B x) : Quiet w B x.attempt :=
  ⟨fun hT => by rw [Program.run_attempt_eq]; exact h.same hT⟩

theorem bind (h : Quiet w B x) (hf : ∀ a, Quiet w B (f a)) : Quiet w B (x >>= f) where
  same {T} hT := by
    have hx := h.same hT
    rw [Program.run_bind]
    rcases hr : x.run (served w) T with ⟨_ | a, T'⟩ <;> rw [hr] at hx
    case error => exact hx
    case ok    => exact (hf a).same hx

theorem failsQuiet (h : Quiet w B x) : FailsQuiet w B x :=
  ⟨fun hT hr => by simpa only [hr] using h.same hT⟩

end Quiet

namespace FailsQuiet

theorem bind (h : Quiet w B x) (hf : ∀ a, FailsQuiet w B (f a)) : FailsQuiet w B (x >>= f) where
  same {T e T'} hT hr := by
    have hx := h.same hT
    rw [Program.run_bind] at hr
    rcases hrx : x.run (served w) T with ⟨_ | a, T''⟩ <;> rw [hrx] at hr hx
    case error => cases hr; exact hx
    case ok    => exact (hf a).same hx hr

-- What follows only rearranges the result.
theorem map {g : α → β} (h : FailsQuiet w B x) : FailsQuiet w B (x >>= fun a => pure (g a)) where
  same {T e T'} hT hr := by
    rw [Program.run_bind] at hr
    rcases hrx : x.run (served w) T with ⟨_ | a, T''⟩ <;> rw [hrx] at hr <;> cases hr
    case error => exact h.same hT hrx

theorem transact : FailsQuiet w B (transactWriteItems items) where
  same {T e T'} hT hr := by
    rw [run_transact] at hr
    split at hr <;> cases hr
    case h_2 => exact hT

-- What comes after a transaction that has failed writes nothing.
theorem transact_attempt {f : Except Err Unit → StoreM β} (hOk : ∀ u, ∃ b, f (.ok u) = pure b)
    (hError : ∀ e, Quiet w B (f (.error e))) :
    FailsQuiet w B ((transactWriteItems items).attempt >>= f) where
  same {T e T'} hT hr := by
    rw [Program.run_bind, Program.run_attempt_eq, run_transact] at hr
    cases hTr : T.transactWriteItems items <;> simp only [hTr] at hr
    case ok =>
      have ⟨b, hb⟩ := hOk ()
      rw [hb] at hr
      cases hr
    case error e' =>
      have h := (hError (translateDDBWriteError e')).same hT
      rwa [hr] at h

end FailsQuiet

variable {limits : Limits} {actor : Identity} {roomKey : GoString}

theorem membershipGuard_quiet :
    Quiet w B (transactWriteItems <| membershipGuardTxn roomKey agent version action) :=
  .transact (realizes_membershipGuard _ _) <| by
    simp [membershipGuardRules, Rules.apply, roomOpenRule, actorRule, Rule.check]

theorem allowlistGuard_quiet :
    Quiet w B (transactWriteItems <| allowlistGuardTxn roomKey actor version roomVersion) :=
  .transact (realizes_allowlistGuard _ _) <| by
    simp [allowlistGuardRules, Rules.apply, roomVersionRule, actorRule, Rule.check]

variable [Platform]

theorem createRoom_failsQuiet : FailsQuiet w B (createRoom limits actor input) :=
  .bind .validated fun _ => .bind .validated fun _ => .bind .now fun _ => .bind .ulid fun _ =>
    .map .transact

theorem getRoomForAgent_quiet : Quiet w B (getRoomForAgent roomID agent) := by
  refine .bind .validated fun _ => .bind .validated fun _ => .bind (.getItem _ _) fun _ => ?_
  refine .bind (.attempt <| .getItem _ _) fun r => ?_
  rcases r with ⟨_ | _⟩ | _ <;> exact .done

theorem grantAllowlist_failsQuiet : FailsQuiet w B (grantAllowlist limits actor input) := by
  refine .bind .validated fun _ => .bind .validated fun _ => ?_
  split
  case h_1 => exact Quiet.done.failsQuiet
  case h_2 =>
    refine .bind .throwIf fun _ => .bind (.getItem _ _) fun _ => .bind .throwIf fun _ => ?_
    refine .bind .throwIf fun _ => .bind (.attempt <| .getItem _ _) fun r => ?_
    rcases r with ⟨_ | _⟩ | existing <;> try exact Quiet.done.failsQuiet
    case error.notFound => exact .bind .now fun _ => .bind .ulid fun _ => .map .transact
    case ok =>
      dsimp only
      split
      case isTrue  => exact .map allowlistGuard_quiet.failsQuiet
      case isFalse => exact .bind .now fun _ => .bind .ulid fun _ => .map .transact

theorem revokeAllowlist_failsQuiet : FailsQuiet w B (revokeAllowlist actor input) :=
  .bind .validated fun _ => .bind .validated fun _ => .bind (.getItem _ _) fun _ =>
    .bind .throwIf fun _ => .bind .throwIf fun _ => .bind (.getItem _ _) fun _ =>
    .bind .now fun _ => .bind .ulid fun _ => .map .transact

theorem setNickname_failsQuiet : FailsQuiet w B (setNickname actor input) := by
  refine .bind .validated fun _ => .bind .validated fun _ => ?_
  refine .bind (.attempt <| .getItem _ _) fun r => ?_
  rcases r with ⟨_ | _⟩ | member <;> try exact Quiet.done.failsQuiet
  case ok =>
    refine .bind .throwIf fun _ => ?_
    split
    case isTrue  => exact .map membershipGuard_quiet.failsQuiet
    case isFalse => exact .bind .now fun _ => .map .transact

omit [Platform] in
theorem classify_quiet : Quiet w B (classifyPostConditionConflict actor roomKey version) := by
  refine .bind (.attempt <| .getItem _ _) fun r => ?_
  rcases r with ⟨_ | _⟩ | room <;> try exact .done
  case ok =>
    refine .bind .throwIf fun _ => .bind (.attempt <| .getItem _ _) fun r => ?_
    rcases r with ⟨_ | _⟩ | member <;> try exact .done
    case ok => exact .bind .throwIf fun _ => .bind .throwIf fun _ => .done

omit [Platform] in
theorem replayPost_quiet : Quiet w B (replayPost actor input roomKey idem) := by
  refine .bind (.attempt membershipGuard_quiet) fun r => ?_
  cases r
  case error e =>
    dsimp only
    split
    case isTrue  => exact .bind classify_quiet fun _ => .done
    case isFalse => exact .done
  case ok => exact .bind .throwIf fun _ => .bind (.getItem _ _) fun _ => .done

theorem postMessage_failsQuiet : FailsQuiet w B (postMessage actor input) := by
  refine .bind .validated fun _ => .bind .throwIf fun _ => ?_
  refine .bind (.attempt <| .getItem _ _) fun r => ?_
  rcases r with ⟨_ | _⟩ | idem <;> try exact Quiet.done.failsQuiet
  case ok => exact replayPost_quiet.failsQuiet
  case error.notFound =>
    refine .bind .now fun _ => .bind .ulid fun _ => .transact_attempt (fun _ => ⟨_, rfl⟩) fun e => ?_
    cases e <;> try exact .done
    case conflict =>
      refine .bind (.attempt <| .getItem _ _) fun r => ?_
      rcases r with ⟨_ | _⟩ | idem <;> try exact .done
      case ok             => exact replayPost_quiet
      case error.notFound => exact .bind classify_quiet fun _ => .done

-- A call that fails leaves the contents of the table as they are.
theorem alone_error {T T' : Table} (h : Represents T B)
    (hr : alone limits c w T = (.error e, T')) : Represents T' B := by
  have hc : FailsQuiet w B (method limits c) := by
    cases c
    case createRoom      => exact .map createRoom_failsQuiet
    case getRoomForAgent => exact .map getRoomForAgent_quiet.failsQuiet
    case grantAllowlist  => exact .map grantAllowlist_failsQuiet
    case revokeAllowlist => exact .map revokeAllowlist_failsQuiet
    case setNickname     => exact .map setNickname_failsQuiet
    case postMessage     => exact .map postMessage_failsQuiet
  exact hc.same h hr

end

end Board.Dynamo

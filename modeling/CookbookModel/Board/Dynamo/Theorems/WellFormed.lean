import CookbookModel.Board.Dynamo.Theorems.Requests
import CookbookModel.Board.Dynamo.Theorems.Transactions

namespace Board.Dynamo

open GoString DynamoDB

section Items

variable {roomKey agent nickname nicknameKey nowText : GoString} {d : DdbItem}

theorem wellFormed_put : (putItemTxn d "attribute_not_exists(PK)").WellFormed :=
  of_decide_eq_true rfl

theorem wellFormed_quota : (quotaTxn agent maxRooms nowText).WellFormed :=
  of_decide_eq_true rfl

theorem wellFormed_actor (action : Action) :
    (actorConditionTxn roomKey agent version action).WellFormed := by
  cases action <;> exact of_decide_eq_true rfl

theorem wellFormed_roomOpen : (roomOpenConditionTxn roomKey).WellFormed :=
  of_decide_eq_true rfl

theorem wellFormed_roomVersion : (roomVersionConditionTxn roomKey version).WellFormed :=
  of_decide_eq_true rfl

theorem wellFormed_revokeMember : (revokeMemberTxn roomKey agent d).WellFormed := by
  unfold revokeMemberTxn revokeMemberCondition revokeMemberValues
  split_ifs <;> first | contradiction | exact of_decide_eq_true rfl

theorem wellFormed_revokeRoom : (revokeRoomTxn roomKey version nowText).WellFormed :=
  of_decide_eq_true rfl

theorem wellFormed_rename :
    (updateNicknameMembershipTxn roomKey agent version role nickname nicknameKey
      nowText).WellFormed :=
  of_decide_eq_true rfl

theorem wellFormed_deleteNickname : (deleteNicknameTxn roomKey nicknameKey agent).WellFormed :=
  of_decide_eq_true rfl

theorem wellFormed_putNickname :
    (putNicknameTxn roomID roomKey nickname nicknameKey agent nowText).WellFormed :=
  of_decide_eq_true rfl

-- The limit on the members is a value of every grant, but only the condition for a new member
-- compares with it.
theorem wellFormed_grantRoom :
    (grantRoomTxn roomKey version maxMembers nowText created).WellFormed ↔ created = true := by
  cases created
  case false => exact iff_of_false (of_decide_eq_false rfl) (by simp)
  case true  => exact iff_of_true (of_decide_eq_true rfl) rfl

end Items

section Requests

variable [Platform] {limits : Limits} {c : Call} {path : List (Σ o, Op.Res o)}
  {items : List TransactWriteItem}

-- The call is a grant to a member that it has read with another role.
def ChangesRole (c : Call) (path : List (Σ o, Op.Res o)) : Prop :=
  ∃ actor input target r d, c = .grantAllowlist actor input ∧
    canonicalDNSName input.targetAgent = .ok target ∧
    ⟨.getItem (BoardKey.member (Base64.encode input.roomID) target).key, r⟩ ∈ path ∧
    itemRead r = .ok d ∧ d.role ≠ input.role

-- A grant changes a role if the membership that it has read has another one.
theorem changesRole_grant {actor : Identity} {input : GrantInput} {roomKey : GoString}
    {r r' : Except ApiError (Option Item)} {rest : List (Σ o, Op.Res o)}
    (hRoom : normalizeRoomID input.roomID = .ok roomID) (hKey : roomKey = Base64.encode roomID)
    (hTarget : canonicalDNSName input.targetAgent = .ok target)
    (hRest : ∀ e ∈ rest, ∀ key, e.1 ≠ .getItem key) :
    ChangesRole (.grantAllowlist actor input)
      (⟨.getItem ⟨roomPK roomKey, "META"⟩, r⟩ ::
        ⟨.getItem ⟨roomPK roomKey, memberSK target⟩, r'⟩ :: rest) ↔
      ∃ d, itemRead r' = .ok d ∧ d.role ≠ input.role := by
  have hID := normalizeRoomID_ok hRoom
  subst hKey hID
  constructor
  case mp =>
    rintro ⟨_, _, target', r'', d, hCall, hTarget', hm, hd, hRole⟩
    cases hCall
    cases hTarget.symm.trans hTarget'
    rcases List.mem_cons.mp hm with he | hm
    case inl =>
      have hOp := Op.getItem.inj (Sigma.mk.inj he).left
      have hKey : (BoardKey.member _ _).key = (BoardKey.room _).key := hOp
      exact absurd (BoardKey.key_inj.mp hKey) (by simp)
    case inr =>
      rcases List.mem_cons.mp hm with he | hm
      case inl =>
        cases eq_of_heq (Sigma.mk.inj he).right
        exact ⟨d, hd, hRole⟩
      case inr => exact absurd rfl (hRest _ hm _)
  case mpr =>
    rintro ⟨d, hd, hRole⟩
    exact ⟨actor, input, target, r', d, rfl, hTarget, by simp [BoardKey.key], hd, hRole⟩

-- DynamoDB's static validation accepts a request unless it changes the role of a member.
theorem requests_wellFormed (h : (method limits c).Emits path (.transactWriteItems items)) :
    WellFormed items ↔ ¬ChangesRole c path := by
  have hi := BoardKey.key_injective
  cases method_transacts h
  case createRoom =>
    refine iff_of_true ⟨?_, ?_⟩ (by simp [ChangesRole])
    · simp only [createRoomTxn, List.forall_mem_cons]
      exact ⟨wellFormed_put, wellFormed_put, wellFormed_put, wellFormed_quota, by simp⟩
    · exact View.Realizes.nodup_keys hi (realizes_createRoom _)
        (by simp [createRoomRules, Rule.create, quotaRule])
  case grant existing hRoom hKey hTarget hRole _ hActor _ _ hNew hExisting =>
    rw [changesRole_grant hRoom hKey hTarget (by simp)]
    cases existing
    case none =>
      refine iff_of_true ⟨?_, ?_⟩ (by simp [hNew rfl])
      · simp only [grantTxn, List.forall_mem_cons]
        exact ⟨wellFormed_actor _, wellFormed_grantRoom.mpr rfl, wellFormed_put, wellFormed_put,
          by simp⟩
      · exact View.Realizes.nodup_keys hi
          (realizes_grant none _ _ (role_ne_zero hRole)) (by
            simp [grantRules, actorRule, grantRoomRule, Rule.check, Rule.modify, Rule.create,
              hActor.symm])
    case some d =>
      refine iff_of_false (fun hw => ?_) (not_not.mpr ⟨d, hExisting d rfl⟩)
      have hGrant := hw.left _ (List.mem_cons_of_mem _ List.mem_cons_self)
      exact absurd (wellFormed_grantRoom.mp hGrant) (by simp)
  case grantGuard d hRoom hKey hTarget hExisting hSame =>
    rw [changesRole_grant hRoom hKey hTarget (by simp)]
    refine iff_of_true ⟨?_, ?_⟩ (by simp [hExisting, hSame])
    · simp only [allowlistGuardTxn, List.forall_mem_cons]
      exact ⟨wellFormed_roomVersion, wellFormed_actor _, by simp⟩
    · exact View.Realizes.nodup_keys hi (realizes_allowlistGuard _ _)
        (by simp [allowlistGuardRules, actorRule, roomVersionRule, Rule.check])
  case revoke member hRoom hKey hTarget hActor hRead hOwner hMember =>
    refine iff_of_true ⟨?_, ?_⟩ (by simp [ChangesRole])
    · by_cases hk : member.nicknameKey = [] <;>
        simp [revokeTxn, hk, wellFormed_actor, wellFormed_revokeMember, wellFormed_revokeRoom,
          wellFormed_put, wellFormed_deleteNickname]
    · refine View.Realizes.nodup_keys hi (realizes_revoke _ member) ?_
      by_cases hk : member.nicknameKey = [] <;>
        simp [revokeRules, hk, actorRule, revokeRoomRule, revokeMemberRule, deleteNicknameRule,
          Rule.check, Rule.modify, Rule.create, Rule.remove, hActor.symm]
  case setNickname nicknameKey _ _ _ _ _ member _ _ _ hNickname _ _ _ =>
    have hne := nicknameKey_ne_nil hNickname
    refine iff_of_true ⟨?_, ?_⟩ (by simp [ChangesRole])
    · by_cases hk : member.nicknameKey = [] <;> by_cases hn : member.nicknameKey = nicknameKey <;>
        simp [setNicknameTxn, hk, hn, wellFormed_roomOpen, wellFormed_rename,
          wellFormed_deleteNickname, wellFormed_putNickname]
    · refine View.Realizes.nodup_keys hi (realizes_setNickname _ member hne) ?_
      by_cases hk : member.nicknameKey = [] <;> by_cases hn : member.nicknameKey = nicknameKey <;>
        simp [setNicknameRules, hk, hn, hne, roomOpenRule, renameRule, deleteNicknameRule,
          putNicknameRule, Rule.check, Rule.modify, Rule.remove]
  case setNicknameGuard =>
    refine iff_of_true ⟨?_, ?_⟩ (by simp [ChangesRole])
    · simp only [membershipGuardTxn, List.forall_mem_cons]
      exact ⟨wellFormed_roomOpen, wellFormed_actor _, by simp⟩
    · exact View.Realizes.nodup_keys hi (realizes_membershipGuard _ _)
        (by simp [membershipGuardRules, actorRule, roomOpenRule, Rule.check])
  case post =>
    refine iff_of_true ⟨?_, ?_⟩ (by simp [ChangesRole])
    · simp only [postTxn, List.forall_mem_cons]
      exact ⟨wellFormed_roomOpen, wellFormed_actor _, wellFormed_put, wellFormed_put, by simp⟩
    · exact View.Realizes.nodup_keys hi (realizes_post _)
        (by simp [postRules, actorRule, roomOpenRule, Rule.check, Rule.create])
  case postGuard =>
    refine iff_of_true ⟨?_, ?_⟩ (by simp [ChangesRole])
    · simp only [membershipGuardTxn, List.forall_mem_cons]
      exact ⟨wellFormed_roomOpen, wellFormed_actor _, by simp⟩
    · exact View.Realizes.nodup_keys hi (realizes_membershipGuard _ _)
        (by simp [membershipGuardRules, actorRule, roomOpenRule, Rule.check])

end Requests

section

attribute [local instance] asciiPlatform

-- The items of a transaction
def Op.transaction : Op → Option (List TransactWriteItem)
  | .transactWriteItems items => some items
  | _                         => none

theorem Op.transaction_eq_some {o : Op} (h : o.transaction = some items) :
    o = .transactWriteItems items := by
  cases o <;> cases h
  rfl

theorem requests_wellFormed_create : ∃ path items,
    (method ⟨50, 100⟩ Sample.create).Emits path (.transactWriteItems items) ∧
      (WellFormed items ↔ ¬ChangesRole Sample.create path) := by
  have h : ((system ⟨50, 100⟩).replay [] ⟨(system ⟨50, 100⟩).init, []⟩
      (moves 0 Sample.create 3)).any fun x => ∃ e ∈ x.1,
        e.call = Sample.create ∧ e.op.transaction.isSome := by
    decide
  have ⟨⟨tr, C⟩, hr, he⟩ := (Option.any_eq_true _ _).mp h
  have ⟨e, he, hc, ho⟩ := of_decide_eq_true he
  have ⟨items, ho⟩ := Option.isSome_iff_exists.mp ho
  have ⟨_, _, he⟩ := List.mem_iff_append.mp he
  have hEmits := (System.replay_run .init hr).event_emits he
  rw [hc, Op.transaction_eq_some ho] at hEmits
  exact ⟨_, items, hEmits, requests_wellFormed hEmits⟩

-- Alice lets Bob in and makes him an admin.
theorem requests_wellFormed_fails : ∃ tr C, (system ⟨50, 100⟩).Run tr C ∧
    ∃ e ∈ tr, e.call = Sample.grant .admin 2 ∧
      ∃ items, e.op = .transactWriteItems items ∧ ¬WellFormed items := by
  have h : ((system ⟨50, 100⟩).replay [] ⟨(system ⟨50, 100⟩).init, []⟩
      (moves 0 Sample.create 3 ++ moves 1 (Sample.grant .poster 1) 5 ++
        moves 2 (Sample.grant .admin 2) 5)).any fun x => ∃ e ∈ x.1,
          e.call = Sample.grant .admin 2 ∧ e.op.transaction.any fun items => ¬WellFormed items := by
    decide
  have ⟨⟨tr, C⟩, hr, he⟩ := (Option.any_eq_true _ _).mp h
  have ⟨e, he, hc, ho⟩ := of_decide_eq_true he
  have ⟨items, ho, hw⟩ := (Option.any_eq_true _ _).mp ho
  exact ⟨tr, C, System.replay_run .init hr, e, he, hc, items, Op.transaction_eq_some ho,
    of_decide_eq_true hw⟩

end

end Board.Dynamo

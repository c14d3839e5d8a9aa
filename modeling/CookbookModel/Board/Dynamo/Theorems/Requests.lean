import CookbookModel.Board.Dynamo.Store

namespace Board.Dynamo

open GoString DynamoDB

-- What a method makes of the answer to its request.
def itemRead : Except ApiError (Option Item) → Except Err DdbItem
  | .error e        => .error (translateDDBError e)
  | .ok none        => .error .notFound
  | .ok (some item) => DdbItem.unmarshalMap item

theorem now_eq : now = .call .now fun t => .done (.ok t.format) :=
  rfl

theorem ulid_eq : ulid = .call .ulid fun u => .done (.ok u) :=
  rfl

theorem getItem_eq (pk sk : GoString) :
    getItem pk sk = .call (.getItem ⟨pk, sk⟩) fun r => .done (itemRead r) := by
  refine congrArg (Program.call _) (funext fun r => ?_)
  match r with
  | .error _     => rfl
  | .ok none     => rfl
  | .ok (some _) => rfl

theorem transactWriteItems_eq (items : List TransactWriteItem) :
    transactWriteItems items =
      .call (.transactWriteItems items) fun r => .done (r.mapError translateDDBWriteError) := by
  refine congrArg (Program.call _) (funext fun r => ?_)
  match r with
  | .error _ => rfl
  | .ok ()   => rfl

variable [Platform]

theorem roomKey_normalized (h : normalizeRoomID v = .ok roomID) :
    roomKey roomID = .ok (Base64.encode roomID) := by
  have hv := normalizeRoomID_ok h
  subst hv
  rw [roomKey, h]
  rfl

theorem roomKeyOf_normalized (h : normalizeRoomID v = .ok roomID) :
    roomKeyOf roomID = Base64.encode roomID := by
  rw [roomKeyOf, roomKey_normalized h]

omit [Platform] in
theorem emits_validated_bind {f : α → StoreM β} :
    (validated x >>= f).Emits path o ↔ ∃ a, x = .ok a ∧ (f a).Emits path o := by
  cases x <;> simp [validated]

-- The transactions of a call, with the answers its method has got before.
inductive Transacts (limits : Limits) :
    Call → List (Σ o, Op.Res o) → List TransactWriteItem → Prop
  | createRoom {actor : Identity} {input : CreateRoomInput} {roomKey : GoString}
      (hRoom : normalizeRoomID input.roomID = .ok roomID) (hKey : roomKey = Base64.encode roomID) :
    Transacts limits (.createRoom actor input) [⟨.now, t⟩, ⟨.ulid, u⟩]
      (createRoomTxn
        (newRoomItem roomID roomKey (if input.name = [] then roomID else input.name)
          input.description actor.agent t.format)
        (newMemberItem roomID roomKey actor.agent .owner ((capabilitiesForRole .owner).getD [])
          actor.agent t.format)
        (auditItem roomKey "room_created" actor.agent actor.agent .owner input.tokenJTIHash t.format
          u)
        (quotaTxn actor.agent limits.maxRoomsPerAgent t.format))
  | grant {actor : Identity} {input : GrantInput} {roomKey : GoString} (existing : Option DdbItem)
      (hRoom : normalizeRoomID input.roomID = .ok roomID) (hKey : roomKey = Base64.encode roomID)
      (hTarget : canonicalDNSName input.targetAgent = .ok target)
      (hRole : capabilitiesForRole input.role = some capabilities) (hNotOwner : input.role ≠ .owner)
      (hActor : target ≠ actor.agent) (hRead : itemRead r = .ok room) (hOwner : target ≠ room.owner)
      (hNew : existing = none → itemRead r' = .error .notFound)
      (hExisting : ∀ d, existing = some d → itemRead r' = .ok d ∧ d.role ≠ input.role) :
    Transacts limits (.grantAllowlist actor input)
      [⟨.getItem ⟨roomPK roomKey, "META"⟩, r⟩, ⟨.getItem ⟨roomPK roomKey, memberSK target⟩, r'⟩,
        ⟨.now, t⟩, ⟨.ulid, u⟩]
      (grantTxn roomKey actor input limits.maxMembersPerRoom
        (existing.elim
          (newMemberItem roomID roomKey target input.role capabilities actor.agent t.format)
          (regrantedItem
            (newMemberItem roomID roomKey target input.role capabilities actor.agent t.format)))
        (auditItem roomKey "allowlist_granted" actor.agent target input.role input.tokenJTIHash
          t.format u)
        t.format existing.isNone)
  | grantGuard {actor : Identity} {input : GrantInput} {roomKey : GoString} {existing : DdbItem}
      (hRoom : normalizeRoomID input.roomID = .ok roomID) (hKey : roomKey = Base64.encode roomID)
      (hTarget : canonicalDNSName input.targetAgent = .ok target)
      (hExisting : itemRead r' = .ok existing) (hSame : existing.role = input.role) :
    Transacts limits (.grantAllowlist actor input)
      [⟨.getItem ⟨roomPK roomKey, "META"⟩, r⟩, ⟨.getItem ⟨roomPK roomKey, memberSK target⟩, r'⟩]
      (allowlistGuardTxn roomKey actor input.actorMemberVersion input.expectedRoomVersion)
  | revoke {actor : Identity} {input : RevokeInput} {roomKey : GoString} {member : DdbItem}
      (hRoom : normalizeRoomID input.roomID = .ok roomID) (hKey : roomKey = Base64.encode roomID)
      (hTarget : canonicalDNSName input.targetAgent = .ok target)
      (hActor : target ≠ actor.agent) (hRead : itemRead r = .ok room) (hOwner : target ≠ room.owner)
      (hMember : itemRead r' = .ok member) :
    Transacts limits (.revokeAllowlist actor input)
      [⟨.getItem ⟨roomPK roomKey, "META"⟩, r⟩, ⟨.getItem ⟨roomPK roomKey, memberSK target⟩, r'⟩,
        ⟨.now, t⟩, ⟨.ulid, u⟩]
      (revokeTxn roomKey actor input target member
        (auditItem roomKey "allowlist_revoked" actor.agent target .zero input.tokenJTIHash t.format
          u)
        t.format)
  | setNickname {actor : Identity} {input : SetNicknameInput} {roomKey : GoString}
      {member : DdbItem} {nickname : GoString}
      (hRoom : normalizeRoomID input.roomID = .ok roomID) (hKey : roomKey = Base64.encode roomID)
      (hNickname : Board.nickname input.nickname = .ok (nickname, nicknameKey))
      (hMember : itemRead r = .ok member) (hRole : roleCan member.role .updateNickname)
      (hChange : ¬(member.nickname = nickname ∧ member.nicknameKey = nicknameKey)) :
    Transacts limits (.setNickname actor input)
      [⟨.getItem ⟨roomPK roomKey, memberSK actor.agent⟩, r⟩, ⟨.now, t⟩]
      (setNicknameTxn roomID roomKey actor.agent input.actorMemberVersion member nickname nicknameKey
        t.format)
  | setNicknameGuard {actor : Identity} {input : SetNicknameInput} {roomKey : GoString}
      {member : DdbItem} {nickname : GoString}
      (hRoom : normalizeRoomID input.roomID = .ok roomID) (hKey : roomKey = Base64.encode roomID)
      (hNickname : Board.nickname input.nickname = .ok (nickname, nicknameKey))
      (hMember : itemRead r = .ok member)
      (hSame : member.nickname = nickname ∧ member.nicknameKey = nicknameKey) :
    Transacts limits (.setNickname actor input)
      [⟨.getItem ⟨roomPK roomKey, memberSK actor.agent⟩, r⟩]
      (membershipGuardTxn roomKey actor.agent input.actorMemberVersion .updateNickname)
  | post {actor : Identity} {input : PostInput} {roomKey : GoString}
      (hRoom : normalizeRoomID input.roomID = .ok roomID) (hKey : roomKey = Base64.encode roomID)
      (hNonempty : input.idempotencyKey ≠ []) (hNew : itemRead r = .error .notFound) :
    Transacts limits (.postMessage actor input)
      [⟨.getItem ⟨roomPK roomKey, idempotencySK actor.agent input.idempotencyKey⟩, r⟩, ⟨.now, t⟩,
        ⟨.ulid, u⟩]
      (postTxn roomKey actor input
        (idempotencyItem roomKey actor.agent input ("msg_" ++ u) t.format)
        (messageItem roomID roomKey actor.agent input ("msg_" ++ u) t.format))
  | postGuard {actor : Identity} {input : PostInput} {roomKey : GoString}
      (hRoom : normalizeRoomID input.roomID = .ok roomID) (hKey : roomKey = Base64.encode roomID) :
    Transacts limits (.postMessage actor input) path
      (membershipGuardTxn roomKey actor.agent input.actorMemberVersion .postMessage)

section

variable {limits : Limits} {items : List TransactWriteItem} {path : List (Σ o, Op.Res o)}
  {actor : Identity} {roomKey : GoString}

attribute [local simp]
  emits_validated_bind Program.emits_call Program.emits_done_bind Program.emits_throwIf_bind
  now_eq ulid_eq getItem_eq transactWriteItems_eq

theorem createRoom_transacts {input : CreateRoomInput}
    (h : (createRoom limits actor input).Emits path (.transactWriteItems items)) :
    Transacts limits (.createRoom actor input) path items := by
  simp [createRoom] at h
  obtain ⟨roomID, hRoom, key, hKey, t, u, rfl, rfl⟩ := h
  cases hKey.symm.trans (roomKey_normalized hRoom)
  exact .createRoom hRoom rfl

theorem getRoomForAgent_transacts :
    ¬(getRoomForAgent roomID agent).Emits path (.transactWriteItems items) := by
  intro h
  simp [getRoomForAgent] at h
  obtain ⟨_, _, _, _, _, _, _, _, _, h⟩ := h
  split at h <;> simp at h

theorem grantAllowlist_transacts {input : GrantInput}
    (h : (grantAllowlist limits actor input).Emits path (.transactWriteItems items)) :
    Transacts limits (.grantAllowlist actor input) path items := by
  simp [grantAllowlist] at h
  obtain ⟨roomID, hRoom, target, hTarget, h⟩ := h
  rw [roomKeyOf_normalized hRoom] at h
  split at h
  case h_1 => simp at h
  case h_2 capabilities hRole =>
    simp at h
    obtain ⟨hNotOwner, r, room, r', _, rfl, hRead, hActor, hOwner, h⟩ := h
    split at h
    case h_1 hNew =>
      simp at h
      obtain ⟨t, u, rfl, rfl⟩ := h
      exact .grant none hRoom rfl hTarget hRole hNotOwner hActor hRead hOwner
        (fun _ => hNew) (by simp)
    case h_2 => simp at h
    case h_3 existing hExisting =>
      split at h
      case isTrue hSame =>
        simp [guardAllowlistAuthorization] at h
        obtain ⟨rfl, rfl⟩ := h
        exact .grantGuard hRoom rfl hTarget hExisting hSame
      case isFalse hChange =>
        simp at h
        obtain ⟨t, u, rfl, rfl⟩ := h
        exact .grant (some existing) hRoom rfl hTarget hRole hNotOwner hActor hRead hOwner
          (by simp) (by simpa using ⟨hExisting, hChange⟩)

theorem revokeAllowlist_transacts {input : RevokeInput}
    (h : (revokeAllowlist actor input).Emits path (.transactWriteItems items)) :
    Transacts limits (.revokeAllowlist actor input) path items := by
  simp [revokeAllowlist] at h
  obtain ⟨roomID, hRoom, target, hTarget, r, room, r', member, t, u, rfl, hRead, hActor, hOwner,
    hMember, rfl⟩ := h
  rw [roomKeyOf_normalized hRoom]
  exact .revoke hRoom rfl hTarget hActor hRead hOwner hMember

theorem setNickname_transacts {input : SetNicknameInput}
    (h : (setNickname actor input).Emits path (.transactWriteItems items)) :
    Transacts limits (.setNickname actor input) path items := by
  simp [setNickname] at h
  obtain ⟨roomID, hRoom, nickname, nicknameKey, hNickname, r, _, rfl, h⟩ := h
  rw [roomKeyOf_normalized hRoom] at h ⊢
  split at h <;> simp at h
  case h_3 member hMember =>
    have ⟨hRole, h⟩ := h
    split at h
    case isTrue hSame =>
      simp [guardMembershipAction] at h
      obtain ⟨rfl, rfl⟩ := h
      exact .setNicknameGuard hRoom rfl hNickname hMember hSame
    case isFalse hChange =>
      simp at h
      obtain ⟨t, rfl, rfl⟩ := h
      exact .setNickname hRoom rfl hNickname hMember hRole hChange

omit [Platform] in
-- Once a post has failed, nothing is written any more.
theorem classify_reads : (classifyPostConditionConflict actor roomKey version).Always
    fun o => ∃ key, o = .getItem key := by
  simp only [classifyPostConditionConflict, getItem_eq, Program.attempt_call, Program.attempt_done,
    Program.call_bind, Program.ok_bind, Program.throw_eq]
  refine ⟨⟨_, rfl⟩, fun r => ?_⟩
  dsimp only
  split <;> try trivial
  refine .throwIf_bind ⟨⟨_, rfl⟩, fun r => ?_⟩
  dsimp only
  split <;> try trivial
  exact .throwIf_bind <| .throwIf_bind trivial

omit [Platform] in
theorem classify_transacts {f : Unit → StoreM α}
    (hf : ∀ u, (f u).Always fun o => ∃ key, o = .getItem key) :
    ¬(classifyPostConditionConflict actor roomKey version >>= f).Emits path
      (.transactWriteItems items) := fun h =>
  have ⟨_, h⟩ := (classify_reads.bind hf).emits h
  nomatch h

omit [Platform] in
theorem replayPost_transacts {input : PostInput}
    (h : (replayPost actor input roomKey idem).Emits path (.transactWriteItems items)) :
    items = membershipGuardTxn roomKey actor.agent input.actorMemberVersion .postMessage := by
  simp [replayPost, guardPostAuthorization] at h
  rcases h with ⟨rfl, rfl⟩ | ⟨_, _, _, h⟩
  case inl => rfl
  case inr =>
    split at h
    case h_1 =>
      split at h
      case isTrue  => exact absurd h <| classify_transacts fun _ => trivial
      case isFalse => simp at h
    case h_2 => simp at h

theorem postMessage_transacts {input : PostInput}
    (h : (postMessage actor input).Emits path (.transactWriteItems items)) :
    Transacts limits (.postMessage actor input) path items := by
  simp [postMessage] at h
  obtain ⟨roomID, hRoom, hNonempty, r, _, rfl, h⟩ := h
  rw [roomKeyOf_normalized hRoom] at h ⊢
  split at h <;> try simp at h
  case h_1 =>
    cases replayPost_transacts h
    exact .postGuard hRoom rfl
  case h_2 hNew =>
    obtain ⟨t, u, _, rfl, ⟨rfl, rfl⟩ | ⟨_, _, _, h⟩⟩ := h
    case inl => exact .post hRoom rfl hNonempty hNew
    case inr =>
      split at h <;> try simp at h
      case h_2 =>
        obtain ⟨_, _, _, h⟩ := h
        split at h
        case h_1 =>
          cases replayPost_transacts h
          exact .postGuard hRoom rfl
        case h_2 => exact absurd h <| classify_transacts fun _ => trivial
        case h_3 => simp at h

theorem method_transacts (h : (method limits c).Emits path (.transactWriteItems items)) :
    Transacts limits c path items := by
  cases c <;> simp only [method, Program.emits_bind_pure] at h
  case createRoom      => exact createRoom_transacts h
  case getRoomForAgent => exact absurd h getRoomForAgent_transacts
  case grantAllowlist  => exact grantAllowlist_transacts h
  case revokeAllowlist => exact revokeAllowlist_transacts h
  case setNickname     => exact setNickname_transacts h
  case postMessage     => exact postMessage_transacts h

end

end Board.Dynamo

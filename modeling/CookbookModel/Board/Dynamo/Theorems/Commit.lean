import CookbookModel.Board.Dynamo.Theorems.Requests
import CookbookModel.Board.Dynamo.Theorems.Transactions

namespace Board.Dynamo

open GoString DynamoDB

-- The actor of a transaction, as the table has it when the transaction is carried out.
def Acts (B : Contents) (roomKey agent : GoString) (version : Int) (action : Action) : Prop :=
  ∃ d, B[BoardKey.member roomKey agent]? = some d ∧ d.version = version ∧ d.role ∈ actorRoles action

variable [Platform]

-- What the transactions that are carried out do to the contents of the table. The answers are those
-- that the call's method has got before.
inductive Commit (limits : Limits) (B : Contents) :
    Call → List (Σ o, Op.Res o) → List TransactWriteItem → Contents → Prop
  | guard (hWrites : items.any (·.writes) = false) : Commit limits B c path items B
  | createRoom {actor : Identity} {input : CreateRoomInput} {roomKey name : GoString} {t : Time}
      (hWrites : items.any (·.writes) = true)
      (hRoom : normalizeRoomID input.roomID = .ok roomID) (hKey : roomKey = Base64.encode roomID)
      (hNew : B[BoardKey.room roomKey]? = none)
      (hNewMember : B[BoardKey.member roomKey actor.agent]? = none)
      (hNewAudit : B[BoardKey.audit roomKey u]? = none)
      (hQuota : ∀ d ∈ B[BoardKey.quota actor.agent]?, d.roomCount < limits.maxRoomsPerAgent) :
    Commit limits B (.createRoom actor input) path items <|
      (((B.set (.room roomKey)
        (newRoomItem roomID roomKey name input.description actor.agent t.format)).set
      (.member roomKey actor.agent)
        (newMemberItem roomID roomKey actor.agent .owner ((capabilitiesForRole .owner).getD [])
          actor.agent t.format)).set
      (.audit roomKey u)
        (auditItem roomKey "room_created" actor.agent actor.agent .owner input.tokenJTIHash t.format
          u)).set
      (.quota actor.agent) (quotaItem actor.agent B[BoardKey.quota actor.agent]? t.format)
  | grantNew {actor : Identity} {input : GrantInput} {roomKey : GoString} {room : DdbItem} {t : Time}
      (hWrites : items.any (·.writes) = true)
      (hRoom : normalizeRoomID input.roomID = .ok roomID) (hKey : roomKey = Base64.encode roomID)
      (hTarget : canonicalDNSName input.targetAgent = .ok target)
      (hRole : capabilitiesForRole input.role = some capabilities) (hNotOwner : input.role ≠ .owner)
      (hActs : Acts B roomKey actor.agent input.actorMemberVersion .updateAllowList)
      (hFound : B[BoardKey.room roomKey]? = some room) (hActive : room.archived = false)
      (hVersion : room.version = input.expectedRoomVersion)
      (hLimit : room.memberCount < limits.maxMembersPerRoom)
      (hNew : B[BoardKey.member roomKey target]? = none)
      (hNewAudit : B[BoardKey.audit roomKey u]? = none) :
    Commit limits B (.grantAllowlist actor input) path items <|
      ((B.set (.room roomKey) (changedRoom room 1 t.format)).set
      (.member roomKey target)
        (newMemberItem roomID roomKey target input.role capabilities actor.agent t.format)).set
      (.audit roomKey u)
        (auditItem roomKey "allowlist_granted" actor.agent target input.role input.tokenJTIHash
          t.format u)
  | regrant {actor : Identity} {input : GrantInput} {roomKey : GoString}
      {room member existing : DdbItem} {t : Time}
      (hWrites : items.any (·.writes) = true)
      (hRoom : normalizeRoomID input.roomID = .ok roomID) (hKey : roomKey = Base64.encode roomID)
      (hTarget : canonicalDNSName input.targetAgent = .ok target)
      (hRole : capabilitiesForRole input.role = some capabilities) (hNotOwner : input.role ≠ .owner)
      (hActs : Acts B roomKey actor.agent input.actorMemberVersion .updateAllowList)
      (hFound : B[BoardKey.room roomKey]? = some room) (hActive : room.archived = false)
      (hVersion : room.version = input.expectedRoomVersion)
      (hMember : B[BoardKey.member roomKey target]? = some member) (hOldRole : member.role ≠ .owner)
      (hNewAudit : B[BoardKey.audit roomKey u]? = none) :
    Commit limits B (.grantAllowlist actor input) path items <|
      ((B.set (.room roomKey) (changedRoom room 0 t.format)).set
      (.member roomKey target)
        (regrantedMember member <| regrantedItem
          (newMemberItem roomID roomKey target input.role capabilities actor.agent t.format)
          existing)).set
      (.audit roomKey u)
        (auditItem roomKey "allowlist_granted" actor.agent target input.role input.tokenJTIHash
          t.format u)
  | revoke {actor : Identity} {input : RevokeInput} {roomKey : GoString}
      {room member : DdbItem} {t : Time}
      (hWrites : items.any (·.writes) = true)
      (hRoom : normalizeRoomID input.roomID = .ok roomID) (hKey : roomKey = Base64.encode roomID)
      (hTarget : canonicalDNSName input.targetAgent = .ok target)
      (hActs : Acts B roomKey actor.agent input.actorMemberVersion .updateAllowList)
      (hFound : B[BoardKey.room roomKey]? = some room) (hActive : room.archived = false)
      (hVersion : room.version = input.expectedRoomVersion)
      (hMember : B[BoardKey.member roomKey target]? = some member) (hOldRole : member.role ≠ .owner)
      (hNickname : member.nicknameKey ≠ [] →
        ∃ d, B[BoardKey.nickname roomKey member.nicknameKey]? = some d ∧ d.agent = target)
      (hNewAudit : B[BoardKey.audit roomKey u]? = none) :
    Commit limits B (.revokeAllowlist actor input) path items <|
      let B' := (((B.delete (.member roomKey target)).set
        (.room roomKey) (changedRoom room (-1) t.format)).set
        (.audit roomKey u)
          (auditItem roomKey "allowlist_revoked" actor.agent target .zero input.tokenJTIHash t.format
            u))
      if member.nicknameKey ≠ [] then B'.delete (.nickname roomKey member.nicknameKey) else B'
  | setNickname {actor : Identity} {input : SetNicknameInput} {roomKey nickname : GoString}
      {room member read : DdbItem}
      (hWrites : items.any (·.writes) = true)
      (hRoom : normalizeRoomID input.roomID = .ok roomID) (hKey : roomKey = Base64.encode roomID)
      (hNickname : Board.nickname input.nickname = .ok (nickname, nicknameKey))
      (hRead : itemRead r = .ok read)
      (hFound : B[BoardKey.room roomKey]? = some room) (hActive : room.archived = false)
      (hMember : B[BoardKey.member roomKey actor.agent]? = some member)
      (hVersion : member.version = input.actorMemberVersion) (hRole : member.role = read.role)
      (hOld : read.nicknameKey ≠ [] → read.nicknameKey ≠ nicknameKey →
        ∃ d, B[BoardKey.nickname roomKey read.nicknameKey]? = some d ∧ d.agent = actor.agent)
      (hFree : read.nicknameKey ≠ nicknameKey →
        ∀ d ∈ B[BoardKey.nickname roomKey nicknameKey]?, d.agent = actor.agent) :
    Commit limits B (.setNickname actor input)
        [⟨.getItem (BoardKey.member roomKey actor.agent).key, r⟩, ⟨.now, t⟩] items <|
      let B' := B.set (.member roomKey actor.agent)
        (renamedMember member actor.agent nickname nicknameKey t.format)
      let B' := if read.nicknameKey ≠ [] ∧ read.nicknameKey ≠ nicknameKey then
        B'.delete (.nickname roomKey read.nicknameKey) else B'
      if read.nicknameKey ≠ nicknameKey then
        B'.set (.nickname roomKey nicknameKey)
          (nicknameItem roomID roomKey nickname nicknameKey actor.agent t.format)
      else B'
  | post {actor : Identity} {input : PostInput} {roomKey : GoString} {room : DdbItem}
      (hWrites : items.any (·.writes) = true)
      (hRoom : normalizeRoomID input.roomID = .ok roomID) (hKey : roomKey = Base64.encode roomID)
      (hNonempty : input.idempotencyKey ≠ []) (hRead : itemRead r = .error .notFound)
      (hActs : Acts B roomKey actor.agent input.actorMemberVersion .postMessage)
      (hFound : B[BoardKey.room roomKey]? = some room) (hActive : room.archived = false)
      (hNew : B[BoardKey.idempotency roomKey (actor.agent ++ "#" ++ input.idempotencyKey)]? = none)
      (hNewMessage : B[BoardKey.message roomKey ("msg_" ++ u)]? = none) :
    Commit limits B (.postMessage actor input)
        [⟨.getItem ⟨roomPK roomKey, idempotencySK actor.agent input.idempotencyKey⟩, r⟩, ⟨.now, t⟩,
          ⟨.ulid, u⟩] items <|
      (B.set (.idempotency roomKey (actor.agent ++ "#" ++ input.idempotencyKey))
        (idempotencyItem roomKey actor.agent input ("msg_" ++ u) t.format)).set
      (.message roomKey ("msg_" ++ u))
        (messageItem roomID roomKey actor.agent input ("msg_" ++ u) t.format)

variable {limits : Limits} {B : Contents} {T T' : Table} {c : Call}
  {path : List (Σ o, Op.Res o)} {items : List TransactWriteItem}

attribute [local simp]
  Rules.Allowed Rules.apply Rule.check Rule.create Rule.modify Rule.remove
  actorRule roomOpenRule roomVersionRule

-- A transaction that goes through is one of the commits.
theorem Transacts.commit (hc : Transacts limits c path items) (h : Represents T B)
    (ht : T.transactWriteItems items = .ok T') :
    ∃ B', Commit limits B c path items B' ∧ Represents T' B' := by
  have hi := BoardKey.key_injective
  cases hc
  case createRoom hRoom hKey =>
    obtain ⟨hAllowed, hT⟩ := h.transact hi (realizes_createRoom _) ht
    simp [createRoomRules, quotaRule] at hAllowed hT
    obtain ⟨hNew, hNewMember, hNewAudit, hQuota⟩ := hAllowed
    exact ⟨_, .createRoom rfl hRoom hKey hNew hNewMember hNewAudit hQuota, hT⟩
  case grant existing hRoom hKey hTarget hRole hNotOwner hActor hRead hOwner hNew hExisting =>
    obtain ⟨hAllowed, hT⟩ := h.transact hi (realizes_grant existing _ _ <| role_ne_zero hRole) ht
    cases existing
    case none =>
      simp [grantRules, grantRoomRule] at hAllowed hT
      obtain ⟨hActs, ⟨room, hFound, hActive, hVersion, hLimit⟩, hNew, hNewAudit⟩ := hAllowed
      simp [hFound] at hT
      exact ⟨_, .grantNew rfl hRoom hKey hTarget hRole hNotOwner hActs hFound hActive hVersion hLimit hNew
        hNewAudit, hT⟩
    case some existing =>
      simp [grantRules, grantRoomRule, regrantRule] at hAllowed hT
      obtain ⟨hActs, ⟨room, hFound, hActive, hVersion⟩, ⟨member, hMember, hOldRole⟩, hNewAudit⟩ := hAllowed
      simp [hFound, hMember] at hT
      exact ⟨_, .regrant rfl hRoom hKey hTarget hRole hNotOwner hActs hFound hActive hVersion hMember
        hOldRole hNewAudit, hT⟩
  case revoke t _ _ _ _ read hRoom hKey hTarget hActor hRead hOwner hMember =>
    obtain ⟨hAllowed, hT⟩ := h.transact hi (realizes_revoke _ read) ht
    simp [revokeRules, revokeMemberRule, revokeRoomRule, deleteNicknameRule] at hAllowed
    obtain ⟨hActs, ⟨member, hMember, hOldRole, _, hKey'⟩, ⟨room, hFound, hActive, hVersion⟩, hNewAudit,
      hNickname⟩ := hAllowed
    refine ⟨_, .revoke (t := t) rfl hRoom hKey hTarget hActs hFound hActive hVersion hMember hOldRole
      (fun hne => ?_) hNewAudit, ?_⟩
    · obtain ⟨d, hd, hAgent, _⟩ := hNickname (hKey' ▸ hne)
      exact ⟨d, hKey' ▸ hd, hAgent⟩
    · by_cases hk : read.nicknameKey = [] <;>
        simpa [revokeRules, revokeMemberRule, revokeRoomRule, deleteNicknameRule, hFound,
          hKey', hk] using hT
  case grantGuard =>
    obtain ⟨_, hT⟩ := h.transact hi (realizes_allowlistGuard _ _) ht
    simp [allowlistGuardRules] at hT
    exact ⟨_, .guard rfl, hT⟩
  case setNicknameGuard =>
    obtain ⟨_, hT⟩ := h.transact hi (realizes_membershipGuard _ _) ht
    simp [membershipGuardRules] at hT
    exact ⟨_, .guard rfl, hT⟩
  case postGuard =>
    obtain ⟨_, hT⟩ := h.transact hi (realizes_membershipGuard _ _) ht
    simp [membershipGuardRules] at hT
    exact ⟨_, .guard rfl, hT⟩
  case setNickname nicknameKey _ _ _ _ _ read _ hRoom hKey hNickname hRead hRole hChange =>
    have hne := nicknameKey_ne_nil hNickname
    obtain ⟨hAllowed, hT⟩ := h.transact hi (realizes_setNickname _ read hne) ht
    obtain ⟨hBefore, hPut⟩ := List.forall_mem_append.mp hAllowed
    obtain ⟨hBefore, hDelete⟩ := List.forall_mem_append.mp hBefore
    simp [renameRule] at hBefore
    obtain ⟨⟨room, hFound, hActive⟩, member, hMember, hVersion, hSameRole⟩ := hBefore
    refine ⟨_, .setNickname rfl hRoom hKey hNickname hRead hFound hActive hMember hVersion hSameRole
      (fun hk hn => ?_) (fun hn d hd => ?_), ?_⟩
    · simp [hk, hn, deleteNicknameRule] at hDelete
      obtain ⟨d, hd, hAgent, _⟩ := hDelete
      exact ⟨d, hd, hAgent⟩
    · simp [hn, putNicknameRule] at hPut
      exact (hPut d hd).left
    · by_cases hk : read.nicknameKey = [] <;> by_cases hn : read.nicknameKey = nicknameKey <;>
        simpa [setNicknameRules, renameRule, deleteNicknameRule, putNicknameRule, hMember, hk, hn, hne]
          using hT
  case post hRoom hKey hNonempty hRead =>
    obtain ⟨hAllowed, hT⟩ := h.transact hi (realizes_post _) ht
    simp [postRules] at hAllowed hT
    obtain ⟨⟨room, hFound, hActive⟩, hActs, hNew, hNewMessage⟩ := hAllowed
    refine ⟨_, .post rfl hRoom hKey hNonempty hRead hActs hFound hActive ?_ hNewMessage, ?_⟩
    · simpa using hNew
    · simpa using hT

end Board.Dynamo

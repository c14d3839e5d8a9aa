import CookbookModel.Board.Theorems.Refinement

namespace Board

open GoString DynamoDB
open Dynamo
open Memory (Stamp Step Change Located Permitted AllowlistChecks)

variable [Platform] {limits : Limits} {s : MemoryStore} {B : Contents} {T T' : Table}
  {key roomID : GoString} {r : RoomRecord} {w : Stamp} {actor : Identity} {m m' : Membership}

attribute [local simp] Program.run_bind Program.run_attempt_eq run_now run_ulid Rules.apply Rule.check

-- What a call that has the table for itself does where the memory store makes a change.
section Runs

theorem getRoomForAgent_run {agent : GoString} (hRep : Represents T B)
    (hRoom : normalizeRoomID roomID = .ok roomID) (hm : r.Matches (Base64.encode roomID) B) :
    (getRoomForAgent roomID agent).run (served w) T = (.ok ⟨r.room, r.members[agent]?⟩, T) := by
  obtain ⟨d, hd, hr⟩ := hm.stored_room
  have hMember := hm.members agent
  simp [getRoomForAgent, validated, hRoom, roomKey_normalized hRoom, run_getRoom hRep,
    run_getMember hRep, hd, loaded]
  cases hB : B[BoardKey.member (Base64.encode roomID) agent]? <;> rw [hB] at hMember <;>
    simp [hr, ←hMember]

section Allowlist

variable {target : GoString} {capabilities : List Capability}

theorem revokeAllowlist_run {input : RevokeInput} (hRep : Represents T B) (hm : r.Matches key B)
    (hKey : key = Base64.encode input.roomID)
    (hRoom : normalizeRoomID input.roomID = .ok input.roomID)
    (hu : B[BoardKey.audit key w.ulid]? = none) (hv : input.actorMemberVersion ≠ 0)
    (hChecks : AllowlistChecks r actor input.targetAgent input.actorMemberVersion
      input.expectedRoomVersion target)
    (hMember : r.members[target]? = some m) (hNotOwner : m.role ≠ .owner) : ∃ T' rules,
      (revokeAllowlist actor input).run (served w) T = (.ok true, T') ∧
      Represents T' (Rules.apply rules B) ∧ About key w.ulid rules ∧
      (r.revoke actor.agent target m input.tokenJTIHash w.now).Matches key (Rules.apply rules B) := by
  obtain ⟨d, hd, hr⟩ := hm.stored_room
  obtain ⟨item, hItem, rfl⟩ := hm.member hMember
  have hReserved := (hm.indexed.exact item.nicknameKey target).mpr
  have hNonempty := canonicalDNSName_ne_nil hChecks.canon
  have hActs := hm.acts hv hChecks.permits (by simp)
  have hAllowed : Rules.Allowed (revokeRules key actor input target w.ulid item
      (auditItem key "allowlist_revoked" actor.agent target .zero input.tokenJTIHash w.now.format
        w.ulid) w.now.format) B :=
    hm.revoke_allowed.mpr ⟨hActs, ⟨_, hMember, hNotOwner, rfl, rfl⟩,
      ⟨hChecks.active, hChecks.version⟩, hu,
      fun hk => ⟨hReserved ⟨_, hMember, rfl, hk⟩, hNonempty⟩⟩
  obtain ⟨T', hT, hRep'⟩ := run_transact_allowed (w := w) hRep (realizes_revoke input item) hAllowed
  refine ⟨T', _, ?_, hRep', about_revoke, hm.revoke_effect hMember rfl hu⟩
  have hOwner : target ≠ d.owner := fun he => hChecks.notOwner (he.trans <| congrArg Room.owner hr)
  simp [revokeAllowlist, validated, hRoom, hChecks.canon, roomKeyOf_normalized hRoom, ←hKey, throwIf,
    run_getRoom hRep, run_getMember hRep, hd, hItem, loaded, hChecks.notSelf, hOwner, hT]

variable {input : GrantInput}

theorem grantAllowlist_same_run (hRep : Represents T B) (hm : r.Matches key B)
    (hKey : key = Base64.encode input.roomID)
    (hRoom : normalizeRoomID input.roomID = .ok input.roomID) (hv : input.actorMemberVersion ≠ 0)
    (hChecks : AllowlistChecks r actor input.targetAgent input.actorMemberVersion
      input.expectedRoomVersion target)
    (hCapabilities : capabilitiesForRole input.role = some capabilities)
    (hRole : input.role ≠ .owner) (hMember : r.members[target]? = some m)
    (hSame : m.role = input.role) : ∃ T',
      (grantAllowlist limits actor input).run (served w) T = (.ok (m, false), T') ∧
      Represents T' B := by
  obtain ⟨d, hd, hr⟩ := hm.stored_room
  obtain ⟨item, hItem, rfl⟩ := hm.member hMember
  have hActs := hm.acts hv hChecks.permits (by simp)
  have hAllowed : Rules.Allowed (allowlistGuardRules key actor.agent input.actorMemberVersion
      input.expectedRoomVersion) B := by
    simpa [allowlistGuardRules, Rules.Allowed] using
      And.intro (hm.version_iff.mp ⟨hChecks.active, hChecks.version⟩) hActs
  have hRules := @realizes_allowlistGuard key actor input.actorMemberVersion
    input.expectedRoomVersion
  obtain ⟨T', hT, hRep'⟩ := run_transact_allowed (w := w) hRep hRules hAllowed
  refine ⟨T', ?_, ?_⟩
  · have hOwner : target ≠ d.owner := fun he => hChecks.notOwner (he.trans <| congrArg Room.owner hr)
    have hSame : item.role = input.role := hSame
    simp [grantAllowlist, validated, hRoom, hChecks.canon, hCapabilities, hRole,
      roomKeyOf_normalized hRoom, ←hKey, throwIf, run_getRoom hRep, run_getMember hRep, hd, hItem,
      loaded, hChecks.notSelf, hOwner, hSame, guardAllowlistAuthorization, hT]
  · simpa [allowlistGuardRules, roomVersionRule, actorRule] using hRep'

theorem grantAllowlist_new_run (hRep : Represents T B) (hm : r.Matches key B)
    (hKey : key = Base64.encode input.roomID) (hID : r.room.roomID = input.roomID)
    (hRoom : normalizeRoomID input.roomID = .ok input.roomID)
    (hu : B[BoardKey.audit key w.ulid]? = none) (hv : input.actorMemberVersion ≠ 0)
    (hChecks : AllowlistChecks r actor input.targetAgent input.actorMemberVersion
      input.expectedRoomVersion target)
    (hCapabilities : capabilitiesForRole input.role = some capabilities)
    (hRole : input.role ≠ .owner) (hAbsent : r.members[target]? = none)
    (hLimit : r.room.memberCount < limits.maxMembersPerRoom)
    (hNew : m = r.newMember actor.agent target input.role capabilities w.now) : ∃ T' rules,
      (grantAllowlist limits actor input).run (served w) T = (.ok (m, true), T') ∧
      Represents T' (Rules.apply rules B) ∧ About key w.ulid rules ∧
      (r.grant actor.agent target m true input.tokenJTIHash w.now).Matches key
        (Rules.apply rules B) := by
  obtain ⟨d, hd, hr⟩ := hm.stored_room
  have hActs := hm.acts hv hChecks.permits (by simp)
  let member := newMemberItem r.room.roomID key target input.role capabilities actor.agent
    w.now.format
  let audit := auditItem key "allowlist_granted" actor.agent target input.role input.tokenJTIHash
    w.now.format w.ulid
  have hAllowed : Rules.Allowed (grantRules key actor input limits.maxMembersPerRoom target w.ulid
      member audit w.now.format true) B :=
    hm.grantNew_allowed.mpr ⟨hActs, ⟨hChecks.active, hChecks.version, hLimit⟩, hAbsent, hu⟩
  obtain ⟨T', hT, hRep'⟩ := run_transact_allowed (w := w) hRep
    (realizes_grant none input limits.maxMembersPerRoom (role_ne_zero hCapabilities)) hAllowed
  refine ⟨T', _, ?_, hRep', about_grant, hm.grantNew_effect hAbsent hu hNew⟩
  have hOwner : target ≠ d.owner := fun he => hChecks.notOwner (he.trans <| congrArg Room.owner hr)
  have hItem : membershipFromItem (newMemberItem input.roomID key target input.role capabilities
      actor.agent w.now.format) = m := by
    rw [membershipFromItem_new, hNew, RoomRecord.newMember, hID, hm.roomKey]
  simp only [Option.elim_none, Option.isNone_none, hID] at hT
  simp [grantAllowlist, validated, hRoom, hChecks.canon, hCapabilities, hRole,
    roomKeyOf_normalized hRoom, ←hKey, throwIf, run_getRoom hRep, run_getMember hRep, hd,
    hm.member_none.mpr hAbsent, loaded, hChecks.notSelf, hOwner, hT, hItem]

theorem grantAllowlist_change_run (hRep : Represents T B) (hm : r.Matches key B)
    (hKey : key = Base64.encode input.roomID) (hID : r.room.roomID = input.roomID)
    (hRoom : normalizeRoomID input.roomID = .ok input.roomID)
    (hu : B[BoardKey.audit key w.ulid]? = none) (hv : input.actorMemberVersion ≠ 0)
    (hChecks : AllowlistChecks r actor input.targetAgent input.actorMemberVersion
      input.expectedRoomVersion target)
    (hCapabilities : capabilitiesForRole input.role = some capabilities)
    (hRole : input.role ≠ .owner) (hMember : r.members[target]? = some m)
    (hChange : m.role ≠ input.role) (hNotOwner : m.role ≠ .owner)
    (hNew : m' = r.changedMember m actor.agent target input.role capabilities w.now) : ∃ T' rules,
      (grantAllowlist limits actor input).run (served w) T = (.ok (m', false), T') ∧
      Represents T' (Rules.apply rules B) ∧ About key w.ulid rules ∧
      (r.grant actor.agent target m' false input.tokenJTIHash w.now).Matches key
        (Rules.apply rules B) := by
  obtain ⟨d, hd, hr⟩ := hm.stored_room
  obtain ⟨item, hItem, rfl⟩ := hm.member hMember
  have hActs := hm.acts hv hChecks.permits (by simp)
  let member := regrantedItem (newMemberItem input.roomID key target input.role capabilities
    actor.agent w.now.format) item
  let audit := auditItem key "allowlist_granted" actor.agent target input.role input.tokenJTIHash
    w.now.format w.ulid
  have hAllowed : Rules.Allowed (grantRules key actor input limits.maxMembersPerRoom target w.ulid
      member audit w.now.format false) B :=
    hm.regrant_allowed.mpr
      ⟨hActs, ⟨hChecks.active, hChecks.version⟩, ⟨_, hMember, hNotOwner⟩, hu⟩
  obtain ⟨T', hT, hRep'⟩ := run_transact_allowed (w := w) hRep
    (realizes_grant (some item) input limits.maxMembersPerRoom (role_ne_zero hCapabilities)) hAllowed
  refine ⟨T', _, ?_, hRep', about_grant, hm.regrant_effect hMember hu hNew⟩
  have hOwner : target ≠ d.owner := fun he => hChecks.notOwner (he.trans <| congrArg Room.owner hr)
  have hChange : item.role ≠ input.role := hChange
  have hReturned : membershipFromItem member = m' := by
    simp [member, membershipFromItem, regrantedItem, newMemberItem, hNew, RoomRecord.changedMember, hID,
      hm.roomKey]
  simp only [Option.elim_some, Option.isNone_some] at hT
  simp [grantAllowlist, validated, hRoom, hChecks.canon, hCapabilities, hRole,
    roomKeyOf_normalized hRoom, ←hKey, throwIf, run_getRoom hRep, run_getMember hRep, hd, hItem,
    loaded, hChecks.notSelf, hOwner, hChange, hT, ←hReturned, member]

end Allowlist

section Nicknames

variable {input : SetNicknameInput} {name nameKey : GoString}

theorem setNickname_same_run (hRep : Represents T B) (hm : r.Matches key B)
    (hKey : key = Base64.encode input.roomID)
    (hRoom : normalizeRoomID input.roomID = .ok input.roomID) (hv : input.actorMemberVersion ≠ 0)
    (hNickname : nickname input.nickname = .ok (name, nameKey))
    (hActive : r.room.archived = false)
    (hActor : Permitted r actor.agent input.actorMemberVersion .updateNickname m)
    (hSame : m.nickname = name ∧ m.nicknameKey = nameKey) : ∃ T',
      (setNickname actor input).run (served w) T = (.ok m, T') ∧ Represents T' B := by
  obtain ⟨item, hItem, rfl⟩ := hm.member hActor.member
  have hAllowed : Rules.Allowed (membershipGuardRules key actor.agent input.actorMemberVersion
      .updateNickname) B := by
    simpa [membershipGuardRules, Rules.Allowed] using
      And.intro (hm.open_iff.mp hActive) (hm.acts hv ⟨_, hActor⟩ (by simp))
  obtain ⟨T', hT, hRep'⟩ := run_transact_allowed (w := w) hRep (realizes_membershipGuard _ _) hAllowed
  refine ⟨T', ?_, ?_⟩
  · have hRole : roleCan item.role .updateNickname = true := hActor.role
    have hName : item.nickname = name := hSame.left
    have hNameKey : item.nicknameKey = nameKey := hSame.right
    simp [setNickname, validated, hRoom, hNickname, roomKeyOf_normalized hRoom, ←hKey, throwIf,
      run_getMember hRep, hItem, loaded, hRole, hName, hNameKey, guardMembershipAction, hT]
  · simpa [membershipGuardRules, roomOpenRule, actorRule] using hRep'

theorem setNickname_change_run (hRep : Represents T B) (hm : r.Matches key B)
    (hKey : key = Base64.encode input.roomID)
    (hRoom : normalizeRoomID input.roomID = .ok input.roomID) (hv : input.actorMemberVersion ≠ 0)
    (ha : actor.agent ≠ []) (hNickname : nickname input.nickname = .ok (name, nameKey))
    (hActive : r.room.archived = false)
    (hActor : Permitted r actor.agent input.actorMemberVersion .updateNickname m)
    (hFree : ∀ a, r.nicknames[nameKey]? = some a → a = actor.agent)
    (hChange : ¬(m.nickname = name ∧ m.nicknameKey = nameKey)) : ∃ T' rules,
      (setNickname actor input).run (served w) T =
        (.ok (RoomRecord.renamedMember m actor.agent name nameKey w.now), T') ∧
      Represents T' (Rules.apply rules B) ∧ About key w.ulid rules ∧
      (r.rename actor.agent m name nameKey w.now).Matches key (Rules.apply rules B) := by
  obtain ⟨item, hItem, rfl⟩ := hm.member hActor.member
  have hReserved := (hm.indexed.exact item.nicknameKey actor.agent).mpr
  have hAllowed : Rules.Allowed (setNicknameRules input.roomID key actor.agent
      input.actorMemberVersion item name nameKey w.now.format) B :=
    hm.setNickname_allowed.mpr ⟨hActive, ⟨_, hActor.member, hActor.version.resolve_left hv, rfl⟩,
      fun hk => ⟨hReserved ⟨_, hActor.member, rfl, hk.left⟩, ha⟩, fun _ a h => ⟨hFree a h, ha⟩⟩
  obtain ⟨T', hT, hRep'⟩ := run_transact_allowed (w := w) hRep
    (realizes_setNickname input.actorMemberVersion item <| nicknameKey_ne_nil hNickname) hAllowed
  refine ⟨T', _, ?_, hRep', about_setNickname,
    hm.rename_effect hNickname hActor.member (.inl rfl) hFree⟩
  have hRole : roleCan item.role .updateNickname = true := hActor.role
  have hChange : ¬(item.nickname = name ∧ item.nicknameKey = nameKey) := hChange
  simp [setNickname, validated, hRoom, hNickname, roomKeyOf_normalized hRoom, ←hKey, throwIf,
    run_getMember hRep, hItem, loaded, hRole, hChange, hT]
  exact membershipFromItem_renamed (d := item) name nameKey w.now

end Nicknames

section Posts

variable {input : PostInput}

theorem postMessage_replay_run {idem : IdempotencyRecord} {msg : Message} (hRep : Represents T B)
    (hm : r.Matches key B) (hKey : key = Base64.encode input.roomID)
    (hRoom : normalizeRoomID input.roomID = .ok input.roomID) (hv : input.actorMemberVersion ≠ 0)
    (hNonempty : input.idempotencyKey ≠ []) (hActive : r.room.archived = false)
    (hActor : Permitted r actor.agent input.actorMemberVersion .postMessage m)
    (hRecorded : r.idempotency[actor.agent ++ "#" ++ input.idempotencyKey]? = some idem)
    (hHash : idem.requestHash = input.requestHash)
    (hFound : r.messages.find? (·.messageID = idem.messageID) = some msg) : ∃ T',
      (postMessage actor input).run (served w) T = (.ok ⟨msg, true⟩, T') ∧ Represents T' B := by
  rw [←hm.idempotency, Option.map_eq_some_iff] at hRecorded
  obtain ⟨idemItem, hIdem, rfl⟩ := hRecorded
  rw [←hm.messages, Option.map_eq_some_iff] at hFound
  obtain ⟨msgItem, hMsg, rfl⟩ := hFound
  have hAllowed : Rules.Allowed (membershipGuardRules key actor.agent input.actorMemberVersion
      .postMessage) B := by
    simpa [membershipGuardRules, Rules.Allowed] using
      And.intro (hm.open_iff.mp hActive) (hm.acts hv ⟨_, hActor⟩ (by simp))
  obtain ⟨T', hT, hRep'⟩ := run_transact_allowed (w := w) hRep (realizes_membershipGuard _ _) hAllowed
  have hRep' : Represents T' B := by
    simpa [membershipGuardRules, roomOpenRule, actorRule] using hRep'
  have hReplay : (replayPost actor input key idemItem).run (served w) T =
      (.ok ⟨messageFromItem msgItem, true⟩, T') := by
    have hHash : idemItem.requestHash = input.requestHash := hHash
    have hMsg : B[BoardKey.message key idemItem.messageID]? = some msgItem := hMsg
    simp [replayPost, guardPostAuthorization, hT, throwIf, hHash, run_getMessage hRep', hMsg, loaded]
  refine ⟨T', ?_, hRep'⟩
  simp [postMessage, validated, hRoom, roomKeyOf_normalized hRoom, ←hKey, throwIf, hNonempty,
    run_getIdempotency hRep, -List.append_assoc, hIdem, loaded, hReplay]

theorem postMessage_run {msg : Message} (hRep : Represents T B) (hm : r.Matches key B)
    (hKey : key = Base64.encode input.roomID) (hID : r.room.roomID = input.roomID)
    (hRoom : normalizeRoomID input.roomID = .ok input.roomID)
    (hu : B[BoardKey.message key ("msg_" ++ w.ulid)]? = none) (hv : input.actorMemberVersion ≠ 0)
    (hNonempty : input.idempotencyKey ≠ []) (hActive : r.room.archived = false)
    (hActor : Permitted r actor.agent input.actorMemberVersion .postMessage m)
    (hAbsent : r.idempotency[actor.agent ++ "#" ++ input.idempotencyKey]? = none)
    (hNew : msg = r.newMessage actor.agent input w.now w.ulid) : ∃ T' rules,
      (postMessage actor input).run (served w) T = (.ok ⟨msg, false⟩, T') ∧
      Represents T' (Rules.apply rules B) ∧ About key w.ulid rules ∧
      (r.post (actor.agent ++ "#" ++ input.idempotencyKey) msg).Matches key (Rules.apply rules B) := by
  have hActs := hm.acts hv ⟨_, hActor⟩ (by simp)
  have hAllowed : Rules.Allowed (postRules key actor input ("msg_" ++ w.ulid)
      (idempotencyItem key actor.agent input ("msg_" ++ w.ulid) w.now.format)
      (messageItem r.room.roomID key actor.agent input ("msg_" ++ w.ulid) w.now.format)) B :=
    hm.post_allowed.mpr ⟨hActive, hActs, hAbsent, hu⟩
  obtain ⟨T', hT, hRep'⟩ := run_transact_allowed (w := w) hRep (realizes_post input) hAllowed
  refine ⟨T', _, ?_, hRep', about_post, hm.post_effect hu hNew⟩
  have hNone : B[BoardKey.idempotency key (actor.agent ++ "#" ++ input.idempotencyKey)]? = none := by
    rw [←Option.map_eq_none_iff, hm.idempotency, hAbsent]
  have hMsg : messageFromItem (messageItem input.roomID key actor.agent input ("msg_" ++ w.ulid)
      w.now.format) = msg := by
    simp [messageFromItem, messageItem, hNew, RoomRecord.newMessage, hID, hm.roomKey]
  rw [hID] at hT
  simp [postMessage, validated, hRoom, roomKeyOf_normalized hRoom, ←hKey, throwIf, hNonempty,
    run_getIdempotency hRep, -List.append_assoc, hNone, loaded, hT, hMsg]

end Posts

theorem createRoom_run {input : CreateRoomInput} {room : Room} {owner : Membership}
    {name : GoString} (hR : Related limits s B) (hRep : Represents T B)
    (hMax : 0 < limits.maxRoomsPerAgent) (hRoom : normalizeRoomID input.roomID = .ok input.roomID)
    (hFresh : s.roomKeys[input.roomID]? = none) (hQuota : s.quota actor.agent < s.maxRoomsPerAgent)
    (hKey : key = Base64.encode input.roomID)
    (hName : name = if input.name = [] then input.roomID else input.name)
    (hNew : room = RoomRecord.newRoom input.roomID key name input.description actor.agent w.now)
    (hOwner : owner = RoomRecord.newOwner input.roomID key actor.agent
      [.owner, .manage, .post, .read, .connect] w.now) : ∃ T' rules,
      (createRoom limits actor input).run (served w) T = (.ok room, T') ∧
      Represents T' (Rules.apply rules B) ∧
      (∀ rule ∈ rules, ∀ id ∈ rule.key.drawn?, id = "msg_" ++ w.ulid) ∧
      Related limits (s.addRoom input.roomID key actor.agent
        (.create room owner input.tokenJTIHash w.now)) (Rules.apply rules B) := by
  have hAllowed : Rules.Allowed (createRoomRules key actor.agent w.ulid
      (newRoomItem input.roomID key name input.description actor.agent w.now.format)
      (newMemberItem input.roomID key actor.agent .owner ((capabilitiesForRole .owner).getD [])
        actor.agent w.now.format)
      (auditItem key "room_created" actor.agent actor.agent .owner input.tokenJTIHash w.now.format
        w.ulid) limits.maxRoomsPerAgent w.now.format) B :=
    (hR.createRoom_allowed hMax hKey).mpr ⟨hFresh, hQuota⟩
  obtain ⟨T', hT, hRep'⟩ := run_transact_allowed (w := w) hRep
    (realizes_createRoom limits.maxRoomsPerAgent) hAllowed
  refine ⟨T', _, ?_, hRep', drawn_createRoom,
    hR.createRoom_effect hRoom hFresh hQuota hKey hName hNew hOwner⟩
  have hItem : roomFromItem (newRoomItem input.roomID key name input.description actor.agent
      w.now.format) = room := by
    simp [roomFromItem, newRoomItem, hNew, RoomRecord.newRoom]
  simp [createRoom, validated, hRoom, roomKey_normalized hRoom, ←hKey, ←hName, hT, ←hItem]

end Runs

-- What succeeds on the table succeeds in memory.
section Succeeds

theorem createRoom_succeeds {input : CreateRoomInput} {room : Room} (hR : Related limits s B)
    (hRep : Represents T B) (hMax : 0 < limits.maxRoomsPerAgent)
    (hr : (createRoom limits actor input).run (served w) T = (.ok room, T')) :
    ∃ reply s', Step w s (.createRoom actor input) reply s' := by
  simp only [createRoom, Program.run_bind_eq_ok, run_validated, run_now, run_ulid] at hr
  obtain ⟨roomID, _, ⟨hRoom, rfl⟩, key, _, ⟨hKey, rfl⟩, _, _, hNow, _, _, hUlid, _, _, hT, _⟩ := hr
  cases hNow
  cases hUlid
  cases normalizeRoomID_ok hRoom
  cases hKey.symm.trans (roomKey_normalized hRoom)
  have hAllowed := run_transact_ok hRep (realizes_createRoom limits.maxRoomsPerAgent) hT
  obtain ⟨hFresh, hQuota⟩ := (hR.createRoom_allowed hMax rfl).mp hAllowed
  exact ⟨_, _, .create hRoom hFresh hQuota rfl rfl⟩

theorem getRoomForAgent_succeeds {snapshot : AuthSnapshot} {id agent : GoString}
    (hR : Related limits s B) (hRep : Represents T B)
    (hr : (getRoomForAgent id agent).run (served w) T = (.ok snapshot, T')) :
    ∃ reply s', Step w s (.getRoomForAgent id agent) reply s' := by
  simp only [getRoomForAgent, Program.run_bind_eq_ok, run_validated] at hr
  obtain ⟨roomID, _, ⟨hRoom, rfl⟩, key, _, ⟨hKey, rfl⟩, d, _, hd, _⟩ := hr
  cases normalizeRoomID_ok hRoom
  cases hKey.symm.trans (roomKey_normalized hRoom)
  rw [run_getRoom hRep, Prod.mk.injEq, loaded_eq_ok] at hd
  obtain ⟨r, hr, _⟩ := hR.record rfl hd.left
  exact ⟨_, _, .change (c := .getRoomForAgent id agent) hRoom (hR.located hr) .getRoomForAgent⟩

attribute [-simp] Program.run_bind
attribute [local simp] Program.run_bind_eq_ok run_validated Program.run_throwIf_eq_ok

theorem grantAllowlist_succeeds {input : GrantInput} {granted : Membership × Bool}
    (hR : Related limits s B) (hRep : Represents T B)
    (hr : (grantAllowlist limits actor input).run (served w) T = (.ok granted, T')) :
    ∃ reply s', Step w s (.grantAllowlist actor input) reply s' := by
  simp [grantAllowlist] at hr
  obtain ⟨roomID, hRoom, target, hTarget, hr⟩ := hr
  cases normalizeRoomID_ok hRoom
  split at hr
  case h_1 => cases hr
  case h_2 capabilities hCapabilities =>
    simp [roomKeyOf_normalized hRoom, run_getRoom hRep, run_getMember hRep] at hr
    obtain ⟨hRole, d, hd, hSelf, hOwner, hr⟩ := hr
    obtain ⟨r, hrec, hm⟩ := hR.record rfl hd
    have hl := hR.located hrec
    have hs := hR.sound.records hrec
    have hMember := hm.members target
    cases hItem : B[BoardKey.member (Base64.encode input.roomID) target]? <;>
      simp [hItem, loaded, run_now, run_ulid] at hr
    case none =>
      obtain ⟨⟨u, hT⟩, _⟩ := hr
      have hAllowed := run_transact_ok hRep
        (realizes_grant none input limits.maxMembersPerRoom (role_ne_zero hCapabilities)) hT
      exact ⟨_, _, .change (c := .grantAllowlist actor input) hRoom hl <|
        hR.maxMembers ▸ hm.grantNew_change hs hTarget hCapabilities hRole hAllowed⟩
    case some existing =>
      rw [hItem] at hMember
      split at hr
      case isTrue hSame =>
        simp [guardAllowlistAuthorization] at hr
        obtain ⟨⟨u, hT⟩, _⟩ := hr
        have hAllowed := run_transact_ok hRep (@realizes_allowlistGuard _ actor _ _) hT
        simp [allowlistGuardRules, Rules.Allowed] at hAllowed
        have hRoomOwner : d.owner = r.room.owner := by
          obtain ⟨d', hd', he⟩ := hm.stored_room
          cases hd.symm.trans hd'
          exact congrArg Room.owner he
        obtain ⟨hActive, hVersion⟩ := hm.version_iff.mpr hAllowed.left
        exact ⟨_, _, .change (c := .grantAllowlist actor input) hRoom hl <|
          .grantSame ⟨hTarget, hActive, hVersion, hSelf, hRoomOwner ▸ hOwner,
            hm.permitted hAllowed.right (by simp)⟩ hCapabilities hRole hMember.symm hSame⟩
      case isFalse hChange =>
        simp [run_now, run_ulid] at hr
        obtain ⟨⟨u, hT⟩, _⟩ := hr
        have hAllowed := run_transact_ok hRep (realizes_grant (some existing) input
          limits.maxMembersPerRoom (role_ne_zero hCapabilities)) hT
        exact ⟨_, _, .change (c := .grantAllowlist actor input) hRoom hl <|
          hm.regrant_change hs hTarget hSelf hCapabilities hRole hMember.symm hChange hAllowed⟩

theorem revokeAllowlist_succeeds {input : RevokeInput} {removed : Bool}
    (hR : Related limits s B) (hRep : Represents T B)
    (hr : (revokeAllowlist actor input).run (served w) T = (.ok removed, T')) :
    ∃ reply s', Step w s (.revokeAllowlist actor input) reply s' := by
  simp [revokeAllowlist] at hr
  obtain ⟨roomID, hRoom, target, hTarget, hr⟩ := hr
  cases normalizeRoomID_ok hRoom
  simp [roomKeyOf_normalized hRoom, run_getRoom hRep, run_getMember hRep] at hr
  obtain ⟨d, hd, hSelf, _, item, _, ⟨u, hT⟩, _⟩ := hr
  obtain ⟨r, hrec, hm⟩ := hR.record rfl hd
  have hAllowed := run_transact_ok hRep (realizes_revoke input item) hT
  obtain ⟨m, _, _, hChange⟩ :=
    hm.revoke_change (w := w) (hR.sound.records hrec) hTarget hSelf hAllowed
  exact ⟨_, _, .change (c := .revokeAllowlist actor input) hRoom (hR.located hrec) hChange⟩

theorem setNickname_succeeds {input : SetNicknameInput} (hR : Related limits s B)
    (hRep : Represents T B) (hr : (setNickname actor input).run (served w) T = (.ok m, T')) :
    ∃ reply s', Step w s (.setNickname actor input) reply s' := by
  simp [setNickname] at hr
  obtain ⟨roomID, hRoom, name, nameKey, hNickname, hr⟩ := hr
  cases normalizeRoomID_ok hRoom
  have hne := nicknameKey_ne_nil hNickname
  simp [roomKeyOf_normalized hRoom, run_getMember hRep] at hr
  cases hItem : B[BoardKey.member (Base64.encode input.roomID) actor.agent]? <;>
    simp [hItem, loaded] at hr
  case some item =>
    obtain ⟨hRole, hr⟩ := hr
    obtain ⟨r, hrec, hm⟩ := hR.record (k := .member _ actor.agent) rfl hItem
    have hMember := hm.members actor.agent
    rw [hItem, Option.map_some] at hMember
    split at hr
    case isTrue hSame =>
      simp [guardMembershipAction] at hr
      obtain ⟨⟨u, hT⟩, _⟩ := hr
      have hAllowed := run_transact_ok hRep (realizes_membershipGuard _ _) hT
      simp [membershipGuardRules, Rules.Allowed] at hAllowed
      obtain ⟨m, hActor⟩ := hm.permitted hAllowed.right (by simp)
      cases hActor.member.symm.trans hMember.symm
      have hKept (a : GoString) (ha : r.nicknames[nameKey]? = some a) : a = actor.agent := by
        have hHeld := (hm.indexed.exact nameKey actor.agent).mpr
          ⟨_, hMember.symm, hSame.right, hne⟩
        exact Option.some_inj.mp (ha.symm.trans hHeld)
      exact ⟨_, _, .change (c := .setNickname actor input) hRoom (hR.located hrec) <|
        .nicknameSame hNickname (hm.open_iff.mpr hAllowed.left) hActor hKept hSame⟩
    case isFalse hChange =>
      simp [run_now] at hr
      obtain ⟨⟨u, hT⟩, _⟩ := hr
      have hAllowed := run_transact_ok hRep
        (realizes_setNickname input.actorMemberVersion item hne) hT
      exact ⟨_, _, .change (c := .setNickname actor input) hRoom (hR.located hrec) <|
        hm.rename_change hNickname hRole hMember.symm (.inl rfl) hChange hAllowed⟩

omit [Platform] in
-- A replay is only given to those who may still post.
theorem replayPost_succeeds {input : PostInput} {idem : DdbItem} {result : PostResult}
    (hRep : Represents T B)
    (hr : (replayPost actor input key idem).run (served w) T = (.ok result, T')) :
    Rules.Allowed (membershipGuardRules key actor.agent input.actorMemberVersion .postMessage) B ∧
    idem.requestHash = input.requestHash ∧
    ∃ d, B[BoardKey.message key idem.messageID]? = some d := by
  simp [replayPost, guardPostAuthorization] at hr
  have hQuiet : Quiet w B (transactWriteItems <|
      membershipGuardTxn key actor.agent input.actorMemberVersion .postMessage) :=
    membershipGuard_quiet
  have hRep' := hQuiet.same hRep
  rcases hx : (transactWriteItems <| membershipGuardTxn key actor.agent input.actorMemberVersion
    .postMessage).run (served w) T with ⟨e | u, T₁⟩ <;> rw [hx] at hr hRep'
  case error =>
    dsimp only at hr
    split at hr <;> simp at hr
  case ok =>
    have hAllowed := run_transact_ok hRep (realizes_membershipGuard _ _) hx
    simp [run_getMessage hRep'] at hr
    obtain ⟨hHash, d, ⟨hd, _⟩, _⟩ := hr
    exact ⟨hAllowed, hHash, d, hd⟩

theorem postMessage_succeeds {input : PostInput} {result : PostResult} (hR : Related limits s B)
    (hRep : Represents T B)
    (hr : (postMessage actor input).run (served w) T = (.ok result, T')) :
    ∃ reply s', Step w s (.postMessage actor input) reply s' := by
  simp [postMessage] at hr
  obtain ⟨roomID, hRoom, hNonempty, hr⟩ := hr
  cases normalizeRoomID_ok hRoom
  let entry := actor.agent ++ "#" ++ input.idempotencyKey
  simp [roomKeyOf_normalized hRoom, run_getIdempotency hRep, -List.append_assoc] at hr
  cases hIdem : B[BoardKey.idempotency (Base64.encode input.roomID) entry]? <;>
    simp [hIdem, loaded, -List.append_assoc, entry] at hr
  case none =>
    -- When the transaction has failed, the entry is still missing, and all that follows fails.
    rw [run_transact] at hr
    cases hT : T.transactWriteItems (postTxn (Base64.encode input.roomID) actor input
      (idempotencyItem (Base64.encode input.roomID) actor.agent input ("msg_" ++ w.ulid)
        w.now.format)
      (messageItem input.roomID (Base64.encode input.roomID) actor.agent input ("msg_" ++ w.ulid)
        w.now.format)) <;> simp only [hT] at hr
    case error e =>
      split at hr
      case h_1 he => cases he
      case h_3    => cases hr
      case h_2    =>
        simp [run_getIdempotency hRep, hIdem, loaded, entry, -List.append_assoc] at hr
    case ok T₁ =>
      have hAllowed := (hRep.transact BoardKey.key_injective (realizes_post input) hT).left
      obtain ⟨d, hd, _⟩ := hAllowed (roomOpenRule (Base64.encode input.roomID))
        (by simp [postRules])
      obtain ⟨r, hrec, hm⟩ := hR.record (k := .room _) rfl hd
      exact ⟨_, _, .change (c := .postMessage actor input) hRoom (hR.located hrec) <|
        hm.post_change hNonempty hAllowed⟩
  case some idem =>
    obtain ⟨hAllowed, hHash, d, hd⟩ := replayPost_succeeds hRep hr
    simp [membershipGuardRules, Rules.Allowed] at hAllowed
    obtain ⟨r, hrec, hm⟩ := hR.record (k := .idempotency _ entry) rfl hIdem
    have hRecorded := hm.idempotency entry
    have hMessage := hm.messages idem.messageID
    rw [hIdem, Option.map_some] at hRecorded
    rw [hd, Option.map_some] at hMessage
    obtain ⟨m, hActor⟩ := hm.permitted hAllowed.right (by simp)
    exact ⟨_, _, .change (c := .postMessage actor input) hRoom (hR.located hrec) <|
      .postReplay hNonempty (hm.open_iff.mpr hAllowed.left) hActor hRecorded.symm hHash
        hMessage.symm⟩

end Succeeds

end Board

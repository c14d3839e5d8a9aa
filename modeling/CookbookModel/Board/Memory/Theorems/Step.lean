import CookbookModel.Board.Memory.Store
import CookbookModel.Library.History

namespace Board.Memory

open EStateM

variable [Platform]

-- A room as the store finds it by its id.
structure Located (s : MemoryStore) (roomID key : GoString) (r : RoomRecord) : Prop where
  byID  : s.roomKeys[roomID]? = some key
  byKey : s.rooms[key]? = some r

-- What `checkActorLocked` has checked when it returns no error.
structure Permitted (r : RoomRecord) (agent : GoString) (expected : Int) (action : Action)
    (m : Membership) : Prop where
  member  : r.members[agent]? = some m
  version : expected = 0 ∨ m.version = expected
  role    : roleCan m.role action

-- What grants and revokes check before they look at the target's membership.
structure AllowlistChecks (r : RoomRecord) (actor : Identity) (targetAgent : GoString)
    (actorVersion roomVersion : Int) (target : GoString) : Prop where
  canon    : canonicalDNSName targetAgent = .ok target
  active   : r.room.archived = false
  version  : r.room.version = roomVersion
  notSelf  : target ≠ actor.agent
  notOwner : target ≠ r.room.owner
  permits  : ∃ m, Permitted r actor.agent actorVersion .updateAllowList m

-- What the successful calls do to the record of the room they are about.
inductive Change (w : Stamp) (maxMembers : Int) (r : RoomRecord) :
    Call → Reply → RoomRecord → Prop
  | getRoomForAgent {roomID agent : GoString} :
    Change w maxMembers r (.getRoomForAgent roomID agent)
      (.snapshot ⟨r.room, r.members[agent]?⟩) r
  | grantSame {actor : Identity} {input : GrantInput} {target : GoString}
    {capabilities : List Capability} {m : Membership}
    (hChecks : AllowlistChecks r actor input.targetAgent input.actorMemberVersion
      input.expectedRoomVersion target)
    (hCapabilities : capabilitiesForRole input.role = some capabilities)
    (hRole : input.role ≠ .owner)
    (hMember : r.members[target]? = some m)
    (hSame : m.role = input.role) :
    Change w maxMembers r (.grantAllowlist actor input) (.granted m false) r
  | grantNew {actor : Identity} {input : GrantInput} {target : GoString}
    {capabilities : List Capability} {m : Membership}
    (hChecks : AllowlistChecks r actor input.targetAgent input.actorMemberVersion
      input.expectedRoomVersion target)
    (hCapabilities : capabilitiesForRole input.role = some capabilities)
    (hRole : input.role ≠ .owner)
    (hAbsent : r.members[target]? = none)
    (hLimit : r.room.memberCount < maxMembers)
    (hNew : m = r.newMember actor.agent target input.role capabilities w.now) :
    Change w maxMembers r (.grantAllowlist actor input) (.granted m true)
      (r.grant actor.agent target m true input.tokenJTIHash w.now)
  | grantChange {actor : Identity} {input : GrantInput} {target : GoString}
    {capabilities : List Capability} {m m' : Membership}
    (hChecks : AllowlistChecks r actor input.targetAgent input.actorMemberVersion
      input.expectedRoomVersion target)
    (hCapabilities : capabilitiesForRole input.role = some capabilities)
    (hRole : input.role ≠ .owner)
    (hMember : r.members[target]? = some m)
    (hChange : m.role ≠ input.role)
    (hNotOwner : m.role ≠ .owner)
    (hNew : m' = r.changedMember m actor.agent target input.role capabilities w.now) :
    Change w maxMembers r (.grantAllowlist actor input) (.granted m' false)
      (r.grant actor.agent target m' false input.tokenJTIHash w.now)
  | revoke {actor : Identity} {input : RevokeInput} {target : GoString} {m : Membership}
    (hChecks : AllowlistChecks r actor input.targetAgent input.actorMemberVersion
      input.expectedRoomVersion target)
    (hMember : r.members[target]? = some m)
    (hNotOwner : m.role ≠ .owner) :
    Change w maxMembers r (.revokeAllowlist actor input) (.revoked true)
      (r.revoke actor.agent target m input.tokenJTIHash w.now)
  | nicknameSame {actor : Identity} {input : SetNicknameInput} {name nameKey : GoString}
    {m : Membership}
    (hNickname : nickname input.nickname = .ok (name, nameKey))
    (hActive : r.room.archived = false)
    (hActor : Permitted r actor.agent input.actorMemberVersion .updateNickname m)
    (hFree : ∀ a, r.nicknames[nameKey]? = some a → a = actor.agent)
    (hSame : m.nickname = name ∧ m.nicknameKey = nameKey) :
    Change w maxMembers r (.setNickname actor input) (.membership m) r
  | nicknameChange {actor : Identity} {input : SetNicknameInput} {name nameKey : GoString}
    {m : Membership}
    (hNickname : nickname input.nickname = .ok (name, nameKey))
    (hActive : r.room.archived = false)
    (hActor : Permitted r actor.agent input.actorMemberVersion .updateNickname m)
    (hFree : ∀ a, r.nicknames[nameKey]? = some a → a = actor.agent)
    (hChange : ¬(m.nickname = name ∧ m.nicknameKey = nameKey)) :
    Change w maxMembers r (.setNickname actor input)
      (.membership (RoomRecord.renamedMember m actor.agent name nameKey w.now))
      (r.rename actor.agent m name nameKey w.now)
  | postReplay {actor : Identity} {input : PostInput} {m : Membership} {idem : IdempotencyRecord}
    {msg : Message}
    (hKey : input.idempotencyKey ≠ [])
    (hActive : r.room.archived = false)
    (hActor : Permitted r actor.agent input.actorMemberVersion .postMessage m)
    (hRecorded : r.idempotency[actor.agent ++ "#" ++ input.idempotencyKey]? = some idem)
    (hHash : idem.requestHash = input.requestHash)
    (hFound : r.messages.find? (·.messageID = idem.messageID) = some msg) :
    Change w maxMembers r (.postMessage actor input) (.posted ⟨msg, true⟩) r
  | post {actor : Identity} {input : PostInput} {m : Membership} {msg : Message}
    (hKey : input.idempotencyKey ≠ [])
    (hActive : r.room.archived = false)
    (hActor : Permitted r actor.agent input.actorMemberVersion .postMessage m)
    (hAbsent : r.idempotency[actor.agent ++ "#" ++ input.idempotencyKey]? = none)
    (hNew : msg = r.newMessage actor.agent input w.now w.ulid) :
    Change w maxMembers r (.postMessage actor input) (.posted ⟨msg, false⟩)
      (r.post (actor.agent ++ "#" ++ input.idempotencyKey) msg)

-- The calls that succeed, with what they return and the state they lead to.
inductive Step (w : Stamp) (s : MemoryStore) : Call → Reply → MemoryStore → Prop
  | create {actor : Identity} {input : CreateRoomInput} {room : Room} {owner : Membership}
    (hValid : normalizeRoomID input.roomID = .ok input.roomID)
    (hFresh : s.roomKeys[input.roomID]? = none)
    (hQuota : s.quota actor.agent < s.maxRoomsPerAgent)
    (hRoom : room = RoomRecord.newRoom input.roomID (Base64.encode input.roomID)
      (if input.name = [] then input.roomID else input.name) input.description actor.agent w.now)
    (hOwner : owner = RoomRecord.newOwner input.roomID (Base64.encode input.roomID) actor.agent
      [.owner, .manage, .post, .read, .connect] w.now) :
    Step w s (.createRoom actor input) (.room room)
      (s.addRoom input.roomID (Base64.encode input.roomID) actor.agent
        (.create room owner input.tokenJTIHash w.now))
  | change {c : Call} {key : GoString} {r r' : RoomRecord}
    (hValid : normalizeRoomID c.roomID = .ok c.roomID)
    (hLocated : Located s c.roomID key r)
    (hChange : Change w s.maxMembersPerRoom r c reply r') :
    Step w s c reply (s.putRecord key r')

section Ok

variable {s s' : MemoryStore} {actor : Identity}

omit [Platform] in
theorem Located.unique (h : Located s roomID key r) (h' : Located s roomID key' r') :
    key = key' ∧ r = r' := by
  cases h.byID.symm.trans h'.byID
  cases h.byKey.symm.trans h'.byKey
  exact ⟨rfl, rfl⟩

omit [Platform] in
theorem Located.putRecord (h : Located s roomID key r) : s.putRecord key r = s := by
  rw [MemoryStore.putRecord, GoMap.set_same h.byKey]

theorem Step.same {r : RoomRecord} (hValid : normalizeRoomID c.roomID = .ok c.roomID)
    (hLocated : Located s c.roomID key r) (h : Change w s.maxMembersPerRoom r c reply r) :
    Step w s c reply s := by
  have hStep := Step.change hValid hLocated h
  rwa [hLocated.putRecord] at hStep

omit [Platform] in
theorem validated_run_ok {x : Except GoString α} :
    (validated x : MemoryM α).run s = .ok a s' ↔ x = .ok a ∧ s = s' := by
  cases x <;> simp [validated]

omit [Platform] in
theorem recordByRoomIDLocked_run_ok :
    (recordByRoomIDLocked roomID).run s = .ok p s' ↔ Located s roomID p.1 p.2 ∧ s = s' := by
  simp only [recordByRoomIDLocked, bind_run_ok, get_run_ok]
  constructor
  case mp =>
    intro ⟨_, _, ⟨rfl, rfl⟩, h⟩
    split at h
    case h_1 => simp at h
    case h_2 key hKey =>
      split at h
      case h_1 => simp at h
      case h_2 r hRecord =>
        have ⟨hp, hs⟩ := pure_run_ok.mp h
        exact hp ▸ ⟨⟨hKey, hRecord⟩, hs⟩
  case mpr =>
    intro ⟨⟨hKey, hRecord⟩, hs⟩
    subst hs
    exact ⟨s, s, ⟨rfl, rfl⟩, by simp [hKey, hRecord]⟩

omit [Platform] in
theorem checkActorLocked_run_ok :
    (checkActorLocked r agent v action).run s = .ok u s' ↔
      (∃ m, Permitted r agent v action m) ∧ s = s' := by
  unfold checkActorLocked
  constructor
  case mp =>
    intro h
    split at h
    case h_1 => simp at h
    case h_2 m hMember =>
      simp only [bind_run_ok, throwIf_run_ok] at h
      have ⟨_, _, ⟨hVersion, hs⟩, hRole, hs'⟩ := h
      exact ⟨⟨m, hMember, by tauto, by simpa using hRole⟩, hs.trans hs'⟩
  case mpr =>
    intro ⟨⟨m, hMember, hVersion, hRole⟩, hs⟩
    simp only [hMember, bind_run_ok, throwIf_run_ok]
    exact ⟨(), s, ⟨by tauto, rfl⟩, by simpa using hRole, hs⟩

theorem createRoom_step (h : (createRoom actor input w.now).run s = .ok room s') :
    Step w s (.createRoom actor input) (.room room) s' := by
  simp only [createRoom, bind_run_ok, validated_run_ok, throwIf_run_ok, get_run_ok, set_run_ok,
    pure_run_ok, roomKey, Except.bind_eq_ok, Except.pure_eq_ok] at h
  obtain ⟨roomID, _, ⟨hValid, rfl⟩, key, _, ⟨⟨_, hValid', rfl⟩, rfl⟩, _, _, ⟨rfl, rfl⟩, _, _,
    ⟨hFresh, rfl⟩, _, _, ⟨hQuota, rfl⟩, _, _, rfl, rfl, rfl⟩ := h
  cases normalizeRoomID_ok hValid
  cases normalizeRoomID_ok hValid'
  exact .create hValid (by simpa using hFresh) (not_le.mp hQuota) rfl rfl

theorem getRoomForAgent_step (h : (getRoomForAgent roomID agent).run s = .ok snapshot s') :
    Step w s (.getRoomForAgent roomID agent) (.snapshot snapshot) s' := by
  simp only [getRoomForAgent, bind_run_ok, validated_run_ok, recordByRoomIDLocked_run_ok,
    pure_run_ok] at h
  obtain ⟨_, _, ⟨hValid, rfl⟩, ⟨key, r⟩, _, ⟨hLocated, rfl⟩, rfl, rfl⟩ := h
  cases normalizeRoomID_ok hValid
  exact .same hValid hLocated .getRoomForAgent

theorem grantAllowlist_step
    (h : (grantAllowlist actor input w.now).run s = .ok (m, created) s') :
    Step w s (.grantAllowlist actor input) (.granted m created) s' := by
  simp only [grantAllowlist, bind_run_ok, validated_run_ok] at h
  obtain ⟨_, _, ⟨hValid, rfl⟩, target, _, ⟨hTarget, rfl⟩, h⟩ := h
  cases normalizeRoomID_ok hValid
  split at h
  case h_1 => simp at h
  case h_2 capabilities hCapabilities =>
    simp only [bind_run_ok, throwIf_run_ok, recordByRoomIDLocked_run_ok, checkActorLocked_run_ok,
      get_run_ok] at h
    obtain ⟨_, _, ⟨hRole, rfl⟩, ⟨key, r⟩, _, ⟨hLocated, rfl⟩, _, _, ⟨hRoom, rfl⟩, _, _,
      ⟨hSelf, rfl⟩, _, _, ⟨hOwner, rfl⟩, _, _, ⟨hActor, rfl⟩, _, _, ⟨rfl, rfl⟩, h⟩ := h
    rw [not_or, Bool.not_eq_true, not_not] at hRoom
    have hChecks : AllowlistChecks r actor input.targetAgent input.actorMemberVersion
        input.expectedRoomVersion target :=
      ⟨hTarget, hRoom.left, hRoom.right, hSelf, hOwner, hActor⟩
    split at h
    case h_1 hAbsent =>
      simp only [bind_run_ok, throwIf_run_ok, set_run_ok, pure_run_ok] at h
      obtain ⟨_, _, ⟨hLimit, rfl⟩, _, _, rfl, hr, rfl⟩ := h
      cases hr
      exact .change hValid hLocated <|
        .grantNew hChecks hCapabilities hRole hAbsent (not_le.mp hLimit) rfl
    case h_2 existing hMember =>
      split at h
      case isTrue hSame =>
        have ⟨hr, hs⟩ := pure_run_ok.mp h
        cases hr
        exact hs ▸ .same hValid hLocated (.grantSame hChecks hCapabilities hRole hMember hSame)
      case isFalse hChange =>
        simp only [bind_run_ok, throwIf_run_ok, set_run_ok, pure_run_ok] at h
        obtain ⟨_, _, ⟨hNotOwner, rfl⟩, _, _, rfl, hr, rfl⟩ := h
        cases hr
        exact .change hValid hLocated <|
          .grantChange hChecks hCapabilities hRole hMember hChange hNotOwner rfl

theorem revokeAllowlist_step
    (h : (revokeAllowlist actor input w.now).run s = .ok removed s') :
    Step w s (.revokeAllowlist actor input) (.revoked removed) s' := by
  simp only [revokeAllowlist, bind_run_ok, validated_run_ok, throwIf_run_ok,
    recordByRoomIDLocked_run_ok, checkActorLocked_run_ok] at h
  obtain ⟨_, _, ⟨hValid, rfl⟩, target, _, ⟨hTarget, rfl⟩, ⟨key, r⟩, _, ⟨hLocated, rfl⟩, _, _,
    ⟨hRoom, rfl⟩, _, _, ⟨hSelf, rfl⟩, _, _, ⟨hOwner, rfl⟩, _, _, ⟨hActor, rfl⟩, h⟩ := h
  cases normalizeRoomID_ok hValid
  rw [not_or, Bool.not_eq_true, not_not] at hRoom
  split at h
  case h_1 => simp at h
  case h_2 m hMember =>
    simp only [bind_run_ok, throwIf_run_ok, modify_run_ok, pure_run_ok] at h
    obtain ⟨_, _, ⟨hNotOwner, rfl⟩, _, _, rfl, rfl, rfl⟩ := h
    exact .change hValid hLocated <|
      .revoke ⟨hTarget, hRoom.left, hRoom.right, hSelf, hOwner, hActor⟩ hMember hNotOwner

theorem setNickname_step (h : (setNickname actor input w.now).run s = .ok m s') :
    Step w s (.setNickname actor input) (.membership m) s' := by
  simp only [setNickname, bind_run_ok, validated_run_ok, throwIf_run_ok,
    recordByRoomIDLocked_run_ok] at h
  obtain ⟨_, _, ⟨hValid, rfl⟩, ⟨name, nameKey⟩, _, ⟨hNickname, rfl⟩, ⟨key, r⟩, _,
    ⟨hLocated, rfl⟩, _, _, ⟨hActive, rfl⟩, h⟩ := h
  cases normalizeRoomID_ok hValid
  split at h
  case h_1 => simp at h
  case h_2 existing hMember =>
    simp only [bind_run_ok, throwIf_run_ok] at h
    obtain ⟨_, _, ⟨hVersion, rfl⟩, _, _, ⟨hRole, rfl⟩, _, _, ⟨hFree, rfl⟩, h⟩ := h
    have hActor : Permitted r actor.agent input.actorMemberVersion .updateNickname existing :=
      ⟨hMember, by tauto, by simpa using hRole⟩
    have hFree : ∀ a, r.nicknames[nameKey]? = some a → a = actor.agent := by
      intro a ha
      simpa [ha] using hFree
    split at h
    case isTrue hSame =>
      have ⟨hr, hs⟩ := pure_run_ok.mp h
      exact hr ▸ hs ▸ .same hValid hLocated
        (.nicknameSame hNickname (by simpa using hActive) hActor hFree hSame)
    case isFalse hChange =>
      simp only [bind_run_ok, modify_run_ok, pure_run_ok] at h
      obtain ⟨_, _, rfl, rfl, rfl⟩ := h
      exact .change hValid hLocated <|
        .nicknameChange hNickname (by simpa using hActive) hActor hFree hChange

theorem postMessage_step (h : (postMessage actor input w.now w.ulid).run s = .ok result s') :
    Step w s (.postMessage actor input) (.posted result) s' := by
  simp only [postMessage, bind_run_ok, validated_run_ok, throwIf_run_ok,
    recordByRoomIDLocked_run_ok, checkActorLocked_run_ok] at h
  obtain ⟨_, _, ⟨hValid, rfl⟩, _, _, ⟨hKey, rfl⟩, ⟨key, r⟩, _, ⟨hLocated, rfl⟩, _, _,
    ⟨hActive, rfl⟩, _, _, ⟨⟨m, hActor⟩, rfl⟩, h⟩ := h
  cases normalizeRoomID_ok hValid
  rw [Bool.not_eq_true] at hActive
  split at h
  case h_1 idem hRecorded =>
    simp only [bind_run_ok, throwIf_run_ok] at h
    obtain ⟨_, _, ⟨hHash, rfl⟩, h⟩ := h
    split at h
    case h_1 msg hFound =>
      have ⟨hr, hs⟩ := pure_run_ok.mp h
      exact hr ▸ hs ▸ .same hValid hLocated
        (.postReplay hKey hActive hActor hRecorded (not_not.mp hHash) hFound)
    case h_2 => simp at h
  case h_2 hAbsent =>
    simp only [bind_run_ok, modify_run_ok, pure_run_ok] at h
    obtain ⟨_, _, rfl, rfl, rfl⟩ := h
    exact .change hValid hLocated <| .post hKey hActive hActor hAbsent rfl

theorem method_step (h : (method w c).run s = .ok reply s') : Step w s c reply s' := by
  cases c <;> simp only [method, bind_run_ok, pure_run_ok] at h
  case createRoom =>
    obtain ⟨_, _, h, rfl, rfl⟩ := h
    exact createRoom_step h
  case getRoomForAgent =>
    obtain ⟨_, _, h, rfl, rfl⟩ := h
    exact getRoomForAgent_step h
  case grantAllowlist =>
    obtain ⟨⟨_, _⟩, _, h, rfl, rfl⟩ := h
    exact grantAllowlist_step h
  case revokeAllowlist =>
    obtain ⟨_, _, h, rfl, rfl⟩ := h
    exact revokeAllowlist_step h
  case setNickname =>
    obtain ⟨_, _, h, rfl, rfl⟩ := h
    exact setNickname_step h
  case postMessage =>
    obtain ⟨_, _, h, rfl, rfl⟩ := h
    exact postMessage_step h

end Ok

section Complete

variable {s s' : MemoryStore}

omit [Platform] in
theorem Located.run (h : Located s roomID key r) :
    (recordByRoomIDLocked roomID).run s = .ok (key, r) s :=
  recordByRoomIDLocked_run_ok.mpr ⟨h, rfl⟩

omit [Platform] in
theorem Permitted.run (h : Permitted r agent v action m) :
    (checkActorLocked r agent v action).run s = .ok () s :=
  checkActorLocked_run_ok.mpr ⟨⟨m, h⟩, rfl⟩

omit [Platform] in
theorem Permitted.passes (h : Permitted r agent v action m) : ¬(v ≠ 0 ∧ m.version ≠ v) := by
  have := h.version
  tauto

omit [Platform] in
theorem any_ne_eq_false {o : Option GoString} (h : ∀ a, o = some a → a = agent) :
    o.any (fun a => !decide (a = agent)) = false := by
  cases o <;> simp_all

-- The calls that `Step` describes succeed.
theorem Step.run (h : Step w s c reply s') : (method w c).run s = .ok reply s' := by
  cases h
  case create hValid hFresh hQuota hRoom hOwner =>
    subst hRoom hOwner
    simp [method, createRoom, validated, hValid, roomKey, throwIf, hFresh, not_le.mpr hQuota,
      capabilitiesForRole]
  case change key r r' hValid hLocated hChange =>
    have hSame := hLocated.putRecord
    simp only [Call.roomID] at hValid hLocated
    cases hChange
    case getRoomForAgent =>
      simp [method, getRoomForAgent, validated, hValid, hLocated.run, hSame]
    case grantSame hChecks hCapabilities hRole hMember hRoleSame =>
      have ⟨hCanon, hActive, hVersion, hSelf, hOwner, m', hActor⟩ := hChecks
      simp [method, grantAllowlist, validated, hValid, hCanon, hLocated.run, throwIf, hActive,
        hVersion, hSelf, hOwner, hActor.run, hMember, hRoleSame, hCapabilities, hRole, hSame]
    case grantNew hChecks hCapabilities hRole hAbsent hLimit hNew =>
      have ⟨hCanon, hActive, hVersion, hSelf, hOwner, m', hActor⟩ := hChecks
      simp [method, grantAllowlist, validated, hValid, hCanon, hLocated.run, throwIf, hActive,
        hVersion, hSelf, hOwner, hActor.run, hAbsent, not_le.mpr hLimit, hCapabilities, hRole, hNew]
    case grantChange hChecks hCapabilities hRole hMember hChange hNotOwner hNew =>
      have ⟨hCanon, hActive, hVersion, hSelf, hOwner, m', hActor⟩ := hChecks
      simp [method, grantAllowlist, validated, hValid, hCanon, hLocated.run, throwIf, hActive,
        hVersion, hSelf, hOwner, hActor.run, hMember, hChange, hNotOwner, hCapabilities, hRole,
        hNew]
    case revoke hChecks hMember hNotOwner =>
      have ⟨hCanon, hActive, hVersion, hSelf, hOwner, m', hActor⟩ := hChecks
      simp [method, revokeAllowlist, validated, hValid, hCanon, hLocated.run, throwIf, hActive,
        hVersion, hSelf, hOwner, hActor.run, hMember, hNotOwner]
    case nicknameSame hNickname hActive hActor hFree hNameSame =>
      simp [method, setNickname, validated, hValid, hNickname, hLocated.run, throwIf, hActive,
        hActor.member, -ne_eq, hActor.passes, hActor.role, any_ne_eq_false hFree, hNameSame, hSame]
    case nicknameChange hNickname hActive hActor hFree hChange =>
      simp [method, setNickname, validated, hValid, hNickname, hLocated.run, throwIf, hActive,
        hActor.member, -ne_eq, hActor.passes, hActor.role, any_ne_eq_false hFree, hChange]
    case postReplay hKey hActive hActor hRecorded hHash hFound =>
      simp [method, postMessage, validated, hValid, hKey, hLocated.run, throwIf, hActive,
        hActor.run, -List.append_assoc, hRecorded, hHash, hFound, hSame]
    case post hKey hActive hActor hAbsent hNew =>
      simp [method, postMessage, validated, hValid, hKey, hLocated.run, throwIf, hActive,
        hActor.run, -List.append_assoc, hAbsent, hNew]

end Complete

section FailsClean

variable {actor : Identity}

omit [Platform] in
theorem validated_readOnly {x : Except GoString α} : ReadOnly (validated x : MemoryM α) := by
  cases x
  case ok    => exact .pure
  case error => exact .throw

omit [Platform] in
theorem recordByRoomIDLocked_readOnly : ReadOnly (recordByRoomIDLocked roomID) := by
  refine .bind .get fun s => ?_
  split
  case h_1 => exact .throw
  case h_2 =>
    split
    case h_1 => exact .throw
    case h_2 => exact .pure

omit [Platform] in
theorem checkActorLocked_readOnly : ReadOnly (checkActorLocked r agent v action) := by
  unfold checkActorLocked
  split
  case h_1 => exact .throw
  case h_2 => exact .bind .throwIf fun _ => .throwIf

-- A method changes the store by the last thing it does, and what follows does not fail.
theorem createRoom_failsClean : FailsClean (createRoom actor input now) :=
  .bind validated_readOnly fun _ =>
  .bind validated_readOnly fun _ =>
  .bind .get fun _ =>
  .bind .throwIf fun _ =>
  .bind .throwIf fun _ =>
  .of_ok fun _ => ⟨_, _, rfl⟩

theorem getRoomForAgent_failsClean : FailsClean (getRoomForAgent roomID agent) :=
  .bind validated_readOnly fun _ =>
  .bind recordByRoomIDLocked_readOnly fun _ =>
  .of_ok fun _ => ⟨_, _, rfl⟩

theorem grantAllowlist_failsClean : FailsClean (grantAllowlist actor input now) := by
  refine .bind validated_readOnly fun _ => .bind validated_readOnly fun _ => ?_
  split
  case h_1 => exact ReadOnly.throw.failsClean
  case h_2 =>
    refine .bind .throwIf fun _ => .bind recordByRoomIDLocked_readOnly fun p => ?_
    refine .bind .throwIf fun _ => .bind .throwIf fun _ => .bind .throwIf fun _ => ?_
    refine .bind checkActorLocked_readOnly fun _ => .bind .get fun s => ?_
    split
    case h_1 => exact .bind .throwIf fun _ => .of_ok fun _ => ⟨_, _, rfl⟩
    case h_2 =>
      split
      case isTrue  => exact ReadOnly.pure.failsClean
      case isFalse => exact .bind .throwIf fun _ => .of_ok fun _ => ⟨_, _, rfl⟩

theorem revokeAllowlist_failsClean : FailsClean (revokeAllowlist actor input now) := by
  refine .bind validated_readOnly fun _ => .bind validated_readOnly fun _ => ?_
  refine .bind recordByRoomIDLocked_readOnly fun p => .bind .throwIf fun _ => ?_
  refine .bind .throwIf fun _ => .bind .throwIf fun _ => .bind checkActorLocked_readOnly fun _ => ?_
  split
  case h_1 => exact ReadOnly.throw.failsClean
  case h_2 => exact .bind .throwIf fun _ => .of_ok fun _ => ⟨_, _, rfl⟩

theorem setNickname_failsClean : FailsClean (setNickname actor input now) := by
  refine .bind validated_readOnly fun _ => .bind validated_readOnly fun _ => ?_
  refine .bind recordByRoomIDLocked_readOnly fun p => .bind .throwIf fun _ => ?_
  split
  case h_1 => exact ReadOnly.throw.failsClean
  case h_2 =>
    refine .bind .throwIf fun _ => .bind .throwIf fun _ => .bind .throwIf fun _ => ?_
    split
    case isTrue  => exact ReadOnly.pure.failsClean
    case isFalse => exact .of_ok fun _ => ⟨_, _, rfl⟩

theorem postMessage_failsClean : FailsClean (postMessage actor input now ulid) := by
  refine .bind validated_readOnly fun _ => .bind .throwIf fun _ => ?_
  refine .bind recordByRoomIDLocked_readOnly fun p => .bind .throwIf fun _ => ?_
  refine .bind checkActorLocked_readOnly fun _ => ?_
  dsimp only
  split
  case h_1 =>
    refine .bind .throwIf fun _ => ?_
    split
    case h_1 => exact ReadOnly.pure.failsClean
    case h_2 => exact ReadOnly.throw.failsClean
  case h_2 => exact .of_ok fun _ => ⟨_, _, rfl⟩

theorem method_failsClean : FailsClean (method w c) := by
  cases c
  case createRoom      => exact createRoom_failsClean.map
  case getRoomForAgent => exact getRoomForAgent_failsClean.map
  case grantAllowlist  => exact grantAllowlist_failsClean.map
  case revokeAllowlist => exact revokeAllowlist_failsClean.map
  case setNickname     => exact setNickname_failsClean.map
  case postMessage     => exact postMessage_failsClean.map

end FailsClean

theorem exec_ok {s s' : MemoryStore} :
    exec c w s = (.ok reply, s') ↔ Step w s c reply s' where
  mp h := by
    unfold exec atomically at h
    cases hm : (method w c).run s <;> simp only [hm, Prod.mk.injEq, Except.ok.injEq,
      reduceCtorEq, false_and] at h
    case ok => exact h.left ▸ h.right ▸ method_step hm
  mpr h := by
    rw [exec, atomically, h.run]

-- A call that returns an error leaves the store as it was.
theorem exec_error {s s' : MemoryStore} (h : exec c w s = (.error e, s')) : s' = s := by
  unfold exec atomically at h
  cases hm : (method w c).run s <;> simp only [hm, Prod.mk.injEq, Except.error.injEq,
    reduceCtorEq, false_and] at h
  case error => exact h.right ▸ method_failsClean.error hm

theorem exec_cases (c : Call) (w : Stamp) (s : MemoryStore) :
    (∃ e, exec c w s = (.error e, s)) ∨
    (∃ reply s', exec c w s = (.ok reply, s') ∧ Step w s c reply s') := by
  cases h : exec c w s
  case mk r s' =>
    cases r
    case error e  => exact .inl ⟨e, exec_error h ▸ rfl⟩
    case ok reply => exact .inr ⟨reply, s', rfl, exec_ok.mp h⟩

section Rooms

variable {s s' : MemoryStore} {key : GoString} {r : RoomRecord}

-- A room of the state before is a room of the state after, with a record that the call has changed
-- if it is about the room.
theorem Step.record (h : Step w s c reply s') (hr : s.rooms[key]? = some r)
    (hs : ∀ {roomID : GoString},
      s.roomKeys[roomID]? = none → s.rooms[Base64.encode roomID]? = none) :
    ∃ r' : RoomRecord, s'.rooms[key]? = some r' ∧
      (r' = r ∨ Located s c.roomID key r ∧ Change w s.maxMembersPerRoom r c reply r') := by
  cases h
  case create hValid hFresh hQuota hRoom hOwner =>
    refine ⟨r, (GoMap.get_set_ne fun e => ?_).trans hr, .inl rfl⟩
    rw [e, hs hFresh] at hr
    contradiction
  case change key' r₀ r' hValid hLocated hChange =>
    by_cases e : key = key'
    case pos =>
      subst e
      cases hLocated.byKey.symm.trans hr
      exact ⟨r', GoMap.get_set_self, .inr ⟨hLocated, hChange⟩⟩
    case neg => exact ⟨r, (GoMap.get_set_ne e).trans hr, .inl rfl⟩

theorem Step.rooms {P Q : RoomRecord → Prop} (h : Step w s c reply s')
    (hs : ∀ {key : GoString} {r : RoomRecord}, s.rooms[key]? = some r → P r)
    (hKeep : ∀ {r}, P r → Q r)
    (hNew : ∀ {actor : Identity} {input : CreateRoomInput},
      normalizeRoomID input.roomID = .ok input.roomID →
      Q (.create
        (RoomRecord.newRoom input.roomID (Base64.encode input.roomID)
          (if input.name = [] then input.roomID else input.name) input.description actor.agent w.now)
        (RoomRecord.newOwner input.roomID (Base64.encode input.roomID) actor.agent
          [.owner, .manage, .post, .read, .connect] w.now)
        input.tokenJTIHash w.now))
    (hChange : ∀ {r r'}, P r → Change w s.maxMembersPerRoom r c reply r' → Q r') :
    ∀ {key : GoString} {r : RoomRecord}, s'.rooms[key]? = some r → Q r := by
  intro k r hk
  cases h
  case create hValid hFresh hQuota hRoom hOwner =>
    rw [MemoryStore.addRoom, GoMap.get_set] at hk
    split at hk
    case isTrue  => cases hk; exact hRoom ▸ hOwner ▸ hNew hValid
    case isFalse => exact hKeep (hs hk)
  case change hValid hLocated h =>
    rw [MemoryStore.putRecord, GoMap.get_set] at hk
    split at hk
    case isTrue  => cases hk; exact hChange (hs hLocated.byKey) h
    case isFalse => exact hKeep (hs hk)

-- What a fresh room has and every change preserves, all rooms keep.
theorem Step.forall_rooms {P : RoomRecord → Prop} (h : Step w s c reply s')
    (hs : ∀ {key : GoString} {r : RoomRecord}, s.rooms[key]? = some r → P r)
    (hNew : ∀ {actor : Identity} {input : CreateRoomInput},
      normalizeRoomID input.roomID = .ok input.roomID →
      P (.create
        (RoomRecord.newRoom input.roomID (Base64.encode input.roomID)
          (if input.name = [] then input.roomID else input.name) input.description actor.agent w.now)
        (RoomRecord.newOwner input.roomID (Base64.encode input.roomID) actor.agent
          [.owner, .manage, .post, .read, .connect] w.now)
        input.tokenJTIHash w.now))
    (hChange : ∀ {r r'}, P r → Change w s.maxMembersPerRoom r c reply r' → P r') :
    ∀ {key : GoString} {r : RoomRecord}, s'.rooms[key]? = some r → P r :=
  h.rooms hs id hNew hChange

theorem exec_forall_rooms {P : RoomRecord → Prop} (c : Call) (w : Stamp)
    (hs : ∀ {key : GoString} {r : RoomRecord}, s.rooms[key]? = some r → P r)
    (hNew : ∀ {actor : Identity} {input : CreateRoomInput} {name : GoString},
      P (.create
        (RoomRecord.newRoom input.roomID (Base64.encode input.roomID) name input.description
          actor.agent w.now)
        (RoomRecord.newOwner input.roomID (Base64.encode input.roomID) actor.agent
          [.owner, .manage, .post, .read, .connect] w.now)
        input.tokenJTIHash w.now))
    (hChange : ∀ {limit r reply r'}, P r → Change w limit r c reply r' → P r') :
    ∀ {key : GoString} {r : RoomRecord}, (exec c w s).2.rooms[key]? = some r → P r := by
  intro key r hr
  cases exec_cases c w s
  case inl he =>
    have ⟨e, he⟩ := he
    rw [he] at hr
    exact hs hr
  case inr h =>
    have ⟨reply, s', hs', hStep⟩ := h
    rw [hs'] at hr
    exact hStep.forall_rooms hs (fun _ => hNew) hChange hr

end Rooms

end Board.Memory

import CookbookModel.Board.Theorems.Matching
import CookbookModel.Library.DynamoDB.Query

namespace Board

open GoString DynamoDB
open Dynamo
open Memory (Stamp Change Permitted AllowlistChecks)

attribute [local simp] Rule.check Rule.create Rule.modify Rule.remove

variable {B : Contents} {key agent target roomID nowText tokenJTIHash u : GoString} {r : RoomRecord}
  {actor : Identity} {w : Stamp} {member audit read : DdbItem} {m : Membership} {limit : Int}

-- The id that is drawn for an item, as it is written for a message.
def Dynamo.BoardKey.drawn? : BoardKey → Option GoString
  | .audit _ u    => some ("msg_" ++ u)
  | .message _ id => some id
  | _             => none

-- The rules of a transaction about one room, for whose items one id has been drawn.
structure Dynamo.About (key u : GoString) (rules : List (Rule BoardKey DdbItem)) : Prop where
  room  : ∀ rule ∈ rules, rule.key.roomKey? = some key
  drawn : ∀ rule ∈ rules, ∀ id ∈ rule.key.drawn?, id = "msg_" ++ u

theorem Dynamo.About.nil : About key u [] := by
  constructor <;> simp

theorem Dynamo.About.other {rules : List (Rule BoardKey DdbItem)} (h : About key u rules)
    {k : BoardKey} (hk : k.roomKey? ≠ some key) : (Rules.apply rules B)[k]? = B[k]? :=
  Rules.apply_other fun rule hRule he => hk (he ▸ h.room rule hRule)

theorem about_grant {input : GrantInput} {maxMembers : Int} {created : Bool} :
    About key u (grantRules key actor input maxMembers target u member audit nowText created) := by
  constructor <;> cases created <;>
    simp [grantRules, BoardKey.roomKey?, BoardKey.drawn?, regrantRule]

theorem about_revoke {input : RevokeInput} :
    About key u (revokeRules key actor input target u read audit nowText) := by
  constructor <;> unfold revokeRules <;> split <;>
    simp [BoardKey.roomKey?, BoardKey.drawn?, revokeMemberRule, revokeRoomRule, deleteNicknameRule]

theorem about_setNickname {name nameKey : GoString} {version : Int} :
    About key u (setNicknameRules roomID key agent version read name nameKey nowText) := by
  constructor <;> unfold setNicknameRules <;> split_ifs <;>
    simp [BoardKey.roomKey?, BoardKey.drawn?, renameRule, deleteNicknameRule, putNicknameRule]

theorem about_post {input : PostInput} {idem message : DdbItem} :
    About key u (postRules key actor input ("msg_" ++ u) idem message) := by
  constructor <;> simp [postRules, BoardKey.roomKey?, BoardKey.drawn?]

-- Every id in the table is one of the given ones.
def Dynamo.Drawn (ids : List GoString) (B : Contents) : Prop :=
  ∀ {k : BoardKey} {d : DdbItem} {id : GoString}, B[k]? = some d → k.drawn? = some id →
    ∃ u ∈ ids, id = "msg_" ++ u

theorem Dynamo.Drawn.empty : Drawn [] ∅ := by
  simp [Drawn, GoMap.get_empty]

theorem Dynamo.Drawn.mono (h : Drawn ids B) : Drawn (ids ++ more) B := by
  intro k d id hd hk
  obtain ⟨u, hu, he⟩ := h hd hk
  exact ⟨u, List.mem_append_left _ hu, he⟩

theorem Dynamo.Drawn.fresh (h : Drawn ids B) (hu : u ∉ ids) {k : BoardKey}
    (hk : k.drawn? = some ("msg_" ++ u)) : B[k]? = none := by
  refine Option.eq_none_iff_forall_ne_some.mpr fun d hd => ?_
  obtain ⟨u', hu', he⟩ := h hd hk
  exact hu <| List.append_cancel_left he ▸ hu'

theorem Dynamo.Drawn.apply {rules : List (Rule BoardKey DdbItem)} (h : Drawn ids B)
    (hRules : ∀ rule ∈ rules, ∀ id ∈ rule.key.drawn?, id = "msg_" ++ u) :
    Drawn (ids ++ [u]) (Rules.apply rules B) := by
  intro k d id hd hk
  by_cases hr : ∃ rule ∈ rules, rule.key = k
  case pos =>
    obtain ⟨rule, hRule, rfl⟩ := hr
    exact ⟨u, by simp, hRules rule hRule id hk⟩
  case neg =>
    rw [Rules.apply_other fun rule hRule he => hr ⟨rule, hRule, he⟩] at hd
    exact h.mono hd hk

variable [Platform]

namespace RoomRecord.Matches

section Allowlist

theorem member_none (hm : r.Matches key B) :
    B[BoardKey.member key target]? = none ↔ r.members[target]? = none := by
  rw [←hm.members, Option.map_eq_none_iff]

theorem member_iff (hm : r.Matches key B) {p : Membership → Prop} :
    (∃ d, B[BoardKey.member key target]? = some d ∧ p (membershipFromItem d)) ↔
      ∃ m, r.members[target]? = some m ∧ p m := by
  simp [←hm.members, Option.map_eq_some_iff]

-- Whom an allowlist transaction goes through for, the memory store lets through as well. The owner
-- is neither let in again nor removed.
theorem allowlistChecks (hm : r.Matches key B) (hs : r.Sound limit) {targetAgent : GoString}
    {actorVersion roomVersion : Int} (hTarget : canonicalDNSName targetAgent = .ok target)
    (hSelf : target ≠ actor.agent)
    (hRole : ∀ {m : Membership}, r.members[target]? = some m → m.role ≠ .owner)
    (hActs : (actorRule key actor.agent actorVersion .updateAllowList).guard
      B[BoardKey.member key actor.agent]?)
    (hOpen : r.room.archived = false ∧ r.room.version = roomVersion) :
    AllowlistChecks r actor targetAgent actorVersion roomVersion target where
  canon    := hTarget
  active   := hOpen.left
  version  := hOpen.right
  notSelf  := hSelf
  notOwner he := by
    obtain ⟨m, hOwner, hIsOwner⟩ := hs.owner
    exact hRole (he ▸ hOwner) hIsOwner
  permits  := hm.permitted hActs (by simp)

theorem grantNew_allowed {input : GrantInput} {maxMembers : Int} (hm : r.Matches key B) :
    Rules.Allowed (grantRules key actor input maxMembers target u member audit nowText true) B ↔
      (actorRule key actor.agent input.actorMemberVersion .updateAllowList).guard
        B[BoardKey.member key actor.agent]? ∧
      (r.room.archived = false ∧ r.room.version = input.expectedRoomVersion ∧
        r.room.memberCount < maxMembers) ∧
      r.members[target]? = none ∧ B[BoardKey.audit key u]? = none := by
  have hRoom : r.room.archived = false ∧ r.room.version = input.expectedRoomVersion ∧
      r.room.memberCount < maxMembers ↔
      (grantRoomRule key input.expectedRoomVersion maxMembers nowText true).guard
        B[BoardKey.room key]? := by
    simp [←hm.grantRoom_iff]
  rw [hRoom, ←hm.member_none]
  simp [grantRules, Rules.Allowed]

theorem regrant_allowed {input : GrantInput} {maxMembers : Int} (hm : r.Matches key B) :
    Rules.Allowed (grantRules key actor input maxMembers target u member audit nowText false) B ↔
      (actorRule key actor.agent input.actorMemberVersion .updateAllowList).guard
        B[BoardKey.member key actor.agent]? ∧
      (r.room.archived = false ∧ r.room.version = input.expectedRoomVersion) ∧
      (∃ m, r.members[target]? = some m ∧ m.role ≠ .owner) ∧ B[BoardKey.audit key u]? = none := by
  have hRoom : r.room.archived = false ∧ r.room.version = input.expectedRoomVersion ↔
      (grantRoomRule key input.expectedRoomVersion maxMembers nowText false).guard
        B[BoardKey.room key]? := by
    simp [←hm.grantRoom_iff]
  rw [hRoom, ←hm.member_iff]
  simp [grantRules, Rules.Allowed, regrantRule, membershipFromItem]

theorem revoke_allowed {input : RevokeInput} (hm : r.Matches key B) :
    Rules.Allowed (revokeRules key actor input target u read audit nowText) B ↔
      (actorRule key actor.agent input.actorMemberVersion .updateAllowList).guard
        B[BoardKey.member key actor.agent]? ∧
      (∃ m, r.members[target]? = some m ∧ m.role ≠ .owner ∧ m.version = read.version ∧
        m.nicknameKey = read.nicknameKey) ∧
      (r.room.archived = false ∧ r.room.version = input.expectedRoomVersion) ∧
      B[BoardKey.audit key u]? = none ∧
      (read.nicknameKey ≠ [] → r.nicknames[read.nicknameKey]? = some target ∧ target ≠ []) := by
  have hNickname : (∃ d, B[BoardKey.nickname key read.nicknameKey]? = some d ∧ d.agent = target ∧
      target ≠ []) ↔ r.nicknames[read.nicknameKey]? = some target ∧ target ≠ [] := by
    rw [←hm.nicknames, Option.map_eq_some_iff]
    simp only [←exists_and_right, and_assoc]
  rw [hm.version_iff, ←hm.member_iff, ←hNickname]
  unfold revokeRules
  split <;> simp_all [Rules.Allowed, revokeMemberRule, revokeRoomRule, roomVersionRule,
    deleteNicknameRule, membershipFromItem]

theorem grantNew_effect {input : GrantInput} {capabilities : List Capability} {maxMembers : Int}
    (hm : r.Matches key B) (hAbsent : r.members[target]? = none)
    (hu : B[BoardKey.audit key w.ulid]? = none)
    (hNew : m = r.newMember actor.agent target input.role capabilities w.now) :
    (r.grant actor.agent target m true input.tokenJTIHash w.now).Matches key <|
      Rules.apply (grantRules key actor input maxMembers target w.ulid
        (newMemberItem r.room.roomID key target input.role capabilities actor.agent w.now.format)
        (auditItem key "allowlist_granted" actor.agent target input.role input.tokenJTIHash
          w.now.format w.ulid) w.now.format true) B := by
  obtain ⟨d, hd, hr⟩ := hm.stored_room
  have hItem : membershipFromItem (newMemberItem r.room.roomID key target input.role capabilities
      actor.agent w.now.format) = m := by
    rw [membershipFromItem_new, hNew, RoomRecord.newMember, hm.roomKey]
  have hMatches := hm.grant actor.agent target input.tokenJTIHash w.now true
    (hm.indexed.grant (by simp [hAbsent, hNew, RoomRecord.newMember])
      (by simp [hAbsent, hNew, RoomRecord.newMember])) hu hd hItem
    (by simp [hNew, RoomRecord.newMember, hm.roomKey])
  simpa [grantRules, Rules.apply, actorRule, grantRoomRule, hd, hNew, RoomRecord.newMember] using
    hMatches

-- What the method has read of the membership makes no difference to what is stored.
theorem regrant_effect {input : GrantInput} {capabilities : List Capability} {maxMembers : Int}
    {m' : Membership} (hm : r.Matches key B) (hMember : r.members[target]? = some m)
    (hu : B[BoardKey.audit key w.ulid]? = none)
    (hNew : m' = r.changedMember m actor.agent target input.role capabilities w.now) :
    (r.grant actor.agent target m' false input.tokenJTIHash w.now).Matches key <|
      Rules.apply (grantRules key actor input maxMembers target w.ulid
        (regrantedItem (newMemberItem roomID key target input.role capabilities actor.agent
          w.now.format) read)
        (auditItem key "allowlist_granted" actor.agent target input.role input.tokenJTIHash
          w.now.format w.ulid) w.now.format false) B := by
  obtain ⟨d, hd, hr⟩ := hm.stored_room
  obtain ⟨item, hItem, hItemMember⟩ := hm.member hMember
  obtain ⟨hRoomID, hRoomKey, hAgent⟩ := hm.belongs hMember
  subst hItemMember
  have hStored : membershipFromItem (regrantedMember item <| regrantedItem
      (newMemberItem roomID key target input.role capabilities actor.agent w.now.format) read) =
      m' := by
    rw [membershipFromItem_regranted, hNew, RoomRecord.changedMember, ←hRoomID, hm.roomKey, ←hRoomKey,
      ←hAgent]
    rfl
  have hMatches := hm.grant actor.agent target input.tokenJTIHash w.now false
    (hm.indexed.grant (by simp [hMember, hNew, RoomRecord.changedMember])
      (by simp [hMember, hNew, RoomRecord.changedMember])) hu hd hStored
    (by simp [hNew, RoomRecord.changedMember, hm.roomKey])
  simpa [grantRules, Rules.apply, actorRule, grantRoomRule, regrantRule, hd, hItem, hNew,
    RoomRecord.changedMember] using hMatches

theorem revoke_effect {input : RevokeInput} (hm : r.Matches key B)
    (hMember : r.members[target]? = some m) (hKey : m.nicknameKey = read.nicknameKey)
    (hu : B[BoardKey.audit key w.ulid]? = none) :
    (r.revoke actor.agent target m input.tokenJTIHash w.now).Matches key <|
      Rules.apply (revokeRules key actor input target w.ulid read
        (auditItem key "allowlist_revoked" actor.agent target .zero input.tokenJTIHash w.now.format
          w.ulid) w.now.format) B := by
  obtain ⟨d, hd, hr⟩ := hm.stored_room
  have hMatches := hm.revoke actor.agent input.tokenJTIHash w.now (hm.indexed.revoke hMember) hu hd
  by_cases hk : read.nicknameKey = [] <;>
    simpa [revokeRules, Rules.apply, actorRule, revokeMemberRule, revokeRoomRule, deleteNicknameRule,
      hd, hk, hKey] using hMatches

end Allowlist

section Nicknames

variable {name nameKey : GoString} {version : Int}

theorem setNickname_allowed (hm : r.Matches key B) :
    Rules.Allowed (setNicknameRules roomID key agent version read name nameKey nowText) B ↔
      r.room.archived = false ∧
      (∃ m, r.members[agent]? = some m ∧ m.version = version ∧ m.role = read.role) ∧
      (read.nicknameKey ≠ [] ∧ read.nicknameKey ≠ nameKey →
        r.nicknames[read.nicknameKey]? = some agent ∧ agent ≠ []) ∧
      (read.nicknameKey ≠ nameKey →
        ∀ a, r.nicknames[nameKey]? = some a → a = agent ∧ agent ≠ []) := by
  have hOld : (∃ d, B[BoardKey.nickname key read.nicknameKey]? = some d ∧ d.agent = agent ∧
      agent ≠ []) ↔ r.nicknames[read.nicknameKey]? = some agent ∧ agent ≠ [] := by
    rw [←hm.nicknames, Option.map_eq_some_iff]
    simp only [←exists_and_right, and_assoc]
  have hNew : (∀ d, B[BoardKey.nickname key nameKey]? = some d → d.agent = agent ∧ agent ≠ []) ↔
      ∀ a, r.nicknames[nameKey]? = some a → a = agent ∧ agent ≠ [] := by
    simp [←hm.nicknames, Option.map_eq_some_iff]
  rw [hm.open_iff, ←hm.member_iff, ←hOld, ←hNew]
  unfold setNicknameRules
  split_ifs <;> simp_all [Rules.Allowed, renameRule, deleteNicknameRule, putNicknameRule,
    membershipFromItem]

omit [Platform] in
theorem apply_setNickname (hd : B[BoardKey.member key agent]? = some d) {k : BoardKey} :
    (Rules.apply (setNicknameRules roomID key agent version read name nameKey nowText) B)[k]? =
      if k = .nickname key nameKey ∧ read.nicknameKey ≠ nameKey then
        some (nicknameItem roomID key name nameKey agent nowText)
      else if k = .nickname key read.nicknameKey ∧ read.nicknameKey ≠ [] ∧
        read.nicknameKey ≠ nameKey then none
      else if k = .member key agent then
        some (Dynamo.renamedMember d agent name nameKey nowText)
      else B[k]? := by
  unfold setNicknameRules
  split_ifs <;> simp_all [Rules.apply, roomOpenRule, renameRule, deleteNicknameRule, putNicknameRule,
    GoMap.get_set, GoMap.get_delete]

-- The method has read the key that the member holds, or none while the member holds the new one.
theorem rename_effect {v : GoString} (hm : r.Matches key B)
    (hNickname : nickname v = .ok (name, nameKey)) (hMember : r.members[agent]? = some m)
    (hKey : m.nicknameKey = read.nicknameKey ∨ read.nicknameKey = [] ∧ m.nicknameKey = nameKey)
    (hFree : ∀ a, r.nicknames[nameKey]? = some a → a = agent) :
    (r.rename agent m name nameKey w.now).Matches key <|
      Rules.apply (setNicknameRules roomID key agent version read name nameKey w.now.format) B := by
  obtain ⟨item, hItem, hItemMember⟩ := hm.member hMember
  obtain ⟨hName, hNameKey⟩ := nickname_ok hNickname
  have hne := nicknameKey_ne_nil hNickname
  subst hItemMember
  refine hm.rename (hm.indexed.rename hMember hFree hName hNameKey) hMember
    (membershipFromItem_renamed (d := item) name nameKey w.now) (fun k => ?_) (fun k hk hn => ?_)
  · have hNames := hm.nicknames k
    have hHeld : item.nicknameKey = nameKey → r.nicknames[nameKey]? = some agent := fun he =>
      (hm.indexed.exact nameKey agent).mpr ⟨_, hMember, he, hne⟩
    have hKey : item.nicknameKey = read.nicknameKey ∨
        read.nicknameKey = [] ∧ item.nicknameKey = nameKey := hKey
    rw [apply_setNickname hItem, RoomRecord.rename, GoMap.get_set]
    by_cases he : k = nameKey
    case pos =>
      subst he
      by_cases hn : read.nicknameKey = k
      case pos =>
        have hSame : item.nicknameKey = k := hKey.elim (·.trans hn) (·.right)
        simp [hn, hNames, hHeld hSame]
      case neg => simp [hn, nicknameItem]
    case neg =>
      by_cases hn : item.nicknameKey ≠ [] ∧ item.nicknameKey ≠ nameKey
      case pos =>
        have hRead : read.nicknameKey = item.nicknameKey :=
          hKey.elim Eq.symm fun h => absurd h.right hn.right
        simp [he, hn, hRead, membershipFromItem, GoMap.get_delete, apply_ite (Option.map _), hNames]
      case neg =>
        have hRead : ¬(read.nicknameKey ≠ [] ∧ read.nicknameKey ≠ nameKey) := fun h =>
          hKey.elim (fun h' => hn (h' ▸ h)) fun h' => h.left h'.left
        simp [he, hn, hRead, membershipFromItem, hNames]
  · rw [apply_setNickname hItem]
    simp [hn]

end Nicknames

section Posts

variable {input : PostInput}

theorem post_allowed {id : GoString} {idem message : DdbItem} (hm : r.Matches key B) :
    Rules.Allowed (postRules key actor input id idem message) B ↔
      r.room.archived = false ∧
      (actorRule key actor.agent input.actorMemberVersion .postMessage).guard
        B[BoardKey.member key actor.agent]? ∧
      r.idempotency[actor.agent ++ "#" ++ input.idempotencyKey]? = none ∧
      B[BoardKey.message key id]? = none := by
  rw [hm.open_iff, ←hm.idempotency, Option.map_eq_none_iff]
  simp [postRules, Rules.Allowed, -List.append_assoc]

theorem post_effect {msg : Message} (hm : r.Matches key B)
    (hu : B[BoardKey.message key ("msg_" ++ w.ulid)]? = none)
    (hNew : msg = r.newMessage actor.agent input w.now w.ulid) :
    (r.post (actor.agent ++ "#" ++ input.idempotencyKey) msg).Matches key <|
      Rules.apply (postRules key actor input ("msg_" ++ w.ulid)
        (idempotencyItem key actor.agent input ("msg_" ++ w.ulid) w.now.format)
        (messageItem r.room.roomID key actor.agent input ("msg_" ++ w.ulid) w.now.format)) B := by
  have hMatches := hm.post (actor.agent ++ "#" ++ input.idempotencyKey)
    (idempotencyItem key actor.agent input ("msg_" ++ w.ulid) w.now.format) hu hNew rfl rfl
  simpa [postRules, Rules.apply, roomOpenRule, actorRule, -List.append_assoc] using hMatches

end Posts

-- A transaction that writes is allowed only if the memory store makes the change, too.
section Changes

variable {capabilities : List Capability} {maxMembers most : Int}

theorem grantNew_change {input : GrantInput} (hm : r.Matches key B) (hs : r.Sound limit)
    (hTarget : canonicalDNSName input.targetAgent = .ok target)
    (hRole : capabilitiesForRole input.role = some capabilities) (hNotOwner : input.role ≠ .owner)
    (hAllowed : Rules.Allowed
      (grantRules key actor input maxMembers target u member audit nowText true) B) :
    let m := r.newMember actor.agent target input.role capabilities w.now
    Change w maxMembers r (.grantAllowlist actor input) (.granted m true)
      (r.grant actor.agent target m true input.tokenJTIHash w.now) := by
  obtain ⟨hActs, ⟨hActive, hVersion, hLimit⟩, hAbsent, _⟩ := hm.grantNew_allowed.mp hAllowed
  obtain ⟨m, hActor⟩ := hm.permitted hActs (by simp)
  have hSelf : target ≠ actor.agent := fun he => by
    rw [he, hActor.member] at hAbsent
    contradiction
  exact .grantNew (hm.allowlistChecks hs hTarget hSelf (by simp [hAbsent]) hActs ⟨hActive, hVersion⟩)
    hRole hNotOwner hAbsent hLimit rfl

theorem regrant_change {input : GrantInput} (hm : r.Matches key B) (hs : r.Sound limit)
    (hTarget : canonicalDNSName input.targetAgent = .ok target) (hSelf : target ≠ actor.agent)
    (hRole : capabilitiesForRole input.role = some capabilities) (hNotOwner : input.role ≠ .owner)
    (hMember : r.members[target]? = some m) (hChange : m.role ≠ input.role)
    (hAllowed : Rules.Allowed
      (grantRules key actor input maxMembers target u member audit nowText false) B) :
    let m' := r.changedMember m actor.agent target input.role capabilities w.now
    Change w most r (.grantAllowlist actor input) (.granted m' false)
      (r.grant actor.agent target m' false input.tokenJTIHash w.now) := by
  obtain ⟨hActs, hOpen, ⟨m', hMember', hOldRole⟩, _⟩ := hm.regrant_allowed.mp hAllowed
  cases hMember.symm.trans hMember'
  exact .grantChange (hm.allowlistChecks hs hTarget hSelf (by simpa [hMember]) hActs hOpen) hRole
    hNotOwner hMember hChange hOldRole rfl

theorem revoke_change {input : RevokeInput} (hm : r.Matches key B) (hs : r.Sound limit)
    (hTarget : canonicalDNSName input.targetAgent = .ok target) (hSelf : target ≠ actor.agent)
    (hAllowed : Rules.Allowed (revokeRules key actor input target u read audit nowText) B) :
    ∃ m : Membership, r.members[target]? = some m ∧ m.nicknameKey = read.nicknameKey ∧
      Change w most r (.revokeAllowlist actor input) (.revoked true)
        (r.revoke actor.agent target m input.tokenJTIHash w.now) := by
  obtain ⟨hActs, ⟨m, hMember, hOldRole, _, hKey⟩, hOpen, _⟩ := hm.revoke_allowed.mp hAllowed
  exact ⟨m, hMember, hKey, .revoke
    (hm.allowlistChecks hs hTarget hSelf (by simpa [hMember]) hActs hOpen) hMember hOldRole⟩

-- A rename is free to take the key that the member holds.
theorem rename_free {name nameKey : GoString} {version : Int} (hm : r.Matches key B)
    (hne : nameKey ≠ []) (hMember : r.members[agent]? = some m)
    (hKey : m.nicknameKey = read.nicknameKey ∨ read.nicknameKey = [] ∧ m.nicknameKey = nameKey)
    (hAllowed : Rules.Allowed
      (setNicknameRules roomID key agent version read name nameKey nowText) B) (a : GoString)
    (ha : r.nicknames[nameKey]? = some a) : a = agent := by
  obtain ⟨_, _, _, hFree⟩ := hm.setNickname_allowed.mp hAllowed
  by_cases he : read.nicknameKey = nameKey
  case pos =>
    have hSame : m.nicknameKey = nameKey := hKey.elim (·.trans he) (·.right)
    have hHeld := (hm.indexed.exact nameKey agent).mpr ⟨m, hMember, hSame, hne⟩
    exact Option.some_inj.mp (ha.symm.trans hHeld)
  case neg => exact (hFree he a ha).left

theorem rename_change {input : SetNicknameInput} {name nameKey : GoString} (hm : r.Matches key B)
    (hNickname : nickname input.nickname = .ok (name, nameKey))
    (hRole : roleCan read.role .updateNickname) (hMember : r.members[actor.agent]? = some m)
    (hKey : m.nicknameKey = read.nicknameKey ∨ read.nicknameKey = [] ∧ m.nicknameKey = nameKey)
    (hChange : ¬(m.nickname = name ∧ m.nicknameKey = nameKey))
    (hAllowed : Rules.Allowed (setNicknameRules roomID key actor.agent input.actorMemberVersion read
      name nameKey nowText) B) :
    Change w most r (.setNickname actor input)
      (.membership (RoomRecord.renamedMember m actor.agent name nameKey w.now))
      (r.rename actor.agent m name nameKey w.now) := by
  have hFree := hm.rename_free (nicknameKey_ne_nil hNickname) hMember hKey hAllowed
  obtain ⟨hActive, ⟨m', hMember', hVersion, hSame⟩, _⟩ := hm.setNickname_allowed.mp hAllowed
  cases hMember.symm.trans hMember'
  exact .nicknameChange hNickname hActive ⟨hMember, .inr hVersion, hSame ▸ hRole⟩ hFree hChange

theorem post_change {input : PostInput} {id : GoString} {idem message : DdbItem}
    (hm : r.Matches key B) (hNonempty : input.idempotencyKey ≠ [])
    (hAllowed : Rules.Allowed (postRules key actor input id idem message) B) :
    let msg := r.newMessage actor.agent input w.now w.ulid
    Change w most r (.postMessage actor input) (.posted ⟨msg, false⟩)
      (r.post (actor.agent ++ "#" ++ input.idempotencyKey) msg) := by
  obtain ⟨hActive, hActs, hAbsent, _⟩ := hm.post_allowed.mp hAllowed
  obtain ⟨m, hActor⟩ := hm.permitted hActs (by simp)
  exact .post hNonempty hActive hActor hAbsent rfl

end Changes

end RoomRecord.Matches

end Board

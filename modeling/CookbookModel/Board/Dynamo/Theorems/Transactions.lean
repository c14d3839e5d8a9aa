import CookbookModel.Board.Dynamo.Store
import CookbookModel.Board.Dynamo.Theorems.Rules

namespace Board.Dynamo

open GoString DynamoDB
open DdbItem (get_marshalMap)

variable {roomID roomKey agent target name description nickname nicknameKey nowText : GoString}
  {ulid tokenJTIHash messageID : GoString} {role : Role} {capabilities : List Capability}
  {actor : Identity}

theorem role_ne_zero (h : capabilitiesForRole role = some capabilities) : role ≠ .zero := by
  rintro rfl
  contradiction

theorem nicknameKey_ne_nil [Platform] (h : Board.nickname v = .ok (name, nicknameKey)) :
    nicknameKey ≠ [] := by
  have ⟨hName, hKey⟩ := nickname_ok h
  simpa [hKey, toLower_eq_nil] using hName

theorem present_newRoomItem :
    let d := newRoomItem roomID roomKey name description agent nowText
    Present d.marshalMap d (.room roomKey) := by
  simp only [Present, get_marshalMap]
  exact ⟨rfl, rfl, rfl⟩

-- A membership that is written as a whole has a role.
theorem present_member {d : DdbItem} (hVersion : d.version ≠ 0) (hRole : d.role ≠ .zero) :
    Present d.marshalMap d (.member roomKey agent) := by
  simp only [Present, get_marshalMap]
  have hText : d.role.text ≠ [] := fun h => hRole <| Role.text_injective h
  refine ⟨?_, ?_, rfl⟩
  · exact if_neg hVersion
  · exact if_neg hText

def createRoomRules
    (roomKey agent ulid : GoString) (room member audit : DdbItem) (maxRoomsPerAgent : Int)
    (nowText : GoString) : List (Rule BoardKey DdbItem) := [
  .create (.room roomKey) room,
  .create (.member roomKey agent) member,
  .create (.audit roomKey ulid) audit,
  quotaRule agent maxRoomsPerAgent nowText]

theorem realizes_createRoom (maxRooms : Int) :
    let room := newRoomItem roomID roomKey name description agent nowText
    let member := newMemberItem roomID roomKey agent .owner capabilities agent nowText
    let audit := auditItem roomKey "room_created" agent agent .owner tokenJTIHash nowText ulid
    List.Forall₂ view.Realizes
      (createRoomTxn room member audit (quotaTxn agent maxRooms nowText))
      (createRoomRules roomKey agent ulid room member audit maxRooms nowText) :=
  .cons (realizes_put rfl present_newRoomItem) <|
  .cons (realizes_put rfl <| present_member one_ne_zero (by simp [newMemberItem, Role.zero])) <|
  .cons (realizes_put rfl trivial) <|
  .cons (realizes_quota agent maxRooms nowText) .nil

def grantRules
    (roomKey : GoString) (actor : Identity) (input : GrantInput) (maxMembersPerRoom : Int)
    (target ulid : GoString) (member audit : DdbItem) (nowText : GoString) (created : Bool) :
    List (Rule BoardKey DdbItem) := [
  actorRule roomKey actor.agent input.actorMemberVersion .updateAllowList,
  grantRoomRule roomKey input.expectedRoomVersion maxMembersPerRoom nowText created,
  if created then .create (.member roomKey target) member else regrantRule roomKey target member,
  .create (.audit roomKey ulid) audit]

theorem realizes_grant (existing : Option DdbItem) (input : GrantInput) (maxMembers : Int)
    (hRole : role ≠ .zero) :
    let member := newMemberItem roomID roomKey target role capabilities actor.agent nowText
    let member := existing.elim member (regrantedItem member)
    let audit := auditItem roomKey "allowlist_granted" actor.agent target role tokenJTIHash nowText
      ulid
    List.Forall₂ view.Realizes
      (grantTxn roomKey actor input maxMembers member audit nowText existing.isNone)
      (grantRules roomKey actor input maxMembers target ulid member audit nowText
        existing.isNone) := by
  refine .cons (realizes_actor _ _) <| .cons (realizes_grantRoom _ _ _ _) <|
    .cons ?_ <| .cons (realizes_put rfl trivial) .nil
  cases existing
  case none => exact realizes_put rfl <| present_member one_ne_zero hRole
  case some => exact realizes_regrant rfl

def revokeRules
    (roomKey : GoString) (actor : Identity) (input : RevokeInput) (target ulid : GoString)
    (member audit : DdbItem) (nowText : GoString) : List (Rule BoardKey DdbItem) :=
  [actorRule roomKey actor.agent input.actorMemberVersion .updateAllowList,
    revokeMemberRule roomKey target member,
    revokeRoomRule roomKey input.expectedRoomVersion nowText,
    .create (.audit roomKey ulid) audit] ++
  if member.nicknameKey ≠ [] then [deleteNicknameRule roomKey member.nicknameKey target] else []

theorem realizes_revoke (input : RevokeInput) (member : DdbItem) :
    let audit := auditItem roomKey "allowlist_revoked" actor.agent target .zero tokenJTIHash nowText
      ulid
    List.Forall₂ view.Realizes
      (revokeTxn roomKey actor input target member audit nowText)
      (revokeRules roomKey actor input target ulid member audit nowText) := by
  refine .cons (realizes_actor _ _) <| .cons (realizes_revokeMember _) <|
    .cons (realizes_revokeRoom _ _) <| .cons (realizes_put rfl trivial) ?_
  split
  case isTrue  => exact .cons realizes_deleteNickname .nil
  case isFalse => exact .nil

def setNicknameRules
    (roomID roomKey agent : GoString) (actorMemberVersion : Int) (member : DdbItem)
    (nickname nicknameKey nowText : GoString) : List (Rule BoardKey DdbItem) :=
  [roomOpenRule roomKey,
    renameRule roomKey agent actorMemberVersion member.role nickname nicknameKey nowText] ++
  (if member.nicknameKey ≠ [] ∧ member.nicknameKey ≠ nicknameKey then
    [deleteNicknameRule roomKey member.nicknameKey agent] else []) ++
  if member.nicknameKey ≠ nicknameKey then
    [putNicknameRule roomID roomKey nickname nicknameKey agent nowText] else []

theorem realizes_setNickname (actorMemberVersion : Int) (member : DdbItem)
    (hKey : nicknameKey ≠ []) :
    List.Forall₂ view.Realizes
      (setNicknameTxn roomID roomKey agent actorMemberVersion member nickname nicknameKey nowText)
      (setNicknameRules roomID roomKey agent actorMemberVersion member nickname nicknameKey
        nowText) := by
  refine List.rel_append (List.rel_append
    (.cons realizes_roomOpen <| .cons (realizes_rename hKey _ _ _ _) .nil) ?_) ?_
  · split
    case isTrue  => exact .cons realizes_deleteNickname .nil
    case isFalse => exact .nil
  · split
    case isTrue  => exact .cons (realizes_putNickname _ _ _) .nil
    case isFalse => exact .nil

def postRules
    (roomKey : GoString) (actor : Identity) (input : PostInput) (messageID : GoString)
    (idempotency message : DdbItem) : List (Rule BoardKey DdbItem) := [
  roomOpenRule roomKey,
  actorRule roomKey actor.agent input.actorMemberVersion .postMessage,
  .create (.idempotency roomKey (actor.agent ++ "#" ++ input.idempotencyKey)) idempotency,
  .create (.message roomKey messageID) message]

theorem realizes_post (input : PostInput) :
    let idempotency := idempotencyItem roomKey actor.agent input messageID nowText
    let message := messageItem roomID roomKey actor.agent input messageID nowText
    List.Forall₂ view.Realizes (postTxn roomKey actor input idempotency message)
      (postRules roomKey actor input messageID idempotency message) :=
  .cons realizes_roomOpen <|
  .cons (realizes_actor _ _) <|
  .cons (realizes_put (by simp [idempotencyItem, idempotencySK, BoardKey.key]) trivial) <|
  .cons (realizes_put rfl trivial) .nil

def membershipGuardRules
    (roomKey agent : GoString) (actorMemberVersion : Int) (action : Action) :
    List (Rule BoardKey DdbItem) := [
  roomOpenRule roomKey,
  actorRule roomKey agent actorMemberVersion action]

theorem realizes_membershipGuard (actorMemberVersion : Int) (action : Action) :
    List.Forall₂ view.Realizes (membershipGuardTxn roomKey agent actorMemberVersion action)
      (membershipGuardRules roomKey agent actorMemberVersion action) :=
  .cons realizes_roomOpen <| .cons (realizes_actor _ _) .nil

def allowlistGuardRules
    (roomKey agent : GoString) (actorMemberVersion expectedRoomVersion : Int) :
    List (Rule BoardKey DdbItem) := [
  roomVersionRule roomKey expectedRoomVersion,
  actorRule roomKey agent actorMemberVersion .updateAllowList]

theorem realizes_allowlistGuard (actorMemberVersion expectedRoomVersion : Int) :
    List.Forall₂ view.Realizes
      (allowlistGuardTxn roomKey actor actorMemberVersion expectedRoomVersion)
      (allowlistGuardRules roomKey actor.agent actorMemberVersion expectedRoomVersion) :=
  .cons (realizes_roomVersion _) <| .cons (realizes_actor _ _) .nil

end Board.Dynamo

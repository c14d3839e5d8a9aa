import CookbookModel.Board.Dynamo.Item
import CookbookModel.Board.Store

namespace Board.Dynamo

open GoString DynamoDB

def roomPK (roomKey : GoString) : GoString :=
  "ROOM#" ++ roomKey

def agentPK (agent : GoString) : GoString :=
  "AGENT#" ++ agent

def memberSK (agent : GoString) : GoString :=
  "MEMBER#" ++ agent

def nicknameSK (nicknameKey : GoString) : GoString :=
  "NICK#" ++ nicknameKey

def messageSK (messageID : GoString) : GoString :=
  "MSG#" ++ messageID

def idempotencySK (agent idempotencyKey : GoString) : GoString :=
  "IDEMP#" ++ agent ++ "#" ++ idempotencyKey

def putItemTxn (item : DdbItem) (condition : GoString) : TransactWriteItem where
  write     := .put item.marshalMap
  condition := condition

-- The sort key under which a room is listed for a member.
def listingKey (roomKey nowText : GoString) : GoString :=
  "ROOM#" ++ nowText ++ "#" ++ roomKey

def auditItem
    (roomKey eventType actor target : GoString) (role : Role)
    (tokenJTIHash nowText ulid : GoString) : DdbItem where
  PK            := roomPK roomKey
  SK            := "AUDIT#audit_" ++ ulid
  type          := "audit"
  schemaVersion := schemaVersion
  roomKey       := roomKey
  eventType     := eventType
  actor         := actor
  targetAgent   := target
  role          := role
  tokenJTIHash  := tokenJTIHash
  createdAt     := nowText

-- The items that `CreateRoom` writes.
def newRoomItem (roomID roomKey name description owner nowText : GoString) : DdbItem where
  PK            := roomPK roomKey
  SK            := "META"
  type          := "room"
  schemaVersion := schemaVersion
  roomID        := roomID
  roomKey       := roomKey
  name          := name
  description   := description
  owner         := owner
  createdAt     := nowText
  updatedAt     := nowText
  version       := 1
  archived      := false
  memberCount   := 1

-- The membership of an agent that is let into a room.
def newMemberItem
    (roomID roomKey agent : GoString) (role : Role) (capabilities : List Capability)
    (createdBy nowText : GoString) : DdbItem where
  PK            := roomPK roomKey
  SK            := memberSK agent
  type          := "membership"
  schemaVersion := schemaVersion
  roomID        := roomID
  roomKey       := roomKey
  agent         := agent
  role          := role
  capabilities  := capabilities.map (·.text)
  createdBy     := createdBy
  updatedBy     := createdBy
  createdAt     := nowText
  updatedAt     := nowText
  version       := 1
  GSI1PK        := agentPK agent
  GSI1SK        := listingKey roomKey nowText

def quotaTxn (agent : GoString) (maxRoomsPerAgent : Int) (nowText : GoString) :
    TransactWriteItem where
  write     := .update ⟨agentPK agent, "QUOTA"⟩ <|
    ofString "SET #type = :type, schemaVersion = :schemaVersion, " ++
    "roomCount = if_not_exists(roomCount, :zero) + :one, updatedAt = :updatedAt"
  condition := "attribute_not_exists(roomCount) OR roomCount < :maxRooms"
  names     := [("#type", "type")]
  values    := [
    (":type", .S "agent_quota"),
    (":schemaVersion", .N schemaVersion),
    (":zero", .N 0),
    (":one", .N 1),
    (":maxRooms", .N maxRoomsPerAgent),
    (":updatedAt", .S nowText)]

def createRoomTxn (room member audit : DdbItem) (quota : TransactWriteItem) :
    List TransactWriteItem := [
  putItemTxn room "attribute_not_exists(PK)",
  putItemTxn member "attribute_not_exists(PK)",
  putItemTxn audit "attribute_not_exists(PK)",
  quota]

-- The roles with which an actor's transaction goes through.
def actorRoles : Action → List Role
  | .postMessage     => [.owner, .admin, .poster]
  | .updateAllowList => [.owner, .admin]
  | .updateNickname  => [.owner, .admin, .poster, .reader, .connector]
  | _                => [.owner]

-- `fmt.Sprintf(":role%d", i)`
def rolePlaceholder (i : Nat) : GoString :=
  ":role" ++ ofString (toString i)

def actorCondition (action : Action) : GoString :=
  let keys := (List.range (actorRoles action).length).map rolePlaceholder
  "attribute_exists(PK) AND #version = :version AND (" ++
    (ofString " OR ").intercalate (keys.map (ofString "#role = " ++ ·)) ++ ")"

def actorConditionTxn (roomKey agent : GoString) (version : Int) (action : Action) :
    TransactWriteItem where
  write     := .conditionCheck ⟨roomPK roomKey, memberSK agent⟩
  condition := actorCondition action
  names     := [("#version", "version"), ("#role", "role")]
  values    := (":version", .N version) ::
    (actorRoles action).mapIdx fun i role => (rolePlaceholder i, .S role.text)

def roomOpenConditionTxn (roomKey : GoString) : TransactWriteItem where
  write     := .conditionCheck ⟨roomPK roomKey, "META"⟩
  condition := "#archived = :false"
  names     := [("#archived", "archived")]
  values    := [(":false", .BOOL false)]

def roomVersionConditionTxn (roomKey : GoString) (expectedVersion : Int) : TransactWriteItem where
  write     := .conditionCheck ⟨roomPK roomKey, "META"⟩
  condition := "#archived = :false AND #version = :expectedVersion"
  names     := [("#archived", "archived"), ("#version", "version")]
  values    := [(":false", .BOOL false), (":expectedVersion", .N expectedVersion)]

def memberLimitCondition (created : Bool) : GoString :=
  if !created then [] else " AND memberCount < :maxMembers"

-- The update of the room by which `GrantAllowlist` counts its change.
def grantRoomTxn
    (roomKey : GoString) (expectedVersion maxMembersPerRoom : Int) (nowText : GoString)
    (created : Bool) : TransactWriteItem where
  write     := .update ⟨roomPK roomKey, "META"⟩ <|
    ofString "SET #version = #version + :one, updatedAt = :updatedAt" ++
    if created then ofString ", memberCount = memberCount + :one" else []
  condition :=
    ofString "#archived = :false AND #version = :expectedVersion" ++ memberLimitCondition created
  names     := [("#version", "version"), ("#archived", "archived")]
  values    := [
    (":false", .BOOL false),
    (":one", .N 1),
    (":updatedAt", .S nowText),
    (":expectedVersion", .N expectedVersion),
    (":maxMembers", .N maxMembersPerRoom)]

def putOrUpdateMembershipTxn (item : DdbItem) (created : Bool) : TransactWriteItem :=
  if created then
    putItemTxn item "attribute_not_exists(PK)"
  else {
    write     := .update ⟨item.PK, item.SK⟩ <|
      ofString "SET #role = :role, capabilities = :capabilities, updatedBy = :updatedBy, " ++
      "updatedAt = :updatedAt, #version = #version + :one, GSI1PK = :gsi1pk, GSI1SK = :gsi1sk"
    condition := "attribute_exists(PK) AND #role <> :owner"
    names     := [("#role", "role"), ("#version", "version")]
    values    := [
      (":role", .S item.role.text),
      (":capabilities", .L item.capabilities),
      (":updatedBy", .S item.updatedBy),
      (":updatedAt", .S item.updatedAt),
      (":one", .N 1),
      (":owner", .S Role.owner.text),
      (":gsi1pk", .S item.GSI1PK),
      (":gsi1sk", .S item.GSI1SK)]
  }

def grantTxn
    (roomKey : GoString) (actor : Identity) (input : GrantInput) (maxMembersPerRoom : Int)
    (member audit : DdbItem) (nowText : GoString) (created : Bool) : List TransactWriteItem := [
  actorConditionTxn roomKey actor.agent input.actorMemberVersion .updateAllowList,
  grantRoomTxn roomKey input.expectedRoomVersion maxMembersPerRoom nowText created,
  putOrUpdateMembershipTxn member created,
  putItemTxn audit "attribute_not_exists(PK)"]

def revokeMemberCondition (nicknameKey : GoString) : GoString :=
  let condition := ofString "attribute_exists(PK) AND #role <> :owner AND #version = :targetVersion"
  if nicknameKey = [] then condition ++ " AND attribute_not_exists(#nicknameKey)"
  else condition ++ " AND #nicknameKey = :nicknameKey"

def revokeMemberNames : List (GoString × GoString) :=
  [("#role", "role"), ("#version", "version"), ("#nicknameKey", "nicknameKey")]

def revokeMemberValues (member : DdbItem) : List (GoString × AttributeValue) :=
  (":owner", .S Role.owner.text) :: (":targetVersion", .N member.version) ::
    if member.nicknameKey ≠ [] then [(":nicknameKey", .S member.nicknameKey)] else []

-- The update of the room by which `RevokeAllowlist` counts its change.
def revokeRoomTxn (roomKey : GoString) (expectedVersion : Int) (nowText : GoString) :
    TransactWriteItem where
  write     := .update ⟨roomPK roomKey, "META"⟩ <|
    ofString "SET #version = #version + :one, updatedAt = :updatedAt, " ++
    "memberCount = memberCount - :one"
  condition := "#archived = :false AND #version = :expectedVersion"
  names     := [("#version", "version"), ("#archived", "archived")]
  values    := [
    (":false", .BOOL false),
    (":one", .N 1),
    (":updatedAt", .S nowText),
    (":expectedVersion", .N expectedVersion)]

def revokeMemberTxn (roomKey target : GoString) (member : DdbItem) : TransactWriteItem where
  write     := .delete ⟨roomPK roomKey, memberSK target⟩
  condition := revokeMemberCondition member.nicknameKey
  names     := revokeMemberNames
  values    := revokeMemberValues member

def deleteNicknameTxn (roomKey nicknameKey agent : GoString) : TransactWriteItem where
  write     := .delete ⟨roomPK roomKey, nicknameSK nicknameKey⟩
  condition := "#agent = :agent"
  names     := [("#agent", "agent")]
  values    := [(":agent", .S agent)]

def revokeTxn
    (roomKey : GoString) (actor : Identity) (input : RevokeInput) (target : GoString)
    (member audit : DdbItem) (nowText : GoString) : List TransactWriteItem :=
  [actorConditionTxn roomKey actor.agent input.actorMemberVersion .updateAllowList,
    revokeMemberTxn roomKey target member,
    revokeRoomTxn roomKey input.expectedRoomVersion nowText,
    putItemTxn audit "attribute_not_exists(PK)"] ++
  if member.nicknameKey ≠ [] then [deleteNicknameTxn roomKey member.nicknameKey target] else []

def updateNicknameMembershipTxn
    (roomKey agent : GoString) (version : Int) (role : Role)
    (nickname nicknameKey nowText : GoString) : TransactWriteItem where
  write     := .update ⟨roomPK roomKey, memberSK agent⟩ <|
    ofString "SET nickname = :nickname, nicknameKey = :nicknameKey, updatedBy = :updatedBy, " ++
    "updatedAt = :updatedAt, #version = #version + :one"
  condition := "attribute_exists(PK) AND #version = :version AND #role = :role"
  names     := [("#version", "version"), ("#role", "role")]
  values    := [
    (":version", .N version),
    (":nickname", .S nickname),
    (":nicknameKey", .S nicknameKey),
    (":updatedBy", .S agent),
    (":updatedAt", .S nowText),
    (":one", .N 1),
    (":role", .S role.text)]

def nicknameItem (roomID roomKey nickname nicknameKey agent nowText : GoString) : DdbItem where
  PK            := roomPK roomKey
  SK            := nicknameSK nicknameKey
  type          := "nickname"
  schemaVersion := schemaVersion
  roomID        := roomID
  roomKey       := roomKey
  agent         := agent
  nickname      := nickname
  nicknameKey   := nicknameKey
  createdAt     := nowText
  updatedAt     := nowText

def putNicknameTxn (roomID roomKey nickname nicknameKey agent nowText : GoString) :
    TransactWriteItem where
  write     := .put (nicknameItem roomID roomKey nickname nicknameKey agent nowText).marshalMap
  condition := "attribute_not_exists(PK) OR #agent = :agent"
  names     := [("#agent", "agent")]
  values    := [(":agent", .S agent)]

def setNicknameTxn
    (roomID roomKey agent : GoString) (actorMemberVersion : Int) (member : DdbItem)
    (nickname nicknameKey nowText : GoString) : List TransactWriteItem :=
  [roomOpenConditionTxn roomKey,
    updateNicknameMembershipTxn roomKey agent actorMemberVersion member.role nickname nicknameKey
      nowText] ++
  (if member.nicknameKey ≠ [] ∧ member.nicknameKey ≠ nicknameKey then
    [deleteNicknameTxn roomKey member.nicknameKey agent] else []) ++
  if member.nicknameKey ≠ nicknameKey then
    [putNicknameTxn roomID roomKey nickname nicknameKey agent nowText] else []

def messageItem
    (roomID roomKey author : GoString) (input : PostInput) (messageID nowText : GoString) :
    DdbItem where
  PK             := roomPK roomKey
  SK             := messageSK messageID
  type           := "message"
  schemaVersion  := schemaVersion
  roomID         := roomID
  roomKey        := roomKey
  messageID      := messageID
  author         := author
  authorNickname := input.authorNickname
  body           := input.body
  createdAt      := nowText
  idempotencyKey := input.idempotencyKey
  requestHash    := input.requestHash

def idempotencyItem
    (roomKey agent : GoString) (input : PostInput) (messageID nowText : GoString) : DdbItem where
  PK            := roomPK roomKey
  SK            := idempotencySK agent input.idempotencyKey
  type          := "idempotency"
  schemaVersion := schemaVersion
  messageID     := messageID
  requestHash   := input.requestHash
  statusCode    := 201
  createdAt     := nowText

def postTxn (roomKey : GoString) (actor : Identity) (input : PostInput)
    (idempotency message : DdbItem) : List TransactWriteItem := [
  roomOpenConditionTxn roomKey,
  actorConditionTxn roomKey actor.agent input.actorMemberVersion .postMessage,
  putItemTxn idempotency "attribute_not_exists(PK)",
  putItemTxn message "attribute_not_exists(PK)"]

-- The transactions of `guardPostAuthorization` and `guardMembershipAction`, which write nothing.
def membershipGuardTxn (roomKey agent : GoString) (actorMemberVersion : Int) (action : Action) :
    List TransactWriteItem := [
  roomOpenConditionTxn roomKey,
  actorConditionTxn roomKey agent actorMemberVersion action]

def allowlistGuardTxn
    (roomKey : GoString) (actor : Identity) (actorMemberVersion expectedRoomVersion : Int) :
    List TransactWriteItem := [
  roomVersionConditionTxn roomKey expectedRoomVersion,
  actorConditionTxn roomKey actor.agent actorMemberVersion .updateAllowList]

end Board.Dynamo

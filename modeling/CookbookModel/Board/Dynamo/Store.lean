import CookbookModel.Board.Dynamo.Transactions
import CookbookModel.Library.System

namespace Board.Dynamo

open GoString DynamoDB

-- What a method of the store does to its surroundings: `time.Now`, `ulid.Make` and the requests of
-- the DynamoDB client.
inductive Op
  | now
  | ulid
  | getItem (key : Key)
  | transactWriteItems (items : List TransactWriteItem)
  | query (input : QueryInput)

@[reducible]
def Op.Res : Op → Type
  | now                  => Time
  | ulid                 => GoString
  | getItem _            => Except ApiError (Option Item)
  | transactWriteItems _ => Except ApiError Unit
  | query _              => Except ApiError QueryOutput

abbrev StoreM := Program Op Op.Res Err

structure Limits where
  maxRoomsPerAgent  : Int
  maxMembersPerRoom : Int

def perform (o : Op) : StoreM o.Res :=
  Program.perform o

def now : StoreM GoString := do
  return (← perform Op.now).format

def ulid : StoreM GoString :=
  perform Op.ulid

def apiErrorText (code message : GoString) : GoString :=
  "dynamodb " ++ code ++ ": " ++ message

def translateDDBError : ApiError → Err
  | .transactionCanceled _ => .dependency <| apiErrorText "TransactionCanceledException" []
  | .api code message      => .dependency <| apiErrorText code message
  | .other text            => .other text

def transactionCanceledByConditions (reasons : List GoString) : Bool :=
  reasons ≠ [] && reasons.all (· ∈ [[], ofString "None", ofString "ConditionalCheckFailed"])

def translateDDBWriteError : ApiError → Err
  | .transactionCanceled reasons =>
    if transactionCanceledByConditions reasons then .conflict
    else .dependency "dynamodb TransactionCanceledException"
  | .api code message =>
    if code = "ConditionalCheckFailedException" then .conflict
    else .dependency <| apiErrorText code message
  | .other text => .other text

def getItem (pk sk : GoString) : StoreM DdbItem := do
  match ← perform (Op.getItem ⟨pk, sk⟩) with
  | .error e        => throw (translateDDBError e)
  | .ok none        => throw .notFound
  | .ok (some item) => Program.ofExcept (DdbItem.unmarshalMap item)

def transactWriteItems (items : List TransactWriteItem) : StoreM Unit := do
  match ← perform (Op.transactWriteItems items) with
  | .error e => throw (translateDDBWriteError e)
  | .ok ()   => return ()

variable [Platform]

-- `roomKey, _ := validation.RoomKey(roomID)`
def roomKeyOf (roomID : GoString) : GoString :=
  match roomKey roomID with
  | .ok roomKey => roomKey
  | .error _    => []

def createRoom (limits : Limits) (actor : Identity) (input : CreateRoomInput) : StoreM Room := do
  let roomID ← validated (normalizeRoomID input.roomID)
  let roomKey ← validated (roomKey roomID)
  let nowText ← now
  let name := if input.name = [] then roomID else input.name
  let capabilities := (capabilitiesForRole .owner).getD []
  let room := newRoomItem roomID roomKey name input.description actor.agent nowText
  let member := newMemberItem roomID roomKey actor.agent .owner capabilities actor.agent nowText
  let audit := auditItem roomKey "room_created" actor.agent actor.agent .owner input.tokenJTIHash
    nowText (← ulid)
  transactWriteItems <| createRoomTxn room member audit <|
    quotaTxn actor.agent limits.maxRoomsPerAgent nowText
  return roomFromItem room

def getRoomForAgent (roomID agent : GoString) : StoreM AuthSnapshot := do
  let roomID ← validated (normalizeRoomID roomID)
  let roomKey ← validated (roomKey roomID)
  let room ← getItem (roomPK roomKey) "META"
  match ← (getItem (roomPK roomKey) (memberSK agent)).attempt with
  | .error .notFound => return { room := roomFromItem room, membership := none }
  | .error e         => throw e
  | .ok member       =>
    return { room := roomFromItem room, membership := membershipFromItem member }

def guardMembershipAction (roomKey agent : GoString) (actorMemberVersion : Int) (action : Action) :
    StoreM Unit :=
  transactWriteItems <| membershipGuardTxn roomKey agent actorMemberVersion action

def guardPostAuthorization (actor : Identity) (roomKey : GoString) (actorMemberVersion : Int) :
    StoreM Unit :=
  transactWriteItems <| membershipGuardTxn roomKey actor.agent actorMemberVersion .postMessage

def guardAllowlistAuthorization
    (actor : Identity) (roomKey : GoString) (actorMemberVersion expectedRoomVersion : Int) :
    StoreM Unit :=
  transactWriteItems <| allowlistGuardTxn roomKey actor actorMemberVersion expectedRoomVersion

-- The membership that `GrantAllowlist` writes for an agent that it has found to be a member.
def regrantedItem (member existing : DdbItem) : DdbItem :=
  { member with
    nickname    := existing.nickname
    nicknameKey := existing.nicknameKey
    createdBy   := existing.createdBy
    createdAt   := existing.createdAt
    version     := existing.version + 1
  }

def grantAllowlist (limits : Limits) (actor : Identity) (input : GrantInput) :
    StoreM (Membership × Bool) := do
  let roomID ← validated (normalizeRoomID input.roomID)
  let target ← validated (canonicalDNSName input.targetAgent)
  match capabilitiesForRole input.role with
  | none => throw (.validation "invalid role")
  | some capabilities =>
    throwIf (input.role = .owner) (.validation "invalid role")
    let roomKey := roomKeyOf roomID
    let room ← getItem (roomPK roomKey) "META"
    throwIf (target = actor.agent) .denied
    throwIf (target = room.owner) .denied
    let write (existing : Option DdbItem) : StoreM (Membership × Bool) := do
      let nowText ← now
      let member := newMemberItem roomID roomKey target input.role capabilities actor.agent nowText
      let member := existing.elim member (regrantedItem member)
      let audit := auditItem roomKey "allowlist_granted" actor.agent target input.role
        input.tokenJTIHash nowText (← ulid)
      transactWriteItems <|
        grantTxn roomKey actor input limits.maxMembersPerRoom member audit nowText existing.isNone
      return (membershipFromItem member, existing.isNone)
    match ← (getItem (roomPK roomKey) (memberSK target)).attempt with
    | .error .notFound => write none
    | .error e         => throw e
    | .ok existing     =>
      if existing.role = input.role then
        guardAllowlistAuthorization actor roomKey input.actorMemberVersion input.expectedRoomVersion
        return (membershipFromItem existing, false)
      else
        write existing

def revokeAllowlist (actor : Identity) (input : RevokeInput) : StoreM Bool := do
  let roomID ← validated (normalizeRoomID input.roomID)
  let target ← validated (canonicalDNSName input.targetAgent)
  let roomKey := roomKeyOf roomID
  let room ← getItem (roomPK roomKey) "META"
  throwIf (target = actor.agent) .denied
  throwIf (target = room.owner) .denied
  let targetMember ← getItem (roomPK roomKey) (memberSK target)
  let nowText ← now
  let audit := auditItem roomKey "allowlist_revoked" actor.agent target .zero input.tokenJTIHash
    nowText (← ulid)
  transactWriteItems <| revokeTxn roomKey actor input target targetMember audit nowText
  return true

def setNickname (actor : Identity) (input : SetNicknameInput) : StoreM Membership := do
  let roomID ← validated (normalizeRoomID input.roomID)
  let (nickname, nicknameKey) ← validated (nickname input.nickname)
  let roomKey := roomKeyOf roomID
  match ← (getItem (roomPK roomKey) (memberSK actor.agent)).attempt with
  | .error .notFound => throw .denied
  | .error e         => throw e
  | .ok member       =>
    throwIf (!roleCan member.role .updateNickname) .denied
    if member.nickname = nickname ∧ member.nicknameKey = nicknameKey then
      guardMembershipAction roomKey actor.agent input.actorMemberVersion .updateNickname
      return membershipFromItem member
    else
      let nowText ← now
      transactWriteItems <|
        setNicknameTxn roomID roomKey actor.agent input.actorMemberVersion member nickname
          nicknameKey nowText
      return membershipFromItem { member with
        nickname, nicknameKey
        updatedBy := actor.agent
        updatedAt := nowText
        version   := member.version + 1
      }

-- The error which a post that was not carried out ends with.
def classifyPostConditionConflict
    (actor : Identity) (roomKey : GoString) (actorMemberVersion : Int) : StoreM Unit := do
  match ← (getItem (roomPK roomKey) "META").attempt with
  | .error .notFound => throw .denied
  | .error e         => throw e
  | .ok room         =>
    throwIf room.archived .denied
    match ← (getItem (roomPK roomKey) (memberSK actor.agent)).attempt with
    | .error .notFound => throw .denied
    | .error e         => throw e
    | .ok member       =>
      throwIf (actorMemberVersion ≠ 0 ∧ member.version ≠ actorMemberVersion) .conflict
      throwIf (!roleCan member.role .postMessage) .denied
      throw .conflict

def replayPost (actor : Identity) (input : PostInput) (roomKey : GoString) (idem : DdbItem) :
    StoreM PostResult := do
  match ← (guardPostAuthorization actor roomKey input.actorMemberVersion).attempt with
  | .error e =>
    if e = .conflict then
      classifyPostConditionConflict actor roomKey input.actorMemberVersion
    throw e
  | .ok () =>
    throwIf (idem.requestHash ≠ input.requestHash) .idempotencyConflict
    let msg ← getItem (roomPK roomKey) (messageSK idem.messageID)
    return { message := messageFromItem msg, idempotentReplay := true }

def postMessage (actor : Identity) (input : PostInput) : StoreM PostResult := do
  let roomID ← validated (normalizeRoomID input.roomID)
  throwIf (input.idempotencyKey = []) (.validation "idempotency key is required")
  let roomKey := roomKeyOf roomID
  let idemSK := idempotencySK actor.agent input.idempotencyKey
  match ← (getItem (roomPK roomKey) idemSK).attempt with
  | .ok idem         => replayPost actor input roomKey idem
  | .error .notFound => do
    let nowText ← now
    let messageID := "msg_" ++ (← ulid)
    let message := messageItem roomID roomKey actor.agent input messageID nowText
    let idempotency := idempotencyItem roomKey actor.agent input messageID nowText
    match ← (transactWriteItems <| postTxn roomKey actor input idempotency message).attempt with
    | .ok ()           => return { message := messageFromItem message, idempotentReplay := false }
    | .error .conflict =>
      match ← (getItem (roomPK roomKey) idemSK).attempt with
      | .ok idem         => replayPost actor input roomKey idem
      | .error .notFound =>
        classifyPostConditionConflict actor roomKey input.actorMemberVersion
        throw .conflict
      | .error e         => throw e
    | .error e => throw e
  | .error e => throw e

-- A page of messages, with the key that `encodeDDBCursor` makes the next cursor of. `start` is what
-- `decodeDDBCursor` returns for the cursor.
def readMessages (roomID : GoString) (limit : Int) (start : Option Key) (after : GoString) :
    StoreM (List Message × Option Key) := do
  let limit := boundLimit limit defaultMessagesLimit
  let roomID ← validated (normalizeRoomID roomID)
  let roomKey ← validated (roomKey roomID)
  let query : QueryInput :=
    if after ≠ [] then {
      keyCondition      := "PK = :pk AND SK BETWEEN :after AND :end"
      values            := [
        (":pk", .S (roomPK roomKey)), (":after", .S (messageSK after ++ [0])), (":end", .S "MSG$")]
      exclusiveStartKey := start
      limit             := limit.toNat
      scanIndexForward  := true
    } else {
      keyCondition      := "PK = :pk AND SK BETWEEN :start AND :end"
      values            := [
        (":pk", .S (roomPK roomKey)), (":start", .S "MSG#"), (":end", .S "MSG$")]
      exclusiveStartKey := start
      limit             := limit.toNat
      scanIndexForward  := false
    }
  match ← perform (Op.query query) with
  | .error e => throw (translateDDBError e)
  | .ok out  =>
    let items ← Program.ofExcept (out.items.mapM DdbItem.unmarshalMap)
    let messages := items.map messageFromItem
    return (if after = [] then messages.reverse else messages, out.lastEvaluatedKey)

def method (limits : Limits) : Call → StoreM Reply
  | .createRoom actor input      => return .room (← createRoom limits actor input)
  | .getRoomForAgent roomID a    => return .snapshot (← getRoomForAgent roomID a)
  | .grantAllowlist actor input  => do
    let (member, created) ← grantAllowlist limits actor input
    return .granted member created
  | .revokeAllowlist actor input => return .revoked (← revokeAllowlist actor input)
  | .setNickname actor input     => return .membership (← setNickname actor input)
  | .postMessage actor input     => return .posted (← postMessage actor input)

-- How DynamoDB answers a request: it carries the request out and says so, it does not carry it out,
-- or it carries it out while the caller sees an error.
inductive Answer
  | served
  | refused (e : ApiError)
  | lost (e : ApiError)
  deriving DecidableEq

structure Outcome where
  now    : Time
  ulid   : GoString
  answer : Answer

def Answer.read (value : α) : Answer → Except ApiError α
  | served               => .ok value
  | refused e | lost e => .error e

-- One atomic step of a method.
def exec : (o : Op) → Outcome → Table → o.Res × Table
  | .now, w, T         => (w.now, T)
  | .ulid, w, T        => (w.ulid, T)
  | .getItem key, w, T => (w.answer.read T[key]?, T)
  | .query input, w, T => (w.answer.read (T.query input), T)
  | .transactWriteItems items, w, T =>
    match w.answer, T.transactWriteItems items with
    | .refused e, _       => (.error e, T)
    | .served, .ok T'     => (.ok (), T')
    | .served, .error e   => (.error e, T)
    | .lost e, .ok T'     => (.error e, T')
    | .lost e, .error _   => (.error e, T)

-- The transaction that a step carries out, whatever its caller sees.
def committed (o : Op) (w : Outcome) (T : Table) : Option (List TransactWriteItem) :=
  match o, w.answer with
  | .transactWriteItems _, .refused _ => none
  | .transactWriteItems items, _      =>
    match T.transactWriteItems items with
    | .ok _    => some items
    | .error _ => none
  | _, _ => none

-- Any number of calls that run concurrently on one table.
def system (limits : Limits) : System Op Op.Res Err Reply Table Outcome Call where
  init := ∅
  body := method limits
  exec := exec
  may  := fun _ _ _ => true

-- A call that starts and takes its first steps, which DynamoDB serves.
def moves (i : Nat) (c : Call) (steps : Nat) : List (System.Action Outcome Call) :=
  .spawn c :: List.replicate steps (.step i ⟨.zero, [.ofNat i], .served⟩)

end Board.Dynamo

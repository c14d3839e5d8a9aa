import CookbookModel.Board.Dynamo.Store
import CookbookModel.Board.Memory.Reads
import CookbookModel.Library.GoJson

namespace Board.Dynamo

open GoString DynamoDB

-- A query of a secondary index.
structure IndexQueryInput where
  indexName         : GoString
  keyCondition      : GoString
  values            : List (GoString × AttributeValue)
  exclusiveStartKey : Option Item
  limit             : Int
  scanIndexForward  : Bool
  deriving DecidableEq

-- The attributes of the last key come in any order.
structure IndexQueryOutput where
  items            : List Item
  lastEvaluatedKey : List (GoString × AttributeValue)

-- The requests of `ListRooms`: a query and those of `GetRoomForAgent`.
inductive ListOp
  | store (o : Op)
  | query (input : IndexQueryInput)

@[reducible]
def ListOp.Res : ListOp → Type
  | store o => o.Res
  | query _ => Except ApiError IndexQueryOutput

abbrev ListM := Program ListOp ListOp.Res Err

def encodeDDBCursor (key : List (GoString × AttributeValue)) : GoString :=
  if key = [] then []
  else Base64.encode <| GoJson.marshalStrings <| key.filterMap fun
    | (name, .S value) => some (name, value)
    | _                => none

-- A cursor that is empty stands for no key, and one that has not been encoded for an error.
def decodeDDBCursor (cursor : GoString) : Except Err (Option Item) :=
  if cursor = [] then .ok none
  else
    match (Base64.decode cursor).bind GoJson.unmarshalStrings with
    | none        => .error (.validation "invalid cursor")
    | some values => .ok <| some <| values.foldl (fun item f => item.set f.1 (.S f.2)) ∅

def listRoomsQuery (agent : GoString) (limit : Int) (start : Option Item) : IndexQueryInput where
  indexName         := "GSI1"
  keyCondition      := "GSI1PK = :agent"
  values            := [(":agent", .S (agentPK agent))]
  exclusiveStartKey := start
  limit             := limit
  scanIndexForward  := false

def roomSummary (room : Room) (membership : Membership) : RoomSummary where
  roomID       := room.roomID
  name         := room.name
  description  := room.description
  owner        := room.owner
  role         := membership.role
  capabilities := membership.capabilities
  updatedAt    := room.updatedAt

variable [Platform]

def lookup (roomID agent : GoString) : ListM AuthSnapshot :=
  (getRoomForAgent roomID agent).embed .store fun _ => id

-- The loop over the items of a page.
def summaries (agent : GoString) : List Item → ListM (List RoomSummary)
  | [] => return []
  | item :: items => do
    let member ← Program.ofExcept (DdbItem.unmarshalMap item)
    let result ← (lookup member.roomID agent).attempt
    -- The snapshot that comes with an error is the zero value, which has no membership.
    let membership := match result with
      | .ok snapshot => snapshot.membership
      | .error _     => none
    match result, membership with
    | .error .notFound, _ | _, none => summaries agent items
    | .error e, _                   => throw e
    | .ok snapshot, some membership =>
      return roomSummary snapshot.room membership :: (← summaries agent items)

def listRooms (agent : GoString) (limit : Int) (cursor : GoString) : ListM (Page RoomSummary) := do
  let limit := boundLimit limit defaultListLimit
  let start ← Program.ofExcept (decodeDDBCursor cursor)
  match ← Program.perform <| ListOp.query <| listRoomsQuery agent limit start with
  | .error e => throw (translateDDBError e)
  | .ok out  =>
    return { items := ← summaries agent out.items, nextCursor := encodeDDBCursor out.lastEvaluatedKey }

def membersQuery (roomKey : GoString) (limit : Int) (start : Option Key) : QueryInput where
  keyCondition      := "PK = :pk AND begins_with(SK, :memberPrefix)"
  values            := [(":pk", .S (roomPK roomKey)), (":memberPrefix", .S "MEMBER#")]
  exclusiveStartKey := start
  limit             := limit.toNat
  scanIndexForward  := true

-- A page of memberships, with the key that the next cursor is made of.
def listAllowlist (roomID : GoString) (limit : Int) (start : Option Key) :
    StoreM (List Membership × Option Key) := do
  let limit := boundLimit limit defaultListLimit
  let roomID ← validated (normalizeRoomID roomID)
  let roomKey ← validated (roomKey roomID)
  match ← perform (Op.query <| membersQuery roomKey limit start) with
  | .error e => throw (translateDDBError e)
  | .ok out  =>
    let items ← Program.ofExcept (out.items.mapM DdbItem.unmarshalMap)
    return (sortSlice Memory.lessEntry (items.map membershipFromItem), out.lastEvaluatedKey)

end Board.Dynamo

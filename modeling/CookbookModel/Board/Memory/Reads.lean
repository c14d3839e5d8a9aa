import CookbookModel.Board.Memory.Store
import CookbookModel.Library.GoSort

namespace Board

-- What the message board takes from `encoding/json` for its cursors: the offset that
-- `json.Unmarshal` finds in the decoded bytes.
class CursorJson where
  unmarshal : GoString → Option Int

-- Cursors as the store itself writes them.
@[reducible]
def plainCursors : CursorJson where
  unmarshal raw := do
    let rest ← (GoString.ofString "\x7b\"offset\":").isPrefixOf? raw
    let digits ← (GoString.ofString "\x7d").isSuffixOf? rest
    if digits = [] then none else (Time.number 0 digits).map Int.ofNat

-- The calls of the `Store` interface that return pages.
inductive Query
  | listRooms (agent : GoString) (limit : Int) (cursor : GoString)
  | listAllowlist (roomID : GoString) (limit : Int) (cursor : GoString)
  | readMessages (roomID : GoString) (limit : Int) (cursor after : GoString)
  deriving DecidableEq

inductive PageReply
  | rooms (page : Page RoomSummary)
  | allowlist (page : Page Membership)
  | messages (page : Page Message)

def RoomRecord.summary (rec : RoomRecord) (member : Membership) : RoomSummary where
  roomID       := rec.room.roomID
  name         := rec.room.name
  description  := rec.room.description
  owner        := rec.room.owner
  role         := member.role
  capabilities := member.capabilities
  updatedAt    := rec.room.updatedAt

namespace Memory

-- `json.Marshal` of an `offsetCursor`
def encodeOffset (offset : Int) : GoString :=
  Base64.encode <| "\x7b\"offset\":" ++ GoString.ofString (toString offset) ++ "\x7d"

-- `items[low:high]`, which panics unless the bounds are in range.
def slice (items : List α) (low high : Int) : MemoryM (List α) := do
  throwIf (¬(0 ≤ low ∧ low ≤ high ∧ high ≤ items.length)) (.other "slice bounds out of range")
  return (items.take high.toNat).drop low.toNat

def pageSlice (items : List α) (offset limit : Int) : MemoryM (Page α) := do
  if offset > items.length then
    return { items := [], nextCursor := [] }
  else
    let last : Int := if offset + limit > items.length then items.length else offset + limit
    let page ← slice items offset last
    return { items := page, nextCursor := if last < items.length then encodeOffset last else [] }

def lessSummary (a b : RoomSummary) : Bool :=
  if a.updatedAt = b.updatedAt then a.roomID < b.roomID else a.updatedAt.after b.updatedAt

def lessEntry (a b : Membership) : Bool :=
  if a.role = .owner then true
  else if b.role = .owner then false
  else a.agent < b.agent

-- `json.Unmarshal` reads the offsets that `json.Marshal` writes.
class LawfulCursors [CursorJson] : Prop where
  unmarshal_marshal (n : Nat) :
    CursorJson.unmarshal ("\x7b\"offset\":" ++ GoString.ofString (toString (n : Int)) ++ "\x7d") =
      some (n : Int)

variable [CursorJson]

def decodeOffset (cursor : GoString) : Option Int :=
  if cursor = [] then some 0
  else do
    let raw ← Base64.decode cursor
    let offset ← CursorJson.unmarshal raw
    if offset < 0 then none else some offset

-- A cursor that is no offset is a validation error.
def offsetOf (cursor : GoString) : MemoryM Int :=
  match decodeOffset cursor with
  | none        => throw (.validation "invalid cursor")
  | some offset => return offset

def listRooms (agent : GoString) (limit : Int) (cursor : GoString) :
    MemoryM (Page RoomSummary) := do
  let limit := boundLimit limit defaultListLimit
  let offset ← offsetOf cursor
  let s ← get
  let summaries := s.rooms.values.filterMap fun (rec : RoomRecord) =>
    rec.members[agent]?.map rec.summary
  pageSlice (sortSlice lessSummary summaries) offset limit

variable [Platform]

def listAllowlist (roomID : GoString) (limit : Int) (cursor : GoString) :
    MemoryM (Page Membership) := do
  let limit := boundLimit limit defaultListLimit
  let offset ← offsetOf cursor
  let roomID ← validated (normalizeRoomID roomID)
  let (_, rec) ← recordByRoomIDLocked roomID
  pageSlice (sortSlice lessEntry rec.members.values) offset limit

def readMessages (roomID : GoString) (limit : Int) (cursor after : GoString) :
    MemoryM (Page Message) := do
  let limit := boundLimit limit defaultMessagesLimit
  let offset ← offsetOf cursor
  let roomID ← validated (normalizeRoomID roomID)
  let (_, rec) ← recordByRoomIDLocked roomID
  if after ≠ [] then
    let start : Int := if cursor = [] then
      search rec.messages.length fun i => rec.messages[i]?.any fun msg => msg.messageID > after
    else
      offset
    pageSlice rec.messages start limit
  else
    let last : Int :=
      if cursor = [] ∨ offset > rec.messages.length then rec.messages.length else offset
    let start := if last - limit < 0 then 0 else last - limit
    let page ← slice rec.messages start last
    return { items := page, nextCursor := if start > 0 then encodeOffset start else [] }

def pages : Query → MemoryM PageReply
  | .listRooms agent limit cursor           => return .rooms (← listRooms agent limit cursor)
  | .listAllowlist roomID limit cursor      =>
    return .allowlist (← listAllowlist roomID limit cursor)
  | .readMessages roomID limit cursor after =>
    return .messages (← readMessages roomID limit cursor after)

-- An operation of the store.
inductive Operation
  | call (c : Call)
  | query (q : Query)

inductive Answer
  | reply (reply : Reply)
  | page (page : PageReply)

def operate (w : Stamp) : Operation → MemoryM Answer
  | .call c  => return .reply (← method w c)
  | .query q => return .page (← pages q)

def perform (o : Operation) (w : Stamp) : MemoryStore → Except Err Answer × MemoryStore :=
  atomically (operate w o)

end Memory
end Board

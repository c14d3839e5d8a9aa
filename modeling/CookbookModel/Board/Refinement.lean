import CookbookModel.Board.Dynamo.Contents
import CookbookModel.Board.Dynamo.Store
import CookbookModel.Board.Memory.Store

namespace Board

-- What there is to a room, whichever store keeps it. A room that does not exist has nothing.
structure RoomState where
  room        : Option Room
  members     : GoString → Option Membership
  nicknames   : GoString → Option GoString
  messages    : List Message
  idempotency : GoString → Option IdempotencyRecord
  audits      : Multiset AuditRecord

def MemoryStore.record (s : MemoryStore) (roomID : GoString) : Option RoomRecord :=
  s.roomKeys[roomID]?.bind fun key => s.rooms[key]?

def MemoryStore.roomState (s : MemoryStore) (roomID : GoString) : RoomState where
  room              := (s.record roomID).map (·.room)
  members agent     := (s.record roomID).bind (·.members[agent]?)
  nicknames key     := (s.record roomID).bind (·.nicknames[key]?)
  messages          := (s.record roomID).elim [] (·.messages)
  idempotency entry := (s.record roomID).bind (·.idempotency[entry]?)
  audits            := (s.record roomID).elim 0 (·.audits)

namespace Dynamo

open GoString DynamoDB

def idempotencyFromItem (item : DdbItem) : IdempotencyRecord where
  requestHash := item.requestHash
  messageID   := item.messageID

def auditFromItem (item : DdbItem) : AuditRecord where
  eventType    := item.eventType
  actor        := item.actor
  targetAgent  := item.targetAgent
  role         := item.role
  tokenJTIHash := item.tokenJTIHash
  createdAt    := parseTime item.createdAt

def itemAt (T : Table) (key : Key) : Option DdbItem :=
  T[key]?.bind fun item => (DdbItem.unmarshalMap item).toOption

-- The keys of a room's items whose sort keys start in the same way.
def keysUnder (T : Table) (roomKey start : GoString) : Finset Key :=
  T.keys.filter fun key => key.pk = roomPK roomKey ∧ start.isPrefixOf key.sk

-- The messages are in the order of their sort keys.
def roomState (T : Table) (roomID : GoString) : RoomState where
  room              := (stored T <| .room <| Base64.encode roomID).map roomFromItem
  members agent     := (stored T <| .member (Base64.encode roomID) agent).map membershipFromItem
  nicknames key     := (stored T <| .nickname (Base64.encode roomID) key).map (·.agent)
  messages          :=
    let sks := (keysUnder T (Base64.encode roomID) "MSG#").image (·.sk)
    (sks.sort (· ≤ ·)).filterMap fun sk =>
      (itemAt T ⟨roomPK <| Base64.encode roomID, sk⟩).map messageFromItem
  idempotency entry :=
    (stored T <| .idempotency (Base64.encode roomID) entry).map idempotencyFromItem
  audits            := (keysUnder T (Base64.encode roomID) "AUDIT#").val.filterMap fun key =>
    (itemAt T key).map auditFromItem

variable [Platform]

-- An operation of a call that has the table for itself. DynamoDB serves every request.
def served (w : Memory.Stamp) (o : Op) (T : Table) : o.Res × Table :=
  exec o ⟨w.now, w.ulid, .served⟩ T

-- A call that runs from its start to its end before any other request is made.
def alone (limits : Limits) (c : Call) (w : Memory.Stamp) (T : Table) : Except Err Reply × Table :=
  (method limits c).run (served w) T

end Dynamo

variable [Platform]

-- The callers of a store are canonical agents, and they name the versions that they have seen.
def Call.Proper : Call → Prop
  | .createRoom actor _         => canonicalDNSName actor.agent = .ok actor.agent
  | .getRoomForAgent ..         => True
  | .grantAllowlist actor input =>
    canonicalDNSName actor.agent = .ok actor.agent ∧
    input.actorMemberVersion ≠ 0 ∧ input.expectedRoomVersion ≠ 0
  | .revokeAllowlist actor input =>
    canonicalDNSName actor.agent = .ok actor.agent ∧
    input.actorMemberVersion ≠ 0 ∧ input.expectedRoomVersion ≠ 0
  | .setNickname actor input    =>
    canonicalDNSName actor.agent = .ok actor.agent ∧ input.actorMemberVersion ≠ 0
  | .postMessage actor input    =>
    canonicalDNSName actor.agent = .ok actor.agent ∧ input.actorMemberVersion ≠ 0

instance : DecidablePred Call.Proper
  | .createRoom ..      => inferInstanceAs (Decidable (_ = _))
  | .getRoomForAgent .. => inferInstanceAs (Decidable True)
  | .grantAllowlist ..  => inferInstanceAs (Decidable (_ ∧ _ ∧ _))
  | .revokeAllowlist .. => inferInstanceAs (Decidable (_ ∧ _ ∧ _))
  | .setNickname ..     => inferInstanceAs (Decidable (_ ∧ _))
  | .postMessage ..     => inferInstanceAs (Decidable (_ ∧ _))

-- The same calls on both stores, with the same clock and the same ids.
def sideBySide (limits : Dynamo.Limits) (c : Call) (w : Memory.Stamp)
    (stores : MemoryStore × DynamoDB.Table) :
    (Except Err Reply × Except Err Reply) × MemoryStore × DynamoDB.Table :=
  let memory := Memory.exec c w stores.1
  let dynamo := Dynamo.alone limits c w stores.2
  ((memory.1, dynamo.1), memory.2, dynamo.2)

end Board

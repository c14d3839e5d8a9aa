import CookbookModel.Board.Store
import CookbookModel.Library.Control
import CookbookModel.Library.GoMap
import Mathlib.Data.List.Sort

namespace Board

structure IdempotencyRecord where
  requestHash : GoString
  messageID   : GoString
  deriving DecidableEq

structure AuditRecord where
  eventType    : GoString
  actor        : GoString
  targetAgent  : GoString
  role         : Role
  tokenJTIHash : GoString
  createdAt    : Time
  deriving DecidableEq

structure RoomRecord where
  room        : Room
  members     : GoMap GoString Membership
  nicknames   : GoMap GoString GoString
  messages    : List Message
  idempotency : GoMap GoString IdempotencyRecord
  audits      : List AuditRecord
  deriving DecidableEq

-- Versions and counts are `int64` in the source. They start at 0 or 1 and go up by one a call, so
-- they are modelled as integers.
structure MemoryStore where
  rooms             : GoMap GoString RoomRecord
  roomKeys          : GoMap GoString GoString
  quotas            : GoMap GoString Int
  maxRoomsPerAgent  : Int
  maxMembersPerRoom : Int
  deriving DecidableEq

namespace RoomRecord

def newRoom (roomID roomKey name description owner : GoString) (now : Time) : Room where
  roomID      := roomID
  roomKey     := roomKey
  name        := name
  description := description
  owner       := owner
  createdAt   := now
  updatedAt   := now
  version     := 1
  archived    := false
  memberCount := 1

def newOwner
    (roomID roomKey agent : GoString) (capabilities : List Capability) (now : Time) :
    Membership where
  roomID       := roomID
  roomKey      := roomKey
  agent        := agent
  nickname     := []
  nicknameKey  := []
  role         := .owner
  capabilities := capabilities
  createdBy    := agent
  updatedBy    := agent
  createdAt    := now
  updatedAt    := now
  version      := 1

def create (room : Room) (owner : Membership) (tokenJTIHash : GoString) (now : Time) :
    RoomRecord where
  room        := room
  members     := GoMap.set ∅ owner.agent owner
  nicknames   := ∅
  messages    := []
  idempotency := ∅
  audits      := [{
    eventType    := "room_created"
    actor        := owner.agent
    targetAgent  := owner.agent
    role         := .owner
    tokenJTIHash := tokenJTIHash
    createdAt    := now
  }]

-- The membership that a grant gives to an agent that is not yet a member.
def newMember
    (rec : RoomRecord) (actor target : GoString) (role : Role) (capabilities : List Capability)
    (now : Time) : Membership where
  roomID       := rec.room.roomID
  roomKey      := rec.room.roomKey
  agent        := target
  nickname     := []
  nicknameKey  := []
  role         := role
  capabilities := capabilities
  createdBy    := actor
  updatedBy    := actor
  createdAt    := now
  updatedAt    := now
  version      := 1

-- The membership that a grant gives to a member with another role.
def changedMember
    (rec : RoomRecord) (existing : Membership) (actor target : GoString) (role : Role)
    (capabilities : List Capability) (now : Time) : Membership where
  roomID       := rec.room.roomID
  roomKey      := rec.room.roomKey
  agent        := target
  nickname     := existing.nickname
  nicknameKey  := existing.nicknameKey
  role         := role
  capabilities := capabilities
  createdBy    := existing.createdBy
  updatedBy    := actor
  createdAt    := existing.createdAt
  updatedAt    := now
  version      := existing.version + 1

def grant
    (rec : RoomRecord) (actor target : GoString) (member : Membership) (created : Bool)
    (tokenJTIHash : GoString) (now : Time) : RoomRecord :=
  { rec with
    room := { rec.room with
      memberCount := if created then rec.room.memberCount + 1 else rec.room.memberCount
      version     := rec.room.version + 1
      updatedAt   := now
    }
    members := rec.members.set target member
    audits := rec.audits ++ [{
      eventType    := "allowlist_granted"
      actor        := actor
      targetAgent  := target
      role         := member.role
      tokenJTIHash := tokenJTIHash
      createdAt    := now
    }]
  }

def revoke
    (rec : RoomRecord) (actor target : GoString) (member : Membership) (tokenJTIHash : GoString)
    (now : Time) : RoomRecord :=
  { rec with
    nicknames :=
      if member.nicknameKey ≠ [] then rec.nicknames.delete member.nicknameKey else rec.nicknames
    members := rec.members.delete target
    room := { rec.room with
      memberCount := rec.room.memberCount - 1
      version     := rec.room.version + 1
      updatedAt   := now
    }
    audits := rec.audits ++ [{
      eventType    := "allowlist_revoked"
      actor        := actor
      targetAgent  := target
      role         := .zero
      tokenJTIHash := tokenJTIHash
      createdAt    := now
    }]
  }

-- The membership of a member that changes its nickname.
def renamedMember
    (member : Membership) (actor nickname nicknameKey : GoString) (now : Time) : Membership :=
  { member with
    nickname, nicknameKey
    updatedBy := actor
    updatedAt := now
    version   := member.version + 1
  }

def rename
    (rec : RoomRecord) (actor : GoString) (member : Membership) (nickname nicknameKey : GoString)
    (now : Time) : RoomRecord :=
  let released :=
    if member.nicknameKey ≠ [] ∧ member.nicknameKey ≠ nicknameKey then
      rec.nicknames.delete member.nicknameKey
    else
      rec.nicknames
  { rec with
    nicknames := released.set nicknameKey actor
    members   := rec.members.set actor (renamedMember member actor nickname nicknameKey now)
  }

def newMessage
    (rec : RoomRecord) (actor : GoString) (input : PostInput) (now : Time) (ulid : GoString) :
    Message where
  roomID         := rec.room.roomID
  roomKey        := rec.room.roomKey
  messageID      := "msg_" ++ ulid
  author         := actor
  authorNickname := input.authorNickname
  body           := input.body
  createdAt      := now
  idempotencyKey := input.idempotencyKey
  requestHash    := input.requestHash

-- `sort.Slice` by message id. Go compares strings bytewise.
def sortMessages (messages : List Message) : List Message :=
  messages.insertionSort (·.messageID ≤ ·.messageID)

def post (rec : RoomRecord) (idempotencyKey : GoString) (message : Message) : RoomRecord :=
  { rec with
    messages    := sortMessages (rec.messages ++ [message])
    idempotency := rec.idempotency.set idempotencyKey
      { requestHash := message.requestHash, messageID := message.messageID }
  }

end RoomRecord

namespace MemoryStore

-- `NewMemoryStore` with its limits as parameters. The source sets 50 and 100.
def new (maxRoomsPerAgent maxMembersPerRoom : Int) : MemoryStore where
  rooms             := ∅
  roomKeys          := ∅
  quotas            := ∅
  maxRoomsPerAgent  := maxRoomsPerAgent
  maxMembersPerRoom := maxMembersPerRoom

def quota (s : MemoryStore) (agent : GoString) : Int :=
  s.quotas[agent]?.getD 0

def addRoom (s : MemoryStore) (roomID roomKey agent : GoString) (rec : RoomRecord) : MemoryStore :=
  { s with
    roomKeys := s.roomKeys.set roomID roomKey
    rooms    := s.rooms.set roomKey rec
    quotas   := s.quotas.set agent (s.quota agent + 1)
  }

def putRecord (s : MemoryStore) (roomKey : GoString) (rec : RoomRecord) : MemoryStore :=
  { s with rooms := s.rooms.set roomKey rec }

end MemoryStore

-- The methods of the memory store run under its mutex. Like in the source, an error does not undo
-- what the method has changed before.
abbrev MemoryM := EStateM Err MemoryStore

namespace Memory

open RoomRecord

variable [Platform]

-- `recordByRoomIDLocked`, with the key under which the record is stored
def recordByRoomIDLocked (roomID : GoString) : MemoryM (GoString × RoomRecord) := do
  let s ← get
  match s.roomKeys[roomID]? with
  | none => throw .notFound
  | some roomKey =>
    match s.rooms[roomKey]? with
    | none     => throw .notFound
    | some rec => return (roomKey, rec)

def checkActorLocked
    (rec : RoomRecord) (agent : GoString) (expectedVersion : Int) (action : Action) :
    MemoryM Unit := do
  match rec.members[agent]? with
  | none => throw .denied
  | some member =>
    throwIf (expectedVersion ≠ 0 ∧ member.version ≠ expectedVersion) .conflict
    throwIf (!roleCan member.role action) .denied

def createRoom (actor : Identity) (input : CreateRoomInput) (now : Time) : MemoryM Room := do
  let roomID ← validated (normalizeRoomID input.roomID)
  let roomKey ← validated (roomKey roomID)
  let name := if input.name = [] then roomID else input.name
  let capabilities := (capabilitiesForRole .owner).getD []
  let s ← get
  throwIf s.roomKeys[roomID]?.isSome .conflict
  throwIf (s.quota actor.agent ≥ s.maxRoomsPerAgent) (.validation "room quota exceeded")
  let room := newRoom roomID roomKey name input.description actor.agent now
  let owner := newOwner roomID roomKey actor.agent capabilities now
  set <| s.addRoom roomID roomKey actor.agent (.create room owner input.tokenJTIHash now)
  return room

def getRoomForAgent (roomID agent : GoString) : MemoryM AuthSnapshot := do
  let roomID ← validated (normalizeRoomID roomID)
  let (_, rec) ← recordByRoomIDLocked roomID
  return { room := rec.room, membership := rec.members[agent]? }

def grantAllowlist (actor : Identity) (input : GrantInput) (now : Time) :
    MemoryM (Membership × Bool) := do
  let roomID ← validated (normalizeRoomID input.roomID)
  let target ← validated (canonicalDNSName input.targetAgent)
  match capabilitiesForRole input.role with
  | none => throw (.validation "invalid role")
  | some capabilities =>
    throwIf (input.role = .owner) (.validation "invalid role")
    let (roomKey, rec) ← recordByRoomIDLocked roomID
    throwIf (rec.room.archived ∨ rec.room.version ≠ input.expectedRoomVersion) .conflict
    throwIf (target = actor.agent) .denied
    throwIf (target = rec.room.owner) .denied
    checkActorLocked rec actor.agent input.actorMemberVersion .updateAllowList
    let s ← get
    match rec.members[target]? with
    | none =>
      throwIf (rec.room.memberCount ≥ s.maxMembersPerRoom) (.validation "member quota exceeded")
      let member := rec.newMember actor.agent target input.role capabilities now
      set <| s.putRecord roomKey <|
        rec.grant actor.agent target member true input.tokenJTIHash now
      return (member, true)
    | some existing =>
      if existing.role = input.role then
        return (existing, false)
      else
        throwIf (existing.role = .owner) .denied
        let member := rec.changedMember existing actor.agent target input.role capabilities now
        set <| s.putRecord roomKey <|
          rec.grant actor.agent target member false input.tokenJTIHash now
        return (member, false)

def revokeAllowlist (actor : Identity) (input : RevokeInput) (now : Time) : MemoryM Bool := do
  let roomID ← validated (normalizeRoomID input.roomID)
  let target ← validated (canonicalDNSName input.targetAgent)
  let (roomKey, rec) ← recordByRoomIDLocked roomID
  throwIf (rec.room.archived ∨ rec.room.version ≠ input.expectedRoomVersion) .conflict
  throwIf (target = actor.agent) .denied
  throwIf (target = rec.room.owner) .denied
  checkActorLocked rec actor.agent input.actorMemberVersion .updateAllowList
  match rec.members[target]? with
  | none => throw .notFound
  | some member =>
    throwIf (member.role = .owner) .denied
    modify (·.putRecord roomKey (rec.revoke actor.agent target member input.tokenJTIHash now))
    return true

def setNickname (actor : Identity) (input : SetNicknameInput) (now : Time) :
    MemoryM Membership := do
  let roomID ← validated (normalizeRoomID input.roomID)
  let (nickname, nicknameKey) ← validated (nickname input.nickname)
  let (roomKey, rec) ← recordByRoomIDLocked roomID
  throwIf rec.room.archived .denied
  match rec.members[actor.agent]? with
  | none => throw .denied
  | some member =>
    throwIf (input.actorMemberVersion ≠ 0 ∧ member.version ≠ input.actorMemberVersion) .conflict
    throwIf (!roleCan member.role .updateNickname) .denied
    throwIf (rec.nicknames[nicknameKey]?.any (· ≠ actor.agent)) .conflict
    if member.nickname = nickname ∧ member.nicknameKey = nicknameKey then
      return member
    else
      modify (·.putRecord roomKey (rec.rename actor.agent member nickname nicknameKey now))
      return renamedMember member actor.agent nickname nicknameKey now

def postMessage (actor : Identity) (input : PostInput) (now : Time) (ulid : GoString) :
    MemoryM PostResult := do
  let roomID ← validated (normalizeRoomID input.roomID)
  throwIf (input.idempotencyKey = []) (.validation "idempotency key is required")
  let (roomKey, rec) ← recordByRoomIDLocked roomID
  throwIf rec.room.archived .denied
  checkActorLocked rec actor.agent input.actorMemberVersion .postMessage
  let idempotencyKey := actor.agent ++ "#" ++ input.idempotencyKey
  match rec.idempotency[idempotencyKey]? with
  | some idem =>
    throwIf (idem.requestHash ≠ input.requestHash) .idempotencyConflict
    match rec.messages.find? (·.messageID = idem.messageID) with
    | some msg => return { message := msg, idempotentReplay := true }
    | none     => throw .conflict
  | none =>
    let message := rec.newMessage actor.agent input now ulid
    modify (·.putRecord roomKey (rec.post idempotencyKey message))
    return { message, idempotentReplay := false }

-- What a call reads from outside the store: the clock and the id that `ulid.Make` returns.
structure Stamp where
  now  : Time
  ulid : GoString

def method (w : Stamp) : Call → MemoryM Reply
  | .createRoom actor input      => return .room (← createRoom actor input w.now)
  | .getRoomForAgent roomID a    => return .snapshot (← getRoomForAgent roomID a)
  | .grantAllowlist actor input  => do
    let (member, created) ← grantAllowlist actor input w.now
    return .granted member created
  | .revokeAllowlist actor input => return .revoked (← revokeAllowlist actor input w.now)
  | .setNickname actor input     => return .membership (← setNickname actor input w.now)
  | .postMessage actor input     => return .posted (← postMessage actor input w.now w.ulid)

-- A method as one atomic step of the store.
def atomically (x : MemoryM α) (s : MemoryStore) : Except Err α × MemoryStore :=
  match x.run s with
  | .ok a s'    => (.ok a, s')
  | .error e s' => (.error e, s')

def exec (c : Call) (w : Stamp) : MemoryStore → Except Err Reply × MemoryStore :=
  atomically (method w c)

end Memory
end Board

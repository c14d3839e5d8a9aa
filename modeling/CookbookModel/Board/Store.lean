import CookbookModel.Board.Validation

namespace Board

structure CreateRoomInput where
  roomID       : GoString
  name         : GoString
  description  : GoString
  tokenJTIHash : GoString
  deriving DecidableEq

structure GrantInput where
  roomID              : GoString
  targetAgent         : GoString
  role                : Role
  tokenJTIHash        : GoString
  actorMemberVersion  : Int
  expectedRoomVersion : Int
  deriving DecidableEq

structure RevokeInput where
  roomID              : GoString
  targetAgent         : GoString
  tokenJTIHash        : GoString
  actorMemberVersion  : Int
  expectedRoomVersion : Int
  deriving DecidableEq

structure PostInput where
  roomID             : GoString
  body               : GoString
  authorNickname     : GoString
  idempotencyKey     : GoString
  requestHash        : GoString
  actorMemberVersion : Int
  deriving DecidableEq

structure SetNicknameInput where
  roomID             : GoString
  nickname           : GoString
  actorMemberVersion : Int
  deriving DecidableEq

-- The calls of the `Store` interface that return or change a single room.
inductive Call
  | createRoom (actor : Identity) (input : CreateRoomInput)
  | getRoomForAgent (roomID agent : GoString)
  | grantAllowlist (actor : Identity) (input : GrantInput)
  | revokeAllowlist (actor : Identity) (input : RevokeInput)
  | setNickname (actor : Identity) (input : SetNicknameInput)
  | postMessage (actor : Identity) (input : PostInput)
  deriving DecidableEq

inductive Reply
  | room (room : Room)
  | snapshot (snapshot : AuthSnapshot)
  | granted (membership : Membership) (created : Bool)
  | revoked (removed : Bool)
  | membership (membership : Membership)
  | posted (result : PostResult)
  deriving DecidableEq

def Call.roomID : Call → GoString
  | .createRoom _ input      => input.roomID
  | .getRoomForAgent roomID _ => roomID
  | .grantAllowlist _ input  => input.roomID
  | .revokeAllowlist _ input => input.roomID
  | .setNickname _ input     => input.roomID
  | .postMessage _ input     => input.roomID

-- The identity on whose behalf a call is made, if it changes anything.
def Call.actor? : Call → Option Identity
  | .getRoomForAgent .. => none
  | .createRoom actor _ | .grantAllowlist actor _ | .revokeAllowlist actor _ | .setNickname actor _
  | .postMessage actor _ => some actor

-- A room, its owner and a member, and the calls they make.
namespace Sample

def alice : Identity where
  agent := "alice.example"

def bob : Identity where
  agent := "bob.example"

def create : Call :=
  .createRoom alice { roomID := "lobby", name := [], description := [], tokenJTIHash := [] }

def grant (role : Role) (roomVersion : Int) : Call :=
  .grantAllowlist alice {
    roomID              := "lobby"
    targetAgent         := bob.agent
    role                := role
    tokenJTIHash        := []
    actorMemberVersion  := 1
    expectedRoomVersion := roomVersion
  }

def revoke (roomVersion : Int) : Call :=
  .revokeAllowlist alice {
    roomID              := "lobby"
    targetAgent         := bob.agent
    tokenJTIHash        := []
    actorMemberVersion  := 1
    expectedRoomVersion := roomVersion
  }

def rename (actor : Identity) (nickname : GoString) (memberVersion : Int) : Call :=
  .setNickname actor { roomID := "lobby", nickname, actorMemberVersion := memberVersion }

def message (key : GoString) (memberVersion : Int) : PostInput where
  roomID             := "lobby"
  body               := "hello"
  authorNickname     := []
  idempotencyKey     := key
  requestHash        := "hash"
  actorMemberVersion := memberVersion

def post (actor : Identity) (key : GoString) (memberVersion : Int) : Call :=
  .postMessage actor (message key memberVersion)

end Sample
end Board

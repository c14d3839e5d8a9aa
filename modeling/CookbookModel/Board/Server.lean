import CookbookModel.Board.Authorization
import CookbookModel.Board.Memory.Store
import CookbookModel.Library.System

namespace Board.Server

open GoString

-- The steps of a request: the methods of the store and the authorizer's decision.
inductive Op
  | authorize (identity : Identity) (action : Action) (snapshot : AuthSnapshot)
      (authContext : AuthContext)
  | createRoom (actor : Identity) (input : CreateRoomInput)
  | getRoomForAgent (roomID agent : GoString)
  | grantAllowlist (actor : Identity) (input : GrantInput)
  | revokeAllowlist (actor : Identity) (input : RevokeInput)
  | setNickname (actor : Identity) (input : SetNicknameInput)
  | postMessage (actor : Identity) (input : PostInput)

namespace Op

@[reducible]
def Value : Op → Type
  | authorize ..       => Unit
  | createRoom ..      => Room
  | getRoomForAgent .. => AuthSnapshot
  | grantAllowlist ..  => Membership × Bool
  | revokeAllowlist .. => Bool
  | setNickname ..     => Membership
  | postMessage ..     => PostResult

@[reducible]
def Res (o : Op) : Type :=
  Except Err o.Value

end Op

abbrev Handler := Program Op Op.Res Err

def invoke (o : Op) : Handler o.Value :=
  .call o .done

structure RoomBody where
  roomID      : GoString
  name        : GoString
  description : GoString
  deriving DecidableEq

-- The JSON object of a post: the names of its fields and the string in its field `body`, if there
-- is one.
structure MessageBody where
  fields : List GoString
  body   : Option GoString
  deriving DecidableEq

-- A request that has been authenticated and routed. `body` is what `decodeJSON` returns for its
-- body: a value or an error.
inductive Request
  | createRoom (identity : Identity) (body : Except Err RoomBody)
  | postMessage (identity : Identity) (roomID idempotencyKey : GoString)
      (body : Except Err MessageBody)
  | setNickname (identity : Identity) (roomID : GoString) (body : Except Err GoString)
  | grantAllowlist (identity : Identity) (roomID agent : GoString) (body : Except Err GoString)
  | revokeAllowlist (identity : Identity) (roomID agent : GoString)

inductive Response
  | room (room : Room)
  | posted (result : PostResult)
  | profile (member : Membership)
  | granted (entry : Membership) (created : Bool)
  | revoked (removed : Bool)

variable [Platform]

def containsIdentityField (fields : List GoString) : Bool :=
  fields.any fun key => toLower key ∈ [ofString "agent", "sub", "dnsid", "x-dnsid-sub",
    "accountable_entity", "nickname", "author_nickname", "display_name"]

def requestHash (body : GoString) : GoString :=
  "sha256:" ++ Base64.encode (Platform.sum256 body)

def createRoom (identity : Identity) (body : Except Err RoomBody) : Handler Room := do
  invoke <| .authorize identity .createRoom
    ⟨⟨[], [], [], [], [], .zero, .zero, 0, false, 0⟩, none⟩ {}
  let input ← Program.ofExcept body
  invoke <| .createRoom identity {
    roomID       := input.roomID
    name         := input.name
    description  := input.description
    tokenJTIHash := identity.tokenJTIHash
  }

-- The version of the membership that a snapshot holds, 0 if it holds none.
def actorVersion (snapshot : AuthSnapshot) : Int :=
  (snapshot.membership.map (·.version)).getD 0

def authorNickname (snapshot : AuthSnapshot) : GoString :=
  (snapshot.membership.map (·.nickname)).getD []

def postMessage (identity : Identity) (roomID idempotencyKey : GoString)
    (body : Except Err MessageBody) : Handler PostResult := do
  let idempotencyKey := trimSpace idempotencyKey
  throwIf (idempotencyKey = []) (.validation "Idempotency-Key is required")
  let raw ← Program.ofExcept body
  throwIf (containsIdentityField raw.fields)
    (.validation "identity fields are not accepted in message bodies")
  let body ← Program.ofExcept (raw.body.elim (throw (.validation "body is required")) pure)
  let body ← validated (messageBody body)
  let snapshot ← invoke <| .getRoomForAgent roomID identity.agent
  invoke <| .authorize identity .postMessage snapshot {}
  invoke <| .postMessage identity {
    roomID
    body
    authorNickname     := authorNickname snapshot
    idempotencyKey
    requestHash        := requestHash body
    actorMemberVersion := actorVersion snapshot
  }

def setNickname (identity : Identity) (roomID : GoString) (body : Except Err GoString) :
    Handler Membership := do
  let nickname ← Program.ofExcept body
  let snapshot ← invoke <| .getRoomForAgent roomID identity.agent
  invoke <| .authorize identity .updateNickname snapshot {}
  invoke <| .setNickname identity {
    roomID
    nickname
    actorMemberVersion := actorVersion snapshot
  }

def grantAllowlist (identity : Identity) (roomID agent : GoString) (body : Except Err GoString) :
    Handler (Membership × Bool) := do
  let target ← validated (canonicalDNSName agent)
  let input ← Program.ofExcept body
  let role ← Program.ofExcept <| (mutableRole input).elim
    (throw (.validation "role must be admin, poster, reader, or connector")) pure
  let snapshot ← invoke <| .getRoomForAgent roomID identity.agent
  let authContext := { operation := "grant", targetAgent := target, newRole := role }
  invoke <| .authorize identity .updateAllowList snapshot authContext
  invoke <| .grantAllowlist identity {
    roomID
    targetAgent         := target
    role
    tokenJTIHash        := identity.tokenJTIHash
    actorMemberVersion  := actorVersion snapshot
    expectedRoomVersion := snapshot.room.version
  }

def revokeAllowlist (identity : Identity) (roomID agent : GoString) : Handler Bool := do
  let target ← validated (canonicalDNSName agent)
  let snapshot ← invoke <| .getRoomForAgent roomID identity.agent
  let authContext := { operation := "remove", targetAgent := target }
  invoke <| .authorize identity .updateAllowList snapshot authContext
  invoke <| .revokeAllowlist identity {
    roomID
    targetAgent         := target
    tokenJTIHash        := identity.tokenJTIHash
    actorMemberVersion  := actorVersion snapshot
    expectedRoomVersion := snapshot.room.version
  }

def handle : Request → Handler Response
  | .createRoom identity body => return .room (← createRoom identity body)
  | .postMessage identity roomID key body => return .posted (← postMessage identity roomID key body)
  | .setNickname identity roomID body => return .profile (← setNickname identity roomID body)
  | .grantAllowlist identity roomID agent body => do
    let result ← grantAllowlist identity roomID agent body
    return .granted result.1 result.2
  | .revokeAllowlist identity roomID agent => return .revoked (← revokeAllowlist identity roomID agent)

-- A step of a request. The server runs a memory store with the local authorizer.
def exec : (o : Op) → Memory.Stamp → MemoryStore → o.Res × MemoryStore
  | .authorize identity action snapshot authContext, _, s =>
    (LocalAuthorizer.authorize identity action snapshot authContext, s)
  | .createRoom actor input, w, s      => Memory.atomically (Memory.createRoom actor input w.now) s
  | .getRoomForAgent roomID agent, _, s => Memory.atomically (Memory.getRoomForAgent roomID agent) s
  | .grantAllowlist actor input, w, s  =>
    Memory.atomically (Memory.grantAllowlist actor input w.now) s
  | .revokeAllowlist actor input, w, s =>
    Memory.atomically (Memory.revokeAllowlist actor input w.now) s
  | .setNickname actor input, w, s     => Memory.atomically (Memory.setNickname actor input w.now) s
  | .postMessage actor input, w, s     =>
    Memory.atomically (Memory.postMessage actor input w.now w.ulid) s

-- Any number of requests that are handled concurrently.
def system (maxRoomsPerAgent maxMembersPerRoom : Int) :
    System Op Op.Res Err Response MemoryStore Memory.Stamp Request where
  init := .new maxRoomsPerAgent maxMembersPerRoom
  body := handle
  exec := exec
  may  := fun _ _ _ => true

-- A request that starts and takes its first steps.
def moves (i : Nat) (request : Request) (steps : Nat) : List (System.Action Memory.Stamp Request) :=
  .spawn request :: List.replicate steps (.step i ⟨.zero, []⟩)

-- Bob posts to Alice's room.
def post : Request :=
  .postMessage Sample.bob "lobby" "k" (.ok ⟨["body"], some "hello"⟩)

end Board.Server

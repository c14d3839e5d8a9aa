import CookbookModel.Board.Authorization
import CookbookModel.Library.Cedar

namespace Board

open GoString Cedar

-- `string(action)`
def Action.text : Action → GoString
  | createRoom      => "CreateRoom"
  | listOwnRooms    => "ListOwnRooms"
  | connectRoom     => "ConnectRoom"
  | readMessages    => "ReadMessages"
  | postMessage     => "PostMessage"
  | updateNickname  => "UpdateNickname"
  | viewAllowList   => "ViewAllowList"
  | updateAllowList => "UpdateAllowList"

-- The policies of `board.cedar`.
namespace Policies

def action (name : String) : EntityUID GoString :=
  ⟨"DNSidBoard::Action", name⟩

def service : EntityUID GoString :=
  ⟨"DNSidBoard::Service", "message-board"⟩

-- What every agent may do with the service.
def permitService (name : String) : Policy GoString where
  effect    := .permit
  principal := .is "DNSidBoard::Agent"
  action    := .eq (action name)
  resource  := .eq service
  condition := .lit (.bool true)

def createRoom : Policy GoString :=
  permitService "CreateRoom"

def listOwnRooms : Policy GoString :=
  permitService "ListOwnRooms"

-- `!(resource has archived && resource.archived)`
def notArchived : Expr GoString :=
  .not <| .and (.hasAttr (.var .resource) "archived") (.getAttr (.var .resource) "archived")

def owner : Policy GoString where
  effect    := .permit
  principal := .is "DNSidBoard::Agent"
  action    := .mem [action "ConnectRoom", action "ReadMessages", action "PostMessage",
    action "UpdateNickname", action "ViewAllowList", action "UpdateAllowList"]
  resource  := .is "DNSidBoard::Room"
  condition := .and (.hasAttr (.var .resource) "owner") <|
    .and (.eq (.var .principal) (.getAttr (.var .resource) "owner")) notArchived

-- What those may do in a room whom an attribute of the room gives a role.
def permitRole (attr : String) (actions : List String) : Policy GoString where
  effect    := .permit
  principal := .is "DNSidBoard::Agent"
  action    := .mem (actions.map action)
  resource  := .is "DNSidBoard::Room"
  condition := .and (.hasAttr (.var .resource) attr) <|
    .and (.mem (.var .principal) (.getAttr (.var .resource) attr)) notArchived

def admin : Policy GoString :=
  permitRole "adminRole" ["ConnectRoom", "ReadMessages", "PostMessage", "UpdateNickname",
    "ViewAllowList", "UpdateAllowList"]

def poster : Policy GoString :=
  permitRole "posterRole" ["ConnectRoom", "ReadMessages", "PostMessage", "UpdateNickname"]

def reader : Policy GoString :=
  permitRole "readerRole" ["ConnectRoom", "ReadMessages", "UpdateNickname"]

def connector : Policy GoString :=
  permitRole "connectorRole" ["ConnectRoom", "UpdateNickname"]

-- What nobody may do with the allowlist of a room.
def forbidUpdate (condition : Expr GoString) : Policy GoString where
  effect    := .forbid
  principal := .is "DNSidBoard::Agent"
  action    := .eq (action "UpdateAllowList")
  resource  := .is "DNSidBoard::Room"
  condition := condition

def protectOwner : Policy GoString :=
  forbidUpdate <| .and (.hasAttr (.var .context) "targetAgent") <|
    .and (.hasAttr (.var .resource) "owner") <|
    .eq (.getAttr (.var .context) "targetAgent") (.getAttr (.var .resource) "owner")

def noNewOwner : Policy GoString :=
  forbidUpdate <| .and (.hasAttr (.var .context) "newRole") <|
    .eq (.getAttr (.var .context) "newRole") (.lit (.string "owner"))

def board : List (Policy GoString) :=
  [createRoom, listOwnRooms, owner, admin, poster, reader, connector, protectOwner, noNewOwner]

end Policies

structure IsAuthorizedInput where
  policyStoreID : GoString
  principal     : EntityUID GoString
  action        : EntityUID GoString
  resource      : EntityUID GoString
  entities      : List (Entity GoString)
  context       : Option (Record GoString)

-- `errors` holds what `%v` prints of them.
structure IsAuthorizedOutput where
  decision : Decision
  errors   : List GoString

structure AVPAuthorizer where
  client        : IsAuthorizedInput → Except GoString IsAuthorizedOutput
  policyStoreID : GoString

namespace AVPAuthorizer

def resourceID (action : Action) (snapshot : AuthSnapshot) : EntityUID GoString :=
  match action with
  | .createRoom | .listOwnRooms => ⟨"DNSidBoard::Service", "message-board"⟩
  | _                           => ⟨"DNSidBoard::Room", snapshot.room.roomKey⟩

def agentItem (identity : Identity) (agent : GoString) (parents : List (EntityUID GoString)) :
    Entity GoString where
  uid     := ⟨"DNSidBoard::Agent", agent⟩
  attrs   := [("fqdn", .string agent), ("issuer", .string identity.issuer),
    ("environment", .string identity.environment)]
  parents := parents

def roleID (roomKey role : GoString) : EntityUID GoString :=
  ⟨"DNSidBoard::RoomRole", roomKey ++ "#" ++ role⟩

def roomItem (room : Room) : Entity GoString where
  uid     := ⟨"DNSidBoard::Room", room.roomKey⟩
  attrs   := [
    ("roomId", .string room.roomID),
    ("owner", .entity ⟨"DNSidBoard::Agent", room.owner⟩),
    ("ownerRole", .entity (roleID room.roomKey "owner")),
    ("adminRole", .entity (roleID room.roomKey "admin")),
    ("posterRole", .entity (roleID room.roomKey "poster")),
    ("readerRole", .entity (roleID room.roomKey "reader")),
    ("connectorRole", .entity (roleID room.roomKey "connector")),
    ("archived", .bool room.archived)
  ]
  parents := []

def serviceItem : Entity GoString where
  uid     := ⟨"DNSidBoard::Service", "message-board"⟩
  attrs   := []
  parents := []

def entities (identity : Identity) (snapshot : AuthSnapshot) (authContext : AuthContext) :
    List (Entity GoString) :=
  let room := snapshot.room
  if room.roomKey = [] then
    [agentItem identity identity.agent [], serviceItem]
  else
    let role (role : Role) : Entity GoString := ⟨roleID room.roomKey role.text, [], []⟩
    let parents := snapshot.membership.toList.map fun m => roleID room.roomKey m.role.text
    agentItem identity identity.agent parents :: serviceItem :: roomItem room ::
      ([Role.owner, .admin, .poster, .reader, .connector].map role ++
        (if room.owner ≠ [] ∧ room.owner ≠ identity.agent then
          [agentItem identity room.owner [roleID room.roomKey "owner"]] else []) ++
        (if authContext.targetAgent ≠ [] ∧ authContext.targetAgent ≠ identity.agent ∧
            authContext.targetAgent ≠ room.owner then
          [agentItem identity authContext.targetAgent []] else []))

def contextMap (authContext : AuthContext) : Option (Record GoString) :=
  if authContext.operation = [] ∧ authContext.targetAgent = [] ∧ authContext.newRole.text = [] then
    none
  else
    some <|
      (if authContext.operation ≠ [] then
        [(ofString "operation", .string authContext.operation)] else []) ++
      (if authContext.targetAgent ≠ [] then
        [(ofString "targetAgent", .entity ⟨"DNSidBoard::Agent", authContext.targetAgent⟩)] else []) ++
      (if authContext.newRole.text ≠ [] then
        [(ofString "newRole", .string authContext.newRole.text)] else [])

def input (a : AVPAuthorizer) (identity : Identity) (action : Action) (snapshot : AuthSnapshot)
    (authContext : AuthContext) : IsAuthorizedInput where
  policyStoreID := a.policyStoreID
  principal     := ⟨"DNSidBoard::Agent", identity.agent⟩
  action        := ⟨"DNSidBoard::Action", action.text⟩
  resource      := resourceID action snapshot
  entities      := entities identity snapshot authContext
  context       := contextMap authContext

def authorize (a : AVPAuthorizer) (identity : Identity) (action : Action) (snapshot : AuthSnapshot)
    (authContext : AuthContext) : Except Err Unit :=
  match a.client (a.input identity action snapshot authContext) with
  | .error detail => throw (.dependency (ofString "avp is-authorized: " ++ detail))
  | .ok out       => do
    throwIf (out.errors ≠ []) <| .dependency <|
      ofString "avp evaluation errors: [" ++ [0x20].intercalate out.errors ++ ofString "]"
    throwIf (out.decision ≠ .allow) .denied

end AVPAuthorizer

end Board

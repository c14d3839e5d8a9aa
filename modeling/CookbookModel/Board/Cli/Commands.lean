import CookbookModel.Board.Cli

namespace Board.Cli

open GoString

-- `url.QueryEscape`
def queryEscape (s : GoString) : GoString :=
  s.flatMap fun b =>
    if b = 0x20 then
      [0x2B]
    else if (0x61 ≤ b && b ≤ 0x7A) || (0x41 ≤ b && b ≤ 0x5A) || (0x30 ≤ b && b ≤ 0x39) ||
        b ∈ ofString "-_.~" then
      [b]
    else
      [0x25, upperHex (b.toNat / 16), upperHex b.toNat]

-- `query.Encode()`, for a query whose keys are in order
def encodeQuery (query : List (GoString × GoString)) : GoString :=
  (ofString "&").intercalate <| query.map fun (key, value) =>
    queryEscape key ++ "=" ++ queryEscape value

def withQuery (path : GoString) (query : List (GoString × GoString)) : GoString :=
  if query = [] then path else path ++ "?" ++ encodeQuery query

-- `fmt.Sprint`
def sprint (n : Int) : GoString :=
  ofString (toString n)

-- `room get <room-id>`
def roomGet (token roomID : GoString) : Request :=
  request token "GET" ("/v1/rooms/" ++ pathEscape roomID) [] []

-- `read <room-id>`, and `watch <room-id>`
def read (token roomID : GoString) (limit : Int) (cursor after : GoString) (wait : Int)
    (watch : Bool) : Request :=
  let query :=
    (if after ≠ [] then [(ofString "after", after)] else []) ++
    (if cursor ≠ [] then [(ofString "cursor", cursor)] else []) ++
    (if limit > 0 then [(ofString "limit", sprint limit)] else []) ++
    (if watch then [(ofString "wait", sprint wait)] else [])
  request token "GET" (withQuery ("/v1/rooms/" ++ pathEscape roomID ++ "/messages") query) [] []

-- `nickname set <room-id> --nickname <nickname>`
def nicknameSet (token roomID nickname : GoString) : Request :=
  request token "PUT" ("/v1/rooms/" ++ pathEscape roomID ++ "/nickname")
    (GoJson.marshalStrings [("nickname", nickname)]) []

-- `allowlist list <room-id>`
def allowlistList (token roomID : GoString) : Request :=
  request token "GET" ("/v1/rooms/" ++ pathEscape roomID ++ "/allowlist") [] []

-- `allowlist grant <room-id> --agent <fqdn> --role <role>`
def allowlistGrant (token roomID agent role : GoString) : Request :=
  request token "PUT" ("/v1/rooms/" ++ pathEscape roomID ++ "/allowlist/" ++ pathEscape agent)
    (GoJson.marshalStrings [("role", role)]) []

-- `allowlist revoke <room-id> --agent <fqdn>`
def allowlistRevoke (token roomID agent : GoString) : Request :=
  request token "DELETE" ("/v1/rooms/" ++ pathEscape roomID ++ "/allowlist/" ++ pathEscape agent)
    [] []

-- The path of a URL, without its query and fragment
def urlPath (url : GoString) : GoString :=
  (url.takeWhile (· ≠ 0x23)).takeWhile (· ≠ 0x3F)

-- The commands that name a room.
inductive Command
  | roomGet (roomID : GoString)
  | post (roomID body idempotencyKey randomID : GoString)
  | read (roomID : GoString) (limit : Int) (cursor after : GoString) (wait : Int) (watch : Bool)
  | nicknameSet (roomID nickname : GoString)
  | allowlistList (roomID : GoString)
  | allowlistGrant (roomID agent role : GoString)
  | allowlistRevoke (roomID agent : GoString)

namespace Command

def request (token : GoString) : Command → Request
  | .roomGet roomID                             => Cli.roomGet token roomID
  | .post roomID body idempotencyKey randomID   =>
    Cli.post token roomID body idempotencyKey randomID
  | .read roomID limit cursor after wait watch  => Cli.read token roomID limit cursor after wait watch
  | .nicknameSet roomID nickname                => Cli.nicknameSet token roomID nickname
  | .allowlistList roomID                       => Cli.allowlistList token roomID
  | .allowlistGrant roomID agent role           => Cli.allowlistGrant token roomID agent role
  | .allowlistRevoke roomID agent               => Cli.allowlistRevoke token roomID agent

def roomID : Command → GoString
  | .roomGet roomID | .post roomID .. | .read roomID .. | .nicknameSet roomID _
  | .allowlistList roomID | .allowlistGrant roomID .. | .allowlistRevoke roomID _ => roomID

def agent : Command → Option GoString
  | .allowlistGrant _ agent _ | .allowlistRevoke _ agent => some agent
  | _                                                    => none

-- What stands behind the room id in the path.
def leaf : Command → List GoString
  | .roomGet _                               => []
  | .post .. | .read ..                      => ["messages"]
  | .nicknameSet ..                          => ["nickname"]
  | .allowlistList _                         => ["allowlist"]
  | .allowlistGrant .. | .allowlistRevoke .. => ["allowlist"]

-- The segments of the resource that a command is about
def segments (c : Command) : List GoString :=
  "v1" :: "rooms" :: c.roomID :: (c.leaf ++ c.agent.toList)

-- The handler that a command is meant for
def handler [Platform] [CursorJson] [Http.BodyJson] (identity : Identity) (r : Http.Request) :
    Command → Http.Handler Http.Response
  | .roomGet roomID               => Http.getRoom identity roomID
  | .post roomID ..               =>
    Http.change <| .postMessage identity roomID (r.header "Idempotency-Key")
      (Http.decodeJSON r Http.BodyJson.message)
  | .read roomID ..               => Http.readMessages identity roomID r
  | .nicknameSet roomID _         =>
    Http.change <| .setNickname identity roomID (Http.decodeJSON r Http.BodyJson.nickname)
  | .allowlistList roomID         => Http.listAllowlist identity roomID r
  | .allowlistGrant roomID agent _ =>
    Http.change <| .grantAllowlist identity roomID agent (Http.decodeJSON r Http.BodyJson.role)
  | .allowlistRevoke roomID agent => Http.change <| .revokeAllowlist identity roomID agent

end Command
end Board.Cli

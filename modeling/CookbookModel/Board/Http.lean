import CookbookModel.Board.Memory.Reads
import CookbookModel.Board.Server

namespace Board.Http

open GoString

def maxWatchSeconds : Int := 25

-- The steps of a request. `overdue` is `time.Now().After(deadline)`.
inductive Op
  | board (o : Server.Op)
  | listRooms (agent : GoString) (limit : Int) (cursor : GoString)
  | listAllowlist (roomID : GoString) (limit : Int) (cursor : GoString)
  | readMessages (roomID : GoString) (limit : Int) (cursor after : GoString)
  | overdue

@[reducible]
def Op.Res : Op → Type
  | board o          => o.Res
  | listRooms ..     => Except Err (Page RoomSummary)
  | listAllowlist .. => Except Err (Page Membership)
  | readMessages ..  => Except Err (Page Message)
  | overdue          => Bool

abbrev Handler := Program Op Op.Res Err

-- The steps that the handlers share with those that change a room.
def board (x : Server.Handler α) : Handler α :=
  x.embed .board fun _ => id

def getRoomForAgent (roomID agent : GoString) : Handler AuthSnapshot :=
  board <| Server.invoke <| .getRoomForAgent roomID agent

def authorize (identity : Identity) (action : Action) (snapshot : AuthSnapshot) : Handler Unit :=
  board <| Server.invoke <| .authorize identity action snapshot {}

-- A request as `net/http` hands it over, with what the verifier makes of a token when the request
-- comes in and the number of times that the client waits for new messages.
structure Request where
  method       : GoString
  path         : GoString
  escapedPath  : GoString
  query        : GoString → GoString
  header       : GoString → GoString
  body         : Except Err GoString
  verifyBearer : GoString → Except Err Identity
  patience     : Nat

-- What a response tells its receiver, as the records that its JSON is written from.
inductive Body
  | healthy
  | whoami (agent issuer audience environment : GoString) (tokenJTIPresent : Bool)
  | created (roomID name owner : GoString) (createdAt : Time)
  | rooms (items : List RoomSummary) (nextCursor : Option GoString)
  | room (roomID name description owner : GoString) (archived : Bool) (role : Role)
      (nickname : GoString) (capabilities : List Capability) (createdAt updatedAt : Time)
  | messages (items : List Message) (nextCursor : Option GoString)
  | message (message : Message) (idempotentReplay : Bool)
  | profile (roomID agent nickname : GoString) (updatedAt : Time)
  | entries (items : List Membership) (nextCursor : Option GoString)
  | entry (entry : Membership) (created : Bool)
  | removed (removed : Bool)
  | error (code message : GoString)
  deriving DecidableEq

structure Response where
  status : Nat
  body   : Body
  deriving DecidableEq

def writeError (status : Nat) (code message : String) : Response :=
  ⟨status, .error code message⟩

def notFound : Response :=
  writeError 404 "not_found" "Endpoint not found."

def writeHandlerError : Err → Response
  | .validation detail => ⟨400, .error "validation_error" ("validation error: " ++ detail)⟩
  | .conflict | .idempotencyConflict => writeError 409 "conflict" "conflict"
  | .denied | .notFound => writeError 404 "not_found" "Room not found."
  | .dependency _ =>
    writeError 503 "dependency_unavailable" "A required dependency is unavailable."
  | .other _ => writeError 500 "internal_error" "Internal server error."

def nullable (value : GoString) : Option GoString :=
  if value = [] then none else some value

-- `strconv.Atoi`
def atoi (value : GoString) : Option Int := do
  let (negative, digits) := match value with
    | 0x2B :: ds => (false, ds)
    | 0x2D :: ds => (true, ds)
    | ds         => (false, ds)
  if digits = [] then none
  let n ← Time.number 0 digits
  let parsed : Int := if negative then -n else n
  if -2 ^ 63 ≤ parsed ∧ parsed < 2 ^ 63 then some parsed else none

def queryLimit (r : Request) (defaultLimit : Int) : Handler Int := do
  let value := r.query "limit"
  if value = [] then
    return defaultLimit
  else
    match (atoi value).filter (0 < ·) with
    | none        => throw (.validation "limit must be positive")
    | some parsed => return boundLimit parsed defaultLimit

def queryWait (r : Request) : Handler Int := do
  let value := r.query "wait"
  if value = [] then
    return 0
  else
    match (atoi value).filter (0 ≤ ·) with
    | none        => throw (.validation "wait must be non-negative")
    | some parsed => return if parsed > maxWatchSeconds then maxWatchSeconds else parsed

def escapedSegments (escapedPath : GoString) : Option (List GoString) :=
  let trimmed := trim escapedPath "/"
  if trimmed = [] then some [] else (split trimmed 0x2F).mapM pathUnescape

-- What the handlers take from `encoding/json`: what a decoder finds in a body that it accepts.
class BodyJson where
  room     : GoString → Option Server.RoomBody
  message  : GoString → Option Server.MessageBody
  nickname : GoString → Option GoString
  role     : GoString → Option GoString

def decodeJSON (r : Request) (decode : GoString → Option α) : Except Err α := do
  let body := (← r.body).take (32 * 1024)
  throwIf (trimSpace body = []) (.validation "request body is required")
  match decode body with
  | none       => throw (.validation "invalid JSON body")
  | some value => return value

def authenticate (r : Request) : Except Err Identity :=
  match cutPrefix (r.header "Authorization") "Bearer " with
  | none      => throw (.other "unauthorized")
  | some rest =>
    let token := trimSpace rest
    if token = [] then throw (.other "unauthorized") else r.verifyBearer token

def whoami (identity : Identity) : Response :=
  ⟨200, .whoami identity.agent identity.issuer (identity.audience.headD []) identity.environment
    (identity.tokenJTIHash ≠ [])⟩

def listRooms (identity : Identity) (r : Request) : Handler Response := do
  authorize identity .listOwnRooms
    ⟨⟨[], [], [], [], [], .zero, .zero, 0, false, 0⟩, none⟩
  let limit ← queryLimit r defaultListLimit
  let page ← Program.ofExcept (← Program.perform <|
    Op.listRooms identity.agent limit (r.query "cursor"))
  return ⟨200, .rooms page.items (nullable page.nextCursor)⟩

def getRoom (identity : Identity) (roomID : GoString) : Handler Response := do
  let snapshot ← getRoomForAgent roomID identity.agent
  authorize identity .connectRoom snapshot
  let room := snapshot.room
  return ⟨200, .room room.roomID room.name room.description room.owner room.archived
    ((snapshot.membership.map (·.role)).getD .zero) (Server.authorNickname snapshot)
    ((snapshot.membership.map (·.capabilities)).getD []) room.createdAt room.updatedAt⟩

-- A round of the loop that waits for messages, with what follows if there are none yet.
def readRound (identity : Identity) (roomID : GoString) (limit wait : Int) (r : Request)
    (again : Handler Response) : Handler Response := do
  let snapshot ← getRoomForAgent roomID identity.agent
  authorize identity .readMessages snapshot
  let page ← Program.ofExcept (← Program.perform <|
    Op.readMessages roomID limit (r.query "cursor") (r.query "after"))
  let response : Response := ⟨200, .messages page.items (nullable page.nextCursor)⟩
  if page.items ≠ [] ∨ wait = 0 then
    return response
  else if ← Program.perform Op.overdue then
    return response
  else
    again

def readLoop (identity : Identity) (roomID : GoString) (limit wait : Int) (r : Request) :
    Nat → Handler Response
  | 0 => readRound identity roomID limit wait r <| throw (.other "context canceled")
  | patience + 1 =>
    readRound identity roomID limit wait r <| readLoop identity roomID limit wait r patience

def readMessages (identity : Identity) (roomID : GoString) (r : Request) : Handler Response := do
  let limit ← queryLimit r defaultMessagesLimit
  let wait ← queryWait r
  readLoop identity roomID limit wait r r.patience

def listAllowlist (identity : Identity) (roomID : GoString) (r : Request) : Handler Response := do
  let snapshot ← getRoomForAgent roomID identity.agent
  authorize identity .viewAllowList snapshot
  let limit ← queryLimit r defaultListLimit
  let page ← Program.ofExcept (← Program.perform <|
    Op.listAllowlist roomID limit (r.query "cursor"))
  return ⟨200, .entries page.items (nullable page.nextCursor)⟩

-- How the handlers that change a room answer.
def respond : Server.Response → Response
  | .room room             => ⟨201, .created room.roomID room.name room.owner room.createdAt⟩
  | .posted result         =>
    ⟨if result.idempotentReplay then 200 else 201,
      .message result.message result.idempotentReplay⟩
  | .profile member        =>
    ⟨200, .profile member.roomID member.agent member.nickname member.updatedAt⟩
  | .granted entry created => ⟨200, .entry entry created⟩
  | .revoked removed       => ⟨200, .removed removed⟩

variable [Platform] [CursorJson] [BodyJson]

def change (request : Server.Request) : Handler Response :=
  respond <$> board (Server.handle request)

-- The routes under `/v1/rooms/` and a room's id.
def routeRoom (identity : Identity) (r : Request) (roomID : GoString) (rest : List GoString) :
    Handler Response :=
  match rest with
  | [] => if r.method = "GET" then getRoom identity roomID else return notFound
  | [leaf] =>
    if leaf = "messages" ∧ r.method = "GET" then readMessages identity roomID r
    else if leaf = "messages" ∧ r.method = "POST" then
      change <| .postMessage identity roomID (r.header "Idempotency-Key")
        (decodeJSON r BodyJson.message)
    else if leaf = "nickname" ∧ r.method = "PUT" then
      change <| .setNickname identity roomID (decodeJSON r BodyJson.nickname)
    else if leaf = "allowlist" ∧ r.method = "GET" then listAllowlist identity roomID r
    else return notFound
  | [leaf, agent] =>
    if leaf = "allowlist" ∧ r.method = "PUT" then
      change <| .grantAllowlist identity roomID agent (decodeJSON r BodyJson.role)
    else if leaf = "allowlist" ∧ r.method = "DELETE" then
      change <| .revokeAllowlist identity roomID agent
    else return notFound
  | _ => return notFound

def route (identity : Identity) (r : Request) : Handler Response := do
  match escapedSegments r.escapedPath with
  | none => throw (.validation "invalid path")
  | some segments =>
    if segments = [ofString "v1", "whoami"] ∧ r.method = "GET" then
      return whoami identity
    else if segments = [ofString "v1", "rooms"] ∧ r.method = "POST" then
      change <| .createRoom identity (decodeJSON r BodyJson.room)
    else if segments = [ofString "v1", "rooms"] ∧ r.method = "GET" then
      listRooms identity r
    else
      match segments with
      | v1 :: rooms :: roomID :: rest =>
        if v1 = "v1" ∧ rooms = "rooms" then routeRoom identity r roomID rest else return notFound
      | _ => return notFound

def serveHTTP (r : Request) : Handler Response := do
  if r.path = "/healthz" then
    return ⟨200, .healthy⟩
  else
    match authenticate r with
    | .error _ => return writeError 401 "unauthorized" "Missing or invalid bearer token."
    | .ok identity =>
      match ← (route identity r).attempt with
      | .ok response => return response
      | .error e     => return writeHandlerError e

-- What a step reads from outside the store: the clock, a fresh id and whether the deadline is past.
structure Moment where
  stamp   : Memory.Stamp
  overdue : Bool

def exec : (o : Op) → Moment → MemoryStore → o.Res × MemoryStore
  | .board o, w, s                          => Server.exec o w.stamp s
  | .listRooms agent limit cursor, _, s     => Memory.atomically (Memory.listRooms agent limit cursor) s
  | .listAllowlist roomID limit cursor, _, s =>
    Memory.atomically (Memory.listAllowlist roomID limit cursor) s
  | .readMessages roomID limit cursor after, _, s =>
    Memory.atomically (Memory.readMessages roomID limit cursor after) s
  | .overdue, w, s                          => (w.overdue, s)

-- Any number of requests that are served concurrently.
def system (maxRoomsPerAgent maxMembersPerRoom : Int) :
    System Op Op.Res Err Response MemoryStore Moment Request where
  init := .new maxRoomsPerAgent maxMembersPerRoom
  body := serveHTTP
  exec := exec
  may  := fun _ _ _ => true

-- Bodies with a single field that holds a string without escapes.
@[reducible]
def plainBodies : BodyJson where
  room raw     := (field "room_id" raw).map (⟨·, [], []⟩)
  message raw  := (field "body" raw).map (⟨["body"], ·⟩)
  nickname raw := field "nickname" raw
  role raw     := field "role" raw
where
  field (name : GoString) (raw : GoString) : Option GoString := do
    let rest ← (ofString "\x7b\"" ++ name ++ "\":\"").isPrefixOf? raw
    let value ← (ofString "\"\x7d").isSuffixOf? rest
    if 0x22 ∈ value ∨ 0x5C ∈ value then none else value

namespace Sample

def verifyBearer (token : GoString) : Except Err Identity :=
  if token = "alice" then .ok Board.Sample.alice
  else if token = "bob" then .ok Board.Sample.bob
  else .error (.other "unauthorized")

-- A request of the agent with the token.
def request (token method path : GoString) (body : GoString := []) : Request where
  method       := method
  path         := path
  escapedPath  := path
  query _      := []
  header name  :=
    if name = "Authorization" then ofString "Bearer " ++ token
    else if name = "Idempotency-Key" then "k"
    else []
  body         := .ok body
  verifyBearer := verifyBearer
  patience     := 0

def create : Request :=
  request "alice" "POST" "/v1/rooms" "\x7b\"room_id\":\"lobby\"\x7d"

def grant : Request :=
  request "alice" "PUT" "/v1/rooms/lobby/allowlist/bob.example" "\x7b\"role\":\"reader\"\x7d"

def revoke : Request :=
  request "alice" "DELETE" "/v1/rooms/lobby/allowlist/bob.example"

def post : Request :=
  request "alice" "POST" "/v1/rooms/lobby/messages" "\x7b\"body\":\"hello\"\x7d"

def read : Request :=
  request "bob" "GET" "/v1/rooms/lobby/messages"

-- A request that starts and takes its first steps.
def moves (i : Nat) (r : Request) (steps : Nat) : List (System.Action Moment Request) :=
  .spawn r :: List.replicate steps (.step i ⟨⟨.zero, []⟩, false⟩)

end Sample

end Board.Http

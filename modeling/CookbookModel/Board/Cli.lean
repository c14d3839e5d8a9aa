import CookbookModel.Board.Http
import CookbookModel.Library.GoJson

namespace Board

open GoString

namespace Http

-- What `postMessage` takes from a body: a JSON object whose values it leaves as they are, but for
-- that of `body`, which it reads as a string.
def decodeMessage (body : GoString) : Option Server.MessageBody := do
  let (raw, _) ← GoJson.decodeObject body
  return {
    fields := raw.map (·.1)
    body   := (GoJson.field raw "body").bind GoJson.unmarshalString
  }

end Http

namespace Cli

-- `url.PathEscape`
def unreserved (b : UInt8) : Bool :=
  (0x61 ≤ b && b ≤ 0x7A) || (0x41 ≤ b && b ≤ 0x5A) || (0x30 ≤ b && b ≤ 0x39) ||
  b ∈ ofString "-_.~$&+:=@"

def upperHex (n : Nat) : UInt8 :=
  ((ofString "0123456789ABCDEF")[n % 16]?).getD 0

def pathEscape (s : GoString) : GoString :=
  s.flatMap fun b => if unreserved b then [b] else [0x25, upperHex (b.toNat / 16), upperHex b.toNat]

-- A request that the command line client sends.
structure Request where
  method  : GoString
  path    : GoString
  headers : List (GoString × GoString)
  body    : GoString
  deriving DecidableEq

def request (token method path body : GoString) (headers : List (GoString × GoString)) : Request where
  method  := method
  path    := path
  headers := ("Authorization", ofString "Bearer " ++ token) ::
    ("Content-Type", "application/json") :: headers
  body    := body

-- `post <room-id> --body <body>`. `randomID` is the key of a post that is given none.
def post (token roomID body idempotencyKey randomID : GoString) : Request :=
  let idempotencyKey := if idempotencyKey = [] then randomID else idempotencyKey
  request token "POST" ("/v1/rooms/" ++ pathEscape roomID ++ "/messages")
    (GoJson.marshalStrings [("body", body)]) [("Idempotency-Key", idempotencyKey)]

-- The request as the server receives it.
def Request.received (r : Request) (verifyBearer : GoString → Except Err Identity) : Http.Request where
  method       := r.method
  path         := (pathUnescape r.path).getD []
  escapedPath  := r.path
  query _      := []
  header name  := ((r.headers.find? (·.1 = name)).map (·.2)).getD []
  body         := .ok r.body
  verifyBearer := verifyBearer
  patience     := 0

end Cli
end Board

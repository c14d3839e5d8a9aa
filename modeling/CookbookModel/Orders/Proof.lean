import CookbookModel.Library.Control
import CookbookModel.Library.Json

namespace Orders

open PyString Json PyItems

structure ActionPayload where
  subject       : PyString
  audience      : PyString
  tokenJtiHash  : PyString
  toolName      : PyString
  argumentsHash : PyString
  sessionHash   : PyString
  timestamp     : Int
  nonce         : PyString
  deriving DecidableEq

-- `asdict(payload)`
def ActionPayload.asdict (payload : ActionPayload) : PyItems Json := [
  ("subject", .string payload.subject),
  ("audience", .string payload.audience),
  ("token_jti_hash", .string payload.tokenJtiHash),
  ("tool_name", .string payload.toolName),
  ("arguments_hash", .string payload.argumentsHash),
  ("session_hash", .string payload.sessionHash),
  ("timestamp", .int payload.timestamp),
  ("nonce", .string payload.nonce)
]

def ActionPayload.fields : List PyString :=
  ["subject", "audience", "token_jti_hash", "tool_name", "arguments_hash", "session_hash",
    "timestamp", "nonce"]

-- `getattr(payload, field)` for a field of the payload
def ActionPayload.getattr (payload : ActionPayload) (field : PyString) : Except PyError Json :=
  match get payload.asdict field with
  | some value => .ok value
  | none       => .error <| .other <| "'ActionPayload' object has no attribute " ++ field

-- The text of `json.dumps` is ASCII.
def jsonBytes (value : Json) : List UInt8 :=
  (dumps value).map fun c => .ofNat c.val

def sha256 [Python] (value : PyString) : Except PyError PyString :=
  match value.encode with
  | some bytes => .ok <| Python.sha256 bytes
  | none       => .error <| .valueError "surrogates not allowed"

def argumentsHash [Python] (arguments : PyItems Json) : PyString :=
  Python.sha256 <| jsonBytes <| .object arguments

def encodePayload (payload : ActionPayload) : List UInt8 :=
  jsonBytes <| .object payload.asdict

def stringField (parsed : PyItems Json) (field : PyString) : Except PyError PyString :=
  match get parsed field with
  | some (.string (c :: s)) => .ok <| c :: s
  | _                       => .error <| .valueError <| "proof payload has invalid " ++ field

def timestampField (parsed : PyItems Json) : Except PyError Int :=
  match get parsed "timestamp" with
  | some (.int n) => .ok n
  | _             => .error <| .valueError "proof payload has invalid timestamp"

-- `ActionPayload(**parsed)` takes each field once and nothing else.
def decodePayload [Python] (value : List UInt8) : Except PyError ActionPayload := do
  match ← Python.loadsBytes value with
  | .object parsed =>
    throwIf (¬(parsed.map (·.1)).Perm ActionPayload.fields) <| .typeError "ActionPayload.__init__()"
    let subject ← stringField parsed "subject"
    let audience ← stringField parsed "audience"
    let tokenJtiHash ← stringField parsed "token_jti_hash"
    let toolName ← stringField parsed "tool_name"
    let argumentsHash ← stringField parsed "arguments_hash"
    let sessionHash ← stringField parsed "session_hash"
    let nonce ← stringField parsed "nonce"
    let timestamp ← timestampField parsed
    return {
      subject, audience, tokenJtiHash, toolName, argumentsHash, sessionHash, timestamp, nonce
    }
  | _ => throw <| .valueError "proof payload must be an object"

end Orders

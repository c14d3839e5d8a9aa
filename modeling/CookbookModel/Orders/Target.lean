import CookbookModel.Orders.Interceptor

namespace Orders.Target

open PyString Json PyItems

variable [Python]

-- A response, with the value whose JSON text is its body.
structure Response where
  statusCode : Nat
  headers    : PyItems PyString := [("Content-Type", "application/json")]
  body       : PyItems Json

def refuse (status : Nat) (reason : PyString) : Response where
  statusCode := status
  body       := [("ok", .bool false), ("reason", .string reason)]

-- `hmac.compare_digest(a, b)`, which takes ASCII strings only
def compareDigest (a b : PyString) : Except PyError Bool :=
  if a.isascii && b.isascii then .ok <| a = b
  else .error <| .typeError "comparing strings with non-ASCII characters is not supported"

def headersOf (event : PyItems Json) : Except PyError (PyItems PyString) := do
  let items ← dictOrEmpty (get event "headers")
  return items.foldl (fun headers (key, value) =>
    set headers (Python.lower key) (Python.str value)) []

-- A body that is text is parsed. It is `none` where it is not an object.
def readBody : Option Json → Except PyError (Option (PyItems Json))
  | some (.object body) => .ok <| some body
  | some (.string text) =>
    match Python.loads text with
    | .ok (.object body)        => .ok <| some body
    | .ok _                     => .ok none
    | .error (.jsonDecodeError _) => .ok none
    | .error e                  => .error e
  | _ => .ok none

def skuOf (body : PyItems Json) : Option PyString :=
  match get body "sku" with
  | some (.string sku) => if sku ≠ [] ∧ sku.length ≤ 64 then some sku else none
  | _                  => none

def quantityOf (body : PyItems Json) : Option Int :=
  match get body "quantity" with
  | some (.int quantity) => if 1 ≤ quantity ∧ quantity ≤ 10 then some quantity else none
  | _                    => none

-- `sentinel` is the environment variable `GATEWAY_SENTINEL`, empty where it is not set.
def lambdaHandler (sentinel : PyString) (event : PyItems Json) : Except PyError Response := do
  let headers ← headersOf event
  if sentinel = [] then
    return refuse 403 "request did not pass the DNSid interceptor"
  if !(← compareDigest ((get headers "x-gateway-sentinel").getD []) sentinel) then
    return refuse 403 "request did not pass the DNSid interceptor"
  if get headers "x-dnsid-status" ≠ some (ofString "active") then
    return refuse 403 "DNSid identity is not active"
  match ← readBody (get event "body") with
  | none      => return refuse 400 "order must be a JSON object"
  | some body =>
    match skuOf body, quantityOf body with
    | none, _                => return refuse 400 "sku must be 1-64 characters"
    | _, none                => return refuse 400 "quantity must be an integer from 1 to 10"
    | some sku, some quantity =>
      return {
        statusCode := 200
        body := [
          ("ok", .bool true), ("message", .string "order accepted"),
          ("dnsid_sub", ((get headers "x-dnsid-sub").map .string).getD .null),
          ("sku", .string sku), ("quantity", .int quantity)
        ]
      }

end Orders.Target

namespace Orders

open PyString Json PyItems

-- The event that the gateway makes of a forwarded request for the target.
def delivered (body : Json) (headers : PyItems PyString) : PyItems Json := [
  ("headers", .object <| headers.map fun header => (header.1, .string header.2)),
  ("body", (get (asObject <| get (asObject <| some body) "params") "arguments").getD .null)
]

end Orders

-- A call whose arguments are text, with what Python's library and the SDK make of its parts.
namespace Orders.Sample

open PyString

def utf8 (s : String) : List UInt8 :=
  s.toByteArray.data.toList

def emptyHash : PyString :=
  "44136fa355b3678a1146ad16f7e8649e94fb4fc21fe77e8310c060f61caaff8a"

def orderHash : PyString :=
  "0483ed3d5cb814025082b6babdc3482caa41f60c66f6904c1306f09e35181ee2"

def jtiHash : PyString :=
  "3f08aace122ee2368432c1ca23a049bc640bafbf00fdf33a52429f38ba12dbf9"

def sessionHash : PyString :=
  "84097828fc31a8c8d29210df48901a85de7fd013f686b17be77d1be29cb7a98b"

def order : PyItems Json :=
  [("sku", .string "LABEL-CASE"), ("quantity", .int 2)]

def orderText : PyString :=
  "\x7b\"sku\": \"LABEL-CASE\", \"quantity\": 2\x7d"

def tokenPart : PyString :=
  "eyJzdWIiOiAiYmFuay1hLWFnZW50LnRlc3QiLCAiYXVkIjogImh0dHBzOi8vZ2F0ZXdheS5leGFtcGxlL21jcCIsICJqdGkiOiAidG9rZW4tMSJ9"

def tokenText : List UInt8 :=
  utf8 "\x7b\"sub\": \"bank-a-agent.test\", \"aud\": \"https://gateway.example/mcp\", \"jti\": \"token-1\"\x7d"

def tokenMembers : PyItems Json := [
  ("sub", .string "bank-a-agent.test"),
  ("aud", .string "https://gateway.example/mcp"),
  ("jti", .string "token-1")
]

def payload : ActionPayload where
  subject       := "bank-a-agent.test"
  audience      := "https://gateway.example/mcp"
  tokenJtiHash  := jtiHash
  toolName      := "place_order"
  argumentsHash := emptyHash
  sessionHash   := sessionHash
  timestamp     := 1000
  nonce         := "nonce-1"

theorem lowerAscii_lowerAscii (c : CodePoint) : lowerAscii (lowerAscii c) = lowerAscii c := by
  simp only [lowerAscii, Bool.and_eq_true, decide_eq_true_eq]
  split
  case isFalse   => rfl
  case isTrue h  =>
    have hv : (c + 0x20).val = c.val + 0x20 := by
      rw [Fin.val_add, Nat.mod_eq_of_lt]
      · rfl
      · change c.val + 0x20 < _
        omega
    rw [if_neg (by omega)]

def upperAscii (c : CodePoint) : CodePoint :=
  if 0x61 ≤ c.val && c.val ≤ 0x7A then c - 0x20 else c

@[reducible]
def python : Python where
  str | .string s => s | _ => []
  str_string _ := rfl
  lower := List.map lowerAscii
  lower_ascii _ _ := rfl
  lower_lower s := by simp [Function.comp_def, lowerAscii_lowerAscii]
  upper := List.map upperAscii
  loads text := if text = orderText then .ok (.object order) else .error (.jsonDecodeError [])
  loadsBytes text :=
    if text = tokenText then .ok (.object tokenMembers)
    else if text = encodePayload payload then .ok (.object payload.asdict)
    else .error (.jsonDecodeError [])
  urlsafeB64decode s :=
    if s = tokenPart then .ok tokenText else .error (.valueError [])
  sha256 bytes :=
    if bytes = jsonBytes (.object []) then emptyHash
    else if bytes = jsonBytes (.object order) then orderHash
    else if bytes = utf8 "token-1" then jtiHash
    else if bytes = utf8 "session-1" then sessionHash
    else []

def request : PyItems Json := [
  ("headers", .object [
    ("Authorization", .string <| ofString "Bearer e30." ++ tokenPart ++ ofString ".signature"),
    ("mcp-session-id", .string "session-1"),
    ("x-action-proof", .string "proof")
  ]),
  ("body", .object [
    ("jsonrpc", .string "2.0"),
    ("id", .string "call"),
    ("method", .string "tools/call"),
    ("params", .object [
      ("name", .string "OrderTarget___place_order"),
      ("arguments", .string orderText)
    ])
  ])
]

def proofRequest : ProofRequest where
  subject  := "bank-a-agent.test"
  jws      := "proof"
  expected := [
    ("subject", "bank-a-agent.test"), ("audience", "https://gateway.example/mcp"),
    ("token_jti_hash", jtiHash), ("tool_name", "place_order"), ("arguments_hash", emptyHash),
    ("session_hash", sessionHash)
  ]

def event : PyItems Json :=
  [("mcp", .object [("gatewayRequest", .object request)])]

def verifier : ProofVerifier Seen Unit where
  replayStore := MemoryReplayStore

def action : VerifiedAction where
  payload  := payload
  identity := ⟨"bank-a-agent.test", "ACTIVE"⟩

def stamp : ProofVerifier.Stamp Unit where
  now       := 1010
  profile _ := .ok (encodePayload payload, action.identity)
  answer    := ()

end Orders.Sample

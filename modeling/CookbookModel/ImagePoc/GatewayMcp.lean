import CookbookModel.ImagePoc.Interceptor

namespace ImagePoc

open PyString Json PyItems
open Interceptor (isText)

-- What `urlparse` makes of a URL
structure Url where
  scheme   : PyString
  hostname : Option PyString
  path     : PyString

-- What of Python's library does not take every value: `str(value)` refuses integers with too many
-- digits, and `urlparse(url)` some hosts.
class Runtime where
  str      : Json → Except PyError PyString
  urlparse : PyString → Except PyError Url

section Values

variable {value : Json} {key : PyString}

-- `value.get(key)`
def getOf (key : PyString) : Json → Except PyError (Option Json)
  | .object items => .ok <| get items key
  | _             => .error <| .other "AttributeError"

-- `for x in value`
def iterate : Json → Except PyError (List Json)
  | .array items  => .ok items
  | .object items => .ok <| items.map fun item => .string item.1
  | .string s     => .ok <| s.map fun c => .string [c]
  | _             => .error <| .typeError "object is not iterable"

-- `key in value`
def containsKey (key : PyString) : Json → Except PyError Bool
  | .object items => .ok (get items key).isSome
  | .array items  => .ok <| items.any (isText · key)
  | .string s     => .ok <| contains key s
  | _             => .error <| .typeError "argument is not iterable"

-- `value[key]`
def itemOf (key : PyString) : Json → Except PyError Json
  | .object items =>
    match get items key with
    | some value => .ok value
    | none       => .error <| .other "KeyError"
  | _ => .error <| .typeError "indices must be integers"

-- `value in names`, for a set of names
def inSet (names : List PyString) (value : Json) : Except PyError Bool :=
  match value with
  | .array _ | .object _ => .error <| .typeError "unhashable type"
  | value                => .ok <| names.any (isText value)

-- `value if isinstance(value, str) else ""`
def safeStr : Option Json → PyString
  | some (.string s) => s
  | _                => []

-- `body.get("result", {}) if isinstance(body, dict) else {}`
def resultOf : Json → Json
  | .object items => (get items "result").getD (.object [])
  | _             => .object []

end Values

def contractError (message : PyString) : Raised :=
  .gatewayMcpError "gateway_contract_error" message 502

def mcpError (message : PyString) : Raised :=
  .gatewayMcpError "gateway_mcp_error" message 502

def artifactError (message : PyString) : Raised :=
  .gatewayMcpError "gateway_artifact_error" message 502

structure GatewayState where
  gatewayUrl        : PyString
  gatewayAudience   : PyString
  artifactBucket    : PyString
  region            : PyString
  gatewayTargetName : PyString := "ImageApiTarget"

-- What `rpc_call` returns
structure Response where
  httpStatus : Int
  headers    : PyItems PyString
  body       : Json

section Checks

variable [Python] [Runtime]

def assertSuccess (response : Response) (label : PyString) : Except Raised Unit := do
  if 400 ≤ response.httpStatus then
    let status ← (Runtime.str (.int response.httpStatus)).mapError .python
    throw <| mcpError <| label ++ ofString " failed with HTTP " ++ status ++ ofString "."
  throwIf (get (asObject (some response.body)) "error").isSome <|
    mcpError <| label ++ ofString " returned a Gateway JSON-RPC error."

def GatewayMcp.headerValue (headers : PyItems PyString) (name : PyString) : Option PyString :=
  (headers.find? fun header => Python.lower header.1 = Python.lower name).map (·.2)

-- The names of the tools that are objects
def namesOf (tools : List Json) : List Json :=
  tools.filterMap fun tool =>
    match tool with
    | .object items => some <| (get items "name").getD (.string [])
    | _             => none

def toolNamesFromResponse (body : Json) : Except PyError (List Json) := do
  let tools ← getOf "tools" (resultOf body)
  return namesOf (← iterate <| tools.getD (.array []))

def toolName (target suffix : PyString) : PyString :=
  target ++ ofString "___" ++ suffix

def findTool (toolNames : List Json) (suffix target : PyString) : Except Raised PyString :=
  let expected := toolName target suffix
  if (toolNames.filter (isText · expected)).length ≠ 1 then
    .error <| contractError <| "Gateway tools/list did not expose exactly one " ++ expected ++ ofString "."
  else
    .ok expected

def assertOnlyAllowedTools (toolNames : List Json) (target : PyString) : Except Raised Unit := do
  let allowed := [toolName target "generate_image", toolName target "whoami_dnsid"]
  let expected ← (toolNames.mapM (inSet allowed)).mapError .python
  throwIf (expected.any (!·)) <| contractError "Gateway tools/list exposed unexpected tools."

-- The structured content of a result, where it is an object
def structuredContent (result : Json) : Except PyError (Option (PyItems Json)) := do
  if ← containsKey "structuredContent" result then
    match ← itemOf "structuredContent" result with
    | .object content => return some content
    | _               => return none
  else
    return none

-- The text of the first part of a result's content
def contentText (result : Json) : Except PyError (Option PyString) := do
  match ← getOf "content" result with
  | some (.array (.object first :: _)) =>
    match get first "text" with
    | some (.string text) => return some text
    | _                   => return none
  | _ => return none

-- `except json.JSONDecodeError`
def textNotJson : PyError → Raised
  | .jsonDecodeError _ => contractError "Tool response text was not JSON."
  | e                  => .python e

def parsedText (text : PyString) : Except Raised (Option (PyItems Json)) := do
  match ← (Python.loads text).mapError textNotJson with
  | .object parsed => return some parsed
  | _              => return none

def extractToolJson (body : Json) : Except Raised (PyItems Json) := do
  let result := resultOf body
  match ← (structuredContent result).mapError .python with
  | some content => return content
  | none         =>
    let text ← (contentText result).mapError .python
    match ← text.elim (pure none) parsedText with
    | some parsed => return parsed
    | none        =>
      match result with
      | .object items => return items
      | _             => throw <| contractError "Tool response did not include JSON content."

def assertExpectedSub (body : PyItems Json) (expectedSub label : PyString) : Except Raised Unit :=
  throwIf (¬(get body "sub").any (isText · expectedSub)) <|
    contractError <| label ++ ofString " did not return the expected DNSid subject."

def requiredBody (body : PyItems Json) (key : PyString) : Except Raised PyString :=
  let value := safeStr (get body key)
  if value = [] then
    .error <| contractError <| "Gateway generate_image response missing " ++ key ++ ofString "."
  else
    .ok value

-- A `bool` is an `int`.
def requiredInt (body : PyItems Json) (key : PyString) : Except Raised Int :=
  match get body key with
  | some (.int n)  => .ok n
  | some (.bool b) => .ok <| if b then 1 else 0
  | _              =>
    .error <| contractError <| "Gateway generate_image response missing numeric " ++ key ++ ofString "."

end Checks

section Artifacts

variable [Python] [Runtime]

-- How the network fails
inductive OpenError
  | httpError (code : Int)
  | urlError
  | osError

-- What `open_url` opens: where it ended up, the content type and the bytes that are read.
structure Opened where
  finalUrl    : PyString
  contentType : PyString
  data        : List UInt8

abbrev OpenUrl := PyString → Except OpenError Opened

def maxArtifactBytes : Nat :=
  16 * 1024 * 1024

def virtualHosts (state : GatewayState) : List PyString := [
  state.artifactBucket ++ ofString ".s3.amazonaws.com",
  state.artifactBucket ++ ofString ".s3." ++ state.region ++ ofString ".amazonaws.com",
  state.artifactBucket ++ ofString ".s3-" ++ state.region ++ ofString ".amazonaws.com"
]

def pathHosts (state : GatewayState) : List PyString := [
  "s3.amazonaws.com",
  ofString "s3." ++ state.region ++ ofString ".amazonaws.com",
  ofString "s3-" ++ state.region ++ ofString ".amazonaws.com"
]

def validateArtifactUrl (url : PyString) (state : GatewayState) : Except Raised Unit := do
  let parsed ← (Runtime.urlparse url).mapError .python
  throwIf (parsed.scheme ≠ ofString "https" ∨ parsed.hostname.getD [] = []) <|
    contractError "Gateway artifact URL was not an allowed HTTPS S3 URL."
  let host := Python.lower (parsed.hostname.getD [])
  let bucketPath := ofString "/" ++ state.artifactBucket ++ ofString "/"
  throwIf (¬(host ∈ virtualHosts state ∨ host ∈ pathHosts state ∧ startswith parsed.path bucketPath)) <|
    contractError "Gateway artifact URL host was not allowed."

def isImageContent (contentType : PyString) (data : List UInt8) : Bool :=
  startswith (Python.lower contentType) "image/" ||
  [0x89, 0x50, 0x4E, 0x47, 0x0D, 0x0A, 0x1A, 0x0A].isPrefixOf data

def fetchRemoteArtifact (openUrl : OpenUrl) (state : GatewayState) (url : PyString) :
    Except Raised (List UInt8) := do
  validateArtifactUrl url state
  match openUrl url with
  | .error (.httpError code) =>
    let code ← (Runtime.str (.int code)).mapError .python
    throw <| artifactError <| "Gateway artifact fetch failed with HTTP " ++ code ++ ofString "."
  | .error _   => throw <| artifactError "Gateway artifact fetch failed."
  | .ok opened =>
    validateArtifactUrl opened.finalUrl state
    throwIf (maxArtifactBytes < opened.data.length) <|
      artifactError "Gateway artifact exceeded the local preview size limit."
    throwIf (¬isImageContent (opened.contentType.takeWhile (· ≠ 0x3B)) opened.data) <|
      artifactError "Gateway artifact was not an image."
    return opened.data

end Artifacts

structure GenerateRequest where
  prompt : PyString
  style  : PyString
  size   : PyString

-- What the client keeps of a generated image's description
structure ImageDetails where
  remoteArtifactId : PyString
  mimeType         : PyString
  width            : Int
  height           : Int
  modelId          : PyString
  modelRegion      : PyString
  requestId        : PyString
  correlationId    : PyString
  auditId          : PyString
  authMode         : PyString

structure GatewayGenerateResult extends ImageDetails where
  imageBytes          : List UInt8
  dnsidContext        : PyItems Json
  ignoredIdentityArgs : List PyString
  options             : PyItems Json

-- What `rpc_call` is called with
structure Call where
  payload   : Json
  token     : PyString
  sessionId : Option PyString

-- A client with what surrounds it: the token that is minted, the answers to its calls in their order,
-- and what the URLs of artifacts open.
structure GatewayMcpClient where
  state       : GatewayState
  expectedSub : PyString
  token       : PyString
  rpcCall     : Nat → Call → Response
  openUrl     : OpenUrl

namespace GatewayMcpClient

variable (client : GatewayMcpClient)

def initializeResponse : Response :=
  client.rpcCall 0 {
    payload := .object [
      ("jsonrpc", .string "2.0"), ("id", .string "init"), ("method", .string "initialize"),
      ("params", .object [
        ("protocolVersion", .string "2025-06-18"), ("capabilities", .object []),
        ("clientInfo", .object [
          ("name", .string "dnsid-image-poc-ui"), ("version", .string "0.1.0")
        ])
      ])
    ]
    token := client.token, sessionId := none
  }

def initializedResponse (sessionId : PyString) : Response :=
  client.rpcCall 1 {
    payload := .object [
      ("jsonrpc", .string "2.0"), ("method", .string "notifications/initialized")
    ]
    token := client.token, sessionId
  }

def toolsResponse (sessionId : PyString) : Response :=
  client.rpcCall 2 {
    payload := .object [
      ("jsonrpc", .string "2.0"), ("id", .string "tools"), ("method", .string "tools/list")
    ]
    token := client.token, sessionId
  }

def callResponse (number : Nat) (sessionId toolName : PyString) (arguments : PyItems Json) : Response :=
  client.rpcCall number {
    payload := .object [
      ("jsonrpc", .string "2.0"), ("id", .string toolName), ("method", .string "tools/call"),
      ("params", .object [("name", .string toolName), ("arguments", .object arguments)])
    ]
    token := client.token, sessionId
  }

variable [Python] [Runtime]

def initializeSession : Except Raised PyString := do
  assertSuccess client.initializeResponse "initialize"
  match GatewayMcp.headerValue client.initializeResponse.headers "mcp-session-id" with
  | some (c :: sessionId) =>
    throwIf (400 ≤ (client.initializedResponse (c :: sessionId)).httpStatus) <|
      mcpError "Gateway rejected MCP initialized notification."
    return c :: sessionId
  | _ => throw <| mcpError "Gateway did not return an MCP session ID."

def listTools (sessionId : PyString) : Except Raised (List Json) := do
  let response := client.toolsResponse sessionId
  assertSuccess response "tools/list"
  let toolNames ← (toolNamesFromResponse response.body).mapError .python
  assertOnlyAllowedTools toolNames client.state.gatewayTargetName
  return toolNames

def callTool (number : Nat) (sessionId toolName : PyString) (arguments : PyItems Json) :
    Except Raised Response := do
  let response := client.callResponse number sessionId toolName arguments
  assertSuccess response <| "tools/call " ++ toolName
  return response

def imageDetails (body : PyItems Json) : Except Raised ImageDetails := do
  let remoteArtifactId ← requiredBody body "artifact_id"
  let mimeType ← requiredBody body "mime_type"
  let width ← requiredInt body "width"
  let height ← requiredInt body "height"
  let modelId ← requiredBody body "model_id"
  let modelRegion ← requiredBody body "model_region"
  let requestId ← requiredBody body "request_id"
  let correlationId ← requiredBody body "correlation_id"
  let auditId ← requiredBody body "audit_id"
  let authMode ← requiredBody body "auth_mode"
  return {
    remoteArtifactId, mimeType, width, height, modelId, modelRegion, requestId, correlationId,
    auditId, authMode
  }

def ignoredArgs (body : PyItems Json) : List Json :=
  match get body "ignored_identity_args" with
  | some (.array ignored) => ignored
  | _                     => []

def resultFromBody (body : PyItems Json) : Except Raised GatewayGenerateResult := do
  match get body "ok" with
  | some (.bool true) =>
    match get body "dnsid_context" with
    | some (.object context) =>
      assertExpectedSub context client.expectedSub "generate_image"
      let artifactUrl := safeStr (get body "artifact_url")
      throwIf (artifactUrl = []) <|
        contractError "Gateway generate_image response did not include an artifact URL."
      let imageBytes ← fetchRemoteArtifact client.openUrl client.state artifactUrl
      let details ← imageDetails body
      let ignoredIdentityArgs ← ((ignoredArgs body).mapM Runtime.str).mapError .python
      return {
        details with
        imageBytes, dnsidContext := context, ignoredIdentityArgs
        options := asObject (get body "options")
      }
    | _ => throw <|
      contractError "Gateway generate_image response did not include DNSid context."
  | _ => throw <| contractError "Gateway generate_image response did not report ok=true."

def generateImage (request : GenerateRequest) : Except Raised GatewayGenerateResult := do
  let target := client.state.gatewayTargetName
  let sessionId ← client.initializeSession
  let toolNames ← client.listTools sessionId
  let generateTool ← findTool toolNames "generate_image" target
  let whoamiTool ← findTool toolNames "whoami_dnsid" target
  let whoami ← client.callTool 3 sessionId whoamiTool []
  let whoamiBody ← extractToolJson whoami.body
  assertExpectedSub whoamiBody client.expectedSub "whoami_dnsid"
  let generated ← client.callTool 4 sessionId generateTool [
    ("prompt", .string request.prompt), ("style", .string request.style),
    ("size", .string request.size)
  ]
  let generatedBody ← extractToolJson generated.body
  client.resultFromBody generatedBody

end GatewayMcpClient

end ImagePoc

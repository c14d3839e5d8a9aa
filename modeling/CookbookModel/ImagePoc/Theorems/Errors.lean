import CookbookModel.ImagePoc.GatewayMcp
import CookbookModel.Orders.Target

namespace ImagePoc

open PyString Json PyItems
open Interceptor (isText)

section

variable [Python] [Runtime] {α β : Type} {x : Except Raised α} {f : α → Except Raised β}

section Safe

omit [Python] [Runtime]

end Safe

section Statuses

variable {response : Response} {label : PyString}

structure Succeeds (response : Response) : Prop where
  status  : response.httpStatus < 400
  noError : get (asObject (some response.body)) "error" = none

-- A status that is an error can be written.
def Shown (response : Response) : Prop :=
  400 ≤ response.httpStatus → ∃ text, Runtime.str (.int response.httpStatus) = .ok text

end Statuses

section Tools

variable {body : Json} {names : List Json} {target suffix name : PyString} {allowed : List PyString}

-- Nothing but the two tools
def Allowed (target : PyString) (names : List Json) : Prop :=
  ∀ name ∈ names, name = .string (toolName target "generate_image") ∨
    name = .string (toolName target "whoami_dnsid")

-- Each of the two tools once, and nothing else
structure Exposed (target : PyString) (names : List Json) : Prop where
  allowed  : Allowed target names
  generate : (names.filter (isText · (toolName target "generate_image"))).length = 1
  whoami   : (names.filter (isText · (toolName target "whoami_dnsid"))).length = 1

omit [Python] [Runtime]

end Tools

section Results

variable {body : Json} {items : PyItems Json} {text sub label key : PyString}

omit [Python] [Runtime]

variable [Python]

-- An answer to a call of a tool, and what it holds
structure Answers (response : Response) (content : PyItems Json) : Prop where
  succeeds : Succeeds response
  content  : extractToolJson response.body = .ok content

end Results

section Artifacts

variable {openUrl : OpenUrl} {state : GatewayState} {url key : PyString} {body : PyItems Json}

omit [Python] [Runtime]

end Artifacts

namespace GatewayMcpClient

variable {client : GatewayMcpClient} {request : GenerateRequest} {result : GatewayGenerateResult}
variable {body context : PyItems Json} {sub label : PyString}

section

omit [Python] [Runtime]

end

section Calls

variable {sessionId name : PyString} {names : List Json} {number : Nat} {arguments : PyItems Json}
variable {response : Response}

-- The session that is opened
structure Opens (client : GatewayMcpClient) (sessionId : PyString) : Prop where
  succeeds : Succeeds client.initializeResponse
  named    : GatewayMcp.headerValue client.initializeResponse.headers "mcp-session-id" = some sessionId
  nonempty : sessionId ≠ []
  accepted : (client.initializedResponse sessionId).httpStatus < 400

-- The tools that a session lists, which are the two that are called
structure Lists (client : GatewayMcpClient) (sessionId : PyString) (names : List Json) : Prop where
  succeeds : Succeeds (client.toolsResponse sessionId)
  listed   : toolNamesFromResponse (client.toolsResponse sessionId).body = .ok names
  exposed  : Exposed client.state.gatewayTargetName names

omit [Python]

end Calls

-- What is left to do
def generate (client : GatewayMcpClient) (request : GenerateRequest) (sessionId tool : PyString) :
    Except Raised GatewayGenerateResult := do
  let generated ← client.callTool 4 sessionId tool [
    ("prompt", .string request.prompt), ("style", .string request.style),
    ("size", .string request.size)
  ]
  client.resultFromBody (← extractToolJson generated.body)

def ask (client : GatewayMcpClient) (request : GenerateRequest)
    (sessionId generateTool whoamiTool : PyString) : Except Raised GatewayGenerateResult := do
  let whoami ← client.callTool 3 sessionId whoamiTool []
  let whoamiBody ← extractToolJson whoami.body
  assertExpectedSub whoamiBody client.expectedSub "whoami_dnsid"
  client.generate request sessionId generateTool

def list (client : GatewayMcpClient) (request : GenerateRequest) (sessionId : PyString) :
    Except Raised GatewayGenerateResult := do
  let target := client.state.gatewayTargetName
  let toolNames ← client.listTools sessionId
  let generateTool ← findTool toolNames "generate_image" target
  let whoamiTool ← findTool toolNames "whoami_dnsid" target
  client.ask request sessionId generateTool whoamiTool

-- How far the client has come
inductive Stage
  | opening
  | listing (sessionId : PyString)
  | asking (sessionId : PyString)
  | generating (sessionId : PyString)
  | reading (body : PyItems Json)

-- The stages that may still come
def Stage.left : Stage → Nat
  | .opening      => 4
  | .listing _    => 3
  | .asking _     => 2
  | .generating _ => 1
  | .reading _    => 0

-- What is left to do from a stage on
def rest (client : GatewayMcpClient) (request : GenerateRequest) :
    Stage → Except Raised GatewayGenerateResult
  | .opening              => client.generateImage request
  | .listing sessionId    => client.list request sessionId
  | .asking sessionId     =>
    client.ask request sessionId (toolName client.state.gatewayTargetName "generate_image")
      (toolName client.state.gatewayTargetName "whoami_dnsid")
  | .generating sessionId =>
    client.generate request sessionId (toolName client.state.gatewayTargetName "generate_image")
  | .reading body         => client.resultFromBody body

end GatewayMcpClient

end

namespace GatewayMcpClient

-- A gateway whose answer to `tools/list` has a result that is `null`
namespace Sample

@[reducible]
def runtime : Runtime where
  str
    | .int n => .ok <| toString n
    | _      => .error <| .valueError []
  urlparse url := .ok ⟨[], none, url⟩

def client : GatewayMcpClient where
  state := {
    gatewayUrl      := "https://gateway.test/mcp"
    gatewayAudience := "https://gateway.test/mcp"
    artifactBucket  := "images"
    region          := "us-east-1"
  }
  expectedSub := "agent.test"
  token       := "header.payload.signature"
  rpcCall
    | 0, _ => ⟨200, [("Mcp-Session-Id", "session-1")], .object [("result", .object [])]⟩
    | 1, _ => ⟨202, [], .object []⟩
    | _, _ => ⟨200, [], .object [("result", .null)]⟩
  openUrl _ := .error .urlError

def request : GenerateRequest :=
  ⟨"a lighthouse", "photo", "square"⟩

end Sample

attribute [local instance] Orders.Sample.python Sample.runtime

end GatewayMcpClient

end ImagePoc

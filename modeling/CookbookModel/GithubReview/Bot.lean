import CookbookModel.Library.Json.Loads
import CookbookModel.Library.Program
import CookbookModel.Library.PyText

namespace GithubReview

open PyString PyItems
open Json (isDigit)

-- The variables of `os.environ` that the bot reads
structure Environment where
  botDomain             : Option PyString
  dnsidServer           : Option PyString
  dnsidConfigDir        : Option PyString
  gatewayReviewUrl      : Option PyString
  reviewGatewayMcpUrl   : Option PyString
  reviewGatewayAudience : Option PyString
  auditEndpoint         : Option PyString

-- An exception, with the texts that the bot makes of it.
inductive Raised
  | githubException (status data text : PyString)
  | httpError (text : PyString)
  | runtimeError (text : PyString)
  | valueError (text : PyString)
  | other (text : PyString)
  deriving DecidableEq

-- `str(e)`
def Raised.text : Raised → PyString
  | githubException _ _ text => text
  | httpError text           => text
  | runtimeError text        => text
  | valueError text          => text
  | other text               => text

structure PullRequest where
  title : PyString
  login : PyString
  base  : PyString
  head  : PyString
  body  : Option PyString

structure File where
  filename  : PyString
  additions : Int
  deletions : Int
  patch     : Option PyString

-- What the bot asks of its surroundings: the GitHub App, `get_repo(...).get_pull(...)` with its
-- files and its comments, the SDK for a token, and the two ways to record an audit.
inductive Op
  | githubIntegration
  | getRepoInstallation (owner repo : PyString)
  | getAccessToken (installation : Int)
  | getPull (token fullName : PyString) (number : Nat)
  | getFiles (token fullName : PyString) (number : Nat)
  | createIssueComment (token fullName : PyString) (number : Nat) (body : PyString)
  | mintDnsidToken (audience expectedDomain serverUrl configDir : PyString)
  | postAudit (endpoint prUrl summary : PyString) (authorization : Option PyString)
  | callToolSync (gatewayUrl prUrl summary : PyString) (authorization : Option PyString)

@[reducible]
def Op.Answer : Op → Type
  | githubIntegration      => Unit
  | getRepoInstallation .. => Int
  | getAccessToken _       => PyString
  | getPull ..             => PullRequest
  | getFiles ..            => List File
  | createIssueComment ..  => Unit
  | mintDnsidToken ..      => PyString
  | postAudit ..           => PyString
  | callToolSync ..        => PyString

@[reducible]
def Op.Res (o : Op) : Type :=
  Except Raised o.Answer

abbrev BotM := Program Op Op.Res Raised

def request (o : Op) : BotM o.Answer := do
  .ofExcept (← Program.perform o)

-- `os.environ.get(name, "")`
def environ (value : Option PyString) : PyString :=
  value.getD []

-- `text.rstrip("/")`
def rstripSlash (text : PyString) : PyString :=
  text.rdropWhile (· = 0x2F)

def getDnsidToken (env : Environment) (audience : PyString) : BotM PyString := do
  let botDomain := strip (environ env.botDomain)
  throwIf (botDomain = []) <| .runtimeError "BOT_DOMAIN not set"
  let server := rstripSlash <| env.dnsidServer.getD "https://api.dnsid.ai"
  request <| .mintDnsidToken audience botDomain server (strip (environ env.dnsidConfigDir))

def githubClient (owner repo : PyString) : BotM PyString := do
  request .githubIntegration
  request <| .getAccessToken (← request <| .getRepoInstallation owner repo)

-- `except GithubException as e`
def githubError : Raised → BotM PyString
  | .githubException status data _ => return "GitHub error: " ++ status ++ ofString " " ++ data
  | e                              => throw e

def fullName (owner repo : PyString) : PyString :=
  owner ++ 0x2F :: repo

def filePart (f : File) : List PyString :=
  let header := "--- " ++ f.filename ++ ofString " (+" ++ Json.decimal f.additions ++
    ofString " -" ++ Json.decimal f.deletions ++ ofString ")"
  header :: (f.patch.filter (· ≠ [])).toList

def getPrDiff (owner repo : PyString) (number : Nat) : BotM PyString := do
  let gh ← githubClient owner repo
  tryCatch (do
    let pr ← request <| .getPull gh (fullName owner repo) number
    let files ← request <| .getFiles gh (fullName owner repo) number
    let title := "PR #" ++ Json.decimal number ++ ofString ": " ++ pr.title ++ ofString "\n"
    return (join (ofString "\n") (title :: files.flatMap filePart)).take 32768)
    githubError

def getPrMetadata (owner repo : PyString) (number : Nat) : BotM PyString := do
  let gh ← githubClient owner repo
  tryCatch (do
    let pr ← request <| .getPull gh (fullName owner repo) number
    return "Title: " ++ pr.title ++ ofString "\nAuthor: " ++ pr.login ++ ofString "\nBase: " ++
      pr.base ++ ofString " ← Head: " ++ pr.head ++ ofString "\nDescription:\n" ++
      (pr.body.filter (· ≠ [])).getD "(none)")
    githubError

def attribution (env : Environment) : PyString :=
  let botDomain := environ env.botDomain
  if botDomain = [] then []
  else
    "\n\n---\n*Reviewed by \x60" ++ botDomain ++
      ofString "\x60 — [verify identity](https://app.dnsid.ai/v1/status/" ++ botDomain ++
      ofString ")*"

def postReviewComment (env : Environment) (owner repo : PyString) (number : Nat) (body : PyString) :
    BotM PyString := do
  let gh ← githubClient owner repo
  tryCatch (do
    let _ ← request <| .getPull gh (fullName owner repo) number
    request <| .createIssueComment gh (fullName owner repo) number (body ++ attribution env)
    return "Review posted on PR #" ++ Json.decimal number)
    githubError

-- `{"Authorization": f"Bearer {token}"} if token else {}`
def authorization (token : PyString) : Option PyString :=
  if token = [] then none else some <| "Bearer " ++ token

def auditViaGateway (env : Environment) (gatewayUrl prUrl summary : PyString) : BotM PyString := do
  let audience := strip (environ env.reviewGatewayAudience)
  throwIf (audience = []) <|
    .runtimeError "REVIEW_GATEWAY_AUDIENCE must be set for gateway audit"
  let token ← getDnsidToken env audience
  tryCatch (do
    let result ← request <| .callToolSync gatewayUrl prUrl summary (authorization token)
    return "Audit recorded via gateway: " ++ result)
    fun e => return "Gateway audit error: " ++ e.text

-- `os.environ.get(...) or os.environ.get(..., "")`
def gatewayUrl (env : Environment) : PyString :=
  (env.gatewayReviewUrl.filter (· ≠ [])).getD (environ env.reviewGatewayMcpUrl)

-- `except httpx.HTTPError as e`
def auditError : Raised → BotM PyString
  | .httpError text => return "Audit error: " ++ text
  | e               => throw e

def auditReview (env : Environment) (prUrl summary : PyString) : BotM PyString :=
  if gatewayUrl env ≠ [] then auditViaGateway env (gatewayUrl env) prUrl summary
  else if environ env.auditEndpoint = [] then
    return "Neither REVIEW_GATEWAY_MCP_URL nor AUDIT_ENDPOINT configured — skipping audit"
  else do
    let endpoint := environ env.auditEndpoint
    let token ← getDnsidToken env endpoint
    tryCatch (do
      let id ← request <| .postAudit endpoint prUrl summary (authorization token)
      return "Audit recorded: " ++ id)
      auditError

-- A call that the agent passes on to one of its tools.
inductive ToolUse
  | fetchPrDiff
  | fetchPrMetadata
  | postReviewComment (body : PyString)
  | auditReview (summary : PyString)

def prUrl (owner repo : PyString) (number : Nat) : PyString :=
  "https://github.com/" ++ owner ++ ofString "/" ++ repo ++ ofString "/pull/" ++ Json.decimal number

def toolsForPr (env : Environment) (owner repo : PyString) (number : Nat) : ToolUse → BotM PyString
  | .fetchPrDiff            => getPrDiff owner repo number
  | .fetchPrMetadata        => getPrMetadata owner repo number
  | .postReviewComment body => postReviewComment env owner repo number body
  | .auditReview summary    => auditReview env (prUrl owner repo number) summary

-- An agent that has been given a prompt. What it does with its tools, and with what they return or
-- raise, is up to the model.
abbrev Agent := PyString → Program ToolUse (fun _ => Except Raised PyString) Raised PyString

def serve (tools : ToolUse → BotM PyString) :
    Program ToolUse (fun _ => Except Raised PyString) Raised PyString → BotM PyString
  | .done r     => .done r
  | .call use k => Program.bind (tools use).attempt fun result => serve tools (k result)

-- `[A-Za-z0-9_.-]`
def isNameChar (c : CodePoint) : Bool :=
  isDigit c || (0x41 ≤ c.val && c.val ≤ 0x5A) || (0x61 ≤ c.val && c.val ≤ 0x7A) || c = 0x5F ||
  c = 0x2E || c = 0x2D

-- The groups of the pattern that a prompt has to match
structure Target where
  number : PyString
  owner  : PyString
  repo   : PyString
  deriving DecidableEq

-- `Review PR #([1-9][0-9]*) in ([A-Za-z0-9_.-]+)/([A-Za-z0-9_.-]+)`
def fullmatch (s : PyString) : Option Target := do
  let s ← (ofString "Review PR #").isPrefixOf? s
  let number := s.takeWhile isDigit
  let s ← (ofString " in ").isPrefixOf? (s.dropWhile isDigit)
  let owner := s.takeWhile isNameChar
  let repo ← [0x2F].isPrefixOf? (s.dropWhile isNameChar)
  if number.head?.any (· ≠ 0x30) ∧ owner ≠ [] ∧ repo ≠ [] ∧ repo.all isNameChar then
    some { number, owner, repo }
  else none

-- `int(digits)`, which refuses more than 4300 digits.
def int (digits : PyString) : BotM Nat := do
  throwIf (4300 < digits.length) <| .valueError <|
    "Exceeds the limit (4300 digits) for integer string conversion: value has " ++
      Json.decimal digits.length ++
      ofString " digits; use sys.set_int_max_str_digits() to increase the limit"
  return Json.natural digits

inductive Reply
  | error (text : PyString)
  | result (message : PyString)

-- `payload.get("prompt", "")`, if it is a string.
def promptOf (payload : PyItems Json) : PyString :=
  match get payload "prompt" with
  | some (.string prompt) => prompt
  | _                     => []

def invoke (env : Environment) (agent : Agent) (payload : PyItems Json) : BotM Reply := do
  match fullmatch (strip (promptOf payload)) with
  | none        => return .error "prompt must be: Review PR #N in owner/repo"
  | some target =>
    let number ← int target.number
    let tools := toolsForPr env target.owner target.repo number
    return .result (← serve tools (agent (promptOf payload)))

end GithubReview

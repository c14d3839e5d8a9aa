import CookbookModel.Orders.Interceptor

namespace Orders

open PyString Json PyItems

variable [Python]

-- The keyword arguments of `sign_action`.
structure Action where
  subject   : PyString
  audience  : PyString
  tokenJti  : PyString
  sessionId : PyString
  toolName  : PyString
  arguments : PyItems Json

-- The payload that is signed, with the time of the clock and a nonce.
def Action.payload (action : Action) (timestamp : Int) (nonce : PyString) :
    Except PyError ActionPayload := do
  let tokenJtiHash ← sha256 action.tokenJti
  let sessionHash ← sha256 action.sessionId
  return {
    subject := action.subject, audience := action.audience, tokenJtiHash,
    toolName := action.toolName, argumentsHash := argumentsHash action.arguments, sessionHash,
    timestamp, nonce
  }

end Orders

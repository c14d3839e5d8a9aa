import CookbookModel.Library.GoMap
import CookbookModel.Library.GoString
import CookbookModel.Library.System

namespace Stripe

open GoString

-- What the accounts hold. An account that is not listed holds nothing.
abbrev Ledger := GoMap GoString Int64

def maxInt64 : Int64 := Int64.maxValue

def Ledger.get (l : Ledger) (account : GoString) : Int64 :=
  l[account]?.getD 0

def Ledger.credit (l : Ledger) (account : GoString) (amount : Int64) : Option Int64 × Ledger :=
  if l.get account > maxInt64 - amount then (none, l)
  else (some (l.get account + amount), l.set account (l.get account + amount))

def book : Ledger :=
  GoMap.set ∅ (ofString "acct_demo") 1000

-- The steps of a request. The SDK verifies it, and the ledger is locked for each of its methods.
inductive Op
  | verifyHTTPRequest
  | get (account : GoString)
  | credit (account : GoString) (amount : Int64)

@[reducible]
def Op.Res : Op → Type
  | verifyHTTPRequest => Except GoString GoString
  | get _             => Int64
  | credit _ _        => Option Int64

structure Response where
  status : Nat
  body   : GoString
  deriving DecidableEq

-- A balance that is sent, and to whom.
structure Balance where
  account : GoString
  balance : Int64
  caller  : GoString
  deriving DecidableEq

-- What is sent with `http.Error`, or the balance that is sent as JSON.
abbrev Handler := Program Op Op.Res Response

structure CreditBody where
  account : GoString
  amount  : Int64
  deriving DecidableEq

-- A request below `/v1/`, by the handler that the mux finds for it, with what the handler reads:
-- the account in the query, and what the JSON decoder makes of the body. Other requests do not get
-- further than the mux.
inductive Request
  | balance (account : GoString)
  | credit (body : Option CreditBody)
  | other (answer : Response)

def balance (caller account : GoString) : Handler Balance := do
  let account : GoString := if account = [] then "acct_demo" else account
  return { account, balance := ← Program.perform (Op.get account), caller }

def credit (writers : List GoString) (caller : GoString) (body : Option CreditBody) :
    Handler Balance := do
  throwIf (caller ∉ writers) ⟨403, "verified caller is not authorized to credit"⟩
  match body.filter fun body => body.account ≠ [] ∧ ¬body.amount ≤ 0 with
  | none      => throw ⟨400, "account and a positive amount are required"⟩
  | some body =>
    match ← Program.perform (Op.credit body.account body.amount) with
    | none         => throw ⟨400, "credit would overflow balance"⟩
    | some balance => return { account := body.account, balance, caller }

def api (writers : List GoString) (caller : GoString) : Request → Handler Balance
  | .balance account => balance caller account
  | .credit body     => credit writers caller body
  | .other answer    => throw answer

def authenticate (next : GoString → Handler Balance) : Handler Balance := do
  match ← Program.perform Op.verifyHTTPRequest with
  | .error _   => throw ⟨401, "valid DNSid HTTP signature required"⟩
  | .ok caller => next caller

-- One step of a request. The outcome is the verdict of the SDK.
def exec : (o : Op) → Except GoString GoString → Ledger → o.Res × Ledger
  | .verifyHTTPRequest, verdict, l => (verdict, l)
  | .get account, _, l             => (l.get account, l)
  | .credit account amount, _, l   => l.credit account amount

-- Any number of requests that are served at the same time.
def system (writers : List GoString) :
    System Op Op.Res Response Balance Ledger (Except GoString GoString) Request where
  init   := book
  body r := authenticate fun caller => api writers caller r
  exec   := exec
  may    := fun _ _ _ => true

end Stripe

import CookbookModel.A2a.AgentCard
import CookbookModel.Library.Json.RoundTrip

namespace A2a

open PyString Json PyItems

variable {v w : Json} {items : List Json} {members : PyItems Json}
  {parseFloat : PyString → PyString}

mutual

-- A value without the entries of its objects, at every depth, that have no value
def withoutNone : Json → Json
  | .array items    => .array (withoutNoneItems items)
  | .object members => .object (withoutNoneEntries members)
  | v               => v

def withoutNoneItems : List Json → List Json
  | []      => []
  | v :: vs => withoutNone v :: withoutNoneItems vs

def withoutNoneEntries : List (PyString × Json) → List (PyString × Json)
  | []               => []
  | (_, .null) :: ms => withoutNoneEntries ms
  | (key, v) :: ms   => (key, withoutNone v) :: withoutNoneEntries ms

end

section Cards

variable {cardDict cardDict' : PyItems Json}

-- The content of a card is what it holds besides its signatures.
def content (cardDict : PyItems Json) : Json :=
  withoutNone (.object (pop cardDict "signatures"))

variable {Card : Type} {messageToDict : Card → Except PyError (PyItems Json)} {card card' : Card}

end Cards

namespace Sample

def card : PyItems Json :=
  [("version", .string "1.0"), ("signatures", .array []), ("name", .string "Echo"), ("icon", .null)]

-- The card as it was before it was signed, with its entries in another order
def unsigned : PyItems Json :=
  [("name", .string "Echo"), ("version", .string "1.0")]

end Sample

end A2a

import CookbookModel.Library.Control
import CookbookModel.Library.Json

namespace A2a

open PyString Json PyItems

mutual

-- `_stable_json(obj)`
def stableJson : Json → PyString
  | .array items    => 0x5B :: commas (stableItems items) ++ [0x5D]
  | .object members => 0x7B :: Json.members (stableEntries members) ++ [0x7D]
  | v               => dumps v

def stableItems : List Json → List PyString
  | []      => []
  | v :: vs => stableJson v :: stableItems vs

-- The entries with a value other than `None`, each with the text of its value
def stableEntries : List (PyString × Json) → List (PyString × PyString)
  | []               => []
  | (_, .null) :: ms => stableEntries ms
  | (key, v) :: ms   => (key, stableJson v) :: stableEntries ms

end

-- `items.pop(key, None)`
def pop (items : PyItems Json) (key : PyString) : PyItems Json :=
  items.filter fun item => item.1 ≠ key

-- What is signed of a card that `MessageToDict` turns into a `dict`.
def payload (cardDict : PyItems Json) : Except PyError (List UInt8) :=
  match (stableJson <| .object <| pop cardDict "signatures").encode with
  | some bytes => .ok bytes
  | none       => .error <| .valueError "surrogates not allowed"

end A2a

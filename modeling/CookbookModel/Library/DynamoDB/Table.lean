import CookbookModel.Library.DynamoDB.Expression
import Mathlib.Data.Finset.Sort
import Mathlib.Data.Prod.Lex

namespace DynamoDB

open GoString

-- The primary key of an item: the values of its attributes `PK` and `SK`.
structure Key where
  pk : GoString
  sk : GoString
  deriving DecidableEq

abbrev Table := GoMap Key Item

-- An error of a request: a canceled transaction with the code of each item's reason, another API
-- error, or a failure outside the API.
inductive ApiError
  | transactionCanceled (reasons : List GoString)
  | api (code message : GoString)
  | other (text : GoString)
  deriving DecidableEq

def Key.item (key : Key) : Item :=
  (GoMap.set ∅ (ofString "PK") (.S key.pk)).set "SK" (.S key.sk)

def Item.key (item : Item) : Option Key :=
  match item[ofString "PK"]?, item[ofString "SK"]? with
  | some (.S pk), some (.S sk) => some ⟨pk, sk⟩
  | _, _                       => none

inductive Write
  | put (item : Item)
  | update (key : Key) (expression : GoString)
  | delete (key : Key)
  | conditionCheck (key : Key)
  deriving DecidableEq

def Write.key : Write → Option Key
  | put item           => item.key
  | update key _       => key
  | delete key         => key
  | conditionCheck key => key

-- An item of a transaction. An empty condition expression is none.
structure TransactWriteItem where
  write     : Write
  condition : GoString := []
  names     : List (GoString × GoString) := []
  values    : List (GoString × AttributeValue) := []
  deriving DecidableEq

namespace TransactWriteItem

def key (t : TransactWriteItem) : Option Key :=
  t.write.key

def writes (t : TransactWriteItem) : Bool :=
  match t.write with
  | .conditionCheck _ => false
  | _                 => true

def bindings (t : TransactWriteItem) : Bindings :=
  ⟨t.names, t.values⟩

def conditionHolds (t : TransactWriteItem) (old : Item) : Option Bool :=
  if t.condition = [] then some true
  else (Condition.parse t.condition).map (·.eval t.bindings old)

-- What the write makes of the item that is stored under the key. An update creates an item that
-- does not exist.
def written (t : TransactWriteItem) (key : Key) (old : Option Item) : Option (Option Item) :=
  match t.write with
  | .put item            => some (some item)
  | .update _ expression => do
    let assignments ← Assignment.parse expression
    return some (← Assignment.apply t.bindings (old.getD ∅) assignments (old.getD key.item))
  | .delete _            => some none
  | .conditionCheck _    => some old

-- What becomes of the item that is stored under the key, or the code of the reason why the
-- transaction is canceled.
def step (t : TransactWriteItem) (key : Key) (old : Option Item) : Except GoString (Option Item) :=
  match t.conditionHolds (old.getD ∅), t.written key old with
  | some true, some item => .ok item
  | some false, _        => .error "ConditionalCheckFailed"
  | _, _                 => .error "ValidationError"

def run (t : TransactWriteItem) (T : Table) : Except GoString (Key × Option Item) :=
  match t.key with
  | none     => .error "ValidationError"
  | some key => (t.step key T[key]?).map (key, ·)

def reason (t : TransactWriteItem) (T : Table) : GoString :=
  match t.run T with
  | .ok _       => "None"
  | .error code => code

end TransactWriteItem

namespace Table

-- All conditions and all written items are computed from the table before the transaction.
def transactWriteItems (T : Table) (items : List TransactWriteItem) : Except ApiError Table :=
  match items.mapM (·.run T) with
  | .ok writes => .ok <| writes.foldl (fun T (key, item) => T.store key item) T
  | .error _   => .error <| .transactionCanceled <| items.map (·.reason T)

end Table

-- A query of one partition. `limit` items are returned at most, in the order of their sort keys.
structure QueryInput where
  keyCondition      : GoString
  values            : List (GoString × AttributeValue)
  exclusiveStartKey : Option Key
  limit             : Nat
  scanIndexForward  : Bool
  deriving DecidableEq

structure QueryOutput where
  items            : List Item
  lastEvaluatedKey : Option Key

namespace QueryInput

def selects (q : QueryInput) (key : Key) (item : Item) : Bool :=
  (Condition.parse q.keyCondition).any (·.eval ⟨[], q.values⟩ item) &&
  q.exclusiveStartKey.all fun start =>
    if q.scanIndexForward then start.sk < key.sk else key.sk < start.sk

end QueryInput

namespace Table

-- The keys that a query selects are in one partition, so that their sort keys are in order.
def query (T : Table) (q : QueryInput) : QueryOutput :=
  let keys := T.keys.filter fun key => T[key]?.any (q.selects key)
  let sorted := (keys.image fun key => toLex (key.sk, key.pk)).sort (· ≤ ·)
  let ordered := (if q.scanIndexForward then sorted else sorted.reverse).map fun k =>
    (⟨(ofLex k).2, (ofLex k).1⟩ : Key)
  let page := ordered.take q.limit
  { items            := page.filterMap (T[·]?)
    lastEvaluatedKey := if page.length = q.limit then page.getLast? else none }

end Table

-- The static validation of a request: the placeholders of each item are those that are bound, and
-- no two items have the same key.
section Validation

def TransactWriteItem.expressions (t : TransactWriteItem) : List GoString :=
  match t.write with
  | .update _ expression => [t.condition, expression]
  | _                    => [t.condition]

def TransactWriteItem.bound (t : TransactWriteItem) : List GoString :=
  t.names.map (·.1) ++ t.values.map (·.1)

def TransactWriteItem.used (t : TransactWriteItem) : List GoString :=
  t.expressions.flatMap fun e => placeholders 0x23 e ++ placeholders 0x3A e

def TransactWriteItem.WellFormed (t : TransactWriteItem) : Prop :=
  t.used ⊆ t.bound ∧ t.bound ⊆ t.used

def WellFormed (items : List TransactWriteItem) : Prop :=
  (∀ t ∈ items, t.WellFormed) ∧ (items.map (·.key)).Nodup

instance (t : TransactWriteItem) : Decidable t.WellFormed :=
  inferInstanceAs <| Decidable (_ ∧ _)

instance (items : List TransactWriteItem) : Decidable (WellFormed items) :=
  inferInstanceAs <| Decidable (_ ∧ _)

end Validation

end DynamoDB

import CookbookModel.Library.GoMap
import CookbookModel.Library.GoString
import Mathlib.Data.List.Basic
import Mathlib.Order.Basic

namespace DynamoDB

open GoString

-- Numbers are whole numbers, and lists are lists of strings.
inductive AttributeValue
  | S (value : GoString)
  | N (value : Int)
  | BOOL (value : Bool)
  | L (values : List GoString)
  deriving DecidableEq

abbrev Item := GoMap GoString AttributeValue

-- What an expression's placeholders stand for: `ExpressionAttributeNames` and
-- `ExpressionAttributeValues`.
structure Bindings where
  names  : List (GoString × GoString)
  values : List (GoString × AttributeValue)

-- The lexer: a token is a longest run of word characters, which may start with `#` or `:`, a longest
-- run of comparison characters, or any other single character.
section Tokens

def isWordByte (b : UInt8) : Bool :=
  (0x61 ≤ b && b ≤ 0x7A) || (0x41 ≤ b && b ≤ 0x5A) || (0x30 ≤ b && b ≤ 0x39) || b = 0x5F

-- `<`, `=` and `>`
def isComparisonByte (b : UInt8) : Bool :=
  0x3C ≤ b && b ≤ 0x3E

-- `#` and `:`
def isMarkByte (b : UInt8) : Bool :=
  b = 0x23 || b = 0x3A

def continues (token : GoString) (b : UInt8) : Bool :=
  match token.getLast? with
  | none   => true
  | some a => (isWordByte b && (isWordByte a || isMarkByte a)) ||
      (isComparisonByte b && isComparisonByte a)

def tokensFrom (token : GoString) : GoString → List GoString
  | [] => if token = [] then [] else [token]
  | b :: s =>
    if b = 0x20 then
      if token = [] then tokensFrom [] s else token :: tokensFrom [] s
    else if continues token b then
      tokensFrom (token ++ [b]) s
    else
      token :: tokensFrom [b] s

def tokens (expression : GoString) : List GoString :=
  tokensFrom [] expression

-- The placeholders for names, with `mark` `#`, or for values, with `mark` `:`, in an expression.
def placeholders (mark : UInt8) (expression : GoString) : List GoString :=
  (tokens expression).filter (·.head? = some mark)

end Tokens

inductive Path
  | name (n : GoString)
  | placeholder (p : GoString)
  deriving DecidableEq

inductive Operand
  | path (p : Path)
  | value (placeholder : GoString)
  deriving DecidableEq

inductive Comparator
  | eq
  | ne
  | lt
  | le
  | gt
  | ge
  deriving DecidableEq

inductive Condition
  | attributeExists (p : Path)
  | attributeNotExists (p : Path)
  | beginsWith (p : Path) (o : Operand)
  | compare (c : Comparator) (o₁ o₂ : Operand)
  | between (o low high : Operand)
  | not (c : Condition)
  | and (c₁ c₂ : Condition)
  | or (c₁ c₂ : Condition)
  deriving DecidableEq

namespace Path

def parse (token : GoString) : Option Path :=
  match token with
  | []     => none
  | b :: _ =>
    if b = 0x23 then some (.placeholder token)
    else if isWordByte b then some (.name token)
    else none

def resolve (bindings : Bindings) : Path → Option GoString
  | name n        => some n
  | placeholder p  => bindings.names.lookup p

def get (bindings : Bindings) (item : Item) (p : Path) : Option AttributeValue :=
  (p.resolve bindings).bind (item[·]?)

end Path

namespace Operand

def parse (token : GoString) : Option Operand :=
  if token.head? = some 0x3A then some (.value token) else (Path.parse token).map .path

def get (bindings : Bindings) (item : Item) : Operand → Option AttributeValue
  | path p            => p.get bindings item
  | value placeholder => bindings.values.lookup placeholder

end Operand

namespace Comparator

def parse (token : GoString) : Option Comparator :=
  [(ofString "=", eq), ("<>", ne), ("<", lt), ("<=", le), (">", gt), (">=", ge)].lookup token

-- Values of different types are not ordered, and no value is equal to one that does not exist.
def holds : Comparator → Option AttributeValue → Option AttributeValue → Bool
  | eq, some a, some b           => a = b
  | eq, _, _                     => false
  | ne, some a, some b           => a ≠ b
  | ne, _, _                     => true
  | lt, some (.N a), some (.N b) => a < b
  | lt, some (.S a), some (.S b) => a < b
  | le, some (.N a), some (.N b) => a ≤ b
  | le, some (.S a), some (.S b) => a ≤ b
  | gt, some (.N a), some (.N b) => a > b
  | gt, some (.S a), some (.S b) => a > b
  | ge, some (.N a), some (.N b) => a ≥ b
  | ge, some (.S a), some (.S b) => a ≥ b
  | _, _, _                      => false

@[simp]
theorem holds_eq (a b : AttributeValue) : eq.holds (some a) (some b) = decide (a = b) :=
  rfl

@[simp]
theorem holds_eq_none (b : Option AttributeValue) : eq.holds none b = false := by
  cases b <;> rfl

@[simp]
theorem holds_ne (a b : AttributeValue) : ne.holds (some a) (some b) = decide (a ≠ b) :=
  rfl

@[simp]
theorem holds_lt (a b : Int) : lt.holds (some (.N a)) (some (.N b)) = decide (a < b) :=
  rfl

end Comparator

namespace Condition

-- `NOT` binds more tightly than `AND`, and `AND` more tightly than `OR`.
inductive Level
  | or
  | and
  | not
  | atom

-- A function of one path
def parseFunction (f : Path → Condition) : List GoString → Option (Condition × List GoString)
  | bracket :: path :: bracket' :: ts => do
    guard (bracket = "(" ∧ bracket' = ")")
    return (f (← Path.parse path), ts)
  | _ => none

def parseBeginsWith : List GoString → Option (Condition × List GoString)
  | bracket :: path :: comma :: operand :: bracket' :: ts => do
    guard (bracket = "(" ∧ comma = "," ∧ bracket' = ")")
    return (.beginsWith (← Path.parse path) (← Operand.parse operand), ts)
  | _ => none

def parseComparison : List GoString → Option (Condition × List GoString)
  | o₁ :: op :: o₂ :: ts =>
    if op = "BETWEEN" then
      match ts with
      | conj :: o₃ :: ts => do
        guard (conj = "AND")
        return (.between (← Operand.parse o₁) (← Operand.parse o₂) (← Operand.parse o₃), ts)
      | _ => none
    else do
      return (.compare (← Comparator.parse op) (← Operand.parse o₁) (← Operand.parse o₂), ts)
  | _ => none

-- Reads a condition of the level from the front of the tokens.
def parseLevel : (fuel : Nat) → Level → List GoString → Option (Condition × List GoString)
  | 0, _, _ => none
  | fuel + 1, .or, ts => do
    let (c, ts) ← parseLevel fuel .and ts
    if ts.head? = some "OR" then
      let (c', ts) ← parseLevel fuel .or ts.tail
      return (.or c c', ts)
    else
      return (c, ts)
  | fuel + 1, .and, ts => do
    let (c, ts) ← parseLevel fuel .not ts
    if ts.head? = some "AND" then
      let (c', ts) ← parseLevel fuel .and ts.tail
      return (.and c c', ts)
    else
      return (c, ts)
  | fuel + 1, .not, ts =>
    if ts.head? = some "NOT" then do
      let (c, ts) ← parseLevel fuel .not ts.tail
      return (.not c, ts)
    else
      parseLevel fuel .atom ts
  | fuel + 1, .atom, ts =>
    if ts.head? = some "(" then do
      let (c, ts) ← parseLevel fuel .or ts.tail
      guard (ts.head? = some ")")
      return (c, ts.tail)
    else if ts.head? = some "attribute_exists" then
      parseFunction .attributeExists ts.tail
    else if ts.head? = some "attribute_not_exists" then
      parseFunction .attributeNotExists ts.tail
    else if ts.head? = some "begins_with" then
      parseBeginsWith ts.tail
    else
      parseComparison ts

def parse (expression : GoString) : Option Condition := do
  let ts := tokens expression
  let (c, ts) ← parseLevel (4 * ts.length + 4) .or ts
  guard (ts = [])
  return c

def eval (bindings : Bindings) (item : Item) : Condition → Bool
  | attributeExists p    => (p.get bindings item).isSome
  | attributeNotExists p => (p.get bindings item).isNone
  | beginsWith p o       =>
    match p.get bindings item, o.get bindings item with
    | some (.S s), some (.S start) => start.isPrefixOf s
    | _, _                         => false
  | compare c o₁ o₂      => c.holds (o₁.get bindings item) (o₂.get bindings item)
  | between o low high   =>
    Comparator.le.holds (low.get bindings item) (o.get bindings item) &&
    Comparator.le.holds (o.get bindings item) (high.get bindings item)
  | not c                => !c.eval bindings item
  | and c₁ c₂            => c₁.eval bindings item && c₂.eval bindings item
  | or c₁ c₂             => c₁.eval bindings item || c₂.eval bindings item

end Condition

-- `SET path = value`
inductive SetOperand
  | operand (o : Operand)
  | ifNotExists (p : Path) (o : Operand)
  deriving DecidableEq

inductive SetValue
  | operand (o : SetOperand)
  | plus (o₁ o₂ : SetOperand)
  | minus (o₁ o₂ : SetOperand)
  deriving DecidableEq

structure Assignment where
  path  : Path
  value : SetValue
  deriving DecidableEq

namespace SetOperand

def parse : List GoString → Option (SetOperand × List GoString)
  | [] => none
  | t :: ts =>
    if t = "if_not_exists" then
      match ts with
      | bracket :: path :: comma :: o :: bracket' :: ts => do
        guard (bracket = "(" ∧ comma = "," ∧ bracket' = ")")
        return (.ifNotExists (← Path.parse path) (← Operand.parse o), ts)
      | _ => none
    else do
      return (.operand (← Operand.parse t), ts)

def get (bindings : Bindings) (item : Item) : SetOperand → Option AttributeValue
  | operand o       => o.get bindings item
  | ifNotExists p o => (p.get bindings item).or (o.get bindings item)

end SetOperand

namespace SetValue

def parse (ts : List GoString) : Option (SetValue × List GoString) := do
  let (o, ts) ← SetOperand.parse ts
  if ts.head? = some "+" then
    let (o', ts) ← SetOperand.parse ts.tail
    return (.plus o o', ts)
  else if ts.head? = some "-" then
    let (o', ts) ← SetOperand.parse ts.tail
    return (.minus o o', ts)
  else
    return (.operand o, ts)

def combine (f : Int → Int → Int) : Option AttributeValue → Option AttributeValue →
    Option AttributeValue
  | some (.N a), some (.N b) => some (.N (f a b))
  | _, _                     => none

def get (bindings : Bindings) (item : Item) : SetValue → Option AttributeValue
  | operand o   => o.get bindings item
  | plus o₁ o₂  => combine (· + ·) (o₁.get bindings item) (o₂.get bindings item)
  | minus o₁ o₂ => combine (· - ·) (o₁.get bindings item) (o₂.get bindings item)

end SetValue

namespace Assignment

def parseList : (fuel : Nat) → List GoString → Option (List Assignment)
  | 0, _ => none
  | fuel + 1, path :: eq :: ts => do
    guard (eq = "=")
    let a := ⟨← Path.parse path, (← SetValue.parse ts).1⟩
    let ts := (← SetValue.parse ts).2
    if ts = [] then
      return [a]
    else
      guard (ts.head? = some ",")
      return a :: (← parseList fuel ts.tail)
  | _, _ => none

-- An update expression that consists of a `SET` clause.
def parse (expression : GoString) : Option (List Assignment) :=
  match tokens expression with
  | []      => none
  | t :: ts => do
    guard (t = "SET")
    parseList ts.length ts

-- Every value is computed from the item as it is before the update.
def apply (bindings : Bindings) (item : Item) : List Assignment → Item → Option Item
  | [], item'      => some item'
  | a :: as, item' => do
    let name ← a.path.resolve bindings
    let value ← a.value.get bindings item
    apply bindings item as (item'.set name value)

end Assignment

end DynamoDB

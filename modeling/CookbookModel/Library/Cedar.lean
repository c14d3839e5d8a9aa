import Mathlib.Tactic.Common

-- The part of the Cedar policy language whose values are primitive values and flat sets and records
-- of them.
namespace Cedar

structure EntityUID (S : Type) where
  type : S
  id   : S
  deriving DecidableEq

inductive Prim (S : Type)
  | bool (b : Bool)
  | string (s : S)
  | entity (uid : EntityUID S)
  deriving DecidableEq

abbrev Record (S : Type) :=
  List (S × Prim S)

inductive Value (S : Type)
  | prim (p : Prim S)
  | set (ps : List (Prim S))
  | record (fields : Record S)
  deriving DecidableEq

structure Entity (S : Type) where
  uid     : EntityUID S
  attrs   : Record S
  parents : List (EntityUID S)

inductive Var
  | principal
  | action
  | resource
  | context

inductive Expr (S : Type)
  | lit (p : Prim S)
  | set (ps : List (Prim S))
  | var (v : Var)
  | not (a : Expr S)
  | and (a b : Expr S)
  | eq (a b : Expr S)
  | mem (a b : Expr S)
  | is (a : Expr S) (type : S)
  | hasAttr (a : Expr S) (attr : S)
  | getAttr (a : Expr S) (attr : S)

structure Request (S : Type) where
  principal : EntityUID S
  action    : EntityUID S
  resource  : EntityUID S
  context   : Record S

inductive Error
  | typeError
  | attrDoesNotExist
  | entityDoesNotExist

inductive Effect
  | permit
  | forbid
  deriving DecidableEq

inductive Scope (S : Type)
  | eq (uid : EntityUID S)
  | mem (uids : List (EntityUID S))
  | is (type : S)

structure Policy (S : Type) where
  effect    : Effect
  principal : Scope S
  action    : Scope S
  resource  : Scope S
  condition : Expr S

inductive Decision
  | allow
  | deny
  deriving DecidableEq

structure Response where
  decision : Decision
  errors   : List Error

section

variable {S : Type} [DecidableEq S]

def find (es : List (Entity S)) (uid : EntityUID S) : Option (Entity S) :=
  es.find? (·.uid = uid)

def parents (es : List (Entity S)) (uid : EntityUID S) : List (EntityUID S) :=
  (find es uid).elim [] (·.parents)

-- The second entity is reached from the first one with at most `n` steps to a parent.
def reaches (es : List (Entity S)) : Nat → EntityUID S → EntityUID S → Bool
  | 0, uid, uid'     => uid = uid'
  | n + 1, uid, uid' => uid = uid' || (parents es uid).any (reaches es n · uid')

-- `uid in uid'`. The entities form no cycles, so no chain of parents is longer than their list.
def descends (es : List (Entity S)) (uid uid' : EntityUID S) : Bool :=
  reaches es es.length uid uid'

def lookup (fields : Record S) (attr : S) : Option (Prim S) :=
  (fields.find? (·.fst = attr)).map (·.snd)

def asBool : Value S → Except Error Bool
  | .prim (.bool b) => .ok b
  | _               => .error .typeError

def asEntity : Value S → Except Error (EntityUID S)
  | .prim (.entity uid) => .ok uid
  | _                   => .error .typeError

def hasAttr (es : List (Entity S)) (attr : S) : Value S → Except Error Bool
  | .record fields      => .ok (lookup fields attr).isSome
  | .prim (.entity uid) => .ok ((find es uid).any fun e => (lookup e.attrs attr).isSome)
  | _                   => .error .typeError

def getAttr (es : List (Entity S)) (attr : S) : Value S → Except Error (Prim S)
  | .record fields      => (lookup fields attr).elim (.error .attrDoesNotExist) .ok
  | .prim (.entity uid) =>
    match find es uid with
    | none   => .error .entityDoesNotExist
    | some e => (lookup e.attrs attr).elim (.error .attrDoesNotExist) .ok
  | _ => .error .typeError

def isIn (es : List (Entity S)) (uid : EntityUID S) : Value S → Except Error Bool
  | .set ps => do
    let uids ← ps.mapM fun p => asEntity (.prim p)
    return uids.any (descends es uid)
  | value => return descends es uid (← asEntity value)

def Request.var (req : Request S) : Var → Value S
  | .principal => .prim (.entity req.principal)
  | .action    => .prim (.entity req.action)
  | .resource  => .prim (.entity req.resource)
  | .context   => .record req.context

def bool (b : Bool) : Value S :=
  .prim (.bool b)

def evaluate (req : Request S) (es : List (Entity S)) : Expr S → Except Error (Value S)
  | .lit p  => return .prim p
  | .set ps => return .set ps
  | .var v  => return req.var v
  | .not a  => return bool (!(← asBool (← evaluate req es a)))
  | .and a b => do
    if ← asBool (← evaluate req es a) then
      return bool (← asBool (← evaluate req es b))
    else
      return bool false
  | .eq a b         => return bool (decide ((← evaluate req es a) = (← evaluate req es b)))
  | .mem a b        => do
    let uid ← asEntity (← evaluate req es a)
    return bool (← isIn es uid (← evaluate req es b))
  | .is a type      => return bool (decide ((← asEntity (← evaluate req es a)).type = type))
  | .hasAttr a attr => return bool (← hasAttr es attr (← evaluate req es a))
  | .getAttr a attr => return .prim (← getAttr es attr (← evaluate req es a))

section

variable {req : Request S} {es : List (Entity S)} {a b : Expr S} {uid uid' : EntityUID S}

-- The expression evaluates without an error, to `true` exactly if `P` holds.
def Means (req : Request S) (es : List (Entity S)) (e : Expr S) (P : Prop) : Prop :=
  ∃ b, evaluate req es e = .ok (bool b) ∧ (b = true ↔ P)

namespace Means

theorem congr (h : Means req es a P) (hPQ : P ↔ Q) : Means req es a Q :=
  have ⟨b, he, hb⟩ := h
  ⟨b, he, hb.trans hPQ⟩

theorem lit {x : Bool} : Means req es (.lit (.bool x)) (x = true) :=
  ⟨x, rfl, .rfl⟩

theorem not (h : Means req es a P) : Means req es (.not a) ¬P := by
  have ⟨b, he, hb⟩ := h
  refine ⟨!b, ?_, by simp [←hb]⟩
  simp only [evaluate, he]
  rfl

-- The second expression is evaluated only if the first one is true.
theorem and (ha : Means req es a P) (hb : P → Means req es b Q) : Means req es (.and a b) (P ∧ Q) := by
  have ⟨x, hx, hP⟩ := ha
  cases x
  case false =>
    refine ⟨false, ?_, by simp [←hP]⟩
    simp only [evaluate, hx]
    rfl
  case true =>
    have hP := hP.mp rfl
    have ⟨y, hy, hQ⟩ := hb hP
    refine ⟨y, ?_, by simp [hP, hQ]⟩
    simp only [evaluate, hx, hy]
    rfl

theorem eq (ha : evaluate req es a = .ok v) (hb : evaluate req es b = .ok v') :
    Means req es (.eq a b) (v = v') := by
  refine ⟨decide (v = v'), ?_, decide_eq_true_iff⟩
  simp only [evaluate, ha, hb]
  rfl

theorem mem (ha : evaluate req es a = .ok (.prim (.entity uid)))
    (hb : evaluate req es b = .ok (.prim (.entity uid'))) :
    Means req es (.mem a b) (descends es uid uid') := by
  refine ⟨descends es uid uid', ?_, .rfl⟩
  simp only [evaluate, ha, hb]
  rfl

theorem hasAttr (ha : evaluate req es a = .ok v) (h : Cedar.hasAttr es attr v = .ok x) :
    Means req es (.hasAttr a attr) (x = true) := by
  refine ⟨x, ?_, .rfl⟩
  simp only [evaluate, ha]
  change (do return bool (← Cedar.hasAttr es attr v)) = _
  rw [h]
  rfl

theorem getAttr (h : evaluate req es (.getAttr a attr) = .ok (.prim (.bool x))) :
    Means req es (.getAttr a attr) (x = true) :=
  ⟨x, h, .rfl⟩

end Means

def Scope.Matches (es : List (Entity S)) (uid : EntityUID S) : Scope S → Prop
  | eq uid'  => uid = uid'
  | mem uids => ∃ uid' ∈ uids, descends es uid uid'
  | is type  => uid.type = type

end
end
end Cedar

import CookbookModel.Library.Json
import Mathlib.Data.List.Sort

namespace Json

open PyString PyItems

-- Induction over a value, with the items of an array and the members of an object at once.
@[elab_as_elim]
theorem induct {P : Json → Prop} (null : P null) (bool : ∀ b, P (bool b)) (int : ∀ n, P (int n))
    (float : ∀ text, P (float text)) (string : ∀ s, P (string s))
    (array : ∀ items, (∀ v ∈ items, P v) → P (array items))
    (object : ∀ members, (∀ m ∈ members, P m.2) → P (object members)) : ∀ v, P v :=
  @Json.rec P (fun items => ∀ v ∈ items, P v) (fun members => ∀ m ∈ members, P m.2)
    (fun m => P m.2) null bool int float string array object
    (by simp) (fun _ _ hv hvs => List.forall_mem_cons.mpr ⟨hv, hvs⟩)
    (by simp) (fun _ _ hm hms => List.forall_mem_cons.mpr ⟨hm, hms⟩) (fun _ _ hv => hv)

-- A string of characters, none of which is a surrogate
def Scalar (s : PyString) : Prop :=
  ∀ c ∈ s, isSurrogate c = false

mutual

-- The values that a JSON text stands for: no two members of an object have the same key. Floats are
-- left out.
def Plain : Json → Prop
  | null           => True
  | bool _         => True
  | int _          => True
  | float _        => False
  | string s       => Scalar s
  | array items    => PlainItems items
  | object members => Keyed members ∧ PlainMembers members

def PlainItems : List Json → Prop
  | []      => True
  | v :: vs => Plain v ∧ PlainItems vs

def PlainMembers : List (PyString × Json) → Prop
  | []             => True
  | (key, v) :: ms => (Scalar key ∧ Plain v) ∧ PlainMembers ms

end

mutual

-- Two values are the same, whatever the order of the members of an object.
def Same : Json → Json → Prop
  | null, null                      => True
  | bool b, bool b'                 => b = b'
  | int n, int n'                   => n = n'
  | float text, float text'         => text = text'
  | string s, string s'             => s = s'
  | array items, array items'       => SameItems items items'
  | object members, object members' =>
    members.length = members'.length ∧ SameMembers members members'
  | _, _                            => False

def SameItems : List Json → List Json → Prop
  | [], []           => True
  | v :: vs, w :: ws => Same v w ∧ SameItems vs ws
  | _, _             => False

def SameMembers : List (PyString × Json) → List (PyString × Json) → Prop
  | [], _              => True
  | (key, v) :: ms, ns =>
    (match get ns key with
    | some w => Same v w
    | none   => False) ∧ SameMembers ms ns

end

def byKey (m m' : PyString × α) : Prop :=
  m.1 ≤ m'.1

instance : DecidableRel (byKey (α := α)) :=
  fun m m' => inferInstanceAs <| Decidable (m.1 ≤ m'.1)

instance : Std.Total (byKey (α := α)) where
  total m m' := le_total m.1 m'.1

instance : IsTrans _ (byKey (α := α)) where
  trans _ _ _ := le_trans

mutual

-- The value with the members of all its objects in the order of their keys
def sorted : Json → Json
  | array items    => array (sortedItems items)
  | object members => object ((sortedMembers members).insertionSort byKey)
  | v              => v

def sortedItems : List Json → List Json
  | []      => []
  | v :: vs => sorted v :: sortedItems vs

def sortedMembers : List (PyString × Json) → List (PyString × Json)
  | []             => []
  | (key, v) :: ms => (key, sorted v) :: sortedMembers ms

end

section

variable {items items' : List Json} {members members' : PyItems Json} {v w : Json}

end

end Json

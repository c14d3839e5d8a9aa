import CookbookModel.Library.Json.Loads
import CookbookModel.Library.Json.Values

namespace Json

open PyString PyItems

def Blank (s : PyString) : Prop :=
  ∀ c ∈ s, isSpace c = true

-- A text with blanks around it
def Padded (t padded : PyString) : Prop :=
  ∃ w w', Blank w ∧ Blank w' ∧ padded = w ++ t ++ w'

mutual

-- A text is a value as `json.dumps` writes it, but for blanks between its tokens and for the order of
-- the members of objects, which is that of the value.
def Written : Json → PyString → Prop
  | array items, t    => ∃ inner, WrittenItems items inner ∧ t = 0x5B :: inner ++ [0x5D]
  | object members, t => ∃ inner, WrittenMembers members inner ∧ t = 0x7B :: inner ++ [0x7D]
  | v, t              => t = dumps v

def WrittenItems : List Json → PyString → Prop
  | [], t           => Blank t
  | [v], t          => ∃ u, Written v u ∧ Padded u t
  | v :: w :: vs, t =>
    ∃ u u' t', Written v u ∧ Padded u u' ∧ WrittenItems (w :: vs) t' ∧ t = u' ++ 0x2C :: t'

def WrittenMembers : List (PyString × Json) → PyString → Prop
  | [], t                  => Blank t
  | [(key, v)], t          => ∃ k u u', Padded (quote key) k ∧ Written v u ∧ Padded u u' ∧
    t = k ++ 0x3A :: u'
  | (key, v) :: m :: ms, t => ∃ k u u' t', Padded (quote key) k ∧ Written v u ∧ Padded u u' ∧
    WrittenMembers (m :: ms) t' ∧ t = k ++ 0x3A :: u' ++ 0x2C :: t'

end

section Dumps

variable {items : List Json} {members : PyItems Json} {v : Json}

end Dumps

end Json

import CookbookModel.Library.GoMap
import CookbookModel.Library.GoString

-- A code point of a Python string, surrogates included.
abbrev CodePoint := Fin 0x110000

instance CodePoint.neZero : NeZero 0x110000 :=
  ⟨by decide⟩

-- A Python `str`
abbrev PyString := List CodePoint

instance PyString.lawfulBEq : LawfulBEq PyString :=
  inferInstance

-- A Python `dict` whose insertion order nothing observes.
abbrev PyDict := GoMap

namespace PyString

theorem char_toNat_lt (c : Char) : c.toNat < 0x110000 := by
  have h := c.valid
  simp only [UInt32.isValidChar, Nat.isValidChar] at h
  simp only [Char.toNat]
  omega

def ofChar (c : Char) : CodePoint :=
  ⟨c.toNat, char_toNat_lt c⟩

-- The code points of a string literal
def ofString (s : String) : PyString :=
  s.toList.map ofChar

instance : Coe String PyString where
  coe := ofString

@[simp]
theorem ofString_inj {s t : String} : ofString s = ofString t ↔ s = t where
  mp h := by
    refine String.toList_injective <| List.map_injective_iff.mpr (fun c d he => ?_) h
    exact Char.toNat_inj.mp <| Fin.mk.inj he
  mpr h := h ▸ rfl

def isSurrogate (c : CodePoint) : Bool :=
  0xD800 ≤ c.val && c.val ≤ 0xDFFF

-- `s.encode()`, which fails on surrogates
def encode (s : PyString) : Option (List UInt8) :=
  if s.any isSurrogate then none else some <| s.flatMap fun c => GoString.encodeRune c.val

-- `s.isascii()`
def isascii (s : PyString) : Bool :=
  s.all (·.val < 0x80)

def lowerAscii (c : CodePoint) : CodePoint :=
  if 0x41 ≤ c.val && c.val ≤ 0x5A then c + 0x20 else c

-- `s.startswith(start)`
def startswith (s start : PyString) : Bool :=
  start.isPrefixOf s

-- `s.removeprefix(start)`
def removeprefix (s start : PyString) : PyString :=
  (start.isPrefixOf? s).getD s

theorem removeprefix_append {s start : PyString} : removeprefix (start ++ s) start = s := by
  rw [ removeprefix, List.isPrefixOf?_eq_some_iff_append_eq.mpr rfl, Option.getD_some]

-- `s.split(sep)` for a single character
def split (s : PyString) (sep : CodePoint) : List PyString :=
  s.splitOn sep

-- `sub in s`
def contains (sub : PyString) : PyString → Bool
  | []     => sub.isEmpty
  | c :: s => sub.isPrefixOf (c :: s) || contains sub s

-- `s.rsplit(sep, 1)[-1]`: what follows the last occurrence of the separator.
def afterLast (sep : PyString) : PyString → PyString
  | []     => []
  | c :: s => if contains sep s then afterLast sep s else removeprefix (c :: s) sep

end PyString

-- The items of a `dict` in the order of their insertion
abbrev PyItems (β : Type) := List (PyString × β)

namespace PyItems

variable {β : Type} {items : PyItems β} {key k : PyString} {value v : β}

-- `items.get(key)`
def get (items : PyItems β) (key : PyString) : Option β :=
  (items.find? fun item => item.1 = key).map (·.2)

-- `items[key] = value`
def set : PyItems β → PyString → β → PyItems β
  | [], key, value            => [(key, value)]
  | item :: items, key, value =>
    if item.1 = key then (key, value) :: items else item :: set items key value

theorem get_eq_none : get items key = none ↔ ∀ value, (key, value) ∉ items := by
  simp only [get, Option.map_eq_none_iff, List.find?_eq_none, decide_eq_true_eq]
  exact ⟨fun h v hm => h _ hm rfl, fun h item hm he => h item.2 (he ▸ hm)⟩

@[simp]
theorem get_cons : get (item :: items) k = if item.1 = k then some item.2 else get items k := by
  by_cases h : item.1 = k <;> simp [get, h]

theorem get_set : get (set items key value) k = if k = key then some value else get items k := by
  induction items
  case nil => simp [set, eq_comm]
  case cons item items hi =>
    simp only [set]
    split
    case isTrue he  => by_cases hk : k = key <;> simp_all [eq_comm]
    case isFalse he => by_cases hk : item.1 = k <;> simp_all

theorem mem_set (h : (k, v) ∈ set items key value) : (k, v) = (key, value) ∨ (k, v) ∈ items := by
  induction items
  case nil => exact .inl <| List.mem_singleton.mp h
  case cons item items hi =>
    simp only [set] at h
    split at h
    case isTrue  => exact (List.mem_cons.mp h).imp_right (List.mem_cons_of_mem _)
    case isFalse =>
      cases List.mem_cons.mp h
      case inl he => exact .inr <| he ▸ List.mem_cons_self
      case inr hm => exact (hi hm).imp_right (List.mem_cons_of_mem _)

theorem set_eq_append (h : ∀ v, (key, v) ∉ items) : set items key value = items ++ [(key, value)] := by
  induction items
  case nil => rfl
  case cons item items hi =>
    have hne : item.1 ≠ key := fun he => h item.2 (he ▸ List.mem_cons_self)
    simp [set, hne, hi fun v hm => h v (List.mem_cons_of_mem _ hm)]

-- No two items have the same key, as in every `dict`.
def Keyed (items : PyItems β) : Prop :=
  (items.map (·.1)).Nodup

theorem Keyed.filter {p : PyString × β → Bool} (h : Keyed items) : Keyed (items.filter p) :=
  h.sublist <| List.filter_sublist.map _

theorem Keyed.set (h : Keyed items) : Keyed (set items key value) := by
  induction items
  case nil => simp [PyItems.set, Keyed]
  case cons item items hi =>
    have ⟨hn, h⟩ := List.nodup_cons.mp h
    simp only [PyItems.set]
    split
    case isTrue he  => exact List.nodup_cons.mpr ⟨he ▸ hn, h⟩
    case isFalse he =>
      refine List.nodup_cons.mpr ⟨fun hm => hn ?_, hi h⟩
      have ⟨⟨k, v⟩, hm, hk⟩ := List.mem_map.mp hm
      cases mem_set hm
      case inl hp => cases hp; exact absurd hk.symm he
      case inr hm => exact List.mem_map.mpr ⟨_, hm, hk⟩

theorem get_of_mem (h : Keyed items) (hm : (key, value) ∈ items) : get items key = some value := by
  induction items
  case nil => simp at hm
  case cons item items hi =>
    have ⟨hn, h⟩ := List.nodup_cons.mp h
    rw [get_cons]
    cases List.mem_cons.mp hm
    case inl he => simp [←he]
    case inr hm =>
      have hne : item.1 ≠ key := fun he => hn <| List.mem_map.mpr ⟨_, hm, he.symm⟩
      rw [if_neg hne, hi h hm]

-- Inserting the items of a `dict` one by one gives the `dict` back.
theorem foldl_set {items acc : PyItems β} (h : Keyed (acc ++ items)) :
    items.foldl (fun acc item => set acc item.1 item.2) acc = acc ++ items := by
  induction items generalizing acc
  case nil => simp
  case cons item items hi =>
    have hn : ∀ v, (item.1, v) ∉ acc := by
      intro v hm
      simp only [Keyed, List.map_append, List.map_cons] at h
      exact (List.nodup_append.mp h).right.right _ (List.mem_map_of_mem hm) _ List.mem_cons_self rfl
    rw [List.foldl_cons, set_eq_append hn, hi (by simpa using h)]
    simp

end PyItems

-- A Python exception, by those of its classes that the programs tell apart.
inductive PyError
  | typeError (text : PyString)
  | valueError (text : PyString)
  | jsonDecodeError (text : PyString)
  | other (text : PyString)
  deriving DecidableEq

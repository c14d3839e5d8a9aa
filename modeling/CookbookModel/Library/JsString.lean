import CookbookModel.Library.GoMap
import CookbookModel.Library.GoString
import Mathlib.Tactic.Common

-- A JavaScript string, by its UTF-16 code units.
abbrev JsString := List UInt16

namespace JsString

def units (c : Char) : JsString :=
  if c.toNat < 0x10000 then
    [.ofNat c.toNat]
  else
    let n := c.toNat - 0x10000
    [.ofNat (0xD800 + n / 1024), .ofNat (0xDC00 + n % 1024)]

-- The code units of a string literal
def ofString (s : String) : JsString :=
  s.toList.flatMap units

instance : Coe String JsString where
  coe := ofString

-- `s.startsWith(start)`
def startsWith (s start : JsString) : Bool :=
  start.isPrefixOf s

def lowerUnit (u : UInt16) : UInt16 :=
  if 0x41 ≤ u && u ≤ 0x5A then u + 0x20 else u

-- The lower case of an ASCII string
def toLowerCase (s : JsString) : JsString :=
  s.map lowerUnit

-- White space and line terminators, as `s.trim()` removes them
def isSpace (u : UInt16) : Bool :=
  (0x09 ≤ u && u ≤ 0x0D) || u = 0x20 || u = 0xA0 || u = 0x1680 || (0x2000 ≤ u && u ≤ 0x200A) ||
  u = 0x2028 || u = 0x2029 || u = 0x202F || u = 0x205F || u = 0x3000 || u = 0xFEFF

-- What `.` does not match in a regular expression
def isLineTerminator (u : UInt16) : Bool :=
  u = 0x0A || u = 0x0D || u = 0x2028 || u = 0x2029

-- The code points of a string. A surrogate that is not part of a pair stands for itself.
def codePoints : JsString → List GoString.Rune
  | []      => []
  | [u]     => [u.toNat]
  | u :: v :: s =>
    if 0xD800 ≤ u && u ≤ 0xDBFF && 0xDC00 ≤ v && v ≤ 0xDFFF then
      (0x10000 + (u.toNat - 0xD800) * 1024 + (v.toNat - 0xDC00)) :: codePoints s
    else
      u.toNat :: codePoints (v :: s)

-- `new TextEncoder().encode(s)`, which writes U+FFFD for a lone surrogate
def encode (s : JsString) : List UInt8 :=
  (codePoints s).flatMap GoString.encodeRune

def hexDigits : JsString :=
  ofString "0123456789abcdef"

-- `b.toString(16).padStart(2, "0")`
def hexByte (b : UInt8) : JsString :=
  [hexDigits[b.toNat / 16]?.getD 0, hexDigits[b.toNat % 16]?.getD 0]

end JsString

-- An object as a record: its own properties in the order in which `Object.entries` lists them.
structure JsObject (α : Type) where
  entries  : List (JsString × α)
  distinct : (entries.map (·.1)).Nodup

namespace JsObject

variable {α β ε : Type}

-- `object[key]`
def get? (object : JsObject α) (key : JsString) : Option α :=
  (object.entries.find? (·.1 = key)).map (·.2)

theorem get?_eq_some {object : JsObject α} : object.get? key = some a ↔ (key, a) ∈ object.entries := by
  unfold get?
  constructor
  case mp =>
    intro h
    have ⟨⟨key', a'⟩, hf, ha⟩ := Option.map_eq_some_iff.mp h
    have hk : key' = key := by simpa using List.find?_some hf
    exact hk ▸ ha ▸ List.mem_of_find?_eq_some hf
  case mpr =>
    intro h
    cases hf : object.entries.find? (·.1 = key)
    case none =>
      rw [List.find?_eq_none] at hf
      exact absurd (decide_eq_true rfl) <| hf _ h
    case some e =>
      have hk : e.1 = key := by simpa using List.find?_some hf
      have he := List.inj_on_of_nodup_map object.distinct (List.mem_of_find?_eq_some hf) h hk
      rw [he]
      rfl

def mapEntries (f : JsString → α → Except ε β) : (entries : List (JsString × α)) →
    Except ε { mapped : List (JsString × β) // mapped.map (·.1) = entries.map (·.1) }
  | [] => .ok ⟨[], rfl⟩
  | (key, a) :: entries => do
    let b ← f key a
    let ⟨mapped, h⟩ ← mapEntries f entries
    return ⟨(key, b) :: mapped, by rw [List.map_cons, List.map_cons, h]⟩

-- A loop that fills an object with what it makes of the properties of another one.
def mapM (f : JsString → α → Except ε β) (object : JsObject α) :
    Except ε { mapped : JsObject β // mapped.entries.map (·.1) = object.entries.map (·.1) } := do
  let ⟨mapped, h⟩ ← mapEntries f object.entries
  return ⟨⟨mapped, h ▸ object.distinct⟩, h⟩

theorem forall_keys {object : JsObject α} {mapped : JsObject β} {P : JsString → Prop}
    (hk : mapped.entries.map (·.1) = object.entries.map (·.1)) (h : ∀ e ∈ object.entries, P e.1) :
    ∀ e ∈ mapped.entries, P e.1 := by
  intro e he
  have hm := List.mem_map_of_mem (f := (·.1)) he
  rw [hk] at hm
  have ⟨e', he', hk'⟩ := List.mem_map.mp hm
  exact hk' ▸ h e' he'

end JsObject

-- The `Headers` of a request: one value for each name in lower case.
abbrev Headers := GoMap JsString JsString

namespace Headers

-- Spaces, tabs and line breaks
def isBlank (u : UInt16) : Bool :=
  u = 0x20 || u = 0x09 || u = 0x0A || u = 0x0D

-- A value without the blanks around it, or `none` for one that no header can have.
def normalize (value : JsString) : Option JsString :=
  let value := ((value.dropWhile isBlank).reverse.dropWhile isBlank).reverse
  if value.any fun u => u = 0 || u = 0x0A || u = 0x0D || 0xFF < u then none else some value

-- `headers.set(name, value)`, which throws a `TypeError` for `none`
def assign (headers : Headers) (name value : JsString) : Option Headers :=
  (normalize value).map <| headers.set name.toLowerCase

end Headers

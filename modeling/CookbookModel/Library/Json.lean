import CookbookModel.Library.Python

-- What `json.loads` makes of a JSON text. A float is given by the text that `json.dumps` writes.
inductive Json
  | null
  | bool (b : Bool)
  | int (n : Int)
  | float (text : PyString)
  | string (s : PyString)
  | array (items : List Json)
  | object (members : List (PyString × Json))

namespace Json

-- `bool(value)`
def truthy : Json → Bool
  | null           => false
  | bool b         => b
  | int n          => n ≠ 0
  | float text     => text ≠ PyString.ofString "0.0" && text ≠ PyString.ofString "-0.0"
  | string s       => s ≠ []
  | array items    => !items.isEmpty
  | object members => !members.isEmpty

-- `value if isinstance(value, dict) else {}`
def asObject : Option Json → PyItems Json
  | some (object members) => members
  | _                     => []

section Dumps

def hexDigit (n : Nat) : CodePoint :=
  PyString.ofChar (Nat.digitChar (n % 16))

-- `'\\u{0:04x}'.format(n)`
def unicodeEscape (n : Nat) : PyString :=
  [0x5C, 0x75, hexDigit (n / 4096), hexDigit (n / 256), hexDigit (n / 16), hexDigit n]

-- What a code point is written as within quotes, all of it ASCII.
def escape (c : CodePoint) : PyString :=
  if c = 0x22 then [0x5C, 0x22]
  else if c = 0x5C then [0x5C, 0x5C]
  else if c = 0x0A then [0x5C, 0x6E]
  else if c = 0x0D then [0x5C, 0x72]
  else if c = 0x09 then [0x5C, 0x74]
  else if c = 0x0C then [0x5C, 0x66]
  else if c = 0x08 then [0x5C, 0x62]
  else if 0x20 ≤ c.val && c.val ≤ 0x7E then [c]
  else if c.val < 0x10000 then unicodeEscape c.val
  else
    let n := c.val - 0x10000
    unicodeEscape (0xD800 + n / 1024) ++ unicodeEscape (0xDC00 + n % 1024)

def quote (s : PyString) : PyString :=
  0x22 :: s.flatMap escape ++ [0x22]

def decimal (n : Int) : PyString :=
  (if n < 0 then [0x2D] else []) ++ (Nat.toDigits 10 n.natAbs).map PyString.ofChar

-- Texts with a comma between them
def commas (texts : List PyString) : PyString :=
  (texts.intersperse [0x2C]).flatten

-- The members are written in the order of their keys.
def members (texts : List (PyString × PyString)) : PyString :=
  commas <| (texts.insertionSort fun m₁ m₂ => m₁.1 ≤ m₂.1).map fun m => quote m.1 ++ 0x3A :: m.2

mutual

-- `json.dumps(value, sort_keys=True, separators=(",", ":"), ensure_ascii=True)`
def dumps : Json → PyString
  | null         => "null"
  | bool true    => "true"
  | bool false   => "false"
  | int n        => decimal n
  | float text   => text
  | string s     => quote s
  | array items  => 0x5B :: commas (dumpsItems items) ++ [0x5D]
  | object items => 0x7B :: members (dumpsMembers items) ++ [0x7D]

def dumpsItems : List Json → List PyString
  | []    => []
  | v :: vs => dumps v :: dumpsItems vs

def dumpsMembers : List (PyString × Json) → List (PyString × PyString)
  | []           => []
  | (key, v) :: ms => (key, dumps v) :: dumpsMembers ms

end

end Dumps

end Json

-- What the built-in types and the standard library compute, where the programs leave it to them.
class Python where
  -- `str(value)`
  str               : Json → PyString
  str_string        : ∀ s, str (.string s) = s
  lower             : PyString → PyString
  lower_ascii       : ∀ s, s.isascii → lower s = s.map PyString.lowerAscii
  lower_lower       : ∀ s, lower (lower s) = lower s
  upper             : PyString → PyString
  loads             : PyString → Except PyError Json
  loadsBytes        : List UInt8 → Except PyError Json
  urlsafeB64decode : PyString → Except PyError (List UInt8)
  -- `hashlib.sha256(value).hexdigest()`
  sha256            : List UInt8 → PyString

import CookbookModel.Library.Json

namespace Json

open PyString PyItems

-- `[ \t\n\r]`
def isSpace (c : CodePoint) : Bool :=
  c = 0x20 || c = 0x09 || c = 0x0A || c = 0x0D

def skipSpace (s : PyString) : PyString :=
  s.dropWhile isSpace

def expect (c : CodePoint) : PyString → Option PyString
  | []      => none
  | c' :: s => if c' = c then some s else none

def chr (n : Nat) : CodePoint :=
  Fin.ofNat 0x110000 n

section Strings

def hexValue (c : CodePoint) : Option Nat :=
  if 0x30 ≤ c.val && c.val ≤ 0x39 then some (c.val - 0x30)
  else if 0x41 ≤ c.val && c.val ≤ 0x46 then some (c.val - 0x37)
  else if 0x61 ≤ c.val && c.val ≤ 0x66 then some (c.val - 0x57)
  else none

-- `_decode_uXXXX`
def decodeHex : PyString → Option (Nat × PyString)
  | a :: b :: c :: d :: s => do
    return ((← hexValue a) * 4096 + (← hexValue b) * 256 + (← hexValue c) * 16 + (← hexValue d), s)
  | _ => none

def backslash (c : CodePoint) : Option CodePoint :=
  if c = 0x22 || c = 0x5C || c = 0x2F then some c
  else if c = 0x62 then some 0x08
  else if c = 0x66 then some 0x0C
  else if c = 0x6E then some 0x0A
  else if c = 0x72 then some 0x0D
  else if c = 0x74 then some 0x09
  else none

-- What follows a backslash. A high surrogate is joined with a low one that is escaped after it.
def scanEscape : PyString → Option (CodePoint × PyString)
  | []     => none
  | c :: s =>
    if c = 0x75 then do
      let (uni, rest) ← decodeHex s
      if 0xD800 ≤ uni && uni ≤ 0xDBFF then
        match (expect 0x5C rest).bind (expect 0x75) with
        | none   => return (chr uni, rest)
        | some s =>
          let (uni2, rest2) ← decodeHex s
          if 0xDC00 ≤ uni2 && uni2 ≤ 0xDFFF then
            return (chr (0x10000 + (uni - 0xD800) * 1024 + (uni2 - 0xDC00)), rest2)
          else
            return (chr uni, rest)
      else
        return (chr uni, rest)
    else
      (backslash c).map (·, s)

-- `scanstring(s, end, strict=True)` after the first quote, for at most `fuel` characters
def scanString : (fuel : Nat) → PyString → Option (PyString × PyString)
  | 0, _             => none
  | _ + 1, []        => none
  | fuel + 1, c :: s =>
    if c = 0x22 then some ([], s)
    else if c = 0x5C then do
      let (char, s) ← scanEscape s
      let (text, rest) ← scanString fuel s
      return (char :: text, rest)
    else if c.val < 0x20 then none
    else do
      let (text, rest) ← scanString fuel s
      return (c :: text, rest)

end Strings

section Numbers

def isDigit (c : CodePoint) : Bool :=
  0x30 ≤ c.val && c.val ≤ 0x39

-- `(\.\d+)?`
def fraction : PyString → PyString
  | []     => []
  | c :: s =>
    let digits := s.takeWhile isDigit
    if c = 0x2E && digits ≠ [] then c :: digits else []

-- `([eE][-+]?\d+)?`
def exponent : PyString → PyString
  | []     => []
  | c :: s =>
    let sign := s.take (if s.head? = some 0x2B || s.head? = some 0x2D then 1 else 0)
    let digits := (s.drop sign.length).takeWhile isDigit
    if (c = 0x45 || c = 0x65) && digits ≠ [] then c :: sign ++ digits else []

-- `int(digits)`
def natural (digits : PyString) : Nat :=
  digits.foldl (fun n c => n * 10 + (c.val - 0x30)) 0

-- `(-?(?:0|[1-9]\d*))(\.\d+)?([eE][-+]?\d+)?`
def scanNumber (parseFloat : PyString → PyString) (s : PyString) : Option (Json × PyString) :=
  let sign := s.take (if s.head? = some 0x2D then 1 else 0)
  let rest := s.drop sign.length
  let digits := rest.take (if rest.head? = some 0x30 then 1 else (rest.takeWhile isDigit).length)
  let rest := rest.drop digits.length
  let frac := fraction rest
  let exp := exponent (rest.drop frac.length)
  let rest := rest.drop (frac ++ exp).length
  if digits = [] then none
  else if frac = [] ∧ exp = [] then
    some (int (if sign = [] then natural digits else -natural digits), rest)
  else
    some (float (parseFloat (sign ++ digits ++ frac ++ exp)), rest)

end Numbers

section Values

def literal (text : PyString) (value : Json) (s : PyString) : Option (Json × PyString) :=
  (text.isPrefixOf? s).map (value, ·)

variable (parseFloat : PyString → PyString)

-- A value that is no string, object or array
def scanAtom (s : PyString) : Option (Json × PyString) :=
  literal "null" null s <|> literal "true" (bool true) s <|> literal "false" (bool false) s <|>
  scanNumber parseFloat s <|> literal "NaN" (float "NaN") s <|>
  literal "Infinity" (float "Infinity") s <|> literal "-Infinity" (float "-Infinity") s

mutual

-- `scan_once(string, idx)`, with fuel for each value and each of its places in an object or array
def scanOnce : (fuel : Nat) → PyString → Option (Json × PyString)
  | 0, _             => none
  | _ + 1, []        => none
  | fuel + 1, c :: s =>
    if c = 0x22 then
      (scanString (s.length + 1) s).map fun (text, rest) => (string text, rest)
    else if c = 0x7B then
      match expect 0x7D (skipSpace s) with
      | some rest => some (object [], rest)
      | none      => (scanMembers fuel (skipSpace s)).map fun (pairs, rest) =>
        (object (pairs.foldl (fun items pair => set items pair.1 pair.2) []), rest)
    else if c = 0x5B then
      match expect 0x5D (skipSpace s) with
      | some rest => some (array [], rest)
      | none      => (scanItems fuel (skipSpace s)).map fun (values, rest) => (array values, rest)
    else
      scanAtom parseFloat (c :: s)

def scanItems : (fuel : Nat) → PyString → Option (List Json × PyString)
  | 0, _        => none
  | fuel + 1, s => do
    let (value, s) ← scanOnce fuel s
    match expect 0x5D (skipSpace s) with
    | some rest => return ([value], rest)
    | none      =>
      let s ← expect 0x2C (skipSpace s)
      let (values, rest) ← scanItems fuel (skipSpace s)
      return (value :: values, rest)

def scanMembers : (fuel : Nat) → PyString → Option (List (PyString × Json) × PyString)
  | 0, _        => none
  | fuel + 1, s => do
    let s ← expect 0x22 s
    let (key, s) ← scanString (s.length + 1) s
    let s ← expect 0x3A (skipSpace s)
    let (value, s) ← scanOnce fuel (skipSpace s)
    match expect 0x7D (skipSpace s) with
    | some rest => return ([(key, value)], rest)
    | none      =>
      let s ← expect 0x2C (skipSpace s)
      let (pairs, rest) ← scanMembers fuel (skipSpace s)
      return ((key, value) :: pairs, rest)

end

-- `json.loads(s)`, where `parseFloat` gives the text that is written for the float of a text
def loads (s : PyString) : Option Json := do
  if s.head? = some 0xFEFF then none
  else
    let (value, rest) ← scanOnce parseFloat (2 * s.length + 2) (skipSpace s)
    if skipSpace rest = [] then return value else none

end Values

end Json

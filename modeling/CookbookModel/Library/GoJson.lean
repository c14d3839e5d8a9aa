import CookbookModel.Library.Utf8
import Mathlib.Data.List.Sort

-- What `encoding/json` makes of strings and of objects whose fields hold strings.
namespace GoJson

open GoString

section Marshal

def hexDigit (n : Nat) : UInt8 :=
  .ofNat (Nat.digitChar (n % 16)).toNat

-- What a round over the runes of a string writes. The characters that HTML gives a meaning to and
-- the line separators of JavaScript are escaped.
def escape (c : Chunk) : GoString :=
  match c.rune with
  | none   => "\\ufffd"
  | some r =>
    if r = 0x22 || r = 0x5C then [0x5C, .ofNat r]
    else if r = 0x08 then "\\b"
    else if r = 0x0C then "\\f"
    else if r = 0x0A then "\\n"
    else if r = 0x0D then "\\r"
    else if r = 0x09 then "\\t"
    else if r < 0x20 || r = 0x26 || r = 0x3C || r = 0x3E then
      ofString "\\u00" ++ [hexDigit (r / 16), hexDigit r]
    else if r = 0x2028 || r = 0x2029 then ofString "\\u202" ++ [hexDigit r]
    else c.bytes

-- `json.Marshal` of a string
def marshalString (s : GoString) : GoString :=
  0x22 :: (chunks s).flatMap escape ++ [0x22]

-- `json.Marshal` of a map with string values, in the order of its keys
def marshalStrings (fields : List (GoString × GoString)) : GoString :=
  let sorted := fields.insertionSort fun f f' => f.1 ≤ f'.1
  let members := sorted.map fun f => marshalString f.1 ++ 0x3A :: marshalString f.2
  0x7B :: (members.intersperse [0x2C]).flatten ++ [0x7D]

end Marshal

section Scan

def isSpace (b : UInt8) : Bool :=
  b = 0x20 || b = 0x09 || b = 0x0D || b = 0x0A

def skipSpace (s : GoString) : GoString :=
  s.dropWhile isSpace

-- What follows a string of which the opening quote has been read.
def skipString : GoString → Option GoString
  | 0x22 :: s => some s
  | 0x5C :: 0x75 :: a :: b :: c :: d :: s =>
    if [a, b, c, d].all fun h => (unhex h).isSome then skipString s else none
  | 0x5C :: e :: s => if e ∈ ofString "\"\\/bfnrt" then skipString s else none
  | b :: s => if b < 0x20 || b = 0x5C then none else skipString s
  | [] => none

def isDigit (b : UInt8) : Bool :=
  0x30 ≤ b && b ≤ 0x39

def skipDigits : GoString → Option GoString
  | []     => none
  | b :: s => if isDigit b then some (s.dropWhile isDigit) else none

def skipInteger : GoString → Option GoString
  | 0x30 :: s => some s
  | s         => skipDigits s

def skipFraction : GoString → Option GoString
  | 0x2E :: s => skipDigits s
  | s         => some s

def skipExponent : GoString → Option GoString
  | e :: 0x2B :: s => if e = 0x65 || e = 0x45 then skipDigits s else some (e :: 0x2B :: s)
  | e :: 0x2D :: s => if e = 0x65 || e = 0x45 then skipDigits s else some (e :: 0x2D :: s)
  | e :: s         => if e = 0x65 || e = 0x45 then skipDigits s else some (e :: s)
  | []             => some []

def skipNumber (s : GoString) : Option GoString := do
  skipExponent (← skipFraction (← skipInteger s))

-- What follows the items of an array, given what follows one of them.
def skipItems (skip : GoString → Option GoString) : (fuel : Nat) → GoString → Option GoString
  | 0, _        => none
  | fuel + 1, s => do
    match skipSpace (← skip (skipSpace s)) with
    | 0x2C :: s => skipItems skip fuel s
    | 0x5D :: s => some s
    | _         => none

-- The members of an object, by the contents of their names and the texts of their values, and what
-- follows them.
def members (skip : GoString → Option GoString) :
    (fuel : Nat) → GoString → Option (List (GoString × GoString) × GoString)
  | 0, _        => none
  | fuel + 1, s => do
    let name ← cutPrefix (skipSpace s) [0x22]
    let rest ← skipString name
    let value := skipSpace (← cutPrefix (skipSpace rest) [0x3A])
    let rest' ← skip value
    let member := (name.take (name.length - rest.length - 1),
      value.take (value.length - rest'.length))
    match skipSpace rest' with
    | 0x2C :: s =>
      let (ms, s) ← members skip fuel s
      return (member :: ms, s)
    | 0x7D :: s => some ([member], s)
    | _         => none

-- What follows a value with objects and arrays nested up to a depth.
def skipValue : (depth : Nat) → GoString → Option GoString
  | _, 0x22 :: s         => skipString s
  | depth + 1, 0x5B :: s =>
    match skipSpace s with
    | 0x5D :: s => some s
    | s         => skipItems (skipValue depth) s.length s
  | depth + 1, 0x7B :: s =>
    match skipSpace s with
    | 0x7D :: s => some s
    | s         => (members (skipValue depth) s.length s).map (·.2)
  | _, 0x2D :: s         => skipNumber s
  | _, s                 =>
    (cutPrefix s "null").or <| (cutPrefix s "true").or <| (cutPrefix s "false").or <| skipNumber s

def maxNestingDepth : Nat := 10000

end Scan

section Unquote

-- The code unit that four hexadecimal digits stand for
def getu4 : GoString → Option Nat
  | a :: b :: c :: d :: _ => do
    return (← unhex a) * 4096 + (← unhex b) * 256 + (← unhex c) * 16 + (← unhex d)
  | _ => none

def unescape (e : UInt8) : UInt8 :=
  if e = 0x62 then 0x08
  else if e = 0x66 then 0x0C
  else if e = 0x6E then 0x0A
  else if e = 0x72 then 0x0D
  else if e = 0x74 then 0x09
  else e

-- `utf16.DecodeRune`
def decodePair (high low : Nat) : Option Rune :=
  if 0xD800 ≤ high && high ≤ 0xDBFF && 0xDC00 ≤ low && low ≤ 0xDFFF then
    some (0x10000 + (high - 0xD800) * 1024 + (low - 0xDC00))
  else
    none

-- What a round over the content of a string that has been scanned writes, and how much it reads.
def unquoteRune : GoString → GoString × Nat
  | 0x5C :: 0x75 :: s =>
    let unit := (getu4 s).getD 0
    let next := match s.drop 4 with
      | 0x5C :: 0x75 :: s => getu4 s
      | _                 => none
    match next.bind (decodePair unit) with
    | some r => (encodeRune r, 12)
    | none   => (encodeRune unit, 6)
  | 0x5C :: e :: _ => ([unescape e], 2)
  | s =>
    let (r, width) := decodeRune s
    (encodeRune (r.getD runeError), width)

-- `skip` counts the bytes that the previous round has already read.
def unquoteFrom : Nat → GoString → GoString
  | _, []            => []
  | skip + 1, _ :: s => unquoteFrom skip s
  | 0, b :: s        =>
    let (written, width) := unquoteRune (b :: s)
    written ++ unquoteFrom (width - 1) s

def unquote (content : GoString) : GoString :=
  unquoteFrom 0 content

end Unquote

-- `json.Unmarshal` into a string. `null` leaves it empty.
def unmarshalString (text : GoString) : Option GoString := do
  let value := skipSpace text
  let rest ← skipValue maxNestingDepth value
  if skipSpace rest ≠ [] then none
  else
    match value with
    | 0x22 :: content => some <| unquote <| content.take (content.length - rest.length - 1)
    | 0x6E :: _       => some []
    | _               => none

-- The fields of the object that starts a text, with the texts of their values, and what follows it.
-- `null` is an object without fields.
def decodeObject (text : GoString) : Option (List (GoString × GoString) × GoString) := do
  match skipSpace text with
  | 0x7B :: s =>
    match skipSpace s with
    | 0x7D :: s => some ([], s)
    | s         =>
      let (fields, rest) ← members (skipValue (maxNestingDepth - 1)) s.length s
      return (fields.map fun f => (unquote f.1, f.2), rest)
  | s => (cutPrefix s "null").map ([], ·)

-- The value that a map of the fields has for a name. The last field with the name sets it.
def field (fields : List (GoString × GoString)) (name : GoString) : Option GoString :=
  (fields.reverse.find? (·.1 = name)).map (·.2)

-- `json.Unmarshal` into a map of strings, by the fields that it sets.
def unmarshalStrings (text : GoString) : Option (List (GoString × GoString)) := do
  let (fields, rest) ← decodeObject text
  if skipSpace rest ≠ [] then none
  else fields.mapM fun f => (unmarshalString f.2).map (f.1, ·)

section RoundTrip

-- A byte that stands for itself within quotes
def plain (b : UInt8) : Prop :=
  0x20 ≤ b ∧ b ≠ 0x22 ∧ b ≠ 0x5C

-- What is written within quotes for a code point.
inductive Written : Nat → GoString → Prop
  | short (he : e ∈ ofString "\"\\/bfnrt") : Written (unescape e).toNat [0x5C, e]
  | unit  (hr : r < 0xD800) (hu : ∀ t, getu4 (a :: b :: c :: d :: t) = some r) :
    Written r [0x5C, 0x75, a, b, c, d]
  | plain (hr : isScalar r) (hp : ∀ b ∈ encodeRune r, plain b) : Written r (encodeRune r)

variable {r : Nat} {c : Chunk} {s t : GoString} {rs : List Rune} {b : UInt8}

theorem unhex_hexDigit (n : Nat) : unhex (hexDigit n) = some (n % 16) := by
  have h : ∀ m < 16, unhex (.ofNat (Nat.digitChar m).toNat) = some m := by decide
  exact h _ (Nat.mod_lt _ (by decide))

theorem encodeRune_plain (h : isScalar r) (hp : 0x20 ≤ r ∧ r ≠ 0x22 ∧ r ≠ 0x5C) :
    ∀ b ∈ encodeRune r, plain b := by
  have he := encodes_encodeRune h
  have hPlain {b : UInt8} (hb : 0x20 ≤ b.toNat ∧ b.toNat ≠ 0x22 ∧ b.toNat ≠ 0x5C) : plain b :=
    ⟨UInt8.le_iff_toNat_le.mpr hb.left, fun e => hb.right.left (e ▸ rfl),
      fun e => hb.right.right (e ▸ rfl)⟩
  intro b hb
  generalize encodeRune r = u at he hb
  refine hPlain ?_
  cases he <;> simp only [List.mem_cons, List.not_mem_nil, or_false] at hb
  case one           => exact hb ▸ hp
  case two           => rcases hb with rfl | rfl <;> omega
  case three         => rcases hb with rfl | rfl | rfl <;> omega
  case four          => rcases hb with rfl | rfl | rfl | rfl <;> omega

theorem written_escape (h : isScalar r) : Written r (escape ⟨some r, encodeRune r⟩) := by
  unfold escape
  dsimp only
  split
  case isTrue he =>
    rcases (by simpa using he : r = 0x22 ∨ r = 0x5C) with rfl | rfl
    · exact @Written.short 0x22 (by decide)
    · exact @Written.short 0x5C (by decide)
  case isFalse hn =>
    simp only [Bool.or_eq_true, decide_eq_true_eq, not_or] at hn
    split_ifs with h₁ h₂ h₃ h₄ h₅ h₆ h₇
    · exact h₁ ▸ @Written.short 0x62 (by decide)
    · exact h₂ ▸ @Written.short 0x66 (by decide)
    · exact h₃ ▸ @Written.short 0x6E (by decide)
    · exact h₄ ▸ @Written.short 0x72 (by decide)
    · exact h₅ ▸ @Written.short 0x74 (by decide)
    · simp only [Rune, Bool.or_eq_true, decide_eq_true_eq] at h₆
      refine @Written.unit r 0x30 0x30 _ _ (by omega) fun t => ?_
      have hDigit : unhex 0x30 = some 0 := by decide
      simp only [getu4, unhex_hexDigit, hDigit, Option.bind_eq_bind, Option.bind_some, Option.pure_def,
        Option.some.injEq]
      omega
    · simp only [Rune, Bool.or_eq_true, decide_eq_true_eq] at h₇
      refine @Written.unit r 0x32 0x30 0x32 _ (by omega) fun t => ?_
      have hDigits : unhex 0x32 = some 2 ∧ unhex 0x30 = some 0 := by decide
      simp only [getu4, unhex_hexDigit, hDigits, Option.bind_eq_bind, Option.bind_some, Option.pure_def,
        Option.some.injEq]
      omega
    · simp only [Rune, Bool.or_eq_true, decide_eq_true_eq] at h₆
      exact .plain h <| encodeRune_plain h ⟨by omega, hn⟩

theorem skipString_cons (h : plain b) : skipString (b :: s) = skipString s := by
  have ⟨hLow, _, hSlash⟩ := h
  have hNot : ¬((b < 0x20 || b = 0x5C) = true) := by simp [not_lt.mpr hLow, hSlash]
  rw [skipString, if_neg hNot]
  all_goals intros; contradiction

theorem skipString_plain (h : ∀ b ∈ s, plain b) : skipString (s ++ t) = skipString t := by
  induction s
  case nil => rfl
  case cons b s hi =>
    have ⟨hb, hs⟩ := List.forall_mem_cons.mp h
    rw [List.cons_append, skipString_cons hb, hi hs]

theorem skipString_short (h : b ∈ ofString "\"\\/bfnrt") :
    skipString (0x5C :: b :: s) = skipString s := by
  rw [skipString, if_pos h]
  rintro a b c d t rfl _
  exact absurd h (by decide)

theorem getu4_hex {a b c d : UInt8} (h : getu4 (a :: b :: c :: d :: s) = some r) :
    ([a, b, c, d].all fun h => (unhex h).isSome) = true := by
  simp only [getu4, Option.bind_eq_bind, Option.bind_eq_some_iff] at h
  have ⟨_, ha, _, hb, _, hc, _, hd, _⟩ := h
  simp [ha, hb, hc, hd]

theorem Written.skipString {u : GoString} (h : Written r u) :
    GoJson.skipString (u ++ t) = GoJson.skipString t := by
  cases h
  case short e he => exact skipString_short he
  case unit a b c d hr hu =>
    change GoJson.skipString (0x5C :: 0x75 :: a :: b :: c :: d :: t) = _
    rw [GoJson.skipString, if_pos (getu4_hex (hu []))]
  case plain hp => exact skipString_plain hp

theorem decodePair_low (hr : r < 0xD800) (o : Option Nat) : o.bind (decodePair r) = none := by
  cases o
  case none   => rfl
  case some l =>
    simp only [Option.bind_some, decodePair]
    rw [if_neg]
    simp only [Bool.and_eq_true, decide_eq_true_eq]
    omega

theorem Written.ne_nil {u : GoString} (h : Written r u) : u ≠ [] := by
  cases h
  case plain => exact encodeRune_ne_nil r
  all_goals exact List.cons_ne_nil _ _

theorem unquoteFrom_append (u t : GoString) : unquoteFrom u.length (u ++ t) = unquoteFrom 0 t := by
  induction u
  case nil         => rfl
  case cons b s hi => exact hi

-- A round reads what has been written for a code point.
set_option maxRecDepth 20000 in
theorem Written.unquoteRune {u : GoString} (h : Written r u) :
    GoJson.unquoteRune (u ++ t) = (encodeRune r, u.length) := by
  cases h
  case short e he =>
    change GoJson.unquoteRune (0x5C :: e :: t) = _
    have hEncode : ∀ e ∈ ofString "\"\\/bfnrt", encodeRune (unescape e).toNat = [unescape e] := by
      decide
    rw [GoJson.unquoteRune, hEncode e he]
    · rfl
    · rintro rfl
      exact absurd he (by decide)
  case unit a b c d hr hu =>
    change GoJson.unquoteRune (0x5C :: 0x75 :: a :: b :: c :: d :: t) = _
    rw [GoJson.unquoteRune]
    simp only [hu, Option.getD_some, decodePair_low hr]
    rfl
  case plain hr hp =>
    have hd := (encodes_encodeRune hr).decodeRune t
    have ⟨b, s, hs⟩ := List.exists_cons_of_ne_nil (encodeRune_ne_nil r)
    have hb := hp b (hs ▸ List.mem_cons_self)
    have ⟨_, _, hSlash⟩ := hb
    have he : encodeRune r ++ t = b :: (s ++ t) := by rw [hs]; rfl
    rw [he] at hd ⊢
    rw [GoJson.unquoteRune, hd]
    · rfl
    all_goals intros; simp_all

theorem Written.unquoteFrom {u : GoString} (h : Written r u) :
    GoJson.unquoteFrom 0 (u ++ t) = encodeRune r ++ GoJson.unquoteFrom 0 t := by
  have hr := h.unquoteRune (t := t)
  have ⟨b, s, hs⟩ := List.exists_cons_of_ne_nil h.ne_nil
  subst hs
  rw [List.cons_append] at hr ⊢
  rw [GoJson.unquoteFrom, hr]
  simp only [List.length_cons, Nat.add_sub_cancel, unquoteFrom_append]

-- A string is written so that a decoder reads it as it was.
theorem escape_roundTrip (h : valid s) (t : GoString) :
    skipString ((chunks s).flatMap escape ++ t) = skipString t ∧
      unquote ((chunks s).flatMap escape) = s := by
  have ⟨rs, hr, hs⟩ := valid_iff.mp h
  subst hs
  rw [chunks_flatMap hr, List.flatMap_map]
  clear h
  induction rs
  case nil => exact ⟨rfl, rfl⟩
  case cons r rs hi =>
    have ⟨hr, hrs⟩ := List.forall_mem_cons.mp hr
    have hw := written_escape hr
    have ⟨hSkip, hUnquote⟩ := hi hrs
    rw [List.flatMap_cons, List.flatMap_cons, List.append_assoc, hw.skipString, unquote,
      hw.unquoteFrom]
    exact ⟨hSkip, congrArg _ hUnquote⟩

theorem skipValue_string (depth : Nat) (s : GoString) :
    skipValue depth (0x22 :: s) = skipString s := by
  cases depth <;> rfl

-- Go reads back the strings that it writes.
theorem unmarshalString_marshalString (h : valid s) : unmarshalString (marshalString s) = some s := by
  have ⟨hSkip, hUnquote⟩ := escape_roundTrip h [0x22]
  have hSpace (t : GoString) : skipSpace (0x22 :: t) = 0x22 :: t := rfl
  have hRest : skipString [0x22] = some [] := rfl
  simp only [unmarshalString, marshalString, List.cons_append, hSpace, skipValue_string, hSkip, hRest,
    Option.bind_eq_bind, Option.bind_some]
  rw [if_neg (by simp [skipSpace])]
  simp [hUnquote]

-- What the scanner accepts it also accepts with anything after it.
theorem skipString_append (h : skipString s = some t) (u : GoString) :
    skipString (s ++ u) = some (t ++ u) := by
  fun_induction skipString s
  case case1 => cases h; rfl
  case case2 hc hi =>
    simp only [List.cons_append, skipString, hc, if_true]
    exact hi h
  case case4 he hi => exact (skipString_short he).trans <| hi h
  case case7 hQuote _ _ hn hi =>
    simp only [Bool.or_eq_true, decide_eq_true_eq, not_or, not_lt] at hn
    exact (skipString_cons ⟨hn.left, hQuote, hn.right⟩).trans <| hi h
  all_goals cases h

end RoundTrip

end GoJson

import Mathlib.Algebra.GroupWithZero.Nat
import Mathlib.Data.List.Lex
import Mathlib.Tactic.Common

instance UInt8.linearOrder : LinearOrder UInt8 where
  le_refl              := UInt8.le_refl
  le_trans _ _ _       := UInt8.le_trans
  le_antisymm _ _      := UInt8.le_antisymm
  le_total             := UInt8.le_total
  lt_iff_le_not_ge _ _ := by simp [UInt8.lt_iff_le_and_ne]
  toDecidableLE        := inferInstance
  toDecidableEq        := inferInstance
  toDecidableLT        := inferInstance

instance UInt8.lawfulBEq : LawfulBEq UInt8 :=
  inferInstance

-- A Go string is a sequence of bytes that need not be valid UTF-8. Strings are ordered bytewise.
abbrev GoString := List UInt8

instance GoString.lawfulBEq : LawfulBEq GoString :=
  inferInstance

namespace GoString

-- The bytes of a string literal
def ofString (s : String) : GoString :=
  s.toByteArray.data.toList

instance : Coe String GoString where
  coe := ofString

@[simp]
theorem ofString_inj {s t : String} : ofString s = ofString t ↔ s = t where
  mp h  := String.toByteArray_inj.mp <| ByteArray.ext <| Array.toList_inj.mp h
  mpr h := h ▸ rfl

@[simp]
theorem ofString_beq {s t : String} : (ofString s == ofString t) = (s == t) := by
  by_cases h : s = t <;> simp [h]

-- A code point, as Go's `rune`.
abbrev Rune := Nat

def runeError : Rune := 0xFFFD

def isContinuation (b : UInt8) : Bool :=
  0x80 ≤ b && b ≤ 0xBF

def tailBits (b : UInt8) : Nat :=
  b.toNat % 64

-- The rune that starts a string and its width, as `utf8.DecodeRune` computes it. A byte that starts
-- no valid sequence is `none` of width 1.
def decodeRune : GoString → Option Rune × Nat
  | [] => (none, 0)
  | b₀ :: s =>
    if b₀ < 0x80 then
      (some b₀.toNat, 1)
    else if 0xC2 ≤ b₀ && b₀ ≤ 0xDF then
      match s with
      | b₁ :: _ =>
        if isContinuation b₁ then (some (b₀.toNat % 32 * 64 + tailBits b₁), 2) else (none, 1)
      | _ => (none, 1)
    else if 0xE0 ≤ b₀ && b₀ ≤ 0xEF then
      match s with
      | b₁ :: b₂ :: _ =>
        let low : UInt8 := if b₀ = 0xE0 then 0xA0 else 0x80
        let high : UInt8 := if b₀ = 0xED then 0x9F else 0xBF
        if low ≤ b₁ && b₁ ≤ high && isContinuation b₂ then
          (some (b₀.toNat % 16 * 4096 + tailBits b₁ * 64 + tailBits b₂), 3)
        else
          (none, 1)
      | _ => (none, 1)
    else if 0xF0 ≤ b₀ && b₀ ≤ 0xF4 then
      match s with
      | b₁ :: b₂ :: b₃ :: _ =>
        let low : UInt8 := if b₀ = 0xF0 then 0x90 else 0x80
        let high : UInt8 := if b₀ = 0xF4 then 0x8F else 0xBF
        if low ≤ b₁ && b₁ ≤ high && isContinuation b₂ && isContinuation b₃ then
          (some (b₀.toNat % 8 * 262144 + tailBits b₁ * 4096 + tailBits b₂ * 64 + tailBits b₃), 4)
        else
          (none, 1)
      | _ => (none, 1)
    else
      (none, 1)

-- One round of `for i, ch := range s`: the decoded rune, or `none` for an invalid byte, and the
-- bytes it was decoded from.
structure Chunk where
  rune  : Option Rune
  bytes : GoString
  deriving DecidableEq

-- The value `range` yields for a chunk: an invalid byte reads as `utf8.RuneError`.
def Chunk.value (c : Chunk) : Rune :=
  c.rune.getD runeError

-- `skip` counts the bytes that the previous chunk has already consumed.
def chunksFrom : Nat → GoString → List Chunk
  | _, [] => []
  | skip + 1, _ :: s => chunksFrom skip s
  | 0, b :: s =>
    let (r, width) := decodeRune (b :: s)
    ⟨r, (b :: s).take width⟩ :: chunksFrom (width - 1) s

def chunks (s : GoString) : List Chunk :=
  chunksFrom 0 s

-- `utf8.ValidString`
def valid (s : GoString) : Bool :=
  (chunks s).all (·.rune.isSome)

-- `utf8.RuneCountInString`
def runeCount (s : GoString) : Nat :=
  (chunks s).length

-- `utf8.AppendRune`: surrogates and values out of range are written as `utf8.RuneError`.
def encodeRune (r : Rune) : GoString :=
  if r < 0x80 then
    [.ofNat r]
  else if r < 0x800 then
    [.ofNat (0xC0 + r / 64), .ofNat (0x80 + r % 64)]
  else if (0xD800 ≤ r && r ≤ 0xDFFF) || 0x10FFFF < r then
    [0xEF, 0xBF, 0xBD]
  else if r < 0x10000 then
    [.ofNat (0xE0 + r / 4096), .ofNat (0x80 + r / 64 % 64), .ofNat (0x80 + r % 64)]
  else
    [.ofNat (0xF0 + r / 262144), .ofNat (0x80 + r / 4096 % 64), .ofNat (0x80 + r / 64 % 64),
      .ofNat (0x80 + r % 64)]

-- `unicode.IsSpace`
def isSpace (r : Rune) : Bool :=
  (0x09 ≤ r && r ≤ 0x0D) || r == 0x20 || r == 0x85 || r == 0xA0 || r == 0x1680 ||
  (0x2000 ≤ r && r ≤ 0x200A) || r == 0x2028 || r == 0x2029 || r == 0x202F || r == 0x205F ||
  r == 0x3000

-- `strings.TrimSpace`
def trimSpace (s : GoString) : GoString :=
  let blank (c : Chunk) := isSpace c.value
  (((chunks s).dropWhile blank).reverse.dropWhile blank).reverse.flatMap (·.bytes)

-- `strings.Trim` for a cutset of ASCII characters
def trim (s cutset : GoString) : GoString :=
  ((s.dropWhile (· ∈ cutset)).reverse.dropWhile (· ∈ cutset)).reverse

-- `strings.TrimSuffix`
def trimSuffix (s suffix : GoString) : GoString :=
  if suffix <:+ s then s.take (s.length - suffix.length) else s

-- `strings.Contains` for a single byte
def containsByte (s : GoString) (b : UInt8) : Bool :=
  s.contains b

-- `strings.Split` for a single byte
def split (s : GoString) (b : UInt8) : List GoString :=
  s.splitOn b

-- `strings.CutPrefix`
def cutPrefix (s : GoString) (start : GoString) : Option GoString :=
  start.isPrefixOf? s

def unhex (b : UInt8) : Option Nat :=
  if 0x30 ≤ b && b ≤ 0x39 then some (b.toNat - 0x30)
  else if 0x61 ≤ b && b ≤ 0x66 then some (b.toNat - 0x61 + 10)
  else if 0x41 ≤ b && b ≤ 0x46 then some (b.toNat - 0x41 + 10)
  else none

-- `url.PathUnescape`
def pathUnescape : GoString → Option GoString
  | 0x25 :: h :: l :: s => do
    let high ← unhex h
    let low ← unhex l
    let rest ← pathUnescape s
    return .ofNat (high * 16 + low) :: rest
  | 0x25 :: _ => none
  | b :: s => do
    let rest ← pathUnescape s
    return b :: rest
  | [] => some []

-- The Unicode table behind `unicode.ToLower`. Only ASCII is fixed here, what the table says
-- elsewhere is left open.
class CaseTable where
  lower : Rune → Rune

def lowerByte (b : UInt8) : UInt8 :=
  if 0x41 ≤ b && b ≤ 0x5A then b + 0x20 else b

-- `unicode.ToLower`
def lowerRune [CaseTable] (r : Rune) : Rune :=
  if r < 0x80 then
    (lowerByte (.ofNat r)).toNat
  else
    CaseTable.lower r

-- `strings.ToLower`: the fast path maps the bytes of an ASCII string, the general path maps the
-- runes and writes an invalid byte as the lower case of `utf8.RuneError`.
def toLower [CaseTable] (s : GoString) : GoString :=
  if s.all (· < 0x80) then
    s.map lowerByte
  else
    (chunks s).flatMap fun c => encodeRune (lowerRune c.value)

theorem encodeRune_ne_nil (r : Rune) : encodeRune r ≠ [] := by
  unfold encodeRune
  split_ifs <;> simp

@[simp]
theorem toLower_eq_nil [CaseTable] {s : GoString} : toLower s = [] ↔ s = [] := by
  unfold toLower
  split
  case isTrue  => simp
  case isFalse =>
    cases s
    case nil  => simp [chunks, chunksFrom]
    case cons => simp [chunks, chunksFrom, encodeRune_ne_nil]

theorem exists_mem_split {s : GoString} (hb : b ∈ s) (hne : b ≠ sep) :
    ∃ l ∈ split s sep, b ∈ l := by
  unfold split
  induction s
  case nil => contradiction
  case cons b' s hi =>
    rw [List.splitOn_cons_eq_if_modifyHead]
    split
    case isTrue he =>
      rw [beq_iff_eq] at he
      have ⟨l, hl, hb⟩ := hi <| (List.mem_cons.mp hb).resolve_left fun e => hne (e.trans he)
      exact ⟨l, List.mem_cons_of_mem _ hl, hb⟩
    case isFalse =>
      obtain ⟨l, ls, hs⟩ := List.exists_cons_of_ne_nil <| List.splitOn_ne_nil sep s
      rw [hs] at hi ⊢
      cases List.mem_cons.mp hb
      case inl he => exact ⟨b' :: l, by simp, by simp [he]⟩
      case inr hm =>
        have ⟨l', hl', hb'⟩ := hi hm
        cases List.mem_cons.mp hl'
        case inl he => exact ⟨b' :: l, by simp, by simp [←he, hb']⟩
        case inr hm => exact ⟨l', by simp [hm], hb'⟩

-- A byte outside ASCII is never decoded to an ASCII rune.
theorem decodeRune_high (h : ¬b < 0x80) : 0x80 ≤ ((decodeRune (b :: s)).1).getD runeError := by
  have hb : 128 ≤ b.toNat := by simpa [UInt8.lt_iff_toNat_lt] using h
  have hNone : 0x80 ≤ (none : Option Rune).getD runeError := by decide
  have hIf {c : Prop} [Decidable c] {x w : Nat} (hx : c → 0x80 ≤ x) :
      0x80 ≤ (if c then (some x, w) else (none, 1)).1.getD runeError := by
    split
    case isTrue hc => exact hx hc
    case isFalse   => exact hNone
  simp only [decodeRune, h, reduceIte]
  split
  case isTrue h₁ =>
    simp only [Bool.and_eq_true, decide_eq_true_eq, UInt8.le_iff_toNat_le, UInt8.reduceToNat] at h₁
    split
    case h_1 => exact hIf fun _ => by omega
    case h_2 => exact hNone
  case isFalse h₁ =>
    split
    case isTrue h₂ =>
      simp only [Bool.and_eq_true, decide_eq_true_eq, UInt8.le_iff_toNat_le,
        UInt8.reduceToNat] at h₂
      split
      case h_2     => exact hNone
      case h_1 b₁ b₂ _ =>
        refine hIf fun h₃ => ?_
        by_cases e : b = 0xE0
        case pos =>
          simp only [e, show ¬(0xE0 : UInt8) = 0xED by decide, reduceIte, Bool.and_eq_true,
            decide_eq_true_eq, isContinuation, UInt8.le_iff_toNat_le, UInt8.reduceToNat] at h₃
          unfold tailBits
          omega
        case neg =>
          have : b.toNat ≠ 0xE0 := fun he => e (UInt8.toNat_inj.mp he)
          omega
    case isFalse h₂ =>
      split
      case isFalse => exact hNone
      case isTrue h₃ =>
        simp only [Bool.and_eq_true, decide_eq_true_eq, UInt8.le_iff_toNat_le,
          UInt8.reduceToNat] at h₃
        split
        case h_2 => exact hNone
        case h_1 b₁ b₂ b₃ _ =>
          refine hIf fun h₄ => ?_
          by_cases e : b = 0xF0
          case pos =>
            simp only [e, show ¬(0xF0 : UInt8) = 0xF4 by decide, reduceIte, Bool.and_eq_true,
              decide_eq_true_eq, isContinuation, UInt8.le_iff_toNat_le, UInt8.reduceToNat] at h₄
            unfold tailBits
            omega
          case neg =>
            have : b.toNat ≠ 0xF0 := fun he => e (UInt8.toNat_inj.mp he)
            omega

-- A string that decodes to ASCII runes only has these runes as its bytes.
theorem exists_chunk {s : GoString} (h : ∀ c ∈ chunks s, c.value < 0x80) (hb : b ∈ s) :
    ∃ c ∈ chunks s, c.value = b.toNat := by
  unfold chunks at *
  induction s
  case nil => contradiction
  case cons b' s hi =>
    have hLow : b' < 0x80 := by
      by_contra hn
      have := h _ <| by rw [chunksFrom]; exact List.mem_cons_self
      exact absurd this <| Nat.not_lt.mpr <| decodeRune_high hn
    have hc : chunksFrom 0 (b' :: s) = ⟨some b'.toNat, [b']⟩ :: chunksFrom 0 s := by
      simp [chunksFrom, decodeRune, hLow]
    rw [hc] at h ⊢
    cases List.mem_cons.mp hb
    case inl he => exact ⟨_, List.mem_cons_self, by simp [Chunk.value, he]⟩
    case inr hm =>
      have ⟨c, hc, hv⟩ := hi (fun c hc => h c <| List.mem_cons_of_mem _ hc) hm
      exact ⟨c, List.mem_cons_of_mem _ hc, hv⟩

end GoString

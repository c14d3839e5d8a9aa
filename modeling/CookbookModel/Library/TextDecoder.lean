import CookbookModel.Library.JsString
import CookbookModel.Library.Utf8

namespace JsString

open GoString (Rune encodeRune isScalar Encodes)

-- `String.fromCodePoint(c)`
def fromCodePoint (c : Rune) : JsString :=
  if c < 0x10000 then
    [.ofNat c]
  else
    [.ofNat (0xD800 + (c - 0x10000) / 1024), .ofNat (0xDC00 + (c - 0x10000) % 1024)]

-- `s.codePointAt(0)`
def codePointAt (s : JsString) : Option Rune :=
  (codePoints s).head?

theorem fromCodePoint_ne_nil : fromCodePoint c ≠ [] := by
  unfold fromCodePoint
  split <;> exact List.cons_ne_nil _ _

theorem fromCodePoint_unit (u : UInt16) : fromCodePoint u.toNat = [u] := by
  rw [fromCodePoint, if_pos u.toNat_lt, UInt16.ofNat_toNat]

theorem codePoints_eq_nil {s : JsString} : codePoints s = [] ↔ s = [] := by
  fun_cases codePoints s <;> simp

theorem fromCodePoint_pair {u v : UInt16}
    (h : (0xD800 ≤ u && u ≤ 0xDBFF && 0xDC00 ≤ v && v ≤ 0xDFFF) = true) :
    fromCodePoint (0x10000 + (u.toNat - 0xD800) * 1024 + (v.toNat - 0xDC00)) = [u, v] := by
  simp only [Bool.and_eq_true, decide_eq_true_eq, UInt16.le_iff_toNat_le, UInt16.reduceToNat] at h
  have hn : ¬0x10000 + (u.toNat - 0xD800) * 1024 + (v.toNat - 0xDC00) < 0x10000 := by omega
  have hu : 0xD800 + (0x10000 + (u.toNat - 0xD800) * 1024 + (v.toNat - 0xDC00) - 0x10000) / 1024 =
      u.toNat := by
    omega
  have hv : 0xDC00 + (0x10000 + (u.toNat - 0xD800) * 1024 + (v.toNat - 0xDC00) - 0x10000) % 1024 =
      v.toNat := by
    omega
  rw [fromCodePoint, if_neg hn, hu, hv, UInt16.ofNat_toNat, UInt16.ofNat_toNat]

-- The rest of the code points are those of the rest of the string.
theorem codePoints_drop {s : JsString} (h : codePoints s = c :: cs) :
    codePoints (s.drop (fromCodePoint c).length) = cs := by
  revert h
  fun_cases codePoints s
  case case1 => exact nofun
  case case2 u =>
    rintro ⟨⟩
    rw [fromCodePoint_unit]
    rfl
  case case3 u v t _ =>
    intro h
    have ⟨hc, hcs⟩ := List.cons.inj h
    have hn : ¬c < 0x10000 := by
      rw [←hc]
      exact Nat.not_lt.mpr <| (Nat.le_add_right ..).trans (Nat.le_add_right ..)
    rw [fromCodePoint, if_neg hn]
    exact hcs
  case case4 u v t _ =>
    rintro ⟨⟩
    rw [fromCodePoint_unit]
    rfl

-- A code point of a string is the only one of the string that it makes.
theorem codePoints_fromCodePoint {s : JsString} (h : codePoints s = c :: cs) :
    codePoints (fromCodePoint c) = [c] := by
  revert h
  fun_cases codePoints s
  case case1 => exact nofun
  case case2 u =>
    rintro ⟨⟩
    rw [fromCodePoint_unit]
    rfl
  case case3 u v t hp =>
    intro h
    have ⟨hc, _⟩ := List.cons.inj h
    rw [←hc, fromCodePoint_pair hp, codePoints, if_pos hp]
    rfl
  case case4 u v t _ =>
    rintro ⟨⟩
    rw [fromCodePoint_unit]
    rfl

-- A code unit below the surrogates is a code point.
theorem codePoints_cons {u : UInt16} (h : u.toNat < 0xD800) (s : JsString) :
    codePoints (u :: s) = u.toNat :: codePoints s := by
  cases s
  case nil => rfl
  case cons v s =>
    have hu : ¬0xD800 ≤ u := by
      rw [UInt16.le_iff_toNat_le]
      exact not_le.mpr h
    simp [codePoints, hu]

theorem codePoints_unit {s : JsString} (h : codePoints s = c :: cs) (hc' : c < 0xD800) :
    ∃ u t, s = u :: t ∧ u.toNat = c ∧ codePoints t = cs := by
  revert h
  fun_cases codePoints s
  case case1 => exact nofun
  case case2 u =>
    rintro ⟨⟩
    exact ⟨u, [], rfl, rfl, rfl⟩
  case case3 u v t _ =>
    intro h
    have hc : 0x10000 ≤ c :=
      (List.cons.inj h).left ▸ (Nat.le_add_right ..).trans (Nat.le_add_right ..)
    exact absurd hc <| not_le.mpr <| hc'.trans (by decide)
  case case4 u v t _ =>
    rintro ⟨⟩
    exact ⟨u, v :: t, rfl, rfl, rfl⟩

-- A sequence that has begun: the bits that have been read, the number of bytes that are needed and
-- the bounds of the next one.
structure Pending where
  bits   : Nat
  needed : Nat
  lower  : UInt8
  upper  : UInt8

-- The UTF-8 decoder at the first byte of a sequence
def decodeFirst (b : UInt8) : List Rune × Option Pending :=
  if b < 0x80 then
    ([b.toNat], none)
  else if 0xC2 ≤ b && b ≤ 0xDF then
    ([], some ⟨b.toNat % 32, 1, 0x80, 0xBF⟩)
  else if 0xE0 ≤ b && b ≤ 0xEF then
    ([], some ⟨b.toNat % 16, 2, if b = 0xE0 then 0xA0 else 0x80, if b = 0xED then 0x9F else 0xBF⟩)
  else if 0xF0 ≤ b && b ≤ 0xF4 then
    ([], some ⟨b.toNat % 8, 3, if b = 0xF0 then 0x90 else 0x80, if b = 0xF4 then 0x8F else 0xBF⟩)
  else
    ([0xFFFD], none)

-- A byte that does not continue the sequence is read again as the first of the next one.
def decodeNext (p : Pending) (b : UInt8) : List Rune × Option Pending :=
  if b < p.lower || p.upper < b then
    (0xFFFD :: (decodeFirst b).1, (decodeFirst b).2)
  else
    let bits := p.bits * 64 + b.toNat % 64
    if p.needed = 1 then ([bits], none) else ([], some ⟨bits, p.needed - 1, 0x80, 0xBF⟩)

def decodeFrom : Option Pending → List UInt8 → List Rune
  | none, []           => []
  | some _, []         => [0xFFFD]
  | none, b :: bytes   => (decodeFirst b).1 ++ decodeFrom (decodeFirst b).2 bytes
  | some p, b :: bytes => (decodeNext p b).1 ++ decodeFrom (decodeNext p b).2 bytes

-- The first code point is left out if it is a byte order mark.
def dropMark : List Rune → List Rune
  | []      => []
  | c :: cs => if c = 0xFEFF then cs else c :: cs

-- `new TextDecoder().decode(bytes)`
def decode (bytes : List UInt8) : JsString :=
  (dropMark (decodeFrom none bytes)).flatMap fromCodePoint

theorem decodeNext_inside {p : Pending} {b : UInt8} (h : p.lower.toNat ≤ b.toNat)
    (h' : b.toNat ≤ p.upper.toNat) :
    decodeNext p b =
      if p.needed = 1 then ([p.bits * 64 + b.toNat % 64], none)
      else ([], some ⟨p.bits * 64 + b.toNat % 64, p.needed - 1, 0x80, 0xBF⟩) := by
  have hn : ¬(b < p.lower || p.upper < b) = true := by
    simp only [Bool.or_eq_true, decide_eq_true_eq, UInt8.lt_iff_toNat_lt]
    omega
  rw [decodeNext, if_neg hn]

theorem not_low {b : UInt8} (h : 0x80 ≤ b.toNat) : ¬b < 0x80 := by
  rw [UInt8.lt_iff_toNat_lt]
  exact not_lt.mpr h

theorem decodeFirst_two {b : UInt8} (h : 0xC2 ≤ b.toNat ∧ b.toNat ≤ 0xDF) :
    decodeFirst b = ([], some ⟨b.toNat % 32, 1, 0x80, 0xBF⟩) := by
  have hFirst : (0xC2 ≤ b && b ≤ 0xDF) = true := GoString.between_iff.mpr h
  rw [decodeFirst, if_neg (not_low (by omega)), if_pos hFirst]

theorem decodeFirst_three {b : UInt8} (h : 0xE0 ≤ b.toNat ∧ b.toNat ≤ 0xEF) :
    decodeFirst b = ([], some
      ⟨b.toNat % 16, 2, if b = 0xE0 then 0xA0 else 0x80, if b = 0xED then 0x9F else 0xBF⟩) := by
  have hFirst : (0xE0 ≤ b && b ≤ 0xEF) = true := GoString.between_iff.mpr h
  have hn : ¬(0xC2 ≤ b && b ≤ 0xDF) = true := by
    rw [GoString.between_iff]
    simp only [UInt8.reduceToNat]
    omega
  rw [decodeFirst, if_neg (not_low (by omega)), if_neg hn, if_pos hFirst]

theorem decodeFirst_four {b : UInt8} (h : 0xF0 ≤ b.toNat ∧ b.toNat ≤ 0xF4) :
    decodeFirst b = ([], some
      ⟨b.toNat % 8, 3, if b = 0xF0 then 0x90 else 0x80, if b = 0xF4 then 0x8F else 0xBF⟩) := by
  have hFirst : (0xF0 ≤ b && b ≤ 0xF4) = true := GoString.between_iff.mpr h
  have hn {low high : UInt8} (hh : high.toNat < 0xF0) : ¬(low ≤ b && b ≤ high) = true := by
    rw [GoString.between_iff]
    omega
  rw [decodeFirst, if_neg (not_low (by omega)), if_neg (hn (by decide)), if_neg (hn (by decide)),
    if_pos hFirst]

theorem decodeFrom_first {b : UInt8} (h : decodeFirst b = ([], some p)) (bytes : List UInt8) :
    decodeFrom none (b :: bytes) = decodeFrom (some p) bytes := by
  rw [decodeFrom, h, List.nil_append]

theorem decodeFrom_last {bits : Nat} {lower upper b : UInt8}
    (h : lower.toNat ≤ b.toNat ∧ b.toNat ≤ upper.toNat) (bytes : List UInt8) :
    decodeFrom (some ⟨bits, 1, lower, upper⟩) (b :: bytes) =
      (bits * 64 + b.toNat % 64) :: decodeFrom none bytes := by
  rw [decodeFrom, decodeNext_inside h.left h.right]
  rfl

theorem decodeFrom_more {bits needed : Nat} {lower upper b : UInt8}
    (h : lower.toNat ≤ b.toNat ∧ b.toNat ≤ upper.toNat) (bytes : List UInt8) :
    decodeFrom (some ⟨bits, needed + 2, lower, upper⟩) (b :: bytes) =
      decodeFrom (some ⟨bits * 64 + b.toNat % 64, needed + 1, 0x80, 0xBF⟩) bytes := by
  rw [decodeFrom, decodeNext_inside h.left h.right]
  rfl

-- An encoded code point is read back.
theorem Encodes.decodeFrom {u : List UInt8} {c : Nat} (h : Encodes u c) (bytes : List UInt8) :
    decodeFrom none (u ++ bytes) = c :: decodeFrom none bytes := by
  have hLast {bits : Nat} {b : UInt8} (h : 0x80 ≤ b.toNat ∧ b.toNat ≤ 0xBF) :=
    @decodeFrom_last bits 0x80 0xBF b h bytes
  cases h
  case one b₀ h =>
    have hFirst : b₀ < 0x80 := UInt8.lt_iff_toNat_lt.mpr h
    simp only [List.cons_append, List.nil_append, JsString.decodeFrom, decodeFirst, if_pos hFirst]
  case two b₀ b₁ h₀ h₁ =>
    simp only [List.cons_append, List.nil_append]
    rw [decodeFrom_first (decodeFirst_two h₀), hLast h₁]
  case three b₀ b₁ b₂ h₀ h₁ h₂ hl hh =>
    simp only [List.cons_append, List.nil_append]
    rw [decodeFrom_first (decodeFirst_three h₀), @decodeFrom_more _ 0, hLast h₂]
    · simp only [Nat.add_mul, Nat.mul_assoc, Nat.reduceMul]
    · split_ifs <;> simp only [←UInt8.toNat_inj, UInt8.reduceToNat] at * <;> omega
  case four b₀ b₁ b₂ b₃ h₀ h₁ h₂ h₃ hl hh =>
    have hMore {bits : Nat} := @decodeFrom_more bits 0 0x80 0xBF b₂ h₂ (b₃ :: bytes)
    simp only [List.cons_append, List.nil_append]
    rw [decodeFrom_first (decodeFirst_four h₀), @decodeFrom_more _ 1, hMore, hLast h₃]
    · simp only [Nat.add_mul, Nat.mul_assoc, Nat.reduceMul]
    · split_ifs <;> simp only [←UInt8.toNat_inj, UInt8.reduceToNat] at * <;> omega

theorem decodeFrom_encode {cs : List Rune} (h : ∀ c ∈ cs, isScalar c) :
    decodeFrom none (cs.flatMap encodeRune) = cs := by
  induction cs
  case nil => rfl
  case cons c cs hi =>
    have ⟨hc, hcs⟩ := List.forall_mem_cons.mp h
    rw [List.flatMap_cons, Encodes.decodeFrom (GoString.encodes_encodeRune hc), hi hcs]

end JsString

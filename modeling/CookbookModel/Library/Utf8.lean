import CookbookModel.Library.GoString

namespace GoString

-- A code point that has an encoding
def isScalar (r : Rune) : Bool :=
  r < 0xD800 || (0xDFFF < r && r ≤ 0x10FFFF)

-- The encodings of a rune, by their lengths.
inductive Encodes : GoString → Nat → Prop
  | one   (h : b₀.toNat < 0x80) : Encodes [b₀] b₀.toNat
  | two   (h₀ : 0xC2 ≤ b₀.toNat ∧ b₀.toNat ≤ 0xDF) (h₁ : 0x80 ≤ b₁.toNat ∧ b₁.toNat ≤ 0xBF) :
    Encodes [b₀, b₁] (b₀.toNat % 32 * 64 + b₁.toNat % 64)
  | three (h₀ : 0xE0 ≤ b₀.toNat ∧ b₀.toNat ≤ 0xEF) (h₁ : 0x80 ≤ b₁.toNat ∧ b₁.toNat ≤ 0xBF)
    (h₂ : 0x80 ≤ b₂.toNat ∧ b₂.toNat ≤ 0xBF) (hl : b₀.toNat = 0xE0 → 0xA0 ≤ b₁.toNat)
    (hh : b₀.toNat = 0xED → b₁.toNat ≤ 0x9F) :
    Encodes [b₀, b₁, b₂] (b₀.toNat % 16 * 4096 + b₁.toNat % 64 * 64 + b₂.toNat % 64)
  | four  (h₀ : 0xF0 ≤ b₀.toNat ∧ b₀.toNat ≤ 0xF4) (h₁ : 0x80 ≤ b₁.toNat ∧ b₁.toNat ≤ 0xBF)
    (h₂ : 0x80 ≤ b₂.toNat ∧ b₂.toNat ≤ 0xBF) (h₃ : 0x80 ≤ b₃.toNat ∧ b₃.toNat ≤ 0xBF)
    (hl : b₀.toNat = 0xF0 → 0x90 ≤ b₁.toNat) (hh : b₀.toNat = 0xF4 → b₁.toNat ≤ 0x8F) :
    Encodes [b₀, b₁, b₂, b₃]
      (b₀.toNat % 8 * 262144 + b₁.toNat % 64 * 4096 + b₂.toNat % 64 * 64 + b₃.toNat % 64)

section

variable {r : Nat} {rs : List Rune} {s t : GoString} {w : Nat} {b : UInt8}

theorem isScalar_iff : isScalar r = true ↔ r < 0xD800 ∨ (0xDFFF < r ∧ r ≤ 0x10FFFF) := by
  simp [isScalar]

theorem Encodes.isScalar (h : Encodes s r) : isScalar r = true := by
  rw [isScalar_iff]
  cases h <;> omega

theorem ofNat_eq {n : Nat} (h : n = b.toNat) : UInt8.ofNat n = b :=
  h ▸ UInt8.ofNat_toNat

theorem toNat_ofNat {n : Nat} (h : n < 256) : (UInt8.ofNat n).toNat = n := by
  rw [UInt8.toNat_ofNat', Nat.mod_eq_of_lt h]

-- A code point has one encoding only.
theorem Encodes.encodeRune (h : Encodes s r) : encodeRune r = s := by
  unfold GoString.encodeRune
  cases h
  case one h =>
    rw [if_pos h, UInt8.ofNat_toNat]
  case two b₀ b₁ h₀ h₁ =>
    rw [if_neg, if_pos, ofNat_eq (b := b₀), ofNat_eq (b := b₁)]
    all_goals simp only [Rune]; omega
  case three b₀ b₁ b₂ h₀ h₁ h₂ hl hh =>
    rw [if_neg, if_neg, if_neg, if_pos, ofNat_eq (b := b₀), ofNat_eq (b := b₁), ofNat_eq (b := b₂)]
    all_goals simp only [Rune, Bool.or_eq_true, Bool.and_eq_true, decide_eq_true_eq]; omega
  case four b₀ b₁ b₂ b₃ h₀ h₁ h₂ h₃ hl hh =>
    rw [if_neg, if_neg, if_neg, if_neg, ofNat_eq (b := b₀), ofNat_eq (b := b₁),
      ofNat_eq (b := b₂), ofNat_eq (b := b₃)]
    all_goals simp only [Rune, Bool.or_eq_true, Bool.and_eq_true, decide_eq_true_eq]; omega

theorem Encodes.of_eq {n : Nat} (h : Encodes s n) (hr : n = r) : Encodes s r :=
  hr ▸ h

theorem encodes_encodeRune (h : GoString.isScalar r) : Encodes (GoString.encodeRune r) r := by
  rw [isScalar_iff] at h
  unfold GoString.encodeRune
  split_ifs with h₁ h₂ h₃ h₄
  all_goals simp only [Rune, Bool.or_eq_true, Bool.and_eq_true, decide_eq_true_eq] at *
  case pos =>
    have e₀ := toNat_ofNat (n := r) (by omega)
    exact .of_eq (.one (by omega)) e₀
  case pos =>
    have e₀ := toNat_ofNat (n := 0xC0 + r / 64) (by omega)
    have e₁ := toNat_ofNat (n := 0x80 + r % 64) (by omega)
    refine .of_eq (.two ?_ ?_) ?_ <;> omega
  case pos => omega
  case pos =>
    have e₀ := toNat_ofNat (n := 0xE0 + r / 4096) (by omega)
    have e₁ := toNat_ofNat (n := 0x80 + r / 64 % 64) (by omega)
    have e₂ := toNat_ofNat (n := 0x80 + r % 64) (by omega)
    refine .of_eq (.three ?_ ?_ ?_ ?_ ?_) ?_ <;> omega
  case neg =>
    have e₀ := toNat_ofNat (n := 0xF0 + r / 262144) (by omega)
    have e₁ := toNat_ofNat (n := 0x80 + r / 4096 % 64) (by omega)
    have e₂ := toNat_ofNat (n := 0x80 + r / 64 % 64) (by omega)
    have e₃ := toNat_ofNat (n := 0x80 + r % 64) (by omega)
    refine .of_eq (.four ?_ ?_ ?_ ?_ ?_ ?_) ?_ <;> omega

theorem isContinuation_iff : isContinuation b = true ↔ 0x80 ≤ b.toNat ∧ b.toNat ≤ 0xBF := by
  simp only [isContinuation, UInt8.le_iff_toNat_le, Bool.and_eq_true, decide_eq_true_eq,
    UInt8.reduceToNat]

theorem between_iff {low high : UInt8} :
    (low ≤ b && b ≤ high) = true ↔ low.toNat ≤ b.toNat ∧ b.toNat ≤ high.toNat := by
  simp only [UInt8.le_iff_toNat_le, Bool.and_eq_true, decide_eq_true_eq]

-- What follows an encoded rune does not matter to its decoding.
theorem Encodes.decodeRune (h : Encodes s r) (t : GoString) :
    GoString.decodeRune (s ++ t) = (some r, s.length) := by
  have hHigh {b : UInt8} (hb : 0x80 ≤ b.toNat) : ¬b < 0x80 := by
    rw [UInt8.lt_iff_toNat_lt]
    exact not_lt.mpr hb
  cases h
  case one b₀ h =>
    change GoString.decodeRune (b₀ :: t) = _
    have h : b₀ < 0x80 := UInt8.lt_iff_toNat_lt.mpr h
    unfold GoString.decodeRune
    simp only [h, if_true, List.length_singleton]
  case two b₀ b₁ h₀ h₁ =>
    change GoString.decodeRune (b₀ :: b₁ :: t) = _
    unfold GoString.decodeRune
    dsimp only
    have hFirst : (0xC2 ≤ b₀ && b₀ ≤ 0xDF) = true := between_iff.mpr h₀
    rw [if_neg (hHigh (by omega)), if_pos hFirst, if_pos (isContinuation_iff.mpr h₁)]
    rfl
  case three b₀ b₁ b₂ h₀ h₁ h₂ hl hh =>
    change GoString.decodeRune (b₀ :: b₁ :: b₂ :: t) = _
    unfold GoString.decodeRune
    dsimp only
    have hNot : ¬(0xC2 ≤ b₀ && b₀ ≤ 0xDF) = true := by
      rw [between_iff]
      simp only [UInt8.reduceToNat]
      omega
    have hFirst : (0xE0 ≤ b₀ && b₀ ≤ 0xEF) = true := between_iff.mpr h₀
    rw [if_neg (hHigh (by omega)), if_neg hNot, if_pos hFirst, if_pos]
    case hc =>
      rw [Bool.and_eq_true, between_iff]
      refine ⟨?_, isContinuation_iff.mpr h₂⟩
      split_ifs with hc hd <;> simp only [←UInt8.toNat_inj, UInt8.reduceToNat] at * <;> omega
    rfl
  case four b₀ b₁ b₂ b₃ h₀ h₁ h₂ h₃ hl hh =>
    change GoString.decodeRune (b₀ :: b₁ :: b₂ :: b₃ :: t) = _
    unfold GoString.decodeRune
    dsimp only
    have hNot {low high : UInt8} (hh : high.toNat < 0xF0) : ¬(low ≤ b₀ && b₀ ≤ high) = true := by
      rw [between_iff]
      omega
    have hFirst : (0xF0 ≤ b₀ && b₀ ≤ 0xF4) = true := between_iff.mpr h₀
    rw [if_neg (hHigh (by omega)), if_neg (hNot (by decide)), if_neg (hNot (by decide)),
      if_pos hFirst, if_pos]
    case hc =>
      rw [Bool.and_eq_true, Bool.and_eq_true, between_iff]
      refine ⟨⟨?_, isContinuation_iff.mpr h₂⟩, isContinuation_iff.mpr h₃⟩
      split_ifs with hc hd <;> simp only [←UInt8.toNat_inj, UInt8.reduceToNat] at * <;> omega
    rfl

theorem of_ite_some {c : Prop} [Decidable c] {x n : Nat}
    (h : (if c then (some x, n) else (none, 1)) = (some r, w)) : c ∧ x = r ∧ n = w := by
  split at h
  case isTrue hc => cases h; exact ⟨hc, rfl, rfl⟩
  case isFalse   => cases h

-- A rune is decoded from an encoding of it.
theorem decodeRune_some (h : decodeRune s = (some r, w)) :
    ∃ u t, s = u ++ t ∧ Encodes u r ∧ u.length = w := by
  cases s
  case nil => simp [GoString.decodeRune] at h
  case cons b₀ s =>
    unfold GoString.decodeRune at h
    dsimp only at h
    split at h
    case isTrue h₁ =>
      cases h
      exact ⟨[b₀], s, rfl, .one (UInt8.lt_iff_toNat_lt.mp h₁), rfl⟩
    split at h
    case isTrue h₁ =>
      split at h
      case h_2 => cases h
      case h_1 b₁ t =>
        obtain ⟨hc, hr, hw⟩ := of_ite_some h
        subst hr hw
        exact ⟨[b₀, b₁], t, rfl, .two (between_iff.mp h₁) (isContinuation_iff.mp hc), rfl⟩
    split at h
    case isTrue h₁ =>
      split at h
      case h_2 => cases h
      case h_1 b₁ b₂ t =>
        obtain ⟨hc, hr, hw⟩ := of_ite_some h
        subst hr hw
        rw [Bool.and_eq_true, between_iff] at hc
        have hFirst := between_iff.mp h₁
        have hLast := isContinuation_iff.mp hc.right
        have hc := hc.left
        refine ⟨[b₀, b₁, b₂], t, rfl, .three hFirst ?_ hLast ?_ ?_, rfl⟩
        all_goals
          split_ifs at hc <;> simp only [←UInt8.toNat_inj, UInt8.reduceToNat] at * <;> omega
    split at h
    case isFalse => cases h
    case isTrue h₁ =>
      split at h
      case h_2 => cases h
      case h_1 b₁ b₂ b₃ t =>
        obtain ⟨hc, hr, hw⟩ := of_ite_some h
        subst hr hw
        rw [Bool.and_eq_true, Bool.and_eq_true, between_iff] at hc
        have hFirst := between_iff.mp h₁
        have hThird := isContinuation_iff.mp hc.left.right
        have hLast := isContinuation_iff.mp hc.right
        have hc := hc.left.left
        refine ⟨[b₀, b₁, b₂, b₃], t, rfl, .four hFirst ?_ hThird hLast ?_ ?_, rfl⟩
        all_goals
          split_ifs at hc <;> simp only [←UInt8.toNat_inj, UInt8.reduceToNat] at * <;> omega

theorem chunksFrom_append (s t : GoString) : chunksFrom s.length (s ++ t) = chunks t := by
  induction s
  case nil          => rfl
  case cons b s hi => exact hi

theorem Encodes.ne_nil (h : Encodes s r) : s ≠ [] := by
  cases h <;> exact List.cons_ne_nil _ _

theorem Encodes.chunks (h : Encodes s r) (t : GoString) :
    GoString.chunks (s ++ t) = ⟨some r, s⟩ :: GoString.chunks t := by
  have hd := h.decodeRune t
  have ⟨b, s', hs⟩ := List.exists_cons_of_ne_nil h.ne_nil
  subst hs
  rw [List.cons_append] at hd ⊢
  rw [GoString.chunks, chunksFrom, hd]
  simp only [List.length_cons, Nat.add_sub_cancel, List.take_succ_cons, List.take_left']
  rw [chunksFrom_append]

-- Valid UTF-8 is a sequence of encoded code points.
theorem valid_iff : valid s = true ↔ ∃ rs : List Rune, (∀ r ∈ rs, GoString.isScalar r) ∧
    s = rs.flatMap GoString.encodeRune := by
  constructor
  case mp =>
    intro h
    induction hn : s.length using Nat.strong_induction_on generalizing s
    case _ n hi =>
      cases s
      case nil => exact ⟨[], by simp, rfl⟩
      case cons b s =>
        cases hd : GoString.decodeRune (b :: s)
        case mk r w =>
          cases r
          case none => simp [valid, GoString.chunks, chunksFrom, hd] at h
          case some r =>
            obtain ⟨u, t, hs, hu, _⟩ := decodeRune_some hd
            have hLength := List.length_pos_iff.mpr hu.ne_nil
            rw [hs] at h hn
            rw [valid, hu.chunks, List.all_cons] at h
            rw [List.length_append] at hn
            obtain ⟨rs, hrs, ht⟩ := hi t.length (by omega) h rfl
            refine ⟨r :: rs, List.forall_mem_cons.mpr ⟨hu.isScalar, hrs⟩, ?_⟩
            rw [hs, List.flatMap_cons, hu.encodeRune, ←ht]
  case mpr =>
    rintro ⟨rs, hr, rfl⟩
    induction rs
    case nil => rfl
    case cons r rs hi =>
      obtain ⟨hr, hrs⟩ := List.forall_mem_cons.mp hr
      rw [List.flatMap_cons, valid, (encodes_encodeRune hr).chunks, List.all_cons]
      exact hi hrs

theorem chunks_flatMap (h : ∀ r ∈ rs, GoString.isScalar r) :
    GoString.chunks (rs.flatMap GoString.encodeRune) =
      rs.map fun r => ⟨some r, GoString.encodeRune r⟩ := by
  induction rs
  case nil => rfl
  case cons r rs hi =>
    have ⟨hr, hrs⟩ := List.forall_mem_cons.mp h
    rw [List.flatMap_cons, (encodes_encodeRune hr).chunks, hi hrs, List.map_cons]

-- A string that starts with a character other than a space is not blank.
theorem trimSpace_ne_nil (hb : b < 0x80) (h : isSpace b.toNat = false) :
    trimSpace (b :: s) ≠ [] := by
  have hChunks : GoString.chunks (b :: s) = ⟨some b.toNat, [b]⟩ :: chunksFrom 0 s := by
    simp [GoString.chunks, chunksFrom, GoString.decodeRune, hb]
  have hDrop (l : List Chunk) : ∃ l', (l ++ [Chunk.mk (some b.toNat) [b]]).dropWhile
      (fun c => isSpace (c.rune.getD runeError)) = l' ++ [Chunk.mk (some b.toNat) [b]] := by
    rw [List.dropWhile_append]
    split
    case isTrue  => exact ⟨[], by simp [h]⟩
    case isFalse => exact ⟨_, rfl⟩
  obtain ⟨l', hl⟩ := hDrop (chunksFrom 0 s).reverse
  simp [trimSpace, hChunks, Chunk.value, h, hl]

end

end GoString

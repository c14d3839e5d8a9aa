import CookbookModel.Library.GoString

-- Go's `base64.RawURLEncoding`: the URL alphabet without padding.
namespace Base64

def alphabet : GoString :=
  "ABCDEFGHIJKLMNOPQRSTUVWXYZabcdefghijklmnopqrstuvwxyz0123456789-_"

def digit (n : Nat) : UInt8 :=
  alphabet[n]?.getD 0

def value (b : UInt8) : Option Nat :=
  alphabet.idxOf? b

-- `EncodeToString`
def encode : GoString → GoString
  | b₀ :: b₁ :: b₂ :: s =>
    digit (b₀.toNat / 4) :: digit (b₀.toNat % 4 * 16 + b₁.toNat / 16) ::
      digit (b₁.toNat % 16 * 4 + b₂.toNat / 64) :: digit (b₂.toNat % 64) :: encode s
  | [b₀, b₁] =>
    [digit (b₀.toNat / 4), digit (b₀.toNat % 4 * 16 + b₁.toNat / 16), digit (b₁.toNat % 16 * 4)]
  | [b₀] => [digit (b₀.toNat / 4), digit (b₀.toNat % 4 * 16)]
  | [] => []

-- The bits left over in a last quantum of two or three digits are not inspected.
def decodeDigits : GoString → Option GoString
  | c₀ :: c₁ :: c₂ :: c₃ :: s => do
    let n₀ ← value c₀
    let n₁ ← value c₁
    let n₂ ← value c₂
    let n₃ ← value c₃
    let rest ← decodeDigits s
    return .ofNat (n₀ * 4 + n₁ / 16) :: .ofNat (n₁ % 16 * 16 + n₂ / 4) ::
      .ofNat (n₂ % 4 * 64 + n₃) :: rest
  | [c₀, c₁, c₂] => do
    let n₀ ← value c₀
    let n₁ ← value c₁
    let n₂ ← value c₂
    return [.ofNat (n₀ * 4 + n₁ / 16), .ofNat (n₁ % 16 * 16 + n₂ / 4)]
  | [c₀, c₁] => do
    let n₀ ← value c₀
    let n₁ ← value c₁
    return [.ofNat (n₀ * 4 + n₁ / 16)]
  | [_] => none
  | [] => some []

-- `DecodeString`, which skips line breaks
def decode (s : GoString) : Option GoString :=
  decodeDigits (s.filter fun b => b ≠ 0x0A && b ≠ 0x0D)

theorem value_digit : ∀ {n : Nat}, n < 64 → value (digit n) = some n := by
  decide

theorem decodeDigits_encode (s : GoString) : decodeDigits (encode s) = some s := by
  induction s using encode.induct
  case case1 b₀ b₁ b₂ s hi =>
    have h₀ := b₀.toNat_lt
    have h₁ := b₁.toNat_lt
    have h₂ := b₂.toNat_lt
    simp only [encode, decodeDigits, hi]
    repeat rw [value_digit (by omega)]
    simp only [Option.pure_def, Option.bind_eq_bind, Option.bind_some, Option.some.injEq,
      List.cons.injEq, and_true]
    refine ⟨?_, ?_, ?_⟩ <;> rw [← UInt8.toNat_inj, UInt8.toNat_ofNat'] <;> omega
  case case2 b₀ b₁ =>
    have h₀ := b₀.toNat_lt
    have h₁ := b₁.toNat_lt
    simp only [encode, decodeDigits]
    repeat rw [value_digit (by omega)]
    simp only [Option.pure_def, Option.bind_eq_bind, Option.bind_some, Option.some.injEq,
      List.cons.injEq, and_true]
    refine ⟨?_, ?_⟩ <;> rw [← UInt8.toNat_inj, UInt8.toNat_ofNat'] <;> omega
  case case3 b₀ =>
    have h₀ := b₀.toNat_lt
    simp only [encode, decodeDigits]
    repeat rw [value_digit (by omega)]
    simp only [Option.pure_def, Option.bind_eq_bind, Option.bind_some, Option.some.injEq,
      List.cons.injEq, and_true]
    rw [← UInt8.toNat_inj, UInt8.toNat_ofNat']
    omega
  case case4 => rfl

theorem digit_ne (n : Nat) : digit n ≠ 0x0A ∧ digit n ≠ 0x0D := by
  by_cases h : n < 64
  case pos =>
    have h' : ∀ n : Nat, n < 64 → digit n ≠ 0x0A ∧ digit n ≠ 0x0D := by decide
    exact h' n h
  case neg =>
    have hn : alphabet[n]? = none := List.getElem?_eq_none (not_lt.mp h)
    rw [digit, hn]
    decide

theorem decode_encode (s : GoString) : decode (encode s) = some s := by
  have h : (encode s).filter (fun b => b ≠ 0x0A && b ≠ 0x0D) = encode s := by
    induction s using encode.induct <;> simp_all [encode, digit_ne]
  rw [decode, h, decodeDigits_encode]

theorem encode_injective : Function.Injective encode := by
  intro s₁ s₂ h
  have := congrArg decodeDigits h
  simpa [decodeDigits_encode] using this

end Base64

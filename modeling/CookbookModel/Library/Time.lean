import CookbookModel.Library.GoString

-- A UTC instant of Go's `time.Time`, given by its civil date and its time of day.
def isLeap (year : Nat) : Bool :=
  year % 4 == 0 && (year % 100 != 0 || year % 400 == 0)

def daysIn (year month : Nat) : Nat :=
  if month = 2 then (if isLeap year then 29 else 28)
  else if month ∈ [4, 6, 9, 11] then 30
  else 31

structure Civil where
  year       : Nat
  month      : Nat
  day        : Nat
  hour       : Nat
  minute     : Nat
  second     : Nat
  nanosecond : Nat
  deriving DecidableEq

structure Civil.Valid (c : Civil) : Prop where
  year       : c.year ≤ 9999
  month      : 1 ≤ c.month ∧ c.month ≤ 12
  day        : 1 ≤ c.day ∧ c.day ≤ daysIn c.year c.month
  hour       : c.hour < 24
  minute     : c.minute < 60
  second     : c.second < 60
  nanosecond : c.nanosecond < 1000000000

instance (c : Civil) : Decidable c.Valid :=
  decidable_of_iff
    (c.year ≤ 9999 ∧ (1 ≤ c.month ∧ c.month ≤ 12) ∧ (1 ≤ c.day ∧ c.day ≤ daysIn c.year c.month) ∧
      c.hour < 24 ∧ c.minute < 60 ∧ c.second < 60 ∧ c.nanosecond < 1000000000)
    ⟨fun ⟨h₁, h₂, h₃, h₄, h₅, h₆, h₇⟩ => ⟨h₁, h₂, h₃, h₄, h₅, h₆, h₇⟩,
     fun ⟨h₁, h₂, h₃, h₄, h₅, h₆, h₇⟩ => ⟨h₁, h₂, h₃, h₄, h₅, h₆, h₇⟩⟩

def Time := { c : Civil // c.Valid }
  deriving DecidableEq

namespace Time

def fields (t : Time) : List Nat :=
  [t.val.year, t.val.month, t.val.day, t.val.hour, t.val.minute, t.val.second, t.val.nanosecond]

-- `t.After(u)`
def after (t u : Time) : Bool :=
  u.fields < t.fields

-- `time.Time{}`
def zero : Time :=
  ⟨⟨1, 1, 1, 0, 0, 0, 0⟩, by decide⟩

-- The `width` last decimal digits of a number.
def digits : (width : Nat) → Nat → GoString
  | 0, _ => []
  | width + 1, n => digits width (n / 10) ++ [.ofNat (48 + n % 10)]

-- `n / 10 ^ width` as a decimal fraction without trailing zeros.
def fraction : (width : Nat) → Nat → GoString
  | 0, _ => []
  | width + 1, n =>
    if n % 10 = 0 then fraction width (n / 10) else digits (width + 1) n

def fractionText (nanosecond : Nat) : GoString :=
  if nanosecond = 0 then [] else 0x2E :: fraction 9 nanosecond

-- `t.Format(time.RFC3339Nano)` for a time in UTC
def format (t : Time) : GoString :=
  let c := t.val
  digits 4 c.year ++ 0x2D :: digits 2 c.month ++ 0x2D :: digits 2 c.day ++
    0x54 :: digits 2 c.hour ++ 0x3A :: digits 2 c.minute ++ 0x3A :: digits 2 c.second ++
    fractionText c.nanosecond ++ [0x5A]

def digitValue (b : UInt8) : Option Nat :=
  if 0x30 ≤ b && b ≤ 0x39 then some (b.toNat - 48) else none

def number (acc : Nat) : GoString → Option Nat
  | [] => some acc
  | b :: s => do number (acc * 10 + (← digitValue b)) s

-- Reads `width` digits.
def take (width : Nat) (s : GoString) : Option (Nat × GoString) :=
  if s.length < width then none
  else (number 0 (s.take width)).map (·, s.drop width)

def skip (b : UInt8) : GoString → Option GoString
  | [] => none
  | b' :: s => if b = b' then some s else none

-- The optional fraction of a second: digits past the ninth are cut off.
def takeFraction : GoString → Option (Nat × GoString)
  | 0x2E :: s =>
    let ds := s.takeWhile fun b => (digitValue b).isSome
    if ds = [] then none
    else (number 0 (ds.take 9)).map fun n => (n * 10 ^ (9 - ds.length), s.drop ds.length)
  | s => some (0, s)

-- `time.Parse(time.RFC3339Nano, value)` on the texts in UTC that `format` writes
def parse (s : GoString) : Option Time := do
  let (year, s) ← take 4 s
  let (month, s) ← take 2 (← skip 0x2D s)
  let (day, s) ← take 2 (← skip 0x2D s)
  let (hour, s) ← take 2 (← skip 0x54 s)
  let (minute, s) ← take 2 (← skip 0x3A s)
  let (second, s) ← take 2 (← skip 0x3A s)
  let (nanosecond, s) ← takeFraction s
  if s ≠ [0x5A] then none
  let c : Civil := ⟨year, month, day, hour, minute, second, nanosecond⟩
  if h : c.Valid then some ⟨c, h⟩ else none

theorem digits_length : (digits width n).length = width := by
  induction width generalizing n <;> simp_all [digits]

theorem digitValue_ofNat : ∀ {d : Nat}, d < 10 → digitValue (.ofNat (48 + d)) = some d := by
  decide

theorem digitValue_digit (n : Nat) : digitValue (.ofNat (48 + n % 10)) = some (n % 10) :=
  digitValue_ofNat <| Nat.mod_lt _ (by omega)

theorem number_append : number acc (s ++ [b]) =
    (number acc s).bind fun n => (digitValue b).map (n * 10 + ·) := by
  induction s generalizing acc
  case nil => cases h : digitValue b <;> simp [number, h]
  case cons b' s hi => cases h : digitValue b' <;> simp [number, h, hi]

theorem ofString_repr (n : Nat) : GoString.ofString n.repr =
    if n < 10 then [.ofNat (48 + n)]
    else GoString.ofString (n / 10).repr ++ [.ofNat (48 + n % 10)] := by
  have hDigit : ∀ d, d < 10 → GoString.ofString (.ofList [d.digitChar]) = [.ofNat (48 + d)] := by
    decide
  rw [Nat.repr_eq_ofList_toDigits, Nat.toDigits_eq_if (by decide)]
  split
  case isTrue h  => exact hDigit n h
  case isFalse h =>
    rw [String.ofList_append, Nat.repr_eq_ofList_toDigits, ←hDigit _ (Nat.mod_lt _ (by decide))]
    simp [GoString.ofString]

-- The decimal representation of a number reads as the number.
theorem number_repr (n : Nat) : number 0 (GoString.ofString n.repr) = some n := by
  induction n using Nat.strongRecOn
  case ind n hi =>
    rw [ofString_repr]
    split
    case isTrue h  =>
      rw [number, digitValue_ofNat h]
      simp [number]
    case isFalse h =>
      rw [number_append, hi _ (by omega), digitValue_digit]
      simp only [Option.bind_some, Option.map_some, Option.some.injEq]
      omega

theorem number_digits (h : n < 10 ^ width) : number 0 (digits width n) = some n := by
  induction width generalizing n
  case zero => simp_all [digits, number]
  case succ width hi =>
    have hd : n / 10 < 10 ^ width := by
      rw [Nat.pow_succ] at h
      omega
    simp only [digits, number_append, hi hd, digitValue_digit, Option.bind_some, Option.map_some,
      Option.some.injEq]
    omega

theorem take_digits (h : n < 10 ^ width) :
    take width (digits width n ++ s) = some (n, s) := by
  have hl := @digits_length width n
  simp only [take, List.length_append, hl, List.take_append_of_le_length (Nat.le_of_eq hl.symm),
    List.drop_append_of_le_length (Nat.le_of_eq hl.symm)]
  rw [List.take_of_length_le (Nat.le_of_eq hl), List.drop_of_length_le (Nat.le_of_eq hl),
    number_digits h]
  simp

theorem all_digits (h : b ∈ digits width n) : (digitValue b).isSome := by
  induction width generalizing n
  case zero => simp [digits] at h
  case succ width hi =>
    simp only [digits, List.mem_append, List.mem_singleton] at h
    cases h
    case inl h => exact hi h
    case inr h => rw [h, digitValue_digit]; rfl

-- A fraction in `width` digits is some digits of the number, the cut off ones being zeros.
theorem fraction_eq (h : n ≠ 0) (hn : n < 10 ^ width) :
    ∃ l m, l ≠ 0 ∧ l ≤ width ∧ m < 10 ^ l ∧ n = m * 10 ^ (width - l) ∧
      fraction width n = digits l m := by
  induction width generalizing n
  case zero => simp_all
  case succ width hi =>
    simp only [fraction]
    split
    case isTrue hm =>
      have hd : n / 10 < 10 ^ width := by
        rw [Nat.pow_succ] at hn
        omega
      have ⟨l, m, hl₀, hl, hml, hnm, hf⟩ := hi (n := n / 10) (by omega) hd
      refine ⟨l, m, hl₀, by omega, hml, ?_, hf⟩
      rw [show width + 1 - l = (width - l) + 1 by omega, Nat.pow_succ, ←Nat.mul_assoc, ←hnm]
      omega
    case isFalse => exact ⟨width + 1, n, by omega, Nat.le_refl _, hn, by simp, rfl⟩

theorem takeFraction_text (h : n < 10 ^ 9) :
    takeFraction (fractionText n ++ [0x5A]) = some (n, [0x5A]) := by
  by_cases hn : n = 0
  case pos => subst hn; rfl
  case neg =>
    have ⟨l, m, hl₀, hl, hml, hnm, hf⟩ := fraction_eq hn h
    have hlen := @digits_length l m
    have hds : (digits l m ++ [0x5A]).takeWhile (fun b => (digitValue b).isSome) = digits l m := by
      rw [List.takeWhile_append_of_pos fun _ hb => all_digits hb]
      simp [show (digitValue 0x5A).isSome = false from rfl]
    have hne : digits l m ≠ [] := by
      intro he
      simp [he] at hlen
      exact hl₀ hlen.symm
    simp only [fractionText, hn, reduceIte, hf, List.cons_append, takeFraction, hds, hne, hlen]
    rw [List.take_of_length_le (by omega), number_digits hml]
    simp [hnm, hlen]

theorem parse_format (t : Time) : parse t.format = some t := by
  have ⟨c, h⟩ := t
  have hmo := h.month
  have hd := h.day
  have hdm : daysIn c.year c.month ≤ 31 := by unfold daysIn; split <;> (try split) <;> omega
  have ⟨hh, hmi, hs⟩ := And.intro h.hour (And.intro h.minute h.second)
  simp only [parse, format, List.append_assoc, List.cons_append]
  rw [take_digits (by have := h.year; omega)]
  simp only [Option.bind_eq_bind, Option.bind_some, skip, reduceIte]
  rw [take_digits (by omega)]
  simp only [Option.bind_some, reduceIte]
  rw [take_digits (by omega)]
  simp only [Option.bind_some, reduceIte]
  rw [take_digits (by omega)]
  simp only [Option.bind_some, reduceIte]
  rw [take_digits (by omega)]
  simp only [Option.bind_some, reduceIte]
  rw [take_digits (by omega)]
  simp only [Option.bind_some]
  rw [takeFraction_text h.nanosecond]
  simp [h]

end Time

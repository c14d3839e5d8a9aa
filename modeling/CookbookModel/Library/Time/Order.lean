import CookbookModel.Library.Time
import Mathlib.Data.List.DropRight
import Mathlib.Data.List.Lex

-- The order of texts that start alike long
theorem GoString.append_lt_append_iff {s s' t t' : GoString} (h : s.length = s'.length) :
    s ++ t < s' ++ t' ↔ s < s' ∨ s = s' ∧ t < t' := by
  induction s generalizing s'
  case nil =>
    cases List.eq_nil_of_length_eq_zero h.symm
    simp
  case cons b s hi =>
    cases s'
    case nil => simp at h
    case cons b' s' =>
      simp only [List.cons_append, List.cons_lt_cons_iff, hi (by simpa using h), List.cons.injEq]
      tauto

-- A text that ends in a character above all others comes before a larger one that ends so, unless
-- it is where the larger one starts.
theorem GoString.append_cons_lt_iff {s s' t t' : GoString} {e : UInt8} (hs : ∀ b ∈ s', b < e)
    (h : s < s') : s ++ e :: t < s' ++ e :: t' ↔ ¬s <+: s' := by
  induction s generalizing s'
  case nil =>
    cases s'
    case nil => simp at h
    case cons b s' =>
      have hb : b < e := hs b (by simp)
      simp [List.cons_lt_cons_iff, hb.not_gt, hb.ne']
  case cons b s hi =>
    cases s'
    case nil => simp at h
    case cons b' s' =>
      simp only [List.cons_append, List.cons_lt_cons_iff, List.cons_prefix_cons, not_and] at h ⊢
      rcases h with hlt | ⟨rfl, hlt⟩
      case inl => simp [hlt, hlt.ne]
      case inr => simp [hi (fun b hb => hs b (List.mem_cons_of_mem _ hb)) hlt]

theorem GoString.not_lt_of_least {s t : GoString} {z : UInt8} (hs : ∀ b ∈ s, z ≤ b)
    (ht : ∀ b ∈ t, b = z) (hl : s.length = t.length) : ¬s < t := by
  induction s generalizing t
  case nil =>
    cases List.eq_nil_of_length_eq_zero hl.symm
    exact lt_irrefl _
  case cons b s hi =>
    cases t
    case nil => simp at hl
    case cons b' t =>
      have ⟨hb, hs⟩ := List.forall_mem_cons.mp hs
      have ⟨hb', ht⟩ := List.forall_mem_cons.mp ht
      subst hb'
      rw [List.cons_lt_cons_iff, not_or, not_and]
      exact ⟨not_lt.mpr hb, fun _ => hi hs ht (by simpa using hl)⟩

-- Texts that are filled up with the least character are in the order of the filled texts.
theorem GoString.lt_of_fill {s s' t t' : GoString} {z : UInt8} (hs : ∀ b ∈ s ++ t, z ≤ b)
    (ht : ∀ b ∈ t', b = z) (hl : (s ++ t).length = (s' ++ t').length) (h : s ++ t < s' ++ t') :
    s < s' := by
  induction s generalizing s'
  case nil =>
    cases s'
    case nil        => exact absurd h <| not_lt_of_least hs ht hl
    case cons b' s' => exact List.nil_lt_cons _ _
  case cons b s hi =>
    cases s'
    case nil => exact absurd h <| not_lt_of_least hs ht hl
    case cons b' s' =>
      simp only [List.cons_append, List.cons_lt_cons_iff] at h ⊢
      exact h.imp_right fun ⟨he, h⟩ =>
        ⟨he, hi (List.forall_mem_cons.mp hs).right (by simpa using hl) h⟩

-- The first occurrence of a character ends a text.
theorem GoString.start_inj {s s' t t' : GoString} {e : UInt8} (hs : e ∉ s) (hs' : e ∉ s')
    (h : s ++ e :: t = s' ++ e :: t') : s = s' := by
  have hStart {s t : GoString} (hs : e ∉ s) : (s ++ e :: t).takeWhile (· ≠ e) = s := by
    rw [List.takeWhile_append_of_pos fun b hb => decide_eq_true <| ne_of_mem_of_not_mem hb hs]
    simp
  rw [←@hStart s t hs, h, hStart hs']

namespace Time

theorem digit_lt {a b : Nat} (ha : a < 10) (hb : b < 10) :
    UInt8.ofNat (48 + a) < UInt8.ofNat (48 + b) ↔ a < b := by
  have h : ∀ a < 10, ∀ b < 10, UInt8.ofNat (48 + a) < UInt8.ofNat (48 + b) ↔ a < b := by decide
  exact h a ha b hb

theorem digits_inj (hn : n < 10 ^ width) (hm : m < 10 ^ width) :
    digits width n = digits width m ↔ n = m := by
  constructor
  · intro h
    exact Option.some.inj <| (number_digits hn).symm.trans <| h ▸ number_digits hm
  · exact fun h => h ▸ rfl

theorem digits_lt (hn : n < 10 ^ width) (hm : m < 10 ^ width) :
    digits width n < digits width m ↔ n < m := by
  induction width generalizing n m
  case zero =>
    have hn : n = 0 := by simpa using hn
    have hm : m = 0 := by simpa using hm
    simp [digits, hn, hm]
  case succ width hi =>
    have hn' : n / 10 < 10 ^ width := by omega
    have hm' : m / 10 < 10 ^ width := by omega
    rw [digits, digits, GoString.append_lt_append_iff (by simp [digits_length]), hi hn' hm',
      digits_inj hn' hm', List.cons_lt_cons_iff, digit_lt (Nat.mod_lt _ (by decide))
      (Nat.mod_lt _ (by decide))]
    simp only [List.not_lt_nil, and_false, or_false]
    omega

-- A number of fixed width is followed by a text.
theorem digits_append_lt (hn : n < 10 ^ width) (hm : m < 10 ^ width) :
    digits width n ++ s < digits width m ++ s' ↔ n < m ∨ n = m ∧ s < s' := by
  rw [GoString.append_lt_append_iff (by simp [digits_length]), digits_lt hn hm, digits_inj hn hm]

theorem digits_add : digits (width + k) n = digits width (n / 10 ^ k) ++ digits k n := by
  induction k generalizing n
  case zero      => simp [digits]
  case succ k hi =>
    rw [←Nat.add_assoc, digits, hi, digits, Nat.div_div_eq_div_mul, ←Nat.pow_succ',
      List.append_assoc]

theorem digits_mem (h : b ∈ digits width n) : 0x30 ≤ b ∧ b < 0x5A := by
  have hDigit : ∀ d < 10, (0x30 : UInt8) ≤ .ofNat (48 + d) ∧ UInt8.ofNat (48 + d) < 0x5A := by
    decide
  induction width generalizing n
  case zero => simp [digits] at h
  case succ width hi =>
    rw [digits, List.mem_append, List.mem_singleton] at h
    cases h
    case inl h => exact hi h
    case inr h => exact h ▸ hDigit _ (Nat.mod_lt _ (by decide))

theorem digit_zero : UInt8.ofNat (48 + n % 10) = 0x30 ↔ n % 10 = 0 := by
  have h : ∀ d < 10, UInt8.ofNat (48 + d) = 0x30 ↔ d = 0 := by decide
  exact h _ (Nat.mod_lt _ (by decide))

theorem digits_zeros : (∀ b ∈ digits width n, b = 0x30) ↔ n % 10 ^ width = 0 := by
  induction width generalizing n
  case zero => simp [digits, Nat.mod_one]
  case succ width hi =>
    simp only [digits, List.forall_mem_append, List.forall_mem_singleton, hi, digit_zero]
    rw [Nat.pow_succ', Nat.mod_mul]
    omega

theorem fraction_digits : fraction width n = (digits width n).rdropWhile (· = 0x30) := by
  induction width generalizing n
  case zero => rfl
  case succ width hi =>
    rw [fraction, digits, List.rdropWhile_concat, hi]
    simp only [digit_zero, decide_eq_true_eq]

-- The zeros at the end of a fraction are left out.
theorem fraction_append : ∃ zeros : GoString, fraction width n ++ zeros = digits width n ∧
    ∀ b ∈ zeros, b = 0x30 := by
  refine ⟨(digits width n).rtakeWhile (· = 0x30), ?_, fun b hb => ?_⟩
  · rw [fraction_digits, List.rdropWhile_append_rtakeWhile]
  · have h := List.mem_rtakeWhile_imp hb
    simpa using h

theorem fraction_lt (hn : n < 10 ^ width) (hm : m < 10 ^ width) (h : n < m) :
    fraction width n < fraction width m := by
  have ⟨zeros, hz, _⟩ := @fraction_append width n
  have ⟨zeros', hz', hAll⟩ := @fraction_append width m
  refine GoString.lt_of_fill (t := zeros) (fun b hb => ?_) hAll ?_ ?_
  · exact (digits_mem <| hz ▸ hb).left
  · rw [hz, hz', digits_length, digits_length]
  · rw [hz, hz']
    exact (digits_lt hn hm).mpr h

theorem rdropWhile_prefix_append {p : UInt8 → Bool} (s t : GoString) :
    s.rdropWhile p <+: (s ++ t).rdropWhile p := by
  induction t using List.reverseRecOn
  case nil => simp
  case append_singleton t b hi =>
    rw [←List.append_assoc, List.rdropWhile_concat]
    split
    case isTrue  => exact hi
    case isFalse =>
      rw [List.append_assoc]
      exact (List.rdropWhile_prefix p s).trans <| List.prefix_append ..

theorem rdropWhile_append_all {p : UInt8 → Bool} {s t : GoString} (h : ∀ b ∈ t, p b) :
    (s ++ t).rdropWhile p = s.rdropWhile p := by
  induction t using List.reverseRecOn
  case nil => simp
  case append_singleton t b hi =>
    rw [←List.append_assoc, List.rdropWhile_concat_pos _ _ _ <| h b (by simp)]
    exact hi fun b hb => h b (by simp [hb])

-- A fraction is where another one starts exactly if it is the other one cut off.
theorem fraction_prefix_of_cut (hk : k ≤ width) (h : n = m / 10 ^ k * 10 ^ k) :
    fraction width n <+: fraction width m := by
  have ⟨l, hl⟩ := Nat.exists_eq_add_of_le' hk
  have hDiv : n / 10 ^ k = m / 10 ^ k := by rw [h, Nat.mul_div_cancel _ (Nat.pow_pos (by decide))]
  have hZeros : ∀ b ∈ digits k n, b = 0x30 := digits_zeros.mpr <| by rw [h, Nat.mul_mod_left]
  subst hl
  rw [fraction_digits, fraction_digits, digits_add, digits_add, hDiv,
    rdropWhile_append_all fun b hb => decide_eq_true <| hZeros b hb]
  exact rdropWhile_prefix_append _ _

theorem cut_of_fraction (hn : n < 10 ^ width) (hm : m < 10 ^ width)
    (h : fraction width n <+: fraction width m) : ∃ k ≤ width, n = m / 10 ^ k * 10 ^ k := by
  have ⟨zeros, hz, hAll⟩ := @fraction_append width n
  have ⟨zeros', hz', _⟩ := @fraction_append width m
  have hl : (fraction width n).length + zeros.length = width := by
    rw [←List.length_append, hz, digits_length]
  generalize hf : fraction width n = f at h hz hl
  generalize zeros.length = k at hl
  subst hl
  have hPow : 10 ^ (f.length + k) = 10 ^ f.length * 10 ^ k := Nat.pow_add ..
  have hDiv {n : Nat} (hn : n < 10 ^ (f.length + k)) : n / 10 ^ k < 10 ^ f.length :=
    Nat.div_lt_of_lt_mul <| by rwa [Nat.mul_comm, ←hPow]
  rw [digits_add] at hz hz'
  have ⟨hStart, hEnd⟩ := List.append_inj hz digits_length.symm
  have hStart' : f = digits f.length (m / 10 ^ k) := by
    have hp : f <+: digits f.length (m / 10 ^ k) ++ digits k m :=
      h.trans <| hz' ▸ List.prefix_append ..
    have hp := List.prefix_of_prefix_length_le hp (List.prefix_append ..) digits_length.ge
    exact hp.eq_of_length digits_length.symm
  have he : n / 10 ^ k = m / 10 ^ k :=
    (digits_inj (hDiv hn) (hDiv hm)).mp <| hStart.symm.trans hStart'
  have hZero : n % 10 ^ k = 0 := digits_zeros.mp fun b hb => hAll b <| hEnd ▸ hb
  refine ⟨k, Nat.le_add_left .., ?_⟩
  rw [←he]
  exact (Nat.div_mul_cancel <| Nat.dvd_of_mod_eq_zero hZero).symm

theorem fraction_prefix_iff (hn : n < 10 ^ width) (hm : m < 10 ^ width) :
    fraction width n <+: fraction width m ↔ ∃ k ≤ width, n = m / 10 ^ k * 10 ^ k :=
  ⟨cut_of_fraction hn hm, fun ⟨_, hk, h⟩ => fraction_prefix_of_cut hk h⟩

theorem fraction_mem (h : b ∈ fraction width n) : b < 0x5A := by
  rw [fraction_digits] at h
  exact (digits_mem <| (List.rdropWhile_prefix ..).subset h).right

theorem fractionText_lt (hm : m < 10 ^ 9) (h : n < m) :
    fractionText n ++ 0x5A :: s < fractionText m ++ 0x5A :: s' ↔
      ¬∃ k ≤ 9, n = m / 10 ^ k * 10 ^ k := by
  have hn : n < 10 ^ 9 := h.trans hm
  have hLast := @GoString.append_cons_lt_iff _ _ s s' 0x5A (fun b hb => fraction_mem hb)
    (fraction_lt hn hm h)
  rw [fraction_prefix_iff hn hm] at hLast
  rw [←hLast]
  have hm₀ : m ≠ 0 := by omega
  by_cases hn₀ : n = 0
  case pos =>
    subst hn₀
    have hZ : ¬(0x5A :: s < 0x2E :: (fraction 9 m ++ 0x5A :: s')) := by
      rw [List.cons_lt_cons_iff]
      rintro (h | ⟨h, _⟩)
      all_goals exact absurd h (by decide)
    rw [fractionText, fractionText, if_pos rfl, if_neg hm₀, List.nil_append, List.cons_append]
    refine iff_of_false hZ ?_
    rw [hLast, not_not]
    exact ⟨9, le_rfl, by rw [Nat.div_eq_of_lt hm, Nat.zero_mul]⟩
  case neg =>
    simp [fractionText, hn₀, hm₀]

-- The same time, cut off to a number of decimals of a second
def CutOff (t u : Time) : Prop :=
  ∃ k ≤ 9, t.val = { u.val with nanosecond := u.val.nanosecond / 10 ^ k * 10 ^ k }

instance : Decidable (CutOff t u) :=
  inferInstanceAs <| Decidable (∃ k ≤ 9, _ = _)

theorem daysIn_le : daysIn year month ≤ 31 := by
  unfold daysIn
  split
  · split <;> decide
  · split <;> decide

-- Texts of times are in the order of the times, unless one is the other one cut off.
theorem format_lt {t u : Time} (h : u.after t) :
    t.format ++ s < u.format ++ s' ↔ ¬t.CutOff u := by
  have ⟨⟨year, month, day, hour, minute, second, n⟩, ht⟩ := t
  have ⟨⟨year', month', day', hour', minute', second', m⟩, hu⟩ := u
  have ⟨hYear, ⟨_, hMonth⟩, ⟨_, hDay⟩, hHour, hMinute, hSecond, hn⟩ := ht
  have ⟨hYear', ⟨_, hMonth'⟩, ⟨_, hDay'⟩, hHour', hMinute', hSecond', hm⟩ := hu
  have hDays : day ≤ 31 ∧ day' ≤ 31 := ⟨hDay.trans daysIn_le, hDay'.trans daysIn_le⟩
  have h := of_decide_eq_true h
  simp only [fields, List.cons_lt_cons_iff, List.not_lt_nil, and_false, or_false] at h
  simp only at hYear hMonth hHour hMinute hSecond hn hYear' hMonth' hHour' hMinute' hSecond' hm
  simp only [format, List.append_assoc, List.cons_append, List.nil_append]
  rw [digits_append_lt (by omega) (by omega), List.cons_lt_cons_iff,
    digits_append_lt (by omega) (by omega), List.cons_lt_cons_iff,
    digits_append_lt (by omega) (by omega), List.cons_lt_cons_iff,
    digits_append_lt (by omega) (by omega), List.cons_lt_cons_iff,
    digits_append_lt (by omega) (by omega), List.cons_lt_cons_iff,
    digits_append_lt (by omega) (by omega)]
  simp only [lt_irrefl, true_and, false_or, CutOff, Civil.mk.injEq]
  by_cases he : year = year' ∧ month = month' ∧ day = day' ∧ hour = hour' ∧ minute = minute' ∧
    second = second'
  case pos =>
    obtain ⟨rfl, rfl, rfl, rfl, rfl, rfl⟩ := he
    simp only [lt_irrefl, true_and, false_or] at h ⊢
    exact fractionText_lt hm h
  case neg =>
    refine iff_of_true ?_ ?_
    · grind
    · rintro ⟨_, _, hc⟩
      grind

-- The text of a time can be told from what follows it.
theorem format_append_inj {t u : Time} (h : t.format ++ s = u.format ++ s') : t = u := by
  have hDigits {width n : Nat} : 0x5A ∉ digits width n := fun h =>
    absurd (digits_mem h).right (by decide)
  have hFraction {n : Nat} : 0x5A ∉ fractionText n := by
    unfold fractionText
    split
    case isTrue  => simp
    case isFalse =>
      rintro (_ | ⟨_, h⟩)
      exact absurd (fraction_mem h) (by decide)
  have hText (t : Time) : ∃ body, t.format = body ++ [0x5A] ∧ 0x5A ∉ body :=
    ⟨_, rfl, by simp [hDigits, hFraction]⟩
  have ⟨body, hBody, hn⟩ := hText t
  have ⟨body', hBody', hn'⟩ := hText u
  rw [hBody, hBody', List.append_assoc, List.append_assoc] at h
  have hFormat : t.format = u.format := by rw [hBody, hBody', GoString.start_inj hn hn' h]
  exact Option.some.inj <| (parse_format t).symm.trans <| hFormat ▸ parse_format u

end Time

import CookbookModel.Library.Json.RoundTrip

namespace Json

open PyString PyItems

section Strings

variable {c : CodePoint} {s t r rest text tail : PyString} {fuel : Nat}

-- A text that ends with a quote
def Quoted (s : PyString) : Prop :=
  s.getLast? = some 0x22

theorem Quoted.ne_nil (h : Quoted s) : s ≠ [] := by
  rintro rfl
  cases h

theorem Quoted.of_cons (h : Quoted (c :: s)) (hc : c ≠ 0x22) : Quoted s := by
  cases s
  case nil => exact absurd (Option.some.inj h) hc
  case cons c' s => exact h

theorem getLast?_behind (h : t.getLast? = some c) (s : PyString) : (s ++ t).getLast? = some c := by
  rw [List.getLast?_append, h]
  rfl

theorem Quoted.append (h : Quoted t) (s : PyString) : Quoted (s ++ t) :=
  getLast?_behind h s

theorem expect_append (h : s ≠ []) : expect c (s ++ r) = (expect c s).map (· ++ r) := by
  cases s
  case nil => exact absurd rfl h
  case cons c' s =>
    simp only [List.cons_append, expect]
    split <;> rfl

theorem expect_eq_some : expect c s = some rest ↔ s = c :: rest := by
  cases s
  case nil => simp [expect]
  case cons c' s => by_cases h : c' = c <;> simp [expect, h]

theorem hexValue_quote : hexValue 0x22 = none :=
  rfl

theorem decodeHex_quote (h : 0x22 ∈ s.take 4) : decodeHex s = none := by
  match s with
  | [] | [_] | [_, _] | [_, _, _] => rfl
  | a :: b :: c :: d :: s =>
    simp only [List.take_succ_cons, List.take_zero, List.mem_cons, List.not_mem_nil, or_false] at h
    rcases h with rfl | rfl | rfl | rfl <;> simp [decodeHex, hexValue_quote]

-- Four digits are found in front of the quote, or not at all.
theorem decodeHex_append (h : Quoted s) :
    decodeHex (s ++ r) = (decodeHex s).map fun x => (x.1, x.2 ++ r) := by
  match s with
  | a :: b :: c :: d :: s =>
    simp only [decodeHex, List.cons_append]
    cases hexValue a <;> cases hexValue b <;> cases hexValue c <;> cases hexValue d <;> rfl
  | [] => exact absurd rfl h.ne_nil
  | [_] | [_, _] | [_, _, _] =>
    have hQuote := List.mem_of_getLast? h
    rw [decodeHex_quote (s := _ ++ r)]
    · rfl
    · rw [List.take_append]
      exact List.mem_append_left _ (by simpa using hQuote)

theorem decodeHex_suffix {n : Nat} (h : decodeHex s = some (n, rest)) :
    ∃ t, s = t ++ rest ∧ 0x22 ∉ t := by
  match s with
  | [] | [_] | [_, _] | [_, _, _] => simp [decodeHex] at h
  | a :: b :: c :: d :: s =>
    have hQuote : 0x22 ∉ [a, b, c, d] := by
      intro hm
      rw [decodeHex_quote (by simpa using hm)] at h
      cases h
    simp only [decodeHex, Option.bind_eq_bind, Option.bind_eq_some_iff, Option.pure_def,
      Option.some.injEq, Prod.mk.injEq] at h
    obtain ⟨_, _, _, _, _, _, _, _, _, hs⟩ := h
    exact ⟨[a, b, c, d], by rw [←hs]; rfl, hQuote⟩

theorem Quoted.suffix (h : Quoted (t ++ rest)) (ht : 0x22 ∉ t) : Quoted rest := by
  cases rest
  case nil         => exact absurd (List.mem_of_getLast? (List.append_nil t ▸ h)) ht
  case cons c rest => simpa [Quoted, List.getLast?_append] using h

-- The start of a second escape
def peek (s : PyString) : Option PyString :=
  (expect 0x5C s).bind (expect 0x75)

theorem peek_append (h : Quoted s) : peek (s ++ r) = (peek s).map (· ++ r) := by
  rw [peek, peek, expect_append h.ne_nil]
  cases he : expect 0x5C s
  case none   => rfl
  case some u =>
    have hs := expect_eq_some.mp he
    have hu : Quoted u := (hs ▸ h).of_cons (by decide)
    exact expect_append hu.ne_nil

theorem scanEscape_append (h : Quoted s) :
    scanEscape (s ++ r) = (scanEscape s).map fun x => (x.1, x.2 ++ r) := by
  cases s
  case nil      => exact absurd rfl h.ne_nil
  case cons c s =>
    simp only [List.cons_append, scanEscape]
    split
    case isFalse     => cases backslash c <;> rfl
    case isTrue hc =>
      have hs : Quoted s := h.of_cons (hc ▸ by decide)
      rw [decodeHex_append hs]
      cases hd : decodeHex s
      case none   => rfl
      case some x =>
        obtain ⟨uni, rest⟩ := x
        obtain ⟨t, ht, hQuote⟩ := decodeHex_suffix hd
        have hRest : Quoted rest := (ht ▸ hs).suffix hQuote
        have hPeek : peek (rest ++ r) = (peek rest).map (· ++ r) := peek_append hRest
        simp only [Option.map_some, Option.bind_eq_bind, Option.bind_some]
        split
        case isFalse => rfl
        case isTrue  =>
          rw [←peek, ←peek, hPeek]
          cases hp : peek rest
          case none   => rfl
          case some u =>
            obtain ⟨u', hu', hu⟩ := Option.bind_eq_some_iff.mp hp
            have hu : Quoted u := by
              rw [expect_eq_some.mp hu', expect_eq_some.mp hu] at hRest
              exact (hRest.of_cons (by decide)).of_cons (by decide)
            simp only [Option.map_some, decodeHex_append hu]
            cases decodeHex u
            case none   => rfl
            case some x =>
              simp only [Option.map_some, Option.bind_some]
              split <;> rfl

theorem scanEscape_suffix (h : scanEscape s = some (c, rest)) : ∃ t, s = t ++ rest ∧ t ≠ [] := by
  cases s
  case nil      => cases h
  case cons c' s =>
    simp only [scanEscape] at h
    split at h
    case isFalse =>
      obtain ⟨_, _, he⟩ := Option.map_eq_some_iff.mp h
      exact ⟨[c'], by rw [←(Prod.mk.inj he).right]; rfl, by simp⟩
    case isTrue  =>
      rw [Option.bind_eq_bind, Option.bind_eq_some_iff] at h
      obtain ⟨⟨uni, rest₀⟩, hd, h⟩ := h
      obtain ⟨t, ht, _⟩ := decodeHex_suffix hd
      have hDone : ∀ c'', some (c'', rest₀) = some (c, rest) → ∃ t, c' :: s = t ++ rest ∧ t ≠ [] := by
        intro c'' he
        exact ⟨c' :: t, by rw [ht, (Prod.mk.inj (Option.some.inj he)).right]; rfl, by simp⟩
      split at h
      case isFalse => exact hDone _ h
      case isTrue  =>
        split at h
        case h_1 => exact hDone _ h
        case h_2 u hp =>
          obtain ⟨u', hu', hu⟩ := Option.bind_eq_some_iff.mp hp
          rw [Option.bind_eq_some_iff] at h
          obtain ⟨⟨uni2, rest2⟩, hd2, h⟩ := h
          split at h
          case isFalse => exact hDone _ h
          case isTrue  =>
            obtain ⟨t2, ht2, _⟩ := decodeHex_suffix hd2
            have he := (Prod.mk.inj (Option.some.inj h)).right
            have hu' : rest₀ = 0x5C :: u' := expect_eq_some.mp hu'
            have he : rest2 = rest := he
            refine ⟨c' :: t ++ [0x5C, 0x75] ++ t2, ?_, by simp⟩
            rw [ht, hu', expect_eq_some.mp hu, ht2, he]
            simp

-- What is read as a string ends with its closing quote, and what follows does not matter.
theorem scanString_extent (h : scanString fuel s = some (text, rest)) :
    ∃ t, s = t ++ rest ∧ Quoted t ∧
      ∀ tail fuel, t.length ≤ fuel → scanString fuel (t ++ tail) = some (text, tail) := by
  induction fuel generalizing s text
  case zero => cases h
  case succ fuel hi =>
    cases s
    case nil      => cases h
    case cons c s =>
      simp only [scanString] at h
      split at h
      case isTrue hc =>
        obtain ⟨rfl, rfl⟩ := Prod.mk.inj (Option.some.inj h)
        refine ⟨[0x22], by rw [hc]; rfl, rfl, fun tail fuel hf => ?_⟩
        cases fuel
        case zero => simp at hf
        case succ => rfl
      case isFalse hc =>
        split at h
        case isTrue hEscape =>
          simp only [Option.bind_eq_bind, Option.bind_eq_some_iff, Option.pure_def, Option.some.injEq,
            Prod.mk.injEq] at h
          obtain ⟨⟨char, s'⟩, he, ⟨text', rest'⟩, hs, hText, hRest⟩ := h
          subst hText hRest
          obtain ⟨e, hs', hne⟩ := scanEscape_suffix he
          obtain ⟨t, ht, hq, hScan⟩ := hi hs
          have ht : s' = t ++ rest' := ht
          have heq : scanEscape (e ++ t) = some (char, t) := by
            have hAppend := scanEscape_append (r := rest') (hq.append e)
            rw [List.append_assoc, ←ht, ←hs', he] at hAppend
            obtain ⟨⟨char', t'⟩, he', hp⟩ := Option.map_eq_some_iff.mp hAppend.symm
            obtain ⟨hc', ht'⟩ := Prod.mk.inj hp
            exact he'.trans <| congrArg some <| Prod.ext hc' (List.append_cancel_right (ht'.trans ht))
          refine ⟨c :: (e ++ t), by simp [hs', ht], (hq.append (c :: e)), fun tail fuel hf => ?_⟩
          cases fuel
          case zero      => simp at hf
          case succ fuel =>
            have hAppend := scanEscape_append (r := tail) (hq.append e)
            simp only [List.cons_append, scanString, hAppend, heq, if_neg hc, if_pos hEscape]
            simp only [Option.map_some, Option.bind_eq_bind, Option.bind_some]
            rw [hScan tail fuel (by simp at hf; omega)]
            rfl
        case isFalse hEscape =>
          split at h
          case isTrue  => cases h
          case isFalse hControl =>
            simp only [Option.bind_eq_bind, Option.bind_eq_some_iff, Option.pure_def,
              Option.some.injEq, Prod.mk.injEq] at h
            obtain ⟨⟨text', rest'⟩, hs, hText, hRest⟩ := h
            subst hText hRest
            obtain ⟨t, ht, hq, hScan⟩ := hi hs
            refine ⟨c :: t, by rw [ht]; rfl, hq.append [c], fun tail fuel hf => ?_⟩
            cases fuel
            case zero      => simp at hf
            case succ fuel =>
              simp only [List.cons_append, scanString, if_neg hc, if_neg hEscape, if_neg hControl]
              rw [hScan tail fuel (by simp at hf; omega)]
              rfl

end Strings

section Numbers

variable {parseFloat : PyString → PyString} {p : CodePoint → Bool} {v : Json}
  {s t rest tail text : PyString}

theorem takeWhile_follows (h : ∀ c ∈ tail.head?, p c = false) :
    (s ++ tail).takeWhile p = s.takeWhile p := by
  induction s
  case nil         =>
    cases tail
    case nil         => rfl
    case cons c tail => simp [h c rfl]
  case cons c s hi => simp only [List.cons_append, List.takeWhile_cons, hi]

theorem Follows.not_digit (h : Follows tail) : ∀ c ∈ tail.head?, isDigit c = false := by
  intro c hc
  cases tail
  case nil         => cases hc
  case cons c tail => exact Option.some.inj hc ▸ h.not_number.left

-- A character that neither ends nor continues a number
theorem Follows.head_ne (h : Follows tail) {c : CodePoint} (hs : isSpace c = false)
    (hc : c ≠ 0x2C ∧ c ≠ 0x5D ∧ c ≠ 0x7D) : tail.head? ≠ some c := by
  intro he
  rcases h c he with h | h | h | h
  · exact absurd hs (by simp [h])
  · exact hc.left h
  · exact hc.right.left h
  · exact hc.right.right h

theorem fraction_append (h : Follows tail) : fraction (s ++ tail) = fraction s := by
  cases s
  case nil      => exact fraction_follows h
  case cons c s => simp only [List.cons_append, fraction, takeWhile_follows h.not_digit]

-- The first character of a text is taken or not, whatever follows it.
theorem take_head {q : Option CodePoint → Prop} [DecidablePred q] (h : ¬q tail.head?) :
    (s ++ tail).take (if q (s ++ tail).head? then 1 else 0) = s.take (if q s.head? then 1 else 0) := by
  cases s
  case nil      => simp [h]
  case cons c s =>
    by_cases hq : q (some c) <;> simp [hq]

theorem exponent_append (h : Follows tail) : exponent (s ++ tail) = exponent s := by
  cases s
  case nil      => exact exponent_follows h
  case cons c s =>
    have hPlus := h.head_ne (c := 0x2B) (by decide) (by decide)
    have hMinus := h.head_ne (c := 0x2D) (by decide) (by decide)
    have hSign : (s ++ tail).take (if (s ++ tail).head? = some 0x2B || (s ++ tail).head? = some 0x2D
        then 1 else 0) = s.take (if s.head? = some 0x2B || s.head? = some 0x2D then 1 else 0) :=
      take_head (q := fun o => (o = some 0x2B || o = some 0x2D) = true) (by simp [hPlus, hMinus])
    simp only [List.cons_append, exponent, hSign]
    rw [List.drop_append_of_le_length (List.length_take_le' ..), takeWhile_follows h.not_digit]

theorem length_fraction : (fraction s).length ≤ s.length := by
  cases s
  case nil      => simp [fraction]
  case cons c s =>
    simp only [fraction]
    split
    case isFalse => simp
    case isTrue  => simpa using (List.takeWhile_sublist isDigit).length_le

theorem length_exponent : (exponent s).length ≤ s.length := by
  cases s
  case nil      => simp [exponent]
  case cons c s =>
    simp only [exponent]
    generalize hSign : s.take (if s.head? = some 0x2B || s.head? = some 0x2D then 1 else 0) = sign
    have hLength : sign.length ≤ s.length := hSign ▸ List.length_take_le' ..
    have hDigits := (List.takeWhile_sublist (l := s.drop sign.length) isDigit).length_le
    rw [List.length_drop] at hDigits
    split
    case isFalse => simp
    case isTrue  =>
      simp only [List.cons_append, List.length_cons, List.length_append]
      omega

-- How far a number goes does not depend on a tail that cannot be part of it.
theorem scanNumber_append (h : Follows tail) :
    scanNumber parseFloat (s ++ tail) =
      (scanNumber parseFloat s).map fun x => (x.1, x.2 ++ tail) := by
  have hSign : (s ++ tail).take (if (s ++ tail).head? = some 0x2D then 1 else 0) =
      s.take (if s.head? = some 0x2D then 1 else 0) :=
    take_head (q := (· = some 0x2D)) <| h.head_ne (by decide) (by decide)
  simp only [scanNumber, hSign]
  have hLength : (s.take (if s.head? = some 0x2D then 1 else 0)).length ≤ s.length := by simp
  generalize s.take (if s.head? = some 0x2D then 1 else 0) = sign at hLength ⊢
  rw [List.drop_append_of_le_length hLength]
  generalize s.drop sign.length = s
  have hDigits : (s ++ tail).take (if (s ++ tail).head? = some 0x30 then 1
      else ((s ++ tail).takeWhile isDigit).length) =
      s.take (if s.head? = some 0x30 then 1 else (s.takeWhile isDigit).length) := by
    rw [takeWhile_follows h.not_digit]
    cases s
    case nil      => simp [h.head_ne (c := 0x30) (by decide) (by decide)]
    case cons c s =>
      have hWhile := (List.takeWhile_sublist (l := c :: s) isDigit).length_le
      by_cases hc : c = 0x30
      case pos => simp [hc]
      case neg =>
        have hHead (u : PyString) : (c :: u).head? ≠ some 0x30 := by simp [hc]
        rw [List.cons_append, if_neg (hHead _), if_neg (hHead _), ←List.cons_append,
          List.take_append_of_le_length hWhile]
  rw [hDigits]
  have hLength : (s.take (if s.head? = some 0x30 then 1 else (s.takeWhile isDigit).length)).length ≤
      s.length := List.length_take_le' ..
  generalize s.take (if s.head? = some 0x30 then 1 else (s.takeWhile isDigit).length) = digits at hLength ⊢
  rw [List.drop_append_of_le_length hLength]
  generalize s.drop digits.length = s
  have hFraction := length_fraction (s := s)
  rw [fraction_append h, List.drop_append_of_le_length hFraction, exponent_append h]
  have hExponent := length_exponent (s := s.drop (fraction s).length)
  rw [List.length_drop] at hExponent
  rw [List.drop_append_of_le_length (by rw [List.length_append]; omega)]
  split
  case isTrue  => rfl
  case isFalse => split <;> rfl

-- A number has a digit at least.
theorem scanNumber_suffix (h : scanNumber parseFloat s = some (v, rest)) :
    ∃ t, s = t ++ rest ∧ t ≠ [] := by
  simp only [scanNumber] at h
  generalize (s.take (if s.head? = some 0x2D then 1 else 0)).length = signs at h
  generalize (if (s.drop signs).head? = some 0x30 then 1
    else ((s.drop signs).takeWhile isDigit).length) = count at h
  have hRest : (s.drop signs).take count ≠ [] ∧
      ∃ k, (((s.drop signs).drop ((s.drop signs).take count).length).drop k) = rest := by
    split at h
    case isTrue        => cases h
    case isFalse hne =>
      refine ⟨hne, ?_⟩
      split at h <;> exact ⟨_, (Prod.mk.inj (Option.some.inj h)).right⟩
  obtain ⟨hne, k, hRest⟩ := hRest
  have hs : s ≠ [] := fun he => hne (by simp [he])
  have hDigits := List.length_pos_of_ne_nil hne
  rw [List.drop_drop, List.drop_drop] at hRest
  refine ⟨_, (hRest ▸ List.take_append_drop _ s).symm, fun hEmpty => ?_⟩
  cases List.take_eq_nil_iff.mp hEmpty
  case inl hZero => omega
  case inr hNil  => exact hs hNil

theorem literal_append (h : ∀ c ∈ text, tail.head? ≠ some c) :
    literal text v (s ++ tail) = (literal text v s).map fun x => (x.1, x.2 ++ tail) := by
  have hPrefix : text.isPrefixOf? (s ++ tail) = (text.isPrefixOf? s).map (· ++ tail) := by
    induction text generalizing s
    case nil            => rfl
    case cons c text hi =>
      have ⟨hc, h⟩ := List.forall_mem_cons.mp h
      cases s
      case nil       =>
        rcases tail with _ | ⟨c', tail⟩
        · rfl
        · have hne : c ≠ c' := fun he => hc (he ▸ rfl)
          simp [List.isPrefixOf?, hne]
      case cons c' s =>
        simp only [List.cons_append, List.isPrefixOf?]
        split
        case isTrue  => exact hi h
        case isFalse => rfl
  rw [literal, literal, hPrefix, Option.map_map, Option.map_map]
  rfl

theorem literal_suffix (h : literal text v s = some (v', rest)) : s = text ++ rest := by
  have ⟨u, hu, he⟩ := Option.map_eq_some_iff.mp h
  rw [←(Prod.mk.inj he).right]
  clear h he
  induction text generalizing s
  case nil            => exact Option.some.inj hu
  case cons c text hi =>
    cases s
    case nil       => cases hu
    case cons c' s =>
      simp only [List.isPrefixOf?] at hu
      split at hu
      case isTrue hc => rw [eq_of_beq hc, hi hu]; rfl
      case isFalse   => cases hu

theorem scanAtom_append (h : Follows tail) :
    scanAtom parseFloat (s ++ tail) = (scanAtom parseFloat s).map fun x => (x.1, x.2 ++ tail) := by
  have hLiteral (text : PyString) (v : Json) (hText : text.all fun c =>
      !isSpace c && c ≠ 0x2C && c ≠ 0x5D && c ≠ 0x7D) :
      literal text v (s ++ tail) = (literal text v s).map fun x => (x.1, x.2 ++ tail) := by
    refine literal_append fun c hc => ?_
    have hc := List.all_eq_true.mp hText c hc
    simp only [Bool.and_eq_true, Bool.not_eq_true', decide_eq_true_eq] at hc
    exact h.head_ne hc.left.left.left ⟨hc.left.left.right, hc.left.right, hc.right⟩
  simp only [scanAtom, scanNumber_append h, hLiteral "null" null (by decide),
    hLiteral "true" (bool true) (by decide), hLiteral "false" (bool false) (by decide),
    hLiteral "NaN" (float "NaN") (by decide), hLiteral "Infinity" (float "Infinity") (by decide),
    hLiteral "-Infinity" (float "-Infinity") (by decide), Option.orElse_eq_orElse,
    Option.orElse_eq_or, Option.map_or]

theorem scanAtom_suffix (h : scanAtom parseFloat s = some (v, rest)) :
    ∃ t, s = t ++ rest ∧ t ≠ [] := by
  have hLiteral {text : PyString} {v' : Json} (ht : text ≠ [])
      (h : literal text v' s = some (v, rest)) : ∃ t, s = t ++ rest ∧ t ≠ [] :=
    ⟨text, literal_suffix h, ht⟩
  simp only [scanAtom, Option.orElse_eq_orElse, Option.orElse_eq_or, Option.or_eq_some_iff] at h
  rcases h with h | ⟨_, h | ⟨_, h | ⟨_, h | ⟨_, h | ⟨_, h | ⟨_, h⟩⟩⟩⟩⟩⟩
  case inr.inr.inr.inl => exact scanNumber_suffix h
  all_goals exact hLiteral (by decide) h

-- What is read as a value that is no string, array or object, up to what may follow it
theorem scanAtom_extent (h : scanAtom parseFloat s = some (v, rest)) (hf : Follows rest) :
    ∃ t, s = t ++ rest ∧ t ≠ [] ∧
      ∀ tail, Follows tail → scanAtom parseFloat (t ++ tail) = some (v, tail) := by
  have ⟨t, ht, hne⟩ := scanAtom_suffix h
  refine ⟨t, ht, hne, fun tail hTail => ?_⟩
  rw [ht, scanAtom_append hf] at h
  have ⟨⟨v', u⟩, hu, he⟩ := Option.map_eq_some_iff.mp h
  have ⟨hv, hRest⟩ := Prod.mk.inj he
  have hEmpty : u = [] := List.append_left_eq_self.mp hRest
  rw [scanAtom_append hTail, hu, hEmpty]
  exact congrArg some <| Prod.ext hv rfl

end Numbers

section Values

variable {parseFloat : PyString → PyString} {c : CodePoint} {s t u w rest : PyString} {fuel : Nat}

theorem blank_skipSpace (s : PyString) : ∃ w, Blank w ∧ s = w ++ skipSpace s :=
  ⟨s.takeWhile isSpace, fun _ => List.mem_takeWhile_imp, List.takeWhile_append_dropWhile.symm⟩

theorem isSpace_skipSpace (h : skipSpace s = c :: rest) : isSpace c = false := by
  have hHead := List.head?_dropWhile_not isSpace s
  rw [show s.dropWhile isSpace = c :: rest from h] at hHead
  simpa using hHead

-- What is left by skipping blanks is found again behind any blanks.
theorem skipSpace_again (hs : skipSpace s = t ++ rest) (ht : t ≠ []) (hw : Blank w) (tail : PyString) :
    skipSpace (w ++ (t ++ tail)) = t ++ tail := by
  cases t
  case nil      => exact absurd rfl ht
  case cons c t => rw [skipSpace_blank hw, List.cons_append, skipSpace_cons (isSpace_skipSpace hs)]

-- A string, an array or an object begins.
def Opens (s : PyString) : Prop :=
  ∃ c ∈ s.head?, c = 0x22 ∨ c = 0x7B ∨ c = 0x5B

def Closes (t : PyString) : Prop :=
  ∃ c ∈ t.getLast?, c = 0x22 ∨ c = 0x7D ∨ c = 0x5D

variable (parseFloat) in
-- What is read as a value is read as the same value whatever follows, or whatever may follow a number.
def ValueExtent (fuel : Nat) : Prop :=
  ∀ {s v rest}, scanOnce parseFloat fuel s = some (v, rest) → Opens s ∨ Follows rest →
    ∃ t, s = t ++ rest ∧ t ≠ [] ∧ (Opens s → Closes t) ∧ ∀ tail fuel, Opens s ∨ Follows tail →
      2 * t.length ≤ fuel → scanOnce parseFloat fuel (t ++ tail) = some (v, tail)

variable (parseFloat) in
def ItemsExtent (fuel : Nat) : Prop :=
  ∀ {s vs rest}, scanItems parseFloat fuel s = some (vs, rest) →
    ∃ t, s = t ++ rest ∧ t.getLast? = some 0x5D ∧ ∀ tail fuel, 2 * t.length ≤ fuel →
      scanItems parseFloat fuel (t ++ tail) = some (vs, tail)

variable (parseFloat) in
def MembersExtent (fuel : Nat) : Prop :=
  ∀ {s ms rest}, scanMembers parseFloat fuel s = some (ms, rest) →
    ∃ t, s = t ++ rest ∧ t.getLast? = some 0x7D ∧ ∀ tail fuel, 2 * t.length ≤ fuel →
      scanMembers parseFloat fuel (t ++ tail) = some (ms, tail)

theorem ItemsExtent.succ (hv : ValueExtent parseFloat fuel) (hi : ItemsExtent parseFloat fuel) :
    ItemsExtent parseFloat (fuel + 1) := by
  intro s vs rest h
  simp only [scanItems, Option.bind_eq_bind, Option.bind_eq_some_iff] at h
  obtain ⟨⟨v, s₁⟩, hValue, h⟩ := h
  obtain ⟨w, hw, hs₁⟩ := blank_skipSpace s₁
  split at h
  case h_1 rest' hEnd =>
    obtain ⟨rfl, rfl⟩ := Prod.mk.inj (Option.some.inj h)
    rw [expect_eq_some.mp hEnd] at hs₁
    obtain ⟨t, hs, _, _, hScan⟩ := hv hValue <| .inr <| hs₁ ▸ follows_blank hw (by decide)
    refine ⟨t ++ w ++ [0x5D], by simp [hs, hs₁], by simp, fun tail fuel hf => ?_⟩
    cases fuel
    case zero      => simp at hf
    case succ fuel =>
      have hLength : 2 * t.length ≤ fuel := by
        simp only [List.length_append, List.length_singleton] at hf
        omega
      have hOnce := hScan (w ++ 0x5D :: tail) fuel (.inr <| follows_blank hw (by decide)) hLength
      have hSkip : skipSpace (w ++ 0x5D :: tail) = 0x5D :: tail :=
        (skipSpace_blank hw).trans <| skipSpace_cons (by decide)
      simp only [List.append_assoc, List.singleton_append, scanItems, hOnce, Option.bind_eq_bind,
        Option.bind_some, hSkip, expect, if_true]
      rfl
  case h_2 hEnd =>
    rw [Option.bind_eq_some_iff] at h
    obtain ⟨s₂, hComma, h⟩ := h
    rw [Option.bind_eq_some_iff] at h
    obtain ⟨⟨vs', rest'⟩, hItems, h⟩ := h
    obtain ⟨rfl, rfl⟩ := Prod.mk.inj (Option.some.inj h)
    rw [expect_eq_some.mp hComma] at hs₁
    obtain ⟨t, hs, _, _, hScan⟩ := hv hValue <| .inr <| hs₁ ▸ follows_blank hw (by decide)
    obtain ⟨w', hw', hs₂⟩ := blank_skipSpace s₂
    obtain ⟨t', ht', hLast, hScan'⟩ := hi hItems
    have hne : t' ≠ [] := fun he => by simp [he] at hLast
    refine ⟨t ++ w ++ 0x2C :: w' ++ t', ?_, getLast?_behind hLast _, fun tail fuel hf => ?_⟩
    · rw [hs, hs₁, hs₂, ht']
      simp
    cases fuel
    case zero      => simp at hf
    case succ fuel =>
      simp only [List.length_append, List.length_cons] at hf
      have hOnce := hScan (w ++ 0x2C :: (w' ++ (t' ++ tail))) fuel
        (.inr <| follows_blank hw (by decide)) (by omega)
      have hSkip : skipSpace (w ++ 0x2C :: (w' ++ (t' ++ tail))) = 0x2C :: (w' ++ (t' ++ tail)) :=
        (skipSpace_blank hw).trans <| skipSpace_cons (by decide)
      have hSkip' := skipSpace_again ht' hne hw' tail
      have hMore : expect 0x5D (0x2C :: (w' ++ (t' ++ tail))) = none := rfl
      have hItems' := hScan' tail fuel (by omega)
      simp only [List.append_assoc, List.cons_append, scanItems, hOnce, Option.bind_eq_bind,
        Option.bind_some, hSkip, hMore]
      simp only [expect, if_true, Option.bind_some, hSkip', hItems']
      rfl

variable (parseFloat) in
-- What is scanned after the value of a member
def scanBehind (fuel : Nat) (key : PyString) (value : Json × PyString) :
    Option (List (PyString × Json) × PyString) :=
  match expect 0x7D (skipSpace value.2) with
  | some rest => some ([(key, value.1)], rest)
  | none      => (expect 0x2C (skipSpace value.2)).bind fun s =>
    (scanMembers parseFloat fuel (skipSpace s)).bind fun more =>
      some ((key, value.1) :: more.1, more.2)

theorem MembersExtent.succ (hv : ValueExtent parseFloat fuel) (hm : MembersExtent parseFloat fuel) :
    MembersExtent parseFloat (fuel + 1) := by
  intro s ms rest h
  simp only [scanMembers, Option.bind_eq_bind, Option.bind_eq_some_iff] at h
  obtain ⟨s₁, hQuote, ⟨key, s₂⟩, hKey, s₃, hColon, ⟨v, s₄⟩, hValue, h⟩ := h
  obtain ⟨k, hs₁, hq, hScanKey⟩ := scanString_extent hKey
  obtain ⟨w, hw, hs₂⟩ := blank_skipSpace s₂
  obtain ⟨w', hw', hs₃⟩ := blank_skipSpace s₃
  obtain ⟨u, hu, hs₄⟩ := blank_skipSpace s₄
  rw [expect_eq_some.mp hColon] at hs₂
  have hFront (fuel : Nat) {t : PyString} (tail : PyString) (ht : skipSpace s₃ = t ++ s₄) (hne : t ≠ []) :
      scanMembers parseFloat (fuel + 1) (0x22 :: (k ++ (w ++ 0x3A :: (w' ++ (t ++ tail))))) =
        (scanOnce parseFloat fuel (t ++ tail)).bind (scanBehind parseFloat fuel key) := by
    have hKey' := hScanKey (w ++ 0x3A :: (w' ++ (t ++ tail)))
      ((k ++ (w ++ 0x3A :: (w' ++ (t ++ tail)))).length + 1) (by rw [List.length_append]; omega)
    have hSkip : skipSpace (w ++ 0x3A :: (w' ++ (t ++ tail))) = 0x3A :: (w' ++ (t ++ tail)) :=
      (skipSpace_blank hw).trans <| skipSpace_cons (by decide)
    simp only [scanMembers, expect, if_true, Option.bind_eq_bind, Option.bind_some, hKey', hSkip,
      skipSpace_again ht hne hw' tail]
    rfl
  split at h
  case h_1 rest' hEnd =>
    obtain ⟨rfl, rfl⟩ := Prod.mk.inj (Option.some.inj h)
    rw [expect_eq_some.mp hEnd] at hs₄
    obtain ⟨t, ht, hne, _, hScan⟩ := hv hValue <| .inr <| hs₄ ▸ follows_blank hu (by decide)
    have ht : skipSpace s₃ = t ++ s₄ := ht
    refine ⟨0x22 :: (k ++ (w ++ 0x3A :: (w' ++ (t ++ (u ++ [0x7D]))))), ?_, ?_, fun tail fuel hf => ?_⟩
    · rw [expect_eq_some.mp hQuote, hs₁, hs₂, hs₃, ht, hs₄]
      simp
    · simp [List.getLast?_cons, List.getLast?_append]
    cases fuel
    case zero      => simp at hf
    case succ fuel =>
      simp only [List.length_append, List.length_cons] at hf
      have hOnce := hScan (u ++ 0x7D :: tail) fuel (.inr <| follows_blank hu (by decide)) (by omega)
      have hSkip : skipSpace (u ++ 0x7D :: tail) = 0x7D :: tail :=
        (skipSpace_blank hu).trans <| skipSpace_cons (by decide)
      have hMember := hFront fuel (u ++ 0x7D :: tail) ht hne
      simp only [hOnce, Option.bind_some, scanBehind, hSkip, expect, if_true] at hMember
      simpa using hMember
  case h_2 hEnd =>
    rw [Option.bind_eq_some_iff] at h
    obtain ⟨s₅, hComma, h⟩ := h
    rw [Option.bind_eq_some_iff] at h
    obtain ⟨⟨ms', rest'⟩, hMembers, h⟩ := h
    obtain ⟨rfl, rfl⟩ := Prod.mk.inj (Option.some.inj h)
    rw [expect_eq_some.mp hComma] at hs₄
    obtain ⟨t, ht, hne, _, hScan⟩ := hv hValue <| .inr <| hs₄ ▸ follows_blank hu (by decide)
    have ht : skipSpace s₃ = t ++ s₄ := ht
    obtain ⟨u', hu', hs₅⟩ := blank_skipSpace s₅
    obtain ⟨t', ht', hLast, hScan'⟩ := hm hMembers
    have hne' : t' ≠ [] := fun he => by simp [he] at hLast
    refine ⟨0x22 :: (k ++ (w ++ 0x3A :: (w' ++ (t ++ (u ++ 0x2C :: u'))))) ++ t', ?_,
      getLast?_behind hLast _, fun tail fuel hf => ?_⟩
    · rw [expect_eq_some.mp hQuote, hs₁, hs₂, hs₃, ht, hs₄, hs₅, ht']
      simp
    cases fuel
    case zero      => simp at hf
    case succ fuel =>
      simp only [List.length_append, List.length_cons] at hf
      have hOnce := hScan (u ++ 0x2C :: (u' ++ (t' ++ tail))) fuel
        (.inr <| follows_blank hu (by decide)) (by omega)
      have hSkip : skipSpace (u ++ 0x2C :: (u' ++ (t' ++ tail))) = 0x2C :: (u' ++ (t' ++ tail)) :=
        (skipSpace_blank hu).trans <| skipSpace_cons (by decide)
      have hMore : expect 0x7D (0x2C :: (u' ++ (t' ++ tail))) = none := rfl
      have hMember := hFront fuel (u ++ 0x2C :: (u' ++ (t' ++ tail))) ht hne
      simp only [hOnce, Option.bind_some, scanBehind, hSkip, hMore] at hMember
      simp only [expect, if_true, Option.bind_some, skipSpace_again ht' hne' hu' tail,
        hScan' tail fuel (by omega)] at hMember
      simpa using hMember

-- Brackets with nothing in them
theorem scanEmpty {c : CodePoint} (hc : isSpace c = false) (hw : Blank w) (tail : PyString) :
    expect c (skipSpace (w ++ c :: tail)) = some tail := by
  rw [skipSpace_blank hw, skipSpace_cons hc]
  exact if_pos rfl

-- Brackets with something in them
theorem scanFull {close : CodePoint} (hs : s = t ++ rest) (ht : t ≠ []) (hc : expect close s = none)
    (tail : PyString) : expect close (t ++ tail) = none := by
  rw [hs, expect_append ht, Option.map_eq_none_iff] at hc
  rw [expect_append ht, hc]
  rfl

theorem ValueExtent.succ (hi : ItemsExtent parseFloat fuel) (hm : MembersExtent parseFloat fuel) :
    ValueExtent parseFloat (fuel + 1) := by
  intro s v rest h hf
  cases s
  case nil      => cases h
  case cons c s =>
    obtain ⟨w, hw, hs⟩ := blank_skipSpace s
    simp only [scanOnce] at h
    split at h
    case isTrue hc =>
      obtain ⟨⟨text, rest'⟩, hText, h⟩ := Option.map_eq_some_iff.mp h
      obtain ⟨rfl, rfl⟩ := Prod.mk.inj h
      obtain ⟨t, ht, hq, hScan⟩ := scanString_extent hText
      refine ⟨c :: t, by rw [ht]; rfl, by simp, fun _ => ⟨0x22, hq.append [c], .inl rfl⟩, ?_⟩
      intro tail fuel _ hf
      cases fuel
      case zero      => simp at hf
      case succ fuel =>
        have hText := hScan tail ((t ++ tail).length + 1) (by rw [List.length_append]; omega)
        simp only [List.cons_append, scanOnce, if_pos hc, hText]
        rfl
    case isFalse hQuote =>
      split at h
      case isTrue hc =>
        split at h
        case h_1 rest' hEnd =>
          obtain ⟨rfl, rfl⟩ := Prod.mk.inj (Option.some.inj h)
          rw [expect_eq_some.mp hEnd] at hs
          refine ⟨c :: (w ++ [0x7D]), by rw [hs]; simp, by simp,
            fun _ => ⟨0x7D, getLast?_behind rfl (c :: w), by decide⟩, fun tail fuel _ hf => ?_⟩
          cases fuel
          case zero      => simp at hf
          case succ fuel =>
            have hEmpty := scanEmpty (c := 0x7D) (by decide) hw tail
            simp only [List.cons_append, List.append_assoc, List.nil_append, scanOnce, if_neg hQuote,
              if_pos hc, hEmpty]
        case h_2 hEnd =>
          obtain ⟨⟨ms, rest'⟩, hMembers, h⟩ := Option.map_eq_some_iff.mp h
          obtain ⟨rfl, rfl⟩ := Prod.mk.inj h
          obtain ⟨t, ht, hLast, hScan⟩ := hm hMembers
          have hne : t ≠ [] := fun he => by simp [he] at hLast
          refine ⟨c :: w ++ t, by rw [hs, ht]; simp, by simp,
            fun _ => ⟨0x7D, getLast?_behind hLast _, by decide⟩, fun tail fuel _ hf => ?_⟩
          cases fuel
          case zero      => simp at hf
          case succ fuel =>
            simp only [List.length_append, List.length_cons] at hf
            simp only [List.cons_append, List.append_assoc, scanOnce, if_neg hQuote, if_pos hc,
              scanFull ht hne hEnd tail, skipSpace_again ht hne hw tail, hScan tail fuel (by omega)]
            rfl
      case isFalse hObject =>
        split at h
        case isTrue hc =>
          split at h
          case h_1 rest' hEnd =>
            obtain ⟨rfl, rfl⟩ := Prod.mk.inj (Option.some.inj h)
            rw [expect_eq_some.mp hEnd] at hs
            refine ⟨c :: (w ++ [0x5D]), by rw [hs]; simp, by simp,
              fun _ => ⟨0x5D, getLast?_behind rfl (c :: w), by decide⟩, fun tail fuel _ hf => ?_⟩
            cases fuel
            case zero      => simp at hf
            case succ fuel =>
              have hEmpty := scanEmpty (c := 0x5D) (by decide) hw tail
              simp only [List.cons_append, List.append_assoc, List.nil_append, scanOnce,
                if_neg hQuote, if_neg hObject, if_pos hc, hEmpty]
          case h_2 hEnd =>
            obtain ⟨⟨vs, rest'⟩, hItems, h⟩ := Option.map_eq_some_iff.mp h
            obtain ⟨rfl, rfl⟩ := Prod.mk.inj h
            obtain ⟨t, ht, hLast, hScan⟩ := hi hItems
            have hne : t ≠ [] := fun he => by simp [he] at hLast
            refine ⟨c :: w ++ t, by rw [hs, ht]; simp, by simp,
              fun _ => ⟨0x5D, getLast?_behind hLast _, by decide⟩, fun tail fuel _ hf => ?_⟩
            cases fuel
            case zero      => simp at hf
            case succ fuel =>
              simp only [List.length_append, List.length_cons] at hf
              simp only [List.cons_append, List.append_assoc, scanOnce, if_neg hQuote,
                if_neg hObject, if_pos hc, scanFull ht hne hEnd tail,
                skipSpace_again ht hne hw tail, hScan tail fuel (by omega)]
              rfl
        case isFalse hArray =>
          have hOpens : ¬Opens (c :: s) := by
            rintro ⟨c', hc', h⟩
            cases hc'
            rcases h with h | h | h <;> contradiction
          obtain ⟨t, ht, hne, hScan⟩ := scanAtom_extent h (hf.resolve_left hOpens)
          refine ⟨t, ht, hne, fun ho => absurd ho hOpens, fun tail fuel hTail hf => ?_⟩
          cases t
          case nil       => exact absurd rfl hne
          case cons c' t =>
            cases fuel
            case zero      => simp at hf
            case succ fuel =>
              have hc : c' = c := (List.cons.inj ht).left.symm
              have hAtom := hScan tail (hTail.resolve_left hOpens)
              rw [hc] at hAtom ⊢
              simp only [List.cons_append, scanOnce, if_neg hQuote, if_neg hObject, if_neg hArray]
              exact hAtom

theorem extents (fuel : Nat) : ValueExtent parseFloat fuel ∧ ItemsExtent parseFloat fuel ∧
    MembersExtent parseFloat fuel := by
  induction fuel
  case zero         => exact ⟨nofun, nofun, nofun⟩
  case succ fuel hi =>
    have ⟨hv, hi, hm⟩ := hi
    exact ⟨ValueExtent.succ hi hm, ItemsExtent.succ hv hi, MembersExtent.succ hv hm⟩

end Values

section Loads

variable {parseFloat : PyString → PyString} {v : Json} {j t p q s rest : PyString} {fuel : Nat}

-- The value is an object or an array.
def Container : Json → Prop
  | array _ | object _ => True
  | _                  => False

theorem not_container_atom (h : scanAtom parseFloat s = some (v, rest)) : ¬Container v := by
  have hLiteral {text : PyString} {v' : Json} (hv : ¬Container v')
      (h : literal text v' s = some (v, rest)) : ¬Container v := by
    have ⟨_, _, he⟩ := Option.map_eq_some_iff.mp h
    exact (Prod.mk.inj he).left ▸ hv
  simp only [scanAtom, Option.orElse_eq_orElse, Option.orElse_eq_or, Option.or_eq_some_iff] at h
  rcases h with h | ⟨_, h | ⟨_, h | ⟨_, h | ⟨_, h | ⟨_, h | ⟨_, h⟩⟩⟩⟩⟩⟩
  case inr.inr.inr.inl =>
    simp only [scanNumber] at h
    generalize s.take (if s.head? = some 0x2D then 1 else 0) = sign at h
    generalize (s.drop sign.length).take _ = digits at h
    split at h
    case isTrue  => cases h
    case isFalse => split at h <;> exact (Prod.mk.inj (Option.some.inj h)).left ▸ id
  all_goals exact hLiteral id h

theorem scanOnce_container (h : scanOnce parseFloat fuel s = some (v, rest)) (hv : Container v) :
    ∃ c u, s = c :: u ∧ (c = 0x7B ∨ c = 0x5B) := by
  cases fuel
  case zero      => cases h
  case succ fuel =>
    cases s
    case nil      => cases h
    case cons c s =>
      refine ⟨c, s, rfl, ?_⟩
      by_contra hc
      obtain ⟨hObject, hArray⟩ := not_or.mp hc
      simp only [scanOnce, if_neg hObject, if_neg hArray] at h
      split at h
      case isTrue  =>
        obtain ⟨_, _, he⟩ := Option.map_eq_some_iff.mp h
        rw [←(Prod.mk.inj he).left] at hv
        exact hv
      case isFalse => exact not_container_atom h hv

variable (parseFloat) in
-- The text of an object or array without the blanks around it
structure Core (v : Json) (t : PyString) : Prop where
  opens  : ∃ c u, t = c :: u ∧ (c = 0x7B ∨ c = 0x5B)
  closes : Closes t
  scan   : ∀ tail fuel, 2 * t.length ≤ fuel → scanOnce parseFloat fuel (t ++ tail) = some (v, tail)

theorem loads_core (h : loads parseFloat j = some v) (hv : Container v) :
    ∃ w t w', j = w ++ t ++ w' ∧ Blank w ∧ Blank w' ∧ Core parseFloat v t := by
  simp only [loads] at h
  split at h
  case isTrue  => cases h
  case isFalse =>
    rw [Option.bind_eq_bind, Option.bind_eq_some_iff] at h
    obtain ⟨⟨v', rest⟩, hScan, h⟩ := h
    split at h
    case isFalse     => cases h
    case isTrue hEnd =>
      have hv' : v' = v := Option.some.inj h
      subst hv'
      obtain ⟨c, u, hc, hOpen⟩ := scanOnce_container hScan hv
      have hOpens : Opens (skipSpace j) := ⟨c, by rw [hc]; rfl, .inr hOpen⟩
      obtain ⟨t, ht, hne, hClose, hExtent⟩ := (extents _).left hScan (.inl hOpens)
      obtain ⟨w, hw, hj⟩ := blank_skipSpace j
      refine ⟨w, t, rest, by rw [hj, ht]; simp, hw, ?_, ?_, hClose hOpens,
        fun tail fuel => hExtent tail fuel (.inl hOpens)⟩
      · exact fun c hm => List.dropWhile_eq_nil_iff.mp hEnd c hm
      · cases t
        case nil       => exact absurd rfl hne
        case cons c' t => exact ⟨c', t, rfl, (List.cons.inj (hc.symm.trans ht)).left ▸ hOpen⟩

theorem Core.loads (h : Core parseFloat v t) : loads parseFloat t = some v := by
  have ⟨c, u, ht, hc⟩ := h.opens
  have hScan := h.scan [] (2 * t.length + 2) (by omega)
  rw [List.append_nil] at hScan
  have hSpace : isSpace c = false := by rcases hc with rfl | rfl <;> rfl
  have hMark : t.head? ≠ some 0xFEFF := by
    rw [ht, List.head?_cons, ne_eq, Option.some.injEq]
    rcases hc with rfl | rfl <;> decide
  have hSkip : skipSpace t = t := ht ▸ skipSpace_cons hSpace
  simp only [Json.loads, if_neg hMark, hSkip, hScan, Option.bind_eq_bind, Option.bind_some]
  rfl

-- No part of a text of an object or array that it begins with is a text of its own.
theorem Core.loads_prefix (h : Core parseFloat v (p ++ q)) (hq : q ≠ []) : Json.loads parseFloat p = none := by
  by_contra hSome
  obtain ⟨v', hLoads⟩ := Option.ne_none_iff_exists'.mp hSome
  obtain ⟨c, u, ht, hc⟩ := h.opens
  cases p
  case nil       => cases hLoads
  case cons c' p =>
    have hc' : c' = c := (List.cons.inj ht).left
    subst hc'
    have hSpace : isSpace c' = false := by rcases hc with rfl | rfl <;> rfl
    simp only [Json.loads] at hLoads
    split at hLoads
    case isTrue  => cases hLoads
    case isFalse =>
      rw [Option.bind_eq_bind, Option.bind_eq_some_iff, skipSpace_cons hSpace] at hLoads
      obtain ⟨⟨v'', rest⟩, hScan, _⟩ := hLoads
      have hOpens : Opens (c' :: p) := ⟨c', rfl, .inr hc⟩
      obtain ⟨t, hp, _, _, hExtent⟩ := (extents _).left hScan (.inl hOpens)
      have hp : c' :: p = t ++ rest := hp
      have hLonger := hExtent (rest ++ q) (2 * (c' :: p ++ q).length) (.inl hOpens) (by
        rw [hp]
        simp only [List.length_append]
        omega)
      rw [←List.append_assoc, ←hp] at hLonger
      have hWhole := h.scan [] (2 * (c' :: p ++ q).length) (Nat.le_refl _)
      rw [List.append_nil, hLonger] at hWhole
      have hRest := (Prod.mk.inj (Option.some.inj hWhole)).right
      exact hq (List.append_eq_nil_iff.mp hRest).right

end Loads

end Json

import CookbookModel.Workers.Dns

namespace Workers

open JsString
open GoString (Rune encodeRune isScalar)

-- Three decimal digits at the start of a text, as a number
def decimalTriple : List Rune → Option (Nat × List Rune)
  | a :: b :: c :: s =>
    if (0x30 ≤ a ∧ a ≤ 0x39) ∧ (0x30 ≤ b ∧ b ≤ 0x39) ∧ (0x30 ≤ c ∧ c ≤ 0x39) then
      some ((a - 48) * 100 + (b - 48) * 10 + (c - 48), s)
    else
      none
  | _ => none

-- What may stand between two quotes, with the octets that it denotes.
inductive Inside : List Rune → List UInt8 → Prop
  | nil     : Inside [] []
  | octet   (ht : decimalTriple s = some (n, t)) (hn : n ≤ 255) (h : Inside t octets) :
    Inside (0x5C :: s) (.ofNat n :: octets)
  | escaped (hc : ¬(0x30 ≤ c ∧ c ≤ 0x39)) (h : Inside s octets) :
    Inside (0x5C :: c :: s) (encodeRune c ++ octets)
  | plain   (hQuote : c ≠ 0x22) (hEscape : c ≠ 0x5C) (h : Inside s octets) :
    Inside (c :: s) (encodeRune c ++ octets)

-- Character-strings in presentation format, with the octets of each
inductive Presentation : List Rune → List (List UInt8) → Prop
  | nil    : Presentation [] []
  | space  (h : Presentation s strings) : Presentation (0x20 :: s) strings
  | string (h : Inside s octets) (ht : Presentation t strings) :
    Presentation (0x22 :: s ++ 0x22 :: t) (octets :: strings)

-- The text of a string whose octets are valid UTF-8
def Denotes (octets : List UInt8) (text : JsString) : Prop :=
  ∀ cs : List Rune, (∀ c ∈ cs, isScalar c) → cs.flatMap encodeRune = octets →
    text = cs.flatMap fromCodePoint

-- The parser accepts the data exactly if it is in presentation format, and returns what it denotes.
structure Parsed (data : JsString) : Prop where
  accepted : ∀ strings, Presentation (codePoints data) strings →
    ∃ out, parseCharacterStrings data = .ok out ∧ List.Forall₂ Denotes strings out
  rejected : (¬∃ strings, Presentation (codePoints data) strings) →
    ∃ e, parseCharacterStrings data = .error e

-- What stands between two quotes if a backslash takes the three digits behind it or else one
-- character.
inductive Token
  | plain (c : Rune)
  | escaped (c : Rune)
  | octet (n : Nat)

namespace Token

def numbers : Token → List Nat
  | plain c | escaped c => (encodeRune c).map (·.toNat)
  | octet n             => [n]

def octets : Token → List UInt8
  | plain c | escaped c => encodeRune c
  | octet n             => [.ofNat n]

def Proper : Token → Prop
  | plain _   => True
  | escaped c => ¬(0x30 ≤ c ∧ c ≤ 0x39)
  | octet n   => n ≤ 255

theorem numbers_octets (token : Token) : token.numbers.map UInt8.ofNat = token.octets := by
  cases token
  case octet => rfl
  all_goals simp [numbers, octets, Function.comp_def]

end Token

-- The tokens up to a quote, and what follows it.
inductive Scans : List Rune → List Token → List Rune → Prop
  | close   : Scans (0x22 :: t) [] t
  | octet   (ht : decimalTriple s = some (n, s')) (h : Scans s' tokens t) :
    Scans (0x5C :: s) (.octet n :: tokens) t
  | escaped (hs : decimalTriple (c :: s) = none) (h : Scans s tokens t) :
    Scans (0x5C :: c :: s) (.escaped c :: tokens) t
  | plain   (hQuote : c ≠ 0x22) (hEscape : c ≠ 0x5C) (h : Scans s tokens t) :
    Scans (c :: s) (.plain c :: tokens) t

inductive Quoted : List Rune → List (List Token) → Prop
  | nil    : Quoted [] []
  | space  (h : Quoted s strings) : Quoted (0x20 :: s) strings
  | string (h : Scans s tokens t) (ht : Quoted t strings) : Quoted (0x22 :: s) (tokens :: strings)

-- A string that is marked as UTF-8 by its first character
def Marked (octets : List UInt8) : Prop :=
  ∃ cs : List Rune, (∀ c ∈ cs, isScalar c) ∧ (0xFEFF :: cs).flatMap encodeRune = octets

section

variable {s t : List Rune} {tokens : List Token} {strings : List (List Token)} {data : JsString}

theorem decimalTriple_some (h : decimalTriple s = some (n, t)) :
    ∃ a b c, s = a :: b :: c :: t ∧ (∀ t, decimalTriple (a :: b :: c :: t) = some (n, t)) ∧
      (0x30 ≤ a ∧ a ≤ 0x39) ∧ (0x30 ≤ b ∧ b ≤ 0x39) ∧ (0x30 ≤ c ∧ c ≤ 0x39) := by
  revert h
  fun_cases decimalTriple s
  case case1 a b c s hd =>
    intro h
    cases h
    exact ⟨a, b, c, rfl, fun _ => if_pos hd, hd⟩
  case case2 => exact nofun
  case case3 => exact nofun

theorem decimalTriple_append (h : decimalTriple s = some (n, s')) (t : List Rune) :
    decimalTriple (s ++ t) = some (n, s' ++ t) := by
  have ⟨_, _, _, hs, hd, _⟩ := decimalTriple_some h
  subst hs
  exact hd _

theorem decimalTriple_start (h : decimalTriple s = some (n, u ++ t)) :
    ∃ v, s = v ++ t ∧ decimalTriple v = some (n, u) := by
  have ⟨a, b, c, hs, hd, _⟩ := decimalTriple_some h
  exact ⟨a :: b :: c :: u, hs, hd u⟩

theorem decimalTriple_none (hc : ¬(0x30 ≤ c ∧ c ≤ 0x39)) : decimalTriple (c :: s) = none :=
  match s with
  | []          => rfl
  | [_]         => rfl
  | _ :: _ :: _ => if_neg fun h => hc h.left

-- The tokens that are read are the only ones.
theorem Scans.unique (h : Scans s tokens t) (h' : Scans s tokens' t') :
    tokens = tokens' ∧ t = t' := by
  induction h generalizing tokens' t'
  case close =>
    cases h'
    case close            => exact ⟨rfl, rfl⟩
    case plain hQuote _ _ => exact absurd rfl hQuote
  case octet ht _ hi =>
    cases h'
    case octet ht' h' =>
      cases ht.symm.trans ht'
      have ⟨ht, he⟩ := hi h'
      exact ⟨ht ▸ rfl, he⟩
    case escaped hs _      => cases ht.symm.trans hs
    case plain _ hEscape _ => exact absurd rfl hEscape
  case escaped hs _ hi =>
    cases h'
    case octet ht' _  => cases hs.symm.trans ht'
    case escaped _ h' =>
      have ⟨ht, he⟩ := hi h'
      exact ⟨ht ▸ rfl, he⟩
    case plain _ hEscape _ => exact absurd rfl hEscape
  case plain hQuote hEscape _ hi =>
    cases h'
    case close         => exact absurd rfl hQuote
    case octet         => exact absurd rfl hEscape
    case escaped       => exact absurd rfl hEscape
    case plain _ _ h'  =>
      have ⟨ht, he⟩ := hi h'
      exact ⟨ht ▸ rfl, he⟩

theorem Quoted.unique (h : Quoted s strings) (h' : Quoted s strings') : strings = strings' := by
  induction h generalizing strings'
  case nil => cases h'; rfl
  case space hi =>
    cases h'
    case space h' => exact hi h'
  case string h _ hi =>
    cases h'
    case string ht' h' =>
      have ⟨ht, he⟩ := h.unique h'
      subst ht he
      rw [hi ht']

-- Text is in presentation format if it is quoted and has tokens of the right kind only.
theorem Inside.scans (h : Inside s octets) (t : List Rune) :
    ∃ tokens : List Token, Scans (s ++ 0x22 :: t) tokens t ∧ (∀ token ∈ tokens, token.Proper) ∧
      tokens.flatMap Token.octets = octets := by
  induction h
  case nil => exact ⟨[], .close, by simp, rfl⟩
  case octet n _ _ ht hn _ hi =>
    have ⟨tokens, hs, hp, ho⟩ := hi
    exact ⟨.octet n :: tokens, .octet (decimalTriple_append ht _) hs,
      List.forall_mem_cons.mpr ⟨hn, hp⟩, congrArg (_ :: ·) ho⟩
  case escaped c _ _ hc _ hi =>
    have ⟨tokens, hs, hp, ho⟩ := hi
    exact ⟨.escaped c :: tokens, .escaped (decimalTriple_none hc) hs,
      List.forall_mem_cons.mpr ⟨hc, hp⟩, congrArg (_ ++ ·) ho⟩
  case plain c _ _ hQuote hEscape _ hi =>
    have ⟨tokens, hs, hp, ho⟩ := hi
    exact ⟨.plain c :: tokens, .plain hQuote hEscape hs,
      List.forall_mem_cons.mpr ⟨trivial, hp⟩, congrArg (_ ++ ·) ho⟩

theorem Scans.inside (h : Scans s tokens t) (hp : ∀ token ∈ tokens, token.Proper) :
    ∃ u, s = u ++ 0x22 :: t ∧ Inside u (tokens.flatMap Token.octets) := by
  induction h
  case close => exact ⟨[], rfl, .nil⟩
  case octet n _ _ _ ht _ hi =>
    have ⟨hn, hp⟩ := List.forall_mem_cons.mp hp
    have ⟨u, hu, h⟩ := hi hp
    subst hu
    have ⟨v, hv, ht⟩ := decimalTriple_start ht
    exact ⟨0x5C :: v, by rw [hv]; rfl, .octet ht hn h⟩
  case escaped c _ _ _ _ _ hi =>
    have ⟨hc, hp⟩ := List.forall_mem_cons.mp hp
    have ⟨u, hu, h⟩ := hi hp
    exact ⟨0x5C :: c :: u, by rw [hu]; rfl, .escaped hc h⟩
  case plain c _ _ _ hQuote hEscape _ hi =>
    have ⟨_, hp⟩ := List.forall_mem_cons.mp hp
    have ⟨u, hu, h⟩ := hi hp
    exact ⟨c :: u, by rw [hu]; rfl, .plain hQuote hEscape h⟩

theorem presentation_iff {l : List (List UInt8)} : Presentation s l ↔
    ∃ strings, Quoted s strings ∧ (∀ tokens ∈ strings, ∀ token ∈ tokens, token.Proper) ∧
      l = strings.map (·.flatMap Token.octets) := by
  constructor
  case mp =>
    intro h
    induction h
    case nil => exact ⟨[], .nil, by simp, rfl⟩
    case space hi =>
      have ⟨strings, hs, hp⟩ := hi
      exact ⟨strings, .space hs, hp⟩
    case string t _ h _ hi =>
      have ⟨strings, hs, hp, hl⟩ := hi
      have ⟨tokens, ht, htp, ho⟩ := h.scans t
      exact ⟨tokens :: strings, .string ht hs, List.forall_mem_cons.mpr ⟨htp, hp⟩,
        by rw [List.map_cons, ho, hl]⟩
  case mpr =>
    rintro ⟨strings, h, hp, rfl⟩
    induction h
    case nil          => exact .nil
    case space hi     => exact .space (hi hp)
    case string h _ hi =>
      have ⟨htp, hp⟩ := List.forall_mem_cons.mp hp
      have ⟨u, hu, ho⟩ := h.inside htp
      subst hu
      exact .string ho (hi hp)

-- The code units that the parser reads as digits are the code points that are digits.
theorem isDigit_iff {u : UInt16} : isDigit u = true ↔ 0x30 ≤ u.toNat ∧ u.toNat ≤ 0x39 := by
  simp only [isDigit, Bool.and_eq_true, decide_eq_true_eq, UInt16.le_iff_toNat_le,
    UInt16.reduceToNat]

theorem decimals_some (h : decimals (data.take 3) = some n) :
    decimalTriple (codePoints data) = some (n, codePoints (data.drop 3)) := by
  match data with
  | []               => cases h
  | [_]              => cases h
  | [_, _]           => cases h
  | u :: v :: w :: s =>
    simp only [List.take_succ_cons, List.take_zero, decimals, Bool.and_eq_true, isDigit_iff] at h
    split at h
    case isFalse => cases h
    case isTrue hd =>
      have ⟨⟨hu, hv⟩, hw⟩ := hd
      cases h
      rw [codePoints_cons (by omega), codePoints_cons (by omega), codePoints_cons (by omega)]
      exact if_pos ⟨hu, hv, hw⟩

theorem decimals_none (h : decimals (data.take 3) = none) :
    decimalTriple (codePoints data) = none := by
  cases ht : decimalTriple (codePoints data)
  case none => rfl
  case some p =>
    have ⟨a, b, c, hs, _, ha, hb, hc⟩ := decimalTriple_some ht
    have ⟨u, data₁, h₁, hu, hs⟩ := codePoints_unit hs (ha.right.trans_lt (by decide))
    have ⟨v, data₂, h₂, hv, hs⟩ := codePoints_unit hs (hb.right.trans_lt (by decide))
    have ⟨w, data₃, h₃, hw, _⟩ := codePoints_unit hs (hc.right.trans_lt (by decide))
    subst h₁ h₂ h₃ hu hv hw
    have hDigits : isDigit u && isDigit v && isDigit w := by
      simp only [Bool.and_eq_true, isDigit_iff]
      exact ⟨⟨ha, hb⟩, hc⟩
    simp [decimals, hDigits] at h

-- A character is written as it is read.
theorem encode_fromCodePoint (h : codePoints data = c :: s) :
    encode (fromCodePoint c) = encodeRune c := by
  rw [encode, codePoints_fromCodePoint h, List.flatMap_cons, List.flatMap_nil, List.append_nil]

theorem readString_octet (h : decimals (data.take 3) = some n) :
    readString bytes (0x5C :: data) = readString (bytes ++ [n]) (data.drop 3) := by
  rw [readString, if_neg (by decide), if_pos rfl, h]

theorem readString_escaped (hn : decimals (data.take 3) = none) (h : codePoints data = c :: s) :
    readString bytes (0x5C :: data) =
      readString (bytes ++ (encodeRune c).map (·.toNat)) (data.drop (fromCodePoint c).length) := by
  have hc : codePointAt data = some c := by rw [codePointAt, h, List.head?_cons]
  rw [readString, if_neg (by decide), if_pos rfl, hn]
  simp only [if_true]
  split
  case h_1 hc'   => cases hc.symm.trans hc'
  case h_2 _ hc' => cases hc.symm.trans hc'; rw [encode_fromCodePoint h]

theorem readString_plain {u : UInt16} (hQuote : u ≠ 0x22) (hEscape : u ≠ 0x5C)
    (h : codePoints (u :: data) = c :: s) :
    readString bytes (u :: data) =
      readString (bytes ++ (encodeRune c).map (·.toNat))
        ((u :: data).drop (fromCodePoint c).length) := by
  have hc : codePointAt (u :: data) = some c := by rw [codePointAt, h, List.head?_cons]
  rw [readString, if_neg hQuote, if_neg hEscape]
  simp only [if_neg hEscape]
  split
  case h_1 hc' =>
    rw [if_neg hEscape] at hc'
    cases hc.symm.trans hc'
  case h_2 hc' =>
    rw [if_neg hEscape] at hc'
    cases hc.symm.trans hc'
    rw [encode_fromCodePoint h]

theorem codePoints_ascii {u : UInt16} (h : codePoints data = u.toNat :: s) (hu : u.toNat < 0x80) :
    ∃ rest, data = u :: rest ∧ codePoints rest = s := by
  have ⟨v, rest, hd, hv, hs⟩ := codePoints_unit h (hu.trans (by decide))
  exact ⟨rest, UInt16.toNat_inj.mp hv ▸ hd, hs⟩

theorem decimals_of_triple (h : decimalTriple (codePoints data) = some (n, s)) :
    decimals (data.take 3) = some n ∧ codePoints (data.drop 3) = s := by
  cases hd : decimals (data.take 3)
  case none   => cases h.symm.trans (decimals_none hd)
  case some m => cases h.symm.trans (decimals_some hd); exact ⟨rfl, rfl⟩

theorem decimals_of_none (h : decimalTriple (codePoints data) = none) :
    decimals (data.take 3) = none := by
  cases hd : decimals (data.take 3)
  case none   => rfl
  case some m => cases h.symm.trans (decimals_some hd)

-- What is quoted is read.
theorem readString_scans (h : Scans s tokens t) (hs : codePoints data = s) (bytes : List Nat) :
    ∃ rest, readString bytes data = .ok (bytes ++ tokens.flatMap Token.numbers, rest) ∧
      codePoints rest = t := by
  induction h generalizing data bytes
  case close =>
    obtain ⟨rest, hd, ht⟩ := codePoints_ascii (u := 0x22) hs (by decide)
    subst hd
    exact ⟨rest, by simp [readString, pure, Except.pure], ht⟩
  case octet n _ _ _ ht _ hi =>
    obtain ⟨rest, hd, hr⟩ := codePoints_ascii (u := 0x5C) hs (by decide)
    subst hd hr
    obtain ⟨hn, hs'⟩ := decimals_of_triple ht
    obtain ⟨rest', hRead, hRest⟩ := hi hs' (bytes ++ [n])
    exact ⟨rest', by rw [readString_octet hn, hRead]; simp [Token.numbers], hRest⟩
  case escaped c s _ _ hn _ hi =>
    obtain ⟨rest, hd, hr⟩ := codePoints_ascii (u := 0x5C) hs (by decide)
    subst hd
    rw [←hr] at hn
    obtain ⟨rest', hRead, hRest⟩ := hi (codePoints_drop hr) (bytes ++ (encodeRune c).map (·.toNat))
    refine ⟨rest', ?_, hRest⟩
    rw [readString_escaped (decimals_of_none hn) hr, hRead]
    simp [Token.numbers]
  case plain c s _ _ hQuote hEscape _ hi =>
    cases data
    case nil => cases hs
    case cons u rest =>
      have hNot {v : UInt16} (hv : v.toNat < 0x80) (hc : c ≠ v.toNat) : u ≠ v := by
        rintro rfl
        rw [codePoints_cons (hv.trans (by decide))] at hs
        exact hc (List.cons.inj hs).left.symm
      obtain ⟨rest', hRead, hRest⟩ := hi (codePoints_drop hs) (bytes ++ (encodeRune c).map (·.toNat))
      refine ⟨rest', ?_, hRest⟩
      rw [readString_plain (hNot (by decide) hQuote) (hNot (by decide) hEscape) hs, hRead]
      simp [Token.numbers]

-- What is read is quoted.
theorem readString_ok (h : readString bytes data = .ok (bytes', rest)) :
    ∃ tokens : List Token, Scans (codePoints data) tokens (codePoints rest) ∧
      bytes' = bytes ++ tokens.flatMap Token.numbers := by
  fun_induction readString bytes data
  case case1 => cases h
  case case2 =>
    cases h
    exact ⟨[], by rw [codePoints_cons (by decide)]; exact .close, by simp⟩
  case case3 n hn hi =>
    split at hn
    case isFalse => cases hn
    case isTrue hu =>
      subst hu
      obtain ⟨tokens, hs, hb⟩ := hi h
      refine ⟨.octet n :: tokens, ?_, by rw [hb]; simp [Token.numbers]⟩
      rw [codePoints_cons (by decide)]
      exact .octet (decimals_some hn) hs
  case case4 => cases h
  case case5 bytes u rest hQuote hn here c hc ch hi =>
    obtain ⟨tokens, hs, hb⟩ := hi h
    obtain ⟨s, hcs⟩ : ∃ s, codePoints here = c :: s := List.head?_eq_some_iff.mp hc
    simp only [ch, codePoints_drop hcs] at hs
    have hb : bytes' = bytes ++ (encodeRune c).map (·.toNat) ++ tokens.flatMap Token.numbers := by
      rw [hb, encode_fromCodePoint hcs]
    by_cases hu : u = 0x5C
    case pos =>
      subst hu
      have hcs : codePoints rest = c :: s := hcs
      refine ⟨.escaped c :: tokens, ?_, by rw [hb]; simp [Token.numbers]⟩
      rw [codePoints_cons (by decide), hcs]
      rw [dif_pos rfl] at hn
      exact .escaped (hcs ▸ decimals_none hn) hs
    case neg =>
      have hcs : codePoints (u :: rest) = c :: s := by
        simpa only [here, dif_neg hu] using hcs
      refine ⟨.plain c :: tokens, ?_, by rw [hb]; simp [Token.numbers]⟩
      have hNot {v : UInt16} (hv : v.toNat < 0x80) (hn : u ≠ v) : c ≠ v.toNat := by
        rintro rfl
        obtain ⟨_, hd, _⟩ := codePoints_ascii hcs hv
        exact hn (List.cons.inj hd).left
      rw [hcs]
      exact .plain (hNot (by decide) hQuote) (hNot (by decide) hu) hs

theorem bytes_octets (tokens : List Token) :
    (tokens.flatMap Token.numbers).map UInt8.ofNat = tokens.flatMap Token.octets := by
  rw [List.map_flatMap]
  exact List.flatMap_congr fun token _ => token.numbers_octets

theorem parseFrom_quoted (h : Quoted s strings) (hs : codePoints data = s) (out : List JsString) :
    parseFrom out data =
      .ok (out ++ strings.map fun tokens => decode (tokens.flatMap Token.octets)) := by
  induction h generalizing data out
  case nil =>
    cases codePoints_eq_nil.mp hs
    simp [parseFrom, pure, Except.pure]
  case space hi =>
    obtain ⟨rest, hd, hr⟩ := codePoints_ascii (u := 0x20) hs (by decide)
    subst hd
    rw [parseFrom, if_pos rfl, hi hr]
  case string h _ hi =>
    obtain ⟨rest, hd, hr⟩ := codePoints_ascii (u := 0x22) hs (by decide)
    subst hd
    obtain ⟨rest', hRead, hRest⟩ := readString_scans h hr []
    rw [parseFrom, if_neg (by decide), if_neg (by decide)]
    split
    case h_1 e he => cases hRead.symm.trans he
    case h_2 bytes rest'' he =>
      cases hRead.symm.trans he
      rw [hi hRest, List.nil_append, bytes_octets]
      simp

theorem parseFrom_ok (h : parseFrom out data = .ok out') :
    ∃ strings, Quoted (codePoints data) strings ∧
      out' = out ++ strings.map fun tokens => decode (tokens.flatMap Token.octets) := by
  fun_induction parseFrom out data
  case case1 =>
    cases h
    exact ⟨[], .nil, by simp⟩
  case case2 hi =>
    have ⟨strings, hs, ho⟩ := hi h
    exact ⟨strings, by rw [codePoints_cons (by decide)]; exact .space hs, ho⟩
  case case3 => cases h
  case case4 => cases h
  case case5 out u rest _ hQuote bytes rest' hRead hi =>
    cases not_not.mp hQuote
    have ⟨strings, hs, ho⟩ := hi h
    have ⟨tokens, ht, hb⟩ := readString_ok hRead
    refine ⟨tokens :: strings, ?_, ?_⟩
    · rw [codePoints_cons (by decide)]
      exact .string ht hs
    · rw [ho, hb, List.nil_append, bytes_octets]
      simp

theorem parse_quoted (h : Quoted (codePoints data) strings) :
    parseCharacterStrings data =
      .ok (strings.map fun tokens => decode (tokens.flatMap Token.octets)) := by
  rw [parseCharacterStrings, parseFrom_quoted h rfl, List.nil_append]

theorem decode_denotes {octets : List UInt8} : Denotes octets (decode octets) ↔ ¬Marked octets := by
  constructor
  case mp =>
    rintro h ⟨cs, hcs, he⟩
    have hMark : ∀ c ∈ 0xFEFF :: cs, isScalar c :=
      List.forall_mem_cons.mpr ⟨by decide, hcs⟩
    have hText := h _ hMark he
    rw [decode, ←he, decodeFrom_encode hMark, dropMark, if_pos rfl, List.flatMap_cons] at hText
    have hLength := congrArg List.length hText
    rw [List.length_append, fromCodePoint, if_pos (by decide), List.length_singleton] at hLength
    omega
  case mpr =>
    intro hn cs hcs he
    rw [decode, ←he, decodeFrom_encode hcs]
    cases cs
    case nil => rfl
    case cons c cs =>
      have hc : c ≠ 0xFEFF := by
        rintro rfl
        exact hn ⟨cs, (List.forall_mem_cons.mp hcs).right, he⟩
      rw [dropMark, if_neg hc]

-- The parser does what the format says exactly if no backslash takes three digits above 255 or a
-- single digit, and no string starts with a byte order mark.
theorem parse_presentation (data : JsString) :
    Parsed data ↔ ∀ strings, Quoted (codePoints data) strings → ∀ tokens ∈ strings,
      (∀ token ∈ tokens, token.Proper) ∧ ¬Marked (tokens.flatMap Token.octets) := by
  constructor
  case mp =>
    intro h strings hs
    have hParse := parse_quoted hs
    have ⟨l, hl⟩ : ∃ l, Presentation (codePoints data) l := by
      by_contra hn
      have ⟨e, he⟩ := h.rejected hn
      cases hParse.symm.trans he
    have ⟨strings', hs', hp, he⟩ := presentation_iff.mp hl
    cases hs.unique hs'
    have ⟨out, ho, hAll⟩ := h.accepted l hl
    cases hParse.symm.trans ho
    rw [he, List.forall₂_map_left_iff, List.forall₂_map_right_iff, List.forall₂_same] at hAll
    exact fun tokens ht => ⟨hp tokens ht, decode_denotes.mp (hAll tokens ht)⟩
  case mpr =>
    intro h
    constructor
    case accepted =>
      intro l hl
      have ⟨strings, hs, _, he⟩ := presentation_iff.mp hl
      refine ⟨_, parse_quoted hs, ?_⟩
      rw [he, List.forall₂_map_left_iff, List.forall₂_map_right_iff, List.forall₂_same]
      exact fun tokens ht => decode_denotes.mpr (h strings hs tokens ht).right
    case rejected =>
      intro hn
      cases hParse : parseCharacterStrings data
      case error e => exact ⟨e, rfl⟩
      case ok out =>
        have ⟨strings, hs, _⟩ := parseFrom_ok hParse
        have hp := fun tokens ht => (h strings hs tokens ht).left
        exact absurd ⟨_, presentation_iff.mpr ⟨strings, hs, hp, rfl⟩⟩ hn

end

-- An escape of 256 is read as an octet.
theorem parse_presentation_fails : ¬∀ data, Parsed data := by
  intro h
  let data : JsString := [0x22, 0x5C, 0x32, 0x35, 0x36, 0x22]
  have hs : Quoted (codePoints data) [[.octet 256]] := .string (.octet rfl .close) .nil
  have hn : ¬∃ l, Presentation (codePoints data) l := by
    rintro ⟨l, hl⟩
    have ⟨strings, hs', hp, _⟩ := presentation_iff.mp hl
    cases hs.unique hs'
    have hProper : 256 ≤ 255 := hp _ (List.mem_singleton_self _) _ (List.mem_singleton_self _)
    exact absurd hProper (by decide)
  have ⟨e, he⟩ := (h data).rejected hn
  cases (parse_quoted hs).symm.trans he

end Workers

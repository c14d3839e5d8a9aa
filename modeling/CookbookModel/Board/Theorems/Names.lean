import CookbookModel.Board.Dynamo.Store
import CookbookModel.Board.Server
import CookbookModel.Library.Ascii

namespace Board

open GoString

section

variable [Platform] {v w n label : GoString}

structure Label (label : GoString) : Prop where
  nonempty   : label ≠ []
  length     : label.length ≤ 63
  hyphens    : label.head? ≠ some 0x2D ∧ label.getLast? ≠ some 0x2D
  characters : ∀ b ∈ label, isDNSCharacter b.toNat

-- A fully qualified name in lower-case ASCII
structure DNSName (n : GoString) : Prop where
  length : n.length ≤ 253
  labels : ∃ labels : List GoString, n = [0x2E].intercalate labels ∧ 2 ≤ labels.length ∧
    ∀ label ∈ labels, Label label

omit [Platform] in
theorem checkLabel_ok (h : checkLabel label = .ok u) : Label label := by
  simp only [checkLabel, Except.bind_eq_ok, errorIf_ok, not_or] at h
  obtain ⟨_, hne, _, hLength, _, hHyphens, hChunks⟩ := h
  have hc : ∀ c ∈ chunks label, isDNSCharacter c.value := by
    intro c hc
    simpa using errorIf_ok.mp (Except.forM_ok hChunks c hc)
  refine ⟨hne, Nat.le_of_not_gt hLength, hHyphens, fun b hb => ?_⟩
  obtain ⟨c, hm, hv⟩ := exists_chunk (fun c hm => isDNSCharacter_lt (hc c hm)) hb
  exact hv ▸ hc c hm

-- What the checks of a canonical name have established about it.
structure Checked (n : GoString) : Prop where
  length    : ¬(n = [] ∨ n.length > 253)
  plain     : ¬(containsByte n 0x2A || containsByte n 0x5F) = true
  qualified : ¬(split n 0x2E).length < 2
  labels    : (split n 0x2E).forM checkLabel = .ok ()
  stable    : ∃ roundTrip, Platform.toASCII n = .ok roundTrip ∧
    toLower (trimSuffix roundTrip [0x2E]) = n

theorem canonicalDNSName_iff : canonicalDNSName v = .ok n ↔ trimSpace v ≠ [] ∧
    (∃ ascii, Platform.toASCII (trimSpace v) = .ok ascii ∧ trimSuffix (toLower ascii) [0x2E] = n) ∧
    Checked n := by
  simp only [canonicalDNSName, Except.bind_eq_ok, Except.mapError_eq_ok, errorIf_ok,
    Except.pure_eq_ok, not_not]
  constructor
  case mp =>
    rintro ⟨_, hne, ascii, hAscii, _, hLength, _, hPlain, _, hLabels, _, hForM, r, hr, _, hStable, he⟩
    subst he
    exact ⟨hne, ⟨ascii, hAscii, rfl⟩, hLength, hPlain, hLabels, hForM, r, hr, hStable⟩
  case mpr =>
    rintro ⟨hne, ⟨ascii, hAscii, he⟩, hChecked⟩
    subst he
    obtain ⟨r, hr, hStable⟩ := hChecked.stable
    exact ⟨(), hne, ascii, hAscii, (), hChecked.length, (), hChecked.plain, (), hChecked.qualified,
      (), hChecked.labels, r, hr, (), hStable, rfl⟩

theorem Checked.dnsName (h : Checked n) : DNSName n where
  length := Nat.le_of_not_gt (not_or.mp h.length).right
  labels := ⟨split n 0x2E, (List.intercalate_splitOn _).symm, Nat.le_of_not_lt h.qualified,
    fun label hl => checkLabel_ok (Except.forM_ok h.labels label hl)⟩

theorem Checked.label_ok (h : Checked n) (hl : label ∈ split n 0x2E) : Label label :=
  checkLabel_ok (Except.forM_ok h.labels label hl)

-- No byte of a name is trimmed, and the last one is no dot.
theorem Checked.not_space (h : Checked n) {b : UInt8} (hb : b ∈ n) :
    b < 0x80 ∧ isSpace b.toNat = false := by
  have hAll : ∀ b : Nat, b < 128 → isDNSCharacter b → isSpace b = false := by decide
  by_cases hDot : b = 0x2E
  case pos => exact hDot ▸ by decide
  case neg =>
    have ⟨label, hl, hb⟩ := exists_mem_split hb hDot
    have hc := (h.label_ok hl).characters b hb
    have hLow := isDNSCharacter_lt hc
    exact ⟨UInt8.lt_iff_toNat_lt.mpr hLow, hAll _ hLow hc⟩

theorem Checked.no_suffix (h : Checked n) : ¬[0x2E] <:+ n := by
  intro ⟨start, hn⟩
  have hLast : [] ∈ split n 0x2E := by
    rw [←hn, split, List.splitOn_append_cons_self]
    simp
  exact (h.label_ok hLast).nonempty rfl

omit [Platform] in
theorem trimSuffix_append {s suffix : GoString} : trimSuffix (s ++ suffix) suffix = s := by
  simp [trimSuffix]

-- Whether the conversion leaves a dot at the end or not, it is trimmed before the name is put into
-- lower case or after.
theorem Checked.trimmed (h : Checked n) {roundTrip : GoString}
    (hr : toLower (trimSuffix roundTrip [0x2E]) = n) :
    trimSuffix (toLower roundTrip) [0x2E] = n := by
  by_cases hDot : [0x2E] <:+ roundTrip
  case pos =>
    have ⟨start, hs⟩ := hDot
    rw [←hs, trimSuffix_append] at hr
    have hLower : lowerByte 0x2E = 0x2E := by decide
    rw [←hs, toLower_snoc (by decide), hLower, trimSuffix_append, hr]
  case neg =>
    rw [trimSuffix, if_neg hDot] at hr
    rw [hr, trimSuffix, if_neg h.no_suffix]

theorem Checked.fixed (h : Checked n) : canonicalDNSName n = .ok n := by
  have hTrim : trimSpace n = n := trimSpace_ascii fun _ hb => h.not_space hb
  have ⟨roundTrip, hAscii, hr⟩ := h.stable
  rw [canonicalDNSName_iff, hTrim]
  exact ⟨(not_or.mp h.length).left, ⟨roundTrip, hAscii, h.trimmed hr⟩, h⟩

-- A name after it was made canonical a number of times.
def canonicalised : (times : Nat) → GoString → Except GoString GoString
  | 0, value         => .ok value
  | times + 1, value => do canonicalised times (← canonicalDNSName value)

-- Neither the handlers nor the stores tell two spellings of a target from each other.
structure Interchangeable (v w : GoString) : Prop where
  handlers     : ∀ identity roomID body,
    Server.handle (.grantAllowlist identity roomID v body) =
      Server.handle (.grantAllowlist identity roomID w body) ∧
    Server.handle (.revokeAllowlist identity roomID v) =
      Server.handle (.revokeAllowlist identity roomID w)
  memoryGrant  : ∀ actor (input : GrantInput) now,
    Memory.grantAllowlist actor { input with targetAgent := v } now =
      Memory.grantAllowlist actor { input with targetAgent := w } now
  memoryRevoke : ∀ actor (input : RevokeInput) now,
    Memory.revokeAllowlist actor { input with targetAgent := v } now =
      Memory.revokeAllowlist actor { input with targetAgent := w } now
  dynamoGrant  : ∀ limits actor (input : GrantInput),
    Dynamo.grantAllowlist limits actor { input with targetAgent := v } =
      Dynamo.grantAllowlist limits actor { input with targetAgent := w }
  dynamoRevoke : ∀ actor (input : RevokeInput),
    Dynamo.revokeAllowlist actor { input with targetAgent := v } =
      Dynamo.revokeAllowlist actor { input with targetAgent := w }

theorem interchangeable (h : canonicalDNSName v = canonicalDNSName w) : Interchangeable v w where
  handlers identity roomID body := by
    simp only [Server.handle, Server.grantAllowlist, Server.revokeAllowlist, h, true_and]
  memoryGrant _ _ _  := by simp only [Memory.grantAllowlist, h]
  memoryRevoke _ _ _ := by simp only [Memory.revokeAllowlist, h]
  dynamoGrant _ _ _  := by simp only [Dynamo.grantAllowlist, Dynamo.grantTxn, h]
  dynamoRevoke _ _   := by simp only [Dynamo.revokeAllowlist, Dynamo.revokeTxn, h]

theorem canonicalised_fixed (h : canonicalDNSName n = .ok n) (times : Nat) :
    canonicalised times n = .ok n := by
  induction times
  case zero          => rfl
  case succ times hi => rw [canonicalised, h]; exact hi

-- Canonical names are what they look like and are left as they are, so that it does not matter how
-- often a name is made canonical on its way, nor which of the spellings of a name is a target.
theorem canonical_names_stable (h : canonicalDNSName v = .ok n) :
    DNSName n ∧ canonicalDNSName n = .ok n ∧
    (∀ times, canonicalised (times + 1) v = .ok n) ∧
    ∀ w u times, canonicalDNSName w = .ok n → canonicalised times v = .ok u →
      Interchangeable u w := by
  have ⟨_, _, hChecked⟩ := canonicalDNSName_iff.mp h
  have hFixed := hChecked.fixed
  have hTimes (times : Nat) : canonicalised (times + 1) v = .ok n := by
    rw [canonicalised, h]
    exact canonicalised_fixed hFixed times
  refine ⟨hChecked.dnsName, hFixed, hTimes, fun w u times hw hu => interchangeable ?_⟩
  cases times
  case zero =>
    cases hu
    exact h.trans hw.symm
  case succ times =>
    cases (hTimes times).symm.trans hu
    exact hFixed.trans hw.symm

end

-- Two spellings that the platform on ASCII texts does not tell apart.
set_option maxRecDepth 20000 in
theorem canonical_names_stable_bob :
    @canonicalDNSName asciiPlatform "bob.example" = .ok (ofString "bob.example") ∧
    @Interchangeable asciiPlatform " Bob.Example. " "BOB.example" := by
  have h : @canonicalDNSName asciiPlatform " Bob.Example. " = .ok (ofString "bob.example") := by decide
  have h' : @canonicalDNSName asciiPlatform "BOB.example" = .ok (ofString "bob.example") := by decide
  have ⟨_, hFixed, _, hSame⟩ := @canonical_names_stable asciiPlatform _ _ h
  exact ⟨hFixed, hSame _ _ 0 h' rfl⟩

end Board

import CookbookModel.Board.Types
import CookbookModel.Library.Base64
import CookbookModel.Library.Control

namespace Board

open GoString

-- What the message board takes from `golang.org/x/net/idna`, `golang.org/x/text/unicode/norm` and
-- `crypto/sha256`: `idna.Lookup.ToASCII`, `norm.NFC.String` and `sha256.Sum256`.
class Platform extends CaseTable where
  toASCII : GoString → Except GoString GoString
  nfc     : GoString → GoString
  sum256  : GoString → GoString

-- The platform on texts in lower-case ASCII, which it leaves as they are, with the hash of `hello`.
@[reducible]
def asciiPlatform : Platform where
  lower r   := r
  toASCII s := .ok s
  nfc s     := s
  sum256 s  :=
    if s = "hello" then
      [0x2C, 0xF2, 0x4D, 0xBA, 0x5F, 0xB0, 0xA3, 0x0E, 0x26, 0xE8, 0x3B, 0x2A, 0xC5, 0xB9, 0xE2, 0x9E,
        0x1B, 0x16, 0x1E, 0x5C, 0x1F, 0xA7, 0x42, 0x5E, 0x73, 0x04, 0x33, 0x62, 0x93, 0x8B, 0x98, 0x24]
    else
      []

def errorf (text : String) : Except GoString α :=
  .error text

-- `if c { return fmt.Errorf(text) }`
def errorIf (c : Prop) [Decidable c] (text : String) : Except GoString Unit :=
  if c then errorf text else pure ()

-- `fmt.Errorf("%w: %v", board.ErrValidation, err)`
def validated [Monad m] [MonadExcept Err m] : Except GoString α → m α
  | .ok a    => pure a
  | .error e => throw (.validation e)

theorem errorIf_ok {c : Prop} [Decidable c] : errorIf c text = .ok u ↔ ¬c := by
  unfold errorIf errorf
  split <;> simp_all [pure, Except.pure]

variable [Platform]

def isDNSCharacter (ch : Rune) : Bool :=
  (0x61 ≤ ch && ch ≤ 0x7A) || (0x30 ≤ ch && ch ≤ 0x39) || ch == 0x2D

omit [Platform] in
theorem isDNSCharacter_lt (h : isDNSCharacter r) : r < 0x80 := by
  simp only [isDNSCharacter, Bool.or_eq_true, Bool.and_eq_true, decide_eq_true_eq,
    beq_iff_eq] at h
  unfold Rune at *
  omega

def checkLabel (label : GoString) : Except GoString Unit := do
  errorIf (label = []) "dns name contains an empty label"
  errorIf (label.length > 63) "dns label exceeds 63 octets"
  errorIf (label.head? = some 0x2D ∨ label.getLast? = some 0x2D)
    "dns label must not start or end with hyphen"
  (chunks label).forM fun c =>
    errorIf (!isDNSCharacter c.value) "dns label contains invalid character"

def canonicalDNSName (value : GoString) : Except GoString GoString := do
  let trimmed := trimSpace value
  errorIf (trimmed = []) "dns name is required"
  let ascii ← (Platform.toASCII trimmed).mapError (ofString "invalid dns name: " ++ ·)
  let ascii := toLower ascii
  let ascii := trimSuffix ascii [0x2E]
  errorIf (ascii = [] ∨ ascii.length > 253) "invalid dns name length"
  errorIf (containsByte ascii 0x2A || containsByte ascii 0x5F)
    "dns name must not contain wildcards or underscores"
  let labels := split ascii 0x2E
  errorIf (labels.length < 2) "dns name must be fully qualified"
  labels.forM checkLabel
  let roundTrip ← (Platform.toASCII ascii).mapError (ofString "invalid dns name round trip: " ++ ·)
  errorIf (toLower (trimSuffix roundTrip [0x2E]) ≠ ascii)
    "dns name is not stable after canonicalization"
  return ascii

theorem canonicalDNSName_characters (h : canonicalDNSName v = .ok n) (hb : b ∈ n) :
    b = 0x2E ∨ isDNSCharacter b.toNat := by
  simp only [canonicalDNSName, Except.bind_eq_ok, errorIf_ok, Except.pure_eq_ok] at h
  have ⟨_, _, _, _, _, _, _, _, _, _, _, hLabels, _, _, _, _, he⟩ := h
  subst he
  by_cases hDot : b = 0x2E
  case pos => exact .inl hDot
  case neg =>
    have ⟨l, hl, hb⟩ := exists_mem_split hb hDot
    have hLabel := Except.forM_ok hLabels l hl
    simp only [checkLabel, Except.bind_eq_ok, errorIf_ok] at hLabel
    have ⟨_, _, _, _, _, _, hChunks⟩ := hLabel
    have hc : ∀ c ∈ chunks l, isDNSCharacter c.value := by
      intro c hc
      simpa using errorIf_ok.mp (Except.forM_ok hChunks c hc)
    have ⟨c, hc', hv⟩ := exists_chunk (fun c hc' => isDNSCharacter_lt (hc c hc')) hb
    exact .inr (hv ▸ hc c hc')

-- A canonical name has no `#`, which separates the parts of composite keys.
theorem canonicalDNSName_no_hash (h : canonicalDNSName v = .ok n) : (0x23 : UInt8) ∉ n := by
  intro hb
  cases canonicalDNSName_characters h hb
  all_goals contradiction

omit [Platform] in
-- The first `#` ends the agent.
theorem entryKey_inj {a b k l : GoString} (ha : (0x23 : UInt8) ∉ a) (hb : (0x23 : UInt8) ∉ b)
    (h : a ++ "#" ++ k = b ++ "#" ++ l) : a = b ∧ k = l := by
  induction a generalizing b
  case nil =>
    cases b
    case nil       => exact ⟨rfl, by simpa using h⟩
    case cons c b  =>
      have he := (List.cons_eq_cons.mp h).left
      simp [←he] at hb
  case cons c a hi =>
    cases b
    case nil =>
      have he := (List.cons_eq_cons.mp h).left
      simp [he] at ha
    case cons d b =>
      have ⟨he, ht⟩ := List.cons_eq_cons.mp h
      have ⟨hab, hkl⟩ := hi (List.not_mem_of_not_mem_cons ha) (List.not_mem_of_not_mem_cons hb) ht
      exact ⟨by rw [he, hab], hkl⟩

def normalizeRoomID (value : GoString) : Except GoString GoString := do
  errorIf (value = []) "room_id is required"
  errorIf (trim value " \t\r\n" ≠ value)
    "room_id must not have leading or trailing ASCII whitespace"
  errorIf (!valid value) "room_id must be valid UTF-8"
  let normalized := Platform.nfc value
  errorIf (normalized ≠ value) "room_id must already be NFC normalized"
  errorIf (runeCount normalized > 128 ∨ normalized.length > 512) "room_id is too long"
  (chunks normalized).forM fun c =>
    errorIf (c.value < 0x20 ∨ c.value = 0x7F) "room_id must not contain control characters"
  return normalized

theorem normalizeRoomID_ok (h : normalizeRoomID v = .ok n) : n = v := by
  simp only [normalizeRoomID, Except.bind_eq_ok, errorIf_ok, Except.pure_eq_ok] at h
  have ⟨_, _, _, _, _, _, _, hNormal, _, _, _, _, he⟩ := h
  exact he ▸ not_not.mp hNormal

def roomKey (roomID : GoString) : Except GoString GoString := do
  let normalized ← normalizeRoomID roomID
  return Base64.encode normalized

def messageBody (value : GoString) : Except GoString GoString := do
  let value := trim value "\r\n"
  errorIf (value = []) "body is required"
  errorIf (!valid value) "body must be valid UTF-8"
  errorIf (value.length > maxMessageBytes) "body exceeds 8192 bytes"
  return value

def isNicknameAlphaNum (ch : Rune) : Bool :=
  (0x61 ≤ ch && ch ≤ 0x7A) || (0x41 ≤ ch && ch ≤ 0x5A) || (0x30 ≤ ch && ch ≤ 0x39)

-- The loop over the runes of a nickname of `length` bytes, from the byte at index `i` on.
def checkNickname (length : Nat) : (i : Nat) → List Chunk → Except GoString Unit
  | _, [] => pure ()
  | i, c :: cs =>
    let ch := c.value
    if isNicknameAlphaNum ch || ch = 0x2E || ch = 0x5F || ch = 0x2D then do
      errorIf ((i = 0 ∨ i + 1 = length) ∧ !isNicknameAlphaNum ch)
        "nickname must start and end with a letter or digit"
      checkNickname length (i + c.bytes.length) cs
    else
      errorf "nickname contains invalid character"

-- The nickname as displayed and the key under which it is unique.
def nickname (value : GoString) : Except GoString (GoString × GoString) := do
  errorIf (value = []) "nickname is required"
  errorIf (value.length > maxNicknameLength) "nickname exceeds 32 characters"
  errorIf (trimSpace value ≠ value) "nickname must not have leading or trailing whitespace"
  checkNickname value.length 0 (chunks value)
  return (value, toLower value)

theorem nickname_eq (h : nickname v = .ok (name, key)) : name = v := by
  simp only [nickname, Except.bind_eq_ok, Except.pure_eq_ok, Prod.mk.injEq] at h
  have ⟨_, _, _, _, _, _, _, _, hName, _⟩ := h
  exact hName.symm

theorem nickname_ok (h : nickname v = .ok (name, key)) : name ≠ [] ∧ key = toLower name := by
  simp only [nickname, Except.bind_eq_ok, errorIf_ok, Except.pure_eq_ok, Prod.mk.injEq] at h
  have ⟨_, hv, _, _, _, _, _, _, hName, hKey⟩ := h
  exact ⟨hName ▸ hv, hName ▸ hKey.symm⟩

end Board

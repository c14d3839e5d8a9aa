import CookbookModel.Library.Json.Tokens
import Mathlib.Data.List.TakeWhile

namespace Json

open PyString PyItems

section Values

variable {parseFloat : PyString → PyString} {v : Json} {t rest u w : PyString} {fuel : Nat}
  {items : List Json} {members : PyItems Json}

theorem skipSpace_blank (h : Blank w) : skipSpace (w ++ rest) = skipSpace rest :=
  List.dropWhile_append_of_pos h

theorem skipSpace_cons {c : CodePoint} (h : isSpace c = false) :
    skipSpace (c :: rest) = c :: rest := by
  simp [skipSpace, h]

theorem skipSpace_starts (h : Starts t) : skipSpace (t ++ rest) = t ++ rest := by
  have ⟨c, s, ht, hc, _⟩ := h
  subst ht
  exact skipSpace_cons hc

theorem follows_blank {c : CodePoint} (h : Blank w) (hc : c = 0x2C ∨ c = 0x5D ∨ c = 0x7D) :
    Follows (w ++ c :: rest) := by
  cases w
  case nil       => exact fun _ h => Option.some.inj h ▸ .inr hc
  case cons c' w => exact fun _ he => Option.some.inj he ▸ .inl (h c' List.mem_cons_self)

-- The blanks in front of a text are skipped, those behind it are left.
theorem Padded.skip (h : Padded t u) (hs : Starts t) :
    ∃ w, Blank w ∧ t.length ≤ u.length ∧ ∀ rest, skipSpace (u ++ rest) = t ++ (w ++ rest) := by
  have ⟨w, w', hw, hw', hu⟩ := h
  subst hu
  refine ⟨w', hw', by simp only [List.length_append]; omega, fun rest => ?_⟩
  rw [List.append_assoc, List.append_assoc, skipSpace_blank hw, skipSpace_starts hs]

end Values

section Dumps

variable {parseFloat : PyString → PyString} {v w : Json} {t : PyString}

-- Characters that are one byte in UTF-8, the null character left out
def Ascii (t : PyString) : Prop :=
  ∀ c ∈ t, 0 < c.val ∧ c.val < 0x80

theorem Ascii.append {t' : PyString} (h : Ascii t) (h' : Ascii t') : Ascii (t ++ t') :=
  List.forall_mem_append.mpr ⟨h, h'⟩

theorem Ascii.cons {c : CodePoint} (hc : 0 < c.val ∧ c.val < 0x80) (h : Ascii t) : Ascii (c :: t) :=
  List.forall_mem_cons.mpr ⟨hc, h⟩

end Dumps

section Bytes

variable {t t' : PyString}

-- The code points that the bytes are
def textOf (bytes : List UInt8) : PyString :=
  bytes.map fun b => Fin.ofNat 0x110000 b.toNat

end Bytes

end Json

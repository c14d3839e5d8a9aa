import CookbookModel.Library.Json.Texts

namespace Json

open PyString PyItems

section Strings

variable {c : CodePoint} {s rest : PyString}

end Strings

section Numbers

-- What follows a value in a text
def Follows (rest : PyString) : Prop :=
  ∀ c ∈ rest.head?, isSpace c = true ∨ c = 0x2C ∨ c = 0x5D ∨ c = 0x7D

variable {n : Nat} {rest : PyString}

theorem Follows.not_number (h : Follows (c :: rest)) :
    isDigit c = false ∧ c ≠ 0x2E ∧ c ≠ 0x45 ∧ c ≠ 0x65 := by
  have hc := h c rfl
  simp only [isSpace, Bool.or_eq_true, decide_eq_true_eq] at hc
  rcases hc with ((((rfl | rfl) | rfl) | rfl) | rfl | rfl | rfl) <;> decide

theorem fraction_follows (h : Follows rest) : fraction rest = [] := by
  cases rest
  case nil         => rfl
  case cons c rest => simp [fraction, h.not_number]

theorem exponent_follows (h : Follows rest) : exponent rest = [] := by
  cases rest
  case nil         => rfl
  case cons c rest => simp [exponent, h.not_number]

end Numbers

section Atoms

variable {n : Int} {b : Bool} {rest t : PyString}

-- A text that a reader neither skips nor takes for the end of an object or array.
def Starts (t : PyString) : Prop :=
  ∃ c s, t = c :: s ∧ isSpace c = false ∧ c ≠ 0x5D ∧ c ≠ 0x7D ∧ c ≠ 0xFEFF

theorem Starts.ne_nil (h : Starts t) : t ≠ [] := by
  have ⟨_, _, ht, _⟩ := h
  simp [ht]

end Atoms

end Json

import CookbookModel.Library.Python
import Mathlib.Data.List.DropRight
import Mathlib.Data.List.TakeWhile

namespace PyString

-- `str.isspace` of a single character
def isspace (c : CodePoint) : Bool :=
  (0x09 ≤ c.val && c.val ≤ 0x0D) || (0x1C ≤ c.val && c.val ≤ 0x20) || c = 0x85 || c = 0xA0 ||
  c = 0x1680 || (0x2000 ≤ c.val && c.val ≤ 0x200A) || c = 0x2028 || c = 0x2029 || c = 0x202F ||
  c = 0x205F || c = 0x3000

-- `s.strip()`
def strip (s : PyString) : PyString :=
  (s.dropWhile isspace).rdropWhile isspace

-- A character that ends a line for `s.splitlines()`
def isLineBreak (c : CodePoint) : Bool :=
  (0x0A ≤ c.val && c.val ≤ 0x0D) || (0x1C ≤ c.val && c.val ≤ 0x1E) || c = 0x85 || c = 0x2028 ||
  c = 0x2029

def splitlinesFrom : (carriageReturn : Bool) → PyString → List PyString
  | _, []                   => []
  | carriageReturn, c :: s =>
    if carriageReturn && c = 0x0A then splitlinesFrom false s
    else if isLineBreak c then [] :: splitlinesFrom (c = 0x0D) s
    else
      match splitlinesFrom false s with
      | []            => [[c]]
      | line :: lines => (c :: line) :: lines

-- `s.splitlines()`
def splitlines (s : PyString) : List PyString :=
  splitlinesFrom false s

-- `sep.join(texts)`
def join (sep : PyString) (texts : List PyString) : PyString :=
  (texts.intersperse sep).flatten

-- `bytes.decode("utf-8")`, without the text of its error
def decode (bytes : List UInt8) : Except PyError PyString :=
  if GoString.valid bytes then
    .ok <| (GoString.chunks bytes).map fun c => Fin.ofNat 0x110000 c.value
  else
    .error <| .valueError []

section Strip

variable {c sep : CodePoint} {s t w : PyString} {texts : List PyString}

-- What is taken off a string is blank.
theorem strip_spec (s : PyString) :
    ∃ left right, s = left ++ strip s ++ right ∧ left.all isspace ∧ right.all isspace := by
  refine ⟨s.takeWhile isspace, (s.dropWhile isspace).rtakeWhile isspace, ?_, ?_, ?_⟩
  · rw [strip, List.append_assoc, List.rdropWhile_append_rtakeWhile, List.takeWhile_append_dropWhile]
  · exact List.all_eq_true.mpr fun c hc => List.mem_takeWhile_imp hc
  · exact List.all_eq_true.mpr fun c hc => List.mem_rtakeWhile_imp hc

theorem strip_eq_self (hHead : ∀ c ∈ s.head?, isspace c = false)
    (hLast : ∀ c ∈ s.getLast?, isspace c = false) : strip s = s := by
  cases s
  case nil => simp [strip]
  case cons c s =>
    have hc : isspace c = false := hHead c rfl
    rw [strip, List.dropWhile_cons_of_neg (by simp [hc])]
    refine List.rdropWhile_eq_self_iff.mpr fun hn => ?_
    simp [hLast _ (List.getLast?_eq_getLast_of_ne_nil hn)]

theorem strip_of_no_space (h : ∀ c ∈ s, isspace c = false) : strip s = s :=
  strip_eq_self (fun _ hc => h _ <| List.mem_of_head? hc) (fun _ hc => h _ <| List.mem_of_getLast? hc)

theorem strip_padded {left right : PyString} (hl : ∀ c ∈ left, isspace c) (hr : ∀ c ∈ right, isspace c)
    (hHead : ∀ c ∈ s.head?, isspace c = false) (hLast : ∀ c ∈ s.getLast?, isspace c = false) :
    strip (left ++ s ++ right) = s := by
  cases s
  case nil      =>
    have hAll : ∀ c ∈ left ++ [] ++ right, isspace c := by
      simpa [or_imp, forall_and] using ⟨hl, hr⟩
    rw [strip, List.dropWhile_eq_nil_iff.mpr hAll, List.rdropWhile_nil]
  case cons c s =>
    have hDrop : (left ++ (c :: s) ++ right).dropWhile isspace = c :: s ++ right := by
      rw [List.append_assoc, List.dropWhile_append_of_pos hl, List.cons_append,
        List.dropWhile_cons_of_neg (by simp [hHead c rfl])]
    have hKeep : ¬isspace ((c :: s).getLast (List.cons_ne_nil c s)) :=
      Bool.eq_false_iff.mp <| hLast _ (List.getLast?_eq_getLast_of_ne_nil _)
    rw [strip, hDrop]
    clear hDrop
    induction right using List.reverseRecOn
    case nil               => rw [List.append_nil, List.rdropWhile_eq_self_iff]; exact fun _ => hKeep
    case append_singleton right c' hi =>
      have ⟨hr, hc⟩ := List.forall_mem_append.mp hr
      rw [←List.append_assoc, List.rdropWhile_concat_pos _ _ _ (hc c' (List.mem_singleton_self c'))]
      exact hi hr

end Strip

section Lines

variable {c : CodePoint} {s line rest eol : PyString}

@[simp]
theorem startswith_append (start s : PyString) : startswith (start ++ s) start = true :=
  List.isPrefixOf_iff_prefix.mpr <| List.prefix_append start s

-- The first line goes up to the first line break.
theorem splitlines_ne_nil (h : s ≠ []) :
    ∃ lines, splitlines s = s.takeWhile (!isLineBreak ·) :: lines := by
  induction s
  case nil          => exact absurd rfl h
  case cons c s hi =>
    simp only [splitlines, splitlinesFrom, Bool.false_and, Bool.false_eq_true, if_false] at hi ⊢
    split
    case isTrue hc  =>
      rw [List.takeWhile_cons_of_neg (by simp [hc])]
      exact ⟨_, rfl⟩
    case isFalse hc =>
      rw [List.takeWhile_cons_of_pos (by simp [hc])]
      cases s
      case nil        => exact ⟨[], rfl⟩
      case cons c' s =>
        have ⟨lines, hLines⟩ := hi (List.cons_ne_nil c' s)
        rw [hLines]
        exact ⟨lines, rfl⟩

-- A line and its end are cut off from what follows.
theorem splitlines_append (hLine : 0x0D ∉ line) (hEol : eol ∈ [[0x0A], [0x0D], [0x0D, 0x0A]])
    (hRest : rest.head? ≠ some 0x0A) :
    splitlines (line ++ (eol ++ rest)) = splitlines (line ++ [0x0A]) ++ splitlines rest := by
  have hFeed : splitlinesFrom true rest = splitlinesFrom false rest := by
    cases rest
    case nil         => rfl
    case cons c rest =>
      have hc : c ≠ 0x0A := fun he => hRest (congrArg some he)
      simp [splitlinesFrom, hc]
  induction line
  case nil =>
    simp only [List.mem_cons, List.not_mem_nil, or_false] at hEol
    rcases hEol with rfl | rfl | rfl
    all_goals simp [splitlines, splitlinesFrom, isLineBreak, hFeed]
  case cons c line hi =>
    have ⟨hc, hLine⟩ := not_or.mp <| List.mem_cons.not.mp hLine
    have hi := hi hLine
    simp only [splitlines] at hi
    have hCons : ∃ first lines, splitlinesFrom false (line ++ [0x0A]) = first :: lines := by
      rcases line with _ | ⟨c', line⟩
      · exact ⟨_, _, rfl⟩
      · have ⟨lines, hLines⟩ := @splitlines_ne_nil (c' :: line ++ [0x0A]) (by simp)
        exact ⟨_, lines, hLines⟩
    have ⟨first, lines, hFirst⟩ := hCons
    have hc : decide (c = 0x0D) = false := decide_eq_false (Ne.symm hc)
    simp only [splitlines, List.cons_append, splitlinesFrom, Bool.false_and, Bool.false_eq_true,
      if_false, hc, hi, hFirst]
    split <;> rfl

end Lines

section Words

variable {sep : CodePoint} {s t w : PyString} {texts : List PyString}

theorem mem_split_join (hw : sep ∉ w) (h : w ∈ texts) : w ∈ split (join [sep] texts) sep := by
  induction texts
  case nil => simp at h
  case cons t texts hi =>
    have hSelf : w = t → w ∈ split t sep := by
      intro he
      rw [←he, split, List.splitOn_eq_singleton hw]
      exact List.mem_singleton_self w
    cases texts
    case nil => simpa [join] using hSelf (List.mem_singleton.mp h)
    case cons t' texts =>
      have hJoin : join [sep] (t :: t' :: texts) = t ++ sep :: join [sep] (t' :: texts) := by
        simp [join]
      rw [hJoin, split, List.splitOn_append_cons_self]
      exact List.mem_append.mpr <| (List.mem_cons.mp h).imp hSelf hi

-- Separators before and after a string only add empty parts.
theorem mem_split_padded {left right : PyString} (hl : ∀ c ∈ left, c = sep) (hr : ∀ c ∈ right, c = sep)
    (hw : w ≠ []) : w ∈ split (left ++ s ++ right) sep ↔ w ∈ split s sep := by
  have hLeft (t : PyString) : w ∈ split (left ++ t) sep ↔ w ∈ split t sep := by
    clear hr
    induction left
    case nil => rfl
    case cons c left hi =>
      have ⟨hc, hl⟩ := List.forall_mem_cons.mp hl
      have hSplit := List.splitOn_append_cons_self [] (left ++ t) (a := sep)
      rw [List.cons_append, hc, split, ←List.nil_append (sep :: _), hSplit, List.mem_append,
        List.splitOn_nil, List.mem_singleton, or_iff_right hw]
      exact hi hl
  rw [List.append_assoc, hLeft]
  clear hLeft hl
  induction right generalizing s
  case nil => rw [List.append_nil]
  case cons c right hi =>
    have ⟨hc, hr⟩ := List.forall_mem_cons.mp hr
    have hEmpty : w ∈ split right sep ↔ False := by
      have hPart : w ∈ split right sep ↔ w ∈ split [] sep := hi (s := []) hr
      refine hPart.trans ?_
      rw [split, List.splitOn_nil, List.mem_singleton, iff_false]
      exact hw
    rw [hc, split, List.splitOn_append_cons_self, List.mem_append]
    exact or_iff_left hEmpty.mp

end Words

end PyString

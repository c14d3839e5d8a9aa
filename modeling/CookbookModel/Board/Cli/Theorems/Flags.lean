import CookbookModel.Board.Cli.Flags
import Mathlib.Data.List.TakeWhile

namespace Board.Cli

open GoString GoFlag

-- A part of a command line: a flag with its value in one argument or in two, or a positional word.
inductive Part
  | joined (name value : GoString)
  | apart (name value : GoString)
  | word (text : GoString)

namespace Part

def args : Part → List GoString
  | joined name value => [ofString "--" ++ (name ++ 0x3D :: value)]
  | apart name value  => [ofString "--" ++ name, value]
  | word text         => [text]

def Complete : Part → Prop
  | joined name _ => 0x3D ∉ name
  | apart name _  => 0x3D ∉ name ∧ name ≠ []
  | word text     => ¬ofString "--" <+: text

-- The arguments of a flag
def flagArgs : Part → List GoString
  | word _ => []
  | part   => part.args

def positional : Part → Option GoString
  | word text => some text
  | _         => none

-- The value that is given to the flag of the name.
def given (name : GoString) : Part → Option GoString
  | joined name' value | apart name' value => if name' = name then some value else none
  | word _                                 => none

end Part

section

variable {V : Type} {fs fs' : FlagSet V} {name value : GoString} {flag : GoFlag.Flag V}
  {args rest : List GoString} {part : Part} {parts : List Part}

-- All flags of a set take a value.
def ValueFlags (fs : FlagSet V) : Prop :=
  ∀ {name : GoString} {flag : GoFlag.Flag V}, fs[name]? = some flag → flag.isBoolFlag = false

-- Two sets have the same flags, whatever values they have.
def SameNames (fs fs' : FlagSet V) : Prop :=
  ∀ name : GoString, fs'[name]? = none ↔ fs[name]? = none

-- What a flag that is given a value does to a set.
def giveFlag (fs : FlagSet V) (argument name value : GoString) : Except Failure (FlagSet V) :=
  if name.head? = none ∨ name.head? = some 0x2D then
    .error <| .badSyntax argument
  else
    match fs[name]? with
    | none      => .error <| if name = "help" ∨ name = "h" then .help else .notDefined name
    | some flag => setFlag fs name flag value

theorem splitName (h : (0x3D : UInt8) ∉ name) :
    (name ++ 0x3D :: value).takeWhile (· ≠ 0x3D) = name ∧
    (name ++ 0x3D :: value).dropWhile (· ≠ 0x3D) = 0x3D :: value ∧
    name.takeWhile (· ≠ 0x3D) = name ∧ name.dropWhile (· ≠ 0x3D) = [] := by
  have hName : ∀ b ∈ name, decide (b ≠ 0x3D) = true := by
    intro b hb
    simpa using fun he : b = 0x3D => h (he ▸ hb)
  refine ⟨?_, ?_, List.takeWhile_eq_self_iff.mpr hName, List.dropWhile_eq_nil_iff.mpr hName⟩
  · rw [List.takeWhile_append_of_pos hName, List.takeWhile_cons_of_neg (by simp), List.append_nil]
  · rw [List.dropWhile_append_of_pos hName, List.dropWhile_cons_of_neg (by simp)]

theorem nameAndValue_joined (h : (0x3D : UInt8) ∉ name) (hne : name ≠ []) :
    nameAndValue (name ++ 0x3D :: value) = (name, some value) := by
  cases name
  case nil => exact absurd rfl hne
  case cons b bs =>
    have ⟨hTake, hDrop, _⟩ := @splitName bs value (List.not_mem_of_not_mem_cons h)
    rw [List.cons_append, nameAndValue, hDrop, hTake]

theorem nameAndValue_apart (h : (0x3D : UInt8) ∉ name) : nameAndValue name = (name, none) := by
  cases name
  case nil => rfl
  case cons b bs =>
    have ⟨_, _, _, hDrop⟩ := @splitName bs [] (List.not_mem_of_not_mem_cons h)
    rw [nameAndValue, hDrop]

theorem flagName_append :
    flagName (ofString "--" ++ name) = if name = [] then none else some name := by
  cases name <;> rfl

theorem parse_joined (h : (0x3D : UInt8) ∉ name) :
    parse fs ((ofString "--" ++ (name ++ 0x3D :: value)) :: args) =
      giveFlag fs (ofString "--" ++ (name ++ 0x3D :: value)) name value >>= (parse · args) := by
  rw [parse, flagName_append, if_neg (by simp), giveFlag]
  cases name
  case nil => rfl
  case cons b bs =>
    have hb : b ≠ 0x3D := fun he => h (he ▸ List.mem_cons_self)
    have hSplit : nameAndValue (b :: (bs ++ 0x3D :: value)) = (b :: bs, some value) :=
      nameAndValue_joined h (by simp)
    simp only [hSplit, List.cons_append, List.head?_cons, Option.some.injEq, hb, or_false,
      reduceCtorEq, false_or]
    by_cases hDash : b = 0x2D
    case pos => simp [hDash, bind, Except.bind]
    case neg =>
      simp only [hDash, if_false]
      cases hf : fs[b :: bs]?
      case none => rfl
      case some flag => simp

theorem parse_apart (hv : ValueFlags fs) (h : (0x3D : UInt8) ∉ name) (hne : name ≠ []) :
    parse fs ((ofString "--" ++ name) :: value :: args) =
      giveFlag fs (ofString "--" ++ name) name value >>= (parse · args) := by
  rw [parse, flagName_append, if_neg hne, giveFlag]
  cases name
  case nil => exact absurd rfl hne
  case cons b bs =>
    have hb : b ≠ 0x3D := fun he => h (he ▸ List.mem_cons_self)
    simp only [nameAndValue_apart h, List.head?_cons, Option.some.injEq, hb, or_false, reduceCtorEq,
      false_or]
    by_cases hDash : b = 0x2D
    case pos => simp [hDash, bind, Except.bind]
    case neg =>
      simp only [hDash, if_false]
      cases hf : fs[b :: bs]?
      case none => rfl
      case some flag => simp [hv hf]

-- A flag that is not defined fails whatever stands behind it, with the same error.
theorem parse_undefined (hf : fs[name]? = none) (h : (0x3D : UInt8) ∉ name) (hne : name ≠ []) :
    ∃ failure, parse fs ((ofString "--" ++ name) :: args) = .error failure ∧
      giveFlag fs (ofString "--" ++ name) name value = .error failure := by
  rw [parse, flagName_append, if_neg hne, giveFlag, hf]
  cases name
  case nil => exact absurd rfl hne
  case cons b bs =>
    have hb : b ≠ 0x3D := fun he => h (he ▸ List.mem_cons_self)
    simp only [nameAndValue_apart h, List.head?_cons, Option.some.injEq, hb, or_false, reduceCtorEq,
      false_or, hf]
    by_cases hDash : b = 0x2D <;> simp [hDash]

-- What a set has become when a flag of it was given a value.
theorem giveFlag_ok {argument : GoString} (h : giveFlag fs argument name value = .ok fs') :
    ∃ flag v, fs[name]? = some flag ∧ flag.set value = some v ∧
      fs' = fs.set name { flag with value := v } := by
  unfold giveFlag at h
  split at h
  case isTrue => contradiction
  case isFalse =>
    cases hf : fs[name]?
    case none => simp [hf] at h
    case some flag =>
      simp only [hf, setFlag] at h
      cases hv : flag.set value
      case none => simp [hv] at h
      case some v =>
        simp only [hv, Except.ok.injEq] at h
        exact ⟨flag, v, rfl, hv, h.symm⟩

theorem giveFlag_valueFlags {argument : GoString} (hv : ValueFlags fs)
    (h : giveFlag fs argument name value = .ok fs') : ValueFlags fs' := by
  have ⟨flag, v, hf, _, hSet⟩ := giveFlag_ok h
  intro name' flag' hf'
  rw [hSet, GoMap.get_set] at hf'
  split at hf'
  case isTrue =>
    cases hf'
    exact @hv name flag hf
  case isFalse => exact hv hf'

theorem giveFlag_sameNames {fs₀ : FlagSet V} {argument : GoString} (hs : SameNames fs₀ fs)
    (h : giveFlag fs argument name value = .ok fs') : SameNames fs₀ fs' := by
  have ⟨flag, v, hf, _, hSet⟩ := giveFlag_ok h
  intro name'
  rw [← hs name', hSet, GoMap.get_set]
  split
  case isTrue he => simp [he, hf]
  case isFalse => rfl

theorem sortArgs_word (h : ¬ofString "--" <+: name) :
    sortArgs fs (name :: args) = ((sortArgs fs args).1, name :: (sortArgs fs args).2) := by
  have hne : name ≠ "--" := fun he => h (he ▸ List.prefix_rfl)
  cases args <;> simp [sortArgs, hne, h]

theorem sortArgs_joined :
    sortArgs fs ((ofString "--" ++ (name ++ 0x3D :: value)) :: args) =
      ((ofString "--" ++ (name ++ 0x3D :: value)) :: (sortArgs fs args).1, (sortArgs fs args).2) := by
  have hne : ofString "--" ++ (name ++ 0x3D :: value) ≠ ofString "--" := by simp
  cases args <;> simp [sortArgs, hne, containsByte]

theorem flagTakesValue_append (hv : ValueFlags fs) (h : (0x3D : UInt8) ∉ name) :
    flagTakesValue fs (ofString "--" ++ name) = (fs[name]?).isSome := by
  have hCut : cutPrefix (ofString "--" ++ name) "--" = some name := by
    simp [cutPrefix, ofString]
  have hTake := (@splitName name [] h).2.2.1
  rw [flagTakesValue, hCut]
  simp only [hTake]
  cases hf : fs[name]?
  case none => rfl
  case some flag => simp [hv hf]

theorem sortArgs_apart (hv : ValueFlags fs) (h : (0x3D : UInt8) ∉ name) (hne : name ≠ []) :
    sortArgs fs ((ofString "--" ++ name) :: value :: args) =
      if fs[name]? = none then
        ((ofString "--" ++ name) :: (sortArgs fs (value :: args)).1, (sortArgs fs (value :: args)).2)
      else
        ((ofString "--" ++ name) :: value :: (sortArgs fs args).1, (sortArgs fs args).2) := by
  have hArg : ofString "--" ++ name ≠ ofString "--" := by simpa using hne
  have hByte : containsByte (ofString "--" ++ name) 0x3D = false := by
    have hDashes : ofString "--" = [0x2D, 0x2D] := rfl
    simpa [containsByte, hDashes] using h
  cases hf : fs[name]? <;> simp [sortArgs, hArg, hByte, flagTakesValue_append hv h, hf]

-- The arguments behind the parts: none, or the words behind the argument that ends the flags.
def ending : Option (List GoString) → List GoString
  | none       => []
  | some words => "--" :: words

theorem sortArgs_ending (words : Option (List GoString)) :
    sortArgs fs (ending words) = ([], words.getD []) := by
  cases words
  case none       => simp [ending, sortArgs]
  case some words => cases words <;> simp [ending, sortArgs]

-- Flags are parsed as if all of them came first. The flags that decide which argument is a value
-- are those of the set `fs₀` that the parsing starts with.
theorem parse_sortArgs {fs₀ : FlagSet V} {words : Option (List GoString)} (hv₀ : ValueFlags fs₀)
    (hv : ValueFlags fs) (hs : SameNames fs₀ fs) (hc : ∀ part ∈ parts, part.Complete) :
    (do return (← parse fs (sortArgs fs₀ (parts.flatMap Part.args ++ ending words)).1,
      (sortArgs fs₀ (parts.flatMap Part.args ++ ending words)).2)) =
    (do return (← parse fs (parts.flatMap Part.flagArgs),
      parts.filterMap Part.positional ++ words.getD [])) := by
  induction parts generalizing fs
  case nil => simp [sortArgs_ending]
  case cons part parts ih =>
    have hPart := hc part List.mem_cons_self
    have hParts : ∀ part ∈ parts, part.Complete := fun part h => hc part (List.mem_cons_of_mem _ h)
    cases part
    case word text =>
      have ih := congrArg (Functor.map fun x : FlagSet V × List GoString => (x.1, text :: x.2))
        (ih hv hs hParts)
      simpa [Part.args, Part.flagArgs, Part.positional, sortArgs_word hPart] using ih
    case joined name value =>
      simp only [List.flatMap_cons, Part.args, Part.flagArgs, List.cons_append, List.nil_append,
        sortArgs_joined, parse_joined hPart, Part.positional, List.filterMap_cons]
      cases hGive : giveFlag fs (ofString "--" ++ (name ++ 0x3D :: value)) name value
      case error failure => rfl
      case ok fs' => exact ih (giveFlag_valueFlags hv hGive) (giveFlag_sameNames hs hGive) hParts
    case apart name value =>
      have ⟨hName, hne⟩ := hPart
      simp only [List.flatMap_cons, Part.args, Part.flagArgs, List.cons_append, List.nil_append,
        sortArgs_apart hv₀ hName hne, Part.positional, List.filterMap_cons]
      split
      case isTrue hf =>
        have hf := (hs name).mpr hf
        have ⟨failure, hApart, hGive⟩ := @parse_undefined _ fs name value
          (sortArgs fs₀ (value :: (parts.flatMap Part.args ++ ending words))).1 hf hName hne
        rw [hApart, parse_apart hv hName hne, hGive]
        rfl
      case isFalse =>
        rw [parse_apart hv hName hne, parse_apart hv hName hne]
        cases hGive : giveFlag fs (ofString "--" ++ name) name value
        case error failure => rfl
        case ok fs' => exact ih (giveFlag_valueFlags hv hGive) (giveFlag_sameNames hs hGive) hParts

-- The value that a command line gives to a flag is the last one.
def lastGiven (parts : List Part) (name : GoString) : Option GoString :=
  (parts.filterMap (Part.given name)).getLast?

-- What a flag has become when its last value was given.
def Given (flag flag' : GoFlag.Flag V) : Option GoString → Prop
  | none       => flag' = flag
  | some value => ∃ v, flag.set value = some v ∧ flag' = { flag with value := v }

theorem lastGiven_cons :
    lastGiven (part :: parts) name = (lastGiven parts name).or (part.given name) := by
  cases h : part.given name
  case none => simp [lastGiven, h]
  case some value =>
    simp only [lastGiven, List.filterMap_cons, h, List.getLast?_cons]
    cases (parts.filterMap (Part.given name)).getLast? <;> rfl

theorem Given.trans {flag flag₁ flag₂ : GoFlag.Flag V} {x y : Option GoString} (h₁ : Given flag flag₁ x)
    (h₂ : Given flag₁ flag₂ y) : Given flag flag₂ (y.or x) := by
  cases y
  case none => exact h₂ ▸ h₁
  case some value =>
    have ⟨v, hv, h₂⟩ := h₂
    cases x
    case none => exact h₁ ▸ ⟨v, h₁ ▸ hv, h₂⟩
    case some =>
      have ⟨_, _, h₁⟩ := h₁
      exact ⟨v, by simpa [h₁] using hv, by simp [h₂, h₁]⟩

theorem giveFlag_given {argument name' : GoString} {flag : GoFlag.Flag V}
    (h : giveFlag fs argument name' value = .ok fs') (hf : fs[name]? = some flag) :
    ∃ flag', fs'[name]? = some flag' ∧ Given flag flag' (if name' = name then some value else none) := by
  have ⟨flag₁, v, hf₁, hv, hSet⟩ := giveFlag_ok h
  by_cases he : name' = name
  case pos =>
    cases he
    cases hf.symm.trans hf₁
    exact ⟨_, hSet ▸ GoMap.get_set_self, if_pos rfl ▸ ⟨v, hv, rfl⟩⟩
  case neg => exact ⟨flag, hSet ▸ (GoMap.get_set_ne (Ne.symm he)).trans hf, if_neg he ▸ rfl⟩

theorem parse_flagArgs (hv : ValueFlags fs) (hc : ∀ part ∈ parts, part.Complete)
    (h : parse fs (parts.flatMap Part.flagArgs) = .ok fs') {flag : GoFlag.Flag V}
    (hf : fs[name]? = some flag) :
    ∃ flag', fs'[name]? = some flag' ∧ Given flag flag' (lastGiven parts name) := by
  induction parts generalizing fs flag
  case nil =>
    cases h
    exact ⟨flag, hf, rfl⟩
  case cons part parts ih =>
    have hPart := hc part List.mem_cons_self
    have hParts : ∀ part ∈ parts, part.Complete := fun part h => hc part (List.mem_cons_of_mem _ h)
    have hGiven {argument name' value : GoString} (h : (giveFlag fs argument name' value >>=
        (parse · (parts.flatMap Part.flagArgs))) = .ok fs') : ∃ flag', fs'[name]? = some flag' ∧
          Given flag flag' ((lastGiven parts name).or (if name' = name then some value else none)) := by
      have ⟨fs₁, hGive, h⟩ := Except.bind_eq_ok.mp h
      have ⟨flag₁, hf₁, hGiven₁⟩ := giveFlag_given hGive hf
      have ⟨flag', hf', hGiven'⟩ := ih (giveFlag_valueFlags hv hGive) hParts h hf₁
      exact ⟨flag', hf', hGiven₁.trans hGiven'⟩
    rw [lastGiven_cons]
    cases part
    case word text          => simpa [Part.given] using ih hv hParts h hf
    case joined name' value => exact hGiven (parse_joined hPart ▸ h)
    case apart name' value  => exact hGiven (parse_apart hv hPart.1 hPart.2 ▸ h)

-- Flags and positional arguments may be interleaved: the result is that of the flags alone, beside
-- the words in their order, and every flag has the last value that it was given.
theorem interleaved_flags (hv : ValueFlags fs) (hc : ∀ part ∈ parts, part.Complete)
    (words : Option (List GoString)) :
    parseCommandFlags fs (parts.flatMap Part.args ++ ending words) =
      (do return (← parse fs (parts.flatMap Part.flagArgs),
        parts.filterMap Part.positional ++ words.getD [])) ∧
    ∀ fs', parse fs (parts.flatMap Part.flagArgs) = .ok fs' → ∀ name flag, fs[name]? = some flag →
      ∃ flag', fs'[name]? = some flag' ∧ Given flag flag' (lastGiven parts name) :=
  ⟨parse_sortArgs hv hv (fun _ => .rfl) hc, fun _ h _ _ => parse_flagArgs hv hc h⟩

end

theorem postFlags_valueFlags : ValueFlags postFlags := by
  intro name flag h
  simp only [postFlags, GoMap.get_set, GoMap.get_empty] at h
  split at h
  case isTrue => cases h; rfl
  case isFalse =>
    split at h
    case isTrue  => cases h; rfl
    case isFalse => contradiction

-- Values that look like flags or like the end of the flags stay values.
theorem interleaved_flags_post :
    parseCommandFlags postFlags ["room/path", "--body", "--", "--body=--json", "--idempotency-key",
      "--body", "--", "--body"] =
    (do return (← parse postFlags ["--body", "--", "--body=--json", "--idempotency-key", "--body"],
      ["room/path", "--body"])) := by
  have hComplete : ∀ part ∈ [Part.word "room/path", .apart "body" "--", .joined "body" "--json",
      .apart "idempotency-key" "--body"], part.Complete := by
    rw [List.forall_mem_cons, List.forall_mem_cons, List.forall_mem_cons, List.forall_mem_singleton]
    simp only [Part.Complete]
    decide
  exact (interleaved_flags postFlags_valueFlags hComplete (some ["--body"])).1

end Board.Cli

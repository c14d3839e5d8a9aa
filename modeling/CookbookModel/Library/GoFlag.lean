import CookbookModel.Library.Control
import CookbookModel.Library.GoMap
import CookbookModel.Library.GoString

-- Go's package `flag` with the error handling `flag.ContinueOnError`.
namespace GoFlag

open GoString

-- A flag of a set: what it makes of a text and the value that it has.
structure Flag (V : Type) where
  isBoolFlag : Bool := false
  set        : GoString → Option V
  value      : V

-- What `f.Parse` fails with.
inductive Failure
  | badSyntax (argument : GoString)
  | help
  | notDefined (name : GoString)
  | needsArgument (name : GoString)
  | invalidValue (value name : GoString)
  deriving DecidableEq

abbrev FlagSet (V : Type) := GoMap GoString (Flag V)

-- The name and the value of an argument `name=value`. The first character is no separator.
def nameAndValue : GoString → GoString × Option GoString
  | []      => ([], none)
  | b :: bs =>
    match bs.dropWhile (· ≠ 0x3D) with
    | []         => (b :: bs, none)
    | _ :: value => (b :: bs.takeWhile (· ≠ 0x3D), some value)

section

variable {V : Type}

-- `flag.Value.Set(value)`
def setFlag (fs : FlagSet V) (name : GoString) (flag : Flag V) (value : GoString) :
    Except Failure (FlagSet V) :=
  match flag.set value with
  | some v => .ok <| fs.set name { flag with value := v }
  | none   => .error <| .invalidValue value name

-- The name of a flag that an argument starts with, where it does not end the flags.
def flagName : GoString → Option GoString
  | 0x2D :: 0x2D :: b :: bs => some <| b :: bs
  | [0x2D, 0x2D]            => none
  | 0x2D :: b :: bs         => some <| b :: bs
  | _                       => none

-- `f.Parse(arguments)`
def parse (fs : FlagSet V) : (arguments : List GoString) → Except Failure (FlagSet V)
  | []               => .ok fs
  | argument :: args =>
    match flagName argument with
    | none      => .ok fs
    | some name =>
      if name.head? = some 0x2D ∨ name.head? = some 0x3D then
        .error <| .badSyntax argument
      else
        let (name, value) := nameAndValue name
        match fs[name]? with
        | none      => .error <| if name = "help" ∨ name = "h" then .help else .notDefined name
        | some flag =>
          match flag.isBoolFlag, value, args with
          | _, some value, args        => do parse (← setFlag fs name flag value) args
          | true, none, args           => do parse (← setFlag fs name flag "true") args
          | false, none, value :: args => do parse (← setFlag fs name flag value) args
          | false, none, []            => .error <| .needsArgument name

end

end GoFlag

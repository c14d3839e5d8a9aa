import CookbookModel.Library.GoFlag

namespace Board.Cli

open GoString GoFlag

variable {V : Type}

def flagTakesValue (fs : FlagSet V) (arg : GoString) : Bool :=
  match cutPrefix arg "--" with
  | none      => false
  | some name =>
    match fs[name.takeWhile (· ≠ 0x3D)]? with
    | none      => false
    | some flag => !flag.isBoolFlag

-- The loop of `parseCommandFlags`, which tells the arguments of flags from positional arguments.
def sortArgs (fs : FlagSet V) : (args : List GoString) → List GoString × List GoString
  | []          => ([], [])
  | arg :: args =>
    if arg = "--" then
      ([], args)
    else if ofString "--" <+: arg then
      match args with
      | value :: args =>
        if !containsByte arg 0x3D && flagTakesValue fs arg then
          let (flagArgs, positionals) := sortArgs fs args
          (arg :: value :: flagArgs, positionals)
        else
          let (flagArgs, positionals) := sortArgs fs (value :: args)
          (arg :: flagArgs, positionals)
      | [] => ([arg], [])
    else
      let (flagArgs, positionals) := sortArgs fs args
      (flagArgs, arg :: positionals)

-- The flags with their values, and the positional arguments
def parseCommandFlags (fs : FlagSet V) (args : List GoString) :
    Except Failure (FlagSet V × List GoString) := do
  let (flagArgs, positionals) := sortArgs fs args
  return (← parse fs flagArgs, positionals)

-- The flag that `fs.String` defines
def stringFlag : GoFlag.Flag GoString where
  set   := some
  value := ""

-- The flags of the command `post`
def postFlags : FlagSet GoString :=
  (GoMap.set ∅ (ofString "body") stringFlag).set (ofString "idempotency-key") stringFlag

end Board.Cli

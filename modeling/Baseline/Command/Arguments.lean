import Baseline.Sweep.Mode

/-!
# Arguments

What a user may say on the command line. Options are read from left to right, and the first fault
ends the reading. A value that stands in an argument of its own is looked at only when the next
option or the end comes, so a fault right behind it goes before a fault in it.

`--mode`, `--dry-run` and `--yes` exclude each other, and each is given at most once.
-/

namespace Baseline.Command

/-- What a user may ask help on. -/
inductive Topic where
  /-- the program -/
  | program
  /-- accepting comparisons -/
  | accept
  /-- sweeping baselines -/
  | sweep
  /-- printing the settings -/
  | settings
  /-- help itself -/
  | help
deriving DecidableEq, Repr

/-- The options of a sweep. -/
structure SweepOptions where
  /-- the mode asked for by name -/
  mode : Option Mode
  /-- whether the strays are only to be listed -/
  dryRun : Bool
  /-- whether the strays are to be deleted without a question -/
  yes : Bool
deriving DecidableEq, Repr

/-- What a user asks for. -/
inductive Request where
  /-- nothing in particular -/
  | nothing
  /-- accept every pending comparison -/
  | accept
  /-- sweep the baselines that no test touched -/
  | sweep (options : SweepOptions)
  /-- print the settings -/
  | settings
  /-- help on a topic -/
  | help (topic : Topic)
deriving DecidableEq, Repr

/-- Why arguments make no request. -/
inductive UsageError where
  /-- a value is missing or not one of those allowed -/
  | invalidValue
  /-- no such option, or an argument too many -/
  | unknownArgument
  /-- no such command -/
  | invalidCommand
  /-- two options that exclude each other, or one option twice -/
  | conflict
  /-- a value for an option that takes none -/
  | tooManyValues
deriving DecidableEq, Repr

namespace SweepOptions

/-- No options. -/
def none : SweepOptions := ⟨.none, false, false⟩

/-- How many of the options are given. -/
def count (o : SweepOptions) : Nat := o.mode.isSome.toNat + o.dryRun.toNat + o.yes.toNat

/-- The mode of a sweep with these options, where the settings name a mode too. -/
def resolve (o : SweepOptions) (default : Mode) : Mode :=
  if o.dryRun then .dryRun else if o.yes then .delete else o.mode.getD default

end SweepOptions

/-! ## Kinds of arguments -/

/-- How an argument looks. -/
inductive Shape where
  /-- `--`: no option comes after it -/
  | separator
  /-- `--name` or `--name=value` -/
  | long (name : String) (value : Option String)
  /-- `-abc`: an option for each letter -/
  | short (letters : List Char)
  /-- anything else -/
  | plain
deriving DecidableEq, Repr

/-- The look of an argument. -/
def Shape.of (argument : String) : Shape :=
  match argument.toList with
  | ['-', '-'] => .separator
  | '-' :: '-' :: cs =>
    let name := String.ofList (cs.takeWhile (· != '='))
    match cs.dropWhile (· != '=') with
    | [] => .long name none
    | _ :: value => .long name (some (String.ofList value))
  | ['-'] => .plain
  | '-' :: cs => .short cs
  | _ => .plain

/-! ## Options of a sweep -/

/-- The value of `--mode` that has not been looked at yet. -/
inductive Pending where
  /-- there is none -/
  | nothing
  /-- it has to come next -/
  | wanted
  /-- it has come -/
  | given (value : String)
deriving DecidableEq, Repr

/-- How far the options of a sweep are read. -/
structure Reading where
  /-- the options so far -/
  options : SweepOptions
  /-- the value that has not been looked at -/
  pending : Pending
deriving DecidableEq, Repr

/-- How a step of reading goes on: with more, or with help at once. -/
inductive Step where
  /-- go on -/
  | more (r : Reading)
  /-- help was asked for -/
  | help
deriving DecidableEq, Repr

/-- The mode that an option names. -/
def modeOption? (value : String) : Option Mode :=
  [("delete", .delete), ("prompt", .prompt), ("dry-run", .dryRun)].lookup value

namespace Reading

/-- Nothing is read. -/
def start : Reading := ⟨.none, .nothing⟩

/-- Takes a mode. -/
def takeMode (r : Reading) (value : String) : Except UsageError Reading :=
  if r.options.mode.isSome then .error .conflict
  else
    match modeOption? value with
    | none => .error .invalidValue
    | some m => .ok ⟨{ r.options with mode := some m }, .nothing⟩

/-- Looks at the value that is pending. -/
def settle (r : Reading) : Except UsageError Reading :=
  match r.pending with
  | .nothing => .ok r
  | .wanted => .error .invalidValue
  | .given value => r.takeMode value

/-- Takes `--dry-run`. -/
def takeDryRun (r : Reading) : Except UsageError Reading := do
  let r ← r.settle
  if r.options.dryRun then throw .conflict
  return { r with options := { r.options with dryRun := true } }

/-- Takes `--yes`. -/
def takeYes (r : Reading) : Except UsageError Reading := do
  let r ← r.settle
  if r.options.yes then throw .conflict
  return { r with options := { r.options with yes := true } }

/-- Takes an option by its name. -/
def takeLong (r : Reading) (name : String) (value : Option String) : Except UsageError Step :=
  match name, value with
  | "mode", some value => do return .more (← (← r.settle).takeMode value)
  | "mode", none => do return .more { ← r.settle with pending := .wanted }
  | "dry-run", none => do return .more (← r.takeDryRun)
  | "yes", none => do return .more (← r.takeYes)
  | "help", none => do
    let _ ← r.settle
    return .help
  | "dry-run", some _ => throw .tooManyValues
  | "yes", some _ => throw .tooManyValues
  | "help", some _ => throw .tooManyValues
  | _, _ => throw .unknownArgument

/-- Takes options by their letters. -/
def takeShort (r : Reading) : List Char → Except UsageError Step
  | [] => .ok (.more r)
  | 'y' :: letters => do takeShort (← r.takeYes) letters
  | 'h' :: _ => do
    let _ ← r.settle
    return .help
  | _ => throw .unknownArgument

/-- What the options come to at the end. -/
def finish (r : Reading) : Except UsageError Request := do
  let r ← r.settle
  if 1 < r.options.count then throw .conflict
  return .sweep r.options

end Reading

/-- Reads the arguments of a sweep on. -/
def readSweep (r : Reading) : List String → Except UsageError Request
  | [] => r.finish
  | argument :: arguments =>
    match Shape.of argument with
    | .separator => if arguments.isEmpty then r.finish else throw .unknownArgument
    | .long name value => do
      match ← r.takeLong name value with
      | .help => return .help .sweep
      | .more r => readSweep r arguments
    | .short letters => do
      match ← r.takeShort letters with
      | .help => return .help .sweep
      | .more r => readSweep r arguments
    | .plain =>
      match r.pending with
      | .wanted => readSweep { r with pending := .given argument } arguments
      | _ => throw .unknownArgument

/-! ## Commands -/

/-- Reads the arguments of a command that takes none but for help. -/
def readNone (request : Request) (topic : Topic) : List String → Except UsageError Request
  | [] => .ok request
  | argument :: arguments =>
    match Shape.of argument with
    | .separator => if arguments.isEmpty then .ok request else throw .unknownArgument
    | .long "help" none => .ok (.help topic)
    | .long "help" (some _) => throw .tooManyValues
    | .short ('h' :: _) => .ok (.help topic)
    | _ => throw .unknownArgument

/-- The commands by name. -/
def topics : List (String × Topic) :=
  [("approve-all", .accept), ("remove-abandoned", .sweep), ("print-config", .settings),
    ("help", .help)]

/-- Reads what help is wanted on. -/
def readHelp : List String → Except UsageError Request
  | [] => .ok (.help .program)
  | [name] =>
    match topics.lookup name with
    | some topic => .ok (.help topic)
    | none => throw .invalidCommand
  | _ => throw .invalidCommand

/-- Reads the arguments of a command. -/
def readCommand (arguments : List String) : Topic → Except UsageError Request
  | .accept => readNone .accept .accept arguments
  | .sweep => readSweep .start arguments
  | .settings => readNone .settings .settings arguments
  | .help => readHelp arguments
  | .program => .ok .nothing

/-- Reads all arguments. The first is the name of a command, if it is no option. -/
def Request.ofArguments : List String → Except UsageError Request
  | [] => .ok .nothing
  | argument :: arguments =>
    match topics.lookup argument with
    | some topic => readCommand arguments topic
    | none =>
      match Shape.of argument, arguments with
      | .separator, [] => .ok .nothing
      | .separator, next :: _ =>
        throw (if (topics.lookup next).isSome then .unknownArgument else .invalidCommand)
      | .long "help" none, _ => .ok (.help .program)
      | .long "help" (some _), _ => throw .tooManyValues
      | .long _ _, _ => throw .unknownArgument
      | .short ('h' :: _), _ => .ok (.help .program)
      | .short _, _ => throw .unknownArgument
      | .plain, _ => throw .invalidCommand

end Baseline.Command

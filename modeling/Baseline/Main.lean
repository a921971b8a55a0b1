import Baseline.Command

/-!
# The program

The machine that real files make, and the entry point. Nothing is decided here: each operation is
handed to the system, and what the system refuses becomes an `IoError`.
-/

namespace Baseline.Command

/-- The refusals that the system may name by number. -/
def knownRefusals : List Errno :=
  [.notFound, .accessDenied, .busy, .alreadyExists, .notDirectory, .isDirectory, .invalidArgument,
    .nameTooLong, .notEmpty, .linkLoop]

/-- The number of a system error. -/
def systemNumber : IO.Error → Option Nat
  | .alreadyExists _ n _ | .otherError n _ | .resourceBusy n _ | .resourceVanished n _
  | .unsupportedOperation n _ | .hardwareFault n _ | .unsatisfiedConstraints n _
  | .illegalOperation n _ | .protocolError n _ | .timeExpired n _ | .interrupted _ n _
  | .noFileOrDirectory _ n _ | .invalidArgument _ n _ | .permissionDenied _ n _
  | .resourceExhausted _ n _ | .inappropriateType _ n _ | .noSuchThing _ n _ => some n.toNat
  | .unexpectedEof | .userError _ => none

/-- A system error as a failure of the outside. -/
def systemFailure (e : IO.Error) : IoError :=
  match knownRefusals.find? fun known => systemNumber e == some known.number with
  | some known => .os known
  | none => ⟨.other, toString e⟩

/-- A step of the system, with its failures. -/
def attempt {α : Type} (step : IO α) : ExceptT IoError IO α :=
  ExceptT.mk do
    try
      return .ok (← step)
    catch e =>
      return .error (systemFailure e)

/-- The text of a path. The system takes no other. -/
def textOf (p : Path) : ExceptT IoError IO String :=
  match p.text? with
  | some s => return s
  | none => throw (.os .notFound)

/-- The kind of a system file type. What is neither a directory nor a link counts as a file. -/
def kindOf : IO.FS.FileType → Node.Kind
  | .dir => .directory
  | .symlink => .link
  | _ => .file

/-- The kind of what is at a path. -/
def kindAt (s : String) : ExceptT IoError IO Node.Kind := do
  return kindOf (← attempt (System.mkFilePath [s]).symlinkMetadata).type

/-- The entries of a directory. -/
def entriesOf (s : String) : ExceptT IoError IO (List Entry) := do
  let found ← attempt (System.mkFilePath [s]).readDir
  found.toList.mapM fun e => do
    return ⟨Utf8.encode e.fileName, ← kindAt e.path.toString⟩

/-- What the system lets a run read. -/
def systemView : View IO where
  kind p := do kindAt (← textOf p)
  targetKind p := do
    let s ← textOf p
    return kindOf (← attempt (System.mkFilePath [s]).metadata).type
  content p := do
    let s ← textOf p
    return (← attempt (IO.FS.readBinFile (System.mkFilePath [s]))).toList
  entries p := do entriesOf (← textOf p)
  here := return Path.ofString (← IO.currentDir).toString

/-- Removes a file. One that is gone already is no failure, and a directory is never removed. -/
def removeFile (path : String) : ExceptT IoError IO Unit := do
  match ← ExceptT.lift (kindAt path).run with
  | .ok .directory => throw (.os .isDirectory)
  | .ok _ => attempt (IO.FS.removeFile (System.mkFilePath [path]))
  | .error e => if e.isNotFound then return () else throw e

/-- Writes a line on the output at once. -/
def writeLine (line : String) : ExceptT IoError IO Unit :=
  attempt do
    let out ← IO.getStdout
    out.putStr (line ++ "\n")
    out.flush

/-- Reads a line of the input. -/
def readAnswer : ExceptT IoError IO String := do
  let input ← attempt IO.getStdin
  let line ← attempt input.getLine
  ExceptT.mk (return (Input.next.run.run ⟨Utf8.encode line⟩).1)

/-- What the system does for a batch and a sweep. -/
def systemOutside : Outside IO where
  move received approved :=
    attempt (IO.FS.rename (System.mkFilePath [received]) (System.mkFilePath [approved]))
  delete := removeFile
  say := writeLine
  ask := readAnswer
  note _ := return ()

/-- Adds a text to a file, which is made with the directories above it if it is missing. -/
def appendText (p : Path) (text : String) : ExceptT IoError IO Unit := do
  let s ← textOf p
  if let some folder := p.parent? then
    let folder ← textOf folder
    attempt (IO.FS.createDirAll (System.mkFilePath [folder]))
  attempt (IO.FS.withFile (System.mkFilePath [s]) .append fun file => file.putStr text)

/-- The machine that real files make. -/
def systemMachine : Machine IO where
  view := systemView
  outside := systemOutside
  print text := do
    IO.print text
    (← IO.getStdout).flush
  complain line := IO.eprintln line
  append p text := (appendText p text).run

/-- The variables of the environment. -/
def systemEnvironment : IO EnvFile.Variables := do
  let bytes := (← IO.FS.readBinFile (System.mkFilePath ["/proc/self/environ"])).toList
  return (splitWhere (· == 0) bytes).filterMap fun piece =>
    let cs := (Utf8.lossy piece).toList
    match cs.dropWhile (· != '=') with
    | [] => none
    | _ :: value => some (String.ofList (cs.takeWhile (· != '=')), String.ofList value)

end Baseline.Command

/-- The entry point. -/
def main (arguments : List String) : IO UInt32 := do
  let environment ← Baseline.Command.systemEnvironment
  let exit ← Baseline.Command.run Baseline.Command.systemMachine environment arguments
  if exit == .usage then
    IO.eprintln ("Usage: " ++ Baseline.Command.Topic.program.usage)
  return exit.code.toUInt32

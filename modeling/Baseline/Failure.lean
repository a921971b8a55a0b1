/-!
# Failures of the outside world

Everything outside the library, a disk, a terminal, a closed pipe, fails in one way: with a kind,
which a caller may branch on, and a text, which a reader sees.

* `Errno` lists the refusals of the disk with their numbers;
* `IoError.os` is the failure that a refusal becomes.
-/

namespace Baseline

/-- The reasons for which a disk refuses a request. -/
inductive Errno where
  /-- no such entry -/
  | notFound
  /-- the permission bits forbid it -/
  | accessDenied
  /-- the entry is in use as a fixed point: `.`, `..` or the top -/
  | busy
  /-- a directory was needed -/
  | notDirectory
  /-- a directory was not wanted -/
  | isDirectory
  /-- a directory cannot go into itself -/
  | invalidArgument
  /-- a name or a path exceeds its limit -/
  | nameTooLong
  /-- the directory in the way is not empty -/
  | notEmpty
  /-- too many links on the way -/
  | linkLoop
  /-- the entry is there already -/
  | alreadyExists
deriving DecidableEq, Repr

namespace Errno

/-- The number of a refusal. -/
def number : Errno → Nat
  | notFound => 2
  | accessDenied => 13
  | busy => 16
  | alreadyExists => 17
  | notDirectory => 20
  | isDirectory => 21
  | invalidArgument => 22
  | nameTooLong => 36
  | notEmpty => 39
  | linkLoop => 40

/-- The text of a refusal. -/
def text : Errno → String
  | notFound => "No such file or directory"
  | accessDenied => "Permission denied"
  | busy => "Device or resource busy"
  | alreadyExists => "File exists"
  | notDirectory => "Not a directory"
  | isDirectory => "Is a directory"
  | invalidArgument => "Invalid argument"
  | nameTooLong => "File name too long"
  | notEmpty => "Directory not empty"
  | linkLoop => "Too many levels of symbolic links"

end Errno

/-- What kind of failure it is. -/
inductive IoError.Kind where
  /-- a refusal of the disk -/
  | refused (errno : Errno)
  /-- the reader of the output is gone -/
  | brokenPipe
  /-- the input is used up -/
  | unexpectedEnd
  /-- bytes that are not text where text is read -/
  | invalidData
  /-- a request that makes no sense before it is made -/
  | invalidInput
  /-- any other failure -/
  | other
deriving DecidableEq, Repr

/-- A failure of the outside world. -/
structure IoError where
  /-- what a caller may branch on -/
  kind : IoError.Kind
  /-- what a reader sees -/
  text : String
deriving DecidableEq, Repr

namespace IoError

/-- The failure that a refusal of the disk becomes. -/
def os (e : Errno) : IoError :=
  ⟨.refused e, e.text ++ " (os error " ++ toString e.number ++ ")"⟩

/-- Bytes that are not UTF-8 where text is read. -/
def notText : IoError := ⟨.invalidData, "stream did not contain valid UTF-8"⟩

/-- A path with a zero byte cannot be handed to the disk. -/
def zeroByte : IoError := ⟨.invalidInput, "file name contained an unexpected NUL byte"⟩

/-- The empty path has no place to start from. -/
def emptyPath : IoError := ⟨.invalidInput, "cannot make an empty path absolute"⟩

/-- The standard input ended before a line came. -/
def inputClosed : IoError :=
  ⟨.unexpectedEnd, "standard input closed before an answer was given"⟩

/-- The prepared answers are used up. -/
def scriptEnded : IoError := ⟨.unexpectedEnd, "no scripted answer left"⟩

/-- The reader of the output has closed it. -/
def outputClosed : IoError := ⟨.brokenPipe, "stdout closed"⟩

/-- Whether the permission bits were the reason. -/
def isAccessDenied (e : IoError) : Bool := e.kind == .refused .accessDenied

/-- Whether the reason was that nothing is there. -/
def isNotFound (e : IoError) : Bool := e.kind == .refused .notFound

end IoError

end Baseline

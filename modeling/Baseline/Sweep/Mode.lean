/-!
# Deletion modes

How a sweep deals with the baselines that it finds abandoned.
-/

namespace Baseline

/-- How abandoned baselines are dealt with. -/
inductive Mode where
  /-- they are deleted -/
  | delete
  /-- they are deleted if the user agrees -/
  | prompt
  /-- they are only listed -/
  | dryRun
deriving DecidableEq, Repr

namespace Mode

/-- The name that a mode is shown by. -/
def name : Mode → String
  | delete => "delete"
  | prompt => "prompt"
  | dryRun => "dry-run"

/-- The names that a mode goes by, the longer one for deleting included. -/
def names : List (String × Mode) :=
  [("delete", .delete), ("delete-without-prompting", .delete), ("prompt", .prompt),
    ("dry-run", .dryRun)]

/-- The mode of a name. Case counts. -/
def ofName? (name : String) : Option Mode := names.lookup name

/-- What a reader sees of a name that is no mode. -/
def unknown (name : String) : String :=
  "unknown variant `" ++ name ++ "`, expected one of " ++
    ", ".intercalate (names.map fun known => "`" ++ known.1 ++ "`")

end Mode

end Baseline

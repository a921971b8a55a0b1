import Baseline.Key

/-!
# Strays

A baseline on disk is a stray if no test touched it: its key is not the key of any line of the
touched-files log. Strays keep the order and the multiplicity of the disk.
-/

namespace Baseline

/-- The keys of the baselines on disk that no touched path has. -/
def strays (touched onDisk : List String) : List String :=
  let known := touched.map keyText
  (onDisk.map keyText).filter fun key => !known.contains key

/-- The line that lists a stray. -/
def strayLine (stray : String) : String :=
  " - " ++ nameOf stray ++ " (in " ++ folderOf stray ++ "/)"

/-- The listing of the strays. -/
def listing : List String → List String
  | [] => ["No unused `.approved.` files found.", ""]
  | found => ["Unused `.approved.` files found.", ""] ++ found.map strayLine

end Baseline

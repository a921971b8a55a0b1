import Baseline.Failure
import Baseline.Lookup

/-!
# A flat store of files

The simplest store on which moves make sense: paths are plain texts, compared exactly, and each
holds some content. Moving takes the content from one path and puts it at another. A store refuses
some paths always, with a reason of its own. `get?_erase` and `get?_insert` say all that there is to
know of a store after a change.
-/

namespace Baseline

/-- Files by path, at most one at each, with contents of type `γ`. -/
structure FlatStore (γ : Type) where
  /-- the files -/
  files : List (String × γ)
deriving DecidableEq, Repr

namespace FlatStore

variable {γ : Type}

/-- The content at a path. -/
def get? (s : FlatStore γ) (path : String) : Option γ := s.files.lookup path

/-- The store without what is at a path. -/
def erase (s : FlatStore γ) (path : String) : FlatStore γ :=
  ⟨s.files.filter (·.1 != path)⟩

/-- The store with a content at a path, whatever was there before. -/
def insert (s : FlatStore γ) (path : String) (content : γ) : FlatStore γ :=
  ⟨(path, content) :: (s.erase path).files⟩

theorem get?_erase (s : FlatStore γ) (path other : String) :
    (s.erase path).get? other = if other = path then none else s.get? other := by
  by_cases h : other = path
  · subst h
    simp [get?, erase, lookup_filter_self]
  · simp [get?, erase, h, lookup_filter_of_ne h]

theorem get?_insert (s : FlatStore γ) (path other : String) (content : γ) :
    (s.insert path content).get? other = if other = path then some content else s.get? other := by
  by_cases h : other = path
  · subst h
    simp [get?, insert]
  · have hb : (other == path) = false := beq_eq_false_iff_ne.2 h
    simp [get?, insert, erase, List.lookup_cons, hb, h, lookup_filter_of_ne h]

/-- A refusal with a reason of its own. -/
def refusal (reason : String) : IoError := ⟨.refused .accessDenied, reason⟩

/-- Nothing is at the path. -/
def absent (path : String) : IoError :=
  ⟨.refused .notFound, "No such file or directory: '" ++ path ++ "'"⟩

/-- Moves a file. A refused source is refused even if nothing is there. -/
def move (refused : String → Option String) (received approved : String) :
    ExceptT IoError (StateM (FlatStore γ)) Unit := do
  match refused received with
  | some reason => throw (refusal reason)
  | none =>
    let s ← get
    match s.get? received with
    | none => throw (absent received)
    | some content => set ((s.erase received).insert approved content)

/-- Deletes a file. One that is not there is no failure. -/
def delete (refused : String → Option String) (path : String) :
    ExceptT IoError (StateM (FlatStore γ)) Unit := do
  match refused path with
  | some reason => throw (refusal reason)
  | none => modify (·.erase path)

end FlatStore

end Baseline

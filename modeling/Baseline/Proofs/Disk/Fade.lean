import Baseline.Proofs.Disk.Unlink

/-!
# Answers after files are gone

When files go away every question to the disk has the same answer as before, with two exceptions:
what was answered by one of the files is not found, and where one of them stood in the way of a
longer path nothing is found any more. `Fades` is this relation between an answer before and the
answer afterwards. Steps that are put together fade together (`Fades.bind`), so it is proved of the
way along a path, name by name and link by link (`resolve_fades`), and of what is read at its end.
-/

namespace Baseline.Disk

/-- An answer before some files are gone, and the answer to the same question afterwards. `lost`
says which answers came from the files. -/
inductive Fades {α : Type} (lost : α → Prop) : Except Errno α → Except Errno α → Prop where
  /-- it is the same -/
  | same (answer : Except Errno α) : Fades lost answer answer
  /-- it came from a file that is gone -/
  | gone {a : α} (h : lost a) : Fades lost (.ok a) (.error .notFound)
  /-- a file that is gone was in the way -/
  | blocked : Fades lost (.error .notDirectory) (.error .notFound)

namespace Fades

variable {α β : Type} {lost : α → Prop} {lost' : β → Prop} {x y : Except Errno α}

/-- Steps fade together: if the first answer is lost, nothing is found, and so the second step has
to find nothing where the first led to one of the files. -/
theorem bind {f g : α → Except Errno β} (h : Fades lost x y)
    (hnext : ∀ a, Fades lost' (f a) (g a))
    (hlost : ∀ a, lost a → Fades lost' (f a) (.error .notFound)) :
    Fades lost' (x >>= f) (y >>= g) := by
  cases h with
  | same =>
    cases x with
    | error e => exact .same _
    | ok a => exact hnext a
  | gone ha => exact hlost _ ha
  | blocked => exact .blocked

/-- What is answered afterwards was answered before. -/
theorem of_ok {a : α} (h : Fades lost x (.ok a)) : x = .ok a := by
  cases h
  rfl

/-- What did not come from the files is still answered. -/
theorem ok {a : α} (h : Fades lost (.ok a) y) (hkept : ¬ lost a) : y = .ok a := by
  cases h with
  | same => rfl
  | gone ha => exact absurd ha hkept

/-- A refusal afterwards is the same as before, or says that nothing is there. -/
theorem error_cases {e : Errno} (h : Fades lost x (.error e)) :
    x = .error e ∨ e = .notFound ∧ (x = .error .notDirectory ∨ ∃ a, lost a ∧ x = .ok a) := by
  cases h with
  | same => exact .inl rfl
  | gone ha => exact .inr ⟨rfl, .inr ⟨_, ha, rfl⟩⟩
  | blocked => exact .inr ⟨rfl, .inl rfl⟩

end Fades

variable {d : Disk} {places : List Place} {through strict : Bool} {n : Nat} {here place : Place}
  {names : List Bytes} {p : Path}

theorem isDirectory_of_without (h : (d.without places).IsDirectory place) :
    d.IsDirectory place := by
  obtain ⟨rights, hnode⟩ := isDirectory_iff.1 h
  exact isDirectory_iff.2 ⟨rights, (get?_of_without hnode).2⟩

/-- A file that is there afterwards was there before, and is none of those that are gone. -/
theorem FileAt.of_without (h : (d.without places).FileAt p place) :
    d.FileAt p place ∧ place ∉ places := by
  obtain ⟨folder, name, hslot, hplace, hfile⟩ := h
  obtain ⟨content, rights, hnode⟩ := isFile_iff.1 hfile
  obtain ⟨hnotin, hnode⟩ := get?_of_without hnode
  exact ⟨⟨folder, name, hslot.of_without, hplace, isFile_iff.2 ⟨content, rights, hnode⟩⟩, hnotin⟩

variable (hfiles : ∀ file ∈ places, d.IsFile file)
include hfiles

/-- A place holds what it held before, or a file that is gone. -/
theorem get?_without_cases (place : Place) :
    (d.without places).get? place = d.get? place ∨
      place ∈ places ∧ (d.without places).get? place = none ∧
        ∃ content rights, d.get? place = some (.file content rights) := by
  rw [get?_without]
  split
  · next hmem => exact .inr ⟨hmem, rfl, isFile_iff.1 (hfiles place hmem)⟩
  · exact .inl rfl

/-! ## Along a path -/

/-- Rights are asked of directories, and no directory goes. A file that is gone did not grant
anything before: it was in the way. -/
theorem permits_fades (right : Rights → Bool) (place : Place) :
    Fades (fun _ => False) (d.permits right place) ((d.without places).permits right place) := by
  rw [permits, permits]
  rcases get?_without_cases hfiles place with hsame | ⟨-, hnone, content, rights, hnode⟩
  · rw [hsame]
    exact .same _
  · rw [hnone, hnode]
    exact .blocked

/-- Following names fades if following the names of a link does. The only answers that are lost are
places of the files themselves, which come last on the way. -/
theorem follow_fades {expand expand' : Place → List Bytes → Bool → Except Errno Place}
    (hexpand : ∀ here names strict,
      Fades (· ∈ places) (expand here names strict) (expand' here names strict)) :
    Fades (· ∈ places) (follow d expand through here names strict)
      (follow (d.without places) expand' through here names strict) := by
  induction names generalizing here with
  | nil => exact .same _
  | cons name names ih =>
    rw [follow, follow]
    refine (permits_fades hfiles Rights.search here).bind (fun _ => ?_) fun _ h => h.elim
    split
    · exact ih
    split
    · exact ih
    split
    · exact .same _
    dsimp only
    rcases get?_without_cases hfiles (here ++ [name]) with
      hsame | ⟨hmem, hnone, content, rights, hnode⟩
    · rw [hsame]
      split
      · exact .same _
      · exact ih
      · exact .same _
      · split
        · exact .same _
        · exact hexpand _ _ _
    · -- the file was the end, or it was in the way
      rw [hnone, hnode]
      dsimp only
      split
      · exact .gone hmem
      · exact .blocked

theorem resolve_fades :
    Fades (· ∈ places) (d.resolve through n here names strict)
      ((d.without places).resolve through n here names strict) := by
  induction n generalizing here names strict with
  | zero => exact follow_fades hfiles fun _ _ _ => .same _
  | succ n ih => exact follow_fades hfiles fun _ _ _ => ih

/-- So a path leads to the same place as before, or to one of the files that are gone. -/
theorem locate_fades (through : Bool) (p : Path) :
    Fades (· ∈ places) (d.locate through p) ((d.without places).locate through p) :=
  have haccepts : Fades (fun _ => False) (accepts p) (accepts p) := .same _
  haccepts.bind (fun _ => resolve_fades hfiles) fun _ h => h.elim

theorem locate_of_without (h : (d.without places).locate through p = .ok place) :
    d.locate through p = .ok place :=
  (h ▸ locate_fades hfiles through p).of_ok

/-! ## At its end -/

theorem nodeAt_of_without {node : Node} (h : (d.without places).nodeAt through p = .ok node) :
    d.nodeAt through p = .ok node := by
  obtain ⟨place, hlocate, hget⟩ := bind_eq_ok_iff.1 h
  refine bind_eq_ok_iff.2 ⟨place, locate_of_without hfiles hlocate, ?_⟩
  cases hnode : (d.without places).get? place with
  | none =>
    rw [hnode] at hget
    cases hget
  | some other =>
    rw [hnode] at hget
    rw [(get?_of_without hnode).2]
    exact hget

/-- Directories are listed as before, whatever is in them now. -/
theorem readDirectory_fades (p : Path) :
    Fades (fun _ => False) ((d.readDirectory p).map fun _ => ())
      (((d.without places).readDirectory p).map fun _ => ()) := by
  have hmap (d : Disk) (f : Place → Except Errno (List Entry)) :
      (d.locate true p >>= f).map (fun _ => ()) =
        d.locate true p >>= fun place => (f place).map fun _ => () := by
    cases d.locate true p <;> rfl
  rw [readDirectory, readDirectory, hmap, hmap]
  refine (locate_fades hfiles true p).bind (fun place => ?_) fun place hmem => ?_
  · rcases get?_without_cases hfiles place with hsame | ⟨-, hnone, content, rights, hnode⟩
    · rw [hsame]
      split
      · next rights _ =>
        have hgrants : (d.without places).grants rights.read = d.grants rights.read := rfl
        rw [hgrants]
        cases d.grants rights.read
        · exact .same _
        · exact .same _
      · exact .same _
      · exact .same _
    · rw [hnone, hnode]
      exact .blocked
  · obtain ⟨content, rights, hnode⟩ := isFile_iff.1 (hfiles place hmem)
    rw [hnode]
    exact .blocked

/-- What is in a file that is left is what was in it before. -/
theorem readFile_without {content : Bytes} (h : d.readFile p = .ok content)
    (hkept : ∀ place, d.locate true p = .ok place → place ∉ places) :
    (d.without places).readFile p = .ok content := by
  obtain ⟨node, hnode, hcontent⟩ := bind_eq_ok_iff.1 h
  obtain ⟨place, hlocate, hget⟩ := bind_eq_ok_iff.1 hnode
  have hplace := hkept place hlocate
  have hlocate' : (d.without places).locate true p = .ok place :=
    (hlocate ▸ locate_fades hfiles true p).ok hplace
  have hget' : (d.without places).get? place = d.get? place := by
    rw [get?_without, if_neg hplace]
  refine bind_eq_ok_iff.2 ⟨node, bind_eq_ok_iff.2 ⟨place, hlocate', ?_⟩, hcontent⟩
  rw [hget']
  exact hget

end Baseline.Disk

import Baseline.Disk.Desk
import Baseline.Proofs.Comparison.Batch
import Baseline.Proofs.Disk.Rename

/-!
# What a batch loses

A batch moves files about on a disk that changes under it: one record may lead to what the record
before it has put there, two may swap a folder and a file, and any of them may fail. `Passes` takes
the disks in between one by one. Over every step the disk stays a tree and the contents are kept but
for what the step overwrites, and so they are over the whole batch (`Passes.conserves`).
-/

namespace Baseline

open Disk

variable {d d' : Disk} {c : Comparison} {records : List Comparison} {tried : List Accepted}
  {lost : List Content}

/-! ## One record -/

/-- A move is a renaming, or it is refused and leaves the disk as it is. -/
theorem Disk.run_move_cases (received approved : String) (d : Disk) :
    (∃ d', d.rename (.ofString received) (.ofString approved) = .ok d' ∧
      (Disk.move received approved).run.run d = (.ok (), d')) ∨
    ∃ e, (Disk.move received approved).run.run d = (.error e, d) := by
  cases hrequest : request [.ofString received, .ofString approved]
      (d.rename (.ofString received) (.ofString approved)) with
  | ok d' => exact .inl ⟨d', of_request_eq_ok hrequest, run_change_ok hrequest⟩
  | error e => exact .inr ⟨e, run_change_error hrequest⟩

/-- A move that fails leaves the disk as it was. It is the one fact about failing moves that the
multiset law needs. -/
theorem Disk.eq_of_move_error {received approved : String} {e : IoError}
    (h : (Disk.move received approved).run.run d = (.error e, d')) : d' = d := by
  rcases run_move_cases received approved d with ⟨there, -, hrun⟩ | ⟨e', hrun⟩
  · cases h.symm.trans hrun
  · exact congrArg Prod.snd (h.symm.trans hrun)

/-- What is lost if a record is moved. -/
def Comparison.overwrites (c : Comparison) (d : Disk) : Option Content :=
  d.overwritten (.ofString c.received) (.ofString c.approved)

/-- `Passes d tried lost d'`: records are tried one after the other, from the disk `d` to the disk
`d'`. `tried` is what came of each, and `lost` is what was overwritten, in order. -/
inductive Passes : Disk → List Accepted → List Content → Disk → Prop where
  /-- no record is left -/
  | done (d : Disk) : Passes d [] [] d
  /-- a record is moved, over what is there -/
  | went {c : Comparison} {d d' d'' : Disk} {tried : List Accepted} {lost : List Content}
      (h : (Disk.move c.received c.approved).run.run d = (.ok (), d'))
      (rest : Passes d' tried lost d'') :
      Passes d (⟨c, none⟩ :: tried) ((c.overwrites d).toList ++ lost) d''
  /-- a record cannot be moved, and the disk is exactly as it was -/
  | failed {c : Comparison} {d d' : Disk} {e : IoError} {tried : List Accepted}
      {lost : List Content} (h : (Disk.move c.received c.approved).run.run d = (.error e, d))
      (rest : Passes d tried lost d') : Passes d (⟨c, some e.text⟩ :: tried) lost d'

/-- Moving one record keeps a tree a tree, and loses what it overwrites. -/
theorem tree_and_contents_of_move (htree : d.Tree)
    (h : (Disk.move c.received c.approved).run.run d = (.ok (), d')) :
    d'.Tree ∧ d'.contents + ((c.overwrites d).toList : Multiset Content) = d.contents := by
  rcases run_move_cases c.received c.approved d with ⟨there, hrename, hrun⟩ | ⟨e, hrun⟩
  · obtain rfl : there = d' := congrArg Prod.snd (hrun.symm.trans h)
    exact tree_and_contents_of_rename htree hrename
  · cases hrun.symm.trans h

/-! ## The whole batch -/

namespace Passes

/-- Over a whole batch a tree stays a tree, and nothing is lost but what is overwritten. -/
theorem conserves (h : Passes d tried lost d') (htree : d.Tree) :
    d'.Tree ∧ d'.contents + (lost : Multiset Content) = d.contents := by
  induction h with
  | done d => exact ⟨htree, add_zero _⟩
  | @went c d d' d'' tried lost hmove _ ih =>
    obtain ⟨htree', hcontents⟩ := tree_and_contents_of_move htree hmove
    obtain ⟨htree'', hrest⟩ := ih htree'
    refine ⟨htree'', ?_⟩
    rw [← hcontents, ← hrest, ← Multiset.coe_add, add_assoc, add_comm (lost : Multiset Content)]
  | failed _ _ ih => exact ih htree

/-- Each record that is moved loses one content at most, and one that fails loses none. -/
theorem length_lost_le (h : Passes d tried lost d') :
    lost.length ≤ (Outcome.of tried).approved.length := by
  induction h with
  | done => exact Nat.le_refl 0
  | @went c d _ _ tried lost _ _ ih =>
    have hfirst : (c.overwrites d).toList.length ≤ 1 := by
      cases c.overwrites d <;> simp
    have happroved : (Outcome.of (⟨c, none⟩ :: tried)).approved.length =
        (Outcome.of tried).approved.length + 1 := rfl
    rw [List.length_append, happroved]
    omega
  | failed _ _ ih => exact ih

end Passes

section

variable {ι : Type} {next : ExceptT IoError (StateM ι) String}

variable (next) in
/-- A move on a desk is one on its disk. -/
theorem run_move_desk (c : Comparison) (desk : Desk Disk ι) :
    (Disk.move c.received c.approved).run.run desk.store =
      ((((Desk.outside Disk.move Disk.delete next).move c.received c.approved).run.run desk).1,
        (((Desk.outside Disk.move Disk.delete next).move
          c.received c.approved).run.run desk).2.store) :=
  rfl

/-- Records that are tried on a desk are tried on its disk. -/
theorem passes_of_tries {desk desk' : Desk Disk ι}
    (h : Tries (Desk.outside Disk.move Disk.delete next) records desk tried desk') :
    ∃ lost, Passes desk.store tried lost desk'.store := by
  induction h with
  | done desk => exact ⟨[], .done desk.store⟩
  | @went c _ desk desk' _ _ hmove _ ih =>
    obtain ⟨lost, hpasses⟩ := ih
    have hstore := run_move_desk next c desk
    rw [hmove] at hstore
    exact ⟨_, .went hstore hpasses⟩
  | @failed c _ desk desk' _ e _ hmove _ ih =>
    obtain ⟨lost, hpasses⟩ := ih
    have hstore := run_move_desk next c desk
    rw [hmove] at hstore
    -- a note leaves the disk as the move left it, and a failed move leaves it as it was
    have hsame : desk'.store = desk.store := eq_of_move_error hstore
    rw [hsame] at hstore
    have hrest : Passes desk'.store _ _ _ := hpasses
    exact ⟨lost, .failed hstore (hsame ▸ hrest)⟩

/-- **What a batch loses.** However the records of a batch feed each other, a record that fails
leaves the disk exactly as it was, and over the whole batch the disk stays a tree and its contents
are those it had but for one element for each record that was moved over another file or link.
Nothing is made or altered on the way. -/
theorem acceptAll_conserves (next : ExceptT IoError (StateM ι) String) (records : List Comparison)
    (t : Traced (Desk Disk ι)) (htree : t.state.store.Tree) :
    ∃ (tried : List Accepted) (lost : List Content) (t' : Traced (Desk Disk ι)),
      (acceptAll (Desk.diskOutside next) records).run t = (Outcome.of tried, t') ∧
        tried.map Accepted.comparison = records ∧
        Passes t.state.store tried lost t'.state.store ∧
        t'.state.store.Tree ∧
        t'.state.store.contents + (lost : Multiset Content) = t.state.store.contents ∧
        t'.state.store.contents ≤ t.state.store.contents ∧
        lost.length ≤ (Outcome.of tried).approved.length ∧
        (lost = [] → t'.state.store.contents = t.state.store.contents) := by
  obtain ⟨tried, desk, htries, hrun⟩ :=
    run_acceptEach (leaves_noted (Desk.outside Disk.move Disk.delete next)) records t
  obtain ⟨lost, hpasses⟩ := passes_of_tries htries
  obtain ⟨htree', hcontents⟩ := hpasses.conserves htree
  refine ⟨tried, lost, _, run_bind_of_eq hrun _, htries.records_eq, hpasses, htree', hcontents,
    ?_, hpasses.length_lost_le, ?_⟩
  · rw [← hcontents]
    exact Multiset.le_add_right _ _
  · rintro rfl
    rw [← hcontents]
    exact (add_zero _).symm

/-- A folder with two files and a link to one of them. -/
def linked : Disk :=
  (Disk.laidOut ["w"] [[], ["w"], ["w", "d"]]
    [(["w", "a"], "first"), (["w", "d", "b"], "second"), (["w", "c"], "third")]).insert
      (["w", "l"].map Utf8.encode) (.link (.ofString "d"))

/-- Records that feed each other: a chain over the link, a folder that moves, a file that is gone
already, and a file that moves onto itself. -/
def feeding : List Comparison :=
  [⟨"a", "l/b"⟩, ⟨"d/b", "c"⟩, ⟨"d", "e"⟩, ⟨"a", "c"⟩, ⟨"c", "./c"⟩, ⟨"c", "l"⟩]

set_option maxRecDepth 10000 in
/-- The first file is left, and the two others and the link are what was overwritten. -/
theorem acceptAll_conserves_feeding :
    linked.Tree ∧
      ((acceptAll (Desk.diskOutside Script.next) feeding).run
        (.start ⟨linked, ⟨[]⟩, none⟩)).2.state.store.contents =
          {.file (Utf8.encode "first")} ∧
      ∃ (tried : List Accepted) (lost : List Content) (t' : Traced (Desk Disk Script)),
        (acceptAll (Desk.diskOutside Script.next) feeding).run (.start ⟨linked, ⟨[]⟩, none⟩) =
            (Outcome.of tried, t') ∧
          tried.map Accepted.comparison = feeding ∧
          Passes linked tried lost t'.state.store ∧
          t'.state.store.Tree ∧
          t'.state.store.contents + (lost : Multiset Content) = linked.contents ∧
          t'.state.store.contents ≤ linked.contents ∧
          lost.length ≤ (Outcome.of tried).approved.length ∧
          (lost = [] → t'.state.store.contents = linked.contents) := by
  have htree : linked.Tree := by decide +kernel
  exact ⟨htree, by decide +kernel,
    acceptAll_conserves Script.next feeding (.start ⟨linked, ⟨[]⟩, none⟩) htree⟩

end

end Baseline

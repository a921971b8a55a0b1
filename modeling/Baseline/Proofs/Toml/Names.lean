import Baseline.Lookup
import Baseline.Toml.Document
import Mathlib.Data.List.Nodup

/-!
# No name twice

A document that defines a name twice is refused, so the entries of one that reads all have different
names (`parse?_namesDiffer`). Statement by statement, a name is added to the draft only where it was
looked up before and not found; every other change leaves the names as they are or takes one away
first.
-/

namespace Baseline

universe u

/-- No two entries have the same name. -/
def NamesDiffer {α : Type u} (entries : List (String × α)) : Prop := (entries.map Prod.fst).Nodup

instance {α : Type u} (entries : List (String × α)) : Decidable (NamesDiffer entries) :=
  inferInstanceAs (Decidable (List.Nodup _))

namespace NamesDiffer

variable {α : Type u} {entries : List (String × α)}

/-- One more entry under a name that was not there. -/
theorem concat {name : String} (h : NamesDiffer entries) (hnew : entries.lookup name = none)
    (a : α) : NamesDiffer (entries ++ [(name, a)]) := by
  have hfree : name ∉ entries.map Prod.fst := by
    rw [← lookup_isSome_iff, hnew]
    exact Bool.false_ne_true
  rw [NamesDiffer, List.map_append, List.map_singleton]
  exact (List.perm_append_singleton name _).nodup_iff.2 (List.nodup_cons.2 ⟨hfree, h⟩)

/-- Another value under a name leaves the names as they are. -/
theorem replaced (h : NamesDiffer entries) (name : String) (a : α) :
    NamesDiffer (entries.map fun e => if e.1 == name then (name, a) else e) := by
  have hnames : (entries.map fun e => if e.1 == name then (name, a) else e).map Prod.fst =
      entries.map Prod.fst := by
    rw [List.map_map]
    refine List.map_congr_left fun entry _ => ?_
    rw [Function.comp_apply]
    split
    · next hname => exact (beq_iff_eq.1 hname).symm
    · rfl
  rwa [NamesDiffer, hnames]

theorem filter (h : NamesDiffer entries) (p : String × α → Bool) :
    NamesDiffer (entries.filter p) :=
  h.sublist (List.filter_sublist.map Prod.fst)

end NamesDiffer

namespace Toml

/-! ## One statement -/

/-- Where the names were different they still are after a change that goes well. -/
def KeepsApart (change : Standing → Entries → Option (Standing × Entries)) : Prop :=
  ∀ ⦃standing entries standing' entries'⦄, change standing entries = some (standing', entries') →
    NamesDiffer entries → NamesDiffer entries'

/-- A change at the end of a path is one to the table itself or to one of its entries. -/
theorem KeepsApart.descend {change : Standing → Entries → Option (Standing × Entries)}
    (h : KeepsApart change) (dotted : Bool) (path : List String) :
    KeepsApart (descend dotted change path) := by
  intro standing entries standing' entries' hrun hdiffer
  have hreplaced (name : String) (item : Item) : NamesDiffer (replaceEntry name item entries) :=
    hdiffer.replaced name item
  cases path with
  | nil => exact h hrun hdiffer
  | cons name path =>
    rw [Toml.descend] at hrun
    split at hrun
    · next hnone =>
      obtain ⟨_, -, hrest⟩ := Option.bind_eq_some_iff.1 hrun
      obtain ⟨-, rfl⟩ := Prod.mk.inj (Option.some.inj hrest)
      exact hdiffer.concat hnone _
    · cases hrun
    · split at hrun
      · cases hrun
      · obtain ⟨_, -, hrest⟩ := Option.bind_eq_some_iff.1 hrun
        obtain ⟨-, rfl⟩ := Prod.mk.inj (Option.some.inj hrest)
        exact hreplaced name _
    · obtain ⟨_, -, hinner⟩ := Option.bind_eq_some_iff.1 hrun
      obtain ⟨_, -, hrest⟩ := Option.bind_eq_some_iff.1 hinner
      obtain ⟨-, rfl⟩ := Prod.mk.inj (Option.some.inj hrest)
      exact hreplaced name _

theorem keepsApart_assign (path : List String) (name : String) (d : Datum) :
    KeepsApart (assign path name d) := by
  refine KeepsApart.descend (fun standing entries standing' entries' hrun hdiffer => ?_) true path
  split at hrun
  · cases hrun
  · next hfree =>
    obtain ⟨-, rfl⟩ := Prod.mk.inj (Option.some.inj hrun)
    have hnone : entries.lookup name = none :=
      Option.not_isSome_iff_eq_none.1 (not_or.1 (mt Bool.or_eq_true_iff.2 hfree)).2
    exact hdiffer.concat hnone _

theorem keepsApart_openTable (path : List String) (name : String) :
    KeepsApart (openTable path name) := by
  refine KeepsApart.descend (fun standing entries standing' entries' hrun hdiffer => ?_) false path
  split at hrun
  · next hnone =>
    obtain ⟨-, rfl⟩ := Prod.mk.inj (Option.some.inj hrun)
    exact hdiffer.concat hnone _
  · obtain ⟨-, rfl⟩ := Prod.mk.inj (Option.some.inj hrun)
    exact (hdiffer.filter _).concat (lookup_filter_self entries name) _
  · cases hrun

theorem keepsApart_openRow (path : List String) (name : String) :
    KeepsApart (openRow path name) := by
  refine KeepsApart.descend (fun standing entries standing' entries' hrun hdiffer => ?_) false path
  split at hrun
  · next hnone =>
    obtain ⟨-, rfl⟩ := Prod.mk.inj (Option.some.inj hrun)
    exact hdiffer.concat hnone _
  · obtain ⟨-, rfl⟩ := Prod.mk.inj (Option.some.inj hrun)
    exact hdiffer.replaced name _
  · cases hrun

/-- Each statement keeps the names apart, whichever kind it is: it assigns, it opens a table or it
opens a row of one. -/
theorem Draft.namesDiffer_add {draft draft' : Draft} {statement : Statement}
    (h : draft.add statement = some draft') (hdiffer : NamesDiffer draft.entries) :
    NamesDiffer draft'.entries := by
  cases statement with
  | blank =>
    obtain rfl := Option.some.inj h
    exact hdiffer
  | assignment path name d =>
    obtain ⟨_, hrun, hrest⟩ := Option.bind_eq_some_iff.1 h
    obtain rfl := Option.some.inj hrest
    exact (keepsApart_assign path name d).descend false draft.current hrun hdiffer
  | header path name =>
    obtain ⟨_, hrun, hrest⟩ := Option.bind_eq_some_iff.1 h
    obtain rfl := Option.some.inj hrest
    exact keepsApart_openTable path name hrun hdiffer
  | rowHeader path name =>
    obtain ⟨_, hrun, hrest⟩ := Option.bind_eq_some_iff.1 h
    obtain rfl := Option.some.inj hrest
    exact keepsApart_openRow path name hrun hdiffer

/-! ## The whole document -/

/-- So all of them do, one after the other, and a document that reads has no name twice. -/
theorem Draft.namesDiffer_foldlM {statements : List Statement} {draft draft' : Draft}
    (h : statements.foldlM Draft.add draft = some draft') (hdiffer : NamesDiffer draft.entries) :
    NamesDiffer draft'.entries := by
  induction statements generalizing draft with
  | nil =>
    obtain rfl := Option.some.inj h
    exact hdiffer
  | cons statement statements ih =>
    rw [List.foldlM_cons] at h
    obtain ⟨next, hadd, hrest⟩ := Option.bind_eq_some_iff.1 h
    exact ih hrest (namesDiffer_add hadd hdiffer)

theorem names_closeEntries (entries : Entries) :
    (closeEntries entries).map Prod.fst = entries.map Prod.fst := by
  induction entries with
  | nil => rw [closeEntries, List.map_nil, List.map_nil]
  | cons entry entries ih => rw [closeEntries, List.map_cons, List.map_cons, ih]

theorem Datum.names_valueEntries? {data : List (String × Datum)} {entries : List (String × Value)}
    (h : valueEntries? data = some entries) : entries.map Prod.fst = data.map Prod.fst := by
  induction data generalizing entries with
  | nil =>
    rw [valueEntries?] at h
    obtain rfl := Option.some.inj h
    rfl
  | cons entry data ih =>
    rw [valueEntries?] at h
    obtain ⟨v, -, hrest⟩ := Option.bind_eq_some_iff.1 h
    obtain ⟨more, hmore, hlast⟩ := Option.bind_eq_some_iff.1 hrest
    obtain rfl := Option.some.inj hlast
    rw [List.map_cons, List.map_cons, ih hmore]

/-- The entries that a document means have different names. The draft has them, and closing it
changes no name. -/
theorem parse?_namesDiffer {text : String} {entries : List (String × Value)}
    (h : parse? text = some entries) : NamesDiffer entries := by
  obtain ⟨d, hdocument, hmeaning⟩ := Option.bind_eq_some_iff.1 h
  obtain ⟨all, -, hbuild⟩ := Option.bind_eq_some_iff.1 hdocument
  obtain ⟨draft, hdraft, hclosed⟩ := Option.bind_eq_some_iff.1 hbuild
  obtain rfl := Option.some.inj hclosed
  have hdraftDiffer : NamesDiffer draft.entries := Draft.namesDiffer_foldlM hdraft List.nodup_nil
  obtain ⟨v, hvalue, hentries⟩ := Option.bind_eq_some_iff.1 hmeaning
  rw [Datum.value?] at hvalue
  split at hvalue
  · -- a document that is a moment means no table
    obtain ⟨_, -, rfl⟩ := Option.map_eq_some_iff.1 hvalue
    cases hentries
  · obtain ⟨es, hes, rfl⟩ := Option.map_eq_some_iff.1 hvalue
    obtain rfl := Option.some.inj hentries
    rwa [NamesDiffer, Datum.names_valueEntries? hes, names_closeEntries]

end Toml

end Baseline

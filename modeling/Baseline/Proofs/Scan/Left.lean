import Baseline.Proofs.Disk.Fade
import Baseline.Proofs.Scan.Reach

/-!
# Scanning again after files are gone

A scan reads what its root is and which entries the directories have. None of this comes from the
files that go, so a scan that succeeded from a directory succeeds again (`OnlyDenied.without`), and
it comes to no file but those to which it came before (`Due.of_without`).
-/

namespace Baseline.Scan

variable {d : Disk} {places : List Place} {r : ScanRules} {root p : Path} {base : Place}
  {names : List Bytes} {found : List Path}

/-- A directory can be opened if the disk takes its path and lists something there. -/
theorem opens_iff :
    Opens d p ↔ 0 ∉ p.bytes ∧ (d.readDirectory p).map (fun _ => ()) = .ok () := by
  constructor
  · rintro ⟨entries, hentries⟩
    obtain ⟨hzero, hread⟩ := Disk.request_eq_ok_iff.1 hentries
    have hread : d.readDirectory p = .ok entries := hread
    exact ⟨hzero, by rw [hread]; rfl⟩
  · rintro ⟨hzero, hread⟩
    cases hentries : d.readDirectory p with
    | error e =>
      rw [hentries] at hread
      cases hread
    | ok entries => exact ⟨entries, Disk.request_eq_ok_iff.2 ⟨hzero, hentries⟩⟩

variable (hfiles : ∀ file ∈ places, d.IsFile file)
include hfiles

theorem kind_of_without {kind : Node.Kind}
    (h : ((d.without places).still.kind p).run = .ok kind) : (d.still.kind p).run = .ok kind := by
  obtain ⟨hzero, hread⟩ := Disk.request_eq_ok_iff.1 h
  have hkind : ((d.without places).nodeAt false p).map Node.kind = .ok kind := hread
  suffices hbefore : (d.nodeAt false p).map Node.kind = .ok kind from
    Disk.request_eq_ok_iff.2 ⟨hzero, hbefore⟩
  cases hnode : (d.without places).nodeAt false p with
  | error e =>
    rw [hnode] at hkind
    cases hkind
  | ok node =>
    rw [hnode] at hkind
    rw [Disk.nodeAt_of_without hfiles hnode]
    exact hkind

/-- A directory can be opened afterwards exactly if it could be opened before. -/
theorem opens_without_iff : Opens (d.without places) p ↔ Opens d p := by
  have hfades := Disk.readDirectory_fades hfiles p
  rw [opens_iff, opens_iff]
  refine and_congr_right fun _ => ⟨fun h => (h ▸ hfades).of_ok, fun h => ?_⟩
  exact (h ▸ hfades).ok id

/-- Files are never on the way to a directory, so the same directories are opened when files are
gone. -/
theorem opened_without_iff : Opened (d.without places) root names ↔ Opened d root names :=
  forall_congr' fun _ => forall_congr' fun _ => forall_congr' fun _ => opens_without_iff hfiles

/-- Nothing but a denial keeps a reading of entries from succeeding, if nothing else did before. -/
theorem AtMostDenied.without (h : AtMostDenied (d.still.entries p)) :
    AtMostDenied ((d.without places).still.entries p) := by
  have hbefore (e : IoError) (he : Disk.request [p] (d.readDirectory p) = .error e) :
      e.isAccessDenied = true := h e he
  intro e he
  rcases Disk.request_eq_error_iff.1 he with ⟨hzero, hsame⟩ | ⟨hzero, errno, hread, rfl⟩
  · exact hbefore e (Disk.request_eq_error_iff.2 (.inl ⟨hzero, hsame⟩))
  · -- the disk refused for the same reason before, or because a file was in the way
    have hread : (d.without places).readDirectory p = .error errno := hread
    have hfades := Disk.readDirectory_fades hfiles p
    rw [hread] at hfades
    have hold (e : Errno) (hsame : (d.readDirectory p).map (fun _ => ()) = .error e) :
        (IoError.os e).isAccessDenied = true := by
      apply hbefore
      refine Disk.request_eq_error_iff.2 (.inr ⟨hzero, e, ?_, rfl⟩)
      cases hentries : d.readDirectory p with
      | error e' =>
        rw [hentries] at hsame
        exact congrArg Except.error (Except.error.inj hsame)
      | ok entries =>
        rw [hentries] at hsame
        cases hsame
    rcases hfades.error_cases with hsame | ⟨-, hblocked | ⟨-, hlost, -⟩⟩
    · exact hold errno hsame
    · cases hold .notDirectory hblocked
    · exact hlost.elim

/-- Nothing is reached by the loss of files. -/
theorem Reaches.of_without (h : Reaches (d.without places) r root base names) :
    Reaches d r root base names where
  directory := Disk.isDirectory_of_without h.directory
  opened := (opened_without_iff hfiles).1 h.opened
  spared := h.spared

/-- From a root that can be opened, a scan that succeeded succeeds again. -/
theorem OnlyDenied.without (h : OnlyDenied d r root) (hopens : Opens d root) :
    OnlyDenied (d.without places) r root := by
  have hkind := kind_of_opens ((opens_without_iff hfiles).2 hopens)
  constructor
  · intro e he
    rcases hkind with hkind | ⟨hkind, -⟩
    · cases hkind.symm.trans he
    · cases hkind.symm.trans he
  · intro hlink e he
    rcases hkind with hkind | ⟨-, htarget⟩
    · cases hkind.symm.trans hlink
    · cases htarget.symm.trans he
  · intro base names hlocate hreaches
    exact (h.entries base names (Disk.locate_of_without hfiles hlocate)
      (hreaches.of_without hfiles)).without hfiles

/-- What is due afterwards was due before. -/
theorem Due.of_without (h : Due (d.without places) r root names) : Due d r root names := by
  obtain ⟨⟨base, hpicks, hfolders⟩, hopened, hseen⟩ := h
  refine ⟨⟨base, ⟨hpicks.file.of_without.1, hpicks.fits, hpicks.spared,
    fun hne => Disk.locate_of_without hfiles (hpicks.located hne)⟩,
    fun front hfront hne => Disk.isDirectory_of_without (hfolders front hfront hne)⟩,
    (opened_without_iff hfiles).1 hopened, fun hnil => kind_of_without hfiles (hseen hnil)⟩

/-- From a root that can be opened, what a scan finds afterwards are files that it found before, and
none of those that are gone. -/
theorem picked_without (htree : d.Tree) (hopens : Opens d root)
    (h : (picked d.still silent r root).run = .ok found) :
    ∃ left, (picked (d.without places).still silent r root).run = .ok left ∧
      ∀ p ∈ left, p ∈ found ∧ ∃ place, d.FileAt p place ∧ place ∉ places := by
  have htree' := htree.without hfiles
  have hdenied := ((picked_ok_iff htree).1 ⟨found, h⟩).without hfiles hopens
  obtain ⟨left, hleft⟩ := (picked_ok_iff htree').2 hdenied
  obtain ⟨-, tails, rfl, -, -, hdue⟩ := findsDue_of_picked htree h
  obtain ⟨-, tails', rfl, -, -, hdue'⟩ := findsDue_of_picked htree' hleft
  refine ⟨_, hleft, fun p hp => ?_⟩
  obtain ⟨names, hnames, rfl⟩ := List.mem_map.1 hp
  have hagain := (hdue' names).1 hnames
  obtain ⟨base, hpicks, -⟩ := hagain.picked
  exact ⟨List.mem_map_of_mem ((hdue names).2 (hagain.of_without hfiles)), base ++ names,
    hpicks.file.of_without⟩

end Baseline.Scan

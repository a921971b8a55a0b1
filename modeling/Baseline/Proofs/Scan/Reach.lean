import Baseline.Proofs.Scan.Found

/-!
# When a scan succeeds

A scan reads the root, and the entries of every directory that its walk comes to (`Reaches`). What
it is denied it leaves out, and any other failure ends it, so it succeeds exactly if none of these
readings fails for another reason than a denial (`OnlyDenied`, `picked_ok_iff`).

The bound on the levels never shows. A directory that lies deeper has a path that the disk does not
take, and reading it fails anyway (`below_ok_iff`).
-/

namespace Baseline.Scan

variable {d : Disk} {r : ScanRules} {root p : Path} {base place : Place} {name : Bytes}
  {found : List Path}

/-- If a reading fails, it is for want of rights. -/
def AtMostDenied {α : Type} (reading : ExceptT IoError Id α) : Prop :=
  ∀ e, reading.run = .error e → e.isAccessDenied = true

/-- The walk from a root comes to the directory to which the names lead. -/
structure Reaches (d : Disk) (r : ScanRules) (root : Path) (base : Place) (names : List Bytes) :
    Prop where
  /-- it is a real directory -/
  directory : d.IsDirectory (base ++ names)
  /-- all that it is in, up to the root, can be opened -/
  opened : Opened d root names
  /-- no ignore pattern leaves it out, nor a directory on the way -/
  spared : ∀ front, front ≠ [] → front <+: names → r.ignores (root.along front) = false

/-- Nothing but a denial keeps the scan of a root from what it comes to. -/
structure OnlyDenied (d : Disk) (r : ScanRules) (root : Path) : Prop where
  /-- what the root is -/
  kind : AtMostDenied (d.still.kind root)
  /-- what a root that is a link leads to -/
  target : (d.still.kind root).run = .ok .link → AtMostDenied (d.still.targetKind root)
  /-- the directories to which the walk comes -/
  entries : ∀ base names, d.locate true root = .ok base → Reaches d r root base names →
    AtMostDenied (d.still.entries (root.along names))

theorem reaches_nil (h : d.IsDirectory base) : Reaches d r p base [] where
  directory := by rwa [List.append_nil]
  opened _ hfront hne := absurd (List.prefix_nil.1 hfront) hne
  spared _ hne hfront := absurd (List.prefix_nil.1 hfront) hne

/-- The walk comes through the entries of a directory. To come further the directory has to be
opened, its entry not ignored, and from there the walk goes on in the same way. -/
theorem reaches_cons_iff {names : List Bytes} :
    Reaches d r p base (name :: names) ↔
      Opens d p ∧ r.ignores (p.entry name) = false ∧
        Reaches d r (p.entry name) (base ++ [name]) names := by
  have hplace : base ++ name :: names = base ++ [name] ++ names := by
    rw [List.append_assoc, List.singleton_append]
  constructor
  · rintro ⟨hdirectory, hopened, hspared⟩
    refine ⟨hopened [] List.nil_prefix (List.cons_ne_nil _ _).symm,
      hspared [name] (List.cons_ne_nil _ _) ⟨names, rfl⟩, hplace ▸ hdirectory, ?_, ?_⟩
    · exact fun front hfront hne => hopened (name :: front) (List.cons_prefix_cons.2 ⟨rfl, hfront⟩)
        fun heq => hne (List.cons.inj heq).2
    · exact fun front _ hfront =>
        hspared (name :: front) (List.cons_ne_nil _ _) (List.cons_prefix_cons.2 ⟨rfl, hfront⟩)
  · rintro ⟨hopens, hignores, hdirectory, hopened, hspared⟩
    refine ⟨hplace ▸ hdirectory, fun front hfront hne => ?_, fun front hne hfront => ?_⟩
    · cases front with
      | nil => exact hopens
      | cons first front =>
        obtain ⟨rfl, hbelow⟩ := List.cons_prefix_cons.1 hfront
        exact hopened front hbelow fun heq => hne (heq ▸ rfl)
    · cases front with
      | nil => exact absurd rfl hne
      | cons first front =>
        obtain ⟨rfl, hbelow⟩ := List.cons_prefix_cons.1 hfront
        by_cases hnil : front = []
        · rw [hnil]
          exact hignores
        · exact hspared front hnil hbelow

/-- A walk comes only to directories below a root that is one. -/
theorem Reaches.isDirectory {names : List Bytes} (h : Reaches d r root base names)
    (htree : d.Tree) : d.IsDirectory base := by
  by_cases hnil : names = []
  · have hdirectory := h.directory
    rwa [hnil, List.append_nil] at hdirectory
  · obtain ⟨rights, hnode⟩ := Disk.isDirectory_iff.1 h.directory
    have hpresent : d.get? (base ++ names) ≠ none := by
      rw [hnode]
      exact Option.some_ne_none _
    exact htree.isDirectory_of_append hnil hpresent

/-! ## Through the entries of a directory -/

/-- Among some entries the scan succeeds if it succeeds at each. -/
theorem pickAmong_ok_iff {descend : Path → ExceptT Error Id (List Path)} {entries : List Entry} :
    (∃ found, (pickAmong r descend p entries).run = .ok found) ↔
      ∀ entry ∈ entries, ∃ found, (pickAt r descend p entry).run = .ok found := by
  induction entries with
  | nil => exact ⟨fun _ _ h => absurd h List.not_mem_nil, fun _ => ⟨[], rfl⟩⟩
  | cons entry entries ih =>
    rw [List.forall_mem_cons, ← ih, pickAmong_cons]
    constructor
    · rintro ⟨found, h⟩
      obtain ⟨first, hfirst, h⟩ := run_bind_eq_ok_iff.1 h
      obtain ⟨rest, hrest, -⟩ := run_bind_eq_ok_iff.1 h
      exact ⟨⟨first, hfirst⟩, rest, hrest⟩
    · rintro ⟨⟨first, hfirst⟩, rest, hrest⟩
      exact ⟨first ++ rest, run_bind_eq_ok_iff.2 ⟨first, hfirst,
        run_bind_eq_ok_iff.2 ⟨rest, hrest, rfl⟩⟩⟩

/-- At an entry the scan succeeds unless it descends and does not succeed there. -/
theorem pickAt_ok_iff {descend : Path → ExceptT Error Id (List Path)} {entry : Entry} :
    (∃ found, (pickAt r descend p entry).run = .ok found) ↔
      (r.ignores (p.entry entry.name) = false → entry.kind = .directory →
        ∃ found, (descend (p.entry entry.name)).run = .ok found) := by
  rw [pickAt]
  split
  · next hignored =>
    exact ⟨fun _ hspared => Bool.noConfusion (hignored.symm.trans hspared), fun _ => ⟨[], rfl⟩⟩
  · next hignored =>
    have hspared := Bool.eq_false_iff.2 hignored
    split
    · next hkind => exact ⟨fun h _ _ => h, fun h => h hspared hkind⟩
    · next hkind =>
      refine ⟨fun _ _ hother => ?_, fun _ => ⟨_, rfl⟩⟩
      cases hkind.symm.trans hother
    · next hkind =>
      refine ⟨fun _ _ hother => ?_, fun _ => ⟨_, rfl⟩⟩
      cases hkind.symm.trans hother

/-! ## Through the levels -/

/-- A reading that is passed on succeeds if it fails by a denial, or succeeds and what follows
does. -/
theorem whenRead_ok_iff {α : Type} {reading : ExceptT IoError Id α}
    {go : α → ExceptT Error Id (List Path)} :
    (∃ found, (whenRead silent p reading go).run = .ok found) ↔
      AtMostDenied reading ∧ ∀ a, reading.run = .ok a → ∃ found, (go a).run = .ok found := by
  constructor
  · rintro ⟨found, h⟩
    rcases whenRead_eq_ok_iff.1 h with ⟨-, e, herr, hdenied⟩ | ⟨a, ha, h⟩
    · refine ⟨fun e' herr' => ?_, fun a ha => nomatch herr.symm.trans ha⟩
      rwa [← Except.error.inj (herr.symm.trans herr')]
    · refine ⟨fun e herr => absurd (ha.symm.trans herr) nofun, fun a' ha' => ⟨found, ?_⟩⟩
      rwa [← Except.ok.inj (ha.symm.trans ha')]
  · rintro ⟨hdenied, hgo⟩
    cases hread : reading.run with
    | error e => exact ⟨[], whenRead_eq_ok_iff.2 (.inl ⟨rfl, e, hread, hdenied e hread⟩)⟩
    | ok a =>
      obtain ⟨found, h⟩ := hgo a hread
      exact ⟨found, whenRead_eq_ok_iff.2 (.inr ⟨a, hread, h⟩)⟩

/-- A path that is too long for the disk is not read, and not for want of rights. -/
theorem not_atMostDenied_of_length (h : Disk.pathLimit ≤ p.bytes.length) :
    ¬ AtMostDenied (d.still.entries p) := by
  intro hdenied
  have hread : d.readDirectory p = .error .nameTooLong := by
    have hne : p.bytes ≠ [] := fun hnil => by simp [hnil, Disk.pathLimit] at h
    rw [Disk.readDirectory, Disk.locate, Disk.accepts, if_neg (by simpa using hne), if_pos h]
    rfl
  have hrun : (d.still.entries p).run = Disk.request [p] (d.readDirectory p) := rfl
  rw [hread] at hrun
  by_cases hzero : p.bytes.contains 0 = true
  · rw [Disk.request, if_pos (by simpa using hzero)] at hrun
    cases hdenied _ hrun
  · rw [Disk.request, if_neg (by simpa using hzero)] at hrun
    cases hdenied _ hrun

theorem length_lt_entry (p : Path) (hname : name ≠ []) :
    p.bytes.length < (p.entry name).bytes.length := by
  have hpos : 0 < name.length := List.length_pos_iff.2 hname
  rw [Path.entry, Path.underSlash]
  split
  · simp only [List.length_append]
    omega
  · simp only [List.length_append, List.length_cons]
    omega

/-- Below a directory the scan succeeds exactly if nothing but a denial keeps it from the
directories to which it comes. -/
theorem below_ok_iff (htree : d.Tree) {levels : Nat} (hbase : d.IsDirectory base)
    (hlocate : ∀ place, d.locate true p = .ok place → place = base)
    (hlevels : Disk.pathLimit ≤ levels + p.bytes.length) :
    (∃ found, (below d.still silent r levels p).run = .ok found) ↔
      ∀ names, Reaches d r p base names → AtMostDenied (d.still.entries (p.along names)) := by
  induction levels generalizing p base with
  | zero =>
    refine ⟨fun ⟨_, h⟩ => (nomatch h), fun h => ?_⟩
    rw [Nat.zero_add] at hlevels
    exact absurd (h [] (reaches_nil hbase)) (not_atMostDenied_of_length hlevels)
  | succ levels ih =>
    rw [below, whenRead_ok_iff]
    -- what is due of the entries is due of the directories below them
    have hbelow {entries : List Entry} (hentries : (d.still.entries p).run = .ok entries)
        {entry : Entry} (hmem : entry ∈ entries) (hkind : entry.kind = .directory) :
        (∃ found, (below d.still silent r levels (p.entry entry.name)).run = .ok found) ↔
          ∀ names, Reaches d r (p.entry entry.name) (base ++ [entry.name]) names →
            AtMostDenied (d.still.entries ((p.entry entry.name).along names)) := by
      obtain ⟨place, hplace, -, rfl⟩ := of_entries hentries
      obtain rfl := hlocate place hplace
      obtain ⟨node, hnode, hsame⟩ := htree.mem_entriesAt.1 hmem
      have hsub : d.IsDirectory (place ++ [entry.name]) := by
        rw [Disk.IsDirectory, Disk.kind?, hnode, ← hkind, ← hsame]
        rfl
      have hlonger := length_lt_entry p (htree.inside_of_get? hnode).1.ne_nil
      exact ih hsub (fun _ => locate_entry htree hplace hbase hsub) (by omega)
    constructor
    · rintro ⟨hdenied, hgo⟩ names hreaches
      cases names with
      | nil => exact hdenied
      | cons name names =>
        obtain ⟨⟨entries, hentries⟩, hspared, hreaches⟩ := reaches_cons_iff.1 hreaches
        obtain ⟨place, hplace, -, hread⟩ := of_entries hentries
        obtain rfl := hlocate place hplace
        -- the directory of that name is among the entries that were read
        obtain ⟨rights, hnode⟩ := Disk.isDirectory_iff.1 (hreaches.isDirectory htree)
        have hmem : (⟨name, .directory⟩ : Entry) ∈ entries := by
          rw [hread]
          exact htree.mem_entriesAt.2 ⟨_, hnode, rfl⟩
        have hat := pickAmong_ok_iff.1 (hgo entries hentries) _
          ((inOrder_perm entries).mem_iff.2 hmem)
        exact (hbelow hentries hmem rfl).1 (pickAt_ok_iff.1 hat hspared rfl) names hreaches
    · intro h
      refine ⟨h [] (reaches_nil hbase), fun entries hentries => ?_⟩
      rw [pickAmong_ok_iff]
      intro entry hentry
      rw [pickAt_ok_iff]
      intro hspared hkind
      have hmem := (inOrder_perm entries).mem_iff.1 hentry
      exact (hbelow hentries hmem hkind).2 fun names hreaches =>
        h (entry.name :: names) (reaches_cons_iff.2 ⟨⟨entries, hentries⟩, hspared, hreaches⟩)

/-! ## From the root -/

/-- A root that is a directory, or is asked what it leads to and leads to one, is located. -/
theorem locate_of_kind {through : Bool}
    (h : Disk.request [root] ((d.nodeAt through root).map Node.kind) = .ok .directory) :
    ∃ base, d.locate true root = .ok base ∧ d.IsDirectory base := by
  have hkind := (Disk.request_eq_ok_iff.1 h).2
  cases hnode : d.nodeAt through root with
  | error e =>
    rw [hnode] at hkind
    cases hkind
  | ok node =>
    rw [hnode] at hkind
    obtain ⟨base, hlocate, hget⟩ := bind_eq_ok_iff.1 hnode
    have hbase : d.IsDirectory base := by
      cases hget? : d.get? base with
      | none =>
        rw [hget?] at hget
        cases hget
      | some other =>
        rw [hget?] at hget
        obtain rfl : other = node := Except.ok.inj hget
        rw [Disk.IsDirectory, Disk.kind?, hget?, ← Except.ok.inj hkind]
        rfl
    exact ⟨base, locate_of_isDirectory hlocate hbase, hbase⟩

/-- No bound on the levels shows from a root that is located. -/
theorem below_root_ok_iff (htree : d.Tree) (hlocate : d.locate true root = .ok base)
    (hbase : d.IsDirectory base) :
    (∃ found, (below d.still silent r depthLimit root).run = .ok found) ↔
      ∀ names, Reaches d r root base names → AtMostDenied (d.still.entries (root.along names)) := by
  refine below_ok_iff htree hbase (fun place hplace => ?_) (Nat.le_add_right _ _)
  exact Except.ok.inj (hplace.symm.trans hlocate)

/-- **When a scan succeeds.** On a tree a scan with rules succeeds exactly if nothing but a denial
keeps it from what it comes to. -/
theorem picked_ok_iff (htree : d.Tree) :
    (∃ found, (picked d.still silent r root).run = .ok found) ↔ OnlyDenied d r root := by
  rw [picked, whenRead_ok_iff]
  constructor
  · rintro ⟨hkind, hgo⟩
    refine ⟨hkind, fun hlink => ?_, fun base names hlocate hreaches => ?_⟩
    · exact (whenRead_ok_iff.1 (hgo .link hlink)).1
    · have hbase := hreaches.isDirectory htree
      have hzero : 0 ∉ root.bytes := by
        intro hmem
        have hrun : (d.still.kind root).run = .error .zeroByte := by
          have hany : ([root].any fun p => p.bytes.contains 0) = true := by simpa using hmem
          exact if_pos hany
        exact absurd (hkind _ hrun) nofun
      rcases kind_of_locate hzero hlocate hbase with hread | ⟨hread, htarget⟩
      · exact (below_root_ok_iff htree hlocate hbase).1 (hgo .directory hread) names hreaches
      · have hleads := (whenRead_ok_iff.1 (hgo .link hread)).2 .directory htarget
        exact (below_root_ok_iff htree hlocate hbase).1 hleads names hreaches
  · intro h
    refine ⟨h.kind, fun kind hkind => ?_⟩
    cases kind with
    | file => exact ⟨_, rfl⟩
    | directory =>
      obtain ⟨base, hlocate, hbase⟩ := locate_of_kind hkind
      exact (below_root_ok_iff htree hlocate hbase).2 fun names => h.entries base names hlocate
    | link =>
      refine whenRead_ok_iff.2 ⟨h.target hkind, fun target htarget => ?_⟩
      cases target with
      | file => exact ⟨_, rfl⟩
      | link => exact ⟨_, rfl⟩
      | directory =>
        obtain ⟨base, hlocate, hbase⟩ := locate_of_kind htarget
        exact (below_root_ok_iff htree hlocate hbase).2 fun names => h.entries base names hlocate

end Baseline.Scan

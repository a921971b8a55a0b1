import Baseline.Proofs.Scan.Exact
import Baseline.Proofs.Sweep.Strays
import Mathlib.Data.List.Sort

/-!
# What ignore patterns leave

An ignored directory is never opened, so a scan with more ignore patterns is a shorter walk, and two
lists of them can cut it at different depths. What is found is the same as if the walk were not cut
at all and what is below an ignored entry were left out afterwards: the files that are due
(`due_append_iff`). With two lists together a scan therefore finds what it finds with each of them,
in the one order that there is (`picked_append`).

Only what is ignored counts, not how the patterns say it, so their order does not, nor how often
they come, nor the texts among them that are no patterns (`picked_congr`). Where a scan succeeds,
one that ignores more does too, because it comes to fewer directories (`OnlyDenied.mono`).
`IgnoreLaw` puts all of this together.
-/

namespace Baseline.Scan

variable {d : Disk} {r r' : ScanRules} {root : Path} {base : Place} {names : List Bytes}

/-! ## Rules that ignore the same -/

section

variable {m : Type → Type} [Monad m] {v : View m} {note : Note → m Unit}

theorem pickAmong_congr (hname : r.name = r'.name) (hignores : ∀ p, r.ignores p = r'.ignores p)
    {descend descend' : Path → ExceptT Error m (List Path)} (hdescend : descend = descend')
    (folder : Path) (entries : List Entry) :
    pickAmong r descend folder entries = pickAmong r' descend' folder entries := by
  induction entries with
  | nil => rfl
  | cons entry entries ih =>
    have hpicks (name : Bytes) : r.picks name = r'.picks name := by
      rw [ScanRules.picks, hname, ScanRules.picks]
    rw [pickAmong_cons, pickAmong_cons, ih, pickAt, pickAt]
    simp only [hignores, hpicks, hdescend]

/-- A walk asks its rules for two things only, the name that fits and whether a path is ignored, so
rules that agree in both give the same walk on every level. -/
theorem below_congr (hname : r.name = r'.name) (hignores : ∀ p, r.ignores p = r'.ignores p)
    (levels : Nat) : below v note r levels = below v note r' levels := by
  induction levels with
  | zero => rfl
  | succ levels ih =>
    funext folder
    rw [below, below]
    exact congrArg _ (funext fun entries => pickAmong_congr hname hignores ih folder _)

/-- Rules that pick the same names and ignore the same paths give the same scan. -/
theorem picked_congr (hname : r.name = r'.name) (hignores : ∀ p, r.ignores p = r'.ignores p) :
    picked v note r root = picked v note r' root := by
  have hpicks : r.picks root.lastName = r'.picks root.lastName := by
    rw [ScanRules.picks, hname, ScanRules.picks]
  rw [picked, picked]
  simp only [hpicks, below_congr hname hignores]

end

/-- A path is ignored by what it reads as: there is a text for it, and one of the patterns fits this
text. A path that is no text is never ignored. -/
theorem ignores_iff {name : Glob.Pattern} {ignored : List Glob.Pattern} {p : Path} :
    (ScanRules.mk name ignored).ignores p = true ↔
      ∃ text, p.text? = some text ∧ ∃ pattern ∈ ignored, pattern.fits text = true := by
  rw [ScanRules.ignores]
  cases p.text? <;> simp

/-! ## Rules that ignore more -/

/-- What is picked under one list of patterns is picked under another that spares it and all
directories on the way to it. -/
theorem Picks.mono (h : Picks d r root base names) (hname : r.name = r'.name)
    (hspared : ∀ front, front ≠ [] → front <+: names → r'.ignores (root.along front) = false) :
    Picks d r' root base names where
  file := h.file
  fits := by
    have hfits := h.fits
    rwa [ScanRules.picks, hname] at hfits
  spared := hspared
  located := h.located

/-- Two lists of patterns ignore what either ignores. -/
theorem ignores_append (name : Glob.Pattern) (first second : List Glob.Pattern) (p : Path) :
    (ScanRules.mk name (first ++ second)).ignores p =
      ((ScanRules.mk name first).ignores p || (ScanRules.mk name second).ignores p) := by
  rw [ScanRules.ignores, ScanRules.ignores, ScanRules.ignores]
  cases p.text? with
  | none => rfl
  | some text => exact List.any_append

/-- What is due with two lists of ignore patterns is what is due with each of them. -/
theorem due_append_iff {name : Glob.Pattern} {first second : List Glob.Pattern} :
    Due d ⟨name, first ++ second⟩ root names ↔
      Due d ⟨name, first⟩ root names ∧ Due d ⟨name, second⟩ root names := by
  constructor
  · rintro ⟨⟨base, hpicks, hfolders⟩, hopened, hseen⟩
    have hspared (front : List Bytes) (hne : front ≠ []) (hfront : front <+: names) :=
      Bool.or_eq_false_iff.1 ((ignores_append _ _ _ _).symm.trans
        (hpicks.spared front hne hfront))
    exact ⟨⟨⟨base, hpicks.mono rfl fun front hne hfront => (hspared front hne hfront).1, hfolders⟩,
        hopened, hseen⟩,
      ⟨⟨base, hpicks.mono rfl fun front hne hfront => (hspared front hne hfront).2, hfolders⟩,
        hopened, hseen⟩⟩
  · rintro ⟨⟨⟨base, hpicks, hfolders⟩, hopened, hseen⟩, ⟨⟨other, hpicks', -⟩, -, -⟩⟩
    refine ⟨⟨base, hpicks.mono rfl fun front hne hfront => ?_, hfolders⟩, hopened, hseen⟩
    rw [ignores_append, hpicks.spared front hne hfront, hpicks'.spared front hne hfront]
    rfl

/-- More patterns reach no further. -/
theorem Reaches.mono (h : Reaches d r' root base names)
    (hignores : ∀ p, r.ignores p = true → r'.ignores p = true) : Reaches d r root base names where
  directory := h.directory
  opened := h.opened
  spared front hne hfront := by
    refine Bool.eq_false_iff.2 fun hignored => ?_
    exact Bool.noConfusion ((h.spared front hne hfront).symm.trans (hignores _ hignored))

/-- A scan that ignores more comes to fewer directories, so it succeeds where one that ignores less
does. -/
theorem OnlyDenied.mono (h : OnlyDenied d r root)
    (hignores : ∀ p, r.ignores p = true → r'.ignores p = true) : OnlyDenied d r' root where
  kind := h.kind
  target := h.target
  entries base names hlocate hreaches := h.entries base names hlocate (hreaches.mono hignores)

/-! ## Two lists together -/

/-- What is in order is told by what is in it. -/
theorem eq_filter_of_sorted {tails other both : List (List Bytes)} (hboth : both.Pairwise (· < ·))
    (htails : tails.Pairwise (· < ·))
    (hmem : ∀ names, names ∈ both ↔ names ∈ tails ∧ names ∈ other) :
    both = tails.filter (· ∈ other) := by
  refine hboth.eq_of_mem_iff (htails.filter _) fun names => ?_
  rw [hmem, List.mem_filter, decide_eq_true_iff]

/-- Paths that are due are told apart by their names. -/
theorem map_along_filter (htree : d.Tree) {tails other : List (List Bytes)}
    (htails : ∀ names ∈ tails, Due d r root names)
    (hother : ∀ names ∈ other, Due d r' root names) :
    (tails.filter (· ∈ other)).map root.along =
      (tails.map root.along).filter (· ∈ other.map root.along) := by
  rw [List.filter_map]
  refine congrArg _ (List.filter_congr fun names hnames => ?_)
  rw [Function.comp_apply, decide_eq_decide, List.mem_map]
  refine ⟨fun hmem => ⟨names, hmem, rfl⟩, ?_⟩
  rintro ⟨same, hsame, halong⟩
  rwa [← along_inj ((hother same hsame).isPiece htree) ((htails names hnames).isPiece htree) halong]

/-- With two lists of ignore patterns together a scan finds what it finds with each of them, in the
order of either. -/
theorem picked_append (htree : d.Tree) {name : Glob.Pattern} {first second : List Glob.Pattern}
    {found other both : List Path}
    (hfound : (picked d.still silent ⟨name, first⟩ root).run = .ok found)
    (hother : (picked d.still silent ⟨name, second⟩ root).run = .ok other)
    (hboth : (picked d.still silent ⟨name, first ++ second⟩ root).run = .ok both) :
    both = found.filter (· ∈ other) ∧ both = other.filter (· ∈ found) := by
  obtain ⟨-, tails, rfl, hsorted, -, hdue⟩ := findsDue_of_picked htree hfound
  obtain ⟨-, tails', rfl, hsorted', -, hdue'⟩ := findsDue_of_picked htree hother
  obtain ⟨-, left, rfl, hleft, -, hmem⟩ := findsDue_of_picked htree hboth
  have hiff (names : List Bytes) : names ∈ left ↔ names ∈ tails ∧ names ∈ tails' := by
    rw [hmem, hdue, hdue', due_append_iff]
  have htails := fun names hnames => (hdue names).1 hnames
  have htails' := fun names hnames => (hdue' names).1 hnames
  constructor
  · rw [← map_along_filter htree htails htails', ← eq_filter_of_sorted hleft hsorted hiff]
  · rw [← map_along_filter htree htails' htails,
      ← eq_filter_of_sorted hleft hsorted' fun names => (hiff names).trans and_comm]

/-! ## The patterns among some texts -/

section

variable {name : Glob.Pattern} {first second fewer more : List String}

/-- Texts that are no patterns drop out one by one, so lists put together give the patterns of both.
-/
theorem patterns_append (first second : List String) :
    patterns (first ++ second) = patterns first ++ patterns second :=
  List.filterMap_append

/-- A text that is no pattern makes no difference. -/
theorem patterns_of_error {glob : String} {e : Glob.PatternError}
    (h : Glob.Pattern.parse glob = .error e) (before behind : List String) :
    patterns (before ++ glob :: behind) = patterns (before ++ behind) := by
  have hdropped : patterns (glob :: behind) = patterns behind :=
    List.filterMap_cons_none (by rw [h]; rfl)
  rw [patterns_append, hdropped, ← patterns_append]

/-- What is ignored with some texts is ignored with more. -/
theorem ignores_mono (hsub : fewer ⊆ more) {p : Path}
    (hignored : (ScanRules.mk name (patterns fewer)).ignores p = true) :
    (ScanRules.mk name (patterns more)).ignores p = true := by
  obtain ⟨text, htext, pattern, hpattern, hfits⟩ := ignores_iff.1 hignored
  obtain ⟨glob, hglob, hparse⟩ := List.mem_filterMap.1 hpattern
  exact ignores_iff.2 ⟨text, htext, pattern, List.mem_filterMap.2 ⟨glob, hsub hglob, hparse⟩, hfits⟩

/-- Only the set of the texts counts. -/
theorem picked_reordered {m : Type → Type} [Monad m] {v : View m} {note : Note → m Unit}
    (hsame : ∀ glob, glob ∈ first ↔ glob ∈ second) :
    picked v note ⟨name, patterns first⟩ root = picked v note ⟨name, patterns second⟩ root := by
  refine picked_congr rfl fun p => Bool.eq_iff_iff.2 ⟨ignores_mono ?_, ignores_mono ?_⟩
  · exact fun glob => (hsame glob).1
  · exact fun glob => (hsame glob).2

/-- With more patterns there is less to walk through, so a walk that succeeds with few of them
succeeds with more. An error can only come from a directory that is reached. -/
theorem exists_picked_of_subset (htree : d.Tree) (hsub : fewer ⊆ more) {found : List Path}
    (h : (picked d.still silent ⟨name, patterns fewer⟩ root).run = .ok found) :
    ∃ left, (picked d.still silent ⟨name, patterns more⟩ root).run = .ok left := by
  have hdenied := (picked_ok_iff htree).1 ⟨found, h⟩
  exact (picked_ok_iff htree).2 (hdenied.mono fun _ => ignores_mono hsub)

/-- With more texts a scan finds less. What is left stands in the same order, as a sublist. -/
theorem sublist_of_subset (htree : d.Tree) (hsub : fewer ⊆ more) {found left : List Path}
    (hfound : (picked d.still silent ⟨name, patterns fewer⟩ root).run = .ok found)
    (hleft : (picked d.still silent ⟨name, patterns more⟩ root).run = .ok left) :
    left.Sublist found := by
  have hsame (glob : String) : glob ∈ fewer ++ more ↔ glob ∈ more := by
    rw [List.mem_append, or_iff_right_of_imp fun hglob => hsub hglob]
  have hboth := hleft
  rw [← picked_reordered hsame, patterns_append] at hboth
  rw [(picked_append htree hfound hleft hboth).1]
  exact List.filter_sublist

end

/-! ## The law -/

/-- Fewer finds on the disk are fewer strays. -/
theorem strays_sublist {left onDisk : List String} (h : left.Sublist onDisk)
    (touched : List String) : (strays touched left).Sublist (strays touched onDisk) :=
  (h.map keyText).filter _

/-- What ignore patterns do to a scan, which is given by what comes of it with each list of them. -/
structure IgnoreLaw (scan : List String → Except Error (List Path)) : Prop where
  /-- two lists together leave what both leave, in the order in which either leaves it -/
  composed : ∀ {first second found other}, scan first = .ok found → scan second = .ok other →
    scan (first ++ second) = .ok (found.filter (· ∈ other)) ∧
      found.filter (· ∈ other) = other.filter (· ∈ found)
  /-- their order makes no difference, nor how often one comes -/
  reordered : ∀ {first second}, (∀ glob, glob ∈ first ↔ glob ∈ second) → scan first = scan second
  /-- a text that is no pattern makes none -/
  invalid : ∀ {glob e}, Glob.Pattern.parse glob = .error e → ∀ before behind,
    scan (before ++ glob :: behind) = scan (before ++ behind)
  /-- the more is ignored, the fewer of the strays are left, and those in their order -/
  protects : ∀ {fewer more found}, fewer ⊆ more → scan fewer = .ok found →
    ∃ left, scan more = .ok left ∧ left.Sublist found ∧ ∀ touched,
      (strays touched (left.filterMap Path.text?)).Sublist
        (strays touched (found.filterMap Path.text?))

/-- The law of ignoring for the walk below a root, with each clause from the two directions of what
is found. The law for a whole scan is this one, with the patterns parsed. -/
theorem ignoreLaw_picked (htree : d.Tree) (name : Glob.Pattern) (root : Path) :
    IgnoreLaw fun ignored => (picked d.still silent ⟨name, patterns ignored⟩ root).run where
  composed {first second found other} hfound hother := by
    obtain ⟨both, hboth⟩ :=
      exists_picked_of_subset htree (List.subset_append_left first second) hfound
    have happend := hboth
    rw [patterns_append] at happend
    obtain ⟨hleft, hright⟩ := picked_append htree hfound hother happend
    exact ⟨hleft ▸ hboth, hleft.symm.trans hright⟩
  reordered hsame := by rw [picked_reordered hsame]
  invalid herror before behind := by rw [patterns_of_error herror]
  protects hsub hfound := by
    obtain ⟨left, hleft⟩ := exists_picked_of_subset htree hsub hfound
    have hsublist := sublist_of_subset htree hsub hfound hleft
    exact ⟨left, hleft, hsublist, strays_sublist (hsublist.filterMap _)⟩

/-- A scan that always fails in the same way obeys the law. -/
theorem ignoreLaw_error (e : Error) : IgnoreLaw fun _ => .error e where
  composed h := nomatch h
  reordered _ := rfl
  invalid _ _ _ := rfl
  protects _ h := nomatch h

section

variable {ι : Type} (next : ExceptT IoError (StateM ι) String) (t : Traced (Desk Disk ι))

/-- What comes of a scan on a desk with some ignore patterns. -/
def foundOn (root : Path) (fitting : String) (ignored : List String) :
    Except Error (List Path) :=
  ((run Desk.diskView (Desk.diskOutside next).note root fitting ignored).run.run t).1

/-- On a desk a scan finds what it finds on the disk alone, whatever is noted on the way. -/
theorem foundOn_eq (root : Path) (fitting : String) (ignored : List String) :
    foundOn next t root fitting ignored =
      (run t.state.store.still silent root fitting ignored).run := by
  obtain ⟨remarks, -, hrun⟩ := Mirrors.scan
    (Reads.note Disk.move Disk.delete next t.state.store) root fitting ignored t rfl
  exact congrArg Prod.fst hrun

/-- **Ignore patterns only protect, and they compose.** On a tree, from any root and with any
pattern for the names, a scan with two lists of ignore patterns finds what it finds with each of
them, in the same order, wherever the two cut its walk. So only the set of the patterns counts and
texts that are none do not, and with more of them no other baselines come to be strays. -/
theorem foundOn_ignoring (htree : t.state.store.Tree) (root : Path) (fitting : String) :
    IgnoreLaw (foundOn next t root fitting) := by
  rw [funext (foundOn_eq next t root fitting)]
  cases hpattern : Glob.Pattern.parse fitting with
  | error e =>
    have hfails : (fun ignored => (run t.state.store.still silent root fitting ignored).run) =
        fun _ => .error (.pattern e) := by
      funext ignored
      rw [run, hpattern]
      rfl
    rw [hfails]
    exact ignoreLaw_error (.pattern e)
  | ok name =>
    simp only [run_eq_picked hpattern]
    exact ignoreLaw_picked htree name root

/-- Two lists that cut the walk in different places, and leave one file together. -/
theorem foundOn_ignoring_mixed :
    mixed.Tree ∧
      foundOn Script.next (.start ⟨mixed, ⟨[]⟩, none⟩) (.ofString "/w") "*.approved.*" ["**/old"] =
        .ok [.ofString "/w/a/c.approved.txt", .ofString "/w/a-b.approved.txt"] ∧
      foundOn Script.next (.start ⟨mixed, ⟨[]⟩, none⟩) (.ofString "/w") "*.approved.*" ["**/a"] =
        .ok [.ofString "/w/a-b.approved.txt", .ofString "/w/old/e.approved.txt"] ∧
      foundOn Script.next (.start ⟨mixed, ⟨[]⟩, none⟩) (.ofString "/w") "*.approved.*"
        ["**/old", "**/a"] = .ok [.ofString "/w/a-b.approved.txt"] := by
  have htree : mixed.Tree := by decide +kernel
  have hold : foundOn Script.next (.start ⟨mixed, ⟨[]⟩, none⟩) (.ofString "/w") "*.approved.*"
      ["**/old"] = .ok [.ofString "/w/a/c.approved.txt", .ofString "/w/a-b.approved.txt"] := by
    decide +kernel
  have ha : foundOn Script.next (.start ⟨mixed, ⟨[]⟩, none⟩) (.ofString "/w") "*.approved.*"
      ["**/a"] = .ok [.ofString "/w/a-b.approved.txt", .ofString "/w/old/e.approved.txt"] := by
    decide +kernel
  have hlaw := foundOn_ignoring Script.next (.start ⟨mixed, ⟨[]⟩, none⟩) htree (.ofString "/w")
    "*.approved.*"
  exact ⟨htree, hold, ha, (hlaw.composed hold ha).1.trans (by decide +kernel)⟩

end

end Baseline.Scan

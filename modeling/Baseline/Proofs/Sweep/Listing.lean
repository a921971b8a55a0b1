import Baseline.Proofs.Desk.Output
import Baseline.Proofs.Key.Folder
import Baseline.Proofs.Session.Survey
import Baseline.Proofs.Sweep.Strays

/-!
# Listings tell the strays

A listing shows each stray by its name and its folder, and neither of them is escaped: a name may
hold blanks, parentheses and ` (in ` itself. For a path from the top the line can be read all the
same. The folder starts with a slash and the name holds none, so what stands in front of the first
slash of the line tells the name (`takeWhile_strayLine`), and the rest tells the folder. The two
tell the key (`strayLine_inj`).

Hence two listings are the same only if they list the same keys (`listing_inj`), and whoever agrees
to a listing agrees to the deletion of these.
-/

namespace Baseline

variable {p q : String} {listed other : List String}

/-! ## One line -/

/-- In front of the first slash stands the name. -/
theorem takeWhile_strayLine (h : StartsAtTop p) :
    (strayLine p).toList.takeWhile (· != '/') = (" - " ++ nameOf p ++ " (in ").toList := by
  obtain ⟨rest, hfolder⟩ := toList_folderOf h
  have hslash : '/' ∉ (" - " ++ nameOf p ++ " (in ").toList := by
    rw [String.toList_append, String.toList_append, List.mem_append, List.mem_append]
    rintro ((hmem | hmem) | hmem)
    · exact absurd hmem (by decide)
    · exact slash_notMem_nameOf p hmem
    · exact absurd hmem (by decide)
  have hfront : ∀ c ∈ (" - " ++ nameOf p ++ " (in ").toList, (c != '/') = true :=
    fun c hc => bne_iff_ne.2 (ne_of_mem_of_not_mem hc hslash)
  rw [strayLine, String.toList_append, String.toList_append, List.append_assoc, hfolder,
    List.takeWhile_append_of_pos hfront]
  exact List.append_nil _

/-- The line of a path from the top tells its key. -/
theorem strayLine_inj (hp : StartsAtTop p) (hq : StartsAtTop q) :
    strayLine p = strayLine q ↔ keyText p = keyText q := by
  rw [keyText_eq_iff_name_folder]
  constructor
  · intro h
    have hname : nameOf p = nameOf q := by
      have hfront := congrArg (fun line => line.toList.takeWhile (· != '/')) h
      rwa [takeWhile_strayLine hp, takeWhile_strayLine hq, String.toList_inj,
        String.append_left_inj, String.append_right_inj] at hfront
    refine ⟨hname, ?_⟩
    rwa [strayLine, strayLine, hname, String.append_left_inj, String.append_right_inj] at h
  · rintro ⟨hname, hfolder⟩
    rw [strayLine, strayLine, hname, hfolder]

/-! ## A whole listing -/

/-- Listings of rooted paths are equal exactly if their keys are, one by one and in order. -/
theorem map_strayLine_inj (hlisted : ∀ p ∈ listed, StartsAtTop p)
    (hother : ∀ q ∈ other, StartsAtTop q) :
    listed.map strayLine = other.map strayLine ↔ listed.map keyText = other.map keyText := by
  induction listed generalizing other with
  | nil => simp
  | cons p listed ih =>
    cases other with
    | nil => simp
    | cons q other =>
      obtain ⟨hp, hlisted⟩ := List.forall_mem_cons.1 hlisted
      obtain ⟨hq, hother⟩ := List.forall_mem_cons.1 hother
      rw [List.map_cons, List.map_cons, List.map_cons, List.map_cons, List.cons.injEq,
        List.cons.injEq, strayLine_inj hp hq, ih hlisted hother]

/-- A listing tells the keys of what it lists, in their order. -/
theorem listing_inj (hlisted : ∀ p ∈ listed, StartsAtTop p)
    (hother : ∀ q ∈ other, StartsAtTop q) :
    listing listed = listing other ↔ listed.map keyText = other.map keyText := by
  -- the first line says whether anything is listed at all
  have hfirst : "No unused `.approved.` files found." ≠ "Unused `.approved.` files found." := by
    decide
  cases listed with
  | nil =>
    cases other with
    | nil => exact iff_of_true rfl rfl
    | cons q other => exact iff_of_false (fun h => hfirst (List.cons.inj h).1) nofun
  | cons p listed =>
    cases other with
    | nil => exact iff_of_false (fun h => hfirst (List.cons.inj h).1.symm) nofun
    | cons q other =>
      rw [listing, listing, List.append_cancel_left_eq, map_strayLine_inj hlisted hother]
      · exact List.cons_ne_nil q other
      · exact List.cons_ne_nil p listed

/-! ## What sessions list -/

/-- The strays of a session are spelled from the top. -/
theorem startsAtTop_of_survey {d : Disk} {s : Settings} {touched : List String}
    {found : List Path} (htree : d.Tree) (h : d.survey s = .ok (touched, found)) :
    ∀ stray ∈ strays touched (found.filterMap Path.text?), StartsAtTop stray := by
  intro stray hstray
  obtain ⟨text, htext, rfl⟩ := List.mem_map.1 (List.mem_of_mem_filter hstray)
  obtain ⟨path, hpath, hdecode⟩ := List.mem_filterMap.1 htext
  have habsolute := (Disk.spelling_of_survey htree h hpath).1
  rw [← Key.rooted_ofPath_iff, ofPath_keyText]
  exact rooted_ofPath (Utf8.encode_of_decode? hdecode) habsolute

/-- **Listings tell the strays.** On an output that does not fail two lists of paths from the top
are listed by the same lines exactly if they have the same keys, in the same order and as many; each
line tells the key of its file, whatever stands in the name and in the folder. The strays of a
session are such paths, each spelled as its own key, so the same lines list the same strays. -/
theorem listing_tells {δ : Type} {o : Outside (StateM δ)} {s s' : δ} (hs : Unfailing o s)
    (hs' : Unfailing o s') (hlisted : ∀ p ∈ listed, StartsAtTop p)
    (hother : ∀ q ∈ other, StartsAtTop q) :
    (written o (listing listed) s = written o (listing other) s' ↔
      listed.map keyText = other.map keyText) ∧
    (∀ p ∈ listed, ∀ q ∈ other, strayLine p = strayLine q ↔ keyText p = keyText q) ∧
    ∀ (d : Disk) (settings : Settings) (touched : List String) (found : List Path), d.Tree →
      d.survey settings = .ok (touched, found) →
      ∀ stray ∈ strays touched (found.filterMap Path.text?),
        StartsAtTop stray ∧ keyText stray = stray := by
  refine ⟨?_, fun p hp q hq => strayLine_inj (hlisted p hp) (hother q hq), ?_⟩
  · rw [written_eq hs, written_eq hs', listing_inj hlisted hother]
  · intro d settings touched found htree hsurvey stray hstray
    refine ⟨startsAtTop_of_survey htree hsurvey stray hstray, ?_⟩
    obtain ⟨path, -, rfl⟩ := List.mem_map.1 (List.mem_of_mem_filter hstray)
    exact keyText_keyText path

/-- A name that looks as if its folder followed, and a folder that looks like the end of a name. -/
def lookalikes : List String := ["/w/a (in b", "/w/b (in ./a", "/"]

/-- The same files, spelled otherwise. -/
def respelledLookalikes : List String := ["\\w\\a (in b", "/w/./b (in .//a", "//"]

/-- Lookalikes are told apart, and other spellings of them are listed by the same lines. -/
theorem listing_tells_lookalikes :
    Unfailing bareDesk emptyDesk ∧ (∀ p ∈ lookalikes, StartsAtTop p) ∧
      (∀ q ∈ respelledLookalikes, StartsAtTop q) ∧
      written bareDesk (listing lookalikes) emptyDesk =
        written bareDesk (listing respelledLookalikes) emptyDesk ∧
      strayLine "/w/a (in b" ≠ strayLine "\\w\\b (in .\\a" := by
  have hplain : ∀ p ∈ lookalikes, StartsAtTop p := by decide
  have hspelled : ∀ q ∈ respelledLookalikes, StartsAtTop q := by decide
  have hmore : ∀ q ∈ ["\\w\\b (in .\\a"], StartsAtTop q := by decide
  obtain ⟨hsame, -, -⟩ := listing_tells unfailing_bareDesk unfailing_bareDesk hplain hspelled
  obtain ⟨-, htold, -⟩ := listing_tells unfailing_bareDesk unfailing_bareDesk hplain hmore
  refine ⟨unfailing_bareDesk, hplain, hspelled, hsame.2 (by decide +kernel), ?_⟩
  exact mt (htold _ (by decide) _ (by decide)).1 (by decide +kernel)

/-- Paths that do not start at the top are not told apart. -/
example :
    strayLine "a (in b" = strayLine "b (in ./a" ∧ keyText "a (in b" ≠ keyText "b (in ./a" := by
  decide +kernel

end Baseline

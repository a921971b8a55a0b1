import Baseline.Proofs.Key.Canonical

/-!
# The name and the folder of a key

Reports show a path by its name and its folder. A key is told by the two together
(`eq_iff_name_folder`): its name is its last part, and is empty only if it has none, and its folder
is the key of all the other parts. The folder is shown as a text, which tells the folder
(`text_inj`), so the name and the folder that are shown tell the comparison text
(`keyText_eq_iff_name_folder`).

The two can also be put together again. Read as a path, the text of a folder has the key of the
folder, and a name has the one part that it is (`Proper.parts_name`), so their join has the key of
the path that was split.
-/

namespace Baseline

variable {p q : String}

namespace Key

variable {k l : Key}

/-! ## The name -/

theorem name_of_parts_eq_nil (h : k.parts = []) : k.name = "" := by
  rw [name, h]
  rfl

theorem name_of_parts_ne_nil (h : k.parts ≠ []) : k.name = k.parts.getLast h := by
  rw [name, List.getLast?_eq_some_getLast h, Option.getD_some]

/-- A name is empty only where there is no part. -/
theorem Proper.name_eq_empty_iff (h : k.Proper) : k.name = "" ↔ k.parts = [] := by
  refine ⟨fun hempty => ?_, name_of_parts_eq_nil⟩
  by_contra hne
  rw [name_of_parts_ne_nil hne] at hempty
  exact (h _ (List.getLast_mem hne)).ne_empty hempty

/-- No separator stands in a name. -/
theorem Proper.plain_name (h : k.Proper) : ∀ c ∈ k.name.toList, isSeparator c = false := by
  by_cases hnil : k.parts = []
  · rw [name_of_parts_eq_nil hnil]
    exact fun c hc => absurd hc List.not_mem_nil
  · rw [name_of_parts_ne_nil hnil]
    exact (h _ (List.getLast_mem hnil)).plain

/-! ## The folder -/

theorem Proper.folder (h : k.Proper) : k.folder.Proper :=
  fun part hpart => h part (List.mem_of_mem_dropLast hpart)

/-- Proper keys are told apart by their texts. -/
theorem text_inj (hk : k.Proper) (hl : l.Proper) : k.text = l.text ↔ k = l :=
  ⟨fun h => by rw [← ofPath_text hk, h, ofPath_text hl], fun h => h ▸ rfl⟩

/-- The parts are those of the folder, and the name if there is one. -/
theorem Proper.parts_eq (h : k.Proper) :
    k.parts = k.folder.parts ++ if k.name = "" then [] else [k.name] := by
  by_cases hnil : k.parts = []
  · rw [if_pos (h.name_eq_empty_iff.2 hnil), Key.folder, hnil]
    rfl
  · rw [if_neg (mt h.name_eq_empty_iff.1 hnil), name_of_parts_ne_nil hnil]
    exact (List.dropLast_concat_getLast hnil).symm

/-- A key is its name and its folder. -/
theorem eq_iff_name_folder (hk : k.Proper) (hl : l.Proper) :
    k = l ↔ k.name = l.name ∧ k.folder = l.folder := by
  refine ⟨fun h => h ▸ ⟨rfl, rfl⟩, fun ⟨hname, hfolder⟩ => ?_⟩
  have hparts : k.parts = l.parts := by rw [hk.parts_eq, hl.parts_eq, hname, hfolder]
  have hrooted : k.folder.rooted = l.folder.rooted := congrArg rooted hfolder
  obtain ⟨rooted, parts⟩ := k
  obtain ⟨rooted', parts'⟩ := l
  obtain rfl : rooted = rooted' := hrooted
  obtain rfl : parts = parts' := hparts
  rfl

end Key

/-- The name and the folder that are shown of a path tell its comparison text. -/
theorem keyText_eq_iff_name_folder :
    keyText p = keyText q ↔ nameOf p = nameOf q ∧ folderOf p = folderOf q := by
  have hp := Key.proper_ofPath p
  have hq := Key.proper_ofPath q
  rw [keyText_inj, Key.eq_iff_name_folder hp hq, nameOf, nameOf, folderOf, folderOf,
    Key.text_inj hp.folder hq.folder]

/-! ## What is shown of a path -/

/-- A name holds no slash. -/
theorem slash_notMem_nameOf (path : String) : '/' ∉ (nameOf path).toList :=
  fun hmem => Bool.noConfusion ((Key.proper_ofPath path).plain_name _ hmem)

/-- The folder of a path from the top is shown from the top. -/
theorem toList_folderOf (h : StartsAtTop p) : ∃ rest, (folderOf p).toList = '/' :: rest := by
  have hrooted : (Key.ofPath p).folder.rooted = true := (Key.rooted_ofPath_iff p).2 h
  refine ⟨(Key.joined (Key.ofPath p).folder.parts).toList, ?_⟩
  rw [folderOf, Key.text, hrooted]
  dsimp only
  rw [String.toList_append]
  rfl

/-- The name of a path is its last component. -/
theorem toList_nameOf (path : String) :
    (nameOf path).toList = (components path).getLast?.getD [] := by
  rw [nameOf, Key.name, Key.parts_ofPath, List.getLast?_map]
  cases (components path).getLast? with
  | none => rfl
  | some part => exact String.toList_ofList

theorem nameOf_eq_empty_iff (path : String) : nameOf path = "" ↔ components path = [] := by
  rw [nameOf, (Key.proper_ofPath path).name_eq_empty_iff, Key.parts_ofPath, List.map_eq_nil_iff]

/-- The folder of a path has the key of the folder, so names and folders may be computed on keys and
read as texts. -/
theorem ofPath_folderOf (path : String) : Key.ofPath (folderOf path) = (Key.ofPath path).folder :=
  Key.ofPath_text (Key.proper_ofPath path).folder

/-- The folder of a path has all the components before the last. -/
theorem components_folderOf (path : String) :
    components (folderOf path) = (components path).dropLast := by
  have hparts : (components (folderOf path)).map String.ofList =
      (components path).dropLast.map String.ofList := by
    rw [← Key.parts_ofPath, ofPath_folderOf, List.map_dropLast, ← Key.parts_ofPath]
    rfl
  exact (List.map_inj_right fun _ _ => String.ofList_inj.1).1 hparts

/-! ## Putting the two together again -/

namespace Key

/-- As a path, a part is relative and has itself as its only part. -/
theorem IsPart.ofPath_eq {part : String} (h : IsPart part) : ofPath part = ⟨false, [part]⟩ := by
  have hproper : Proper ⟨false, [part]⟩ := by
    intro other hother
    rw [List.mem_singleton.1 hother]
    exact h
  exact ofPath_text hproper

/-- As a path, a name has the part that it is, or none. -/
theorem Proper.parts_name {k : Key} (h : k.Proper) :
    (ofPath k.name).parts = if k.name = "" then [] else [k.name] := by
  by_cases hnil : k.parts = []
  · rw [name_of_parts_eq_nil hnil]
    rfl
  · rw [if_neg (mt h.name_eq_empty_iff.1 hnil), name_of_parts_ne_nil hnil,
      (h _ (List.getLast_mem hnil)).ofPath_eq]

end Key

/-- A folder and a name put together have the key that they came from; nothing of the way they were
cut is left. -/
theorem ofPath_rejoined (path : String) :
    Key.ofPath (folderOf path ++ "/" ++ nameOf path) = Key.ofPath path := by
  have hproper := Key.proper_ofPath path
  have hne : folderOf path ≠ "" := (Key.canonical_text hproper.folder).ne_empty
  rw [Key.ofPath_join hne, ofPath_folderOf, nameOf, hproper.parts_name, ← hproper.parts_eq]
  rfl

/-- **Splitting a path loses nothing.** The name of a path is its last component, empty only where
there is none, and no separator stands in it; its folder has all the other components and is shown
as a comparison text. Joined again, the two have the comparison text of the path; and two paths have
one comparison text exactly if they agree in both. -/
theorem keyText_rejoined (p : String) :
    keyText (folderOf p ++ "/" ++ nameOf p) = keyText p ∧
      ('/' ∉ (nameOf p).toList ∧ '\\' ∉ (nameOf p).toList) ∧
      (nameOf p).toList = (components p).getLast?.getD [] ∧
      (nameOf p = "" ↔ components p = []) ∧
      components (folderOf p) = (components p).dropLast ∧
      keyText (folderOf p) = folderOf p ∧ folderOf p ≠ "" ∧
      ∀ q, keyText p = keyText q ↔ nameOf p = nameOf q ∧ folderOf p = folderOf q := by
  have hproper := Key.proper_ofPath p
  have hbackslash : '\\' ∉ (nameOf p).toList := by
    intro hmem
    exact Bool.noConfusion (hproper.plain_name _ hmem)
  have hfolder : keyText (folderOf p) = folderOf p := by
    rw [keyText, ofPath_folderOf]
    rfl
  exact ⟨keyText_inj.2 (ofPath_rejoined p), ⟨slash_notMem_nameOf p, hbackslash⟩, toList_nameOf p,
    nameOf_eq_empty_iff p, components_folderOf p, hfolder,
    (Key.canonical_text hproper.folder).ne_empty, fun _ => keyText_eq_iff_name_folder⟩

/-- The corners: the top, a file in it, a lone name, and nothing. -/
example : (folderOf "\\" = "/" ∧ nameOf "\\" = "") ∧ (folderOf "/a" = "/" ∧ nameOf "/a" = "a") ∧
    (folderOf "./.." = "." ∧ nameOf "./.." = "..") ∧ (folderOf "" = "." ∧ nameOf "" = "") := by
  decide +kernel

end Baseline

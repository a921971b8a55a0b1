import Baseline.Proofs.Key.Canonical
import Baseline.Sweep.Stray
import Mathlib.Data.List.Basic
import Mathlib.Data.List.Forall2

/-!
# Strays by spelling

What a sweep finds is a matter of spellings (`Respells`): a baseline on disk is a stray if no
touched path spells it. So the touched paths count as a set of keys, and nothing else about them
does (`strays_eq_iff_covers`).

Strays are keys, and a key is its own key (`map_keyText_strays`). Hence they can be searched for
strays again, and touched paths that come in two lists may be taken out one list after the other
(`strays_append`). `StraysLaw` puts all of this together.
-/

namespace Baseline

variable {touched other : List String} {p q : String}

/-! ## Spellings -/

/-- Two paths that start alike, at the top or not, and have the same components. -/
def Respells (p q : String) : Prop := (StartsAtTop p ↔ StartsAtTop q) ∧ components p = components q

instance (path : String) : Decidable (StartsAtTop path) :=
  inferInstanceAs (Decidable (_ ∨ _))

instance (p q : String) : Decidable (Respells p q) :=
  inferInstanceAs (Decidable (_ ∧ _))

/-- Two paths have one key exactly if the one is another spelling of the other. -/
theorem keyText_eq_iff_respells : keyText p = keyText q ↔ Respells p q :=
  keyText_inj.trans Key.ofPath_eq_iff

theorem mem_map_keyText_iff :
    keyText p ∈ touched.map keyText ↔ ∃ known ∈ touched, Respells known p := by
  rw [List.mem_map]
  exact exists_congr fun known => and_congr_right fun _ => keyText_eq_iff_respells

theorem map_keyText_of_forall₂ (h : List.Forall₂ Respells touched other) :
    touched.map keyText = other.map keyText := by
  induction h with
  | nil => rfl
  | cons hpath _ ih => rw [List.map_cons, List.map_cons, keyText_eq_iff_respells.2 hpath, ih]

/-- Each path of the one list is spelled somehow in the other. -/
def Covers (other touched : List String) : Prop := ∀ p ∈ touched, ∃ q ∈ other, Respells q p

/-- A list of touched files covers another exactly if it has all the keys of the other. -/
theorem covers_iff : Covers other touched ↔ touched.map keyText ⊆ other.map keyText := by
  constructor
  · intro h key hkey
    obtain ⟨p, hp, rfl⟩ := List.mem_map.1 hkey
    exact mem_map_keyText_iff.2 (h p hp)
  · intro h p hp
    exact mem_map_keyText_iff.1 (h (List.mem_map_of_mem hp))

/-! ## Finding strays -/

/-- The strays are the keys of those paths that no touched path spells. -/
theorem strays_eq_map_filter (touched onDisk : List String) :
    strays touched onDisk =
      (onDisk.filter fun path => ∀ known ∈ touched, ¬ Respells known path).map keyText := by
  have hknown (path : String) : (!(touched.map keyText).contains (keyText path)) =
      decide (∀ known ∈ touched, ¬ Respells known path) := by
    rw [Bool.eq_iff_iff, Bool.not_eq_true', ← Bool.not_eq_true, List.contains_iff_mem,
      mem_map_keyText_iff, decide_eq_true_iff]
    push Not
    rfl
  rw [strays, List.filter_map]
  exact congrArg (List.map keyText) (List.filter_congr fun path _ => hknown path)

/-- Only the set of the touched keys counts. -/
theorem strays_congr (h : ∀ key, key ∈ touched.map keyText ↔ key ∈ other.map keyText)
    (onDisk : List String) : strays touched onDisk = strays other onDisk := by
  refine List.filter_congr fun key _ => ?_
  rw [Bool.not_inj_iff, Bool.eq_iff_iff, List.contains_iff_mem, List.contains_iff_mem]
  exact h key

/-- A path alone is found unless its key is known. -/
theorem strays_singleton_eq_nil_iff :
    strays touched [p] = [] ↔ keyText p ∈ touched.map keyText := by
  rw [strays, List.map_singleton, List.filter_eq_nil_iff]
  simp

/-- The set of the touched keys does count: a path that only one list spells is found only with the
other. -/
theorem strays_eq_iff_covers :
    (∀ onDisk, strays touched onDisk = strays other onDisk) ↔
      Covers other touched ∧ Covers touched other := by
  rw [covers_iff, covers_iff]
  constructor
  · intro h
    have hsame (p : String) : keyText p ∈ touched.map keyText ↔ keyText p ∈ other.map keyText := by
      rw [← strays_singleton_eq_nil_iff, h, strays_singleton_eq_nil_iff]
    constructor <;> intro key hkey <;> obtain ⟨p, -, rfl⟩ := List.mem_map.1 hkey
    · exact (hsame p).1 hkey
    · exact (hsame p).2 hkey
  · rintro ⟨hsub, hsup⟩ onDisk
    exact strays_congr (fun _ => ⟨fun hkey => hsub hkey, fun hkey => hsup hkey⟩) onDisk

/-- Strays are spelled as keys. -/
theorem map_keyText_strays (touched onDisk : List String) :
    (strays touched onDisk).map keyText = strays touched onDisk := by
  refine (List.map_congr_left fun key hkey => ?_).trans (List.map_id _)
  obtain ⟨path, -, rfl⟩ := List.mem_map.1 (List.mem_of_mem_filter hkey)
  exact keyText_keyText path

/-- Touched paths in two lists are taken out one list after the other. -/
theorem strays_append (first second onDisk : List String) :
    strays (first ++ second) onDisk = strays first (strays second onDisk) := by
  rw [strays, strays.eq_def first, map_keyText_strays, strays, List.filter_filter]
  refine List.filter_congr fun key _ => ?_
  rw [List.map_append, List.contains_append, Bool.not_or]

/-- Searching strays again leaves some of them out, and changes neither the others nor their
order. -/
theorem strays_strays_sublist (first second onDisk : List String) :
    (strays first (strays second onDisk)).Sublist (strays second onDisk) := by
  rw [strays, map_keyText_strays]
  exact List.filter_sublist

/-! ## The law -/

/-- What is found on a disk, told by spellings alone. -/
structure StraysLaw (touched onDisk : List String) : Prop where
  /-- the keys of the paths that no touched path spells are found, in the order of the disk and each
  as often as the disk has it -/
  found : strays touched onDisk =
    (onDisk.filter fun path => ∀ known ∈ touched, ¬ Respells known path).map keyText
  /-- in what order and how often the touched paths come makes no difference -/
  reordered : ∀ {other}, (∀ path, path ∈ other ↔ path ∈ touched) →
    strays other onDisk = strays touched onDisk
  /-- nor does how they are spelled -/
  respelled : ∀ {other}, List.Forall₂ Respells touched other →
    strays other onDisk = strays touched onDisk
  /-- nor how the disk spells what it has -/
  respelledOnDisk : ∀ {spelled}, List.Forall₂ Respells onDisk spelled →
    strays touched spelled = strays touched onDisk
  /-- two lists of touched paths find the same everywhere if and only if they spell the same -/
  settled : ∀ other, (∀ paths, strays touched paths = strays other paths) ↔
    Covers other touched ∧ Covers touched other
  /-- the more is touched, the fewer of the strays are left, and those in their order -/
  fewer : ∀ {more}, touched ⊆ more → (strays more onDisk).Sublist (strays touched onDisk)
  /-- two lists together find what they find one behind the other -/
  composed : ∀ more, strays (touched ++ more) onDisk = strays touched (strays more onDisk)
  /-- which of them is first makes no difference -/
  commutes : ∀ more, strays touched (strays more onDisk) = strays more (strays touched onDisk)
  /-- a second search with one list finds the same -/
  settles : strays touched (strays touched onDisk) = strays touched onDisk

/-- **Strays depend on spellings only.** What a sweep finds is told by the set of the touched keys
and by the keys of the disk, in their order. -/
theorem strays_lawful (touched onDisk : List String) : StraysLaw touched onDisk where
  found := strays_eq_map_filter touched onDisk
  reordered hmem := strays_congr (fun key => by simp only [List.mem_map, hmem]) onDisk
  respelled hspell := by rw [strays, ← map_keyText_of_forall₂ hspell, strays]
  respelledOnDisk hspell := by rw [strays, ← map_keyText_of_forall₂ hspell, strays]
  settled _ := strays_eq_iff_covers
  fewer {more} hsub := by
    have htogether : strays more onDisk = strays (more ++ touched) onDisk :=
      strays_congr (fun key => by
        rw [List.map_append, List.mem_append, iff_self_or]
        exact fun hkey => List.map_subset keyText hsub hkey) onDisk
    rw [htogether, strays_append]
    exact strays_strays_sublist more touched onDisk
  composed more := strays_append touched more onDisk
  commutes more := by
    rw [← strays_append, ← strays_append]
    exact strays_congr (fun key => by simp only [List.map_append, List.mem_append, or_comm]) onDisk
  settles := by
    rw [← strays_append]
    exact strays_congr (fun key => by rw [List.map_append, List.mem_append, or_self]) onDisk

/-- A path that is touched in another spelling is no stray, and what is a stray is listed twice if
it is there twice. -/
example : strays ["d\\a.approved.txt", "/d/b"] ["./d//a.approved.txt", "d/b", "c", "d\\b"] =
    ["d/b", "c", "d/b"] := by decide +kernel

end Baseline

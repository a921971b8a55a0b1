import Baseline.Disk
import Mathlib.Data.List.Basic

/-!
# The names along a path

What building a path does to the names along it. Putting a name behind a path adds that name and
nothing else (`names_along`), the path of a place has the names of the place (`names_pathOf`), and
seeing a path from the top keeps its names except `.` (`names_absolute`).

`IsPiece` says what path text can spell as one name, and `IsName` leaves out `.` and `..`, which are
names along a path but not names of anything.
-/

namespace Baseline.Path

/-- What path text can spell as one name. -/
structure IsPiece (name : Bytes) : Prop where
  /-- it is not empty -/
  ne_nil : name ≠ []
  /-- it holds no slash -/
  slash_notMem : slash ∉ name

/-- A name that an entry of a directory can have. -/
structure IsName (name : Bytes) : Prop extends IsPiece name where
  /-- it is not `.` -/
  ne_here : name ≠ here
  /-- it is not `..` -/
  ne_above : name ≠ above

instance (name : Bytes) : Decidable (IsName name) :=
  decidable_of_iff ((name ≠ [] ∧ slash ∉ name) ∧ name ≠ here ∧ name ≠ above)
    ⟨fun h => ⟨⟨h.1.1, h.1.2⟩, h.2.1, h.2.2⟩,
      fun h => ⟨⟨h.ne_nil, h.slash_notMem⟩, h.ne_here, h.ne_above⟩⟩

/-- The path that leads from another along some names. -/
def along (p : Path) (names : List Bytes) : Path := names.foldl entry p

@[simp] theorem along_nil (p : Path) : p.along [] = p := rfl

@[simp] theorem along_cons (p : Path) (name : Bytes) (names : List Bytes) :
    p.along (name :: names) = (p.entry name).along names := rfl

/-! ## Names -/

theorem names_nil : names ⟨[]⟩ = [] := rfl

/-- A slash separates the names before it from those behind it. -/
theorem names_append_slash (front back : Bytes) :
    names ⟨front ++ slash :: back⟩ = names ⟨front⟩ ++ names ⟨back⟩ := by
  rw [names, splitWhere_append_cons (p := (· == slash)) (beq_self_eq_true slash),
    List.filter_append]
  rfl

theorem names_append_slash_end (front : Bytes) : names ⟨front ++ [slash]⟩ = names ⟨front⟩ := by
  rw [names_append_slash, names_nil, List.append_nil]

/-- The names of two texts with a slash between them are the names of both, whatever slashes they
begin or end with. -/
theorem names_underSlash (front back : Bytes) :
    names ⟨underSlash front back⟩ = names ⟨front⟩ ++ names ⟨back⟩ := by
  rw [underSlash]
  split
  · next h =>
    -- no slash is put in where one is there, and it separates just as well
    rcases Bool.or_eq_true_iff.1 h with hempty | hslash
    · rw [List.isEmpty_iff.1 hempty, List.nil_append, names_nil, List.nil_append]
    · obtain ⟨init, rfl⟩ : ∃ init, front = init ++ [slash] := by
        obtain ⟨init, hinit⟩ := List.getLast?_eq_some_iff.1 (beq_iff_eq.1 hslash)
        exact ⟨init, hinit⟩
      rw [List.append_assoc, List.singleton_append, names_append_slash, names_append_slash_end]
  · exact names_append_slash front back

/-- An entry of a directory has the names of the directory and its own. -/
theorem names_entry (p : Path) (name : Bytes) : (p.entry name).names = p.names ++ names ⟨name⟩ :=
  names_underSlash p.bytes name

theorem isPiece_of_mem_names {p : Path} {name : Bytes} (h : name ∈ p.names) : IsPiece name := by
  obtain ⟨hpiece, hne⟩ := List.mem_filter.1 h
  refine ⟨by simpa using hne, fun hslash => ?_⟩
  exact Bool.noConfusion ((not_of_mem_splitWhere hpiece hslash).symm.trans (beq_self_eq_true slash))

/-- A name without a slash is not cut. -/
theorem splitWhere_of_isPiece {name : Bytes} (h : IsPiece name) :
    splitWhere (· == slash) name = [name] :=
  splitWhere_eq_singleton fun _ hb => beq_eq_false_iff_ne.2 fun heq => h.slash_notMem (heq ▸ hb)

/-- A piece is the only name along itself. -/
theorem names_of_isPiece {name : Bytes} (h : IsPiece name) : names ⟨name⟩ = [name] := by
  rw [names, splitWhere_of_isPiece h, List.filter_cons_of_pos (by simpa using h.ne_nil),
    List.filter_nil]

/-- Names behind a path are names along the longer path, and there are no others. -/
theorem names_along (p : Path) {names : List Bytes} (h : ∀ name ∈ names, IsPiece name) :
    (p.along names).names = p.names ++ names := by
  induction names generalizing p with
  | nil => exact (List.append_nil _).symm
  | cons name names ih =>
    rw [along_cons, ih _ fun other hother => h other (List.mem_cons_of_mem _ hother), names_entry,
      names_of_isPiece (h name List.mem_cons_self), List.append_assoc, List.singleton_append]

/-- The pieces between the slashes in the path of a place. -/
theorem splitWhere_pathOf {place : Place} (hne : place ≠ []) (h : ∀ name ∈ place, IsPiece name) :
    splitWhere (· == slash) (Disk.pathOf place).bytes = [] :: place := by
  rw [Disk.pathOf, splitWhere_cons_of_pos (p := (· == slash)) (beq_self_eq_true slash), joinNames,
    splitWhere_intercalate (p := (· == slash)) (beq_self_eq_true slash) hne]
  intro name hname b hb
  exact beq_eq_false_iff_ne.2 fun heq => (h name hname).slash_notMem (heq ▸ hb)

/-- The names along the path of a place are the names of the place. -/
theorem names_pathOf {place : Place} (h : ∀ name ∈ place, IsPiece name) :
    (Disk.pathOf place).names = place := by
  by_cases hne : place = []
  · rw [hne]
    rfl
  · rw [names, splitWhere_pathOf hne h, List.filter_cons_of_neg (by simp), List.filter_eq_self]
    intro name hname
    simpa using (h name hname).ne_nil

theorem isAbsolute_pathOf (place : Place) : (Disk.pathOf place).isAbsolute = true := rfl

/-- Only the path of the top insists on a directory. -/
theorem endsInSlash_pathOf {place : Place} (hne : place ≠ []) (h : ∀ name ∈ place, IsPiece name) :
    (Disk.pathOf place).endsInSlash = false := by
  rw [endsInSlash, Bool.eq_false_iff]
  intro hslash
  obtain ⟨init, hinit⟩ := List.getLast?_eq_some_iff.1 (beq_iff_eq.1 hslash)
  have hsplit := splitWhere_pathOf hne h
  rw [hinit, splitWhere_append_cons (p := (· == slash)) (beq_self_eq_true slash)] at hsplit
  -- the last piece would be empty, and so would the last name
  have hlast := congrArg List.getLast? hsplit
  have hplace : ([] :: place).getLast? = place.getLast? := List.getLast?_append_of_ne_nil [[]] hne
  rw [splitWhere_nil, List.getLast?_append_of_ne_nil _ (List.cons_ne_nil _ _), hplace] at hlast
  exact (h [] (List.mem_of_getLast? hlast.symm)).ne_nil rfl

/-! ## The bytes around the names -/

theorem isAbsolute_entry {p : Path} (h : p.bytes ≠ []) (name : Bytes) :
    (p.entry name).isAbsolute = p.isAbsolute := by
  obtain ⟨bytes⟩ := p
  cases bytes with
  | nil => exact absurd rfl h
  | cons b bytes =>
    rw [isAbsolute, entry, underSlash]
    split <;> rfl

theorem bytes_ne_nil_of_isAbsolute {p : Path} (h : p.isAbsolute = true) : p.bytes ≠ [] := by
  intro hnil
  rw [isAbsolute, hnil] at h
  cases h

/-- A path that starts at the top does so however far it is followed. -/
theorem isAbsolute_along {p : Path} (h : p.isAbsolute = true) (names : List Bytes) :
    (p.along names).isAbsolute = true := by
  induction names generalizing p with
  | nil => exact h
  | cons name names ih =>
    exact ih ((isAbsolute_entry (bytes_ne_nil_of_isAbsolute h) name).trans h)

theorem mem_bytes_entry {p : Path} {name : Bytes} {b : UInt8} (h : b ∈ (p.entry name).bytes) :
    b ∈ p.bytes ∨ b = slash ∨ b ∈ name := by
  rw [entry, underSlash] at h
  split at h
  · rcases List.mem_append.1 h with h | h
    · exact .inl h
    · exact .inr (.inr h)
  · rcases List.mem_append.1 h with h | h
    · exact .inl h
    · exact .inr (List.mem_cons.1 h)

/-- Going along names brings in no byte but the slash and theirs. -/
theorem mem_bytes_along {p : Path} {names : List Bytes} {b : UInt8}
    (h : b ∈ (p.along names).bytes) : b ∈ p.bytes ∨ b = slash ∨ ∃ name ∈ names, b ∈ name := by
  induction names generalizing p with
  | nil => exact .inl h
  | cons name names ih =>
    rcases ih h with h | h | ⟨other, hother, h⟩
    · rcases mem_bytes_entry h with h | h | h
      · exact .inl h
      · exact .inr (.inl h)
      · exact .inr (.inr ⟨name, List.mem_cons_self, h⟩)
    · exact .inr (.inl h)
    · exact .inr (.inr ⟨other, List.mem_cons_of_mem _ hother, h⟩)

/-! ## Paths seen from the top -/

theorem isAbsolute_top (p : Path) : p.top.isAbsolute = true := by
  rw [top]
  split
  · split <;> rfl
  · rfl

theorem names_top (p : Path) : p.top.names = [] := by
  rw [top]
  split
  · split <;> rfl
  · rfl

/-- A path seen from an absolute working directory is absolute. -/
theorem isAbsolute_absolute {cwd : Path} (h : cwd.isAbsolute = true) (p : Path) :
    (absolute cwd p).isAbsolute = true := by
  have hbase : (if p.isAbsolute then p.top else cwd).isAbsolute = true := by
    split
    · exact isAbsolute_top p
    · exact h
  have hwhole := isAbsolute_along hbase (p.names.filter (· != here))
  rw [absolute]
  split
  · exact (isAbsolute_entry (bytes_ne_nil_of_isAbsolute hwhole) []).trans hwhole
  · exact hwhole

/-- The names of a path seen from the top: those of the working directory unless the path is
absolute itself, and then those of the path without `.`. -/
theorem names_absolute (cwd p : Path) :
    (absolute cwd p).names =
      (if p.isAbsolute then [] else cwd.names) ++ p.names.filter (· != here) := by
  have hwhole (base : Path) :
      (base.along (p.names.filter (· != here))).names =
        base.names ++ p.names.filter (· != here) :=
    names_along base fun name hname => isPiece_of_mem_names (List.mem_filter.1 hname).1
  have hbase : (if p.isAbsolute then p.top else cwd).names =
      if p.isAbsolute then [] else cwd.names := by
    split
    · exact names_top p
    · rfl
  rw [absolute, ← hbase, ← hwhole]
  split
  · rw [names_entry, names_nil, List.append_nil]
    rfl
  · rfl

/-- A path seen from the top goes through no `.`. -/
theorem here_notMem_names_absolute {cwd : Path} (h : here ∉ cwd.names) (p : Path) :
    here ∉ (absolute cwd p).names := by
  rw [names_absolute, List.mem_append]
  rintro (hbase | hown)
  · split at hbase
    · exact absurd hbase List.not_mem_nil
    · exact h hbase
  · exact bne_iff_ne.1 (List.mem_filter.1 hown).2 rfl

end Baseline.Path

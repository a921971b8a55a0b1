import Baseline.Proofs.Disk.Unlink

/-!
# Deleting again

A deletion finds nothing in two ways: its last name is not there, or the directory that should hold
it is out of reach because a name before it is not there (`unlink_eq_notFound_iff`). Either way the
path leads nowhere: whatever refuses the way to the directory refuses the way along the whole path
(`resolve_append_error`).

Behind a deletion that took something, the same path finds nothing. If the way to the directory is
as it was, the last name is missing now. But the way may pass through the very link that was taken,
and then it ends there (`Route.resolve_erase`).
-/

namespace Baseline.Disk

variable {d : Disk} {p : Path} {through strict : Bool} {n k : Nat} {here there folder place : Place}
  {name : Bytes} {names rest : List Bytes} {e : Errno}

/-! ## A way that is refused -/

/-- Where following names to a directory fails, following more names fails with the same error,
since all names but the last are followed as strictly. -/
theorem follow_append_error {expand expand' : Place → List Bytes → Bool → Except Errno Place}
    (hexpand : ∀ here names, expand here names true = .error e →
      expand' here (names ++ rest) strict = .error e)
    (hrest : rest ≠ []) (h : follow d expand true here names true = .error e) :
    follow d expand' through here (names ++ rest) strict = .error e := by
  induction names generalizing here with
  | nil => cases h
  | cons name names ih =>
    have hmore : (names ++ rest).isEmpty = false := by simp [hrest]
    rw [follow] at h
    rw [List.cons_append, follow]
    cases hs : d.searchable here with
    | error denied =>
      rw [hs] at h
      exact h
    | ok =>
      rw [hs] at h
      -- with more names to come, a directory is demanded here as much as it was at the end
      simp only [bind, Except.bind, hmore, Bool.true_or, Bool.not_true, Bool.and_false,
        Bool.false_and, Bool.or_false, Bool.false_eq_true, if_false] at h ⊢
      by_cases hhere : (name == Path.here) = true
      · rw [if_pos hhere] at h ⊢
        exact ih h
      by_cases habove : (name == Path.above) = true
      · rw [if_neg hhere, if_pos habove] at h ⊢
        exact ih h
      rw [if_neg hhere, if_neg habove] at h ⊢
      by_cases hlong : nameLimit < name.length
      · rw [if_pos hlong] at h ⊢
        exact h
      rw [if_neg hlong] at h ⊢
      cases hnode : d.get? (here ++ [name]) with
      | none =>
        rw [hnode] at h
        exact h
      | some node =>
        rw [hnode] at h
        cases node with
        | file content rights => exact h
        | directory rights => exact ih h
        | link target =>
          dsimp only
          rw [← List.append_assoc]
          exact hexpand _ _ h

/-- What refuses the way to a directory refuses every longer way through it. -/
theorem resolve_append_error (hrest : rest ≠ [])
    (h : d.resolve true n here names true = .error e) :
    d.resolve through n here (names ++ rest) strict = .error e := by
  induction n generalizing here names with
  | zero =>
    rw [resolve_eq_follow] at h ⊢
    exact follow_append_error (fun _ _ hloop => hloop) hrest h
  | succ n ih =>
    rw [resolve_eq_follow] at h ⊢
    exact follow_append_error (fun _ _ hnext => ih hnext) hrest h

/-- What refuses the slot of a path refuses the path. -/
theorem locate_of_slot_eq_error (h : d.slot p = .error e) (through : Bool) :
    d.locate through p = .error e := by
  rcases bind_eq_error_iff.1 h with haccepts | ⟨⟨⟩, haccepts, h⟩
  · exact bind_eq_error_iff.2 (.inl haccepts)
  refine bind_eq_error_iff.2 (.inr ⟨(), haccepts, ?_⟩)
  cases hlast : p.names.getLast? with
  | none =>
    rw [hlast] at h
    cases h
  | some last =>
    rw [hlast] at h
    rw [← List.dropLast_append_getLast? last hlast]
    rcases bind_eq_error_iff.1 h with hfolder | ⟨folder, hfolder, h⟩
    · exact resolve_append_error (List.cons_ne_nil _ _) hfolder
    · obtain ⟨k, hk, hroute⟩ := resolve_strict_iff.1 hfolder
      rw [hroute.resolve_append hk (List.cons_ne_nil _ _), resolve_eq_follow, follow]
      rcases bind_eq_error_iff.1 h with hsearchable | ⟨⟨⟩, -, h⟩
      · exact bind_eq_error_iff.2 (.inl hsearchable)
      · cases h

/-! ## A deletion that finds nothing -/

theorem Names.writable_ne_notFound (h : d.Names p folder name) :
    d.writable folder ≠ .error .notFound := by
  rcases permits_of_isDirectory h.isDirectory Rights.write with hwritable | hwritable
  · simp [writable, hwritable]
  · simp [writable, hwritable]

/-- A deletion finds nothing if its slot is out of reach, or if its path names nothing. -/
theorem unlink_eq_notFound_iff :
    d.unlink p = .error .notFound ↔ d.slot p = .error .notFound ∨
      ∃ folder name, d.Names p folder name ∧ d.get? (folder ++ [name]) = none := by
  constructor
  · intro h
    rcases bind_eq_error_iff.1 h with hslot | ⟨⟨folder, name?, strict⟩, hslot, h⟩
    · exact .inl hslot
    cases name? with
    | none => cases h
    | some name =>
      rcases bind_eq_error_iff.1 h with hlong | ⟨node?, hlookUp, h⟩
      · rw [lookUp] at hlong
        split at hlong
        · cases hlong
        · cases hlong
      obtain ⟨hnames, -, hnode⟩ := Names.of_slot hslot hlookUp
      cases node? with
      | none => exact .inr ⟨folder, name, hnames, hnode⟩
      | some node =>
        -- what is there is taken, or refused for another reason
        cases strict with
        | true => cases node <;> cases h
        | false =>
          apply absurd _ hnames.writable_ne_notFound
          cases node <;>
          · rcases bind_eq_error_iff.1 h with hwritable | ⟨⟨⟩, -, h⟩
            · exact hwritable
            · cases h
  · rintro (hslot | ⟨folder, name, hnames, hnone⟩)
    · exact bind_eq_error_iff.2 (.inl hslot)
    · rw [unlink, slot_eq hnames.accepted hnames.toSlotAt hnames.searchable hnames.looksUp.ne_here
        hnames.looksUp.ne_above]
      simp only [bind, Except.bind, lookUp_eq_ok_iff.2 ⟨hnames.looksUp.le_limit, hnone⟩]
      rfl

/-- Where a deletion finds nothing, the path leads nowhere, whether or not a link at its end is
followed. -/
theorem nodeAt_of_unlink_eq_notFound (h : d.unlink p = .error .notFound) (through : Bool) :
    d.nodeAt through p = .error .notFound := by
  refine bind_eq_error_iff.2 (.inl ?_)
  rcases unlink_eq_notFound_iff.1 h with hslot | ⟨folder, name, hnames, hnone⟩
  · exact locate_of_slot_eq_error hslot through
  · exact hnames.locate_of_absent hnone through

/-! ## A deletion that takes something -/

/-- A directory stays when anything else is taken away. -/
theorem permits_erase {right : Rights → Bool} (hplace : ¬ d.IsDirectory place)
    (h : d.permits right here = .ok ()) : (d.erase place).permits right here = .ok () := by
  obtain ⟨rights, hnode, hgrants⟩ := permits_eq_ok_iff.1 h
  have hne : here ≠ place := by
    rintro rfl
    exact hplace (isDirectory_iff.2 ⟨rights, hnode⟩)
  exact permits_eq_ok_iff.2 ⟨rights, by rw [get?_erase, if_neg hne, hnode], hgrants⟩

/-- A way to a directory is there still when anything but a directory is taken away, or it stops at
a link that was taken. -/
theorem Route.resolve_erase (h : Route d k here names there) (hk : k ≤ n)
    (hplace : ¬ d.IsDirectory place) :
    (d.erase place).resolve true n here names true = .ok there ∨
      (d.erase place).resolve true n here names true = .error .notFound := by
  induction h generalizing n with
  | done => exact .inl resolve_nil
  | stay hs _ ih =>
    rw [resolve_stay (permits_erase hplace hs)]
    exact ih hk
  | up hs _ ih =>
    rw [resolve_up (permits_erase hplace hs)]
    exact ih hk
  | @down _ here _ name _ rights hs hname hnode _ ih =>
    have hne : here ++ [name] ≠ place := by
      rintro rfl
      exact hplace (isDirectory_iff.2 ⟨rights, hnode⟩)
    rw [resolve_down (permits_erase hplace hs) hname (by rw [get?_erase, if_neg hne, hnode])]
    exact ih hk
  | @link _ here _ name _ target hs hname hnode _ ih =>
    obtain ⟨m, rfl⟩ : ∃ m, n = m + 1 := ⟨n - 1, by omega⟩
    by_cases htaken : here ++ [name] = place
    · right
      rw [resolve_eq_follow, follow_cons_of_looksUp (permits_erase hplace hs) hname, get?_erase,
        if_pos htaken]
    · rw [resolve_link (permits_erase hplace hs) hname
        (by rw [get?_erase, if_neg htaken, hnode]) (.inl rfl), Bool.true_or]
      exact ih (Nat.le_of_succ_le_succ hk)

/-- What was taken is not found a second time. -/
theorem Unlinks.unlink_erase (h : Unlinks d p folder name) :
    (d.erase (folder ++ [name])).unlink p = .error .notFound := by
  obtain ⟨k, hk, hroute⟩ := resolve_strict_iff.1 h.route
  rw [unlink_eq_notFound_iff]
  rcases hroute.resolve_erase hk h.notDirectory with hfolder | hlost
  · right
    have hnames : (d.erase (folder ++ [name])).Names p folder name :=
      ⟨⟨h.last, hfolder⟩, h.accepted, permits_erase h.notDirectory h.searchable, h.looksUp⟩
    exact ⟨folder, name, hnames, by rw [get?_erase, if_pos rfl]⟩
  · left
    refine bind_eq_error_iff.2 (.inr ⟨(), h.accepted, ?_⟩)
    rw [h.last]
    exact bind_eq_error_iff.2 (.inl hlost)

/-! ## Deleting twice -/

theorem isNotFound_os_iff : (IoError.os e).isNotFound = true ↔ e = .notFound := by
  cases e <;> decide

/-- A deletion that finds nothing succeeds, and the disk stays as it is. -/
theorem run_deleteAt_of_notFound (hzero : 0 ∉ p.bytes) (h : d.unlink p = .error .notFound) :
    (deleteAt p).run.run d = (.ok (), d) := by
  have hrequest : request [p] (d.unlink p) = .error (.os .notFound) :=
    request_eq_error_iff.2 (.inr ⟨hzero, .notFound, h, rfl⟩)
  rw [run_deleteAt_eq, hrequest]
  rfl

/-- **A deletion can be repeated.** For every path and every disk, with whatever links and rights: a
deletion is refused as the disk refuses it, and then nothing has changed, or it succeeds. Then the
disk is as it was or lacks the one entry that the path led to, a file or a link itself, never a
directory or what a link leads to; the path leads nowhere any more; and the same deletion succeeds
again and changes nothing. -/
theorem deleteAt_repeats (p : Path) (d : Disk) :
    (∃ e, request [p] (d.unlink p) = .error e ∧ e.isNotFound = false ∧
        (deleteAt p).run.run d = (.error e, d)) ∨
      ∃ d', (deleteAt p).run.run d = (.ok (), d') ∧
        (d' = d ∨ ∃ place node, d.locate false p = .ok place ∧ d.get? place = some node ∧
          node.kind ≠ .directory ∧ d' = d.erase place) ∧
        (∀ through, d'.nodeAt through p = .error .notFound) ∧
        (deleteAt p).run.run d' = (.ok (), d') := by
  cases hrequest : request [p] (d.unlink p) with
  | ok d' =>
    obtain ⟨hzero, hunlink⟩ := request_eq_ok_iff.1 hrequest
    obtain ⟨folder, name, hunlinks, rfl⟩ := of_unlink_eq_ok hunlink
    obtain ⟨node, hnode⟩ := Option.ne_none_iff_exists'.1 hunlinks.present
    have hkind : node.kind ≠ .directory := by
      intro hdirectory
      apply hunlinks.notDirectory
      simp [IsDirectory, kind?, hnode, hdirectory]
    have hagain := hunlinks.unlink_erase
    right
    refine ⟨d.erase (folder ++ [name]), ?_, ?_, nodeAt_of_unlink_eq_notFound hagain,
      run_deleteAt_of_notFound hzero hagain⟩
    · rw [run_deleteAt_eq, hrequest]
    · have hlocate := hunlinks.names.locate_of_present hnode fun _ => hunlinks.notStrict
      exact .inr ⟨folder ++ [name], node, hlocate, hnode, hkind, rfl⟩
  | error e =>
    by_cases hgone : e.isNotFound = true
    · obtain ⟨-, rfl⟩ | ⟨hzero, errno, hunlink, rfl⟩ := request_eq_error_iff.1 hrequest
      · cases hgone
      obtain rfl := isNotFound_os_iff.1 hgone
      have hsame := run_deleteAt_of_notFound hzero hunlink
      exact .inr ⟨d, hsame, .inl rfl, nodeAt_of_unlink_eq_notFound hunlink, hsame⟩
    · refine .inl ⟨e, rfl, Bool.eq_false_iff.2 hgone, ?_⟩
      rw [run_deleteAt_eq, hrequest]
      dsimp only
      rw [if_neg hgone]

/-- A link to the directory that it is in is taken itself, though the path passes through it. -/
example :
    let d := (laidOut [] [[]] [(["a"], "x")]).insert [Utf8.encode "l"] (.link (.ofString "."))
    ((delete "l/../l").run.run d).2 = d.erase [Utf8.encode "l"] := by
  decide +kernel

end Baseline.Disk

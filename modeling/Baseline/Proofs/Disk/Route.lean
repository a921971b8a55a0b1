import Baseline.Disk.Resolve
import Baseline.Proofs.Disk.Tree
import Baseline.Proofs.Steps

/-!
# Routes

A `Route` is a successful way along names to a directory: at every name a directory that grants
search, and as many links as its index says. Following names with the strict demand for a directory
at the end succeeds exactly along the routes that need no more links than there are
(`resolve_strict_iff`), and what stands behind a route is followed from its end (`resolve_append`).

A route reads directories and links, never files, so it survives when files go away
(`Route.without`), and nothing opens a new route by going away (`Route.of_without`).
-/

namespace Baseline.Disk

variable {d : Disk} {through strict : Bool} {n k : Nat} {here there : Place} {name : Bytes}
  {names rest : List Bytes}

/-! ## One name at a time -/

/-- A name that is looked up: it points in no direction and is not too long. -/
structure LooksUp (name : Bytes) : Prop where
  /-- it is not `.` -/
  ne_here : name ≠ Path.here
  /-- it is not `..` -/
  ne_above : name ≠ Path.above
  /-- it is not too long -/
  le_limit : name.length ≤ nameLimit

/-- A right is granted by a directory that has it, and by nothing else. -/
theorem permits_eq_ok_iff {right : Rights → Bool} {place : Place} :
    d.permits right place = .ok () ↔
      ∃ rights, d.get? place = some (.directory rights) ∧ d.grants (right rights) = true := by
  cases hnode : d.get? place with
  | none => simp [permits, hnode]
  | some node =>
    cases node with
    | file content rights => simp [permits, hnode]
    | link target => simp [permits, hnode]
    | directory rights =>
      cases hgrants : d.grants (right rights) <;> simp [permits, hnode, hgrants]

/-- A directory grants a right or denies it: nothing else is wrong with it. -/
theorem permits_of_isDirectory {place : Place} (h : d.IsDirectory place) (right : Rights → Bool) :
    d.permits right place = .ok () ∨ d.permits right place = .error .accessDenied := by
  obtain ⟨rights, hnode⟩ := isDirectory_iff.1 h
  cases hgrants : d.grants (right rights) <;> simp [permits, hnode, hgrants]

/-- What becomes of a link: it is followed with one link less, and not at all without one. -/
def expander (d : Disk) (through : Bool) : Nat → Place → List Bytes → Bool → Except Errno Place
  | 0 => fun _ _ _ => .error .linkLoop
  | links + 1 => d.resolve through links

/-- Resolution with so many links is one function for all of them, with the fate of a link as a
parameter. Facts about the way along the names are then proved once, for any such fate. -/
theorem resolve_eq_follow (d : Disk) (through : Bool) (n : Nat) :
    d.resolve through n = follow d (d.expander through n) through := by
  cases n <;> rfl

@[simp] theorem resolve_nil : d.resolve through n here [] strict = .ok here := by
  cases n <;> rfl

theorem resolve_stay (hs : d.searchable here = .ok ()) :
    d.resolve through n here (Path.here :: names) strict =
      d.resolve through n here names strict := by
  rw [resolve_eq_follow, follow, hs]
  rfl

theorem resolve_up (hs : d.searchable here = .ok ()) :
    d.resolve through n here (Path.above :: names) strict =
      d.resolve through n here.dropLast names strict := by
  rw [resolve_eq_follow, follow, hs]
  rfl

/-- What becomes of a name that is looked up, by what is found under it. It is the one equation
through which `follow` is opened where the name points in no direction. -/
theorem follow_cons_of_looksUp {expand : Place → List Bytes → Bool → Except Errno Place}
    (hs : d.searchable here = .ok ()) (hname : LooksUp name) :
    follow d expand through here (name :: names) strict =
      match d.get? (here ++ [name]) with
      | none => .error .notFound
      | some (.directory _) => follow d expand through (here ++ [name]) names strict
      | some (.file _ _) =>
        if names.isEmpty && !strict then .ok (here ++ [name]) else .error .notDirectory
      | some (.link target) =>
        if names.isEmpty && !strict && !through then .ok (here ++ [name])
        else
          expand (if target.isAbsolute then [] else here) (target.names ++ names)
            (strict || names.isEmpty && target.endsInSlash) := by
  rw [follow, hs]
  have hhere : (name == Path.here) = false := beq_eq_false_iff_ne.2 hname.ne_here
  have habove : (name == Path.above) = false := beq_eq_false_iff_ne.2 hname.ne_above
  have hlimit : ¬ nameLimit < name.length := Nat.not_lt.2 hname.le_limit
  simp only [hhere, habove, hlimit, if_false, Bool.false_eq_true]
  rfl

/-- What becomes of a first name that is followed. -/
inductive Followed (d : Disk) (expand : Place → List Bytes → Bool → Except Errno Place)
    (through : Bool) (here : Place) (names : List Bytes) (strict : Bool) (there : Place) :
    Bytes → Prop where
  /-- `.` stays -/
  | stay (rest : follow d expand through here names strict = .ok there) :
      Followed d expand through here names strict there Path.here
  /-- `..` goes up -/
  | up (rest : follow d expand through here.dropLast names strict = .ok there) :
      Followed d expand through here names strict there Path.above
  /-- a directory is entered -/
  | down {name : Bytes} {rights : Rights} (looksUp : LooksUp name)
      (node : d.get? (here ++ [name]) = some (.directory rights))
      (rest : follow d expand through (here ++ [name]) names strict = .ok there) :
      Followed d expand through here names strict there name
  /-- a file is the end, if no directory is demanded -/
  | file {name : Bytes} (looksUp : LooksUp name) (isFile : d.IsFile there) (last : names = [])
      (lax : strict = false) (end_eq : there = here ++ [name]) :
      Followed d expand through here names strict there name
  /-- a link is the end, if nothing asks for what it leads to -/
  | kept {name : Bytes} {target : Path} (looksUp : LooksUp name)
      (node : d.get? there = some (.link target)) (last : names = []) (lax : strict = false)
      (kept : through = false) (end_eq : there = here ++ [name]) :
      Followed d expand through here names strict there name
  /-- any other link is replaced -/
  | link {name : Bytes} {target : Path} (looksUp : LooksUp name)
      (node : d.get? (here ++ [name]) = some (.link target))
      (replaced : ¬ (names = [] ∧ strict = false ∧ through = false))
      (rest : expand (if target.isAbsolute then [] else here) (target.names ++ names)
        (strict || names.isEmpty && target.endsInSlash) = .ok there) :
      Followed d expand through here names strict there name

/-- Following inverted at its first name, in the cases of `Followed`. The lemmas on successful ways
are case splits on it. -/
theorem of_follow_cons {expand : Place → List Bytes → Bool → Except Errno Place}
    (h : follow d expand through here (name :: names) strict = .ok there) :
    d.searchable here = .ok () ∧ Followed d expand through here names strict there name := by
  have hs : d.searchable here = .ok () := by
    rw [follow] at h
    obtain ⟨⟨⟩, hs, -⟩ := bind_eq_ok_iff.1 h
    exact hs
  refine ⟨hs, ?_⟩
  by_cases hhere : name = Path.here
  · subst hhere
    rw [follow, hs] at h
    exact .stay h
  by_cases habove : name = Path.above
  · subst habove
    rw [follow, hs] at h
    exact .up h
  by_cases hlimit : nameLimit < name.length
  · have hh : (name == Path.here) = false := beq_eq_false_iff_ne.2 hhere
    have ha : (name == Path.above) = false := beq_eq_false_iff_ne.2 habove
    rw [follow, hs] at h
    simp only [hh, ha, hlimit, Bool.false_eq_true, if_false, if_true] at h
    cases h
  have hname : LooksUp name := ⟨hhere, habove, Nat.not_lt.1 hlimit⟩
  rw [follow_cons_of_looksUp hs hname] at h
  split at h
  · cases h
  · next rights hnode => exact .down hname hnode h
  · next content rights hnode =>
    split at h
    · next hlast =>
      obtain rfl : here ++ [name] = there := Except.ok.inj h
      obtain ⟨hnil, hlax⟩ : names = [] ∧ strict = false := by simpa using hlast
      exact .file hname (isFile_iff.2 ⟨content, rights, hnode⟩) hnil hlax rfl
    · cases h
  · next target hnode =>
    split at h
    · next hkept =>
      obtain rfl : here ++ [name] = there := Except.ok.inj h
      obtain ⟨⟨hnil, hlax⟩, hthrough⟩ : (names = [] ∧ strict = false) ∧ through = false := by
        simpa using hkept
      exact .kept hname hnode hnil hlax hthrough rfl
    · next hreplaced => exact .link hname hnode (by simpa [and_assoc] using hreplaced) h

theorem resolve_down (hs : d.searchable here = .ok ()) (hname : LooksUp name) {rights : Rights}
    (hnode : d.get? (here ++ [name]) = some (.directory rights)) :
    d.resolve through n here (name :: names) strict =
      d.resolve through n (here ++ [name]) names strict := by
  rw [resolve_eq_follow, follow_cons_of_looksUp hs hname, hnode]

/-- A link gives way to its names, in front of those that are left, and there is one link less to
go. -/
theorem resolve_link (hs : d.searchable here = .ok ()) (hname : LooksUp name) {target : Path}
    (hnode : d.get? (here ++ [name]) = some (.link target))
    (hfollow : through = true ∨ strict = true ∨ names ≠ []) :
    d.resolve through (n + 1) here (name :: names) strict =
      d.resolve through n (if target.isAbsolute then [] else here) (target.names ++ names)
        (strict || names.isEmpty && target.endsInSlash) := by
  rw [resolve_eq_follow, follow_cons_of_looksUp hs hname, hnode]
  refine if_neg fun hstays => ?_
  simp only [Bool.and_eq_true, Bool.not_eq_true', List.isEmpty_iff] at hstays
  obtain ⟨⟨hnil, hstrict⟩, hthrough⟩ := hstays
  rcases hfollow with h | h | h
  · exact Bool.noConfusion (h.symm.trans hthrough)
  · exact Bool.noConfusion (h.symm.trans hstrict)
  · exact h hnil

/-! ## Routes

`resolve` counts the links down and hands the names of a link to itself, so facts about it are by
induction on the links, and within that on the names. A `Route` has both in one derivation. -/

/-- `Route d k here names there`: from `here` the names lead to `there`, over `k` links. -/
inductive Route (d : Disk) : Nat → Place → List Bytes → Place → Prop where
  /-- no name is left -/
  | done (here : Place) : Route d 0 here [] here
  /-- `.` stays -/
  | stay {k : Nat} {here there : Place} {names : List Bytes}
      (searchable : d.searchable here = .ok ()) (rest : Route d k here names there) :
      Route d k here (Path.here :: names) there
  /-- `..` goes up -/
  | up {k : Nat} {here there : Place} {names : List Bytes}
      (searchable : d.searchable here = .ok ()) (rest : Route d k here.dropLast names there) :
      Route d k here (Path.above :: names) there
  /-- the name of a directory goes down -/
  | down {k : Nat} {here there : Place} {name : Bytes} {names : List Bytes} {rights : Rights}
      (searchable : d.searchable here = .ok ()) (looksUp : LooksUp name)
      (node : d.get? (here ++ [name]) = some (.directory rights))
      (rest : Route d k (here ++ [name]) names there) : Route d k here (name :: names) there
  /-- the name of a link goes on with the path that the link stands for -/
  | link {k : Nat} {here there : Place} {name : Bytes} {names : List Bytes} {target : Path}
      (searchable : d.searchable here = .ok ()) (looksUp : LooksUp name)
      (node : d.get? (here ++ [name]) = some (.link target))
      (rest : Route d k (if target.isAbsolute then [] else here) (target.names ++ names) there) :
      Route d (k + 1) here (name :: names) there

/-- Whatever is demanded of the end, a route with no more links than allowed is followed to it. -/
theorem Route.resolve_eq (h : Route d k here names there) (hk : k ≤ n) (strict : Bool) :
    d.resolve true n here names strict = .ok there := by
  induction h generalizing n strict with
  | done => exact resolve_nil
  | stay hs _ ih => rw [resolve_stay hs, ih hk]
  | up hs _ ih => rw [resolve_up hs, ih hk]
  | down hs hname hnode _ ih => rw [resolve_down hs hname hnode, ih hk]
  | link hs hname hnode _ ih =>
    obtain ⟨m, rfl⟩ : ∃ m, n = m + 1 := ⟨n - 1, by omega⟩
    rw [resolve_link hs hname hnode (.inl rfl), ih (Nat.le_of_succ_le_succ hk)]

/-- What stands behind a route is followed from its end, with the links that are left. -/
theorem Route.resolve_append (h : Route d k here names there) (hk : k ≤ n) (hrest : rest ≠ []) :
    d.resolve through n here (names ++ rest) strict =
      d.resolve through (n - k) there rest strict := by
  induction h generalizing n with
  | done => rfl
  | stay hs _ ih => rw [List.cons_append, resolve_stay hs, ih hk]
  | up hs _ ih => rw [List.cons_append, resolve_up hs, ih hk]
  | down hs hname hnode _ ih => rw [List.cons_append, resolve_down hs hname hnode, ih hk]
  | @link k _ _ _ names target hs hname hnode _ ih =>
    obtain ⟨m, rfl⟩ : ∃ m, n = m + 1 := ⟨n - 1, by omega⟩
    -- the link is not the last name, so a slash at the end of its target demands nothing
    have hne : names ++ rest ≠ [] := List.append_ne_nil_of_right_ne_nil _ hrest
    have hstrict : (strict || (names ++ rest).isEmpty && target.endsInSlash) = strict := by
      rw [List.isEmpty_eq_false_iff.2 hne, Bool.false_and, Bool.or_false]
    rw [List.cons_append, resolve_link hs hname hnode (.inr (.inr hne)), hstrict,
      ← List.append_assoc, ih (Nat.le_of_succ_le_succ hk), Nat.add_sub_add_right]

/-- Names are followed to anything but a file, or a link that stays, only along a route. -/
theorem route_of_follow {expand : Place → List Bytes → Bool → Except Errno Place}
    (hexpand : ∀ here names strict, expand here names strict = .ok there →
      (strict = true ∨ ¬ d.IsFile there) → ∃ k, k + 1 ≤ n ∧ Route d k here names there)
    (h : follow d expand through here names strict = .ok there)
    (hend : strict = true ∨ ¬ d.IsFile there)
    (hlink : through = true ∨ ∀ target, d.get? there ≠ some (.link target)) :
    ∃ k ≤ n, Route d k here names there := by
  -- on the names; a link leaves them for others, and there `hexpand` takes over
  induction names generalizing here with
  | nil =>
    obtain rfl : here = there := Except.ok.inj h
    exact ⟨0, Nat.zero_le n, .done here⟩
  | cons name names ih =>
    obtain ⟨hs, hfollowed⟩ := of_follow_cons h
    cases hfollowed with
    | stay rest =>
      obtain ⟨k, hk, hroute⟩ := ih rest
      exact ⟨k, hk, hroute.stay hs⟩
    | up rest =>
      obtain ⟨k, hk, hroute⟩ := ih rest
      exact ⟨k, hk, hroute.up hs⟩
    | down hname hnode rest =>
      obtain ⟨k, hk, hroute⟩ := ih rest
      exact ⟨k, hk, hroute.down hs hname hnode⟩
    | file _ hfile _ hlax =>
      rcases hend with hstrict | hnot
      · exact Bool.noConfusion (hlax.symm.trans hstrict)
      · exact absurd hfile hnot
    | kept _ hnode _ _ hkept =>
      rcases hlink with hthrough | hnot
      · exact Bool.noConfusion (hkept.symm.trans hthrough)
      · exact absurd hnode (hnot _)
    | link hname hnode _ rest =>
      obtain ⟨k, hk, hroute⟩ := hexpand _ _ _ rest (hend.imp_left fun hstrict => by simp [hstrict])
      exact ⟨k + 1, hk, hroute.link hs hname hnode⟩

/-- Resolution that succeeds went along a route, provided that its end is no file or link that is
merely named: then all names were entered. -/
theorem route_of_resolve (h : d.resolve through n here names strict = .ok there)
    (hend : strict = true ∨ ¬ d.IsFile there)
    (hlink : through = true ∨ ∀ target, d.get? there ≠ some (.link target)) :
    ∃ k ≤ n, Route d k here names there := by
  induction n generalizing here names strict with
  | zero =>
    rw [resolve_eq_follow] at h
    apply route_of_follow _ h hend hlink
    intro _ _ _ herr
    cases herr
  | succ n ih =>
    rw [resolve_eq_follow] at h
    apply route_of_follow _ h hend hlink
    intro _ _ _ hnext hend
    obtain ⟨k, hk, hroute⟩ := ih hnext hend
    exact ⟨k, Nat.succ_le_succ hk, hroute⟩

/-- Names are followed strictly exactly along the routes that need no more links than allowed. -/
theorem resolve_strict_iff :
    d.resolve true n here names true = .ok there ↔ ∃ k ≤ n, Route d k here names there := by
  refine ⟨fun h => route_of_resolve h (.inl rfl) (.inl rfl), ?_⟩
  rintro ⟨k, hk, hroute⟩
  exact hroute.resolve_eq hk true

/-- Followed to a directory, every name is strict, so how lax links are taken makes no difference.
-/
theorem follow_strict {expand expand' : Place → List Bytes → Bool → Except Errno Place}
    (h : ∀ here names, expand here names true = expand' here names true) :
    follow d expand through here names true = follow d expand' true here names true := by
  induction names generalizing here with
  | nil => rfl
  | cons name names ih =>
    rw [follow, follow]
    simp only [ih, h, Bool.true_or, Bool.not_true, Bool.and_false, Bool.false_and,
      Bool.false_eq_true, if_false]

/-- Where a directory is demanded, a link at the end is followed in any case. -/
theorem resolve_strict (d : Disk) (through : Bool) (n : Nat) (here : Place) (names : List Bytes) :
    d.resolve through n here names true = d.resolve true n here names true := by
  induction n generalizing here names with
  | zero =>
    rw [resolve_eq_follow, resolve_eq_follow]
    exact follow_strict fun _ _ => rfl
  | succ n ih =>
    rw [resolve_eq_follow, resolve_eq_follow]
    exact follow_strict ih

/-- Without following a last link one ends where one ends with following it, or at a link that
stands there. -/
theorem follow_kept {expand expand' : Place → List Bytes → Bool → Except Errno Place}
    (hexpand : ∀ here names strict, expand here names strict = .ok there →
      ∃ kept, expand' here names strict = .ok kept ∧
        (kept = there ∨ ∃ target, d.get? kept = some (.link target)))
    (h : follow d expand true here names strict = .ok there) :
    ∃ kept, follow d expand' false here names strict = .ok kept ∧
      (kept = there ∨ ∃ target, d.get? kept = some (.link target)) := by
  induction names generalizing here with
  | nil => exact ⟨there, h, .inl rfl⟩
  | cons name names ih =>
    obtain ⟨hs, hfollowed⟩ := of_follow_cons h
    cases hfollowed with
    | stay rest =>
      obtain ⟨kept, hkept, hend⟩ := ih rest
      refine ⟨kept, ?_, hend⟩
      rw [follow, hs]
      exact hkept
    | up rest =>
      obtain ⟨kept, hkept, hend⟩ := ih rest
      refine ⟨kept, ?_, hend⟩
      rw [follow, hs]
      exact hkept
    | down hname hnode rest =>
      obtain ⟨kept, hkept, hend⟩ := ih rest
      refine ⟨kept, ?_, hend⟩
      rw [follow_cons_of_looksUp hs hname, hnode]
      exact hkept
    | file hname hfile hlast hlax hend =>
      obtain ⟨content, rights, hnode⟩ := isFile_iff.1 hfile
      refine ⟨there, ?_, .inl rfl⟩
      rw [hend] at hnode
      rw [follow_cons_of_looksUp hs hname, hnode, hend, hlast, hlax]
      rfl
    | kept _ _ _ _ hkept => cases hkept
    | @link _ target hname hnode _ rest =>
      rw [follow_cons_of_looksUp hs hname, hnode]
      dsimp only
      split
      · exact ⟨here ++ [name], rfl, .inr ⟨target, hnode⟩⟩
      · exact hexpand _ _ _ rest

/-- Names that are followed to an end are followed without the link at the end too: to the same
place, or to that link. -/
theorem resolve_kept (h : d.resolve true n here names strict = .ok there) :
    ∃ kept, d.resolve false n here names strict = .ok kept ∧
      (kept = there ∨ ∃ target, d.get? kept = some (.link target)) := by
  induction n generalizing here names strict with
  | zero =>
    rw [resolve_eq_follow] at h ⊢
    apply follow_kept _ h
    intro _ _ _ herr
    cases herr
  | succ n ih =>
    rw [resolve_eq_follow] at h ⊢
    exact follow_kept (fun _ _ _ hnext => ih hnext) h

/-! ## Where a route ends -/

/-- The directory above a directory of a tree is one. -/
theorem Tree.isDirectory_dropLast (h : d.Tree) (hhere : d.IsDirectory here) :
    d.IsDirectory here.dropLast := by
  rcases List.eq_nil_or_concat' here with rfl | ⟨folder, name, rfl⟩
  · exact hhere
  · obtain ⟨rights, hnode⟩ := isDirectory_iff.1 hhere
    rw [List.dropLast_concat]
    exact (h.inside_of_get? hnode).2

/-- On a tree a route from a directory ends at one. -/
theorem Route.isDirectory (h : Route d k here names there) (htree : d.Tree)
    (hhere : d.IsDirectory here) : d.IsDirectory there := by
  induction h with
  | done => exact hhere
  | stay _ _ ih => exact ih hhere
  | up _ _ ih => exact ih (htree.isDirectory_dropLast hhere)
  | down _ _ hnode _ ih => exact ih (isDirectory_iff.2 ⟨_, hnode⟩)
  | link _ _ _ _ ih =>
    apply ih
    split
    · exact htree.top
    · exact hhere

/-- All names but the last lead along a route to a directory, and `place` is the place in it under
the last one. -/
def LeadsTo (d : Disk) (n : Nat) (here : Place) (names : List Bytes) (place : Place) : Prop :=
  ∃ front last k folder, names = front ++ [last] ∧ k ≤ n ∧ Route d k here front folder ∧
    place = folder ++ [last]

/-- A file that is reached is the last name in a directory to which a route leads, even if links
took part in the way. -/
theorem leadsTo_of_follow (htree : d.Tree)
    {expand : Place → List Bytes → Bool → Except Errno Place}
    (hexpand : ∀ here names, d.IsDirectory here → expand here names false = .ok there →
      ∃ m, m + 1 ≤ n ∧ LeadsTo d m here names there)
    (h : follow d expand false here names false = .ok there) (hfile : d.IsFile there)
    (hhere : d.IsDirectory here) : LeadsTo d n here names there := by
  -- on the names, as for routes; that `here` stays a directory keeps the end off the way
  induction names generalizing here with
  | nil =>
    obtain rfl : here = there := Except.ok.inj h
    exact absurd hhere hfile.not_isDirectory
  | cons name names ih =>
    obtain ⟨hs, hfollowed⟩ := of_follow_cons h
    cases hfollowed with
    | stay rest =>
      obtain ⟨front, last, k, folder, rfl, hk, hroute, rfl⟩ := ih rest hhere
      exact ⟨_ :: front, last, k, folder, rfl, hk, hroute.stay hs, rfl⟩
    | up rest =>
      obtain ⟨front, last, k, folder, rfl, hk, hroute, rfl⟩ :=
        ih rest (htree.isDirectory_dropLast hhere)
      exact ⟨_ :: front, last, k, folder, rfl, hk, hroute.up hs, rfl⟩
    | down hname hnode rest =>
      obtain ⟨front, last, k, folder, rfl, hk, hroute, rfl⟩ :=
        ih rest (isDirectory_iff.2 ⟨_, hnode⟩)
      exact ⟨_ :: front, last, k, folder, rfl, hk, hroute.down hs hname hnode, rfl⟩
    | file _ _ hlast _ hend =>
      subst hlast
      exact ⟨[], name, 0, here, rfl, Nat.zero_le n, .done here, hend⟩
    | kept _ hnode => exact absurd hfile (not_isFile_of_get? hnode nofun)
    | @link _ target hname hnode hreplaced rest =>
      have hne : names ≠ [] := fun hnil => hreplaced ⟨hnil, rfl, rfl⟩
      have hstart : d.IsDirectory (if target.isAbsolute then [] else here) := by
        split
        · exact htree.top
        · exact hhere
      rw [List.isEmpty_eq_false_iff.2 hne] at rest
      obtain ⟨m, hm, front, last, k, folder, hfront, hk, hroute, rfl⟩ := hexpand _ _ hstart rest
      -- the last name stands behind the link
      obtain ⟨front', rfl⟩ : ∃ front', names = front' ++ [last] := by
        have hlast := congrArg List.getLast? hfront
        rw [List.getLast?_append_of_ne_nil _ hne, List.getLast?_concat] at hlast
        exact List.getLast?_eq_some_iff.1 hlast
      rw [← List.append_assoc, List.append_left_inj] at hfront
      subst hfront
      exact ⟨_ :: front', last, k + 1, folder, rfl, by omega, hroute.link hs hname hnode, rfl⟩

/-- On a tree, names that are followed to a file, without a link at the end, lead to it. -/
theorem leadsTo_of_resolve (htree : d.Tree) (h : d.resolve false n here names false = .ok there)
    (hfile : d.IsFile there) (hhere : d.IsDirectory here) : LeadsTo d n here names there := by
  induction n generalizing here names with
  | zero =>
    rw [resolve_eq_follow] at h
    apply leadsTo_of_follow htree _ h hfile hhere
    intro _ _ _ herr
    cases herr
  | succ n ih =>
    rw [resolve_eq_follow] at h
    apply leadsTo_of_follow htree _ h hfile hhere
    intro _ _ hstart hnext
    exact ⟨n, Nat.le_refl _, ih hnext hstart⟩

/-! ## Routes on a disk with less on it

Both directions are by induction on the route: its steps ask for directories and links only, and of
these `without` keeps all as long as nothing but files goes. -/

variable {places : List Place} {place : Place}

theorem permits_of_without {right : Rights → Bool}
    (h : (d.without places).permits right place = .ok ()) : d.permits right place = .ok () := by
  obtain ⟨rights, hnode, hgrants⟩ := permits_eq_ok_iff.1 h
  exact permits_eq_ok_iff.2 ⟨rights, (get?_of_without hnode).2, hgrants⟩

/-- Where only files go, rights are as they were. -/
theorem permits_without {right : Rights → Bool} (hfiles : ∀ file ∈ places, d.IsFile file)
    (h : d.permits right place = .ok ()) : (d.without places).permits right place = .ok () := by
  obtain ⟨rights, hnode, hgrants⟩ := permits_eq_ok_iff.1 h
  refine permits_eq_ok_iff.2 ⟨rights, ?_, hgrants⟩
  rw [get?_without_of_not_isFile hfiles (not_isFile_of_get? hnode nofun), hnode]

/-- Nothing opens a new route by going away. -/
theorem Route.of_without (h : Route (d.without places) k here names there) :
    Route d k here names there := by
  induction h with
  | done => exact .done _
  | stay hs _ ih => exact ih.stay (permits_of_without hs)
  | up hs _ ih => exact ih.up (permits_of_without hs)
  | down hs hname hnode _ ih =>
    exact ih.down (permits_of_without hs) hname (get?_of_without hnode).2
  | link hs hname hnode _ ih =>
    exact ih.link (permits_of_without hs) hname (get?_of_without hnode).2

/-- No route is lost when files go away. A route passes through directories and links only. -/
theorem Route.without (h : Route d k here names there)
    (hfiles : ∀ file ∈ places, d.IsFile file) : Route (d.without places) k here names there := by
  induction h with
  | done => exact .done _
  | stay hs _ ih => exact ih.stay (permits_without hfiles hs)
  | up hs _ ih => exact ih.up (permits_without hfiles hs)
  | down hs hname hnode _ ih =>
    have hkept := get?_without_of_not_isFile hfiles (not_isFile_of_get? hnode nofun)
    exact ih.down (permits_without hfiles hs) hname (hkept.trans hnode)
  | link hs hname hnode _ ih =>
    have hkept := get?_without_of_not_isFile hfiles (not_isFile_of_get? hnode nofun)
    exact ih.link (permits_without hfiles hs) hname (hkept.trans hnode)

/-! ## Routes without links -/

/-- A disk without links. -/
def LinkFree (d : Disk) : Prop := ∀ place target, d.get? place ≠ some (.link target)

/-- Without links, names that point in no direction lead straight down. -/
theorem Route.eq_append (h : Route d k here names there) (hfree : d.LinkFree)
    (hnames : ∀ name ∈ names, name ≠ Path.here ∧ name ≠ Path.above) : there = here ++ names := by
  induction h with
  | done => exact (List.append_nil _).symm
  | stay => exact absurd rfl (hnames _ List.mem_cons_self).1
  | up => exact absurd rfl (hnames _ List.mem_cons_self).2
  | down _ _ _ _ ih =>
    rw [ih fun other hother => hnames other (List.mem_cons_of_mem _ hother), List.append_assoc,
      List.singleton_append]
  | link _ _ hnode => exact absurd hnode (hfree _ _)

end Baseline.Disk

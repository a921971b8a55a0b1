import Baseline.Comparison.Batch
import Baseline.Desk
import Baseline.FlatStore
import Baseline.Proofs.Steps
import Mathlib.Data.Finset.Card
import Mathlib.Data.Finset.Dedup

/-!
# The last record to touch a path

On a flat store the records of a batch can feed each other in any way, and still what becomes of a
path is decided by one of them: the last that was moved and has the path as its source or as its
destination (`lastTouch`). If it is the destination, the content that was moved there is there; if
it is only the source, nothing is; and without such a record the path is as it was in the beginning.

The same rule says which records are moved, as it says whether there is something at their source
when their turn comes (`present`). So the course of a batch is told without running it. The proof
runs it all the same, with one more record at the end each time (`LastTouchLaw.concat`).
-/

namespace Baseline

variable {δ γ : Type}

/-! ## A move between paths -/

namespace FlatStore

/-- The paths with something at them. -/
def paths (s : FlatStore γ) : Finset String := (s.files.map Prod.fst).toFinset

theorem mem_paths {s : FlatStore γ} {path : String} :
    path ∈ s.paths ↔ (s.get? path).isSome = true := by
  rw [paths, List.mem_toFinset, get?, lookup_isSome_iff]

end FlatStore

/-- The store `s'` is the store `s` after a content was moved from one path to another. -/
def Relocated (s : FlatStore γ) (received approved : String) (content : γ) (s' : FlatStore γ) :
    Prop :=
  ∀ path, s'.get? path =
    if path = approved then some content else if path = received then none else s.get? path

namespace Relocated

variable {s s' : FlatStore γ} {received approved : String} {content : γ}

/-- Under a relocation the paths in use lose the one that was moved and gain the one that it was
moved to, which may have been there already. -/
theorem paths_eq (h : Relocated s received approved content s') :
    s'.paths = insert approved (s.paths.erase received) := by
  ext path
  rw [Finset.mem_insert, Finset.mem_erase, FlatStore.mem_paths, FlatStore.mem_paths, h path]
  split_ifs with happroved hreceived
  · simp [happroved]
  · rw [hreceived] at happroved
    simp [happroved, hreceived]
  · simp [happroved, hreceived]

/-- There is one path less exactly if something was replaced, other than the source itself. -/
theorem card_paths (h : Relocated s received approved content s')
    (hreceived : received ∈ s.paths) :
    s'.paths.card + (if approved ≠ received ∧ approved ∈ s.paths then 1 else 0) =
      s.paths.card := by
  have herase := Finset.card_erase_add_one hreceived
  rw [h.paths_eq]
  by_cases hself : approved = received
  · rw [hself, Finset.insert_erase hreceived, if_neg fun hne => hne.1 rfl, Nat.add_zero]
  by_cases hthere : approved ∈ s.paths
  · rw [if_pos ⟨hself, hthere⟩, Finset.insert_eq_of_mem (Finset.mem_erase.2 ⟨hself, hthere⟩),
      herase]
  · rw [if_neg fun hboth => hthere hboth.2, Nat.add_zero,
      Finset.card_insert_of_notMem fun hmem => hthere (Finset.mem_of_mem_erase hmem), herase]

end Relocated

/-- An outside that moves files in a flat store, which `files` shows of its state. A source that is
refused or missing fails and changes nothing; from any other the content is moved. Notes leave the
store alone. -/
structure MovesFlat (o : Outside (StateM δ)) (files : δ → FlatStore γ) (refused : String → Prop) :
    Prop where
  /-- there is nothing to move, or it is refused -/
  fails : ∀ s received approved, refused received ∨ (files s).get? received = none →
    ∃ e s', (o.move received approved).run.run s = (.error e, s') ∧ files s' = files s
  /-- what is there is moved -/
  moves : ∀ s received approved content, ¬ refused received →
    (files s).get? received = some content →
    ∃ s', (o.move received approved).run.run s = (.ok (), s') ∧
      Relocated (files s) received approved content (files s')
  /-- a note changes nothing -/
  notes : ∀ n s, files ((o.note n).run s).2 = files s

/-! ## The rule -/

/-- The record has a path as its source or as its destination. -/
def Comparison.touches (c : Comparison) (path : String) : Bool :=
  c.received == path || c.approved == path

/-- The record was moved and has a path as its source or as its destination. -/
def Accepted.touches (a : Accepted) (path : String) : Bool :=
  a.failure.isNone && a.comparison.touches path

/-- A record that is moved is seen at the paths that it touches, and nowhere else. -/
theorem Relocated.get?_eq {s s' : FlatStore γ} {c : Comparison} {content : γ}
    (h : Relocated s c.received c.approved content s') (path : String) :
    s'.get? path =
      if c.touches path then (if c.approved = path then some content else none)
      else s.get? path := by
  rw [h path, Comparison.touches]
  by_cases happroved : c.approved = path
  · simp [happroved]
  · by_cases hreceived : c.received = path
    · simp [hreceived, Ne.symm happroved, happroved]
    · simp [hreceived, Ne.symm happroved, happroved, Ne.symm hreceived]

/-- The last of some records that was moved and touches a path, and what was tried before it. -/
def lastTouch (path : String) (tried : List Accepted) : Option (Comparison × List Accepted) :=
  match tried.reverse.dropWhile fun a => !a.touches path with
  | [] => none
  | a :: before => some (a.comparison, before.reverse)

/-- Whether something is at a path after some records. -/
def present (initial : FlatStore γ) (path : String) (tried : List Accepted) : Bool :=
  match lastTouch path tried with
  | some (c, _) => c.approved == path
  | none => (initial.get? path).isSome

/-- Whether a record replaces something other than its own source when it is tried behind others. -/
def Accepted.replaces (a : Accepted) (initial : FlatStore γ) (before : List Accepted) : Prop :=
  a.failure = none ∧ a.comparison.approved ≠ a.comparison.received ∧
    present initial a.comparison.approved before = true

instance (a : Accepted) (initial : FlatStore γ) (before : List Accepted) :
    Decidable (a.replaces initial before) :=
  inferInstanceAs (Decidable (_ ∧ _ ∧ _))

/-- How many records replace something other than their own source when they are tried behind
others. -/
def replacedBehind (initial : FlatStore γ) : List Accepted → List Accepted → Nat
  | _, [] => 0
  | before, a :: later =>
    (if a.replaces initial before then 1 else 0) + replacedBehind initial (before ++ [a]) later

/-- How many of some records replace something other than their own source. -/
def replaced (initial : FlatStore γ) (tried : List Accepted) : Nat :=
  replacedBehind initial [] tried

section

variable {path : String} {c : Comparison}

theorem Accepted.touches_moved : (⟨c, none⟩ : Accepted).touches path = c.touches path := rfl

theorem Accepted.touches_kept {reason : String} :
    (⟨c, some reason⟩ : Accepted).touches path = false := rfl

/-- One more record is the last to touch its own two paths, if it was moved; for all other paths the
last touch is the one before. This is the step of every induction below. -/
theorem lastTouch_concat (path : String) (tried : List Accepted) (a : Accepted) :
    lastTouch path (tried ++ [a]) =
      if a.touches path then some (a.comparison, tried) else lastTouch path tried := by
  rw [lastTouch, List.reverse_concat, List.dropWhile_cons]
  by_cases htouches : a.touches path = true
  · rw [if_pos htouches, htouches, Bool.not_true, if_neg Bool.false_ne_true]
    dsimp only
    rw [List.reverse_reverse]
  · rw [if_neg htouches, Bool.eq_false_iff.2 htouches, Bool.not_false, if_pos rfl, lastTouch]

/-- Whether something is there behind one more record is decided by that record if it touches the
path, and by the records before if it does not. -/
theorem present_concat (initial : FlatStore γ) (path : String) (tried : List Accepted)
    (a : Accepted) :
    present initial path (tried ++ [a]) =
      if a.touches path then a.comparison.approved == path
      else present initial path tried := by
  rw [present, lastTouch_concat]
  split_ifs <;> rfl

theorem replacedBehind_concat (initial : FlatStore γ) (before tried : List Accepted)
    (a : Accepted) :
    replacedBehind initial before (tried ++ [a]) = replacedBehind initial before tried +
      if a.replaces initial (before ++ tried) then 1 else 0 := by
  induction tried generalizing before with
  | nil => simp [replacedBehind]
  | cons first tried ih =>
    rw [List.cons_append, replacedBehind, replacedBehind, ih, Nat.add_assoc, List.append_assoc,
      List.singleton_append]

/-- One more record adds at most one to the number of replaced files. -/
theorem replaced_concat (initial : FlatStore γ) (tried : List Accepted) (a : Accepted) :
    replaced initial (tried ++ [a]) =
      replaced initial tried + if a.replaces initial tried then 1 else 0 :=
  replacedBehind_concat initial [] tried a

end

/-! ## One record -/

/-- What becomes of a record on a store, and of the store. -/
inductive Fares (refused : String → Prop) (s : FlatStore γ) : Accepted → FlatStore γ → Prop where
  /-- its content is moved -/
  | moved {c : Comparison} {content : γ} {s' : FlatStore γ} (haccepts : ¬ refused c.received)
      (hget : s.get? c.received = some content)
      (h : Relocated s c.received c.approved content s') : Fares refused s ⟨c, none⟩ s'
  /-- its source is refused or missing -/
  | kept {c : Comparison} {reason : String}
      (h : refused c.received ∨ s.get? c.received = none) : Fares refused s ⟨c, some reason⟩ s

/-- It is moved exactly if something is there to be moved. -/
theorem Fares.failure_iff {refused : String → Prop} {s s' : FlatStore γ} {a : Accepted}
    (h : Fares refused s a s') :
    a.failure = none ↔
      ¬ refused a.comparison.received ∧ (s.get? a.comparison.received).isSome = true := by
  cases h with
  | moved haccepts hget _ => simp [haccepts, hget]
  | kept hfails => rcases hfails with hrefused | hnone <;> simp_all

section

variable {o : Outside (StateM δ)} {files : δ → FlatStore γ} {refused : String → Prop}

/-- What the law asks of a mover, told for one record that is tried: it is moved or it is not, and
the store behind the mover fares accordingly. -/
theorem MovesFlat.run_accept (h : MovesFlat o files refused) (c : Comparison) (d : δ) :
    ∃ a d', (accept o c).run d = (a, d') ∧ a.comparison = c ∧
      Fares refused (files d) a (files d') := by
  by_cases hfails : refused c.received ∨ (files d).get? c.received = none
  · obtain ⟨e, s', hrun, hsame⟩ := h.fails d c.received c.approved hfails
    refine ⟨⟨c, some e.text⟩, ((o.note (moveFailed c e.text)).run s').2, ?_, rfl, ?_⟩
    · rw [accept, run_bind_of_eq hrun]
      rfl
    · rw [h.notes, hsame]
      exact .kept hfails
  · obtain ⟨haccepts, hthere⟩ := not_or.1 hfails
    obtain ⟨content, hget⟩ := Option.ne_none_iff_exists'.1 hthere
    obtain ⟨s', hrun, hmoved⟩ := h.moves d c.received c.approved content haccepts hget
    refine ⟨⟨c, none⟩, s', ?_, rfl, .moved haccepts hget hmoved⟩
    rw [accept, run_bind_of_eq hrun]
    rfl

/-! ## The whole batch -/

/-- A batch can be told from its end: first all records but the last, then the last. The rule speaks
of the last touch, so its induction takes records off at the end. -/
theorem acceptEach_concat {m : Type → Type} [Monad m] [LawfulMonad m] (o : Outside m)
    (cs : List Comparison) (c : Comparison) :
    acceptEach o (cs ++ [c]) = (do
      let tried ← acceptEach o cs
      let a ← accept o c
      return tried ++ [a]) := by
  induction cs with
  | nil => simp [acceptEach]
  | cons first cs ih => simp [acceptEach, ih]

variable (o files refused) in
/-- The store behind some records. -/
def storeBehind (d : δ) (records : List Comparison) : FlatStore γ :=
  files ((acceptAll o records).run d).2

variable (o files refused) in
/-- The course of a batch from `d`, and the store behind it, as the last records to touch each path
decide them. -/
structure LastTouchLaw (d : δ) (tried : List Accepted) (final : FlatStore γ) : Prop where
  /-- a record is moved exactly if its source is not refused and something is there by then -/
  moved : ∀ i (hi : i < tried.length), tried[i].failure = none ↔
    ¬ refused tried[i].comparison.received ∧
      present (files d) tried[i].comparison.received (tried.take i) = true
  /-- a path holds what the last record to touch it has moved there, or nothing if that record has
  only taken something away, or without such a record what it held before -/
  content : ∀ path, final.get? path =
    match lastTouch path tried with
    | some (c, before) =>
      if c.approved = path then
        (storeBehind o files d (before.map Accepted.comparison)).get? c.received
      else none
    | none => (files d).get? path
  /-- something is there at all by the same rule -/
  there : ∀ path, (final.get? path).isSome = present (files d) path tried
  /-- there are as many paths less as records have replaced something other than their source -/
  size : final.paths.card + replaced (files d) tried = (files d).paths.card

theorem LastTouchLaw.nil (d : δ) : LastTouchLaw o files refused d [] (files d) where
  moved i hi := absurd hi (Nat.not_lt_zero i)
  content _ := rfl
  there _ := rfl
  size := rfl

namespace LastTouchLaw

variable {d : δ} {tried : List Accepted} {a : Accepted} {s s' : FlatStore γ}

/-- The clause on success for one more record: it was moved exactly if its source is not refused and
was there behind all records before it. -/
theorem moved_concat (h : LastTouchLaw o files refused d tried s) (ha : Fares refused s a s')
    (i : Nat) (hi : i < (tried ++ [a]).length) : (tried ++ [a])[i].failure = none ↔
      ¬ refused (tried ++ [a])[i].comparison.received ∧
        present (files d) (tried ++ [a])[i].comparison.received
          ((tried ++ [a]).take i) = true := by
  rw [List.length_append, List.length_singleton] at hi
  rcases Nat.lt_succ_iff_lt_or_eq.1 hi with hlt | rfl
  · rw [List.getElem_append_left hlt, List.take_append_of_le_length hlt.le]
    exact h.moved i hlt
  · rw [List.getElem_concat_length rfl, List.take_left, ← h.there]
    exact ha.failure_iff

/-- The clause on contents for one more record. Where it touches the path, the path has what the
source had just before, or nothing if it is the source; elsewhere the earlier clause holds on. -/
theorem content_concat (h : LastTouchLaw o files refused d tried s)
    (hs : storeBehind o files d (tried.map Accepted.comparison) = s) (ha : Fares refused s a s')
    (path : String) : s'.get? path =
      match lastTouch path (tried ++ [a]) with
      | some (c, before) =>
        if c.approved = path then
          (storeBehind o files d (before.map Accepted.comparison)).get? c.received
        else none
      | none => (files d).get? path := by
  rw [lastTouch_concat]
  cases ha with
  | kept hfails =>
    rw [Accepted.touches_kept, if_neg Bool.false_ne_true]
    exact h.content path
  | @moved c content _ _ hget hmoved =>
    rw [Accepted.touches_moved, hmoved.get?_eq path]
    by_cases htouches : c.touches path = true
    · rw [if_pos htouches, if_pos htouches]
      dsimp only
      rw [hs, hget]
    · rw [if_neg htouches, if_neg htouches]
      exact h.content path

/-- The clause on presence for one more record, from the store that the record leaves. -/
theorem there_concat (h : LastTouchLaw o files refused d tried s) (ha : Fares refused s a s')
    (path : String) : (s'.get? path).isSome = present (files d) path (tried ++ [a]) := by
  rw [present_concat]
  cases ha with
  | kept hfails =>
    rw [Accepted.touches_kept, if_neg Bool.false_ne_true]
    exact h.there path
  | @moved c content _ _ _ hmoved =>
    rw [Accepted.touches_moved, hmoved.get?_eq path]
    by_cases htouches : c.touches path = true
    · rw [if_pos htouches, if_pos htouches]
      by_cases happroved : c.approved = path
      · rw [if_pos happroved]
        exact (beq_iff_eq.2 happroved).symm
      · rw [if_neg happroved]
        exact (beq_false_of_ne happroved).symm
    · rw [if_neg htouches, if_neg htouches]
      exact h.there path

/-- The clause on the size for one more record: the store loses a path exactly where something is
replaced. -/
theorem size_concat (h : LastTouchLaw o files refused d tried s) (ha : Fares refused s a s') :
    s'.paths.card + replaced (files d) (tried ++ [a]) = (files d).paths.card := by
  rw [replaced_concat, ← h.size]
  cases ha with
  | kept hfails =>
    rw [if_neg fun hreplaces => nomatch hreplaces.1]
    rfl
  | @moved c content _ _ hget hmoved =>
    have hreceived : c.received ∈ s.paths := FlatStore.mem_paths.2 (by rw [hget]; rfl)
    have hreplaces : (⟨c, none⟩ : Accepted).replaces (files d) tried ↔
        c.approved ≠ c.received ∧ c.approved ∈ s.paths := by
      rw [Accepted.replaces, FlatStore.mem_paths, h.there]
      exact ⟨fun hall => hall.2, fun hboth => ⟨rfl, hboth⟩⟩
    rw [if_congr hreplaces rfl rfl, ← hmoved.card_paths hreceived]
    omega

/-- One more record at the end. Each clause of the law is kept by a lemma of its own above. -/
theorem concat (h : LastTouchLaw o files refused d tried s)
    (hs : storeBehind o files d (tried.map Accepted.comparison) = s) (ha : Fares refused s a s') :
    LastTouchLaw o files refused d (tried ++ [a]) s' :=
  ⟨h.moved_concat ha, h.content_concat hs ha, h.there_concat ha, h.size_concat ha⟩

end LastTouchLaw

/-- The law for a whole batch, by induction from the end: each clause of `LastTouchLaw` is kept by
one more record. -/
theorem MovesFlat.run_acceptEach (h : MovesFlat o files refused) (records : List Comparison)
    (d : δ) :
    ∃ tried d', (acceptEach o records).run d = (tried, d') ∧
      tried.map Accepted.comparison = records ∧
      LastTouchLaw o files refused d tried (files d') := by
  induction records using List.reverseRecOn with
  | nil => exact ⟨[], d, rfl, rfl, .nil d⟩
  | append_singleton records c ih =>
    obtain ⟨tried, d', hrun, hrecords, hlaw⟩ := ih
    obtain ⟨a, d'', hone, hcomparison, hfares⟩ := h.run_accept c d'
    have hbehind : storeBehind o files d (tried.map Accepted.comparison) = files d' := by
      rw [storeBehind, acceptAll, hrecords, run_bind_of_eq hrun]
      rfl
    refine ⟨tried ++ [a], d'', ?_, ?_, hlaw.concat hbehind hfares⟩
    · rw [acceptEach_concat, run_bind_of_eq hrun, run_bind_of_eq hone]
      rfl
    · rw [List.map_append, hrecords, List.map_singleton, hcomparison]

/-- **The last record decides.** Whatever the records of a batch are and however they feed each
other on a flat store, each is tried once and in order, and it is moved exactly if its source is not
refused and something is there by then: put there by the last record moved so far that has it as
source or destination, or there from the beginning if there is no such record. Behind the batch each
path is as the last record to touch it has left it, and there are as many paths less as records have
replaced something other than their own source. -/
theorem acceptAll_lastTouch (o : Outside (StateM δ)) (files : δ → FlatStore γ)
    (refused : String → Prop) (hmoves : MovesFlat o files refused) (records : List Comparison)
    (d : δ) :
    ∃ tried d', (acceptAll o records).run d = (Outcome.of tried, d') ∧
      tried.map Accepted.comparison = records ∧
      LastTouchLaw o files refused d tried (files d') := by
  obtain ⟨tried, d', hrun, hrecords, hlaw⟩ := hmoves.run_acceptEach records d
  exact ⟨tried, d', run_bind_of_eq hrun _, hrecords, hlaw⟩

end

/-! ## The flat store itself -/

namespace FlatStore

variable {refused : String → Option String} {received approved : String} {s : FlatStore γ}

theorem relocated_insert_erase (s : FlatStore γ) (received approved : String) (content : γ) :
    Relocated s received approved content ((s.erase received).insert approved content) :=
  fun path => by rw [get?_insert, get?_erase]

/-- The mover of the flat store succeeds where it is not told to refuse and the source is there;
then the source is taken out and put in at the target. -/
theorem run_move_ok {content : γ} (haccepts : refused received = none)
    (hget : s.get? received = some content) :
    (move refused received approved).run.run s =
      (.ok (), (s.erase received).insert approved content) := by
  have hstore : (get : ExceptT IoError (StateM (FlatStore γ)) (FlatStore γ)).run.run s =
      (.ok s, s) := rfl
  rw [move, haccepts]
  dsimp only
  rw [run_bind_ok hstore, hget]
  rfl

/-- In all other cases it fails and leaves the store as it is. -/
theorem run_move_error (h : (refused received).isSome = true ∨ s.get? received = none) :
    ∃ e, (move refused received approved).run.run s = (.error e, s) := by
  have hstore : (get : ExceptT IoError (StateM (FlatStore γ)) (FlatStore γ)).run.run s =
      (.ok s, s) := rfl
  rw [move]
  cases hrefused : refused received with
  | some reason => exact ⟨refusal reason, rfl⟩
  | none =>
    rw [hrefused] at h
    dsimp only
    rw [run_bind_ok hstore, h.resolve_left Bool.false_ne_true]
    exact ⟨absent received, rfl⟩

theorem run_move_desk {ι : Type} (refused : String → Option String)
    (delete : String → ExceptT IoError (StateM (FlatStore γ)) Unit)
    (next : ExceptT IoError (StateM ι) String) (received approved : String)
    (d : Desk (FlatStore γ) ι) :
    ((Desk.outside (move refused) delete next).move received approved).run.run d =
      (((move refused received approved).run.run d.store).1,
        { d with store := ((move refused received approved).run.run d.store).2 }) :=
  rfl

/-- Moves on a desk with a flat store are such moves. -/
theorem movesFlat {ι : Type} (refused : String → Option String)
    (delete : String → ExceptT IoError (StateM (FlatStore γ)) Unit)
    (next : ExceptT IoError (StateM ι) String) :
    MovesFlat (Desk.outside (move refused) delete next) Desk.store
      fun path => (refused path).isSome = true := by
  refine ⟨fun d received approved hfails => ?_, fun d received approved content haccepts hget => ?_,
    fun _ _ => rfl⟩
  · obtain ⟨e, hrun⟩ := run_move_error hfails
    exact ⟨e, d, by rw [run_move_desk, hrun], rfl⟩
  · have hnone : refused received = none := by simpa using haccepts
    refine ⟨_, by rw [run_move_desk, run_move_ok hnone hget], ?_⟩
    exact relocated_insert_erase d.store received approved content

end FlatStore

/-- Records that swap two files, move one onto itself and one over another, and a fourth that is
gone by then; one more is refused. -/
def crossing : List Comparison :=
  [⟨"a", "c"⟩, ⟨"b", "a"⟩, ⟨"c", "b"⟩, ⟨"a", "a"⟩, ⟨"x", "y"⟩, ⟨"a", "z"⟩, ⟨"a", "b"⟩]

/-- A desk with four files. -/
def fourFiles : Desk (FlatStore String) Script :=
  ⟨⟨[("a", "first"), ("b", "second"), ("x", "third"), ("z", "fourth")]⟩, ⟨[]⟩, none⟩

/-- Only `x` is refused. -/
def refusesX (path : String) : Option String := if path = "x" then some "no" else none

/-- Moves on the desk. -/
def fourFilesOutside : Outside (StateM (Desk (FlatStore String) Script)) :=
  Desk.outside (FlatStore.move refusesX) (FlatStore.delete refusesX) Script.next

/-- The last of the crossing records to touch `b` is the third, and the file that was at `z` is the
one that is replaced. -/
theorem acceptAll_lastTouch_crossing :
    MovesFlat fourFilesOutside Desk.store (fun path => (refusesX path).isSome = true) ∧
      ((acceptAll fourFilesOutside crossing).run fourFiles).2.store =
        ⟨[("z", "second"), ("b", "first"), ("x", "third")]⟩ ∧
      ∃ tried d', (acceptAll fourFilesOutside crossing).run fourFiles = (Outcome.of tried, d') ∧
        tried.map Accepted.comparison = crossing ∧
        LastTouchLaw fourFilesOutside Desk.store (fun path => (refusesX path).isSome = true)
          fourFiles tried d'.store := by
  have hmoves : MovesFlat fourFilesOutside Desk.store fun path => (refusesX path).isSome = true :=
    FlatStore.movesFlat refusesX (FlatStore.delete refusesX) Script.next
  exact ⟨hmoves, by decide +kernel,
    acceptAll_lastTouch fourFilesOutside Desk.store _ hmoves crossing fourFiles⟩

end Baseline

import Baseline.Proofs.Comparison.LastTouch

/-!
# Records in any order

Records are independent if no two have the same source or the same destination, and no source is a
destination. On a flat store such records do not touch each other: what becomes of each is settled
by the store as it was in the beginning (`fate`), and a path is changed by one of them at most
(`Settled`). Nothing of that depends on the order in which they are tried, so a batch comes to the
same in every order.

The proof tries one record after the other. It leaves the sources of those behind it alone, so they
fare as they would have before (`get?_received_of_cons`), and they leave its own paths alone, so
what it has done there stays (`Settled.cons`).
-/

namespace Baseline

variable {δ γ : Type}

/-! ## Movers that say why -/

/-- An outside that moves files in a flat store, and whose reason for a failure tells of the source
only which one it is and whether something is there. -/
structure MovesPlainly (o : Outside (StateM δ)) (files : δ → FlatStore γ) (refused : String → Prop)
    (reason : String → Bool → String) : Prop extends MovesFlat o files refused where
  /-- the reason of a failure -/
  tells : ∀ s received approved e s', (o.move received approved).run.run s = (.error e, s') →
    e.text = reason received ((files s).get? received).isSome

section

variable (refused : String → Prop) [DecidablePred refused] (reason : String → Bool → String)

/-- Whether a record can be moved: something is at its source, and it is not refused. -/
def movable (s : FlatStore γ) (c : Comparison) : Bool :=
  !decide (refused c.received) && (s.get? c.received).isSome

/-- What becomes of a record on a store. -/
def fate (s : FlatStore γ) (c : Comparison) : Accepted :=
  ⟨c, if movable refused s c then none
    else some (reason c.received (s.get? c.received).isSome)⟩

end

section

variable {o : Outside (StateM δ)} {files : δ → FlatStore γ} {refused : String → Prop}
  [DecidablePred refused] {reason : String → Bool → String} {s s' : FlatStore γ}
  {c other : Comparison} {path : String}

theorem movable_iff :
    movable refused s c = true ↔ ¬ refused c.received ∧ (s.get? c.received).isSome = true := by
  simp [movable]

theorem movable_congr (h : s'.get? c.received = s.get? c.received) :
    movable refused s' c = movable refused s c := by
  rw [movable, movable, h]

/-- What becomes of a record depends on what the store has at its source and on nothing else, so
records elsewhere can come before or after it. -/
theorem fate_congr (h : s'.get? c.received = s.get? c.received) :
    fate refused reason s' c = fate refused reason s c := by
  rw [fate, fate, movable_congr h, h]

theorem fate_failure_iff :
    (fate refused reason s c).failure = none ↔ movable refused s c = true := by
  rw [fate]
  cases movable refused s c <;> simp

omit [DecidablePred refused] in
/-- A record that fails has the reason that the mover gives. -/
theorem MovesPlainly.reason_eq (h : MovesPlainly o files refused reason) {d d' : δ} {why : String}
    (hrun : (accept o c).run d = (⟨c, some why⟩, d')) :
    why = reason c.received ((files d).get? c.received).isSome := by
  rcases hmove : (o.move c.received c.approved).run.run d with ⟨⟨e⟩ | ⟨⟨⟩⟩, d''⟩
  · rw [accept, run_bind_of_eq hmove] at hrun
    obtain rfl : e.text = why := Option.some.inj (congrArg (·.1.failure) hrun)
    exact h.tells d c.received c.approved e d'' hmove
  · rw [accept, run_bind_of_eq hmove] at hrun
    exact absurd (congrArg (·.1.failure) hrun).symm (Option.some_ne_none why)

/-- A record fares as the store has it. What the mover answers is settled by the store in front of
the record, so the state behind it need not be known. -/
theorem MovesPlainly.run_accept (h : MovesPlainly o files refused reason) (c : Comparison) (d : δ) :
    ∃ d', (accept o c).run d = (fate refused reason (files d) c, d') ∧
      Fares refused (files d) (fate refused reason (files d) c) (files d') := by
  obtain ⟨⟨comparison, failure⟩, d', hrun, hsame, hfares⟩ := h.toMovesFlat.run_accept c d
  obtain rfl : comparison = c := hsame
  have hfate : ⟨comparison, failure⟩ = fate refused reason (files d) comparison := by
    have hiff := hfares.failure_iff.trans movable_iff.symm
    cases failure with
    | none => rw [fate, if_pos (hiff.1 rfl)]
    | some why => rw [fate, if_neg (mt hiff.2 nofun), h.reason_eq hrun]
  exact ⟨d', hfate ▸ hrun, hfate ▸ hfares⟩

/-! ## Independent records -/

/-- Records of which no two have anything to do with each other. -/
structure Independent (records : List Comparison) : Prop where
  /-- the sources differ -/
  received : (records.map Comparison.received).Nodup
  /-- the destinations differ -/
  approved : (records.map Comparison.approved).Nodup
  /-- no source is a destination -/
  apart : ∀ c ∈ records, ∀ other ∈ records, c.received ≠ other.approved

theorem Comparison.touches_eq_false_iff :
    c.touches path = false ↔ c.received ≠ path ∧ c.approved ≠ path := by
  rw [touches, Bool.or_eq_false_iff, beq_eq_false_iff_ne, beq_eq_false_iff_ne]

namespace Independent

variable {records order : List Comparison}

/-- Independence says nothing of the order. -/
theorem perm (h : Independent records) (hperm : records.Perm order) : Independent order where
  received := (hperm.map _).nodup_iff.1 h.received
  approved := (hperm.map _).nodup_iff.1 h.approved
  apart c hc other hother := h.apart c (hperm.mem_iff.2 hc) other (hperm.mem_iff.2 hother)

theorem of_cons (h : Independent (c :: records)) : Independent records where
  received := (List.nodup_cons.1 h.received).2
  approved := (List.nodup_cons.1 h.approved).2
  apart first hfirst other hother :=
    h.apart first (List.mem_cons_of_mem c hfirst) other (List.mem_cons_of_mem c hother)

/-- The first record leaves the sources of the others alone. -/
theorem head_touches (h : Independent (c :: records)) (hother : other ∈ records) :
    c.touches other.received = false := by
  refine Comparison.touches_eq_false_iff.2 ⟨fun hsame => ?_, ?_⟩
  · exact (List.nodup_cons.1 h.received).1 (hsame ▸ List.mem_map_of_mem hother)
  · exact (h.apart other (List.mem_cons_of_mem c hother) c List.mem_cons_self).symm

/-- The others leave its source and its destination alone. -/
theorem tail_touches (h : Independent (c :: records)) (hother : other ∈ records) :
    other.touches c.received = false ∧ other.touches c.approved = false := by
  have hmem := List.mem_cons_of_mem c hother
  refine ⟨Comparison.touches_eq_false_iff.2 ⟨fun hsame => ?_, ?_⟩,
    Comparison.touches_eq_false_iff.2 ⟨?_, fun hsame => ?_⟩⟩
  · exact (List.nodup_cons.1 h.received).1 (hsame ▸ List.mem_map_of_mem hother)
  · exact (h.apart c List.mem_cons_self other hmem).symm
  · exact h.apart other hmem c List.mem_cons_self
  · exact (List.nodup_cons.1 h.approved).1 (hsame ▸ List.mem_map_of_mem hother)

end Independent

/-! ## What they do to a store -/

/-- The store `s'` is the store `s` behind some records that were tried in any order: whatever could
be moved in the beginning was moved. -/
structure Settled (refused : String → Prop) [DecidablePred refused] (s : FlatStore γ)
    (records : List Comparison) (s' : FlatStore γ) : Prop where
  /-- it is at its destination -/
  filled : ∀ c ∈ records, movable refused s c = true → s'.get? c.approved = s.get? c.received
  /-- nothing is at its source -/
  emptied : ∀ c ∈ records, movable refused s c = true → s'.get? c.received = none
  /-- everything else is as it was -/
  kept : ∀ path, (∀ c ∈ records, movable refused s c = true → c.touches path = false) →
    s'.get? path = s.get? path

/-- Nothing but the records says what the store is. Where two orders settle the same records, the
stores agree at every path, and flat stores that agree everywhere are equal. -/
theorem Settled.get?_eq {records order : List Comparison} {final final' : FlatStore γ}
    (h : Settled refused s records final) (h' : Settled refused s order final')
    (hmem : ∀ c, c ∈ order ↔ c ∈ records) (path : String) : final'.get? path = final.get? path := by
  by_cases htouched : ∃ c ∈ records, movable refused s c = true ∧ c.touches path = true
  · obtain ⟨c, hc, hmovable, htouches⟩ := htouched
    rw [Comparison.touches, Bool.or_eq_true, beq_iff_eq, beq_iff_eq] at htouches
    rcases htouches with rfl | rfl
    · rw [h.emptied c hc hmovable, h'.emptied c ((hmem c).2 hc) hmovable]
    · rw [h.filled c hc hmovable, h'.filled c ((hmem c).2 hc) hmovable]
  · have hnone : ∀ c ∈ records, movable refused s c = true → c.touches path = false :=
      fun c hc hmovable => Bool.eq_false_iff.2 fun htouches => htouched ⟨c, hc, hmovable, htouches⟩
    rw [h.kept path hnone, h'.kept path fun c hc => hnone c ((hmem c).1 hc)]

omit [DecidablePred refused] in
/-- A record changes nothing but the paths that it touches. -/
theorem Fares.get?_eq {a : Accepted} (h : Fares refused s a s')
    (htouches : a.touches path = false) : s'.get? path = s.get? path := by
  cases h with
  | moved _ _ hmoved =>
    rw [Accepted.touches_moved] at htouches
    rw [hmoved.get?_eq path, htouches, if_neg Bool.false_ne_true]
  | kept _ => rfl

/-- A record that was not moved touches nothing, and one that was moved touches its two paths. -/
theorem touches_fate :
    (fate refused reason s c).touches path = (movable refused s c && c.touches path) := by
  rw [fate, Accepted.touches]
  cases movable refused s c <;> rfl

/-- What can be moved is then at its destination, and no longer at its source. -/
theorem Fares.of_movable (h : Fares refused s (fate refused reason s c) s')
    (hmovable : movable refused s c = true) (hne : c.received ≠ c.approved) :
    s'.get? c.approved = s.get? c.received ∧ s'.get? c.received = none := by
  rw [fate, if_pos hmovable] at h
  cases h with
  | moved _ hget hmoved =>
    rw [hmoved, hmoved, if_pos rfl, if_neg hne, if_pos rfl, hget]
    exact ⟨rfl, rfl⟩

section

variable {records : List Comparison} (hindependent : Independent (c :: records))
  (hfares : Fares refused s (fate refused reason s c) s')
include hindependent hfares

/-- The first record changes nothing at the sources of those behind it. -/
theorem get?_received_of_cons (hother : other ∈ records) :
    s'.get? other.received = s.get? other.received := by
  refine hfares.get?_eq ?_
  rw [touches_fate, hindependent.head_touches hother, Bool.and_false]

/-- One more record in front of others. -/
theorem Settled.cons {final : FlatStore γ} (h : Settled refused s' records final) :
    Settled refused s (c :: records) final := by
  have hmovable {other : Comparison} (hother : other ∈ records) :
      movable refused s' other = movable refused s other :=
    movable_congr (get?_received_of_cons hindependent hfares hother)
  have hself := hindependent.apart c List.mem_cons_self c List.mem_cons_self
  -- what the first record has done at its own paths stays
  have hreceived : final.get? c.received = s'.get? c.received :=
    h.kept _ fun other hother _ => (hindependent.tail_touches hother).1
  have happroved : final.get? c.approved = s'.get? c.approved :=
    h.kept _ fun other hother _ => (hindependent.tail_touches hother).2
  constructor
  · refine List.forall_mem_cons.2 ⟨fun hc => ?_, fun other hother hgoes => ?_⟩
    · rw [happroved, (hfares.of_movable hc hself).1]
    · rw [h.filled other hother ((hmovable hother).trans hgoes),
        get?_received_of_cons hindependent hfares hother]
  · refine List.forall_mem_cons.2 ⟨fun hc => ?_, fun other hother hgoes => ?_⟩
    · rw [hreceived, (hfares.of_movable hc hself).2]
    · exact h.emptied other hother ((hmovable hother).trans hgoes)
  · intro path huntouched
    obtain ⟨hhead, htail⟩ := List.forall_mem_cons.1 huntouched
    rw [h.kept path fun other hother hgoes =>
      htail other hother ((hmovable hother).symm.trans hgoes)]
    refine hfares.get?_eq ?_
    rw [touches_fate]
    cases hc : movable refused s c with
    | true => exact hhead hc
    | false => rfl

end

/-! ## The whole batch -/

/-- Independent records fare as the store has them in the beginning, each for itself. -/
theorem MovesPlainly.run_acceptEach (h : MovesPlainly o files refused reason)
    {records : List Comparison} (hindependent : Independent records) (d : δ) :
    ∃ d', (acceptEach o records).run d = (records.map (fate refused reason (files d)), d') ∧
      Settled refused (files d) records (files d') := by
  induction records generalizing d with
  | nil => exact ⟨d, rfl, by simp, by simp, fun _ _ => rfl⟩
  | cons c records ih =>
    obtain ⟨d', hrun, hfares⟩ := h.run_accept c d
    obtain ⟨d'', hrest, hsettled⟩ := ih hindependent.of_cons d'
    have hfates : records.map (fate refused reason (files d')) =
        records.map (fate refused reason (files d)) :=
      List.map_congr_left fun other hother =>
        fate_congr (get?_received_of_cons hindependent hfares hother)
    refine ⟨d'', ?_, hsettled.cons hindependent hfares⟩
    rw [acceptEach, run_bind_of_eq hrun, run_bind_of_eq hrest, hfates]
    rfl

/-- The baselines that are replaced where records fare as a store has them. -/
theorem approved_of_fates (s : FlatStore γ) (records : List Comparison) :
    (Outcome.of (records.map (fate refused reason s))).approved =
      (records.filter (movable refused s)).map Comparison.approved := by
  have hsucceeds : (fun a : Accepted => a.failure.isNone) ∘ fate refused reason s =
      movable refused s := by
    funext c
    rw [Bool.eq_iff_iff, Function.comp_apply, Option.isNone_iff_eq_none, fate_failure_iff]
  rw [Outcome.of, List.filter_map, hsucceeds, List.map_map]
  rfl

/-- And those that are not. -/
theorem failed_of_fates (s : FlatStore γ) (records : List Comparison) :
    (Outcome.of (records.map (fate refused reason s))).failed =
      (records.filter fun c => !movable refused s c).map fun c =>
        ⟨c.approved, reason c.received (s.get? c.received).isSome⟩ := by
  rw [Outcome.of]
  dsimp only
  induction records with
  | nil => rfl
  | cons c records ih =>
    rw [List.map_cons, List.filterMap_cons, List.filter_cons, ih, fate]
    cases movable refused s c <;> rfl

/-- **Independent records may come in any order.** On a flat store, where a record fails for a
reason that tells no more than its source and whether something is there, every order of independent
records comes to the same: the ones that are moved are those whose source is there in the beginning
and not refused, the others fail with the reason that they would have in the beginning, the lists
have them in the order of the batch, and the store is the same in the end. -/
theorem acceptAll_reordered (hmoves : MovesPlainly o files refused reason)
    {records order : List Comparison} (hindependent : Independent records)
    (hperm : order.Perm records) (d : δ) :
    ((acceptAll o order).run d).1 =
        { recordCount := records.length
          approved := (order.filter (movable refused (files d))).map Comparison.approved
          failed := (order.filter fun c => !movable refused (files d) c).map fun c =>
            ⟨c.approved, reason c.received ((files d).get? c.received).isSome⟩ } ∧
      ∀ path, (storeBehind o files d order).get? path =
        (storeBehind o files d records).get? path := by
  obtain ⟨d', hrun, hsettled⟩ := hmoves.run_acceptEach hindependent d
  obtain ⟨d'', hrun', hsettled'⟩ := hmoves.run_acceptEach (hindependent.perm hperm.symm) d
  rw [storeBehind, storeBehind, acceptAll, acceptAll, run_bind_of_eq hrun, run_bind_of_eq hrun']
  refine ⟨?_, hsettled.get?_eq hsettled' fun _ => hperm.mem_iff⟩
  rw [← approved_of_fates, ← failed_of_fates, ← hperm.length_eq]
  exact congrArg (Outcome.mk · _ _) (List.length_map _)

end

/-! ## The flat store itself -/

/-- A flat store gives its own reason for a path that it refuses, and else says that nothing is
there. -/
def FlatStore.plainReason (refused : String → Option String) (path : String) : String :=
  (refused path).getD (FlatStore.absent path).text

/-- The text of a failure of the flat store is a function of the source alone: the reason to refuse
it, if there is one, and else that it is missing. So failures read alike in every order. -/
theorem FlatStore.text_of_run_move {refused : String → Option String} {received approved : String}
    {s s' : FlatStore γ} {e : IoError}
    (h : (move refused received approved).run.run s = (.error e, s')) :
    e.text = plainReason refused received := by
  have hstore : (get : ExceptT IoError (StateM (FlatStore γ)) (FlatStore γ)).run.run s =
      (.ok s, s) := rfl
  rw [move] at h
  rw [plainReason]
  cases hrefused : refused received with
  | some reason =>
    rw [hrefused] at h
    obtain rfl : refusal reason = e := Except.error.inj (congrArg Prod.fst h)
    rfl
  | none =>
    rw [hrefused] at h
    dsimp only at h
    rw [run_bind_ok hstore] at h
    cases hget : s.get? received with
    | none =>
      rw [hget] at h
      obtain rfl : absent received = e := Except.error.inj (congrArg Prod.fst h)
      rfl
    | some content =>
      rw [hget] at h
      cases congrArg Prod.fst h

/-- Moves on a desk with a flat store say why they fail. -/
theorem FlatStore.movesPlainly {ι : Type} (refused : String → Option String)
    (delete : String → ExceptT IoError (StateM (FlatStore γ)) Unit)
    (next : ExceptT IoError (StateM ι) String) :
    MovesPlainly (Desk.outside (move refused) delete next) Desk.store
      (fun path => (refused path).isSome = true) fun path _ => plainReason refused path where
  toMovesFlat := movesFlat refused delete next
  tells d received approved e d' hrun := by
    rw [run_move_desk, Prod.mk.injEq] at hrun
    exact text_of_run_move (Prod.ext hrun.1 rfl)

/-- Records of which one replaces a file, one is refused, one has nothing at its source and one
goes to a new path. -/
def apart : List Comparison := [⟨"a", "z"⟩, ⟨"x", "y"⟩, ⟨"gone", "x'"⟩, ⟨"b", "c"⟩]

/-- The records that stand apart come to the same in the reverse order. -/
theorem acceptAll_reordered_apart :
    MovesPlainly fourFilesOutside Desk.store (fun path => (refusesX path).isSome = true)
        (fun path _ => FlatStore.plainReason refusesX path) ∧
      Independent apart ∧ apart.reverse.Perm apart ∧
      ((acceptAll fourFilesOutside apart.reverse).run fourFiles).1 =
        ⟨4, ["c", "z"], [⟨"x'", "No such file or directory: 'gone'"⟩, ⟨"y", "no"⟩]⟩ ∧
      ∀ path, (storeBehind fourFilesOutside Desk.store fourFiles apart.reverse).get? path =
        (storeBehind fourFilesOutside Desk.store fourFiles apart).get? path := by
  have hmoves : MovesPlainly fourFilesOutside Desk.store
      (fun path => (refusesX path).isSome = true)
      (fun path _ => FlatStore.plainReason refusesX path) :=
    FlatStore.movesPlainly refusesX (FlatStore.delete refusesX) Script.next
  have hindependent : Independent apart := ⟨by decide, by decide, by decide⟩
  have hperm : apart.reverse.Perm apart := List.reverse_perm apart
  obtain ⟨houtcome, hstore⟩ := acceptAll_reordered hmoves hindependent hperm fourFiles
  refine ⟨hmoves, hindependent, hperm, houtcome.trans ?_, hstore⟩
  decide +kernel

/-- A record that feeds another does not come to the same behind it. -/
example :
    ((acceptAll fourFilesOutside [⟨"a", "c"⟩, ⟨"c", "b"⟩]).run fourFiles).1.approved = ["c", "b"] ∧
      ((acceptAll fourFilesOutside [⟨"c", "b"⟩, ⟨"a", "c"⟩]).run fourFiles).1.approved = ["c"] := by
  decide +kernel

end Baseline

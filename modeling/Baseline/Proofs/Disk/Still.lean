import Baseline.Disk.Desk
import Baseline.Proofs.Desk.Run

/-!
# Reading a disk that stands still

A session reads first and changes the disk only afterwards. While it reads, it may as well read a
value: `Disk.still d` is the disk `d` as something to read from, with no state behind it.

`Mirrors` says that a step on a desk comes to the same as a step on the value, and leaves remarks at
most: notes, and lines on the error output. It holds of the readings themselves, and goes through
every combination of steps, so what a scan on a desk finds is a function of the disk alone.
-/

namespace Baseline

/-- The disk as what a run may read, while nothing changes it. -/
def Disk.still (d : Disk) : View Id := Disk.view.through fun step => (step.run d).1

section

variable {ι α β ε : Type}

/-- A note, or a line on the error output. -/
def Event.IsRemark : Event → Prop
  | .noted _ | .complained _ => True
  | _ => False

/-- Effects that only tell of the run. -/
def Remarks (events : List Event) : Prop := ∀ event ∈ events, event.IsRemark

namespace Remarks

variable {events more : List Event}

theorem nil : Remarks [] := fun _ h => absurd h List.not_mem_nil

theorem append (h : Remarks events) (hmore : Remarks more) : Remarks (events ++ more) := by
  intro event hevent
  exact (List.mem_append.1 hevent).elim (h event) (hmore event)

theorem of_notes (notes : List Note) : Remarks (notes.map .noted) := by
  intro event hevent
  obtain ⟨note, -, rfl⟩ := List.mem_map.1 hevent
  trivial

/-- Remarks are neither deletions nor lines, moves or questions, so they drop out of all that is
read off a trace. -/
theorem deletions_eq (h : Remarks events) : events.filterMap Event.deletion? = [] := by
  refine List.filterMap_eq_nil_iff.2 fun event hevent => ?_
  have hremark := h event hevent
  cases event with
  | noted | complained => rfl
  | said | asked | moving | deleting | printed => cases hremark

theorem lines_eq (h : Remarks events) : events.filterMap Event.line? = [] := by
  refine List.filterMap_eq_nil_iff.2 fun event hevent => ?_
  have hremark := h event hevent
  cases event with
  | noted | complained => rfl
  | said | asked | moving | deleting | printed => cases hremark

theorem count_asked (h : Remarks events) : events.count .asked = 0 :=
  List.count_eq_zero.2 fun hevent => h .asked hevent

theorem moves_eq (h : Remarks events) : events.filterMap Event.move? = [] := by
  refine List.filterMap_eq_nil_iff.2 fun event hevent => ?_
  have hremark := h event hevent
  cases event with
  | noted | complained => rfl
  | said | asked | moving | deleting | printed => cases hremark

end Remarks

/-- On every desk with the disk `d` the step gives `a`, and it does nothing but leave remarks. -/
def Reads (d : Disk) (x : StateM (Traced (Desk Disk ι)) α) (a : α) : Prop :=
  ∀ t, t.state.store = d →
    ∃ remarks, Remarks remarks ∧ x.run t = (a, ⟨t.state, t.events ++ remarks⟩)

/-- A step on a desk with the disk `d` comes to the same as a step on a value. -/
def Mirrors (d : Disk) (x : ExceptT ε (StateM (Traced (Desk Disk ι))) α) (y : ExceptT ε Id α) :
    Prop :=
  Reads d x.run y.run

namespace Reads

variable {d : Disk} {x : StateM (Traced (Desk Disk ι)) α} {a : α}
  {f : α → StateM (Traced (Desk Disk ι)) β} {b : β}

/-- A step that gives what it gives and leaves everything as it is. -/
theorem of_run (h : ∀ t, t.state.store = d → x.run t = (a, t)) : Reads d x a := by
  intro t ht
  refine ⟨[], .nil, ?_⟩
  rw [h t ht, List.append_nil]

theorem pure (d : Disk) (a : α) : Reads d (pure a : StateM (Traced (Desk Disk ι)) α) a :=
  of_run fun _ _ => rfl

/-- Readings one after the other are a reading, and their remarks stand one behind the other. With
`pure` it carries through every program that only reads. -/
theorem bind (h : Reads d x a) (hf : Reads d (f a) b) : Reads d (x >>= f) b := by
  intro t ht
  obtain ⟨remarks, hremarks, hx⟩ := h t ht
  obtain ⟨more, hmore, hfx⟩ := hf ⟨t.state, t.events ++ remarks⟩ ht
  refine ⟨remarks ++ more, hremarks.append hmore, ?_⟩
  rw [StateT.run_bind, hx, ← List.append_assoc]
  exact hfx

/-- A note is a remark. -/
theorem note (move : String → String → ExceptT IoError (StateM Disk) Unit)
    (delete : String → ExceptT IoError (StateM Disk) Unit)
    (next : ExceptT IoError (StateM ι) String) (d : Disk) (n : Note) :
    Reads d ((deskOutside move delete next).note n) () :=
  fun _ _ => ⟨[.noted n], .of_notes [n], rfl⟩

end Reads

namespace Mirrors

variable {d : Disk} {x : ExceptT ε (StateM (Traced (Desk Disk ι))) α} {y : ExceptT ε Id α}

theorem pure (d : Disk) (a : α) :
    Mirrors d (Pure.pure a : ExceptT ε (StateM (Traced (Desk Disk ι))) α) (Pure.pure a) :=
  Reads.of_run fun _ _ => rfl

theorem throw (d : Disk) (e : ε) :
    Mirrors d (MonadExcept.throw e : ExceptT ε (StateM (Traced (Desk Disk ι))) α)
      (MonadExcept.throw e) :=
  Reads.of_run fun _ _ => rfl

theorem lift {x : StateM (Traced (Desk Disk ι)) α} {y : Id α} (h : Reads d x y) :
    Mirrors d (ExceptT.lift x : ExceptT ε _ α) (ExceptT.lift y) := by
  intro t ht
  obtain ⟨remarks, hremarks, hx⟩ := h t ht
  refine ⟨remarks, hremarks, ?_⟩
  rw [ExceptT.run_lift, StateT.run_map, hx]
  rfl

/-- The same for steps that may fail: an error ends the reading on the desk where it ends on the
value. -/
theorem bind (h : Mirrors d x y) {f : α → ExceptT ε (StateM (Traced (Desk Disk ι))) β}
    {g : α → ExceptT ε Id β} (hf : ∀ a, Mirrors d (f a) (g a)) : Mirrors d (x >>= f) (y >>= g) := by
  intro t ht
  obtain ⟨remarks, hremarks, hx⟩ := h t ht
  cases hy : y.run with
  | error e =>
    rw [hy] at hx
    refine ⟨remarks, hremarks, ?_⟩
    rw [run_bind_error hx, ExceptT.run_bind, hy]
    rfl
  | ok a =>
    rw [hy] at hx
    obtain ⟨more, hmore, hfx⟩ := hf a ⟨t.state, t.events ++ remarks⟩ ht
    refine ⟨remarks ++ more, hremarks.append hmore, ?_⟩
    rw [run_bind_ok hx, hfx, ExceptT.run_bind, hy, List.append_assoc]
    rfl

/-! ## What is read -/

theorem kind (d : Disk) (p : Path) :
    Mirrors d ((Desk.diskView (ι := ι)).kind p) (d.still.kind p) :=
  Reads.of_run fun _ ht => ht ▸ rfl

/-- What a path leads to is read off the disk, and a desk has nothing else to say about it. -/
theorem targetKind (d : Disk) (p : Path) :
    Mirrors d ((Desk.diskView (ι := ι)).targetKind p) (d.still.targetKind p) :=
  Reads.of_run fun _ ht => ht ▸ rfl

theorem content (d : Disk) (p : Path) :
    Mirrors d ((Desk.diskView (ι := ι)).content p) (d.still.content p) :=
  Reads.of_run fun _ ht => ht ▸ rfl

theorem entries (d : Disk) (p : Path) :
    Mirrors d ((Desk.diskView (ι := ι)).entries p) (d.still.entries p) :=
  Reads.of_run fun _ ht => ht ▸ rfl

end Mirrors

theorem Reads.here (d : Disk) : Reads d (Desk.diskView (ι := ι)).here d.still.here :=
  Reads.of_run fun _ ht => ht ▸ rfl

end

end Baseline

import Baseline.Log
import Baseline.Proofs.Desk.Input
import Baseline.Proofs.Disk.Still
import Baseline.Proofs.Disk.Tree
import Baseline.Proofs.Text.Lines

/-!
# Two readers of lines

A log is read as a whole and cut into lines, a standard input is read one line at a time. Both give
the lines that the text falls into (`readLog_of_holds`, `reads_of_lined`), so on the same text they
agree, and behind its lines the input is closed (`readLog_iff_reads`).
-/

namespace Baseline

variable {d : Disk} {p : Path} {text : String}

/-! ## Reading a log -/

/-- What can be read at a path is a text. -/
def Disk.Holds (d : Disk) (p : Path) (text : String) : Prop :=
  (d.still.content p).run = .ok (Utf8.encode text)

/-- A log that holds a text gives its lines. It can be read, and what it holds is text, so nothing
is in the way. -/
theorem readLog_of_holds (h : d.Holds p text) : (readLog d.still p).run = .ok (Line.all text) := by
  have hlift : (ExceptT.lift (d.still.content p).run : ExceptT Error Id _).run =
      .ok (.ok (Utf8.encode text)) := congrArg Except.ok h
  rw [readLog, run_bind_id_ok hlift]
  dsimp only
  rw [Utf8.decode?_encode]
  rfl

/-! ## Reading an input -/

/-- What comes of so many readings of an input with these lines: the lines in order, and for every
reading behind the last of them that the input is closed. -/
def readings (lines : List String) (n : Nat) : List (Except IoError String) :=
  (lines.take n).map .ok ++ List.replicate (n - lines.length) (.error .inputClosed)

theorem readings_zero (lines : List String) : readings lines 0 = [] := by
  rw [readings, List.take_zero, Nat.zero_sub]
  rfl

/-- Behind the last line every reading says that the input is closed, however often it is tried. -/
theorem readings_nil (n : Nat) : readings [] n = List.replicate n (.error .inputClosed) := by
  rw [readings, List.take_nil, List.length_nil, Nat.sub_zero]
  rfl

/-- A reading takes one line, so the readings of a log go along its lines and end as those of an
empty log do. -/
theorem readings_cons_succ (line : String) (lines : List String) (n : Nat) :
    readings (line :: lines) (n + 1) = .ok line :: readings lines n := by
  rw [readings, List.take_succ_cons, List.length_cons, Nat.add_sub_add_right]
  rfl

/-- The readings that succeed are those of the lines. -/
theorem filterMap_readings (lines : List String) (n : Nat) :
    (readings lines n).filterMap Except.toOption = lines.take n := by
  have hlines (all : List String) :
      (all.map (Except.ok (ε := IoError))).filterMap Except.toOption = all := by
    rw [List.filterMap_map]
    exact List.filterMap_some
  rw [readings, List.filterMap_append, hlines, List.filterMap_replicate_of_none rfl,
    List.append_nil]

/-- A text is read from an input line by line. -/
theorem reads_of_lined {cs : List Char} {pieces : List (List Char)} (h : Line.Lined cs pieces)
    (n : Nat) :
    ((Input.reads n).run ⟨Utf8.encode (String.ofList cs)⟩).1 =
      readings (pieces.map String.ofList) n := by
  -- on the lines, each of which is the first of what is left when it is read
  induction h generalizing n with
  | nothing => exact (Input.reads_closed n).trans (readings_nil n).symm
  | @last piece hne hplain =>
    cases n with
    | zero => exact (readings_zero _).symm
    | succ n =>
      have hline : String.ofList piece ≠ "" := fun h => hne (String.ofList_inj.1 h)
      rw [Input.run_reads_succ, Line.next_encode hline (by rwa [String.toList_ofList]),
        Input.reads_closed, List.map_singleton, readings_cons_succ, readings_nil]
      rfl
  | @ended piece rest lines hplain _ ih =>
    cases n with
    | zero => exact (readings_zero _).symm
    | succ n =>
      have hbytes : Utf8.encode (String.ofList (piece ++ '\n' :: rest)) =
          Utf8.encode (String.ofList piece) ++ 10 :: Utf8.encode (String.ofList rest) := by
        rw [Utf8.encode, Utf8.encode, Utf8.encode, String.toList_ofList, String.toList_ofList,
          String.toList_ofList, List.flatMap_append, List.flatMap_cons]
        rfl
      rw [hbytes, Input.run_reads_succ,
        Line.next_encode_feed (by rwa [String.toList_ofList]), ih, List.map_cons,
        readings_cons_succ, String.toList_ofList]
      rfl

/-- The lines of a text are read from an input that holds it. -/
theorem reads_encode (text : String) (n : Nat) :
    ((Input.reads n).run ⟨Utf8.encode text⟩).1 = readings (Line.all text) n := by
  have hreads := reads_of_lined (Line.lined_all text) n
  rwa [String.ofList_toList, Line.map_ofList_eq_iff.2 rfl] at hreads

/-- **The two readers agree.** A log that holds a text can be read. The lines that it gives are
those that an input with the same text gives one by one before it is closed for good, and they are
all that is ever read from it. -/
theorem readLog_iff_reads (hfile : d.Holds p text) :
    (∃ lines, (readLog d.still p).run = .ok lines) ∧
      ∀ lines,
        ((readLog d.still p).run = .ok lines ↔
          ∀ n, ((Input.reads n).run ⟨Utf8.encode text⟩).1 = readings lines n) ∧
        ((readLog d.still p).run = .ok lines ↔
          ∀ n, ((Input.reads n).run ⟨Utf8.encode text⟩).1.filterMap Except.toOption =
            lines.take n) := by
  have hread := readLog_of_holds hfile
  have hlines {lines : List String} (h : (readLog d.still p).run = .ok lines) :
      Line.all text = lines := Except.ok.inj (hread.symm.trans h)
  -- lines that give the same successes, however often one reads, are the same
  have hback {lines : List String}
      (h : ∀ n, ((Input.reads n).run ⟨Utf8.encode text⟩).1.filterMap Except.toOption =
        lines.take n) : (readLog d.still p).run = .ok lines := by
    have hall := h ((Line.all text).length + lines.length)
    rw [reads_encode, filterMap_readings, List.take_of_length_le (Nat.le_add_right _ _),
      List.take_of_length_le (Nat.le_add_left _ _)] at hall
    rw [hread, hall]
  refine ⟨⟨_, hread⟩, fun lines => ⟨⟨fun h n => ?_, fun h => hback fun n => ?_⟩,
    fun h n => ?_, hback⟩⟩
  · rw [reads_encode, hlines h]
  · rw [h n, filterMap_readings]
  · rw [reads_encode, filterMap_readings, hlines h]

/-- Lines with every ending, empty ones among them, and a CR where it is text. -/
def mixedText : String := "a\r\r\n\n\r\nb\r"

/-- A log with that text. -/
def mixedLog : Disk := .laidOut ["w"] [[], ["w"]] [(["w", "log"], mixedText)]

/-- A CR is text unless an LF follows it, for both readers. -/
theorem readLog_iff_reads_mixed :
    mixedLog.Holds (.ofString "log") mixedText ∧
      (readLog mixedLog.still (.ofString "log")).run = .ok ["a\r", "", "", "b\r"] ∧
      ∀ n, ((Input.reads n).run ⟨Utf8.encode mixedText⟩).1 =
        readings ["a\r", "", "", "b\r"] n := by
  have hfile : mixedLog.Holds (.ofString "log") mixedText := rfl
  have hread : (readLog mixedLog.still (.ofString "log")).run = .ok ["a\r", "", "", "b\r"] := rfl
  exact ⟨hfile, hread, ((readLog_iff_reads hfile).2 _).1.1 hread⟩

end Baseline

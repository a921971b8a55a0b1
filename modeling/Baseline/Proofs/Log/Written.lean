import Baseline.Proofs.Log.Readers

/-!
# Writing a log and reading it back

A log is written entry by entry, each with an ending of its own (`Written`). It is known what lines
such a log falls into (`Written.lined`): the entries, except that a CR in front of a bare LF is
taken for a part of the ending, and that an empty entry without an ending is no line. So the log
gives its entries back exactly if neither is there (`lines_eq_entries_iff`). Lines that were read
hold no LF, so every log can be written anew such that it gives its lines back
(`readLog_roundTrip`).
-/

namespace Baseline

/-- How a written entry is ended. -/
inductive Ending where
  /-- by a bare LF -/
  | feed
  /-- by CR LF -/
  | returnFeed
deriving DecidableEq, Repr

/-- What an ending is written as. -/
def Ending.text : Ending → String
  | feed => "\n"
  | returnFeed => "\r\n"

/-- What is written to a log. -/
structure Written where
  /-- the entries that are ended, each with its ending -/
  ended : List (String × Ending)
  /-- the entry behind them that is not, if there is one -/
  last : Option String
deriving DecidableEq, Repr

namespace Written

variable {w : Written}

/-- All entries. -/
def entries (w : Written) : List String := w.ended.map Prod.fst ++ w.last.toList

/-- The text of the log. -/
def text (w : Written) : String :=
  String.join (w.ended.map fun entry => entry.1 ++ entry.2.text) ++ w.last.getD ""

/-- No part of an entry is taken for its ending, and no entry goes unseen. -/
structure Legible (w : Written) : Prop where
  /-- an entry that a bare LF ends does not itself end in CR -/
  noReturn : ∀ {entry}, (entry, .feed) ∈ w.ended → ¬ ['\r'] <:+ entry.toList
  /-- an entry that nothing ends is not empty -/
  last_ne : w.last ≠ some ""

/-- Entries that are all ended by CR LF. -/
def returned (entries : List String) : Written := ⟨entries.map (·, .returnFeed), none⟩

/-! ## The lines of a written log -/

/-- What a reader takes an entry for. -/
def lineOf : String × Ending → List Char
  | (entry, .feed) => Line.dropReturn entry.toList
  | (entry, .returnFeed) => entry.toList

/-- What a reader takes the entries for. -/
def lines (w : Written) : List (List Char) :=
  w.ended.map lineOf ++ (w.last.toList.filter (· ≠ "")).map String.toList

/-- What was written falls into the lines that were written, as the rule of lines has it, where no
entry breaks a line itself. -/
theorem lined (hplain : ∀ entry ∈ w.entries, '\n' ∉ entry.toList) :
    Line.Lined w.text.toList w.lines := by
  obtain ⟨ended, last⟩ := w
  -- on the entries that are ended; behind them is the last one, if there is one
  induction ended with
  | nil =>
    rw [text, List.map_nil, String.join_nil, String.empty_append]
    cases last with
    | none => exact .nothing
    | some entry =>
      by_cases hne : entry = ""
      · rw [hne]
        exact .nothing
      · rw [lines, Option.toList_some, List.filter_cons_of_pos (by simpa using hne)]
        exact .last (mt String.toList_eq_nil_iff.1 hne) (hplain entry (by simp [entries]))
  | cons first more ih =>
    obtain ⟨entry, ending⟩ := first
    have hentry : '\n' ∉ entry.toList := hplain entry (by simp [entries])
    have hmore := ih fun entry hmem => hplain entry (List.mem_cons_of_mem _ hmem)
    have htext : (text ⟨(entry, ending) :: more, last⟩).toList =
        entry.toList ++ ending.text.toList ++ (text ⟨more, last⟩).toList := by
      rw [text, List.map_cons, String.join_cons, String.append_assoc, String.toList_append,
        String.toList_append]
      rfl
    rw [htext, List.append_assoc]
    cases ending with
    | feed => exact .ended hentry hmore
    | returnFeed =>
      -- the CR is in front of the LF, and the line is what is in front of both
      have hreturned : '\n' ∉ entry.toList ++ ['\r'] := by simpa using hentry
      have hended := hmore.ended hreturned
      rwa [Line.dropReturn_concat, List.append_assoc] at hended

/-- A line is read as its entry unless a CR at the end of the entry joins the LF behind it, which
makes it part of the ending. -/
theorem lineOf_eq_iff {entry : String × Ending} :
    lineOf entry = entry.1.toList ↔ (entry.2 = .feed → ¬ ['\r'] <:+ entry.1.toList) := by
  obtain ⟨entry, ending⟩ := entry
  cases ending with
  | feed => exact Line.dropReturn_eq_self_iff.trans ⟨fun h _ => h, fun h => h rfl⟩
  | returnFeed => exact ⟨fun _ => nofun, fun _ => rfl⟩

/-- A reader takes the entries for what they are exactly if they are legible. -/
theorem lines_eq_entries_iff : w.lines = w.entries.map String.toList ↔ w.Legible := by
  have hended : w.ended.map lineOf = (w.ended.map Prod.fst).map String.toList ↔
      ∀ entry ending, (entry, ending) ∈ w.ended → ending = .feed → ¬ ['\r'] <:+ entry.toList := by
    rw [List.map_map, List.map_inj_left, Prod.forall]
    exact forall₃_congr fun entry ending _ => lineOf_eq_iff
  have hlast : (w.last.toList.filter (· ≠ "")).map String.toList =
      w.last.toList.map String.toList ↔ w.last ≠ some "" := by
    cases w.last with
    | none => simp
    | some entry => by_cases hne : entry = "" <;> simp [hne]
  rw [lines, entries, List.map_append]
  constructor
  · intro h
    obtain ⟨hfirst, hbehind⟩ := List.append_inj h (by simp)
    exact ⟨fun hmem => hended.1 hfirst _ _ hmem rfl, hlast.1 hbehind⟩
  · rintro ⟨hnoReturn, hne⟩
    rw [hended.2 fun entry ending hmem heq => hnoReturn (heq ▸ hmem), hlast.2 hne]

/-- Entries that are all ended by CR LF can be read back whatever they end in themselves: of several
CR in front of an LF only the last is taken for the ending, and no entry is left without one. -/
theorem legible_returned (entries : List String) : (returned entries).Legible where
  noReturn hmem := by
    obtain ⟨_, _, h⟩ := List.mem_map.1 hmem
    cases h
  last_ne := nofun

theorem entries_returned (lines : List String) : (returned lines).entries = lines := by
  rw [entries, returned, List.map_map, Option.toList_none, List.append_nil]
  exact List.map_id lines

end Written

/-! ## Reading back -/

variable {d : Disk} {p : Path} {text : String}

/-- A written log gives its entries back exactly if they are legible. -/
theorem readLog_eq_entries_iff {w : Written}
    (hplain : ∀ entry ∈ w.entries, '\n' ∉ entry.toList) (hfile : d.Holds p w.text) :
    (readLog d.still p).run = .ok w.entries ↔ w.Legible := by
  rw [readLog_of_holds hfile, (Written.lined hplain).all_eq, Except.ok.injEq,
    Line.map_ofList_eq_iff, Written.lines_eq_entries_iff]

/-- **Logs read back as they were written.** A log gives back the entries that were written to it
exactly if they are legible, and lines that were read are read again from a log to which they are
written with CR LF. -/
theorem readLog_roundTrip (hfile : d.Holds p text) :
    (∀ w : Written, (∀ entry ∈ w.entries, '\n' ∉ entry.toList) → w.text = text →
      ((readLog d.still p).run = .ok w.entries ↔ w.Legible)) ∧
    ∃ lines, (readLog d.still p).run = .ok lines ∧
      ∀ {copy : Disk} {q : Path}, copy.Holds q (Written.returned lines).text →
        (readLog copy.still q).run = .ok lines := by
  refine ⟨fun w hplain htext => readLog_eq_entries_iff hplain (htext ▸ hfile), Line.all text,
    readLog_of_holds hfile, fun {copy q} hcopy => ?_⟩
  have hentries := Written.entries_returned (Line.all text)
  have hplain : ∀ entry ∈ (Written.returned (Line.all text)).entries, '\n' ∉ entry.toList :=
    fun entry hentry =>
      (Line.lined_all text).feed_notMem (List.mem_map_of_mem (hentries ▸ hentry))
  have hcopied := (readLog_eq_entries_iff hplain hcopy).2 (Written.legible_returned _)
  rwa [hentries] at hcopied

/-- A log in which every ending can be told from its entry. -/
def told : Written :=
  ⟨[("a\r", .returnFeed), ("", .feed), ("", .returnFeed)], some "b\r"⟩

/-- A log with the same text, in which none can. -/
def mistold : Written :=
  ⟨[("a\r\r", .feed), ("", .feed), ("\r", .feed)], some "b\r"⟩

/-- The lines of that text, written anew. -/
def copiedLog : Disk :=
  .laidOut ["w"] [[], ["w"]] [(["w", "copy"], (Written.returned ["a\r", "", "", "b\r"]).text)]

/-- One text that is read as the one log and not as the other, and its copy. -/
theorem readLog_roundTrip_mixed :
    mixedLog.Holds (.ofString "log") mixedText ∧ told.text = mixedText ∧
      mistold.text = mixedText ∧ told.Legible ∧ ¬ mistold.Legible ∧
      (readLog mixedLog.still (.ofString "log")).run = .ok told.entries ∧
      (readLog mixedLog.still (.ofString "log")).run ≠ .ok mistold.entries ∧
      (readLog copiedLog.still (.ofString "copy")).run = .ok ["a\r", "", "", "b\r"] := by
  have hfile : mixedLog.Holds (.ofString "log") mixedText := rfl
  have hcopy : copiedLog.Holds (.ofString "copy")
      (Written.returned ["a\r", "", "", "b\r"]).text := rfl
  have htold : told.text = mixedText := by decide +kernel
  have hmistold : mistold.text = mixedText := by decide +kernel
  have hlegible : told.Legible :=
    { noReturn := fun {entry} hmem => by
        obtain rfl : entry = "" := by simpa [told] using hmem
        decide
      last_ne := by decide }
  have hillegible : ¬ mistold.Legible := fun h =>
    absurd (h.noReturn (by decide : ("a\r\r", Ending.feed) ∈ mistold.ended)) (by decide)
  obtain ⟨hread, lines, hlines, hcopied⟩ := readLog_roundTrip hfile
  have htoldRead := (hread told (by decide) htold).2 hlegible
  obtain rfl : lines = ["a\r", "", "", "b\r"] := Except.ok.inj (hlines.symm.trans htoldRead)
  exact ⟨hfile, htold, hmistold, hlegible, hillegible, htoldRead,
    fun h => hillegible ((hread mistold (by decide) hmistold).1 h), hcopied hcopy⟩

end Baseline

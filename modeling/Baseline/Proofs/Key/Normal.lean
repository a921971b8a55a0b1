import Baseline.Key
import Baseline.Proofs.Path.Names
import Baseline.Proofs.Text.Utf8

/-!
# Keys as normal forms

The text of a key is a path with that key (`ofPath_text`), so a comparison text is its own
comparison text (`keyText_keyText`), and paths with the same comparison text have the same key
(`keyText_inj`).

A run hands comparison texts to the disk. Along such a text the disk finds the parts of the key
(`names_ofString_text`). Without a backslash in the path these are the names of the path itself,
apart from `.` (`names_ofString_keyText`); a backslash in a name becomes a slash.
-/

namespace Baseline

namespace Key

/-- A part that the key of a path can have. -/
structure IsPart (part : String) : Prop where
  /-- it says something -/
  counts : counts part = true
  /-- it holds no separator -/
  plain : ∀ c ∈ part.toList, isSeparator c = false

/-- A key that some path has. -/
def Proper (k : Key) : Prop := ∀ part ∈ k.parts, IsPart part

theorem IsPart.ne_empty {part : String} (h : IsPart part) : part ≠ "" := by
  rintro rfl
  cases h.counts

theorem IsPart.ne_dot {part : String} (h : IsPart part) : part ≠ "." := by
  rintro rfl
  cases h.counts

theorem IsPart.slash_notMem {part : String} (h : IsPart part) : '/' ∉ part.toList :=
  fun hmem => Bool.noConfusion (h.plain _ hmem)

/-- The keys of paths are proper. Their parts are neither empty nor `.`, and hold no slash of either
kind; that is all that the laws of keys ask of a key. -/
theorem proper_ofPath (path : String) : (ofPath path).Proper := by
  intro part hpart
  obtain ⟨hmem, hcounts⟩ := List.mem_filter.1 hpart
  obtain ⟨piece, hpiece, rfl⟩ := List.mem_map.1 hmem
  refine ⟨hcounts, fun c hc => not_of_mem_splitWhere hpiece ?_⟩
  rwa [String.toList_ofList] at hc

/-! ## Reading a key's text back -/

/-- Joining texts with slashes is joining their characters with slashes, for which the library has
the laws. -/
theorem toList_joined (parts : List String) :
    (joined parts).toList = ['/'].intercalate (parts.map String.toList) := by
  rw [joined, String.toList_intercalate]
  rfl

/-- Any test that knows the slash as a separator, and no character of the parts, cuts the joined
parts where they were joined. -/
theorem splitWhere_joined {p : Char → Bool} (hp : p '/' = true) {parts : List String}
    (hne : parts ≠ []) (h : ∀ part ∈ parts, ∀ c ∈ part.toList, p c = false) :
    splitWhere p (joined parts).toList = parts.map String.toList := by
  rw [toList_joined, splitWhere_intercalate hp (by simpa using hne)]
  intro piece hpiece
  obtain ⟨part, hpart, rfl⟩ := List.mem_map.1 hpiece
  exact h part hpart

/-- The parts that are read back from joined parts. -/
theorem parts_joined {parts : List String} (h : ∀ part ∈ parts, IsPart part) :
    ((splitWhere isSeparator (joined parts).toList).map String.ofList).filter counts = parts := by
  by_cases hne : parts = []
  · rw [hne]
    rfl
  · have hback : String.ofList ∘ String.toList = id := funext fun _ => String.ofList_toList
    rw [splitWhere_joined rfl hne fun part hpart => (h part hpart).plain, List.map_map, hback,
      List.map_id, List.filter_eq_self]
    exact fun part hpart => (h part hpart).counts

/-- The text of a proper key is a path with that key. -/
theorem ofPath_text {k : Key} (h : k.Proper) : ofPath k.text = k := by
  obtain ⟨rooted, parts⟩ := k
  cases rooted with
  | true =>
    have htext : (text ⟨true, parts⟩).toList = '/' :: (joined parts).toList := by
      rw [text, String.toList_append]
      rfl
    rw [ofPath, htext, splitWhere_cons_of_pos rfl, List.map_cons,
      List.filter_cons_of_neg (by decide), parts_joined h]
    rfl
  | false =>
    cases parts with
    | nil => rfl
    | cons part more =>
      -- a relative key begins with a part, so its text does not read as a rooted one
      have hhead : (joined (part :: more)).toList.head?.any isSeparator = false := by
        obtain ⟨c, cs, hc⟩ : ∃ c cs, part.toList = c :: cs := by
          cases hcs : part.toList with
          | nil =>
            exact absurd (String.toList_eq_nil_iff.1 hcs) (h part List.mem_cons_self).ne_empty
          | cons c cs => exact ⟨c, cs, rfl⟩
        have hplain := (h part List.mem_cons_self).plain c (by rw [hc]; exact List.mem_cons_self)
        rw [toList_joined, List.map_cons, hc]
        cases more.map String.toList with
        | nil => simpa using hplain
        | cons next rest => simpa using hplain
      rw [ofPath, text, hhead, parts_joined h]

end Key

/-- The text of a key has that key, so taking the key twice is taking it once. -/
theorem ofPath_keyText (path : String) : Key.ofPath (keyText path) = Key.ofPath path :=
  Key.ofPath_text (Key.proper_ofPath path)

/-- A comparison text is its own comparison text. So it does not matter whether a log holds paths or
their keys. -/
theorem keyText_keyText (path : String) : keyText (keyText path) = keyText path := by
  rw [keyText, ofPath_keyText]
  rfl

/-- Paths with the same comparison text have the same key. -/
theorem keyText_inj {p q : String} : keyText p = keyText q ↔ Key.ofPath p = Key.ofPath q := by
  refine ⟨fun h => ?_, fun h => by rw [keyText, h]; rfl⟩
  rw [← ofPath_keyText p, h, ofPath_keyText]

/-! ## What the disk sees of a comparison text -/

namespace Key

theorem encode_ofList (piece : List Char) :
    Utf8.encode (String.ofList piece) = piece.flatMap Utf8.encodeChar := by
  rw [Utf8.encode, String.toList_ofList]

/-- Parts that are joined as text are joined as bytes. -/
theorem encode_joined (parts : List String) :
    Utf8.encode (joined parts) = Path.joinNames (parts.map Utf8.encode) := by
  rw [Utf8.encode, toList_joined, Path.joinNames]
  induction parts with
  | nil => rfl
  | cons part more ih =>
    cases more with
    | nil => simp [Utf8.encode]
    | cons next more =>
      rw [List.map_cons, List.map_cons, List.intercalate_cons_cons, List.map_cons, List.map_cons,
        List.intercalate_cons_cons, List.flatMap_append, List.flatMap_append, ← List.map_cons,
        ← List.map_cons, ih]
      rfl

/-- The path that a rooted key spells is the path of the place that its parts name. -/
theorem ofString_text {k : Key} (hrooted : k.rooted = true) :
    Path.ofString k.text = Disk.pathOf (k.parts.map Utf8.encode) := by
  obtain ⟨rooted, parts⟩ := k
  obtain rfl : rooted = true := hrooted
  rw [Path.ofString, text, Utf8.encode_append, encode_joined]
  rfl

theorem IsPart.isPiece_encode {part : String} (h : IsPart part) :
    Path.IsPiece (Utf8.encode part) := by
  refine ⟨fun hnil => h.ne_empty (Utf8.encode_injective hnil), fun hslash => ?_⟩
  obtain ⟨c, hc, hmem⟩ := List.mem_flatMap.1 hslash
  obtain rfl : c = '/' := (Utf8.mem_encodeChar_iff (s := '/') (by decide)).1 hmem
  exact h.slash_notMem hc

/-- A part of a proper key can stand between two slashes of a path, in bytes as in characters. -/
theorem Proper.isPiece_encode {k : Key} (h : k.Proper) {name : Bytes}
    (hname : name ∈ k.parts.map Utf8.encode) : Path.IsPiece name := by
  obtain ⟨part, hpart, rfl⟩ := List.mem_map.1 hname
  exact (h part hpart).isPiece_encode

/-- Along the text of a rooted key the disk finds the parts of the key. -/
theorem names_ofString_text {k : Key} (hrooted : k.rooted = true) (h : k.Proper) :
    (Path.ofString k.text).names = k.parts.map Utf8.encode := by
  rw [ofString_text hrooted, Path.names_pathOf fun _ => h.isPiece_encode]

end Key

/-- The byte that a key reads as a slash. -/
def backslash : UInt8 := 0x5C

theorem rooted_ofPath {p : Path} {text : String} (htext : Utf8.encode text = p.bytes)
    (habsolute : p.isAbsolute = true) : (Key.ofPath text).rooted = true := by
  rw [Path.isAbsolute, ← htext, Utf8.encode, beq_iff_eq] at habsolute
  cases hcs : text.toList with
  | nil =>
    rw [hcs] at habsolute
    cases habsolute
  | cons c cs =>
    -- the first byte is one of the first character, and only a slash has that byte
    have hmem : Path.slash ∈ Utf8.encodeChar c := by
      rw [hcs, List.flatMap_cons, List.head?_append] at habsolute
      cases hc : Utf8.encodeChar c with
      | nil => exact absurd hc (Utf8.encodeChar_ne_nil c)
      | cons b bs =>
        rw [hc] at habsolute
        obtain rfl : b = Path.slash := by simpa using habsolute
        exact List.mem_cons_self
    obtain rfl : c = '/' := (Utf8.mem_encodeChar_iff (s := '/') (by decide)).1 hmem
    simp [Key.ofPath, hcs, Key.isSeparator]

/-- A piece of text counts if its bytes are a name other than `.`. -/
theorem counts_ofList (piece : List Char) :
    Key.counts (String.ofList piece) =
      (piece.flatMap Utf8.encodeChar != Path.here && !(piece.flatMap Utf8.encodeChar).isEmpty) := by
  have hempty : Utf8.encode (String.ofList piece) = [] ↔ String.ofList piece = "" :=
    ⟨fun h => Utf8.encode_injective h, fun h => by rw [h]; rfl⟩
  have hdot : Utf8.encode (String.ofList piece) = Path.here ↔ String.ofList piece = "." :=
    ⟨fun h => Utf8.encode_injective (h.trans (by decide)), fun h => by rw [h]; decide⟩
  rw [← Key.encode_ofList, Bool.eq_iff_iff]
  simp [Key.counts, hempty, hdot, and_comm]

/-- Along the comparison text of an absolute path the disk finds the names along the path, apart
from `.`, unless the path holds a backslash. -/
theorem names_ofString_keyText {p : Path} {text : String} (htext : Utf8.encode text = p.bytes)
    (habsolute : p.isAbsolute = true) (hplain : backslash ∉ p.bytes) :
    (Path.ofString (keyText text)).names = p.names.filter (· != Path.here) := by
  -- a key cuts at both slashes and the disk at one, which is the same without a backslash
  have hsplit : splitWhere Key.isSeparator text.toList = splitWhere (· == '/') text.toList := by
    refine splitWhere_congr fun c hc => ?_
    have hc' : c ≠ '\\' := by
      rintro rfl
      rw [← htext] at hplain
      exact hplain (List.mem_flatMap.2 ⟨'\\', hc, by decide⟩)
    simp [Key.isSeparator, hc']
  have hpieces : splitWhere (· == Path.slash) (Utf8.encode text) =
      (splitWhere (· == '/') text.toList).map (·.flatMap Utf8.encodeChar) :=
    Utf8.splitWhere_flatMap_encodeChar (s := '/') (by decide) text.toList
  rw [keyText, Key.names_ofString_text (rooted_ofPath htext habsolute) (Key.proper_ofPath text),
    Key.ofPath, hsplit, Path.names, ← htext, hpieces, List.filter_filter, List.filter_map,
    List.filter_map, List.map_map]
  exact congrArg₂ List.map (funext Key.encode_ofList)
    (congrArg (List.filter · _) (funext counts_ofList))

end Baseline

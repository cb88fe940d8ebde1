import Mathlib.Data.List.Forall2
import LiquidCatalog.Proofs.Po.RoundTrip

/-!
The header of a file, line by line.

The text of the header has a line for each of its keys, and one more for each line feed in a value.
In the file each of these lines stands in quotes. What is read off the quotes is the text again, but
for the carriage returns directly before its line feeds.
-/

namespace LiquidCatalog.Po

open Output

namespace Line

lemma quoted?_eq_some_iff {before after t : String} {s : List Char} :
    quoted? before after s = some t ↔ s = (quoted before t after).flatten := by
  constructor
  · intro h
    simp only [quoted?, Option.bind_eq_bind, Option.bind_eq_some_iff, Option.pure_def,
      Option.some.injEq] at h
    obtain ⟨u, hu, v, hv, w, hw, rfl⟩ := h
    rw [List.isPrefixOf?_eq_some_iff_append_eq] at hu
    rw [List.isSuffixOf?_eq_some_iff_append_eq] at hv
    rw [Quoted.decode_eq_some_iff] at hw
    simp [quoted, ← hu, ← hv, ← hw]
  · rintro rfl
    exact quoted?_quoted before t after

/-- The line feed that ends a line of the header's text stands in the quotes. -/
lemma chars_headerField (s : String) :
    (headerField s).chars = (quoted "" (s ++ "\n") "").flatten := by
  simp [chars, pieces, quoted, Quoted.encode_append, Quoted.encodeChar]

lemma quoted?_headerField (s : String) : quoted? "" "" (headerField s).chars = some (s ++ "\n") :=
  quoted?_eq_some_iff.2 (chars_headerField s)

lemma chars_headerField_injective : Function.Injective fun s => (headerField s).chars := by
  intro s t h
  have hchars : (headerField s).chars = (headerField t).chars := h
  have hread := quoted?_headerField s
  rw [hchars, quoted?_headerField] at hread
  exact (String.append_left_inj "\n").1 (Option.some.inj hread).symm

end Line

/-! ### The text -/

namespace Header

/-- The texts that the values of the header are made of. -/
def texts (h : Header) : List String :=
  [h.projectIdVersion, h.potCreationDate, h.poRevisionDate, h.lastTranslator, h.languageTeam,
    h.mimeVersion, h.contentType, h.contentTransferEncoding, h.language, h.pluralExpression]

/-- A key and its value on one line. -/
def fieldLine (f : String × String) : String := f.1 ++ ": " ++ f.2

lemma toList_fieldLine (f : String × String) :
    (fieldLine f).toList = f.1.toList ++ ':' :: ' ' :: f.2.toList := by
  simp [fieldLine]

lemma toList_text (h : Header) :
    h.text.toList = (h.fields.map fun f => (fieldLine f).toList).flatMap (· ++ ['\n']) := by
  rw [text, String.toList_join, List.flatMap_map, List.flatMap_map]
  exact List.flatMap_congr fun f _ => String.toList_append

/-- The last line of the text is ended. -/
lemma forall_getLast?_text (h : Header) : ∀ c ∈ h.text.toList.getLast?, c = '\n' := by
  have hlast : h.text.toList.getLast? = some '\n' := by
    rw [toList_text]
    exact getLast?_flatMap_lines (by simp [fields])
  rw [hlast]
  rintro c ⟨⟩
  rfl

lemma newline_not_mem_toDigits (n : Nat) : '\n' ∉ Nat.toDigits 10 n := fun h =>
  absurd (Nat.isDigit_of_mem_toDigits (by decide) (by decide) h) (by decide)

lemma newline_not_mem_key (h : Header) : ∀ f ∈ h.fields, '\n' ∉ f.1.toList := by
  simp only [fields, List.forall_mem_cons, List.not_mem_nil, false_implies, implies_true, and_true]
  decide

/-- Each line has one line feed, and those of its value. -/
lemma count_newline_fieldLines {fields : List (String × String)}
    (hkeys : ∀ f ∈ fields, '\n' ∉ f.1.toList) :
    (fields.flatMap fun f => (fieldLine f).toList ++ ['\n']).count '\n' =
      fields.length + (fields.flatMap (·.2.toList)).count '\n' := by
  induction fields with
  | nil => rfl
  | cons f fields ih =>
    rw [List.forall_mem_cons] at hkeys
    have hline : (fieldLine f).toList.count '\n' = f.2.toList.count '\n' := by
      simp [toList_fieldLine, List.count_eq_zero.2 hkeys.1]
    simp only [List.flatMap_cons, List.count_append, List.count_singleton_self, List.length_cons,
      hline, ih hkeys.2]
    omega

lemma count_newline_pluralForms (h : Header) :
    h.pluralForms.toList.count '\n' = h.pluralExpression.toList.count '\n' := by
  have hnumber := List.count_eq_zero.2 (newline_not_mem_toDigits h.pluralCount)
  simp [pluralForms, hnumber]

lemma count_newline_text (h : Header) :
    h.text.toList.count '\n' = 10 + (h.texts.flatMap (·.toList)).count '\n' := by
  have hvalues : (h.fields.flatMap (·.2.toList)).count '\n' =
      (h.texts.flatMap (·.toList)).count '\n' := by
    simp only [fields, texts, List.flatMap_cons, List.flatMap_nil, List.count_append,
      count_newline_pluralForms]
  rw [toList_text, List.flatMap_map, count_newline_fieldLines h.newline_not_mem_key, hvalues]
  rfl

/-! ### The lines in quotes -/

/-- The lines of the header's text as they stand in a file. -/
def quotedLines (h : Header) : List (List Char) :=
  (Text.lines h.text).map fun s => (Line.headerField s).chars

lemma quotedLines_eq (h : Header) :
    h.quotedLines =
      (Text.lineChars ((h.fields.map fun f => f.1.toList ++ ':' :: ' ' :: f.2.toList).flatMap
        (· ++ ['\n']))).map fun l => '"' :: (Quoted.encode l ++ ['\\', 'n', '"']) := by
  simp only [quotedLines, Text.lines, toList_text, toList_fieldLine, List.map_map]
  exact List.map_congr_left fun l _ => by simp [Line.chars, Line.pieces, Line.quoted]

lemma group_header (h : Header) :
    (Entry.header h).group = "msgid \"\"".toList :: "msgstr \"\"".toList :: h.quotedLines := by
  simp [Entry.group, Entry.lines, quotedLines, Line.chars, Line.pieces]

lemma length_quotedLines (h : Header) :
    h.quotedLines.length = 10 + (h.texts.flatMap (·.toList)).count '\n' := by
  rw [quotedLines, List.length_map, Text.lines, List.length_map,
    Text.length_lineChars h.forall_getLast?_text, count_newline_text]

/-- What lines in quotes say, joined. -/
def unquoted? (quoted : List (List Char)) : Option String :=
  (quoted.mapM (Line.quoted? "" "")).map String.join

lemma unquoted?_quotedLines (h : Header) :
    unquoted? h.quotedLines = some (String.ofList (Text.dropReturns h.text.toList)) := by
  have hread : h.quotedLines.mapM (Line.quoted? "" "") =
      some ((Text.lines h.text).map (· ++ "\n")) :=
    mapM_map_eq_some fun s _ => Line.quoted?_headerField s
  rw [unquoted?, hread, Option.map_some, Option.some.injEq, ← String.toList_inj,
    String.toList_ofList, String.toList_join, ← Text.flatMap_lineChars h.forall_getLast?_text,
    Text.lines, List.map_map, List.flatMap_map]
  exact List.flatMap_congr fun l _ => by simp

lemma unquoted?_quotedLines_eq_text_iff (h : Header) :
    unquoted? h.quotedLines = some h.text ↔ ¬ ['\r', '\n'] <:+: h.text.toList := by
  rw [unquoted?_quotedLines, Option.some.injEq, ← String.toList_inj, String.toList_ofList]
  exact Text.dropReturns_eq_self_iff _

end Header

namespace Writer

/-- **The header in a file.** Wherever it stands, it is a group of its own lines and then the lines
of its text in quotes: one for each key, and one for each line feed in a value. What the quotes say,
joined, is the text without the carriage return directly before each line feed. -/
theorem header_text_of_output (h : Header) (es fs : List Entry) (fin : Ending) :
    let output := (fin.sink ((ofSink {}).performAll ((es ++ .header h :: fs).map .write)).2).received
    ∃ (text : List Char) (quoted : List (List Char)),
      output = Text.utf8 text ∧
      lineGroups text = es.map Entry.group ++
        ("msgid \"\"".toList :: "msgstr \"\"".toList :: quoted) :: fs.map Entry.group ∧
      quoted.length = 10 + (h.texts.flatMap (·.toList)).count '\n' ∧
      Header.unquoted? quoted = some (String.ofList (Text.dropReturns h.text.toList)) ∧
      (Header.unquoted? quoted = some h.text ↔ ¬ ['\r', '\n'] <:+: h.text.toList) := by
  intro output
  have hfit : ({} : Sink).Fits (rendered (es ++ .header h :: fs)) :=
    Sink.fits_of_room_eq_none rfl _
  refine ⟨document (es ++ .header h :: fs), h.quotedLines, ?_, ?_, h.length_quotedLines,
    h.unquoted?_quotedLines, h.unquoted?_quotedLines_eq_text_iff⟩
  · exact received_writes hfit fin
  · rw [lineGroups_document, List.map_append, List.map_cons, h.group_header]

end Writer

end LiquidCatalog.Po

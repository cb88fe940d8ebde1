import LiquidCatalog.Extraction
import LiquidCatalog.Proofs.Catalog.OfTemplates
import LiquidCatalog.Proofs.Po.HeaderText

/-!
What the header of an extraction shows.

The project and the language are put into the header as they are given, and the header is parted
into lines after that. So each key has a line of its own that shows its value exactly if the values
are one line each. A line feed in a value gives the header one more line, whatever the value says
there, and a carriage return at the end of a value is lost.
-/

namespace LiquidCatalog

open Po Output

namespace Po.Header

/-! ### Keys with their values -/

/-- The value that a line in quotes shows for a key. -/
def fieldValue? (key : String) (line : List Char) : Option String := do
  let field ← Line.quoted? "" "" line
  let value ← (key ++ ": ").toList.isPrefixOf? field.toList
  return String.ofList (← ['\n'].isSuffixOf? value)

lemma fieldValue?_eq_some_iff {key value : String} {line : List Char} :
    fieldValue? key line = some value ↔
      (Line.headerField (fieldLine (key, value))).chars = line := by
  have hread : (Line.headerField (fieldLine (key, value))).chars = line ↔
      Line.quoted? "" "" line = some (fieldLine (key, value) ++ "\n") := by
    rw [Line.quoted?_eq_some_iff, Line.chars_headerField, eq_comm]
  rw [hread]
  constructor
  · intro h
    simp only [fieldValue?, Option.bind_eq_bind, Option.bind_eq_some_iff, Option.pure_def,
      Option.some.injEq] at h
    obtain ⟨field, hfield, u, hu, v, hv, rfl⟩ := h
    rw [List.isPrefixOf?_eq_some_iff_append_eq] at hu
    rw [List.isSuffixOf?_eq_some_iff_append_eq] at hv
    rw [hfield, Option.some.injEq, ← String.toList_inj, ← hu, ← hv]
    simp [fieldLine]
  · intro h
    have hu : (key ++ ": ").toList.isPrefixOf? (fieldLine (key, value) ++ "\n").toList =
        some (value.toList ++ ['\n']) := by
      rw [List.isPrefixOf?_eq_some_iff_append_eq]
      simp [fieldLine]
    have hv : ['\n'].isSuffixOf? (value.toList ++ ['\n']) = some value.toList :=
      List.isSuffixOf?_eq_some_iff_append_eq.2 rfl
    simp only [fieldValue?, h, Option.bind_eq_bind, Option.bind_some, hu, hv, String.ofList_toList]
    rfl

/-- The lines show the values of the keys, each on its own line and in order. -/
def Shows (fields : List (String × String)) (quoted : List (List Char)) : Prop :=
  List.Forall₂ (fun f line => fieldValue? f.1 line = some f.2) fields quoted

lemma shows_iff {fields : List (String × String)} {quoted : List (List Char)} :
    Shows fields quoted ↔
      (fields.map fun f => (Line.headerField (fieldLine f)).chars) = quoted := by
  rw [← List.forall₂_eq_eq_eq, List.forall₂_map_left_iff]
  simp only [Shows, fieldValue?_eq_some_iff]

lemma newline_not_mem_fieldLine_iff {f : String × String} (hf : '\n' ∉ f.1.toList) :
    '\n' ∉ (fieldLine f).toList ↔ '\n' ∉ f.2.toList := by
  simp [toList_fieldLine, hf]

lemma isLine_fieldLine_iff {f : String × String} (hf : '\n' ∉ f.1.toList) :
    Text.IsLine (fieldLine f).toList ↔ Text.IsLine f.2.toList := by
  have hnewline := newline_not_mem_fieldLine_iff hf
  have hlast : (fieldLine f).toList.getLast? ≠ some '\r' ↔ f.2.toList.getLast? ≠ some '\r' := by
    rw [toList_fieldLine]
    cases f.2.toList <;> simp
  exact ⟨fun h => ⟨hnewline.1 h.newline_not_mem, hlast.1 h.getLast?_ne⟩,
    fun h => ⟨hnewline.2 h.newline_not_mem, hlast.2 h.getLast?_ne⟩⟩

lemma withoutReturn_fieldLine (f : String × String) :
    String.ofList (Text.withoutReturn (fieldLine f).toList) =
      fieldLine (f.1, String.ofList (Text.withoutReturn f.2.toList)) := by
  rw [← String.toList_inj, String.toList_ofList, toList_fieldLine, toList_fieldLine,
    Text.withoutReturn_append, String.toList_ofList]
  rfl

/-- The keys have their own lines and show their values exactly if the values are one line each. -/
lemma shows_quotedLines_iff (h : Header) :
    Shows h.fields h.quotedLines ↔ ∀ f ∈ h.fields, Text.IsLine f.2.toList := by
  have hfields : (h.fields.map fun f => (Line.headerField (fieldLine f)).chars) =
      (h.fields.map fieldLine).map fun s => (Line.headerField s).chars := by
    rw [List.map_map]
    rfl
  have hlines : h.fields.map fieldLine =
      (h.fields.map fun f => (fieldLine f).toList).map String.ofList := by
    simp
  -- parting finds the lines of the keys exactly if they are lines that need no parting
  have hofList : Function.Injective String.ofList := fun _ _ => String.ofList_inj.1
  rw [shows_iff, hfields, quotedLines, Line.chars_headerField_injective.list_map.eq_iff, Text.lines,
    hlines, hofList.list_map.eq_iff, toList_text, eq_comm, Text.lineChars_flatMap_eq_iff,
    List.forall_mem_map]
  exact forall₂_congr fun f hf => isLine_fieldLine_iff (h.newline_not_mem_key f hf)

/-- Without line feeds each key has its own line, which shows all of the value but a carriage
return at its end. -/
lemma shows_quotedLines_withoutReturn (h : Header) (hv : ∀ f ∈ h.fields, '\n' ∉ f.2.toList) :
    Shows (h.fields.map fun f => (f.1, String.ofList (Text.withoutReturn f.2.toList)))
      h.quotedLines := by
  have hnewline : ∀ l ∈ h.fields.map fun f => (fieldLine f).toList, '\n' ∉ l := by
    rw [List.forall_mem_map]
    exact fun f hf => (newline_not_mem_fieldLine_iff (h.newline_not_mem_key f hf)).2 (hv f hf)
  simp only [shows_iff, quotedLines, Text.lines, toList_text, Text.lineChars_flatMap hnewline,
    List.map_map]
  exact List.map_congr_left fun f _ => by simp [withoutReturn_fieldLine]

end Po.Header

/-! ### The header of an extraction -/

namespace Catalog

lemma received_writePo (h : Header) (c : Catalog) :
    (c.writePo (some h) {}).2.received = Text.utf8 (document (c.poEntries (some h))) := by
  have hfit : ({} : Sink).Fits (rendered (c.poEntries (some h))) := Sink.fits_of_room_eq_none rfl _
  rw [writePo_of_fits (some h) c hfit rfl]
  rfl

lemma lineGroups_poEntries (h : Header) (c : Catalog) :
    lineGroups (document (c.poEntries (some h))) =
      ("msgid \"\"".toList :: "msgstr \"\"".toList :: h.quotedLines) ::
        c.toList.map fun m => (Entry.message m).group := by
  rw [lineGroups_document, poEntries, Option.toList_some, List.map_singleton,
    List.singleton_append, List.map_cons, h.group_header, List.map_map]
  rfl

end Catalog

namespace Job

/-- The header with the values that an extraction sets. -/
def headerWith (date project language : String) : Header :=
  { Header.template date with projectIdVersion := project, language }

lemma header_eq {j : Job} (hj : j.hasHeader = true) (date : String) :
    j.header date = some (headerWith date (j.project.getD "") j.language) := if_pos hj

variable {date project language : String}

/-- The values that are the same in every extraction. -/
def fixedValues : List String :=
  ["YEAR-MO-DA HO:MI+ZONE", "FULL NAME <EMAIL@ADDRESS>", "LANGUAGE <LL@li.org>", "1.0",
    "text/plain; charset=UTF-8", "8bit", "nplurals=2; plural=(n != 1);"]

lemma fields_headerWith : (headerWith date project language).fields =
    [("Project-Id-Version", project), ("POT-Creation-Date", date),
      ("PO-Revision-Date", "YEAR-MO-DA HO:MI+ZONE"),
      ("Last-Translator", "FULL NAME <EMAIL@ADDRESS>"), ("Language-Team", "LANGUAGE <LL@li.org>"),
      ("MIME-Version", "1.0"), ("Content-Type", "text/plain; charset=UTF-8"),
      ("Content-Transfer-Encoding", "8bit"), ("Language", language),
      ("Plural-Forms", "nplurals=2; plural=(n != 1);")] := by
  have hplural : "nplurals=" ++ toString 2 ++ "; plural=" ++ "(n != 1)" ++ ";" =
      "nplurals=2; plural=(n != 1);" := by decide
  rw [← hplural]
  rfl

lemma forall_fields_iff {p : String → Prop} (hfixed : ∀ v ∈ fixedValues, p v) :
    (∀ f ∈ (headerWith date project language).fields, p f.2) ↔
      ∀ v ∈ [date, project, language], p v := by
  simp only [fixedValues, List.forall_mem_cons] at hfixed
  simp only [fields_headerWith, List.forall_mem_cons, hfixed, true_and, List.not_mem_nil,
    false_implies, implies_true, and_true]
  exact and_left_comm

lemma count_newline_texts :
    ((headerWith date project language).texts.flatMap (·.toList)).count '\n' =
      ([date, project, language].flatMap (·.toList)).count '\n' := by
  have hfixed : ∀ v ∈ fixedValues ++ ["(n != 1)"], v.toList.count '\n' = 0 := by decide
  simp only [fixedValues, List.cons_append, List.nil_append, List.forall_mem_cons] at hfixed
  simp only [headerWith, Header.template, Header.texts, List.flatMap_cons, List.flatMap_nil,
    List.count_append, hfixed]
  omega

/-- **The header of an extraction.** It has ten lines in quotes and one more for each line feed in a
value. They are the lines of the ten keys, in order and with their values, exactly if the project
and the language, and the date, are one line each. Without line feeds each key still has its own
line, but a carriage return at the end of a value is lost. -/
theorem header_shows_values_iff (j : Job) (hj : j.hasHeader = true) (date : String) (c : Catalog) :
    let h := headerWith date (j.project.getD "") j.language
    let values := [date, j.project.getD "", j.language]
    ∃ (text : List Char) (quoted : List (List Char)),
      j.header date = some h ∧
      (c.writePo (j.header date) {}).2.received = Text.utf8 text ∧
      lineGroups text = ("msgid \"\"".toList :: "msgstr \"\"".toList :: quoted) ::
        (c.toList.map fun m => (Entry.message m).group) ∧
      quoted.length = 10 + (values.flatMap (·.toList)).count '\n' ∧
      (Header.Shows h.fields quoted ↔ ∀ v ∈ values, Text.IsLine v.toList) ∧
      ((∀ v ∈ values, '\n' ∉ v.toList) → Header.Shows
        (h.fields.map fun f => (f.1, String.ofList (Text.withoutReturn f.2.toList))) quoted) := by
  intro h values
  have hheader : j.header date = some h := header_eq hj date
  refine ⟨document (c.poEntries (some h)), h.quotedLines, hheader, ?_, c.lineGroups_poEntries h,
    ?_, ?_, fun hv => ?_⟩
  · rw [hheader, Catalog.received_writePo]
  · rw [h.length_quotedLines, count_newline_texts]
  · have hfixed : ∀ v ∈ fixedValues, Text.IsLine v.toList := by decide
    exact h.shows_quotedLines_iff.trans (forall_fields_iff hfixed)
  · have hfixed : ∀ v ∈ fixedValues, '\n' ∉ v.toList := by decide
    exact h.shows_quotedLines_withoutReturn ((forall_fields_iff hfixed).2 hv)

/-- Quotes, escapes, and a carriage return inside a value are shown as they are given. -/
theorem header_shows_values_iff_lookalikes :
    let j : Job := { input := "site", project := some "\"A\"\\n\rLanguage: b", language := "" }
    let date := "2023-06-01T12:00:00Z"
    let h := headerWith date "\"A\"\\n\rLanguage: b" ""
    j.hasHeader = true ∧ ∃ (text : List Char) (quoted : List (List Char)),
      (Catalog.writePo (j.header date) ∅ {}).2.received = Text.utf8 text ∧
      lineGroups text = ["msgid \"\"".toList :: "msgstr \"\"".toList :: quoted] ∧
      quoted.length = 10 ∧ Header.Shows h.fields quoted := by
  intro j date h
  have hj : j.hasHeader = true := rfl
  obtain ⟨text, quoted, -, hfile, hgroups, hlength, hshows, -⟩ :=
    header_shows_values_iff j hj date ∅
  exact ⟨hj, text, quoted, hfile, hgroups, hlength.trans (by decide), hshows.2 (by decide)⟩

/-- The second line of a project becomes a line of the header, here one for the language. -/
theorem header_forged_by_value :
    let j : Job := { input := "site", project := some "Site\nLanguage: fr" }
    ∃ (text : List Char) (quoted : List (List Char)),
      (Catalog.writePo (j.header "DATE") ∅ {}).2.received = Text.utf8 text ∧
      lineGroups text = ["msgid \"\"".toList :: "msgstr \"\"".toList :: quoted] ∧
      quoted.length = 11 ∧
      quoted[0]?.bind (Header.fieldValue? "Project-Id-Version") = some "Site" ∧
      quoted[1]? = some "\"Language: fr\\n\"".toList := by
  intro j
  let h := headerWith "DATE" "Site\nLanguage: fr" "en"
  have hheader : j.header "DATE" = some h := rfl
  have hlength : h.quotedLines.length = 11 := by
    rw [h.length_quotedLines, count_newline_texts]
    decide
  have hlines : h.quotedLines[0]?.bind (Header.fieldValue? "Project-Id-Version") = some "Site" ∧
      h.quotedLines[1]? = some "\"Language: fr\\n\"".toList := by
    rw [h.quotedLines_eq, fields_headerWith]
    decide
  refine ⟨document (Catalog.poEntries (some h) ∅), h.quotedLines, ?_,
    Catalog.lineGroups_poEntries h ∅, hlength, hlines⟩
  rw [hheader, Catalog.received_writePo]

end Job

end LiquidCatalog

import Mathlib.Data.List.Basic
import LiquidCatalog.Proofs.Po.Delivery
import LiquidCatalog.Proofs.Po.Layout

/-!
What was written can be read back.

A line shows what it begins with and, between quotes, exactly what it carries; so a group of lines
shows the content of its entry, and the file shows the contents of all entries in order.
-/

namespace LiquidCatalog.Po

/-! ### Lines -/

namespace Line

/-- The line as it is read back. -/
def shown : Line → Line
  | headerMsgid => msgid ""
  | l => l

lemma isPrefixOf?_append (p s : List Char) : p.isPrefixOf? (p ++ s) = some s :=
  List.isPrefixOf?_eq_some_iff_append_eq.2 rfl

lemma isSuffixOf?_append (s p : List Char) : p.isSuffixOf? (s ++ p) = some s :=
  List.isSuffixOf?_eq_some_iff_append_eq.2 rfl

lemma plain?_append (before s : String) : plain? before (before.toList ++ s.toList) = some s := by
  simp [plain?, isPrefixOf?_append]

lemma quoted?_quoted (before s after : String) :
    quoted? before after (quoted before s after).flatten = some s := by
  have hflat : (quoted before s after).flatten =
      (before.toList ++ ['"']) ++ (Quoted.encode s.toList ++ (after.toList ++ ['"'])) := by
    simp [quoted]
  rw [hflat, quoted?, isPrefixOf?_append]
  simp [isSuffixOf?_append, Quoted.decode_encode]

/-- A line is read back; what other lines begin with does not fit it. -/
lemma read?_chars {l : Line} (h : l.IsSingle) : read? l.chars = some l.shown := by
  cases l with
  | reference s =>
    have hs : plain? "#: " (reference s).chars = some s := by
      simpa [chars, pieces] using plain?_append "#: " s
    rw [read?, hs]
    simp [chars, pieces, shown]
  | comment s =>
    have hs : plain? "#. " (comment s).chars = some s := by
      simpa [chars, pieces] using plain?_append "#. " s
    rw [read?, hs]
    simp [chars, pieces, plain?, List.isPrefixOf?, shown]
  | msgctxt s =>
    have hs : quoted? "msgctxt " "" (msgctxt s).chars = some s := quoted?_quoted "msgctxt " s ""
    rw [read?, hs]
    simp [chars, pieces, quoted, plain?, List.isPrefixOf?, shown]
  | msgid s =>
    have hs : quoted? "msgid " "" (msgid s).chars = some s := quoted?_quoted "msgid " s ""
    rw [read?, hs]
    simp [chars, pieces, quoted, plain?, quoted?, List.isPrefixOf?, shown]
  | msgidPlural s =>
    have hs : quoted? "msgid_plural " "" (msgidPlural s).chars = some s :=
      quoted?_quoted "msgid_plural " s ""
    rw [read?, hs]
    simp [chars, pieces, quoted, plain?, quoted?, List.isPrefixOf?, shown]
  | headerField s =>
    have hs : quoted? "" "\\n" (headerField s).chars = some s := quoted?_quoted "" s "\\n"
    rw [read?, hs]
    simp [chars, pieces, quoted, plain?, quoted?, List.isPrefixOf?, shown]
  | msgstr => decide
  | msgstrPlural => decide
  | headerMsgid => decide
  | blank => exact absurd h id

end Line

/-! ### Entries -/

lemma Header.lines_text_ne_nil (h : Header) : Text.lines h.text ≠ [] := by
  have htext : h.text.toList ≠ [] := by
    simp [Header.text, Header.fields]
  simpa [Text.lines] using Text.lineChars_ne_nil htext

/-- Reading each part of a row succeeds if each part can be read. -/
lemma mapM_map_eq_some {α β γ : Type} {f : α → β} {g : β → Option γ} {h : α → γ} {l : List α}
    (hl : ∀ a ∈ l, g (f a) = some (h a)) : (l.map f).mapM g = some (l.map h) := by
  induction l with
  | nil => rfl
  | cons a l ih =>
    rw [List.forall_mem_cons] at hl
    simp [hl.1, ih hl.2]

lemma mapM_read?_group (e : Entry) : e.group.mapM Line.read? = some (e.lines.map Line.shown) :=
  mapM_map_eq_some fun _ hl => Line.read?_chars (Entry.isSingle_of_mem_lines hl)

namespace Content

lemma references_comments (cs : List String) (ls : List Line) :
    references (cs.map .comment ++ ls) = (cs ++ (references ls).1, (references ls).2) := by
  induction cs with
  | nil => rfl
  | cons c cs ih => simp only [List.map_cons, List.cons_append, references, ih]

lemma references_locationLines (l : Location) {ls : List Line}
    (h : (references ls).1 = []) :
    references (locationLines l ++ ls) =
      ([], .ofLocation l :: (references ls).2.1, (references ls).2.2) := by
  simp only [locationLines, List.cons_append, references, references_comments, h, List.append_nil,
    Reference.ofLocation]

lemma references_locations (locs : List Location) {ls : List Line}
    (h : references ls = ([], [], ls)) :
    references (locs.flatMap locationLines ++ ls) = ([], locs.map .ofLocation, ls) := by
  induction locs with
  | nil => exact h
  | cons l locs ih =>
    rw [List.flatMap_cons, List.append_assoc, references_locationLines l (by rw [ih]), ih,
      List.map_cons]

lemma map_shown_message (m : Message) :
    (Entry.message m).lines.map Line.shown = (Entry.message m).lines := by
  have hlocations (l : Location) : (locationLines l).map Line.shown = locationLines l := by
    simp [locationLines, Line.shown]
  have htexts : (textLines m).map Line.shown = textLines m := by
    unfold textLines
    split <;> rfl
  simp [Entry.lines, List.map_flatMap, hlocations, htexts, Line.shown]

/-- A message without header fields below it is not taken for a header. -/
lemma ofLines?_message_eq (m : Message) :
    ofLines? (Entry.message m).lines = message? (Entry.message m).lines := by
  obtain ⟨text, plural, context, locations⟩ := m
  rcases locations with _ | ⟨l, locations⟩
  · rcases context with _ | c
    · rcases plural with _ | p <;> rfl
    · rfl
  · rfl

lemma ofLines?_message (m : Message) :
    ofLines? ((Entry.message m).lines.map Line.shown) = some (Entry.message m).content := by
  obtain ⟨text, plural, context, locations⟩ := m
  rw [map_shown_message, ofLines?_message_eq, Entry.lines, List.append_assoc, message?,
    references_locations]
  · rcases context with _ | c <;> rcases plural with _ | p <;> rfl
  · rcases context with _ | c <;> rcases plural with _ | p <;> rfl

lemma ofLines?_header (h : Header) :
    ofLines? ((Entry.header h).lines.map Line.shown) = some (Entry.header h).content := by
  have hfields : ((Text.lines h.text).map Line.headerField).mapM Line.headerField? =
      some (Text.lines h.text) := by
    simpa using mapM_map_eq_some (g := Line.headerField?) (h := id) (l := Text.lines h.text)
      fun s _ => rfl
  have hshown : (Entry.header h).lines.map Line.shown =
      .msgid "" :: .msgstr :: (Text.lines h.text).map .headerField := by
    simp [Entry.lines, Line.shown]
  obtain ⟨s, ss, hs⟩ := List.exists_cons_of_ne_nil h.lines_text_ne_nil
  rw [hshown, Entry.content]
  rw [hs, List.map_cons] at hfields ⊢
  rw [ofLines?, if_pos rfl, hfields, Option.map_some]

lemma ofLines?_lines (e : Entry) : ofLines? (e.lines.map Line.shown) = some e.content := by
  cases e with
  | header h => exact ofLines?_header h
  | message m => exact ofLines?_message m

end Content

/-- **The file is read back.** -/
lemma readDocument?_document (es : List Entry) :
    readDocument? (document es) = some (es.map Entry.content) := by
  rw [readDocument?, lineGroups_document]
  refine mapM_map_eq_some fun e _ => ?_
  rw [mapM_read?_group]
  exact Content.ofLines?_lines e

/-- Reads the contents of all entries off the bytes of a file. -/
def readBytes? (bytes : List UInt8) : Option (List Content) :=
  (Text.ofUtf8? bytes).bind fun text => readDocument? text.toList

lemma readBytes?_rendered (es : List Entry) :
    readBytes? (rendered es) = some (es.map Entry.content) := by
  rw [readBytes?, rendered, Text.ofUtf8?_utf8, Option.bind_some, String.toList_ofList,
    readDocument?_document]

/-! ### What tells entries apart -/

/-- The lines of a group that say which message it is about. -/
def keyLines (group : List (List Char)) : List (List Char) :=
  group.filter fun cs => "msgctxt ".toList.isPrefixOf cs || "msgid ".toList.isPrefixOf cs

/-- The key of an entry. The header is in the place of an empty text without context. -/
def Entry.key : Entry → Message.Key
  | header _ => ("", none)
  | message m => m.key

/-- The lines for a key. -/
def linesOfKey (k : Message.Key) : List Line := k.2.toList.map .msgctxt ++ [.msgid k.1]

lemma linesOfKey_injective : Function.Injective linesOfKey := by
  rintro ⟨text, context⟩ ⟨text', context'⟩ h
  rcases context with _ | c <;> rcases context' with _ | c' <;> simp_all [linesOfKey]

lemma mapM_read?_linesOfKey (k : Message.Key) :
    ((linesOfKey k).map Line.chars).mapM Line.read? = some (linesOfKey k) := by
  have hread : ∀ l ∈ linesOfKey k, Line.read? l.chars = some (id l) := by
    intro l hl
    simp only [linesOfKey, List.mem_append, List.mem_map, List.mem_singleton] at hl
    rcases hl with ⟨c, -, rfl⟩ | rfl
    · exact Line.read?_chars trivial
    · exact Line.read?_chars trivial
  simpa using mapM_map_eq_some hread

lemma keyLines_locations (locs : List Location) :
    keyLines ((locs.flatMap locationLines).map Line.chars) = [] := by
  simp only [keyLines, List.filter_eq_nil_iff, List.mem_map, List.mem_flatMap]
  rintro _ ⟨x, ⟨l, -, hx⟩, rfl⟩
  rcases List.mem_cons.1 hx with rfl | hx
  · simp [Line.chars, Line.pieces, List.isPrefixOf]
  · obtain ⟨c, -, rfl⟩ := List.mem_map.1 hx
    simp [Line.chars, Line.pieces, List.isPrefixOf]

lemma keyLines_textLines (m : Message) :
    keyLines ((textLines m).map Line.chars) = [(Line.msgid m.text).chars] := by
  unfold textLines
  split <;> simp [keyLines, Line.chars, Line.pieces, Line.quoted, List.isPrefixOf]

lemma keyLines_fields (fields : List String) :
    keyLines ((fields.map Line.headerField).map Line.chars) = [] := by
  simp [keyLines, Line.chars, Line.pieces, Line.quoted]

lemma keyLines_group (e : Entry) : keyLines e.group = (linesOfKey e.key).map Line.chars := by
  have happend (g g' : List (List Char)) : keyLines (g ++ g') = keyLines g ++ keyLines g' :=
    List.filter_append ..
  cases e with
  | header h =>
    have hlines : (Entry.header h).group =
        [Line.headerMsgid, .msgstr].map Line.chars ++
          ((Text.lines h.text).map Line.headerField).map Line.chars := by
      simp [Entry.group, Entry.lines]
    have hkey : keyLines ([Line.headerMsgid, .msgstr].map Line.chars) =
        (linesOfKey ("", none)).map Line.chars := by decide
    rw [hlines, happend, keyLines_fields, List.append_nil, hkey, Entry.key]
  | message m =>
    have hcontext : keyLines ((m.context.toList.map Line.msgctxt).map Line.chars) =
        (m.context.toList.map Line.msgctxt).map Line.chars := by
      simp [keyLines, Line.chars, Line.pieces, Line.quoted]
    rw [Entry.group, Entry.lines, List.map_append, List.map_append, happend, happend,
      keyLines_locations, keyLines_textLines, hcontext]
    simp [linesOfKey, Entry.key, Message.key]

/-- Two entries with the same key lines have the same key. -/
lemma key_eq_of_keyLines_eq {e f : Entry} (h : keyLines e.group = keyLines f.group) :
    e.key = f.key := by
  have hread := mapM_read?_linesOfKey e.key
  rw [← keyLines_group, h, keyLines_group, mapM_read?_linesOfKey] at hread
  exact (linesOfKey_injective (Option.some.inj hread)).symm

namespace Writer

open Output

/-- **The file can be read back.** However the writer is given up, the output shows one group of
lines for each call, and its bytes alone tell the content of every entry. So calls with the same
output have written the same content. -/
theorem read_back_output (s : Sink) (hroom : s.room = none) (hnew : s.received = [])
    (es : List Entry) (fin : Ending) :
    let output (es : List Entry) (fin : Ending) :=
      (fin.sink ((ofSink s).performAll (es.map .write)).2).received
    ∃ text : List Char, output es fin = Text.utf8 text ∧
      text.splitOn '\n' = [[]].intercalate (es.map Entry.group) ++ [[]] ∧
      (∀ e ∈ es, e.group ≠ [] ∧ [] ∉ e.group) ∧
      (text.getLast? = some '\n' ↔ es ≠ []) ∧
      readBytes? (output es fin) = some (es.map Entry.content) ∧
      ∀ es' fin', output es' fin' = output es fin →
        es'.map Entry.content = es.map Entry.content := by
  intro output
  have houtput (es : List Entry) (fin : Ending) : output es fin = rendered es := by
    have hfit : s.Fits (rendered es) := by simp [Sink.Fits, hroom]
    simp only [output, received_writes hfit, hnew, List.nil_append]
  refine ⟨document es, houtput es fin, splitOn_document es, ?_, getLast?_document es, ?_, ?_⟩
  · exact fun e _ => ⟨e.group_ne_nil, e.nil_not_mem_group⟩
  · rw [houtput, readBytes?_rendered]
  · intro es' fin' heq
    rw [houtput, houtput] at heq
    have hread := readBytes?_rendered es'
    rw [heq, readBytes?_rendered] at hread
    exact (Option.some.inj hread).symm

/-- Fields that look like lines of a file are read back as they were; an empty comment is written
as no comment is. -/
theorem read_back_output_lookalikes :
    let s : Sink := {}
    let m (comment : Option String) : Entry :=
      .message { text := "msgid \"\"\n\n", context := some "", locations :=
        [{ file := "a\nb", comment := some "#: c\n\nmsgstr \"\"" },
          { file := "d", line := some ⟨17, by decide⟩, comment }] }
    let output (e : Entry) := (Ending.drop.sink ((ofSink s).performAll [.write e]).2).received
    (s.room = none ∧ s.received = []) ∧
      readBytes? (output (m none)) = some [.message
        [⟨"a\\nb", ["#: c", "", "msgstr \"\""]⟩, ⟨"d:17", []⟩] (some "") "msgid \"\"\n\n" none] ∧
      output (m (some "")) = output (m none) ∧
      (m (some "")).content = (m none).content := by
  intro s m output
  obtain ⟨_, _, _, _, _, hread, hsame⟩ := read_back_output s rfl rfl [m none] .drop
  have heq : output (m (some "")) = output (m none) := by decide
  have hcontent := hsame [m (some "")] .drop heq
  exact ⟨⟨rfl, rfl⟩, hread.trans (by decide), heq, by simpa using hcontent⟩

end Writer

end LiquidCatalog.Po

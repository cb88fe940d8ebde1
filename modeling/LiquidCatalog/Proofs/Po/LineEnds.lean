import LiquidCatalog.Proofs.Po.Delivery
import LiquidCatalog.Proofs.Po.Layout

/-!
Where a reader sees the lines of a PO file end.

The line feeds of a file are the ends of the lines that are written. Escapes stand for the carriage
returns of all fields but the comments. A comment is parted at its line feeds, each with one
carriage return before it, and other carriage returns go into the file as they are. A reader that
ends lines at carriage returns too sees the lines as they are written exactly if no comment has such
a return; if one has, the rest of the comment starts a line of its own.
-/

namespace LiquidCatalog

namespace Text

/-- The text has a carriage return that no line feed follows. -/
def HasLoneReturn (s : List Char) : Prop :=
  ∃ before after, s = before ++ '\r' :: after ∧ after.head? ≠ some '\n'

lemma not_hasLoneReturn_nil : ¬ HasLoneReturn [] := by
  rintro ⟨before, after, h, -⟩
  simp at h

lemma hasLoneReturn_cons {c : Char} {s : List Char} :
    HasLoneReturn (c :: s) ↔ c = '\r' ∧ s.head? ≠ some '\n' ∨ HasLoneReturn s := by
  constructor
  · rintro ⟨_ | ⟨d, before⟩, after, h, hafter⟩
    · obtain ⟨rfl, rfl⟩ := List.cons.inj h
      exact .inl ⟨rfl, hafter⟩
    · exact .inr ⟨before, after, (List.cons.inj h).2, hafter⟩
  · rintro (⟨rfl, hs⟩ | ⟨before, after, rfl, hafter⟩)
    · exact ⟨[], s, rfl, hs⟩
    · exact ⟨c :: before, after, rfl, hafter⟩

/-- The returns that parting a text into lines leaves are those that no line feed follows. -/
lemma exists_return_mem_lineChars (s : List Char) :
    (∃ l ∈ lineChars s, '\r' ∈ l) ↔ HasLoneReturn s := by
  fun_induction lineChars s with
  | case1 => simpa using not_hasLoneReturn_nil
  | case2 s ih => simpa [hasLoneReturn_cons] using ih
  | case3 s ih => simpa [hasLoneReturn_cons] using ih
  | case4 c s hc hcr ih =>
    have hhead : c = '\r' → s.head? ≠ some '\n' := by
      rintro rfl h
      obtain ⟨t, rfl⟩ := List.head?_eq_some_iff.1 h
      exact hcr t rfl rfl
    rw [exists_mem_consFirst, ih, hasLoneReturn_cons]
    exact or_congr_left ⟨fun h => ⟨h.symm, hhead h.symm⟩, fun h => h.1.symm⟩

lemma exists_return_mem_lines (s : String) :
    (∃ l ∈ lines s, '\r' ∈ l.toList) ↔ HasLoneReturn s.toList := by
  rw [← exists_return_mem_lineChars, lines]
  simp

/-! ### A reader that ends lines at carriage returns too -/

/-- The lines of a text, each ended by a line feed, a carriage return, or one of each. What follows
the last end is a line only if it is not empty. -/
def anyLines : List Char → List (List Char)
  | [] => []
  | '\n' :: s => [] :: anyLines s
  | '\r' :: '\n' :: s => [] :: anyLines s
  | '\r' :: s => [] :: anyLines s
  | c :: s => consFirst c (anyLines s)

lemma anyLines_return {s : List Char} (h : s.head? ≠ some '\n') :
    anyLines ('\r' :: s) = [] :: anyLines s := by
  rw [anyLines]
  rintro t rfl
  exact h rfl

lemma anyLines_cons {c : Char} (hc : ¬ IsBreak c) (s : List Char) :
    anyLines (c :: s) = consFirst c (anyLines s) := by
  rw [IsBreak, not_or] at hc
  rw [anyLines]
  · exact fun h => hc.1 h
  · exact fun _ h _ => hc.2 h
  · exact fun h => hc.2 h

/-- An induction on a text that goes from line end to line end. -/
lemma induction_on_breaks {motive : List Char → Prop} (nil : motive [])
    (newline : ∀ s, motive s → motive ('\n' :: s))
    (both : ∀ s, motive s → motive ('\r' :: '\n' :: s))
    (ret : ∀ s, s.head? ≠ some '\n' → motive s → motive ('\r' :: s))
    (cons : ∀ c s, ¬ IsBreak c → motive s → motive (c :: s)) (s : List Char) : motive s := by
  fun_induction anyLines s with
  | case1 => exact nil
  | case2 s ih => exact newline s ih
  | case3 s ih => exact both s ih
  | case4 s h ih =>
    refine ret s (fun hs => ?_) ih
    obtain ⟨t, rfl⟩ := List.head?_eq_some_iff.1 hs
    exact h t rfl
  | case5 c s hn _ hr ih => exact cons c s (not_or.2 ⟨hn, hr⟩) ih

lemma anyLines_ne_nil {s : List Char} (h : s ≠ []) : anyLines s ≠ [] := by
  induction s using induction_on_breaks with
  | nil => exact absurd rfl h
  | newline s _ => simp [anyLines]
  | both s _ => simp [anyLines]
  | ret s hs _ => simp [anyLines_return hs]
  | cons c s hc _ =>
    rw [anyLines_cons hc]
    cases anyLines s <;> simp [consFirst]

lemma return_not_mem_anyLines (s : List Char) : ∀ l ∈ anyLines s, '\r' ∉ l := by
  induction s using induction_on_breaks with
  | nil => simp [anyLines]
  | newline s ih => simpa [anyLines] using ih
  | both s ih => simpa [anyLines] using ih
  | ret s h ih => simpa [anyLines_return h] using ih
  | cons c s hc ih =>
    rw [anyLines_cons hc]
    intro l hl hmem
    rcases exists_mem_consFirst.1 ⟨l, hl, hmem⟩ with h | ⟨l', hl', h⟩
    · exact hc (.inr h.symm)
    · exact ih l' hl' h

lemma consFirst_append {c : Char} {ls ms : List (List Char)} (h : ls ≠ []) :
    consFirst c (ls ++ ms) = consFirst c ls ++ ms := by
  obtain ⟨l, ls, rfl⟩ := List.exists_cons_of_ne_nil h
  rfl

/-- A line feed ends a line for every reader. -/
lemma anyLines_append_newline (l rest : List Char) :
    anyLines (l ++ '\n' :: rest) = anyLines (l ++ ['\n']) ++ anyLines rest := by
  induction l using induction_on_breaks with
  | nil => rfl
  | newline s ih => simp [anyLines, ih]
  | both s ih => simp [anyLines, ih]
  | ret s h ih =>
    rcases s with _ | ⟨c, s⟩
    · rfl
    · have hhead (t : List Char) : (c :: s ++ t).head? ≠ some '\n' := h
      calc anyLines ('\r' :: (c :: s ++ '\n' :: rest))
          = [] :: anyLines (c :: s ++ '\n' :: rest) := anyLines_return (hhead _)
        _ = ([] :: anyLines (c :: s ++ ['\n'])) ++ anyLines rest := by rw [ih]; rfl
        _ = anyLines ('\r' :: (c :: s ++ ['\n'])) ++ anyLines rest := by
          rw [anyLines_return (hhead _)]
  | cons c s hc ih =>
    rw [List.cons_append, List.cons_append, anyLines_cons hc, anyLines_cons hc, ih,
      consFirst_append (anyLines_ne_nil (by simp))]

lemma anyLines_line {l : List Char} (hn : '\n' ∉ l) (hr : '\r' ∉ l) :
    anyLines (l ++ ['\n']) = [l] := by
  induction l with
  | nil => rfl
  | cons c l ih =>
    rw [List.mem_cons, not_or] at hn hr
    have hc : ¬ IsBreak c := fun h => h.elim (hn.1 ·.symm) (hr.1 ·.symm)
    rw [List.cons_append, anyLines_cons hc, ih hn.2 hr.2, consFirst]

lemma anyLines_flatMap (ls : List (List Char)) :
    anyLines (ls.flatMap (· ++ ['\n'])) = ls.flatMap fun l => anyLines (l ++ ['\n']) := by
  induction ls with
  | nil => rfl
  | cons l ls ih =>
    rw [List.flatMap_cons, List.append_assoc, List.singleton_append, anyLines_append_newline, ih,
      List.flatMap_cons]

/-- Both readers see the same lines exactly if there is no carriage return. -/
lemma anyLines_flatMap_eq_iff {ls : List (List Char)} (h : ∀ l ∈ ls, '\n' ∉ l) :
    anyLines (ls.flatMap (· ++ ['\n'])) = ls ↔ ∀ l ∈ ls, '\r' ∉ l := by
  constructor
  · intro heq l hl
    rw [← heq] at hl
    exact return_not_mem_anyLines _ l hl
  · intro hr
    have hline : ∀ l ∈ ls, anyLines (l ++ ['\n']) = [l] := fun l hl =>
      anyLines_line (h l hl) (hr l hl)
    rw [anyLines_flatMap, List.flatMap_congr hline]
    simp

end Text

namespace Po

/-! ### Where carriage returns come from -/

lemma Line.of_return_mem {x : Line} (hr : '\r' ∈ x.chars) :
    (∃ s, x = .reference s ∧ '\r' ∈ s.toList) ∨ ∃ s, x = .comment s ∧ '\r' ∈ s.toList := by
  cases x with
  | reference s => exact .inl ⟨s, rfl, by simpa [chars, pieces] using hr⟩
  | comment s => exact .inr ⟨s, rfl, by simpa [chars, pieces] using hr⟩
  | msgctxt s => exact absurd hr (break_not_mem_quoted (.inr rfl) (by decide) (by decide) s)
  | msgid s => exact absurd hr (break_not_mem_quoted (.inr rfl) (by decide) (by decide) s)
  | msgidPlural s => exact absurd hr (break_not_mem_quoted (.inr rfl) (by decide) (by decide) s)
  | headerField s => exact absurd hr (break_not_mem_quoted (.inr rfl) (by decide) (by decide) s)
  | msgstr => exact absurd hr (by decide)
  | msgstrPlural => exact absurd hr (by decide)
  | headerMsgid => exact absurd hr (by decide)
  | blank => exact absurd hr (by decide)

namespace Entry

lemma reference_mem_lines {e : Entry} {s : String} (h : .reference s ∈ e.lines) :
    ∃ t, s = oneLine t := by
  cases e with
  | header h => simp [lines] at h
  | message m =>
    have htexts : Line.reference s ∉ textLines m := by
      unfold textLines
      split <;> simp
    obtain ⟨l, -, rfl⟩ : ∃ l ∈ m.locations, s = oneLine l.reference := by
      simpa [lines, locationLines, htexts] using h
    exact ⟨l.reference, rfl⟩

lemma comment_mem_lines_iff {e : Entry} {s : String} :
    .comment s ∈ e.lines ↔
      ∃ m, e = .message m ∧ ∃ l ∈ m.locations, s ∈ Text.lines (l.comment.getD "") := by
  cases e with
  | header h => simp [lines]
  | message m =>
    have htexts : Line.comment s ∉ textLines m := by
      unfold textLines
      split <;> simp
    simp [lines, locationLines, htexts]

/-- Some comment of the entry has a carriage return that no line feed follows. -/
def HasLoneReturn (e : Entry) : Prop :=
  ∃ m, e = message m ∧ ∃ l ∈ m.locations, ∃ c ∈ l.comment, Text.HasLoneReturn c.toList

lemma hasLoneReturn_iff {e : Entry} :
    e.HasLoneReturn ↔ ∃ s, .comment s ∈ e.lines ∧ '\r' ∈ s.toList := by
  constructor
  · rintro ⟨m, he, l, hl, c, hc, hreturn⟩
    obtain ⟨s, hs, hr⟩ := (Text.exists_return_mem_lines c).2 hreturn
    have hcomment : l.comment.getD "" = c := by rw [Option.mem_def.1 hc, Option.getD_some]
    exact ⟨s, comment_mem_lines_iff.2 ⟨m, he, l, hl, hcomment ▸ hs⟩, hr⟩
  · rintro ⟨s, hs, hr⟩
    obtain ⟨m, he, l, hl, hs⟩ := comment_mem_lines_iff.1 hs
    rcases hc : l.comment with _ | c
    · rw [hc] at hs
      cases hs
    · rw [hc, Option.getD_some] at hs
      exact ⟨m, he, l, hl, c, hc, (Text.exists_return_mem_lines c).1 ⟨s, hs, hr⟩⟩

/-- A line of an entry that has a carriage return is a comment. -/
lemma exists_comment_of_return_mem {e : Entry} {cs : List Char} (hcs : cs ∈ e.group)
    (hr : '\r' ∈ cs) :
    ∃ s, .comment s ∈ e.lines ∧ '\r' ∈ s.toList ∧ cs = (Line.comment s).chars := by
  obtain ⟨x, hx, rfl⟩ := List.mem_map.1 hcs
  rcases Line.of_return_mem hr with ⟨s, rfl, hs⟩ | ⟨s, rfl, hs⟩
  · obtain ⟨t, rfl⟩ := reference_mem_lines hx
    exact absurd hs (break_not_mem_oneLine (.inr rfl) t)
  · exact ⟨s, hx, hs, rfl⟩

end Entry

/-! ### The file -/

/-- The lines of the file: those of the entries, and an empty one between two entries. -/
def fileLines (es : List Entry) : List (List Char) := [[]].intercalate (es.map Entry.group)

lemma exists_comment_of_mem_fileLines {es : List Entry} {cs : List Char} (hcs : cs ∈ fileLines es)
    (hr : '\r' ∈ cs) :
    ∃ e ∈ es, ∃ s, .comment s ∈ e.lines ∧ '\r' ∈ s.toList ∧ cs = (Line.comment s).chars := by
  have hne : cs ≠ [] := List.ne_nil_of_mem hr
  obtain ⟨e, he, hcs⟩ := (mem_intercalate_group_iff hne).1 hcs
  exact ⟨e, he, Entry.exists_comment_of_return_mem hcs hr⟩

lemma return_mem_fileLines_iff (es : List Entry) :
    (∃ cs ∈ fileLines es, '\r' ∈ cs) ↔ ∃ e ∈ es, e.HasLoneReturn := by
  constructor
  · rintro ⟨cs, hcs, hr⟩
    obtain ⟨e, he, s, hs, hr, -⟩ := exists_comment_of_mem_fileLines hcs hr
    exact ⟨e, he, Entry.hasLoneReturn_iff.2 ⟨s, hs, hr⟩⟩
  · rintro ⟨e, he, hreturn⟩
    obtain ⟨s, hs, hr⟩ := Entry.hasLoneReturn_iff.1 hreturn
    have hmem : '\r' ∈ (Line.comment s).chars := by simpa [Line.chars, Line.pieces] using hr
    refine ⟨(Line.comment s).chars, ?_, hmem⟩
    exact (mem_intercalate_group_iff (List.ne_nil_of_mem hmem)).2 ⟨e, he, List.mem_map_of_mem hs⟩

lemma return_mem_document_iff (es : List Entry) :
    '\r' ∈ document es ↔ ∃ e ∈ es, e.HasLoneReturn := by
  rw [← return_mem_fileLines_iff, document_eq]
  simp [fileLines]

lemma anyLines_document_eq_iff (es : List Entry) :
    Text.anyLines (document es) = fileLines es ↔ ¬ ∃ e ∈ es, e.HasLoneReturn := by
  rw [← return_mem_fileLines_iff, document_eq]
  refine (Text.anyLines_flatMap_eq_iff fun _ => newline_not_mem_of_mem_intercalate).trans ?_
  simp [fileLines]

/-- A line that is seen is one that was written, or a part of a comment. -/
lemma of_mem_anyLines_document {es : List Entry} {x : List Char}
    (hx : x ∈ Text.anyLines (document es)) :
    x ∈ fileLines es ∨ ∃ e ∈ es, ∃ s, .comment s ∈ e.lines ∧ '\r' ∈ s.toList ∧
      x ∈ Text.anyLines ((Line.comment s).chars ++ ['\n']) := by
  rw [document_eq, Text.anyLines_flatMap] at hx
  obtain ⟨cs, hcs, hx⟩ := List.mem_flatMap.1 hx
  by_cases hr : '\r' ∈ cs
  · obtain ⟨e, he, s, hs, hreturn, rfl⟩ := exists_comment_of_mem_fileLines hcs hr
    exact .inr ⟨e, he, s, hs, hreturn, hx⟩
  · rw [Text.anyLines_line (newline_not_mem_of_mem_intercalate hcs) hr, List.mem_singleton] at hx
    exact .inl (hx ▸ hcs)

namespace Writer

open Output

/-- **Where the lines of the output end.** Its line feeds are the ends of the lines that were
written. It has a carriage return exactly if some comment has one that no line feed follows, and
only then a reader that ends lines at carriage returns too sees other lines than those. What such a
reader sees besides them is a part of such a comment. -/
theorem line_ends_of_output (s : Sink) (es : List Entry) (fin : Ending) :
    let text := document es
    let ls := fileLines es
    (fin.sink ((ofSink s).performAll (es.map .write)).2).received =
        s.received ++ s.admitted (Text.utf8 text) ∧
      (text = ls.flatMap (· ++ ['\n']) ∧ ∀ l ∈ ls, '\n' ∉ l) ∧
      ('\r' ∈ text ↔ ∃ e ∈ es, e.HasLoneReturn) ∧
      (Text.anyLines text = ls ↔ ¬ ∃ e ∈ es, e.HasLoneReturn) ∧
      ∀ x ∈ Text.anyLines text, x ∈ ls ∨
        ∃ e ∈ es, ∃ c, .comment c ∈ e.lines ∧ '\r' ∈ c.toList ∧
          x ∈ Text.anyLines ((Line.comment c).chars ++ ['\n']) := by
  intro text ls
  have hreached := (intact_ofSink s).performAll (es.map .write)
  refine ⟨?_, ⟨document_eq es, fun _ => newline_not_mem_of_mem_intercalate⟩,
    return_mem_document_iff es, anyLines_document_eq_iff es, fun _ => of_mem_anyLines_document⟩
  rw [hreached.given_up fin, List.nil_append, written_map_write, Sink.received_push, rendered]

/-- No carriage return of any field reaches the output, as the one in the comment belongs to a line
end; so every reader sees the second line of the comment as it is written. -/
theorem line_ends_of_output_neutralized :
    let e : Entry :=
      .message { text := "A\r\n", plural := some "\r", context := some "\n\r", locations :=
        [{ file := "f\r", comment := some "a\r\nb" }] }
    let text := document [e]
    '\r' ∉ text ∧ Text.anyLines text = fileLines [e] ∧
      "#. b".toList ∈ Text.anyLines text ∧ "#. b".toList ∈ fileLines [e] := by
  intro e text
  have hr : '\r' ∉ text := by decide
  have hb : "#. b".toList ∈ Text.anyLines text := by decide
  obtain ⟨-, -, hreturn, hlines, hseen⟩ := line_ends_of_output {} [e] .drop
  refine ⟨hr, hlines.2 fun h => hr (hreturn.2 h), hb, ?_⟩
  rcases hseen _ hb with h | ⟨f, hf, c, hc, hreturn', -⟩
  · exact h
  · exact absurd (hreturn.2 ⟨f, hf, Entry.hasLoneReturn_iff.2 ⟨c, hc, hreturn'⟩⟩) hr

/-- A carriage return in a comment reaches the output, and a reader that ends lines at it takes the
rest of the comment for a line of a message. -/
theorem output_with_return :
    let e : Entry := .message { text := "A", locations :=
      [{ file := "f", comment := some "a\rmsgid \"b\"" }] }
    let output := (Ending.close.sink ((ofSink {}).performAll [.write e]).2).received
    let text := "#: f\n#. a\rmsgid \"b\"\nmsgid \"A\"\nmsgstr \"\"\n".toList
    output = Text.utf8 text ∧ '\r' ∈ text ∧ "msgid \"b\"".toList ∈ Text.anyLines text ∧
      "msgid \"b\"".toList ∉ fileLines [e] := by
  decide

end Writer

end Po

end LiquidCatalog

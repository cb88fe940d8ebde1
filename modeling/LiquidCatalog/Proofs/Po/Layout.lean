import Mathlib.Data.List.Basic
import LiquidCatalog.Po.Reader
import LiquidCatalog.Proofs.Po.Quoted
import LiquidCatalog.Proofs.Text.Lines

/-!
How a PO file is laid out.

Whatever the fields hold, every line of an entry is one line: it is not empty, and there is no
line feed in it. So the file, parted at its line feeds, shows the lines of each entry as one group
with an empty line between two groups.
-/

namespace LiquidCatalog

namespace Text

/-- A character that ends a line, at least for some readers. -/
def IsBreak (c : Char) : Prop := c = '\n' ∨ c = '\r'

end Text

namespace Po

lemma Quoted.break_not_mem_encode {c : Char} (hc : Text.IsBreak c) (s : List Char) :
    c ∉ encode s := by
  refine not_mem_encode ?_ s
  rcases hc with rfl | rfl <;> decide

lemma break_not_mem_oneLine {c : Char} (hc : Text.IsBreak c) (s : String) :
    c ∉ (oneLine s).toList := by
  simp only [oneLine, String.toList_ofList, List.mem_flatMap, not_exists, not_and]
  intro d _
  rcases hc with rfl | rfl <;> split <;> simp_all [eq_comm]

/-! ### Lines -/

namespace Line

/-- The line carries nothing that would make two lines of it. -/
def IsSingle : Line → Prop
  | reference s => '\n' ∉ s.toList
  | comment s => '\n' ∉ s.toList
  | blank => False
  | _ => True

lemma break_not_mem_quoted {c : Char} (hc : Text.IsBreak c) {before after : String}
    (hb : c ∉ before.toList) (ha : c ∉ after.toList) (s : String) :
    c ∉ (quoted before s after).flatten := by
  have hquote : c ≠ '"' := by
    rcases hc with rfl | rfl <;> decide
  simp [quoted, hb, ha, hquote, Quoted.break_not_mem_encode hc]

lemma IsSingle.newline_not_mem {l : Line} (h : l.IsSingle) : '\n' ∉ l.chars := by
  cases l with
  | reference s => simpa [chars, pieces, IsSingle] using h
  | comment s => simpa [chars, pieces, IsSingle] using h
  | msgctxt s => exact break_not_mem_quoted (.inl rfl) (by decide) (by decide) s
  | msgid s => exact break_not_mem_quoted (.inl rfl) (by decide) (by decide) s
  | msgidPlural s => exact break_not_mem_quoted (.inl rfl) (by decide) (by decide) s
  | headerField s => exact break_not_mem_quoted (.inl rfl) (by decide) (by decide) s
  | msgstr => decide
  | msgstrPlural => decide
  | headerMsgid => decide
  | blank => exact absurd h id

lemma IsSingle.chars_ne_nil {l : Line} (h : l.IsSingle) : l.chars ≠ [] := by
  cases l with
  | blank => exact absurd h id
  | _ => simp [chars, pieces, quoted]

end Line

lemma isSingle_of_mem_locationLines {l : Location} {x : Line} (hx : x ∈ locationLines l) :
    x.IsSingle := by
  rcases List.mem_cons.1 hx with rfl | hx
  · exact break_not_mem_oneLine (.inl rfl) l.reference
  · obtain ⟨c, hc, rfl⟩ := List.mem_map.1 hx
    exact Text.newline_not_mem_lines _ c hc

lemma isSingle_of_mem_textLines {m : Message} {x : Line} (hx : x ∈ textLines m) :
    x.IsSingle := by
  unfold textLines at hx
  split at hx
  · simp only [List.mem_cons, List.not_mem_nil, or_false] at hx
    rcases hx with rfl | rfl <;> exact trivial
  · simp only [List.mem_cons, List.not_mem_nil, or_false] at hx
    rcases hx with rfl | rfl | rfl <;> exact trivial

lemma textLines_ne_nil (m : Message) : textLines m ≠ [] := by
  unfold textLines
  split <;> simp

namespace Entry

lemma isSingle_of_mem_lines {e : Entry} {x : Line} (hx : x ∈ e.lines) : x.IsSingle := by
  cases e with
  | header h =>
    simp only [lines, List.mem_cons, List.mem_map] at hx
    rcases hx with rfl | rfl | ⟨s, -, rfl⟩ <;> exact trivial
  | message m =>
    simp only [lines, List.mem_append, List.mem_flatMap, List.mem_map] at hx
    rcases hx with (⟨l, -, hx⟩ | ⟨s, -, rfl⟩) | hx
    · exact isSingle_of_mem_locationLines hx
    · exact trivial
    · exact isSingle_of_mem_textLines hx

/-- The lines of the entry as they stand in the file. -/
def group (e : Entry) : List (List Char) := e.lines.map Line.chars

lemma group_ne_nil (e : Entry) : e.group ≠ [] := by
  cases e with
  | header h => simp [group, lines]
  | message m => simp [group, lines, textLines_ne_nil]

lemma nil_not_mem_group (e : Entry) : [] ∉ e.group := by
  intro h
  obtain ⟨l, hl, hnil⟩ := List.mem_map.1 h
  exact (isSingle_of_mem_lines hl).chars_ne_nil hnil

lemma newline_not_mem_of_mem_group {e : Entry} {cs : List Char} (h : cs ∈ e.group) :
    '\n' ∉ cs := by
  obtain ⟨l, hl, rfl⟩ := List.mem_map.1 h
  exact (isSingle_of_mem_lines hl).newline_not_mem

lemma chars_eq (e : Entry) : e.chars = e.group.flatMap (· ++ ['\n']) := by
  simp [chars, group, List.flatMap_map]

end Entry

/-! ### The file -/

lemma intercalate_cons_eq {α : Type} (sep g : List α) (gs : List (List α)) :
    sep.intercalate (g :: gs) = g ++ gs.flatMap (sep ++ ·) := by
  induction gs generalizing g with
  | nil => simp
  | cons g' gs ih =>
    simp only [List.intercalate_cons_cons, ih, List.flatMap_cons, List.append_assoc]

lemma splitOn_flatMap_lines {ls : List (List Char)} (h : ∀ l ∈ ls, '\n' ∉ l) :
    (ls.flatMap (· ++ ['\n'])).splitOn '\n' = ls ++ [[]] := by
  induction ls with
  | nil => simp
  | cons l ls ih =>
    rw [List.forall_mem_cons] at h
    rw [List.flatMap_cons, List.append_assoc, List.singleton_append,
      List.splitOn_append_cons_self_of_not_mem h.1, ih h.2, List.cons_append]

/-- The lines of the file, the empty lines between entries included. -/
lemma document_eq (es : List Entry) :
    document es = ([[]].intercalate (es.map Entry.group)).flatMap (· ++ ['\n']) := by
  cases es with
  | nil => rfl
  | cons e es =>
    rw [List.map_cons, intercalate_cons_eq, List.flatMap_append, ← Entry.chars_eq, document]
    congr 1
    simp only [List.flatMap_map, List.flatMap_assoc, Entry.chars_eq]
    rfl

/-- The lines of the file that are not empty are those of the entries. -/
lemma mem_intercalate_group_iff {es : List Entry} {cs : List Char} (hcs : cs ≠ []) :
    cs ∈ [[]].intercalate (es.map Entry.group) ↔ ∃ e ∈ es, cs ∈ e.group := by
  cases es with
  | nil => simp
  | cons e es =>
    rw [List.map_cons, intercalate_cons_eq]
    simp [hcs]

lemma newline_not_mem_of_mem_intercalate {es : List Entry} {cs : List Char}
    (h : cs ∈ [[]].intercalate (es.map Entry.group)) : '\n' ∉ cs := by
  by_cases hcs : cs = []
  · simp [hcs]
  · obtain ⟨e, -, he⟩ := (mem_intercalate_group_iff hcs).1 h
    exact Entry.newline_not_mem_of_mem_group he

/-- **The layout.** Parted at its line feeds the file shows the group of each entry, with one
empty line between two groups and nothing after the last line feed. -/
lemma splitOn_document (es : List Entry) :
    (document es).splitOn '\n' = [[]].intercalate (es.map Entry.group) ++ [[]] := by
  rw [document_eq, splitOn_flatMap_lines fun _ => newline_not_mem_of_mem_intercalate]

lemma getLast?_flatMap_lines {ls : List (List Char)} (h : ls ≠ []) :
    (ls.flatMap (· ++ ['\n'])).getLast? = some '\n' := by
  obtain ⟨ms, l, rfl⟩ := (List.eq_nil_or_concat ls).resolve_left h
  simp [List.flatMap_append, List.getLast?_append]

lemma getLast?_document (es : List Entry) : (document es).getLast? = some '\n' ↔ es ≠ [] := by
  constructor
  · rintro h rfl
    simp [document] at h
  · intro h
    obtain ⟨e, es, rfl⟩ := List.exists_cons_of_ne_nil h
    rw [document_eq, List.map_cons, intercalate_cons_eq]
    exact getLast?_flatMap_lines (by simp [Entry.group_ne_nil])

lemma lineGroups_document (es : List Entry) : lineGroups (document es) = es.map Entry.group := by
  by_cases hes : es = []
  · subst hes
    rfl
  · have hdoc : document es ≠ [] := by
      intro h0
      have hlast := (getLast?_document es).2 hes
      rw [h0] at hlast
      cases hlast
    have hnil : ∀ g ∈ es.map Entry.group, [] ∉ g := by
      intro g hg
      obtain ⟨e, -, rfl⟩ := List.mem_map.1 hg
      exact e.nil_not_mem_group
    rw [lineGroups, if_neg (by simpa using hdoc), splitOn_document, List.dropLast_concat,
      List.splitOn_intercalate [] hnil (by simpa using hes)]

end Po

end LiquidCatalog

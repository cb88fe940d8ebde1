import Mathlib.Data.List.Basic
import LiquidCatalog.Text.Lines

/-!
Texts and their lines.

A text whose last line is ended has as many lines as line feeds, and its lines, each with a line
feed, make up the text again but for the carriage returns that belong to line ends.
-/

namespace LiquidCatalog.Text

lemma exists_mem_consFirst {a c : Char} {ls : List (List Char)} :
    (∃ l ∈ consFirst c ls, a ∈ l) ↔ a = c ∨ ∃ l ∈ ls, a ∈ l := by
  cases ls <;> simp [consFirst, or_assoc]

lemma newline_not_mem_lineChars (s : List Char) : ∀ l ∈ lineChars s, '\n' ∉ l := by
  fun_induction lineChars s with
  | case1 => simp
  | case2 s ih => simpa using ih
  | case3 s ih => simpa using ih
  | case4 c s hc _ ih =>
    intro l hl hmem
    rcases exists_mem_consFirst.1 ⟨l, hl, hmem⟩ with h | ⟨l', hl', h⟩
    · exact hc h.symm
    · exact ih l' hl' h

lemma newline_not_mem_lines (s : String) : ∀ l ∈ lines s, '\n' ∉ l.toList := by
  intro l hl
  obtain ⟨cs, hcs, rfl⟩ := List.mem_map.1 hl
  simpa using newline_not_mem_lineChars s.toList cs hcs

lemma lineChars_ne_nil {s : List Char} (h : s ≠ []) : lineChars s ≠ [] := by
  fun_induction lineChars s with
  | case1 => exact absurd rfl h
  | case2 => simp
  | case3 => simp
  | case4 c s => cases lineChars s <;> simp [consFirst]

/-! ### Lines put together -/

/-- The text without the carriage return directly before each line feed. -/
def dropReturns : List Char → List Char
  | [] => []
  | '\r' :: '\n' :: s => '\n' :: dropReturns s
  | c :: s => c :: dropReturns s

lemma dropReturns_eq_self_iff (s : List Char) :
    dropReturns s = s ↔ ¬ ['\r', '\n'] <:+: s := by
  fun_induction dropReturns s with
  | case1 => simp
  | case2 s ih =>
    have hfound : ['\r', '\n'] <:+: '\r' :: '\n' :: s := ⟨[], s, rfl⟩
    simp [hfound]
  | case3 c s hcr ih =>
    have hstart : ¬ ['\r', '\n'] <+: c :: s := by
      rintro ⟨t, ht⟩
      obtain ⟨rfl, rfl⟩ := List.cons.inj ht
      exact hcr t rfl rfl
    rw [List.infix_cons_iff, List.cons_inj_right, ih, not_or]
    exact ⟨fun h => ⟨hstart, h⟩, fun h => h.2⟩

lemma forall_getLast?_of_cons {p : Char → Prop} {c : Char} {s : List Char}
    (h : ∀ d ∈ (c :: s).getLast?, p d) : ∀ d ∈ s.getLast?, p d := by
  cases s with
  | nil => simp
  | cons e s => simpa using h

lemma ne_nil_of_getLast? {c : Char} {s : List Char} (h : ∀ d ∈ (c :: s).getLast?, d = '\n')
    (hc : c ≠ '\n') : s ≠ [] := by
  rintro rfl
  exact hc (h c rfl)

/-- **The lines of a text**, each with a line feed, make up the text again but for the carriage
returns that belong to line ends. -/
lemma flatMap_lineChars {s : List Char} (h : ∀ c ∈ s.getLast?, c = '\n') :
    (lineChars s).flatMap (· ++ ['\n']) = dropReturns s := by
  fun_induction lineChars s with
  | case1 => rfl
  | case2 s ih => simp [dropReturns, ih (forall_getLast?_of_cons h)]
  | case3 s ih =>
    simp [dropReturns, ih (forall_getLast?_of_cons (forall_getLast?_of_cons h))]
  | case4 c s hc hcr ih =>
    have hs : s ≠ [] := ne_nil_of_getLast? h hc
    obtain ⟨l, ls, hls⟩ := List.exists_cons_of_ne_nil (lineChars_ne_nil hs)
    have hrest := ih (forall_getLast?_of_cons h)
    rw [dropReturns.eq_3 _ _ hcr, ← hrest, hls, consFirst]
    rfl

example : (lineChars "a\r\r\nb\n".toList).flatMap (· ++ ['\n']) = "a\r\nb\n".toList := by decide

lemma length_lineChars {s : List Char} (h : ∀ c ∈ s.getLast?, c = '\n') :
    (lineChars s).length = s.count '\n' := by
  fun_induction lineChars s with
  | case1 => rfl
  | case2 s ih => simp [ih (forall_getLast?_of_cons h)]
  | case3 s ih => simp [ih (forall_getLast?_of_cons (forall_getLast?_of_cons h))]
  | case4 c s hc hcr ih =>
    have hs : s ≠ [] := ne_nil_of_getLast? h hc
    obtain ⟨l, ls, hls⟩ := List.exists_cons_of_ne_nil (lineChars_ne_nil hs)
    have hrest := ih (forall_getLast?_of_cons h)
    rw [List.count_cons_of_ne hc, ← hrest, hls, consFirst]
    rfl

/-! ### Texts put together from lines -/

/-- The line without a carriage return at its end. -/
def withoutReturn : List Char → List Char
  | [] => []
  | ['\r'] => []
  | c :: s => c :: withoutReturn s

/-- The text is a line that parting leaves as it is. -/
structure IsLine (s : List Char) : Prop where
  newline_not_mem : '\n' ∉ s
  getLast?_ne : s.getLast? ≠ some '\r'

instance : DecidablePred IsLine := fun s =>
  decidable_of_iff ('\n' ∉ s ∧ s.getLast? ≠ some '\r') ⟨fun h => ⟨h.1, h.2⟩, fun h => ⟨h.1, h.2⟩⟩

lemma withoutReturn_eq_self_iff (s : List Char) : withoutReturn s = s ↔ s.getLast? ≠ some '\r' := by
  fun_induction withoutReturn s with
  | case1 => simp
  | case2 => simp
  | case3 c s h ih =>
    rw [List.cons_inj_right, ih]
    cases s with
    | nil => simpa using h
    | cons d s => simp

lemma withoutReturn_append (s : List Char) (c : Char) (t : List Char) :
    withoutReturn (s ++ c :: t) = s ++ withoutReturn (c :: t) := by
  induction s with
  | nil => rfl
  | cons d s ih =>
    rw [List.cons_append, withoutReturn.eq_3, ih, List.cons_append]
    simp

lemma lineChars_append_newline {l : List Char} (h : '\n' ∉ l) (rest : List Char) :
    lineChars (l ++ '\n' :: rest) = withoutReturn l :: lineChars rest := by
  fun_induction withoutReturn l with
  | case1 => rfl
  | case2 => rfl
  | case3 c l hcr ih =>
    rw [List.mem_cons, not_or] at h
    rw [List.cons_append, lineChars.eq_4, ih h.2, consFirst]
    · exact fun hc => h.1 hc.symm
    · -- a carriage return that ends the line is the case before
      rintro t rfl ht
      cases l with
      | nil => exact hcr rfl rfl
      | cons d l => exact h.2 (by simp_all)

/-- Lines that are put together and parted again lose their last carriage returns. -/
lemma lineChars_flatMap {ls : List (List Char)} (h : ∀ l ∈ ls, '\n' ∉ l) :
    lineChars (ls.flatMap (· ++ ['\n'])) = ls.map withoutReturn := by
  induction ls with
  | nil => rfl
  | cons l ls ih =>
    rw [List.forall_mem_cons] at h
    rw [List.flatMap_cons, List.append_assoc, List.singleton_append,
      lineChars_append_newline h.1, ih h.2, List.map_cons]

/-- Lines are found again exactly if each of them is one line as it is. -/
lemma lineChars_flatMap_eq_iff {ls : List (List Char)} :
    lineChars (ls.flatMap (· ++ ['\n'])) = ls ↔ ∀ l ∈ ls, IsLine l := by
  constructor
  · intro heq
    have hn : ∀ l ∈ ls, '\n' ∉ l := heq ▸ newline_not_mem_lineChars _
    rw [lineChars_flatMap hn] at heq
    have hreturn := List.map_inj_left.1 (heq.trans (List.map_id ls).symm)
    exact fun l hl => ⟨hn l hl, (withoutReturn_eq_self_iff l).1 (hreturn l hl)⟩
  · intro h
    rw [lineChars_flatMap fun l hl => (h l hl).newline_not_mem]
    refine (List.map_congr_left fun l hl => ?_).trans (List.map_id ls)
    exact (withoutReturn_eq_self_iff l).2 (h l hl).getLast?_ne

end LiquidCatalog.Text

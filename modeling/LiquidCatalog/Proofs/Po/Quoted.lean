import Mathlib.Algebra.Group.Nat.Even
import Mathlib.Order.Bounds.Defs
import LiquidCatalog.Po.Quoted

/-!
Where a quoted text ends.

A quote is escaped if an odd number of backslashes stands directly before it, since all but the last
of them escape each other. Escaping puts an odd number of them before each quote of a text and
leaves an even number at its end. So the quote that is put behind an escaped text is the first one
in it that is not escaped, and a text is told from its written form wherever this stands.
-/

namespace LiquidCatalog.Po

namespace Quoted

/-! ### Bare quotes -/

/-- The number of backslashes at the end of a text. -/
def endRun (s : List Char) : Nat := (s.reverse.takeWhile (· = '\\')).length

/-- A quote stands at the position, and the backslashes directly before it escape each other. -/
def IsBareQuote (s : List Char) (i : Nat) : Prop := s[i]? = some '"' ∧ Even (endRun (s.take i))

instance (s : List Char) (i : Nat) : Decidable (IsBareQuote s i) :=
  inferInstanceAs (Decidable (_ ∧ _))

/-- Backslashes in pairs may stand in front of a text. -/
lemma even_endRun_append {w : List Char} (hw : Even (endRun w)) (u : List Char) :
    Even (endRun (w ++ u)) ↔ Even (endRun u) := by
  simp only [endRun, List.reverse_append, List.takeWhile_append]
  split
  · next hall =>
    have heven : Even (u.reverse.length + (w.reverse.takeWhile (· = '\\')).length) ↔
        Even u.reverse.length := by
      rw [Nat.even_add]
      exact iff_true_right hw
    rw [List.length_append, hall, heven]
  · rfl

lemma isBareQuote_append {w : List Char} (hw : Even (endRun w)) (s : List Char) (i : Nat) :
    IsBareQuote (w ++ s) (w.length + i) ↔ IsBareQuote s i := by
  rw [IsBareQuote, IsBareQuote, List.getElem?_append_right (Nat.le_add_right _ _),
    Nat.add_sub_cancel_left, List.take_length_add_append, even_endRun_append hw]

/-- A backslash escapes a quote, and two of them escape each other. -/
example : ¬ IsBareQuote ['\\', '"'] 1 ∧ IsBareQuote ['\\', '\\', '"'] 2 := by decide

/-- The first bare quote, when a text without one is put in front. -/
lemma isLeast_append {w s : List Char} {n : Nat} (hw : Even (endRun w))
    (hnone : ∀ i < w.length, ¬ IsBareQuote (w ++ s) i) (h : IsLeast {i | IsBareQuote s i} n) :
    IsLeast {i | IsBareQuote (w ++ s) i} (w.length + n) := by
  refine ⟨(isBareQuote_append hw s n).2 h.1, fun i hi => ?_⟩
  rcases Nat.lt_or_ge i w.length with hlt | hge
  · exact absurd hi (hnone i hlt)
  · obtain ⟨j, rfl⟩ := Nat.exists_eq_add_of_le hge
    exact Nat.add_le_add_left (h.2 ((isBareQuote_append hw s j).1 hi)) _

/-- **Reading up to a quote** parts a text at its first bare quote. -/
lemma isLeast_of_untilQuote? {s body rest : List Char} (h : untilQuote? s = some (body, rest)) :
    s = body ++ '"' :: rest ∧ IsLeast {i | IsBareQuote s i} body.length := by
  fun_induction untilQuote? s generalizing body rest with
  | case1 => cases h
  | case2 s =>
    obtain ⟨rfl, rfl⟩ := Prod.mk.inj (Option.some.inj h)
    exact ⟨rfl, ⟨rfl, Even.zero⟩, fun _ _ => Nat.zero_le _⟩
  | case3 => cases h
  | case4 c s ih =>
    obtain ⟨⟨body, rest⟩, hs, hparts⟩ := Option.map_eq_some_iff.1 h
    obtain ⟨rfl, rfl⟩ := Prod.mk.inj hparts
    obtain ⟨rfl, hleast⟩ := ih hs
    have hrun : Even (endRun ['\\', c]) := by
      by_cases hc : c = '\\'
      · subst hc
        decide
      · simp [endRun, hc]
    have hnone : ∀ i < 2, ¬ IsBareQuote (['\\', c] ++ (body ++ '"' :: rest)) i := by
      rintro (_ | _ | i) hi ⟨hquote, heven⟩
      · simp at hquote
      · -- the backslash alone escapes a quote behind it
        have hodd : Even (endRun ['\\']) := heven
        exact absurd hodd (by decide)
      · omega
    have hcons := isLeast_append hrun hnone hleast
    rw [List.length_cons, List.length_cons]
    rw [Nat.add_comm] at hcons
    exact ⟨rfl, hcons⟩
  | case5 c s hquote hlast hescape ih =>
    have hback : c ≠ '\\' := by
      intro hc
      cases s with
      | nil => exact hlast hc rfl
      | cons d s => exact hescape d s hc rfl
    obtain ⟨⟨body, rest⟩, hs, hparts⟩ := Option.map_eq_some_iff.1 h
    obtain ⟨rfl, rfl⟩ := Prod.mk.inj hparts
    obtain ⟨rfl, hleast⟩ := ih hs
    have hrun : Even (endRun [c]) := by simp [endRun, hback]
    have hnone : ∀ i < 1, ¬ IsBareQuote ([c] ++ (body ++ '"' :: rest)) i := by
      rintro (_ | i) hi ⟨hc, -⟩
      · exact hquote (by simpa using hc)
      · omega
    have hcons := isLeast_append hrun hnone hleast
    rw [Nat.add_comm] at hcons
    exact ⟨rfl, hcons⟩

/-! ### Escaped texts -/

lemma untilQuote?_encodeChar_append (c : Char) (s : List Char) :
    untilQuote? (encodeChar c ++ s) =
      (untilQuote? s).map fun (body, rest) => (encodeChar c ++ body, rest) := by
  unfold encodeChar
  split
  · simp [untilQuote?]
  · simp [untilQuote?]
  · simp [untilQuote?]
  · simp [untilQuote?]
  · simp [untilQuote?]
  · next hback hquote _ _ _ =>
    rw [List.singleton_append, untilQuote?]
    · rfl
    · exact hquote
    · exact fun hc => absurd hc hback
    · exact fun _ _ hc => absurd hc hback

/-- **A quoted text** is read up to the quote that was put behind it. -/
lemma untilQuote?_encode (s rest : List Char) :
    untilQuote? (encode s ++ '"' :: rest) = some (encode s, rest) := by
  induction s with
  | nil => rfl
  | cons c s ih =>
    rw [encode_cons, List.append_assoc, untilQuote?_encodeChar_append, ih]
    rfl

/-- The characters that end a line or move to a column are all escaped. -/
lemma not_mem_encode {c : Char} (hc : c ∈ ['\n', '\r', '\t']) (s : List Char) : c ∉ encode s := by
  induction s with
  | nil => exact List.not_mem_nil
  | cons d s ih =>
    have hd : c ∉ encodeChar d := by
      simp only [List.mem_cons, List.not_mem_nil, or_false] at hc
      unfold encodeChar
      rcases hc with rfl | rfl | rfl <;> split <;> simp_all [eq_comm]
    rw [encode_cons, List.mem_append, not_or]
    exact ⟨hd, ih⟩

/-- Between quotes, the first bare quote behind the opening one is the closing one. -/
lemma isLeast_quoted (s rest : List Char) :
    IsLeast {i | 0 < i ∧ IsBareQuote ('"' :: (encode s ++ '"' :: rest)) i}
      ((encode s).length + 1) := by
  obtain ⟨-, hbare, hfirst⟩ := isLeast_of_untilQuote? (untilQuote?_encode s rest)
  have hcons (i : Nat) : IsBareQuote ('"' :: (encode s ++ '"' :: rest)) (i + 1) ↔
      IsBareQuote (encode s ++ '"' :: rest) i := by
    rw [Nat.add_comm]
    exact isBareQuote_append (w := ['"']) (by decide) _ i
  refine ⟨⟨Nat.succ_pos _, (hcons _).2 hbare⟩, ?_⟩
  rintro (_ | i) ⟨hpos, hi⟩
  · exact absurd hpos (Nat.lt_irrefl 0)
  · exact Nat.succ_le_succ (hfirst ((hcons i).1 hi))

end Quoted

/-- **Escaping is faithful quoting.** A text is escaped part by part, and what it is escaped to
gives it back and has no line feed, carriage return or tab. Between quotes and with anything behind
them, the first quote after the opening one with an even number of backslashes directly before it is
the closing one, so this is where reading up to a quote ends. -/
theorem escape_faithful (a b : String) :
    escape (a ++ b) = escape a ++ escape b ∧
      unescape (escape a) = some a ∧
      (escape a = escape b ↔ a = b) ∧
      (∀ c ∈ ['\n', '\r', '\t'], c ∉ (escape a).toList) ∧
      ∀ rest : String,
        let s := ("\"" ++ escape a ++ "\"" ++ rest).toList
        IsLeast {i | 0 < i ∧ Quoted.IsBareQuote s i} ((escape a).length + 1) ∧
          Quoted.untilQuote? s.tail = some ((escape a).toList, rest.toList) := by
  have hchars : (escape a).toList = Quoted.encode a.toList := String.toList_ofList
  refine ⟨?_, unescape_escape a, ⟨fun h => ?_, congrArg escape⟩, fun c hc => ?_, fun rest => ?_⟩
  · rw [escape, String.toList_append, Quoted.encode_append, String.ofList_append]
    rfl
  · have hdecode := congrArg unescape h
    rw [unescape_escape, unescape_escape] at hdecode
    exact Option.some.inj hdecode
  · rw [hchars]
    exact Quoted.not_mem_encode hc _
  · have hs : ("\"" ++ escape a ++ "\"" ++ rest).toList =
        '"' :: (Quoted.encode a.toList ++ '"' :: rest.toList) := by
      simp [String.toList_append, hchars]
    have hlength : (escape a).length = (Quoted.encode a.toList).length := by
      rw [← String.length_toList, hchars]
    rw [hs, hchars, hlength]
    exact ⟨Quoted.isLeast_quoted _ _, Quoted.untilQuote?_encode _ _⟩

end LiquidCatalog.Po

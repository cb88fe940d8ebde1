import LiquidCatalog.Proofs.Liquid.Tag
import LiquidCatalog.Proofs.Text.Occurrences

/-!
Markers are read exactly as they are written.

The main statement is `Marker.accepts`: what the reader takes off a text are the written forms, and
it returns the text between the quotes.
-/

namespace LiquidCatalog.Liquid

open Text

lemma skipSome?_append {p : Char → Bool} {u s : List Char} (hne : u ≠ [])
    (hu : ∀ c ∈ u, p c = true) (hs : ∀ c ∈ s.head?, p c = false) :
    skipSome? p (u ++ s) = some s := by
  obtain ⟨c, u, rfl⟩ := List.exists_cons_of_ne_nil hne
  rw [List.forall_mem_cons] at hu
  rw [List.cons_append, skipSome?, if_pos hu.1, dropWhile_append hu.2 hs]

lemma exists_of_skipSome? {p : Char → Bool} {s rest : List Char} (h : skipSome? p s = some rest) :
    ∃ u, u ≠ [] ∧ (∀ c ∈ u, p c = true) ∧ s = u ++ rest := by
  fun_cases skipSome? p s with
  | case1 => cases h
  | case2 c s hc =>
    rw [skipSome?, if_pos hc, Option.some.injEq] at h
    refine ⟨c :: s.takeWhile p, List.cons_ne_nil _ _, ?_, ?_⟩
    · rw [List.forall_mem_cons]
      exact ⟨hc, fun d hd => List.mem_takeWhile_imp hd⟩
    · rw [← h, List.cons_append, List.takeWhile_append_dropWhile]
  | case3 c s hc =>
    rw [skipSome?, if_neg hc] at h
    cases h

namespace Marker

lemma Name.head?_chars (n : Name) (s : List Char) :
    ∀ c ∈ (n.chars ++ s).head?, isBlank c = false := by
  obtain ⟨_ | ⟨d, u⟩, hne, hname⟩ := n
  · exact absurd rfl hne
  · rintro c ⟨⟩
    exact isBlank_of_isNameChar (hname d (by simp))

/-- The blanks after a name, and the sign, do not belong to the name. -/
lemma head?_beforeSign (g : Blanks) (s : List Char) :
    ∀ c ∈ (g.chars ++ '=' :: s).head?, isNameChar c = false := by
  obtain ⟨_ | ⟨d, u⟩, hg⟩ := g
  · rintro c ⟨⟩
    decide
  · rintro c ⟨⟩
    exact isNameChar_of_isBlank (hg d (by simp))

lemma opening?_append (o : Opening) {c : Char} (hblank : isBlank c = false) (hc : c ≠ '-')
    (s : List Char) : opening? (o.chars ++ c :: s) = some (c :: s) := by
  cases o with
  | output trims gap =>
    simp only [Opening.chars, List.cons_append, List.append_assoc, opening?]
    rw [skipBlanks_skipHyphen trims gap hblank hc]
  | assignment trims lead gap hgap name before after =>
    have hstart := tagStart?_append trims lead (c := 'a') (by decide) (by decide)
      ("ssign".toList ++ (gap.chars ++ (name.chars ++ (before.chars ++
        '=' :: (after.chars ++ c :: s)))))
    have hsome := skipSome?_append hgap gap.isBlank_of_mem
      (name.head?_chars (before.chars ++ '=' :: (after.chars ++ c :: s)))
    have hname := skipSome?_append name.ne_nil name.isNameChar_of_mem
      (head?_beforeSign before (after.chars ++ c :: s))
    have hsign := skipBlanks_append before (c := '=') (by decide) (after.chars ++ c :: s)
    have hassign : opening? ((Opening.assignment trims lead gap hgap name before after).chars ++
        c :: s) = assignment? ((Opening.assignment trims lead gap hgap name before after).chars ++
        c :: s) := rfl
    rw [hassign]
    simp only [Opening.chars, List.cons_append, List.append_assoc, assignment?,
      Option.bind_eq_bind, Option.bind_eq_some_iff, List.isPrefixOf?_eq_some_iff_append_eq]
    refine ⟨_, hstart, _, rfl, _, hsome, _, hname, after.chars ++ c :: s, ?_, ?_⟩
    · rw [hsign]
      rfl
    · rw [skipBlanks_append after hblank]
      rfl

lemma exists_of_opening? {s rest : List Char} (h : opening? s = some rest) :
    ∃ o : Opening, s = o.chars ++ rest := by
  fun_cases opening? s with
  | case1 s =>
    obtain ⟨trims, hs⟩ := exists_skipHyphen s
    obtain ⟨g, hg⟩ := exists_skipBlanks (skipHyphen s)
    rw [opening?, Option.some.injEq] at h
    rw [h] at hg
    exact ⟨.output trims g, by simp [Opening.chars, ← hg, ← hs]⟩
  | case2 s hs =>
    have h : assignment? s = some rest := by
      rwa [opening?] at h
      exact hs
    simp only [assignment?, Option.bind_eq_bind, Option.bind_eq_some_iff,
      List.isPrefixOf?_eq_some_iff_append_eq, pure, Option.some.injEq] at h
    obtain ⟨s₁, hstart, s₂, rfl, s₃, hs₃, s₄, hs₄, s₅, hsign, rfl⟩ := h
    obtain ⟨trims, lead, rfl⟩ := exists_of_tagStart? hstart
    obtain ⟨gap, hgap_ne, hgap, rfl⟩ := exists_of_skipSome? hs₃
    obtain ⟨name, hname_ne, hname, rfl⟩ := exists_of_skipSome? hs₄
    obtain ⟨before, hbefore⟩ := exists_skipBlanks s₄
    obtain ⟨after, hafter⟩ := exists_skipBlanks s₅
    rw [← hsign] at hbefore
    refine ⟨.assignment trims lead ⟨gap, hgap⟩ hgap_ne ⟨name, hname_ne, hname⟩ before after, ?_⟩
    simp only [Opening.chars, List.cons_append, List.append_assoc]
    rw [← hafter, hbefore]
    rfl

lemma untilQuote?_eq_some_iff {q : Char} {s text rest : List Char} :
    untilQuote? q s = some (text, rest) ↔ q ∉ text ∧ s = text ++ q :: rest := by
  constructor
  · intro h
    rw [untilQuote?] at h
    split at h
    · cases h
    · next c s' hs =>
      obtain ⟨rfl, rfl⟩ := Prod.mk.inj (Option.some.inj h)
      have hq : c = q := by
        have := List.head?_dropWhile_not (· != q) s
        rw [hs] at this
        simpa using this
      refine ⟨fun hmem => ?_, ?_⟩
      · simpa using List.mem_takeWhile_imp hmem
      · rw [← hq, ← hs, hq, List.takeWhile_append_dropWhile]
  · rintro ⟨hq, rfl⟩
    have hall : ∀ c ∈ text, (c != q) = true := by
      intro c hc
      simpa using ne_of_mem_of_not_mem hc hq
    have hdrop : (text ++ q :: rest).dropWhile (· != q) = q :: rest :=
      dropWhile_append hall (by simp)
    have htake : (text ++ q :: rest).takeWhile (· != q) = text := by
      rw [List.takeWhile_append_of_pos hall, List.takeWhile_cons_of_neg (by simp), List.append_nil]
    rw [untilQuote?, hdrop, htake]

lemma literal?_eq_some_iff {s text rest : List Char} :
    literal? s = some (text, rest) ↔ ∃ l : Literal, l.text = text ∧ s = l.chars ++ rest := by
  constructor
  · intro h
    fun_cases literal? s with
    | case1 s =>
      obtain ⟨hq, rfl⟩ := untilQuote?_eq_some_iff.1 h
      exact ⟨⟨.double, text, hq⟩, rfl, by simp [Literal.chars, Quote.char]⟩
    | case2 s =>
      obtain ⟨hq, rfl⟩ := untilQuote?_eq_some_iff.1 h
      exact ⟨⟨.single, text, hq⟩, rfl, by simp [Literal.chars, Quote.char]⟩
    | case3 => simp_all [literal?]
  · rintro ⟨⟨quote, text, hq⟩, rfl, rfl⟩
    simp only [Literal.chars, List.cons_append, List.append_assoc, List.nil_append]
    cases quote with
    | double => exact untilQuote?_eq_some_iff.2 ⟨hq, rfl⟩
    | single => exact untilQuote?_eq_some_iff.2 ⟨hq, rfl⟩

lemma finish?_append (f : Finish) (s : List Char) : finish? (f.chars ++ s) = some s := by
  cases f with
  | arguments => rfl
  | filter => rfl
  | outputEnd trims => cases trims <;> rfl
  | tagEnd trims => cases trims <;> rfl

lemma Finish.exists_chars (f : Finish) : ∃ c s, f.chars = c :: s ∧ isBlank c = false := by
  cases f with
  | arguments => exact ⟨_, _, rfl, by decide⟩
  | filter => exact ⟨_, _, rfl, by decide⟩
  | outputEnd trims => cases trims <;> exact ⟨_, _, rfl, by decide⟩
  | tagEnd trims => cases trims <;> exact ⟨_, _, rfl, by decide⟩

lemma exists_of_finish? {s rest : List Char} (h : finish? s = some rest) :
    ∃ f : Finish, s = f.chars ++ rest := by
  rw [finish?.eq_def] at h
  split at h
  · exact ⟨.arguments, by simpa [Finish.chars] using h⟩
  · exact ⟨.filter, by simpa [Finish.chars] using h⟩
  · obtain ⟨trims, hs⟩ := exists_skipHyphen s
    split at h
    · next s' hs' =>
      obtain rfl : s' = rest := Option.some.inj h
      exact ⟨.outputEnd trims, by simp [Finish.chars, ← hs', ← hs]⟩
    · next s' hs' =>
      obtain rfl : s' = rest := Option.some.inj h
      exact ⟨.tagEnd trims, by simp [Finish.chars, ← hs', ← hs]⟩
    · cases h

lemma filter?_append (f : Form) (s : List Char) : filter? (f.filterChars ++ s) = some s := by
  obtain ⟨c, u, hfinish, hblank⟩ := f.finish.exists_chars
  have hbar := skipBlanks_append f.beforeBar (c := '|') (by decide)
    (f.afterBar.chars ++ 't' :: (f.afterName.chars ++ (f.finish.chars ++ s)))
  have hname := skipBlanks_append f.afterBar (c := 't') (by decide)
    (f.afterName.chars ++ (f.finish.chars ++ s))
  have hend : skipBlanks (f.afterName.chars ++ (f.finish.chars ++ s)) = f.finish.chars ++ s := by
    rw [hfinish, List.cons_append, skipBlanks_append f.afterName hblank]
  simp only [filter?, Form.filterChars, List.cons_append, List.append_assoc, Option.bind_eq_bind,
    Option.bind_eq_some_iff, List.isPrefixOf?_eq_some_iff_append_eq]
  refine ⟨f.afterBar.chars ++ 't' :: (f.afterName.chars ++ (f.finish.chars ++ s)), hbar.symm,
    f.afterName.chars ++ (f.finish.chars ++ s), hname.symm, ?_⟩
  rw [hend, finish?_append]

lemma read?_append (f : Form) (s : List Char) : read? (f.chars ++ s) = some (f.text, s) := by
  have hopening : opening? (f.opening.chars ++ (f.literal.chars ++ (f.filterChars ++ s))) =
      some (f.literal.chars ++ (f.filterChars ++ s)) := by
    cases hquote : f.literal.quote <;>
    · simp only [Literal.chars, hquote, Quote.char, List.cons_append]
      exact opening?_append f.opening (by decide) (by decide) _
  have hliteral : literal? (f.literal.chars ++ (f.filterChars ++ s)) =
      some (f.text, f.filterChars ++ s) := literal?_eq_some_iff.2 ⟨f.literal, rfl, rfl⟩
  simp only [read?, Form.chars, List.append_assoc, Option.bind_eq_bind, Option.bind_eq_some_iff]
  exact ⟨_, hopening, _, hliteral, _, filter?_append f s, rfl⟩

lemma read?_eq_some_iff {s text rest : List Char} :
    read? s = some (text, rest) ↔ ∃ f : Form, f.text = text ∧ s = f.chars ++ rest := by
  constructor
  · intro h
    simp only [read?, filter?, Option.bind_eq_bind, Option.bind_eq_some_iff, Prod.exists,
      List.isPrefixOf?_eq_some_iff_append_eq, pure, Option.some.injEq, Prod.mk.injEq] at h
    obtain ⟨s₁, hopening, text, s₂, hliteral, s₃, ⟨s₄, hbar, s₅, hname, hfinish⟩, rfl, rfl⟩ := h
    obtain ⟨opening, rfl⟩ := exists_of_opening? hopening
    obtain ⟨literal, rfl, rfl⟩ := literal?_eq_some_iff.1 hliteral
    obtain ⟨beforeBar, hbeforeBar⟩ := exists_skipBlanks s₂
    obtain ⟨afterBar, hafterBar⟩ := exists_skipBlanks s₄
    obtain ⟨afterName, hafterName⟩ := exists_skipBlanks s₅
    obtain ⟨finish, hfinish⟩ := exists_of_finish? hfinish
    rw [← hbar] at hbeforeBar
    rw [← hname] at hafterBar
    rw [hfinish] at hafterName
    refine ⟨⟨opening, literal, beforeBar, afterBar, afterName, finish⟩, rfl, ?_⟩
    simp only [Form.chars, Form.filterChars, List.append_assoc, List.cons_append]
    rw [← hafterName, hbeforeBar, hafterBar]
    rfl
  · rintro ⟨f, rfl, rfl⟩
    exact read?_append f rest

lemma Form.chars_ne_nil (f : Form) : f.chars ≠ [] := by
  rw [Form.chars]
  cases f.opening <;> simp [Opening.chars]

/-- **The reader accepts the written forms of markers.** -/
lemma accepts : Reader.Accepts read? IsMarker where
  ne_nil := by
    rintro _ _ ⟨f, -, rfl⟩
    exact f.chars_ne_nil
  eq_some_iff := by
    intro s text rest
    rw [read?_eq_some_iff]
    constructor
    · rintro ⟨f, htext, rfl⟩
      exact ⟨f.chars, ⟨f, htext, rfl⟩, rfl⟩
    · rintro ⟨_, ⟨f, htext, rfl⟩, rfl⟩
      exact ⟨f, htext, rfl⟩

lemma idle_of_not_mem {u : List Char} (hu : '{' ∉ u) : Idle read? u :=
  .of_not_mem (fun _ _ hc => by simp [read?, opening?, assignment?, tagStart?, hc]) hu

end Marker

end LiquidCatalog.Liquid

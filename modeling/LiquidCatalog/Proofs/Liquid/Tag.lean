import Mathlib.Data.List.TakeWhile
import LiquidCatalog.Proofs.Liquid.Grammar

/-!
Tags are read exactly as they are written.

No character belongs to two of the classes that follow each other in a tag, so where one part of it
ends is settled by the next character.
-/

namespace LiquidCatalog.Liquid

open Text

/-! ### Character classes -/

lemma isWord_of_isBlank {c : Char} (hc : isBlank c = true) : isWord c = false := by
  have hranges : ∀ r ∈ blankRanges, ∀ i < r.2 - r.1 + 1,
      wordRanges.contains (r.1 + i) = false := by decide +kernel
  obtain ⟨r, hr, hfirst, hlast⟩ := (CharRanges.contains_iff blankRanges_ascending _).1 hc
  have hword := hranges r hr (c.toNat - r.1) (by omega)
  rwa [Nat.add_sub_cancel' hfirst] at hword

lemma isNameChar_of_isBlank {c : Char} (hc : isBlank c = true) : isNameChar c = false := by
  have hdot : c ≠ '.' := by rintro rfl; exact absurd hc (by decide)
  have hhyphen : c ≠ '-' := by rintro rfl; exact absurd hc (by decide)
  simp [isNameChar, isWord_of_isBlank hc, hdot, hhyphen]

lemma isBlank_of_isNameChar {c : Char} (hc : isNameChar c = true) : isBlank c = false := by
  by_contra hblank
  rw [isNameChar_of_isBlank (by simpa using hblank)] at hc
  cases hc

/-! ### Blanks and hyphens -/

lemma dropWhile_append {p : Char → Bool} {u s : List Char} (hu : ∀ c ∈ u, p c = true)
    (hs : ∀ c ∈ s.head?, p c = false) : (u ++ s).dropWhile p = s := by
  rw [List.dropWhile_append_of_pos hu]
  cases s with
  | nil => rfl
  | cons c s => rw [List.dropWhile_cons_of_neg (by simp [hs c rfl])]

lemma skipBlanks_append (g : Blanks) {c : Char} (hc : isBlank c = false) (s : List Char) :
    skipBlanks (g.chars ++ c :: s) = c :: s :=
  dropWhile_append g.isBlank_of_mem (by simpa using hc)

lemma exists_skipBlanks (s : List Char) : ∃ g : Blanks, s = g.chars ++ skipBlanks s :=
  ⟨⟨s.takeWhile isBlank, fun _ => List.mem_takeWhile_imp⟩, List.takeWhile_append_dropWhile.symm⟩

lemma skipHyphen_cons {c : Char} (hc : c ≠ '-') (s : List Char) : skipHyphen (c :: s) = c :: s := by
  rw [skipHyphen]
  rintro _ ⟨⟩
  exact hc rfl

lemma skipHyphen_append (trims : Bool) {c : Char} (hc : c ≠ '-') (s : List Char) :
    skipHyphen (hyphen trims ++ c :: s) = c :: s := by
  cases trims with
  | false => exact skipHyphen_cons hc s
  | true => rfl

lemma exists_skipHyphen (s : List Char) : ∃ trims, s = hyphen trims ++ skipHyphen s := by
  fun_cases skipHyphen s with
  | case1 s => exact ⟨true, rfl⟩
  | case2 => exact ⟨false, rfl⟩

/-- A hyphen and blanks are skipped up to a character that is neither. -/
lemma skipBlanks_skipHyphen (trims : Bool) (g : Blanks) {c : Char} (hblank : isBlank c = false)
    (hc : c ≠ '-') (s : List Char) :
    skipBlanks (skipHyphen (hyphen trims ++ (g.chars ++ c :: s))) = c :: s := by
  have hskip : skipHyphen (hyphen trims ++ (g.chars ++ c :: s)) = g.chars ++ c :: s := by
    obtain ⟨_ | ⟨d, u⟩, hg⟩ := g
    · exact skipHyphen_append trims hc s
    · refine skipHyphen_append trims ?_ _
      rintro rfl
      exact absurd (hg '-' (by simp)) (by decide)
  rw [hskip, skipBlanks_append g hblank]

/-! ### Tags -/

lemma tagStart?_append (trims : Bool) (g : Blanks) {c : Char} (hblank : isBlank c = false)
    (hc : c ≠ '-') (s : List Char) :
    tagStart? ('{' :: '%' :: (hyphen trims ++ (g.chars ++ c :: s))) = some (c :: s) := by
  rw [tagStart?, skipBlanks_skipHyphen trims g hblank hc]

lemma exists_of_tagStart? {s rest : List Char} (h : tagStart? s = some rest) :
    ∃ trims, ∃ g : Blanks, s = '{' :: '%' :: (hyphen trims ++ (g.chars ++ rest)) := by
  fun_cases tagStart? s with
  | case1 s =>
    obtain ⟨trims, hs⟩ := exists_skipHyphen s
    obtain ⟨g, hg⟩ := exists_skipBlanks (skipHyphen s)
    rw [tagStart?, Option.some.injEq] at h
    rw [h] at hg
    exact ⟨trims, g, by rw [← hg, ← hs]⟩
  | case2 => simp_all [tagStart?]

lemma tagEnd?_append (g : Blanks) (trims : Bool) (s : List Char) :
    tagEnd? (g.chars ++ (hyphen trims ++ '%' :: '}' :: s)) = some s := by
  have hskip : skipBlanks (g.chars ++ (hyphen trims ++ '%' :: '}' :: s)) =
      hyphen trims ++ '%' :: '}' :: s := by
    cases trims with
    | false => exact skipBlanks_append g (by decide) _
    | true => exact skipBlanks_append g (by decide) _
  rw [tagEnd?, hskip, skipHyphen_append trims (by decide)]
  rfl

lemma exists_of_tagEnd? {s rest : List Char} (h : tagEnd? s = some rest) :
    ∃ g : Blanks, ∃ trims, s = g.chars ++ (hyphen trims ++ '%' :: '}' :: rest) := by
  obtain ⟨g, hg⟩ := exists_skipBlanks s
  obtain ⟨trims, hs⟩ := exists_skipHyphen (skipBlanks s)
  rw [tagEnd?] at h
  split at h
  · next s' hs' =>
    obtain rfl : s' = rest := Option.some.inj h
    rw [hs'] at hs
    exact ⟨g, trims, by rw [← hs, ← hg]⟩
  · cases h

/-- A character that neither the word nor the signs of a tag have stands at most in front. -/
lemma Tag.not_mem_tail {word : String} {c : Char} (hblank : isBlank c = false)
    (hsigns : c ∉ ['-', '%', '}']) (hword : c ∉ word.toList) (t : Tag word) :
    c ∉ t.chars.tail := by
  have hblanks (g : Blanks) : c ∉ g.chars := fun hg => by
    rw [g.isBlank_of_mem c hg] at hblank
    cases hblank
  have hhyphen (trims : Bool) : c ∉ hyphen trims := by
    cases trims
    · exact List.not_mem_nil
    · exact fun hc => hsigns (List.mem_cons.2 (.inl (List.mem_singleton.1 hc)))
  simp only [List.mem_cons, not_or] at hsigns
  simp [Tag.chars, Tag.inner, hblanks, hhyphen, hword, hsigns]

/-- The first character of a word that may stand alone in a tag; no hyphen or blank can be taken
for it. -/
def BeginsWith (word : String) (c : Char) : Prop :=
  word.toList.head? = some c ∧ isBlank c = false ∧ c ≠ '-'

lemma Tag.tagStart?_chars {word : String} {c : Char} (hword : BeginsWith word c) (t : Tag word)
    (s : List Char) :
    tagStart? (t.chars ++ s) = some (word.toList ++ (t.after.chars ++
      (hyphen t.trimsAfter ++ '%' :: '}' :: s))) := by
  obtain ⟨hhead, hblank, hhyphen⟩ := hword
  obtain ⟨w, hw⟩ := List.head?_eq_some_iff.1 hhead
  have hstart := tagStart?_append t.trimsBefore t.before hblank hhyphen
    (w ++ (t.after.chars ++ (hyphen t.trimsAfter ++ '%' :: '}' :: s)))
  simpa [Tag.chars, Tag.inner, hw] using hstart

lemma wordTag?_eq_some_iff {word : String} {c : Char} (hword : BeginsWith word c)
    {s rest : List Char} :
    wordTag? word s = some rest ↔ ∃ t : Tag word, s = t.chars ++ rest := by
  constructor
  · intro h
    simp only [wordTag?, Option.bind_eq_bind, Option.bind_eq_some_iff,
      List.isPrefixOf?_eq_some_iff_append_eq] at h
    obtain ⟨s₁, hstart, s₂, rfl, hend⟩ := h
    obtain ⟨trims, g, rfl⟩ := exists_of_tagStart? hstart
    obtain ⟨g', trims', rfl⟩ := exists_of_tagEnd? hend
    exact ⟨⟨trims, g, g', trims'⟩, by simp [Tag.chars, Tag.inner]⟩
  · rintro ⟨t, rfl⟩
    simp only [wordTag?, Option.bind_eq_bind, Option.bind_eq_some_iff,
      List.isPrefixOf?_eq_some_iff_append_eq]
    exact ⟨_, t.tagStart?_chars hword rest, _, rfl, tagEnd?_append t.after t.trimsAfter rest⟩

/-- A tag does not reach out of a text over a character that stands at most in front of it. -/
lemma wordTag?_append_cons {word : String} {c : Char} (hword : BeginsWith word c) {d : Char}
    (hd : ∀ t : Tag word, d ∉ t.chars.tail) {u : List Char} (hne : u ≠ [])
    (hu : ∀ t : Tag word, ¬ t.chars <:+: u) (s : List Char) :
    wordTag? word (u ++ d :: s) = none := by
  by_contra hsome
  obtain ⟨rest, hrest⟩ := Option.ne_none_iff_exists'.1 hsome
  obtain ⟨t, ht⟩ := (wordTag?_eq_some_iff hword).1 hrest
  obtain ⟨e, u, rfl⟩ := List.exists_cons_of_ne_nil hne
  rcases List.append_eq_append_iff.1 ht with ⟨w, hw, hw'⟩ | ⟨w, hw, -⟩
  · cases w with
    | nil => exact hu t ⟨[], [], by simpa using hw⟩
    | cons e' w =>
      obtain rfl : d = e' := (List.cons.inj hw').1
      refine hd t ?_
      rw [hw]
      simp
  · exact hu t ⟨[], w, by rw [hw]; rfl⟩

end LiquidCatalog.Liquid

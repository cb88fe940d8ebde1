import LiquidCatalog.Proofs.Liquid.Tag
import LiquidCatalog.Proofs.Text.Occurrences

/-!
Blocks are read exactly as they are written.

The main statement is `Block.accepts`: what the reader takes off a text is a tag, a body without a
closing tag of that kind, and the closing tag.
-/

namespace LiquidCatalog.Liquid

open Text

namespace Block

lemma beginsWith_word (b : Block) : ∃ c, BeginsWith b.word c := by
  cases b with
  | comment => exact ⟨'c', rfl, by decide, by decide⟩
  | raw => exact ⟨'r', rfl, by decide, by decide⟩

lemma beginsWith_endWord (b : Block) : BeginsWith b.endWord 'e' := by
  cases b with
  | comment => exact ⟨rfl, by decide, by decide⟩
  | raw => exact ⟨rfl, by decide, by decide⟩

lemma opening?_eq (b : Block) : b.opening? = wordTag? b.word := by
  cases b <;> rfl

lemma closing?_eq (b : Block) : b.closing? = wordTag? b.endWord := by
  cases b <;> rfl

lemma opening?_eq_some_iff {b : Block} {s rest : List Char} :
    b.opening? s = some rest ↔ ∃ t : Tag b.word, s = t.chars ++ rest := by
  obtain ⟨c, hc⟩ := b.beginsWith_word
  rw [opening?_eq, wordTag?_eq_some_iff hc]

lemma closing?_eq_some_iff {b : Block} {s rest : List Char} :
    b.closing? s = some rest ↔ ∃ t : Tag b.endWord, s = t.chars ++ rest := by
  rw [closing?_eq, wordTag?_eq_some_iff b.beginsWith_endWord]

lemma brace_not_mem_word (b : Block) : '{' ∉ b.word.toList := by
  cases b <;> decide

lemma brace_not_mem_endWord (b : Block) : '{' ∉ b.endWord.toList := by
  cases b <;> decide

/-- No closing tag begins in a text that has none, up to the next tag. -/
lemma closing?_eq_none {b : Block} {u : List Char} (hne : u ≠ [])
    (hu : ∀ t : Tag b.endWord, ¬ t.chars <:+: u) (t : Tag b.endWord) (s : List Char) :
    b.closing? (u ++ (t.chars ++ s)) = none := by
  rw [closing?_eq]
  refine wordTag?_append_cons b.beginsWith_endWord (fun t' => ?_) hne hu _
  exact t'.not_mem_tail (by decide) (by decide) b.brace_not_mem_endWord

lemma afterClosing?_append {b : Block} {body : List Char}
    (hbody : ∀ t : Tag b.endWord, ¬ t.chars <:+: body) (t : Tag b.endWord) (s : List Char) :
    b.afterClosing? (body ++ (t.chars ++ s)) = some s := by
  induction body with
  | nil =>
    have hclosing : b.closing? (t.chars ++ s) = some s := closing?_eq_some_iff.2 ⟨t, rfl⟩
    rw [Tag.chars, List.cons_append] at hclosing
    rw [List.nil_append, Tag.chars, List.cons_append, afterClosing?, hclosing]
  | cons c body ih =>
    have hnone := closing?_eq_none (List.cons_ne_nil c body) hbody t s
    rw [List.cons_append] at hnone ⊢
    rw [afterClosing?, hnone]
    exact ih fun t' ht' => hbody t' (ht'.trans (List.suffix_cons c body).isInfix)

lemma exists_of_afterClosing? {b : Block} {s rest : List Char}
    (h : b.afterClosing? s = some rest) :
    ∃ body, ∃ t : Tag b.endWord, (∀ t' : Tag b.endWord, ¬ t'.chars <:+: body) ∧
      s = body ++ (t.chars ++ rest) := by
  induction s with
  | nil => cases h
  | cons c s ih =>
    rw [afterClosing?] at h
    split at h
    · next rest' hclosing =>
      obtain rfl : rest' = rest := Option.some.inj h
      obtain ⟨t, ht⟩ := closing?_eq_some_iff.1 hclosing
      exact ⟨[], t, fun t' ht' => by simp [Tag.chars] at ht', ht⟩
    · next hclosing =>
      obtain ⟨body, t, hbody, rfl⟩ := ih h
      refine ⟨c :: body, t, fun t' ht' => ?_, rfl⟩
      rcases List.infix_cons_iff.1 ht' with ⟨w, hw⟩ | ht'
      · have hsome : b.closing? (t'.chars ++ (w ++ (t.chars ++ rest))) =
            some (w ++ (t.chars ++ rest)) := closing?_eq_some_iff.2 ⟨t', rfl⟩
        rw [← List.append_assoc, hw, List.cons_append, hclosing] at hsome
        cases hsome
      · exact hbody t' ht'

lemma body?_eq_some_iff {b : Block} {s rest : List Char} :
    b.body? s = some rest ↔ ∃ f : b.Form, s = f.chars ++ rest := by
  simp only [body?, Option.bind_eq_bind, Option.bind_eq_some_iff]
  constructor
  · rintro ⟨s', hopening, hclosing⟩
    obtain ⟨opening, rfl⟩ := opening?_eq_some_iff.1 hopening
    obtain ⟨body, closing, hbody, rfl⟩ := exists_of_afterClosing? hclosing
    exact ⟨⟨opening, body, closing, hbody⟩, by simp [Form.chars]⟩
  · rintro ⟨⟨opening, body, closing, hbody⟩, rfl⟩
    refine ⟨body ++ (closing.chars ++ rest), ?_, afterClosing?_append hbody closing rest⟩
    exact opening?_eq_some_iff.2 ⟨opening, by simp [Form.chars]⟩

/-- No word of one tag begins the word of the other. -/
lemma comment_body?_raw (f : Form raw) (s : List Char) : comment.body? (f.chars ++ s) = none := by
  have hopening : comment.opening? (f.chars ++ s) = none := by
    rw [Form.chars, List.append_assoc, opening?, wordTag?,
      f.opening.tagStart?_chars (c := 'r') ⟨rfl, by decide, by decide⟩]
    rfl
  rw [body?, hopening]
  rfl

lemma read?_eq_some_iff {b : Block} {s rest : List Char} :
    read? s = some (b, rest) ↔ ∃ f : b.Form, s = f.chars ++ rest := by
  rw [read?]
  cases hcomment : comment.body? s with
  | some rest' =>
    obtain ⟨f, rfl⟩ := body?_eq_some_iff.1 hcomment
    cases b with
    | comment =>
      rw [← body?_eq_some_iff, hcomment]
      simp
    | raw =>
      have hraw (f' : raw.Form) : f.chars ++ rest' ≠ f'.chars ++ rest := by
        intro heq
        rw [heq, comment_body?_raw] at hcomment
        cases hcomment
      simp [hraw]
  | none =>
    cases b with
    | comment =>
      rw [← body?_eq_some_iff, hcomment]
      simp
    | raw => simp [← body?_eq_some_iff]

lemma Form.chars_ne_nil {b : Block} (f : b.Form) : f.chars ≠ [] :=
  List.cons_ne_nil _ _

/-- **The reader accepts the written forms of blocks.** -/
lemma accepts : Reader.Accepts read? IsBlock where
  ne_nil := by
    rintro _ _ ⟨f, rfl⟩
    exact f.chars_ne_nil
  eq_some_iff := by
    intro s b rest
    rw [read?_eq_some_iff]
    constructor
    · rintro ⟨f, rfl⟩
      exact ⟨f.chars, ⟨f, rfl⟩, rfl⟩
    · rintro ⟨_, ⟨f, rfl⟩, rfl⟩
      exact ⟨f, rfl⟩

lemma idle_of_wordTag? {u : List Char} (hu : ∀ b : Block, Idle (wordTag? b.word) u) :
    Idle read? u := by
  intro y hy hne v
  have hcomment := hu comment y hy hne v
  have hraw := hu raw y hy hne v
  rw [← opening?_eq] at hcomment hraw
  simp [read?, body?, hcomment, hraw]

lemma idle_of_not_mem {u : List Char} (hu : '{' ∉ u) : Idle read? u :=
  .of_not_mem (fun _ _ hc => by simp [read?, body?, opening?, wordTag?, tagStart?, hc]) hu

end Block

end LiquidCatalog.Liquid

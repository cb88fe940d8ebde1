import Mathlib.Order.Nat
import LiquidCatalog.Proofs.Liquid.Block

/-!
How blocks pair the tags of a template.

A block runs from an opening tag to the earliest closing tag of its kind behind it. Blocks follow
each other, and an opening tag that is in none of them has no closing tag of its kind behind it.
These rules leave no choice: only one list of stretches keeps them, the blocks that are found. So
tags of the other kind in a block neither end it nor begin one, and behind an opening tag that is
never closed the blocks are those of the text that follows it.
-/

namespace LiquidCatalog.Liquid

open Text

def Tag.StandsAt {word : String} (t : Tag word) (s : List Char) (i : Nat) : Prop :=
  t.chars <+: s.drop i

/-- The stretch runs from an opening tag to the end of the earliest closing tag of its kind that
begins where the opening tag ends or later. -/
def Block.Pairs (s : List Char) (b : Occurrence Block) : Prop :=
  ∃ opening : Tag b.value.word, ∃ closing : Tag b.value.endWord, ∃ n,
    opening.StandsAt s b.start ∧ closing.StandsAt s n ∧
      b.start + b.length = n + closing.chars.length ∧
      IsLeast {i | b.start + opening.chars.length ≤ i ∧
        ∃ t : Tag b.value.endWord, t.StandsAt s i} n

/-- **The rules of pairing.** -/
structure PairsTags (s : List Char) (bs : List (Occurrence Block)) : Prop where
  ordered : bs.Pairwise fun b b' => b.start + b.length ≤ b'.start
  paired : ∀ b ∈ bs, Block.Pairs s b
  unclosed : ∀ (k : Block) (t : Tag k.word) (i : Nat), t.StandsAt s i →
    (∀ b ∈ bs, ¬ b.Covers i) →
      ∀ (t' : Tag k.endWord) (j : Nat), i + t.chars.length ≤ j → ¬ t'.StandsAt s j

/-! ### Where tags stand -/

namespace Tag

variable {word : String} {t : Tag word} {s : List Char} {i : Nat}

lemma standsAt_append (a : List Char) :
    t.StandsAt (a ++ s) (a.length + i) ↔ t.StandsAt s i := by
  rw [StandsAt, StandsAt, List.drop_length_add_append]

lemma StandsAt.exists_eq (h : t.StandsAt s i) :
    ∃ a v, s = a ++ (t.chars ++ v) ∧ a.length = i := by
  obtain ⟨v, hv⟩ := h
  have hlt : i < s.length := by
    by_contra hle
    rw [List.drop_of_length_le (Nat.le_of_not_lt hle)] at hv
    exact absurd hv (List.cons_ne_nil _ _)
  exact ⟨s.take i, v, by rw [hv, List.take_append_drop],
    List.length_take_of_le (Nat.le_of_lt hlt)⟩

lemma standsAt_iff : t.StandsAt s i ↔ ∃ a v, s = a ++ (t.chars ++ v) ∧ a.length = i := by
  refine ⟨StandsAt.exists_eq, ?_⟩
  rintro ⟨a, v, rfl, rfl⟩
  exact (standsAt_append (i := 0) a).2 (List.prefix_append _ _)

lemma not_infix_of_forall_le {body v : List Char}
    (h : ∀ i, ∀ t : Tag word, t.StandsAt (body ++ v) i → body.length ≤ i) (t : Tag word) :
    ¬ t.chars <:+: body := by
  rintro ⟨x, y, rfl⟩
  have hle := h x.length t (standsAt_iff.2 ⟨x, y ++ v, by simp, rfl⟩)
  have hpos : 0 < t.chars.length := Nat.succ_pos _
  simp only [List.length_append] at hle
  omega

end Tag

namespace Block

/-! ### Blocks and pairs -/

/-- In the body of a block no closing tag stands, not even one that reaches out of it. -/
lemma Form.length_body_le {b : Block} (f : b.Form) {v : List Char} {t : Tag b.endWord} {i : Nat}
    (ht : t.StandsAt (f.body ++ (f.closing.chars ++ v)) i) : f.body.length ≤ i := by
  by_contra hlt
  have hi : i < f.body.length := Nat.lt_of_not_le hlt
  obtain ⟨rest, hrest⟩ := ht
  rw [List.drop_append_of_le_length (Nat.le_of_lt hi)] at hrest
  have hbody (t : Tag b.endWord) : ¬ t.chars <:+: f.body.drop i := fun ht =>
    f.not_infix_body t (ht.trans (List.drop_suffix i f.body).isInfix)
  have hnone := closing?_eq_none (mt List.drop_eq_nil_iff.1 (Nat.not_le.2 hi)) hbody f.closing v
  rw [← hrest, closing?_eq_some_iff.2 ⟨t, rfl⟩] at hnone
  cases hnone

lemma Form.isLeast_closing {b : Block} (f : b.Form) (a v : List Char) :
    IsLeast {i | a.length + f.opening.chars.length ≤ i ∧
        ∃ t : Tag b.endWord, t.StandsAt (a ++ (f.chars ++ v)) i}
      (a.length + f.opening.chars.length + f.body.length) := by
  have htext : a ++ (f.chars ++ v) =
      (a ++ f.opening.chars) ++ (f.body ++ (f.closing.chars ++ v)) := by
    simp [Form.chars]
  rw [htext, ← List.length_append]
  constructor
  · have hclosing : f.closing.StandsAt (f.body ++ (f.closing.chars ++ v)) f.body.length :=
      Tag.standsAt_iff.2 ⟨f.body, v, rfl, rfl⟩
    exact ⟨Nat.le_add_right _ _, f.closing, (Tag.standsAt_append _).2 hclosing⟩
  · rintro i ⟨hle, t, ht⟩
    obtain ⟨j, rfl⟩ := Nat.exists_eq_add_of_le hle
    exact Nat.add_le_add_left (f.length_body_le ((Tag.standsAt_append _).1 ht)) _

lemma standsIn_of_pairs {s : List Char} {b : Occurrence Block} (h : Pairs s b) :
    b.StandsIn IsBlock s := by
  obtain ⟨opening, closing, n, hopening, hclosing, hend, ⟨hle, -⟩, hleast⟩ := h
  obtain ⟨a, v, rfl, ha⟩ := hopening.exists_eq
  obtain ⟨j, rfl⟩ := Nat.exists_eq_add_of_le hle
  have hstart : b.start + opening.chars.length = (a ++ opening.chars).length := by
    rw [List.length_append, ha]
  rw [hstart] at hend
  rw [hstart, ← List.append_assoc] at hclosing hleast
  obtain ⟨body, rest, rfl, rfl⟩ := ((Tag.standsAt_append _).1 hclosing).exists_eq
  have hbody (t : Tag b.value.endWord) : ¬ t.chars <:+: body := by
    refine Tag.not_infix_of_forall_le (v := closing.chars ++ rest) (fun i t' ht' => ?_) t
    have hbehind := hleast ⟨Nat.le_add_right _ i, t', (Tag.standsAt_append _).2 ht'⟩
    exact Nat.le_of_add_le_add_left hbehind
  let f : b.value.Form := ⟨opening, body, closing, hbody⟩
  refine .of_eq (u := f.chars) (v := rest) ⟨f, rfl⟩ ?_ ha ?_
  · simp [f, Form.chars]
  · simp only [f, Form.chars, List.length_append] at hend ⊢
    omega

lemma pairs_of_standsIn {s : List Char} {b : Occurrence Block} (h : b.StandsIn IsBlock s) :
    Pairs s b := by
  obtain ⟨a, _, v, ⟨f, rfl⟩, rfl, ha, hlength⟩ := h.exists_eq accepts
  have hleast := f.isLeast_closing a v
  rw [ha] at hleast
  refine ⟨f.opening, f.closing, _, ?_, ?_, ?_, hleast⟩
  · exact Tag.standsAt_iff.2 ⟨a, f.body ++ (f.closing.chars ++ v), by simp [Form.chars], ha⟩
  · exact Tag.standsAt_iff.2 ⟨a ++ (f.opening.chars ++ f.body), v, by simp [Form.chars],
      by simp [ha, Nat.add_assoc]⟩
  · rw [← hlength]
    simp [Form.chars, Nat.add_assoc]

lemma standsIn_iff_pairs {s : List Char} {b : Occurrence Block} :
    b.StandsIn IsBlock s ↔ Pairs s b :=
  ⟨pairs_of_standsIn, standsIn_of_pairs⟩

/-- An opening tag begins a pair if a closing tag of its kind stands anywhere behind it. -/
lemma exists_pairs {s : List Char} {k : Block} {t : Tag k.word} {t' : Tag k.endWord} {i j : Nat}
    (ht : t.StandsAt s i) (ht' : t'.StandsAt s j) (hle : i + t.chars.length ≤ j) :
    ∃ b, Pairs s b ∧ b.start = i := by
  classical
  have hexists : ∃ n, i + t.chars.length ≤ n ∧ ∃ t : Tag k.endWord, t.StandsAt s n :=
    ⟨j, hle, t', ht'⟩
  have hleast := Nat.isLeast_find hexists
  obtain ⟨hbehind, closing, hclosing⟩ := Nat.find_spec hexists
  have hend : i + (Nat.find hexists + closing.chars.length - i) =
      Nat.find hexists + closing.chars.length := by omega
  exact ⟨⟨i, Nat.find hexists + closing.chars.length - i, k⟩,
    ⟨t, closing, _, ht, hclosing, hend, hleast⟩, rfl⟩

end Block

variable {s : List Char}

/-- To leave out no pair is to leave out only opening tags that are never closed. -/
lemma forall_pairs_covers_iff {bs : List (Occurrence Block)} :
    (∀ b, Block.Pairs s b → ∃ b' ∈ bs, b'.Covers b.start) ↔
      ∀ (k : Block) (t : Tag k.word) (i : Nat), t.StandsAt s i → (∀ b ∈ bs, ¬ b.Covers i) →
        ∀ (t' : Tag k.endWord) (j : Nat), i + t.chars.length ≤ j → ¬ t'.StandsAt s j := by
  constructor
  · intro hcovers k t i ht hnone t' j hle ht'
    obtain ⟨b, hb, rfl⟩ := Block.exists_pairs ht ht' hle
    obtain ⟨b', hb', hcover⟩ := hcovers b hb
    exact hnone b' hb' hcover
  · rintro hunclosed b ⟨opening, closing, n, hopening, hclosing, -, ⟨hle, -⟩, -⟩
    by_contra hnone
    refine hunclosed _ opening _ hopening (fun b' hb' hcover => ?_) closing n hle hclosing
    exact hnone ⟨b', hb', hcover⟩

/-! ### Tags that are never closed -/

/-- The blocks at and behind an opening tag that begins none are those of what follows it. -/
lemma occurrencesFrom_tag_append {k : Block} {t : Tag k.word} {v : List Char}
    (hnone : Block.read? (t.chars ++ v) = none) (pos : Nat) :
    occurrencesFrom Block.read? pos 0 (t.chars ++ v) =
      (blocks v).map (Occurrence.shift (pos + t.chars.length)) := by
  have htail : Idle Block.read? ('%' :: t.inner) :=
    Block.idle_of_not_mem (t.not_mem_tail (by decide) (by decide) k.brace_not_mem_word)
  rw [Tag.chars, List.cons_append] at hnone ⊢
  rw [occurrencesFrom, hnone]
  simp only
  rw [occurrencesFrom_idle_append htail, Nat.add_right_comm, Nat.add_assoc]
  exact occurrencesFrom_add Block.read? (pos + t.chars.length) 0 0 v

/-- **A tag outside all blocks** parts them: those behind it are those of the text behind it. -/
lemma blocks_of_not_covers {k : Block} {t : Tag k.word} {i : Nat} (ht : t.StandsAt s i)
    (hnone : ∀ b ∈ blocks s, ¬ b.Covers i) :
    blocks s = (blocks s).filter (·.start < i) ++
      (blocks (s.drop (i + t.chars.length))).map (Occurrence.shift (i + t.chars.length)) := by
  obtain ⟨a, v, rfl, rfl⟩ := ht.exists_eq
  have hread := read_eq_none_of_not_covers Block.accepts hnone
  have hdrop : (a ++ (t.chars ++ v)).drop (a.length + t.chars.length) = v := by
    rw [← List.append_assoc, ← List.length_append, List.drop_left]
  rw [hdrop, ← occurrencesFrom_tag_append hread]
  exact occurrences_append_of_not_covers hnone

/-- **Blocks are found as tags pair.** The blocks of a text, and no other stretches, follow each
other, run each from an opening tag to the end of the earliest closing tag of its kind behind it,
and leave out only opening tags that have no closing tag of their kind behind them. Behind an
opening tag that is left out, the blocks are those of the text that follows it. -/
theorem blocks_pair_tags (s : List Char) :
    (∀ bs, PairsTags s bs ↔ bs = blocks s) ∧
      ∀ (k : Block) (t : Tag k.word) (i : Nat), t.StandsAt s i →
        (∀ b ∈ blocks s, ¬ b.Covers i) →
          let n := i + t.chars.length
          blocks s = (blocks s).filter (·.start < i) ++
            (blocks (s.drop n)).map (Occurrence.shift n) := by
  refine ⟨fun bs => ?_, fun k t i ht hnone => blocks_of_not_covers ht hnone⟩
  rw [blocks, ← picked_iff Block.accepts,
    picked_iff_covers fun o ho => ho.length_pos Block.accepts]
  simp only [Block.standsIn_iff_pairs, Nat.zero_le, and_true, true_implies]
  constructor
  · rintro ⟨hordered, hpaired, hunclosed⟩
    exact ⟨hpaired, hordered, forall_pairs_covers_iff.2 hunclosed⟩
  · rintro ⟨hpaired, hordered, hcovers⟩
    exact ⟨hordered, hpaired, forall_pairs_covers_iff.1 hcovers⟩

/-- The first tag is never closed and hides nothing, and the same tag in the comment begins no
block. -/
theorem blocks_pair_tags_unclosed :
    let gap : Blanks := ⟨[], List.forall_mem_nil _⟩
    let raw : Tag Block.raw.word := ⟨false, gap, gap, false⟩
    let s := "\x7b%raw%\x7d\x7b%comment%\x7d\x7b%raw%\x7d\x7b%endcomment%\x7d.".toList
    raw.StandsAt s 0 ∧ (∀ b ∈ blocks s, ¬ b.Covers 0) ∧
      (blocks s).map (fun b => (b.start, b.length, b.value)) = [(7, 32, .comment)] ∧
      PairsTags s (blocks s) := by
  intro gap raw s
  have hstands : raw.StandsAt s 0 := ⟨s.drop 7, by decide⟩
  have hnone : ∀ b ∈ blocks s, ¬ b.Covers 0 := by decide
  obtain ⟨hiff, hbehind⟩ := blocks_pair_tags s
  refine ⟨hstands, hnone, ?_, (hiff _).2 rfl⟩
  rw [hbehind .raw raw 0 hstands hnone]
  decide

end LiquidCatalog.Liquid

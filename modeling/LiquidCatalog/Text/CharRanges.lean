/-!
Sets of characters as ranges of code points in ascending order.
-/

namespace LiquidCatalog.Text

/-- Ranges of code points, both ends included, in ascending order. -/
abbrev CharRanges := List (Nat × Nat)

/-- Whether a code point lies in one of the ranges; the search stops at the first range above. -/
def CharRanges.contains : CharRanges → Nat → Bool
  | [], _ => false
  | (first, last) :: rs, n => first ≤ n && (n ≤ last || contains rs n)

/-- Every range ends at or after its start, and before the next one begins. -/
def CharRanges.Ascending (rs : CharRanges) : Prop :=
  (∀ r ∈ rs, r.1 ≤ r.2) ∧ rs.Pairwise (fun r q => r.2 < q.1)

theorem CharRanges.contains_iff {rs : CharRanges} (h : rs.Ascending) (n : Nat) :
    rs.contains n = true ↔ ∃ r ∈ rs, r.1 ≤ n ∧ n ≤ r.2 := by
  induction rs with
  | nil => simp [contains]
  | cons r rs ih =>
    obtain ⟨first, last⟩ := r
    obtain ⟨hle, hlt⟩ := h
    rw [List.pairwise_cons] at hlt
    have ih := ih ⟨fun q hq => hle q (by simp [hq]), hlt.2⟩
    simp only [contains, Bool.and_eq_true, decide_eq_true_eq, Bool.or_eq_true, ih,
      List.mem_cons, exists_eq_or_imp]
    constructor
    · rintro ⟨h1, h2 | h2⟩
      · exact Or.inl ⟨h1, h2⟩
      · exact Or.inr h2
    · rintro (⟨h1, h2⟩ | ⟨q, hq, h1, h2⟩)
      · exact ⟨h1, Or.inl h2⟩
      · have := hlt.1 q hq
        have := hle (first, last) (by simp)
        simp only at *
        exact ⟨by omega, Or.inr ⟨q, hq, h1, h2⟩⟩

end LiquidCatalog.Text

/-!
Occurrences of a pattern in a text.

A pattern is given by a reader, which reads it off the front of a text and returns the text that
is left. The occurrences are taken from left to right: the first place where the reader succeeds,
then the first place after the end of that occurrence, and so on.
-/

namespace LiquidCatalog.Text

/-- Reads a value off the front of a text and returns it with the text that is left. -/
abbrev Reader (α : Type) := List Char → Option (α × List Char)

/-- A stretch of a text, in characters, and what was read there. -/
structure Occurrence (α : Type) where
  start : Nat
  length : Nat
  value : α

namespace Occurrence

variable {α : Type}

def Covers (o : Occurrence α) (n : Nat) : Prop := o.start ≤ n ∧ n < o.start + o.length

instance (o : Occurrence α) (n : Nat) : Decidable (o.Covers n) :=
  inferInstanceAs (Decidable (_ ∧ _))

def source (o : Occurrence α) (s : List Char) : List Char := (s.drop o.start).take o.length

end Occurrence

variable {α : Type}

/-- The occurrences in a text that begins at position `pos`, of which the first `skip` characters
belong to an earlier occurrence. -/
def occurrencesFrom (read : Reader α) : Nat → Nat → List Char → List (Occurrence α)
  | _, _, [] => []
  | pos, skip + 1, _ :: s => occurrencesFrom read (pos + 1) skip s
  | pos, 0, c :: s =>
    match read (c :: s) with
    | none => occurrencesFrom read (pos + 1) 0 s
    | some (a, rest) =>
      let length := s.length + 1 - rest.length
      ⟨pos, length, a⟩ :: occurrencesFrom read (pos + 1) (length - 1) s

def occurrences (read : Reader α) (s : List Char) : List (Occurrence α) :=
  occurrencesFrom read 0 0 s

/-- Characters to be skipped might as well be dropped. -/
theorem occurrencesFrom_skip (read : Reader α) (pos skip : Nat) (s : List Char) :
    occurrencesFrom read pos skip s = occurrencesFrom read (pos + skip) 0 (s.drop skip) := by
  induction skip generalizing pos s with
  | zero => rfl
  | succ skip ih =>
    cases s with
    | nil => simp [occurrencesFrom]
    | cons c s => rw [occurrencesFrom, ih, List.drop_succ_cons]; congr 1; omega

end LiquidCatalog.Text

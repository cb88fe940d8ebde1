import Mathlib.Data.String.Basic
import Mathlib.Tactic.SplitIfs
import LiquidCatalog.Text.Utf8

/-!
The order of texts and of their bytes.

UTF-8 keeps the order of characters: where two encodings first differ, the one of the smaller
character has the smaller byte, and none of them ends before. So texts that are in order have
their bytes in order.
-/

namespace LiquidCatalog.Text

/-- The lists differ at some place, and there the first one has the smaller byte. -/
inductive Before : List UInt8 → List UInt8 → Prop
  | head {a b : UInt8} {xs ys : List UInt8} (h : a < b) : Before (a :: xs) (b :: ys)
  | tail {a : UInt8} {xs ys : List UInt8} (h : Before xs ys) : Before (a :: xs) (a :: ys)

namespace Before

variable {xs ys : List UInt8}

lemma lt (h : Before xs ys) : xs < ys := by
  induction h with
  | head h => exact List.cons_lt_cons_iff.2 (.inl h)
  | tail _ ih => exact List.cons_lt_cons_iff.2 (.inr ⟨rfl, ih⟩)

lemma append (h : Before xs ys) (more more' : List UInt8) :
    Before (xs ++ more) (ys ++ more') := by
  induction h with
  | head h => exact .head h
  | tail _ ih => exact .tail ih

lemma prepend (start : List UInt8) (h : Before xs ys) : Before (start ++ xs) (start ++ ys) := by
  induction start with
  | nil => exact h
  | cons a start ih => exact .tail ih

end Before

/-! ### Characters -/

lemma byte_lt {m n : Nat} (h : m < n) (hn : n < 256) : UInt8.ofNat m < UInt8.ofNat n := by
  rw [UInt8.lt_iff_toNat_lt, UInt8.toNat_ofNat', UInt8.toNat_ofNat']
  omega

/-- The last byte of an encoding matters where the bytes before it are the same. -/
lemma before_digit (xs ys : List UInt8) {v w : Nat} (h : v < w)
    (hlt : v / 64 < w / 64 → Before xs ys) (heq : v / 64 = w / 64 → xs = ys) :
    Before (xs ++ [UInt8.ofNat (v % 64 + 128)]) (ys ++ [UInt8.ofNat (w % 64 + 128)]) := by
  rcases Nat.lt_or_eq_of_le (Nat.div_le_div_right (c := 64) (Nat.le_of_lt h)) with hdiv | hdiv
  · exact (hlt hdiv).append _ _
  · have hdigit : v % 64 < w % 64 := by omega
    rw [heq hdiv]
    exact .prepend ys (.head (byte_lt (by omega) (by omega)))

/-- The encoding of a smaller character comes before: it has a smaller first byte if it is shorter,
and otherwise it is smaller digit by digit. -/
lemma before_utf8EncodeChar {c d : Char} (h : c < d) :
    Before (String.utf8EncodeChar c) (String.utf8EncodeChar d) := by
  have hvalue : c.val.toNat < d.val.toNat := h
  have hlimit : d.val.toNat < 0x110000 := by
    have hvalid := d.valid
    simp only [UInt32.isValidChar, Nat.isValidChar] at hvalid
    omega
  simp only [String.utf8EncodeChar]
  generalize c.val.toNat = v at hvalue
  generalize d.val.toNat = w at hvalue hlimit
  have hdiv {n : Nat} : n / 4096 = n / 64 / 64 ∧ n / 262144 = n / 64 / 64 / 64 := by omega
  split_ifs
  · exact .head (byte_lt hvalue (by omega))
  · exact .head (byte_lt (by omega) (by omega))
  · exact .head (byte_lt (by omega) (by omega))
  · exact .head (byte_lt (by omega) (by omega))
  · omega
  · refine before_digit [_] [_] hvalue (fun hlead => ?_) fun hlead => by rw [hlead]
    exact .head (byte_lt (by omega) (by omega))
  · exact .head (byte_lt (by omega) (by omega))
  · exact .head (byte_lt (by omega) (by omega))
  · omega
  · omega
  · rw [hdiv.1, hdiv.1]
    refine before_digit [_, _] [_, _] hvalue (fun hlt => ?_) fun heq => by rw [heq]
    refine before_digit [_] [_] hlt (fun hlead => ?_) fun hlead => by rw [hlead]
    exact .head (byte_lt (by omega) (by omega))
  · exact .head (byte_lt (by omega) (by omega))
  · omega
  · omega
  · omega
  · rw [hdiv.1, hdiv.1, hdiv.2, hdiv.2]
    refine before_digit [_, _, _] [_, _, _] hvalue (fun hlt => ?_) fun heq => by rw [heq]
    refine before_digit [_, _] [_, _] hlt (fun hlt => ?_) fun heq => by rw [heq]
    refine before_digit [_] [_] hlt (fun hlead => ?_) fun hlead => by rw [hlead]
    exact .head (byte_lt (by omega) (by omega))

/-! ### Texts -/

lemma utf8_cons (c : Char) (s : List Char) :
    utf8 (c :: s) = String.utf8EncodeChar c ++ utf8 s := rfl

lemma utf8_lt_utf8_of_lex {s t : List Char} (h : List.Lex (· < ·) s t) : utf8 s < utf8 t := by
  induction h with
  | @nil d t =>
    obtain ⟨b, bs, hbytes⟩ := List.exists_cons_of_ne_nil (String.utf8EncodeChar_ne_nil (c := d))
    rw [utf8_cons, hbytes]
    exact List.nil_lt_cons _ _
  | rel h => exact ((before_utf8EncodeChar h).append _ _).lt
  | cons _ ih => exact List.append_left_lt ih

/-- **Texts in order** have their bytes in order. -/
lemma utf8_lt_utf8 {s t : String} (h : s < t) : utf8 s.toList < utf8 t.toList :=
  utf8_lt_utf8_of_lex (String.lt_iff_toList_lt.1 h)

end LiquidCatalog.Text

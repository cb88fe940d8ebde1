import Mathlib.Tactic.Lemma
import LiquidCatalog.Output.Buffer

/-!
What becomes of the bytes that are put into a buffer.

A sink that bytes are pushed to keeps as many of them as it has room for, and it makes no
difference in how many pieces they come. A buffer is intact as long as what it has passed on and
what it holds make up all that was put into it. Once something is lost the sink is full, and it
stands as if all had been pushed to it at once; so it does when an intact buffer is released.
-/

namespace LiquidCatalog.Output

namespace Sink

variable (s : Sink) (a b : List UInt8)

/-- As many of the bytes as the sink has room for. -/
def admitted (bytes : List UInt8) : List UInt8 :=
  match s.room with
  | none => bytes
  | some n => bytes.take n

/-- The sink has room for all of the bytes. -/
def Fits (bytes : List UInt8) : Prop := ∀ n ∈ s.room, bytes.length ≤ n

lemma received_push : (s.push a).2.received = s.received ++ s.admitted a := by
  unfold push admitted
  cases s.room <;> rfl

@[simp] lemma flushFault_push : (s.push a).2.flushFault = s.flushFault := by
  unfold push
  cases s.room <;> rfl

lemma flush_eq_ok_iff : s.flush = .ok () ↔ s.flushFault = none := by
  unfold flush
  split <;> simp_all

lemma admitted_append_left : s.admitted a ++ (s.push a).1 = a := by
  unfold push admitted
  cases s.room with
  | none => simp
  | some n => exact List.take_append_drop n a

lemma left_eq_nil_iff : (s.push a).1 = [] ↔ s.Fits a := by
  unfold push Fits
  cases s.room with
  | none => simp
  | some n => simp [List.drop_eq_nil_iff]

variable {s a b}

lemma fits_of_room_eq_none (h : s.room = none) (bytes : List UInt8) : s.Fits bytes := by
  simp [Fits, h]

lemma admitted_of_fits (h : s.Fits a) : s.admitted a = a := by
  have := s.admitted_append_left a
  rwa [(s.left_eq_nil_iff a).2 h, List.append_nil] at this

lemma fits_of_append (h : s.Fits (a ++ b)) : s.Fits a := by
  intro n hn
  have := h n hn
  rw [List.length_append] at this
  omega

variable (s a b)

/-- Pushing bytes in two pieces or in one comes to the same. -/
lemma push_append : (s.push (a ++ b)).2 = ((s.push a).2.push b).2 := by
  unfold push
  rcases hr : s.room with _ | n
  · simp [List.append_assoc]
  · simp only [List.take_append, List.append_assoc, List.length_append, Nat.sub_sub]

lemma fits_append_iff (h : s.Fits a) : s.Fits (a ++ b) ↔ (s.push a).2.Fits b := by
  unfold Fits push at *
  rcases hr : s.room with _ | n
  · simp
  · have := h n hr
    simp only [Option.mem_def, Option.some.injEq, forall_eq', List.length_append]
    omega

variable {s a}

/-- After bytes that fit, all of the next ones are taken exactly if both fit together. -/
lemma left_after_eq_nil_iff (h : s.Fits a) :
    ((s.push a).2.push b).1 = [] ↔ s.Fits (a ++ b) := by
  rw [left_eq_nil_iff, fits_append_iff s a b h]

/-- A sink that could not take all is full. -/
lemma push_of_not_fits (h : ¬ s.Fits a) : (s.push (a ++ b)).2 = (s.push a).2 := by
  obtain ⟨n, hn, hlt⟩ : ∃ n ∈ s.room, n < a.length := by simpa [Fits] using h
  have ht : (a ++ b).take n = a.take n := List.take_append_of_le_length (by omega)
  have hr : n - (a ++ b).length = n - a.length := by rw [List.length_append]; omega
  simp only [push, Option.mem_def.1 hn, ht, hr]

lemma not_fits_append (h : ¬ s.Fits a) : ¬ s.Fits (a ++ b) := fun hab => h (fits_of_append hab)

end Sink

namespace Buffer

variable {s : Sink} {out : List UInt8} {b : Buffer}

/-- Nothing of `out` is lost: a part of it was passed on to the sink `s`, and the rest is held. -/
def Intact (s : Sink) (out : List UInt8) (b : Buffer) : Prop :=
  ∃ passed, passed ++ b.held = out ∧ s.Fits passed ∧ b.sink = (s.push passed).2

/-- The sink `s` has become full, as it does when `out` is pushed to it at once. -/
def Cut (s : Sink) (out : List UInt8) (b : Buffer) : Prop :=
  ¬ s.Fits out ∧ b.sink = (s.push out).2

/-- How an operation ends after which all of `out` should have been put into the buffer. -/
def Settles (s : Sink) (out : List UInt8) (r : Except Fault Unit × Buffer) : Prop :=
  match r.1 with
  | .ok _ => r.2.Intact s out
  | .error _ => r.2.Cut s out

lemma intact_new (s : Sink) : Intact s [] { sink := s } := by
  refine ⟨[], rfl, ?_, ?_⟩
  · simp [Sink.Fits]
  · unfold Sink.push
    rcases s with ⟨received, room, refusal, flushFault⟩
    cases room <;> simp

/-! ### A sink that is full -/

lemma Cut.append (h : b.Cut s out) (more : List UInt8) : b.Cut s (out ++ more) :=
  ⟨Sink.not_fits_append more h.1, by rw [h.2, Sink.push_of_not_fits more h.1]⟩

lemma Cut.push (h : b.Cut s out) (bytes : List UInt8) : (b.sink.push bytes).2 = b.sink := by
  rw [h.2, ← Sink.push_append, Sink.push_of_not_fits bytes h.1]

lemma Cut.flush (h : b.Cut s out) : b.flush.2.Cut s out :=
  ⟨h.1, (h.push b.held).trans h.2⟩

lemma Cut.makeRoom (h : b.Cut s out) (n : Nat) : (b.makeRoom n).2.Cut s out := by
  unfold Buffer.makeRoom
  split
  · exact h.flush
  · exact h

lemma Cut.put (h : b.Cut s out) (piece : List UInt8) : (b.put piece).2.Cut s out := by
  have hroom := h.makeRoom piece.length
  unfold Buffer.put
  split
  · next heq => rwa [heq] at hroom
  · next heq =>
    rw [heq] at hroom
    split
    · exact ⟨h.1, (hroom.push piece).trans hroom.2⟩
    · exact hroom

lemma Cut.putAll (h : b.Cut s out) (pieces : List (List UInt8)) :
    (b.putAll pieces).2.Cut s out := by
  induction pieces generalizing b with
  | nil => exact h
  | cons piece pieces ih =>
    have hput := h.put piece
    unfold Buffer.putAll
    split
    · next heq => rwa [heq] at hput
    · next heq => rw [heq] at hput; exact ih hput

lemma Cut.release (h : b.Cut s out) : b.release = (s.push out).2 := h.flush.2

/-! ### What an intact buffer becomes -/

lemma Intact.flush (h : b.Intact s out) : Settles s out b.flush := by
  obtain ⟨passed, rfl, hfit, hs⟩ := h
  have hpush : (b.sink.push b.held).2 = (s.push (passed ++ b.held)).2 := by
    rw [Sink.push_append, hs]
  have hiff : (b.sink.push b.held).1 = [] ↔ s.Fits (passed ++ b.held) := by
    rw [hs, Sink.left_after_eq_nil_iff _ hfit]
  by_cases hleft : (b.sink.push b.held).1 = []
  · simp only [Settles, Buffer.flush, hleft, List.isEmpty_nil, if_true]
    exact ⟨passed ++ b.held, by simp, hiff.1 hleft, hpush⟩
  · simp only [Settles, Buffer.flush, List.isEmpty_iff, hleft, if_false]
    exact ⟨fun hf => hleft (hiff.2 hf), hpush⟩

lemma held_flush (b : Buffer) (h : b.flush.1 = .ok ()) : b.flush.2.held = [] := by
  by_cases hleft : (b.sink.push b.held).1 = []
  · exact hleft
  · simp [Buffer.flush, hleft] at h

/-- Everything held is handed over exactly if the sink has room for all that was put in. -/
lemma Intact.flush_eq_ok_iff (h : b.Intact s out) : b.flush.1 = .ok () ↔ s.Fits out := by
  have hset := h.flush
  unfold Settles at hset
  constructor
  · intro hok
    obtain ⟨passed, hout, hfit, -⟩ := hok ▸ hset
    rw [held_flush b hok, List.append_nil] at hout
    exact hout ▸ hfit
  · intro hfit
    split at hset
    · next heq => exact heq
    · exact absurd hfit hset.1

lemma Intact.makeRoom (h : b.Intact s out) (n : Nat) : Settles s out (b.makeRoom n) := by
  unfold Buffer.makeRoom
  split
  · exact h.flush
  · exact h

/-- When room was made for a piece as large as the buffer, the buffer is empty. -/
lemma held_makeRoom (b : Buffer) {n : Nat} (hn : capacity ≤ n) (h : (b.makeRoom n).1 = .ok ()) :
    (b.makeRoom n).2.held = [] := by
  unfold Buffer.makeRoom at h ⊢
  split at h
  · next hlt => rw [if_pos hlt]; exact held_flush b h
  · next hge =>
    rw [if_neg hge]
    unfold spare capacity at hge
    unfold capacity at hn
    exact List.length_eq_zero_iff.1 (by simp only; omega)

/-- An empty buffer lets a piece past it. -/
lemma Intact.bypass (h : b.Intact s out) (hheld : b.held = []) (piece : List UInt8) :
    Settles s (out ++ piece) (b.bypass piece) := by
  obtain ⟨passed, hout, hfit, hs⟩ := h
  rw [hheld, List.append_nil] at hout
  subst hout
  have hpush : (b.sink.push piece).2 = (s.push (passed ++ piece)).2 := by
    rw [Sink.push_append, hs]
  have hiff : (b.sink.push piece).1 = [] ↔ s.Fits (passed ++ piece) := by
    rw [hs, Sink.left_after_eq_nil_iff _ hfit]
  by_cases hleft : (b.sink.push piece).1 = []
  · simp only [Settles, Buffer.bypass, hleft, List.isEmpty_nil, if_true]
    exact ⟨passed ++ piece, by simp [hheld], hiff.1 hleft, hpush⟩
  · simp only [Settles, Buffer.bypass, List.isEmpty_iff, hleft, if_false]
    exact ⟨fun hf => hleft (hiff.2 hf), hpush⟩

lemma Intact.hold (h : b.Intact s out) (piece : List UInt8) :
    Intact s (out ++ piece) { b with held := b.held ++ piece } := by
  obtain ⟨passed, rfl, hfit, hs⟩ := h
  exact ⟨passed, by simp, hfit, hs⟩

/-- **One piece**: it is passed on or held as a whole, or it is cut off and the sink is full. -/
lemma Intact.put (h : b.Intact s out) (piece : List UInt8) :
    Settles s (out ++ piece) (b.put piece) := by
  have hroom := h.makeRoom piece.length
  unfold Buffer.put
  split
  · next heq => rw [heq] at hroom; exact hroom.append piece
  · next b' heq =>
    rw [heq] at hroom
    split
    · next hbig =>
      have hheld := held_makeRoom b hbig (by rw [heq])
      rw [heq] at hheld
      exact Intact.bypass hroom hheld piece
    · exact Intact.hold hroom piece

/-- **A row of pieces.** -/
lemma Intact.putAll (h : b.Intact s out) (pieces : List (List UInt8)) :
    Settles s (out ++ pieces.flatten) (b.putAll pieces) := by
  induction pieces generalizing b out with
  | nil => simpa [Buffer.putAll, Settles] using h
  | cons piece pieces ih =>
    have hput := h.put piece
    rw [List.flatten_cons, ← List.append_assoc]
    unfold Buffer.putAll
    split
    · next heq => rw [heq] at hput; exact hput.append pieces.flatten
    · next heq => rw [heq] at hput; exact ih hput

lemma Intact.release (h : b.Intact s out) : b.release = (s.push out).2 := by
  obtain ⟨passed, rfl, -, hs⟩ := h
  rw [Sink.push_append, ← hs]
  rfl

/-- However an operation ends, the sink ends up as if all had been pushed to it at once. -/
lemma Settles.release {r : Except Fault Unit × Buffer} (h : Settles s out r) :
    r.2.release = (s.push out).2 := by
  unfold Settles at h
  split at h
  · exact h.release
  · exact h.release

end Buffer

end LiquidCatalog.Output

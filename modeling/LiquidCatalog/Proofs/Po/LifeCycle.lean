import LiquidCatalog.Proofs.Po.Session

/-!
The life cycle of a writer.

A writer is open until its first close, however that ends, and closed from then on: calls on a
closed writer are refused and change nothing. Each write on an open writer begins one more entry,
even if it fails later on. Only when the empty line before the entry cannot be written the entry is
not begun. That line is a single byte, so this takes a buffer that is full to the last byte and a
sink that does not take what is held.
-/

namespace LiquidCatalog

namespace Output.Buffer

lemma flush_eq_ok_iff (b : Buffer) : b.flush.1 = .ok () ↔ b.sink.Fits b.held := by
  rw [← Sink.left_eq_nil_iff, flush]
  by_cases hleft : (b.sink.push b.held).1 = []
  · simp [hleft]
  · simp [hleft]

lemma put_byte_eq_ok_iff (b : Buffer) (x : UInt8) :
    (b.put [x]).1 = .ok () ↔ b.held.length < capacity ∨ b.sink.Fits b.held := by
  have hroom : (b.makeRoom 1).1 = .ok () ↔ b.held.length < capacity ∨ b.sink.Fits b.held := by
    rw [makeRoom, spare]
    split
    · have hfull : ¬ b.held.length < capacity := by omega
      rw [flush_eq_ok_iff, or_iff_right hfull]
    · exact iff_of_true rfl (.inl (by omega))
  rw [← hroom, put, List.length_singleton]
  rcases b.makeRoom 1 with ⟨f | ⟨⟩, b'⟩
  · simp
  · simp [capacity]

/-- Pieces that fit into what is left of the buffer are held. -/
lemma putAll_of_spare {b : Buffer} {pieces : List (List UInt8)}
    (hpieces : ∀ piece ∈ pieces, piece.length < capacity)
    (hspare : b.held.length + pieces.flatten.length ≤ capacity) :
    b.putAll pieces = (.ok (), { b with held := b.held ++ pieces.flatten }) := by
  induction pieces generalizing b with
  | nil => simp [putAll]
  | cons piece pieces ih =>
    obtain ⟨hpiece, hpieces⟩ := List.forall_mem_cons.1 hpieces
    rw [List.flatten_cons, List.length_append] at hspare
    have hroom : ¬ b.spare < piece.length := by
      rw [spare]
      omega
    have hput : b.put piece = (.ok (), { b with held := b.held ++ piece }) := by
      rw [put, makeRoom, if_neg hroom]
      exact if_neg (Nat.not_le.2 hpiece)
    rw [putAll, hput]
    simp only
    rw [ih hpieces (by rw [List.length_append]; omega), List.flatten_cons, List.append_assoc]

end Output.Buffer

namespace Po.Writer

open Output

/-- The empty line before the next entry cannot be written. -/
def Stalls (w : Writer) : Prop :=
  ∃ b, w.channel = .opened b ∧ w.entries ≠ 0 ∧ (b.putAll Line.blank.bytes).1 ≠ .ok ()

lemma stalls_opened_iff {b : Buffer} {n : Nat} :
    Stalls ⟨.opened b, n⟩ ↔
      n ≠ 0 ∧ Buffer.capacity ≤ b.held.length ∧ ¬ b.sink.Fits b.held := by
  have hbytes : Line.blank.bytes = [[10]] := by decide
  have hput : (b.putAll [[10]]).1 = (b.put [10]).1 := by
    rw [Buffer.putAll]
    rcases b.put [10] with ⟨f | ⟨⟩, b'⟩ <;> rfl
  simp only [Stalls, Channel.opened.injEq, exists_eq_left', hbytes, hput, ne_eq,
    Buffer.put_byte_eq_ok_iff, not_or, Nat.not_lt]

lemma stalls_opened_iff_separate {b : Buffer} {n : Nat} :
    Stalls ⟨.opened b, n⟩ ↔ (separate n b).1 ≠ .ok () := by
  simp only [Stalls, Channel.opened.injEq, exists_eq_left', separate]
  by_cases hn : n = 0 <;> simp [hn]

variable {w : Writer}

/-! ### One call -/

lemma perform_of_closed (h : w.isClosed = true) (c : Call) : w.perform c = (.error .closed, w) := by
  obtain ⟨b | t, n⟩ := w
  · cases h
  · cases c <;> rfl

/-- **What a write does** to an open writer: it begins an entry unless the writer stalls, and it
leaves the writer open. -/
lemma write_cases (h : w.isClosed = false) (e : Entry) :
    (w.write e).2.isClosed = false ∧ (w.write e).1 ≠ .error .closed ∧
      (w.Stalls ∧ (∃ f, (w.write e).1 = .error (.fault f)) ∧ (w.write e).2.entries = w.entries ∨
        ¬ w.Stalls ∧ (w.write e).2.entries = w.entries + 1) := by
  obtain ⟨b | t, n⟩ := w
  · rw [write_opened, stalls_opened_iff_separate]
    rcases separate n b with ⟨f | ⟨⟩, b'⟩
    · exact ⟨rfl, by simp, .inl ⟨by simp, ⟨f, rfl⟩, rfl⟩⟩
    · exact ⟨rfl, reported_ne_closed _, .inr ⟨by simp, rfl⟩⟩
  · cases h

lemma isClosed_close (w : Writer) : w.close.2.isClosed = true := by
  obtain ⟨b | t, n⟩ := w <;> rfl

lemma entries_close (w : Writer) : w.close.2.entries = w.entries := by
  obtain ⟨b | t, n⟩ := w <;> rfl

lemma isClosed_perform_iff (w : Writer) (c : Call) :
    (w.perform c).2.isClosed = true ↔ w.isClosed = true ∨ c = .close := by
  cases hclosed : w.isClosed with
  | true =>
    rw [perform_of_closed hclosed]
    simp [hclosed]
  | false =>
    cases c with
    | write e => simp [perform, (write_cases hclosed e).1]
    | close => simp [perform, isClosed_close]

lemma perform_eq_closed_iff (w : Writer) (c : Call) :
    (w.perform c).1 = .error .closed ↔ w.isClosed = true := by
  cases hclosed : w.isClosed with
  | true => simp [perform_of_closed hclosed]
  | false =>
    refine iff_of_false ?_ (by simp)
    cases c with
    | write e => exact (write_cases hclosed e).2.1
    | close => exact close_ne_closed hclosed

lemma entries_le_perform (w : Writer) (c : Call) : w.entries ≤ (w.perform c).2.entries := by
  cases hclosed : w.isClosed with
  | true => exact Nat.le_of_eq (congrArg (·.2.entries) (perform_of_closed hclosed c)).symm
  | false =>
    cases c with
    | write e =>
      obtain ⟨-, -, ⟨-, -, hentries⟩ | ⟨-, hentries⟩⟩ := write_cases hclosed e
      · exact Nat.le_of_eq hentries.symm
      · rw [perform, hentries]
        exact Nat.le_succ _
    | close => exact Nat.le_of_eq (entries_close w).symm

/-! ### Calls one after the other -/

lemma isClosed_performAll_iff (w : Writer) (cs : List Call) :
    (w.performAll cs).2.isClosed = true ↔ w.isClosed = true ∨ .close ∈ cs := by
  induction cs generalizing w with
  | nil => simp [performAll]
  | cons c cs ih =>
    have hrest := ih (w.perform c).2
    rw [isClosed_perform_iff] at hrest
    rw [performAll, hrest, List.mem_cons, or_assoc, @eq_comm _ c]

lemma entries_le_performAll (w : Writer) (cs : List Call) :
    w.entries ≤ (w.performAll cs).2.entries := by
  induction cs generalizing w with
  | nil => exact Nat.le_refl _
  | cons c cs ih => exact Nat.le_trans (entries_le_perform w c) (ih (w.perform c).2)

/-- **The life cycle of a writer**, after any calls on any sink. The next call is refused exactly if
a close is among the calls, and then it changes nothing. Afterwards the writer is closed exactly if
there was a close up to then, so a write that fails with a fault leaves it open. The number of
entries never falls. Each write on an open writer raises it by one, whether it fails or not, unless
the empty line before the entry cannot be written: then it stays, and it is not zero. -/
theorem life_cycle_of_calls (s : Sink) (cs : List Call) (c : Call) :
    let w := ((ofSink s).performAll cs).2
    let r := w.perform c
    (r.1 = .error .closed ↔ .close ∈ cs) ∧
      (r.1 = .error .closed → r.2 = w) ∧
      (r.2.isClosed = true ↔ .close ∈ cs ∨ c = .close) ∧
      (∀ f, c ≠ .close → r.1 = .error (.fault f) → r.2.isClosed = false) ∧
      (∀ more, w.entries ≤ (w.performAll more).2.entries) ∧
      (.close ∉ cs → c ≠ .close →
        w.Stalls ∧ (∃ f, r.1 = .error (.fault f)) ∧ r.2.entries = w.entries ∧ w.entries ≠ 0 ∨
          ¬ w.Stalls ∧ r.2.entries = w.entries + 1) := by
  intro w r
  have hclosed : w.isClosed = true ↔ .close ∈ cs := by
    have hnew : ¬ (ofSink s).isClosed = true := Bool.false_ne_true
    exact (isClosed_performAll_iff (ofSink s) cs).trans (or_iff_right hnew)
  have hrefused : r.1 = .error .closed ↔ .close ∈ cs := (perform_eq_closed_iff w c).trans hclosed
  have hafter : r.2.isClosed = true ↔ .close ∈ cs ∨ c = .close := by
    rw [isClosed_perform_iff, hclosed]
  refine ⟨hrefused, fun h => ?_, hafter, fun f hc hf => ?_, entries_le_performAll w,
    fun hopen hc => ?_⟩
  · rw [perform_eq_closed_iff] at h
    exact congrArg Prod.snd (perform_of_closed h c)
  · rw [← Bool.not_eq_true, hafter, or_iff_left hc, ← hrefused, hf]
    simp
  · rw [← hclosed, Bool.not_eq_true] at hopen
    cases c with
    | close => exact absurd rfl hc
    | write e =>
      obtain ⟨-, -, ⟨hstalls, hfault, hentries⟩ | hbegun⟩ := write_cases hopen e
      · obtain ⟨b, -, hne, -⟩ := id hstalls
        exact .inl ⟨hstalls, hfault, hentries, hne⟩
      · exact .inr hbegun

/-! ### A writer that stalls -/

/-- An entry that fits into the buffer does not reach the sink. -/
lemma write_of_capacity (s : Sink) {e : Entry}
    (hpieces : ∀ piece ∈ e.bytes, piece.length < Buffer.capacity)
    (hlength : e.bytes.flatten.length ≤ Buffer.capacity) :
    (ofSink s).write e = (.ok (), ⟨.opened { held := e.bytes.flatten, sink := s }, 1⟩) := by
  have hput : ({ sink := s } : Buffer).putAll e.bytes =
      (.ok (), { held := e.bytes.flatten, sink := s }) :=
    Buffer.putAll_of_spare hpieces (by rwa [List.length_nil, Nat.zero_add])
  rw [ofSink, write_opened, separate, if_pos rfl]
  simp only [hput]
  rfl

lemma length_utf8_encode_replicate (n : Nat) :
    (Text.utf8 (Quoted.encode (List.replicate n 'A'))).length = n := by
  induction n with
  | zero => rfl
  | succ n ih =>
    rw [List.replicate_succ, Quoted.encode_cons, Text.utf8_append, List.length_append, ih]
    exact Nat.add_comm 1 n

lemma length_pieces_replicate (n : Nat) :
    (Entry.message { text := String.ofList (List.replicate n 'A') }).bytes.map List.length =
      [7, n, 1, 1, 9, 1] := by
  have hbytes : (Entry.message { text := String.ofList (List.replicate n 'A') }).bytes =
      [Text.utf8 "msgid \"".toList,
        Text.utf8 (Quoted.encode (String.ofList (List.replicate n 'A')).toList), [34], [10],
        Text.utf8 "msgstr \"\"".toList, [10]] := rfl
  have htext := length_utf8_encode_replicate n
  rw [hbytes, List.map_cons, List.map_cons, @String.toList_ofList (List.replicate n 'A'), htext]
  rfl

/-- A message of 8192 bytes fills the buffer in front of a sink that takes nothing, and the next
write begins no entry. -/
theorem life_cycle_of_calls_stalled :
    let s : Sink := { room := some 0 }
    ∃ e : Entry, e = .message { text := String.ofList (List.replicate 8173 'A') } ∧
      let w := ((ofSink s).performAll [.write e]).2
      let r := w.perform (.write e)
      w.Stalls ∧ w.entries = 1 ∧ (∃ f, r.1 = .error (.fault f)) ∧ r.2.entries = 1 ∧
        r.2.isClosed = false := by
  intro s
  -- only the lengths of the pieces count, so the entry stays folded
  obtain ⟨e, he⟩ : ∃ e : Entry, e = .message { text := String.ofList (List.replicate 8173 'A') } :=
    ⟨_, rfl⟩
  have hlengths : e.bytes.map List.length = [7, 8173, 1, 1, 9, 1] :=
    he ▸ length_pieces_replicate 8173
  refine ⟨e, he, ?_⟩
  intro w r
  have hpieces : ∀ piece ∈ e.bytes, piece.length < Buffer.capacity := by
    rw [← List.forall_mem_map (P := (· < Buffer.capacity)), hlengths]
    decide
  have hlength : e.bytes.flatten.length = Buffer.capacity := by
    rw [List.length_flatten, hlengths]
    decide
  have hw : w = ⟨.opened { held := e.bytes.flatten, sink := s }, 1⟩ :=
    congrArg Prod.snd (write_of_capacity s hpieces (Nat.le_of_eq hlength))
  have hstalls : w.Stalls := by
    rw [hw, stalls_opened_iff]
    refine ⟨Nat.one_ne_zero, Nat.le_of_eq hlength.symm, fun hfits => ?_⟩
    have hle := hfits 0 rfl
    rw [hlength] at hle
    exact absurd hle (by decide)
  have hentries : w.entries = 1 := by rw [hw]
  obtain ⟨-, -, hafter, -, -, hbegins⟩ := life_cycle_of_calls s [.write e] (.write e)
  rcases hbegins (by simp) (by simp) with ⟨-, hfault, hstays, -⟩ | ⟨hnot, -⟩
  · refine ⟨hstalls, hentries, hfault, hstays.trans hentries, ?_⟩
    rw [← Bool.not_eq_true, hafter]
    simp
  · exact absurd hstalls hnot

end Po.Writer

end LiquidCatalog

import Mathlib.Data.List.Induction
import LiquidCatalog.Po.Writer
import LiquidCatalog.Proofs.Output.Delivery

/-!
What reaches the sink of a writer.

A writer stands after some entries either with nothing lost, or with its sink full and cut off in
the middle of the file. In both cases giving it up leaves the sink as if the file had been pushed
to it in one go. Whether a call failed tells the two apart.
-/

namespace LiquidCatalog.Po

open Output

/-- The bytes of a file with the given entries. -/
def rendered (es : List Entry) : List UInt8 := Text.utf8 (document es)

/-- The empty line before an entry that follows the given ones. -/
def separator (es : List Entry) : List Char := if es = [] then [] else ['\n']

lemma document_snoc (es : List Entry) (e : Entry) :
    document (es ++ [e]) = document es ++ (separator es ++ e.chars) := by
  cases es <;> simp [document, separator]

lemma rendered_snoc (es : List Entry) (e : Entry) :
    rendered (es ++ [e]) = rendered es ++ (Text.utf8 (separator es) ++ Text.utf8 e.chars) := by
  simp only [rendered, document_snoc, Text.utf8_append]

/-- The file with more entries goes on where the file ends. -/
lemma rendered_append (es fs : List Entry) : ∃ more, rendered (es ++ fs) = rendered es ++ more := by
  induction fs using List.reverseRecOn with
  | nil => exact ⟨[], by simp⟩
  | append_singleton fs f ih =>
    obtain ⟨more, hmore⟩ := ih
    rw [← List.append_assoc, rendered_snoc, hmore, List.append_assoc]
    exact ⟨_, rfl⟩

lemma flatten_lineBytes (ls : List Line) :
    (ls.flatMap Line.bytes).flatten = Text.utf8 (ls.flatMap fun l => l.chars ++ ['\n']) := by
  induction ls with
  | nil => rfl
  | cons l ls ih =>
    rw [List.flatMap_cons, List.flatten_append, ih, Line.flatten_bytes, List.flatMap_cons,
      ← Text.utf8_append]

lemma Entry.flatten_bytes (e : Entry) : e.bytes.flatten = Text.utf8 e.chars :=
  flatten_lineBytes e.lines

namespace Writer

variable {s : Sink} {es : List Entry} {w : Writer}

/-- The entries that are written before the first close. -/
def written : List Call → List Entry
  | .write e :: cs => e :: written cs
  | _ => []

/-- How a writer is given up. -/
inductive Ending where
  | finish
  | close
  | drop

/-- The sink after the writer is given up. -/
def Ending.sink : Ending → Writer → Sink
  | finish, w => w.finish.2
  | close, w => w.close.2.release
  | drop, w => w.release

/-- The sink behind the writer, without what is held. -/
def sink (w : Writer) : Sink :=
  match w.channel with
  | .opened b => b.sink
  | .closed s => s

/-- After the given entries nothing is lost. -/
def Intact (s : Sink) (es : List Entry) (w : Writer) : Prop :=
  ∃ b : Buffer, w = ⟨.opened b, es.length⟩ ∧ b.Intact s (rendered es)

/-- After the given entries the sink is full, and something is lost. -/
def Cut (s : Sink) (es : List Entry) (w : Writer) : Prop :=
  ∃ (b : Buffer) (n : Nat), w = ⟨.opened b, n⟩ ∧ n ≠ 0 ∧ b.Cut s (rendered es)

/-- How a call ends after which all of the given entries should have been written. -/
def Settles (s : Sink) (es : List Entry) (r : Except WriteError Unit × Writer) : Prop :=
  match r.1 with
  | .ok _ => r.2.Intact s es
  | .error _ => r.2.Cut s es

lemma intact_ofSink (s : Sink) : (ofSink s).Intact s [] :=
  ⟨{ sink := s }, rfl, Buffer.intact_new s⟩

/-! ### One entry -/

lemma write_opened (b : Buffer) (n : Nat) (e : Entry) :
    Writer.write e ⟨.opened b, n⟩ =
      match separate n b with
      | (.error f, b) => (.error (.fault f), ⟨.opened b, n⟩)
      | (.ok (), b) =>
        (reported (b.putAll e.bytes).1, ⟨.opened (b.putAll e.bytes).2, n + 1⟩) := rfl

lemma separate_settles {b : Buffer} (h : b.Intact s (rendered es)) :
    Buffer.Settles s (rendered es ++ Text.utf8 (separator es)) (separate es.length b) := by
  unfold separate separator
  by_cases hes : es = []
  · simpa [hes, Buffer.Settles] using h
  · have hput := h.putAll Line.blank.bytes
    rw [Line.flatten_bytes] at hput
    simpa [hes, Line.chars, Line.pieces] using hput

lemma Intact.write (h : w.Intact s es) (e : Entry) : Settles s (es ++ [e]) (w.write e) := by
  obtain ⟨b, rfl, hb⟩ := h
  have hsep := separate_settles hb
  rw [write_opened]
  rcases heq : separate es.length b with ⟨f | ⟨⟩, b'⟩
  · -- the empty line before the entry is cut off
    rw [heq] at hsep
    have hes : es.length ≠ 0 := by
      intro h0
      simp [separate, h0] at heq
    refine ⟨b', es.length, rfl, hes, ?_⟩
    rw [rendered_snoc, ← List.append_assoc]
    exact hsep.append _
  · rw [heq] at hsep
    have hput := Buffer.Intact.putAll hsep e.bytes
    rw [Entry.flatten_bytes, List.append_assoc, ← rendered_snoc] at hput
    simp only
    rcases hall : b'.putAll e.bytes with ⟨f | ⟨⟩, b''⟩
    · rw [hall] at hput
      exact ⟨b'', es.length + 1, rfl, by omega, hput⟩
    · rw [hall] at hput
      exact ⟨b'', by simp, hput⟩

lemma Cut.write (h : w.Cut s es) (e : Entry) : (w.write e).2.Cut s (es ++ [e]) := by
  obtain ⟨b, n, rfl, hn, hb⟩ := h
  have hsep : (separate n b).2.Cut s (rendered es) := by
    unfold separate
    split
    · exact hb
    · exact hb.putAll _
  rw [write_opened]
  rcases heq : separate n b with ⟨f | ⟨⟩, b'⟩
  · rw [heq] at hsep
    exact ⟨b', n, rfl, hn, rendered_snoc es e ▸ hsep.append _⟩
  · rw [heq] at hsep
    exact ⟨_, _, rfl, by omega, rendered_snoc es e ▸ (hsep.putAll e.bytes).append _⟩

/-! ### Giving the writer up -/

lemma given_up_opened {b : Buffer} {n : Nat} {t : Sink} (hdrop : b.release = t)
    (hflush : b.flush.2.release = t) (fin : Ending) : fin.sink ⟨.opened b, n⟩ = t := by
  cases fin with
  | finish => exact hflush
  | close => exact hflush
  | drop => exact hdrop

lemma Intact.given_up (h : w.Intact s es) (fin : Ending) :
    fin.sink w = (s.push (rendered es)).2 := by
  obtain ⟨b, rfl, hb⟩ := h
  exact given_up_opened hb.release hb.flush.release fin

lemma Cut.given_up (h : w.Cut s es) (fin : Ending) : fin.sink w = (s.push (rendered es)).2 := by
  obtain ⟨b, n, rfl, -, hb⟩ := h
  exact given_up_opened hb.release hb.flush.release fin

lemma Cut.sink_eq (h : w.Cut s es) : w.sink = (s.push (rendered es)).2 := by
  obtain ⟨b, n, rfl, -, hb⟩ := h
  exact hb.2

lemma given_up_closed {t : Sink} (h : w.channel = .closed t) (fin : Ending) : fin.sink w = t := by
  obtain ⟨c, n⟩ := w
  subst h
  cases fin <;> rfl

lemma Intact.finish_eq_ok_iff (h : w.Intact s es) :
    w.finish.1 = .ok () ↔ s.Fits (rendered es) := by
  obtain ⟨b, rfl, hb⟩ := h
  rw [← hb.flush_eq_ok_iff]
  show reported b.flush.1 = .ok () ↔ _
  rcases b.flush.1 with f | ⟨⟩ <;> simp [reported, Except.mapError]

lemma Intact.close_eq_ok_iff (h : w.Intact s es) :
    w.close.1 = .ok () ↔ s.Fits (rendered es) ∧ s.flushFault = none := by
  obtain ⟨b, rfl, hb⟩ := h
  have hfault : b.flush.2.sink.flush = .ok () ↔ s.flushFault = none := by
    obtain ⟨passed, -, -, hs⟩ := hb
    show (b.sink.push b.held).2.flush = .ok () ↔ _
    rw [Sink.flush_eq_ok_iff, Sink.flushFault_push, hs, Sink.flushFault_push]
  rw [← hb.flush_eq_ok_iff, ← hfault]
  show reported (b.flush.1.bind fun _ => b.flush.2.sink.flush) = .ok () ↔ _
  rcases b.flush.1 with f | ⟨⟩
  · simp [reported, Except.bind, Except.mapError]
  · rcases b.flush.2.sink.flush with f | ⟨⟩ <;> simp [reported, Except.bind, Except.mapError]

lemma Intact.close_channel (h : w.Intact s es) :
    w.close.2.channel = .closed (s.push (rendered es)).2 := by
  obtain ⟨b, rfl, hb⟩ := h
  exact congrArg Channel.closed hb.flush.release

lemma Cut.close_channel (h : w.Cut s es) :
    w.close.2.channel = .closed (s.push (rendered es)).2 := by
  obtain ⟨b, n, rfl, -, hb⟩ := h
  exact congrArg Channel.closed hb.flush.release

/-! ### A run of calls -/

lemma performAll_append (cs ds : List Call) (w : Writer) :
    performAll (cs ++ ds) w =
      ((performAll cs w).1 ++ (performAll ds (performAll cs w).2).1,
        (performAll ds (performAll cs w).2).2) := by
  induction cs generalizing w with
  | nil => rfl
  | cons c cs ih => simp only [List.cons_append, performAll, ih]

lemma perform_closed {t : Sink} (c : Call) (h : w.channel = .closed t) : (w.perform c).2 = w := by
  obtain ⟨_, n⟩ := w
  subst h
  cases c <;> rfl

lemma performAll_closed {t : Sink} (cs : List Call) (h : w.channel = .closed t) :
    (performAll cs w).2 = w := by
  induction cs with
  | nil => rfl
  | cons c cs ih => simp only [performAll, perform_closed c h, ih]

/-- How a writer stands after calls that write the given entries before the first close. -/
inductive Reached (s : Sink) (es : List Entry) (w : Writer) : Prop
  | intact (h : w.Intact s es)
  | cut (h : w.Cut s es)
  | closed (h : w.channel = .closed (s.push (rendered es)).2)

lemma Reached.given_up (h : w.Reached s es) (fin : Ending) :
    fin.sink w = (s.push (rendered es)).2 := by
  cases h with
  | intact h => exact h.given_up fin
  | cut h => exact h.given_up fin
  | closed h => exact given_up_closed h fin

lemma Cut.performAll (h : w.Cut s es) (cs : List Call) :
    (w.performAll cs).2.Reached s (es ++ written cs) := by
  induction cs generalizing es w with
  | nil => simpa [Writer.performAll, written] using Reached.cut h
  | cons c cs ih =>
    cases c with
    | write e =>
      have := ih (h.write e)
      simpa [Writer.performAll, written, perform] using this
    | close =>
      have hc := h.close_channel
      simp only [Writer.performAll, written, perform, List.append_nil]
      rw [performAll_closed cs hc]
      exact .closed hc

/-- **A run of calls.** -/
lemma Intact.performAll (h : w.Intact s es) (cs : List Call) :
    (w.performAll cs).2.Reached s (es ++ written cs) := by
  induction cs generalizing es w with
  | nil => simpa [Writer.performAll, written] using Reached.intact h
  | cons c cs ih =>
    cases c with
    | write e =>
      have hw := h.write e
      unfold Settles at hw
      simp only [Writer.performAll, written, perform]
      rw [List.append_cons]
      split at hw
      · exact ih hw
      · exact hw.performAll cs
    | close =>
      have hc := h.close_channel
      simp only [Writer.performAll, written, perform, List.append_nil]
      rw [performAll_closed cs hc]
      exact .closed hc

/-- A call that fails leaves a writer behind that is cut off or closed. -/
lemma Reached.of_failed (h : w.Reached s es) (c : Call) (hc : (w.perform c).1 ≠ .ok ()) :
    (∃ es', (w.perform c).2.Cut s es') ∨ ∃ t, (w.perform c).2.channel = .closed t := by
  cases h with
  | intact h =>
    cases c with
    | write e =>
      have hw := h.write e
      unfold Settles at hw
      split at hw
      · next heq => exact absurd heq hc
      · exact .inl ⟨_, hw⟩
    | close => exact .inr ⟨_, h.close_channel⟩
  | cut h =>
    cases c with
    | write e => exact .inl ⟨_, h.write e⟩
    | close => exact .inr ⟨_, h.close_channel⟩
  | closed h => exact .inr ⟨_, by rw [perform_closed c h]; exact h⟩

/-- Nothing that is written to a full sink reaches it. -/
lemma Cut.sink_after (h : w.Cut s es) (cs : List Call) (fin : Ending) :
    fin.sink (w.performAll cs).2 = w.sink := by
  obtain ⟨more, hmore⟩ := rendered_append es (written cs)
  have hfit : ¬ s.Fits (rendered es) := by
    obtain ⟨b, n, -, -, hb⟩ := h
    exact hb.1
  rw [(h.performAll cs).given_up fin, hmore, Sink.push_of_not_fits more hfit, h.sink_eq]

/-- **Buffering is transparent.** Whatever calls are made and however the writer is given up, the
sink receives the file with the entries written before the first close, as far as it has room for
it. After a call has failed it receives nothing more. -/
theorem received_after_calls (s : Sink) (cs : List Call) (fin : Ending) :
    (fin.sink ((ofSink s).performAll cs).2).received =
      s.received ++ s.admitted (rendered (written cs)) ∧
    ∀ pre c post, cs = pre ++ c :: post →
      (((ofSink s).performAll pre).2.perform c).1 ≠ .ok () →
      fin.sink ((ofSink s).performAll cs).2 = (((ofSink s).performAll pre).2.perform c).2.sink := by
  constructor
  · rw [((intact_ofSink s).performAll cs).given_up fin, List.nil_append, Sink.received_push]
  · rintro pre c post rfl hc
    have hpre := (intact_ofSink s).performAll pre
    simp only [performAll_append, performAll]
    rcases hpre.of_failed c hc with ⟨es', hcut⟩ | ⟨t, hclosed⟩
    · exact hcut.sink_after post fin
    · rw [performAll_closed post hclosed, given_up_closed hclosed fin, sink, hclosed]

/-- A sink with room for three bytes gets them when the writer is closed, and no others. -/
theorem received_after_calls_three :
    let s : Sink := { room := some 3 }
    let m : Entry := .message { text := "A" }
    let r := ((ofSink s).performAll [.write m]).2.perform .close
    r.1 ≠ .ok () ∧ r.2.sink.received = Text.utf8 "msg".toList ∧
      Ending.drop.sink ((ofSink s).performAll [.write m, .close, .write m]).2 = r.2.sink := by
  intro s m r
  have hr : r.1 ≠ .ok () := by decide
  exact ⟨hr, by decide, (received_after_calls s [.write m, .close, .write m] .drop).2
    [.write m] .close [.write m] rfl hr⟩

/-! ### Up to the first error -/

lemma Cut.append (h : w.Cut s es) (fs : List Entry) : w.Cut s (es ++ fs) := by
  obtain ⟨b, n, hw, hn, hb⟩ := h
  obtain ⟨more, hmore⟩ := rendered_append es fs
  exact ⟨b, n, hw, hn, hmore ▸ hb.append more⟩

lemma Intact.writeAll (h : w.Intact s es) (fs : List Entry) :
    Settles s (es ++ fs) (w.writeAll fs) := by
  induction fs generalizing es w with
  | nil => simpa [Writer.writeAll, Settles] using h
  | cons f fs ih =>
    have hw := h.write f
    rw [List.append_cons]
    unfold Writer.writeAll
    split
    · next heq => rw [heq] at hw; exact Cut.append hw fs
    · next heq => rw [heq] at hw; exact ih hw

lemma Intact.writeAll_of_fits (h : w.Intact s es) (fs : List Entry)
    (hfit : s.Fits (rendered (es ++ fs))) :
    ∃ w', w.writeAll fs = (.ok (), w') ∧ w'.Intact s (es ++ fs) := by
  have hw := h.writeAll fs
  rcases heq : w.writeAll fs with ⟨f | ⟨⟩, w'⟩
  · rw [heq] at hw
    obtain ⟨b, n, -, -, hb⟩ := hw
    exact absurd hfit hb.1
  · rw [heq] at hw
    exact ⟨w', rfl, hw⟩

lemma Intact.closeIfOpen_of_fits (h : w.Intact s es) (hfit : s.Fits (rendered es))
    (hflush : s.flushFault = none) : w.closeIfOpen = (.ok (), (s.push (rendered es)).2) := by
  have hok := h.close_eq_ok_iff.2 ⟨hfit, hflush⟩
  have hsink := h.given_up .close
  obtain ⟨b, rfl, hb⟩ := h
  exact Prod.ext hok hsink

/-! ### Whether all goes well -/

/-- No call has failed. -/
def AllOk (outcomes : List (Except WriteError Unit)) : Prop := ∀ o ∈ outcomes, o = .ok ()

@[simp] lemma allOk_nil : AllOk [] := by simp [AllOk]

@[simp] lemma allOk_cons (o : Except WriteError Unit) (os : List (Except WriteError Unit)) :
    AllOk (o :: os) ↔ o = .ok () ∧ AllOk os := List.forall_mem_cons

@[simp] lemma allOk_append (os ps : List (Except WriteError Unit)) :
    AllOk (os ++ ps) ↔ AllOk os ∧ AllOk ps := List.forall_mem_append

lemma Cut.writes (h : w.Cut s es) (fs : List Entry) :
    (w.performAll (fs.map .write)).2.Cut s (es ++ fs) := by
  induction fs generalizing es w with
  | nil => simpa [Writer.performAll] using h
  | cons f fs ih => simpa [Writer.performAll, perform] using ih (h.write f)

/-- Either all entries are written, or one fails and the sink is cut off. -/
lemma Intact.writes (h : w.Intact s es) (fs : List Entry) :
    let r := w.performAll (fs.map .write)
    AllOk r.1 ∧ r.2.Intact s (es ++ fs) ∨ ¬ AllOk r.1 ∧ r.2.Cut s (es ++ fs) := by
  induction fs generalizing es w with
  | nil => exact .inl ⟨allOk_nil, by simpa [Writer.performAll] using h⟩
  | cons f fs ih =>
    have hw := h.write f
    unfold Settles at hw
    simp only [List.map_cons, Writer.performAll, perform, allOk_cons]
    rw [List.append_cons]
    split at hw
    · next heq => simpa [heq] using ih hw
    · next heq => exact .inr ⟨by simp [heq], hw.writes fs⟩

lemma written_map_write (es : List Entry) : written (es.map .write) = es := by
  induction es with
  | nil => rfl
  | cons e es ih => rw [List.map_cons, written, ih]

/-- A sink with room for the file receives all of it. -/
lemma received_writes (hfit : s.Fits (rendered es)) (fin : Ending) :
    (fin.sink ((ofSink s).performAll (es.map .write)).2).received = s.received ++ rendered es := by
  have hreached := (intact_ofSink s).performAll (es.map .write)
  rw [hreached.given_up fin, List.nil_append, written_map_write, Sink.received_push,
    Sink.admitted_of_fits hfit]

/-- Entries are written and handed over without an error exactly if there is room for them. -/
lemma writes_finish_ok_iff (s : Sink) (es : List Entry) :
    let r := (ofSink s).performAll (es.map .write)
    AllOk r.1 ∧ r.2.finish.1 = .ok () ↔ s.Fits (rendered es) := by
  intro r
  rcases (intact_ofSink s).writes es with ⟨hall, hw⟩ | ⟨hfail, b, n, -, -, hcut⟩
  · exact (and_iff_right hall).trans hw.finish_eq_ok_iff
  · -- a call has failed, and there is not room for all
    exact ⟨fun h => absurd h.1 hfail, fun h => absurd h hcut.1⟩

lemma writes_close_ok_iff (s : Sink) (es : List Entry) :
    let r := (ofSink s).performAll (es.map .write)
    AllOk r.1 ∧ r.2.close.1 = .ok () ↔ s.Fits (rendered es) ∧ s.flushFault = none := by
  intro r
  rcases (intact_ofSink s).writes es with ⟨hall, hw⟩ | ⟨hfail, b, n, -, -, hcut⟩
  · exact (and_iff_right hall).trans hw.close_eq_ok_iff
  · exact ⟨fun h => absurd h.1 hfail, fun h => absurd h.1 hcut.1⟩

/-- A closed writer holds nothing back. -/
lemma sink_close (w : Writer) : w.close.2.sink = Ending.close.sink w := by
  obtain ⟨b | t, n⟩ := w <;> rfl

/-- **No silent truncation and no spurious failure.** All entries are written and the writer is
closed without an error exactly if the sink has room for the whole file and its own flush does not
fail, and then the sink holds the whole file. With finishing in place of closing, the sink's flush
does not matter. -/
theorem all_ok_iff_fits (s : Sink) (es : List Entry) :
    let closed := (ofSink s).performAll (es.map .write ++ [.close])
    let opened := (ofSink s).performAll (es.map .write)
    (AllOk closed.1 ↔ s.Fits (rendered es) ∧ s.flushFault = none) ∧
    (AllOk closed.1 → closed.2.sink.received = s.received ++ rendered es) ∧
    (AllOk opened.1 ∧ opened.2.finish.1 = .ok () ↔ s.Fits (rendered es)) ∧
    (AllOk opened.1 ∧ opened.2.finish.1 = .ok () →
      opened.2.finish.2.received = s.received ++ rendered es) := by
  intro closed opened
  have hok : AllOk closed.1 ↔ AllOk opened.1 ∧ opened.2.close.1 = .ok () := by
    simp [closed, performAll_append, performAll, perform, opened]
  have hsink : closed.2.sink = Ending.close.sink opened.2 := by
    rw [← sink_close]
    simp only [closed, performAll_append, performAll, perform, opened]
  have hclose := hok.trans (writes_close_ok_iff s es)
  have hfinish := writes_finish_ok_iff s es
  refine ⟨hclose, fun h => ?_, hfinish, fun h => ?_⟩
  · rw [hsink]
    exact received_writes (hclose.1 h).1 .close
  · exact received_writes (hfinish.1 h) .finish

/-- A message of twenty bytes is written to a sink with room for twenty. -/
theorem all_ok_iff_fits_twenty :
    let s : Sink := { room := some 20 }
    let m : Entry := .message { text := "A" }
    let closed := (ofSink s).performAll [.write m, .close]
    let opened := (ofSink s).performAll [.write m]
    AllOk closed.1 ∧ closed.2.sink.received = rendered [m] ∧
      (AllOk opened.1 ∧ opened.2.finish.1 = .ok ()) ∧
      opened.2.finish.2.received = rendered [m] := by
  intro s m closed opened
  obtain ⟨hiff, hclosed, hiff', hopened⟩ := all_ok_iff_fits s [m]
  have hfit : s.Fits (rendered [m]) := by
    rintro n ⟨⟩
    decide
  have hok : AllOk closed.1 := hiff.2 ⟨hfit, rfl⟩
  have hok' : AllOk opened.1 ∧ opened.2.finish.1 = .ok () := hiff'.2 hfit
  exact ⟨hok, hclosed hok, hok', hopened hok'⟩

end Writer

end LiquidCatalog.Po

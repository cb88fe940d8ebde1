import LiquidCatalog.Proofs.Po.Delivery

/-!
What a session delivers and what it reports.

A body makes calls on the writer of its session. It sees the outcome of each call before it decides
on the next one, and in the end it gives a result. However it ends, the sink receives what it would
receive if the same calls were made by hand and the writer closed after them. What the session
reports is the error of the body, or else the fault of closing a writer that the body left open.
A body that only writes and gives up at the first error is never told that all went well when
something is missing.
-/

namespace LiquidCatalog.Po.Writer

open Output

/-- What is done with a writer while its session lasts. -/
inductive Body (ε α : Type) where
  | give (result : Except ε α)
  /-- Makes a call and goes on as its outcome says. -/
  | call (c : Call) (next : Except WriteError Unit → Body ε α)
  /-- Asks for the number of entries begun, and whether the writer is closed. -/
  | look (next : Nat → Bool → Body ε α)

namespace Body

variable {ε α : Type}

def run : Body ε α → Writer → Except ε α × Writer
  | give result, w => (result, w)
  | call c next, w => run (next (w.perform c).1) (w.perform c).2
  | look next, w => run (next w.entries w.isClosed) w

def calls : Body ε α → Writer → List Call
  | give _, _ => []
  | call c next, w => c :: calls (next (w.perform c).1) (w.perform c).2
  | look next, w => calls (next w.entries w.isClosed) w

def inSession (raise : WriteError → ε) (b : Body ε α) (s : Sink) : Except ε α × Sink :=
  Id.run (session raise (fun w => pure (b.run w)) s)

lemma run_writer (b : Body ε α) (w : Writer) : (b.run w).2 = (w.performAll (b.calls w)).2 := by
  induction b generalizing w with
  | give result => rfl
  | call c next ih => exact ih _ _
  | look next ih => exact ih _ _ w

end Body

/-! ### Closing what is left open -/

def missingClose (w : Writer) : List Call := if w.isClosed then [] else [.close]

lemma sink_closeIfOpen (w : Writer) : w.closeIfOpen.2 = (w.performAll w.missingClose).2.sink := by
  obtain ⟨b | t, n⟩ := w <;> rfl

lemma sink_closeIfOpen_eq (w : Writer) : w.closeIfOpen.2 = Ending.close.sink w := by
  obtain ⟨b | t, n⟩ := w <;> rfl

lemma closeIfOpen_of_closed {w : Writer} (h : w.isClosed = true) :
    w.closeIfOpen = (.ok (), w.release) := by
  rw [closeIfOpen, if_pos h]

lemma closeIfOpen_of_open {w : Writer} (h : w.isClosed = false) :
    w.closeIfOpen.1 = w.close.1 := by
  rw [closeIfOpen, h]
  rfl

lemma reported_ne_closed (outcome : Except Fault Unit) : reported outcome ≠ .error .closed := by
  cases outcome <;> simp [reported, Except.mapError]

lemma close_ne_closed {w : Writer} (h : w.isClosed = false) : w.close.1 ≠ .error .closed := by
  obtain ⟨b | t, n⟩ := w
  · exact reported_ne_closed _
  · cases h

/-- A writer is left open and closing it fails with a fault, or all is well. -/
lemma closeIfOpen_cases (w : Writer) :
    (∃ f, w.isClosed = false ∧ w.close.1 = .error (.fault f) ∧
        w.closeIfOpen.1 = .error (.fault f)) ∨
      (w.isClosed = true ∨ w.close.1 = .ok ()) ∧ w.closeIfOpen.1 = .ok () := by
  rcases hclosed : w.isClosed with _ | _
  · rw [closeIfOpen_of_open hclosed]
    rcases hclose : w.close.1 with (_ | f) | ⟨⟩
    · exact absurd hclose (close_ne_closed hclosed)
    · exact .inl ⟨f, rfl, rfl, rfl⟩
    · exact .inr ⟨.inr rfl, rfl⟩
  · rw [closeIfOpen_of_closed hclosed]
    exact .inr ⟨.inl rfl, rfl⟩

/-! ### Sessions -/

namespace Body

variable {ε α : Type} {raise : WriteError → ε} {b : Body ε α} {s : Sink}

/-- The writer as the body leaves it. -/
def left (b : Body ε α) (s : Sink) : Writer := ((ofSink s).performAll (b.calls (ofSink s))).2

lemma inSession_eq (raise : WriteError → ε) (b : Body ε α) (s : Sink) :
    b.inSession raise s =
      ((b.run (ofSink s)).1.bind fun a =>
          ((b.left s).closeIfOpen.1.mapError raise).map fun _ => a,
        (b.left s).closeIfOpen.2) := by
  rw [left, ← run_writer]
  rfl

lemma inSession_of_error {e : ε} (h : (b.run (ofSink s)).1 = .error e) :
    (b.inSession raise s).1 = .error e := by
  rw [inSession_eq, h]
  rfl

lemma inSession_of_ok (raise : WriteError → ε) {a : α} (h : (b.run (ofSink s)).1 = .ok a) :
    (∃ f, (b.left s).isClosed = false ∧ (b.left s).close.1 = .error (.fault f) ∧
        (b.inSession raise s).1 = .error (raise (.fault f))) ∨
      ((b.left s).isClosed = true ∨ (b.left s).close.1 = .ok ()) ∧
        (b.inSession raise s).1 = .ok a := by
  rw [inSession_eq, h]
  rcases (b.left s).closeIfOpen_cases with ⟨f, hopen, hclose, hclosing⟩ | ⟨hleft, hclosing⟩
  · exact .inl ⟨f, hopen, hclose, by rw [hclosing]; rfl⟩
  · exact .inr ⟨hleft, by rw [hclosing]; rfl⟩

/-- The sink of a session is that of the same calls made by hand, the missing close included. -/
lemma sink_inSession (raise : WriteError → ε) (b : Body ε α) (s : Sink) :
    (b.inSession raise s).2 =
      ((ofSink s).performAll (b.calls (ofSink s) ++ (b.left s).missingClose)).2.sink := by
  rw [inSession_eq, sink_closeIfOpen, performAll_append]
  rfl

/-- The sink of a session has received the file as far as it has room for it. -/
lemma received_inSession (raise : WriteError → ε) (b : Body ε α) (s : Sink) :
    (b.inSession raise s).2.received =
      s.received ++ s.admitted (rendered (written (b.calls (ofSink s)))) := by
  have hreached := (intact_ofSink s).performAll (b.calls (ofSink s))
  rw [inSession_eq, left, sink_closeIfOpen_eq, hreached.given_up .close, List.nil_append,
    Sink.received_push]

/-! ### Bodies that give up at the first error -/

/-- The body only writes, and it ends with an error as soon as a call fails. -/
inductive PassesOn : Body ε α → Prop
  | give (result : Except ε α) : PassesOn (give result)
  | write (e : Entry) {next : Except WriteError Unit → Body ε α}
      (fails : ∀ f, ∃ x, next (.error f) = .give (.error x))
      (goes : PassesOn (next (.ok ()))) : PassesOn (call (.write e) next)
  | look {next : Nat → Bool → Body ε α} (goes : ∀ n closed, PassesOn (next n closed)) :
      PassesOn (look next)

/-- **A body that gives up** ends with an error, or all its calls were writes and nothing is
lost. -/
lemma PassesOn.run_cases (hb : b.PassesOn) {w : Writer} {es : List Entry} (h : w.Intact s es) :
    (∃ x, (b.run w).1 = .error x) ∨
      ∃ fs, b.calls w = fs.map .write ∧ (b.run w).2.Intact s (es ++ fs) := by
  induction hb generalizing w es with
  | give result =>
    refine .inr ⟨[], rfl, ?_⟩
    rw [List.append_nil]
    exact h
  | @write e next fails goes ih =>
    have hwrite := h.write e
    rcases houtcome : w.write e with ⟨f | ⟨⟩, w'⟩
    · obtain ⟨x, hx⟩ := fails f
      refine .inl ⟨x, ?_⟩
      simp only [run, perform, houtcome, hx]
    · rw [houtcome] at hwrite
      simp only [run, calls, perform, houtcome]
      rcases ih hwrite with herror | ⟨fs, hcalls, hleft⟩
      · exact .inl herror
      · refine .inr ⟨e :: fs, by rw [hcalls, List.map_cons], ?_⟩
        rwa [List.append_cons]
  | look goes ih => exact ih w.entries w.isClosed h

/-- **No silent truncation.** When a session with such a body goes well, the sink has room for all
that the body wrote. -/
lemma PassesOn.fits (hb : b.PassesOn) {a : α} (hok : (b.inSession raise s).1 = .ok a) :
    ∃ es, b.calls (ofSink s) = es.map .write ∧ s.Fits (rendered es) := by
  rcases hb.run_cases (intact_ofSink s) with ⟨x, hx⟩ | ⟨es, hcalls, hleft⟩
  · rw [inSession_of_error hx] at hok
    cases hok
  · refine ⟨es, hcalls, ?_⟩
    have hintact : (b.left s).Intact s es := by
      rwa [List.nil_append, run_writer] at hleft
    have hopen : (b.left s).isClosed = false := by
      obtain ⟨_, hw, -⟩ := hintact
      rw [hw]
      rfl
    rcases hown : (b.run (ofSink s)).1 with x | a'
    · rw [inSession_of_error hown] at hok
      cases hok
    · rcases inSession_of_ok raise hown with ⟨f, -, -, hfault⟩ | ⟨hclosed | hclose, -⟩
      · rw [hok] at hfault
        cases hfault
      · rw [hopen] at hclosed
        cases hclosed
      · exact (hintact.close_eq_ok_iff.1 hclose).1

/-- Writes entries up to the first error, and then goes on. -/
def writing (raise : WriteError → ε) : List Entry → Body ε α → Body ε α
  | [], b => b
  | e :: es, b => call (.write e) fun
    | .error f => give (.error (raise f))
    | .ok () => writing raise es b

lemma PassesOn.writing (raise : WriteError → ε) (hb : b.PassesOn) (es : List Entry) :
    (b.writing raise es).PassesOn := by
  induction es with
  | nil => exact hb
  | cons e es ih => exact .write e (fun f => ⟨raise f, rfl⟩) ih

end Body

/-- **What a session delivers and reports.** The sink receives what it receives if the same calls
are made by hand and the writer is closed after them unless that has been done: the file with the
entries written before the first close, as far as there is room for it. An error of the body is the
error of the session. Otherwise the session reports the fault of closing, if the body left the
writer open and closing it fails, and the value of the body if not. If the body only writes and
gives up at the first error, a session that goes well has delivered the whole file. -/
theorem session_delivers_and_reports {ε α : Type} (raise : WriteError → ε) (b : Body ε α)
    (s : Sink) :
    let calls := b.calls (ofSink s)
    let left := ((ofSink s).performAll calls).2
    let own := (b.run (ofSink s)).1
    let r := b.inSession raise s
    r.2 = ((ofSink s).performAll (calls ++ if left.isClosed then [] else [.close])).2.sink ∧
      r.2.received = s.received ++ s.admitted (rendered (written calls)) ∧
      (∀ e, own = .error e → r.1 = .error e) ∧
      (∀ a, own = .ok a →
        (∃ f, left.isClosed = false ∧ left.close.1 = .error (.fault f) ∧
            r.1 = .error (raise (.fault f))) ∨
          (left.isClosed = true ∨ left.close.1 = .ok ()) ∧ r.1 = .ok a) ∧
      (b.PassesOn → ∀ a, r.1 = .ok a →
        ∃ es, calls = es.map .write ∧ r.2.received = s.received ++ rendered es) := by
  intro calls left own r
  have hreceived := b.received_inSession raise s
  refine ⟨b.sink_inSession raise s, hreceived, fun e h => Body.inSession_of_error h,
    fun a h => Body.inSession_of_ok raise h, fun hb a hok => ?_⟩
  obtain ⟨es, hcalls, hfit⟩ := hb.fits hok
  refine ⟨es, hcalls, ?_⟩
  rw [hreceived, hcalls, written_map_write, Sink.admitted_of_fits hfit]

/-- A body writes a message that just fits and counts it. Another one fails after writing, and so
does closing. -/
theorem session_delivers_and_reports_twenty :
    let s : Sink := { room := some 20 }
    let t : Sink := { s with flushFault := some ⟨.other, "flush failed"⟩ }
    let m : Entry := .message { text := "A" }
    let counted : Body String Nat :=
      (Body.look fun n _ => .give (.ok n)).writing WriteError.message [m]
    let failed : Body String Nat :=
      (Body.give (.error "extraction failed")).writing WriteError.message [m]
    (counted.PassesOn ∧ (counted.inSession WriteError.message s).1 = .ok 1 ∧
        (counted.inSession WriteError.message s).2.received = rendered [m]) ∧
      ((counted.run (ofSink t)).1 = .ok 1 ∧
        (counted.inSession WriteError.message t).1 = .error "flush failed") ∧
      (failed.run (ofSink t)).1 = .error "extraction failed" ∧
        (failed.inSession WriteError.message t).1 = .error "extraction failed" ∧
        (failed.inSession WriteError.message t).2.received = rendered [m] := by
  intro s t m counted failed
  have hpasses : counted.PassesOn := .writing _ (.look fun n _ => .give (.ok n)) [m]
  have hok : (counted.inSession WriteError.message s).1 = .ok 1 := by decide
  have hvalue : (counted.run (ofSink t)).1 = .ok 1 := by decide
  have herror : (failed.run (ofSink t)).1 = .error "extraction failed" := by decide
  obtain ⟨-, -, -, -, hwhole⟩ := session_delivers_and_reports WriteError.message counted s
  obtain ⟨es, hcalls, hreceived⟩ := hwhole hpasses 1 hok
  have hes : es = [m] := by
    rw [← written_map_write es, ← hcalls]
    decide
  obtain ⟨-, -, -, hreport, -⟩ := session_delivers_and_reports WriteError.message counted t
  have hfault : (counted.inSession WriteError.message t).1 = .error "flush failed" := by
    rcases hreport 1 hvalue with ⟨f, -, hclose, hr⟩ | ⟨hwell, -⟩
    · have hf : (Except.error (.fault ⟨.other, "flush failed"⟩) : Except WriteError Unit) =
          .error (.fault f) := .trans (by decide) hclose
      cases hf
      exact hr
    · exact absurd hwell (by decide)
  obtain ⟨-, hpart, hown, -, -⟩ := session_delivers_and_reports WriteError.message failed t
  refine ⟨⟨hpasses, hok, ?_⟩, ⟨hvalue, hfault⟩, herror, hown _ herror, hpart.trans (by decide)⟩
  rw [hreceived, hes]
  rfl

end LiquidCatalog.Po.Writer

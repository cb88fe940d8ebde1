import LiquidCatalog.Output.Buffer
import LiquidCatalog.Po.Entry

/-!
Writing entries to a sink.

A writer is open until it is closed, and it is closed once: a failed close closes it too. A failed
write leaves it open. Entries count when they are begun, after the empty line before them.
-/

namespace LiquidCatalog.Po

open Output

inductive WriteError where
  | closed
  | fault (f : Fault)
  deriving DecidableEq, Repr

def WriteError.message : WriteError → String
  | closed => "the PO writer is already closed"
  | fault f => f.message

inductive Channel where
  | opened (b : Buffer)
  | closed (s : Sink)

structure Writer where
  channel : Channel
  /-- The number of entries begun, the header included. -/
  entries : Nat := 0

namespace Writer

def ofSink (s : Sink) : Writer := { channel := .opened { sink := s } }

def isClosed (w : Writer) : Bool :=
  match w.channel with
  | .opened _ => false
  | .closed _ => true

def reported : Except Fault Unit → Except WriteError Unit := Except.mapError .fault

/-- Writes the empty line before an entry, if another entry stands before it. -/
def separate (entries : Nat) (b : Buffer) : Except Fault Unit × Buffer :=
  if entries = 0 then (.ok (), b) else b.putAll Line.blank.bytes

def write (e : Entry) (w : Writer) : Except WriteError Unit × Writer :=
  match w.channel with
  | .closed _ => (.error .closed, w)
  | .opened b =>
    match separate w.entries b with
    | (.error f, b) => (.error (.fault f), { w with channel := .opened b })
    | (.ok (), b) =>
      let (outcome, b) := b.putAll e.bytes
      (reported outcome, { channel := .opened b, entries := w.entries + 1 })

/-- Hands everything over, tells the sink to pass it on, and closes the writer. -/
def close (w : Writer) : Except WriteError Unit × Writer :=
  match w.channel with
  | .closed _ => (.error .closed, w)
  | .opened b =>
    let (outcome, b) := b.flush
    (reported (outcome.bind fun _ => b.sink.flush), { w with channel := .closed b.release })

/-- Gives up the writer. What is held goes to the sink as far as the sink takes it. -/
def release (w : Writer) : Sink :=
  match w.channel with
  | .opened b => b.release
  | .closed s => s

/-- Gives up the writer after handing everything over. -/
def finish (w : Writer) : Except WriteError Unit × Sink :=
  match w.channel with
  | .closed s => (.error .closed, s)
  | .opened b =>
    let (outcome, b) := b.flush
    (reported outcome, b.release)

inductive Call where
  | write (e : Entry)
  | close
  deriving DecidableEq, Repr

def perform : Call → Writer → Except WriteError Unit × Writer
  | .write e => write e
  | .close => close

/-- Performs all calls in turn, also after errors. -/
def performAll : List Call → Writer → List (Except WriteError Unit) × Writer
  | [], w => ([], w)
  | c :: cs, w =>
    let (outcome, w) := w.perform c
    let (outcomes, w) := performAll cs w
    (outcome :: outcomes, w)

def closeIfOpen (w : Writer) : Except WriteError Unit × Sink :=
  if w.isClosed then (.ok (), w.release)
  else
    let (outcome, w) := w.close
    (outcome, w.release)

/-- Runs a body with a new writer and closes the writer afterwards, whether the body failed or
not. The body's own error goes before one from closing. -/
def session {m : Type → Type} [Monad m] {ε α : Type} (raise : WriteError → ε)
    (body : Writer → m (Except ε α × Writer)) (s : Sink) : m (Except ε α × Sink) := do
  let (result, w) ← body (ofSink s)
  let (closing, s) := w.closeIfOpen
  return (result.bind fun a => (closing.mapError raise).map fun _ => a, s)

/-- Writes entries one after the other, up to the first error. -/
def writeAll : List Entry → Writer → Except WriteError Unit × Writer
  | [], w => (.ok (), w)
  | e :: es, w =>
    match w.write e with
    | (.error f, w) => (.error f, w)
    | (.ok (), w) => writeAll es w

end Writer

end LiquidCatalog.Po

import LiquidCatalog.Output.Sink

/-!
A buffer in front of a sink.

Small pieces are held back until a piece comes that does not fit. Then what is held goes to the
sink first, and a piece as large as the buffer itself goes straight to the sink. Bytes that the
sink does not take out of the buffer stay in it.
-/

namespace LiquidCatalog.Output

structure Buffer where
  held : List UInt8 := []
  sink : Sink

namespace Buffer

def capacity : Nat := 8192

def spare (b : Buffer) : Nat := capacity - b.held.length

def flush (b : Buffer) : Except Fault Unit × Buffer :=
  let (left, sink) := b.sink.push b.held
  (if left.isEmpty then .ok () else .error (sink.refuse "failed to write the buffered data"),
    ⟨left, sink⟩)

/-- Hands over what is held if `n` more bytes do not fit. -/
def makeRoom (n : Nat) (b : Buffer) : Except Fault Unit × Buffer :=
  if b.spare < n then b.flush else (.ok (), b)

def bypass (piece : List UInt8) (b : Buffer) : Except Fault Unit × Buffer :=
  let (left, sink) := b.sink.push piece
  (if left.isEmpty then .ok () else .error (sink.refuse "failed to write whole buffer"),
    { b with sink })

def put (piece : List UInt8) (b : Buffer) : Except Fault Unit × Buffer :=
  match b.makeRoom piece.length with
  | (.error f, b) => (.error f, b)
  | (.ok (), b) =>
    if capacity ≤ piece.length then b.bypass piece
    else (.ok (), { b with held := b.held ++ piece })

/-- Puts one piece after the other, up to the first fault. -/
def putAll : List (List UInt8) → Buffer → Except Fault Unit × Buffer
  | [], b => (.ok (), b)
  | piece :: pieces, b =>
    match b.put piece with
    | (.error f, b) => (.error f, b)
    | (.ok (), b) => putAll pieces b

/-- Gives the sink back, with as much of what is held as it takes. -/
def release (b : Buffer) : Sink := b.flush.2.sink

end Buffer

end LiquidCatalog.Output

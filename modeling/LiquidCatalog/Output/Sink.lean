/-!
Where bytes end up.

A sink receives bytes until it is full. A full sink refuses, or takes nothing and gives no reason.
-/

namespace LiquidCatalog.Output

inductive Fault.Kind where
  | brokenPipe
  | storageFull
  | permissionDenied
  | writeZero
  | other
  deriving DecidableEq, Repr

structure Fault where
  kind : Fault.Kind
  message : String
  deriving DecidableEq, Repr

structure Sink where
  received : List UInt8 := []
  /-- How many more bytes the sink takes, if there is a limit. -/
  room : Option Nat := none
  /-- What a full sink answers, unless it just takes nothing. -/
  refusal : Option Fault := none
  /-- What goes wrong when the sink is told to pass on what it has received. -/
  flushFault : Option Fault := none
  deriving DecidableEq, Repr

namespace Sink

/-- Hands bytes to the sink. Returns the bytes it did not take. -/
def push (bytes : List UInt8) (s : Sink) : List UInt8 × Sink :=
  match s.room with
  | none => ([], { s with received := s.received ++ bytes })
  | some n =>
    (bytes.drop n,
      { s with received := s.received ++ bytes.take n, room := some (n - bytes.length) })

/-- The fault reported when the sink did not take all bytes. -/
def refuse (s : Sink) (stalled : String) : Fault := s.refusal.getD ⟨.writeZero, stalled⟩

def flush (s : Sink) : Except Fault Unit :=
  match s.flushFault with
  | none => .ok ()
  | some f => .error f

end Sink

end LiquidCatalog.Output

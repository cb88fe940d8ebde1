import LiquidCatalog.Catalog
import LiquidCatalog.Po.Writer

/-!
A catalog as a PO file.
-/

namespace LiquidCatalog

open Output Po

def Catalog.poEntries (header : Option Header) (c : Catalog) : List Entry :=
  header.toList.map .header ++ c.toList.map .message

/-- Writes the file to a sink. Returns the number of entries written. -/
def Catalog.writePo (header : Option Header) (c : Catalog) (s : Sink) :
    Except WriteError Nat × Sink :=
  Id.run <| Writer.session id (fun w =>
    let (outcome, w) := w.writeAll (c.poEntries header)
    pure (outcome.map fun _ => w.entries, w)) s

end LiquidCatalog

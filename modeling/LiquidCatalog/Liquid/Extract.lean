import LiquidCatalog.Liquid.Block
import LiquidCatalog.Liquid.Marker
import LiquidCatalog.Provenance

/-!
The messages of a template.

Every marker gives a message, unless it starts inside a block or its literal is empty.
-/

namespace LiquidCatalog.Liquid

open Text

/-- The markers that give a message. -/
def visibleMarkers (s : List Char) : List (Occurrence (List Char)) :=
  let hidden := blocks s
  (markers s).filter fun m => !m.value.isEmpty && !hidden.any fun b => b.Covers m.start

def message (p : Provenance) (file : String) (s : List Char) (m : Occurrence (List Char)) :
    Message :=
  let e : Expression := ⟨file, String.ofList (m.source s)⟩
  { text := String.ofList m.value, context := some (p.context e), locations := [p.location e] }

def extract (p : Provenance) (file content : String) : List Message :=
  let s := content.toList
  (visibleMarkers s).map (message p file s)

end LiquidCatalog.Liquid

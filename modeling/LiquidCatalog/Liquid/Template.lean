import LiquidCatalog.Catalog
import LiquidCatalog.Liquid.Extract

/-!
The catalog of a set of templates.
-/

namespace LiquidCatalog

structure Template where
  path : String
  content : String
  deriving DecidableEq, Repr

def Template.messages (p : Provenance) (t : Template) : List Message :=
  Liquid.extract p t.path t.content

/-- Gathers the messages of templates, template by template. -/
def Catalog.ofTemplates (p : Provenance) (ts : List Template) : Catalog :=
  Catalog.ofList (ts.flatMap (·.messages p))

end LiquidCatalog

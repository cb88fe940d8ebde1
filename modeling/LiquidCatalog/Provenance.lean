import LiquidCatalog.Message
import LiquidCatalog.Path

/-!
Where the messages of a template come from.

The context of a message is the path of its template relative to a base path, without the
extension `.liquid` and with a dot for each separator. Its location is the relative path itself.
-/

namespace LiquidCatalog

/-- A marked expression in a template. -/
structure Expression where
  file : String
  source : String

/-- How the context and the location of an expression are found. -/
structure Provenance where
  context : Expression → String
  location : Expression → Location

/-- The text that is taken off the front of template paths. -/
structure BasePath where
  text : String

namespace BasePath

def relative (b : BasePath) (path : String) : String :=
  String.ofList (Path.relative b.text.toList path.toList)

def context (b : BasePath) (path : String) : String :=
  String.ofList (Path.dotted (Path.withoutExtension (Path.relative b.text.toList path.toList)))

def location (b : BasePath) (path : String) : Location := { file := b.relative path }

def provenance (b : BasePath) : Provenance where
  context e := b.context e.file
  location e := b.location e.file

end BasePath

end LiquidCatalog

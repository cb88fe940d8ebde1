import LiquidCatalog.Failure
import LiquidCatalog.FileSystem
import LiquidCatalog.FileTree.Templates
import LiquidCatalog.Liquid.Template
import LiquidCatalog.Po.Catalog

/-!
Extracting the messages of all templates below a directory into a PO file.

Every template is read before anything is written, so a template that cannot be read leaves the
file system as it was.
-/

namespace LiquidCatalog

structure Job where
  input : String
  output : String := "messages.pot"
  /-- What is taken off template paths, if it is not the input directory. -/
  basePath : Option String := none
  project : Option String := none
  language : String := "en"
  hasHeader : Bool := true
  deriving DecidableEq, Repr

namespace Job

def base (j : Job) : BasePath := ⟨j.basePath.getD (Path.asDirectory j.input)⟩

def header (j : Job) (creationDate : String) : Option Po.Header :=
  if j.hasHeader then
    some { Po.Header.template creationDate with
      projectIdVersion := j.project.getD "", language := j.language }
  else none

end Job

section

variable {m : Type → Type} [Monad m] {α : Type} [FileSystem m α]

def readTemplate (path : String) : ExceptT Failure m Template := do
  match ← (FileSystem.read path : m _) with
  | .error e => throw (.unreadable path e)
  | .ok bytes =>
    match Text.ofUtf8? bytes with
    | none => throw (.unreadable path .notText)
    | some content => return ⟨path, content⟩

/-- Adds the messages of the template at a path to a catalog, and counts them. -/
def extractFile (p : Provenance) (path : String) (c : Catalog) :
    ExceptT Failure m (Nat × Catalog) := do
  let found := (← readTemplate path).messages p
  return (found.length, c.insertMany found)

def findTemplates (directory : String) : ExceptT Failure m (List String) := do
  match ← (FileSystem.search directory : m _) with
  | .error e => throw (.ofSearch directory e)
  | .ok entries => return templatePaths directory entries

def readCatalog (j : Job) : ExceptT Failure m Catalog := do
  let paths ← findTemplates j.input
  paths.foldlM (fun c path => return (← extractFile j.base.provenance path c).2) ∅

/-- Writes a PO file, together with the directories that it lies in. -/
def saveCatalog (path : String) (header : Option Po.Header) (c : Catalog) :
    ExceptT Failure m Unit := do
  let parents := Path.parents path
  match ← (FileSystem.makeDirectories parents : m _) with
  | .error e => throw (.uncreatable (parents.headD "") e)
  | .ok () => pure ()
  let (outcome, sink) := c.writePo header {}
  match ← (FileSystem.save path sink.received : m _), outcome with
  | .error (.create e), _ => throw (.uncreatable path e)
  | .error (.write f), _ => throw (.writing path (.fault f))
  | .ok (), .error e => throw (.writing path e)
  | .ok (), .ok _ => return ()

def Job.run (j : Job) (creationDate : String) : ExceptT Failure m Unit := do
  let c ← (readCatalog j : ExceptT Failure m _).adapt .extracting
  saveCatalog j.output (j.header creationDate) c

end

end LiquidCatalog

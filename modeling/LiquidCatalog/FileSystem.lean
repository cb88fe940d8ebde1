import LiquidCatalog.FileTree.Operations
import LiquidCatalog.Output.Sink

/-!
What an extraction asks of a file system.

The file system may be the one the program runs on or a file tree. A listing of directories need
not say what is in the files: `α` is what it does say.
-/

namespace LiquidCatalog

inductive SaveError where
  /-- The file could not be opened for writing. -/
  | create (e : FileError)
  /-- The file was opened, and writing to it failed. -/
  | write (f : Output.Fault)
  deriving DecidableEq, Repr

class FileSystem (m : Type → Type) (α : outParam Type) where
  /-- The entries of a directory and all that is below. -/
  search : String → m (Except SearchError (List (String × Node α)))
  read : String → m (Except FileError (List UInt8))
  /-- Makes sure of the first directory; each further path is that of the one it lies in. -/
  makeDirectories : List String → m (Except FileError Unit)
  save : String → List UInt8 → m (Except SaveError Unit)

/-- A file tree as the file system of a computation that may change it. -/
instance : FileSystem (StateM FileTree) (List UInt8) where
  search path := return (← get).search path
  read path := return (← get).read path
  makeDirectories paths := modifyGet (FileTree.makeDirectories paths)
  save path content := do
    match (← get).save path content with
    | .ok t => set t; return .ok ()
    | .error e => return .error (.create e)

end LiquidCatalog

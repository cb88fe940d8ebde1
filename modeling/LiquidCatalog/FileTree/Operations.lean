import LiquidCatalog.FileTree.Resolve
import LiquidCatalog.FileTree.Templates

/-!
Reading and changing a file tree by paths.
-/

namespace LiquidCatalog

/-- Why what is below a directory could not be found. -/
inductive SearchError where
  | notDirectory
  /-- A directory further down could not be opened. -/
  | unopened (path : String) (cause : FileError)
  deriving DecidableEq, Repr

namespace FileTree

def directory? (t : FileTree) (path : String) : Option (List (String × Node (List UInt8))) :=
  match t.resolve .use path with
  | .ok (.found _ (.dir es)) => some es
  | _ => none

/-- The entries of a directory and all that is below. The directories there are opened by their
paths, in the order of the search, and such a path can be too long. -/
def search (t : FileTree) (path : String) :
    Except SearchError (List (String × Node (List UInt8))) := do
  match t.directory? path with
  | none => throw .notDirectory
  | some es =>
    (directoryPaths path es).forM fun path => (checkPath path).mapError (.unopened path)
    return es

def read (t : FileTree) (path : String) : Except FileError (List UInt8) := do
  match ← t.resolve .use path with
  | .found _ (.file content) => return content
  | .found _ (.dir _) => throw .isDirectory
  | _ => throw .missing

def put (t : FileTree) (place : List String) (n : Node (List UInt8)) : FileTree :=
  { t with root := t.root.set place n }

/-- Makes the content of a file, which may be new; an old content is dropped. -/
def save (t : FileTree) (path : String) (content : List UInt8) : Except FileError FileTree := do
  match ← t.resolve .make path with
  | .found _ (.dir _) => throw .isDirectory
  | .found place _ => return t.put place (.file content)
  | .vacant place name => return t.put (place ++ [name]) (.file content)

/-- Makes a directory or a link. Nothing may be there yet, not even a link that leads nowhere. -/
def make (t : FileTree) (path : String) (n : Node (List UInt8)) : Except FileError FileTree := do
  checkPath path
  match (Path.segments path).reverse.dropWhile (· = "") with
  | [] => throw .alreadyExists
  | name :: before =>
    match ← trail t.root .use maxLinks (t.start path) before.reverse with
    | .found place (.dir es) =>
      if name = "." ∨ name = ".." then throw .alreadyExists
      if 255 < name.utf8ByteSize then throw .nameTooLong
      if (es.lookup name).isSome then throw .alreadyExists
      return t.put (place ++ [name]) n
    | .found _ _ => throw .notDirectory
    | .vacant _ _ => throw .missing

def makeDirectory (t : FileTree) (path : String) : Except FileError FileTree :=
  t.make path (.dir [])

/-- Makes sure of a directory at the first of the paths. Each further path is that of the directory
which the one before it lies in. -/
def makeDirectories : List String → FileTree → Except FileError Unit × FileTree
  | [], t => (.ok (), t)
  | path :: parents, t =>
    match t.makeDirectory path with
    | .ok t => (.ok (), t)
    | .error .missing =>
      match makeDirectories parents t with
      | (.error e, t) => (.error e, t)
      | (.ok (), t) =>
        match t.makeDirectory path with
        | .ok t => (.ok (), t)
        | .error e => (if (t.directory? path).isSome then .ok () else .error e, t)
    | .error e => (if (t.directory? path).isSome then .ok () else .error e, t)

end FileTree

end LiquidCatalog

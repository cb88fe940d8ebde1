import Std.Time
import LiquidCatalog.Cli.Run

/-!
The program on the file system it runs on.
-/

namespace LiquidCatalog

/-- The failure with a number, which some calls report with the sign changed. -/
def FileError.ofNumber (code : UInt32) (details : String) : FileError :=
  match if code < 0x80000000 then code else -code with
  | 20 => .notDirectory
  | 21 => .isDirectory
  | 36 => .nameTooLong
  | 40 => .tooManyLinks
  | number => .other (details ++ " (os error " ++ toString number ++ ")")

def FileError.ofSystem : IO.Error → FileError
  | .noFileOrDirectory .. => .missing
  | .alreadyExists .. => .alreadyExists
  | .inappropriateType _ code details => .ofNumber code details
  | .invalidArgument _ code details => .ofNumber code details
  | .permissionDenied _ code details => .ofNumber code details
  | e => .other e.toString

def Output.Fault.ofSystem (e : IO.Error) : Output.Fault := ⟨.other, e.toString⟩

/-- What an operation comes to, with a failure that is told by `f`. -/
def attempt {α ε : Type} (f : FileError → ε) (x : IO α) : ExceptT ε IO α := do
  match ← (x.toBaseIO : BaseIO _) with
  | .ok a => return a
  | .error e => throw (f (.ofSystem e))

/-- The path itself, as an entry of nothing. -/
def entryAt (path : String) : IO.FS.DirEntry := { root := path, fileName := "" }

/-- The entries of a directory and all that is below, in the order of their names. What is neither
a file nor a directory nor a link is left out. What an entry is, is asked for by its path, so a file
with too long a path ends the listing as well. -/
partial def listDirectory (path : String) :
    ExceptT SearchError IO (List (String × Node Unit)) := do
  let entries ← attempt (.unopened path) (entryAt path).root.readDir
  let names := (entries.toList.map (·.fileName)).mergeSort
  names.flatMapM fun name => do
    let place := Path.join path name
    match (← attempt (.unopened place) (entryAt place).root.symlinkMetadata).type with
    | .file => return [(name, .file ())]
    | .symlink => return [(name, .link "")]
    | .dir => return [(name, .dir (← listDirectory place))]
    | .other => return []

instance : FileSystem IO Unit where
  search path := ExceptT.run do
    let m ← attempt (fun _ => .notDirectory) (entryAt path).root.metadata
    if m.type matches .dir then listDirectory path else throw .notDirectory
  read path := return (← (attempt id (IO.FS.readBinFile path)).run).map ByteArray.toList
  makeDirectories
    | [] => return .ok ()
    | path :: _ => (attempt id (IO.FS.createDirAll path)).run
  save path content := do
    let handle ←
      try pure (Except.ok (← IO.FS.Handle.mk path .write))
      catch e => pure (.error (.ofSystem e))
    match handle with
    | .error e => return .error (.create e)
    | .ok handle =>
      try
        handle.write content.toByteArray
        return .ok ()
      catch e => return .error (.write (.ofSystem e))

def readEnvironment : IO (String → Option String) := do
  let names := [Cli.Setting.input, .output, .basePath, .project, .language].map (·.environmentName)
  let values ← names.mapM fun name => return (name, ← IO.getEnv name)
  return fun name => (values.lookup name).join

def runHere (arguments : List String) : IO UInt32 := do
  let now ← Std.Time.DateTime.now
  let creationDate := now.format "uuuu-MM-dd'T'HH:mm:ssXXX"
  let outcome ← Cli.run arguments (← readEnvironment) creationDate
  IO.print outcome.output
  IO.eprint outcome.errors
  return outcome.exitCode

end LiquidCatalog

def main (arguments : List String) : IO UInt32 := LiquidCatalog.runHere arguments

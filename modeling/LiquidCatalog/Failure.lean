import LiquidCatalog.FileTree.Operations
import LiquidCatalog.Po.Writer

/-!
Why an extraction failed, and how that is told.

A failure is told from the outside in: what was being done, and then what went wrong below it.
-/

namespace LiquidCatalog

inductive Failure where
  | notDirectory (path : String)
  /-- A directory below the one that was searched could not be opened. -/
  | unsearchable (directory path : String) (cause : FileError)
  | unreadable (path : String) (cause : FileError)
  /-- Something failed before all messages were extracted. -/
  | extracting (cause : Failure)
  /-- A directory or file could not be made. -/
  | uncreatable (path : String) (cause : FileError)
  | writing (path : String) (cause : Po.WriteError)
  deriving DecidableEq, Repr

namespace Failure

def ofSearch (directory : String) : SearchError → Failure
  | .notDirectory => notDirectory directory
  | .unopened path cause => unsearchable directory path cause

/-- The failure and its causes, each as one text, outermost first. -/
def chain : Failure → List String
  | notDirectory path => [path ++ " is not a directory"]
  | unsearchable directory path cause =>
    ["Could not walk " ++ directory,
      "IO error for operation on " ++ path ++ ": " ++ cause.message, cause.message]
  | unreadable path cause => ["Could not read " ++ path, cause.message]
  | extracting cause => "Extracting messages" :: cause.chain
  | uncreatable path cause => ["Could not create " ++ path, cause.message]
  | writing path cause => ["Writing messages to " ++ path, cause.message]

/-- Moves all lines of a text but the first to the right. -/
def hang (margin s : String) : String :=
  String.ofList (s.toList.flatMap fun c => if c = '\n' then '\n' :: margin.toList else [c])

/-- The number of a cause, set to the right in five columns, and the cause. -/
def numbered (cause : String × Nat) : String :=
  let number := toString cause.2
  String.ofList (List.replicate (5 - number.length) ' ') ++ number ++ ": " ++
    hang "       " cause.1

/-- The lines about the causes. Several causes are numbered from zero. -/
def causeLines : List String → List String
  | [cause] => ["    " ++ hang "    " cause]
  | causes => causes.zipIdx.map numbered

/-- The failure with its causes below it. -/
def report (f : Failure) : String :=
  match f.chain with
  | [] => ""
  | [outer] => outer
  | outer :: causes => outer ++ "\n\nCaused by:\n" ++ "\n".intercalate (causeLines causes)

/-- The failure and its causes in one row. -/
def inline (f : Failure) : String := ": ".intercalate f.chain

end Failure

end LiquidCatalog

/-!
Paths as text.

A path is a row of segments with slashes between them. Empty segments and `.` name no step, except
that a relative path may begin with `.`.
-/

namespace LiquidCatalog.Path

/-- The path without the base in front of it; a path that does not begin with the base, taken as
plain text, stays whole. -/
def relative (base path : List Char) : List Char := (base.isPrefixOf? path).getD path

def withoutExtension (path : List Char) : List Char :=
  (".liquid".toList.isSuffixOf? path).getD path

def dotted (path : List Char) : List Char := path.map fun c => if c = '/' then '.' else c

def segments (path : String) : List String := (path.toList.splitOn '/').map String.ofList

def isAbsolute (path : String) : Bool := path.toList.head? = some '/'

/-- The directory as the beginning of the paths below it: with a slash at its end. -/
def asDirectory (path : String) : String :=
  if path.toList.getLast? = some '/' then path else path ++ "/"

/-- The path of an entry of a directory. A slash stands between the two, unless the path of the
directory is empty or ends in one. -/
def join (directory name : String) : String :=
  if directory = "" ∨ directory.toList.getLast? = some '/' then directory ++ name
  else directory ++ "/" ++ name

/-- The path of what the names lead to below a directory, joined from entry to entry. -/
def below (directory : String) (names : List String) : String := names.foldl join directory

/-- The segments of a path that follow its leading slash, each with whether it names a step. -/
def steps (path : String) : List (String × Bool) :=
  if isAbsolute path then (segments path).tail.map fun s => (s, s ≠ "" && s ≠ ".")
  else (segments path).zipIdx.map fun (s, i) => (s, s ≠ "" && (s ≠ "." || i = 0))

/-- Steps in reverse up to each step that precedes another, nearest first. -/
def enclosing : List (String × Bool) → List (List (String × Bool))
  | [] => []
  | (_, isStep) :: before =>
    if isStep then before.dropWhile (fun s => !s.2) :: enclosing before else enclosing before

/-- The paths of the directories that a path lies in, nearest first. The working directory, which
relative paths lie in, is not among them. -/
def parents (path : String) : List String :=
  let root := if isAbsolute path then "/" else ""
  let texts := (enclosing (steps path).reverse).map fun before =>
    root ++ "/".intercalate (before.reverse.map (·.1))
  texts.filter (· ≠ "")

end LiquidCatalog.Path

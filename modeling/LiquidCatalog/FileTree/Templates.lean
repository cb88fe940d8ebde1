import LiquidCatalog.FileTree.Node
import LiquidCatalog.Path

/-!
The templates and the directories below a directory.

A template is a file whose name ends in `.liquid` and has something before it. Directories are
entered whatever they are called, symbolic links are passed over, and the entries of a directory
are visited in the order of their names.
-/

namespace LiquidCatalog

def isTemplateName (name : String) : Bool :=
  ".liquid".toList.isSuffixOf name.toList && name ≠ ".liquid"

namespace Node

variable {α : Type}

def isTemplate (name : String) : Node α → Bool
  | file _ => isTemplateName name
  | _ => false

/-- Brings branches into the order of their names and joins them. -/
def inOrder (branches : List (String × List (List String))) : List (List String) :=
  (branches.mergeSort fun a b => a.1 ≤ b.1).flatMap (·.2)

def ownPlace (p : String → Node α → Bool) (name : String) (n : Node α) : List (List String) :=
  if p name n then [[name]] else []

mutual

/-- The places at and below a node with a name where `p` holds of the last name and the node, a
directory before what is in it. They begin with the name. -/
def placesAt (p : String → Node α → Bool) (name : String) : Node α → List (List String)
  | file content => ownPlace p name (file content)
  | link target => ownPlace p name (link target)
  | dir es => ownPlace p name (dir es) ++ (inOrder (branches p es)).map (name :: ·)

def branches (p : String → Node α → Bool) :
    List (String × Node α) → List (String × List (List String))
  | [] => []
  | (name, n) :: es => (name, placesAt p name n) :: branches p es

end

def places (p : String → Node α → Bool) (es : List (String × Node α)) : List (List String) :=
  inOrder (branches p es)

def templates (es : List (String × Node α)) : List (List String) := places isTemplate es

def directories (es : List (String × Node α)) : List (List String) := places (fun _ n => n.isDir) es

end Node

variable {α : Type}

/-- The paths of the templates below a directory, in terms of the directory's own path. -/
def templatePaths (directory : String) (es : List (String × Node α)) : List String :=
  (Node.templates es).map (Path.below directory)

def directoryPaths (directory : String) (es : List (String × Node α)) : List String :=
  (Node.directories es).map (Path.below directory)

end LiquidCatalog

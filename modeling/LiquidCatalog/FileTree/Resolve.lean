import LiquidCatalog.FileTree.Node
import LiquidCatalog.Path

/-!
Following a path through a file tree.

A path is walked segment by segment from the root or from the working directory. Every segment,
also an empty one or a dot, needs a directory to be walked from. A symbolic link on the way is
replaced by the segments of its target.
-/

namespace LiquidCatalog

inductive FileError where
  | missing
  | notDirectory
  | isDirectory
  | alreadyExists
  | nameTooLong
  | tooManyLinks
  /-- The path has a character that no path may have. -/
  | nulInPath
  /-- The file's bytes are not UTF-8. -/
  | notText
  /-- Any other failure that the system reports, in its words. -/
  | other (message : String)
  deriving DecidableEq, Repr

def FileError.message : FileError → String
  | missing => "No such file or directory (os error 2)"
  | notDirectory => "Not a directory (os error 20)"
  | isDirectory => "Is a directory (os error 21)"
  | alreadyExists => "File exists (os error 17)"
  | nameTooLong => "File name too long (os error 36)"
  | tooManyLinks => "Too many levels of symbolic links (os error 40)"
  | nulInPath => "file name contained an unexpected NUL byte"
  | notText => "stream did not contain valid UTF-8"
  | other message => message

structure FileTree where
  root : Node (List UInt8)
  workingDirectory : List String := []

namespace FileTree

/-- Where a path leads: to a node, or to a name that is free in a directory. -/
inductive Destination where
  | found (place : List String) (n : Node (List UInt8))
  | vacant (directory : List String) (name : String)

/-- What the last segment of a path is looked up for. -/
inductive Purpose where
  | use
  /-- To make a file of that name: the path must not end in a slash. -/
  | make
  deriving DecidableEq

abbrev Trail := List String → List String → Except FileError Destination

/-- Walks segments from a place. A link is handed to `onLink`: where to go on, and with what. -/
def walk (root : Node (List UInt8)) (purpose : Purpose) (onLink : Trail) : Trail
  | place, [] =>
    match root.get? place with
    | some n => .ok (.found place n)
    | none => .error .missing
  | place, s :: rest =>
    match root.get? place with
    | some (.dir es) =>
      if s = "" ∨ s = "." then walk root purpose onLink place rest
      else if s = ".." then walk root purpose onLink place.dropLast rest
      else if purpose = .make ∧ rest ≠ [] ∧ rest.all (· = "") then .error .isDirectory
      else if 255 < s.utf8ByteSize then .error .nameTooLong
      else
        match es.lookup s with
        | some (.link target) =>
          onLink (if Path.isAbsolute target then [] else place) (Path.segments target ++ rest)
        | some _ => walk root purpose onLink (place ++ [s]) rest
        | none => if rest.all (· = "") then .ok (.vacant place s) else .error .missing
    | _ => .error .notDirectory

/-- Walks segments across at most `links` links. -/
def trail (root : Node (List UInt8)) (purpose : Purpose) : Nat → Trail
  | 0 => walk root purpose fun _ _ => .error .tooManyLinks
  | links + 1 => walk root purpose (trail root purpose links)

def maxLinks : Nat := 40

def checkPath (path : String) : Except FileError Unit :=
  if path.toList.contains '\x00' then .error .nulInPath
  else if path.isEmpty then .error .missing
  else if 4096 ≤ path.utf8ByteSize then .error .nameTooLong
  else .ok ()

def start (t : FileTree) (path : String) : List String :=
  if Path.isAbsolute path then [] else t.workingDirectory

def resolve (t : FileTree) (purpose : Purpose) (path : String) : Except FileError Destination := do
  checkPath path
  trail t.root purpose maxLinks (t.start path) (Path.segments path)

end FileTree

end LiquidCatalog

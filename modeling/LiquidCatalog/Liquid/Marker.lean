import LiquidCatalog.Liquid.Tag
import LiquidCatalog.Text.Occurrences
import LiquidCatalog.Text.Word

/-!
Markers: the places where a template has a text to be translated.

A marker begins an output or an assignment, has a string literal as its first value, pipes the
literal into the filter `t`, and ends with what shows that the filter's name is complete: a colon,
a bar or a closing bracket.
-/

namespace LiquidCatalog.Liquid

open Text

/-- Characters that the name in an assignment may have. -/
def isNameChar (c : Char) : Bool := isWord c || c = '.' || c = '-'

/-- Reads one or more characters of a class, as many as there are. -/
def skipSome? (p : Char → Bool) : List Char → Option (List Char)
  | [] => none
  | c :: s => if p c then some (s.dropWhile p) else none

namespace Marker

def assignment? (s : List Char) : Option (List Char) := do
  let s ← tagStart? s
  let s ← "assign".toList.isPrefixOf? s
  let s ← skipSome? isBlank s
  let s ← skipSome? isNameChar s
  let s ← "=".toList.isPrefixOf? (skipBlanks s)
  return skipBlanks s

def opening? : List Char → Option (List Char)
  | '{' :: '{' :: s => some (skipBlanks (skipHyphen s))
  | s => assignment? s

def untilQuote? (quote : Char) (s : List Char) : Option (List Char × List Char) :=
  match s.dropWhile (· != quote) with
  | [] => none
  | _ :: rest => some (s.takeWhile (· != quote), rest)

/-- Reads a string literal. Nothing is escaped in it: it ends at the next quote of its kind. -/
def literal? : List Char → Option (List Char × List Char)
  | '"' :: s => untilQuote? '"' s
  | '\'' :: s => untilQuote? '\'' s
  | _ => none

def finish? (s : List Char) : Option (List Char) :=
  match s with
  | ':' :: s => some s
  | '|' :: s => some s
  | s =>
    match skipHyphen s with
    | '}' :: '}' :: s => some s
    | '%' :: '}' :: s => some s
    | _ => none

def filter? (s : List Char) : Option (List Char) := do
  let s ← "|".toList.isPrefixOf? (skipBlanks s)
  let s ← "t".toList.isPrefixOf? (skipBlanks s)
  finish? (skipBlanks s)

/-- Reads a marker; its value is the text between the quotes. -/
def read? : Reader (List Char) := fun s => do
  let s ← opening? s
  let (text, s) ← literal? s
  let s ← filter? s
  return (text, s)

end Marker

def markers (s : List Char) : List (Occurrence (List Char)) := occurrences Marker.read? s

end LiquidCatalog.Liquid

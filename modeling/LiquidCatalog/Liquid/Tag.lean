import LiquidCatalog.Text.Blank

/-!
Tags: what stands between `{%` and `%}` in a template.

A hyphen may stand directly inside either bracket, and blanks around what the tag says. Each
function here reads one part off the front of a text and returns the text that is left.
-/

namespace LiquidCatalog.Liquid

open Text

def skipBlanks (s : List Char) : List Char := s.dropWhile isBlank

def skipHyphen : List Char → List Char
  | '-' :: s => s
  | s => s

def tagStart? : List Char → Option (List Char)
  | '{' :: '%' :: s => some (skipBlanks (skipHyphen s))
  | _ => none

/-- Reads the blanks before the closing bracket and the bracket. -/
def tagEnd? (s : List Char) : Option (List Char) :=
  match skipHyphen (skipBlanks s) with
  | '%' :: '}' :: s => some s
  | _ => none

def wordTag? (word : String) (s : List Char) : Option (List Char) := do
  let s ← tagStart? s
  let s ← word.toList.isPrefixOf? s
  tagEnd? s

end LiquidCatalog.Liquid

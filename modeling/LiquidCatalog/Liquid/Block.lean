import LiquidCatalog.Liquid.Tag
import LiquidCatalog.Text.Occurrences

/-!
Comment and raw blocks, whose content is never rendered.

A block runs from its opening tag to the first closing tag of the same kind after it. Tags of the
other kind inside it are content, and an opening tag that is never closed begins no block.
-/

namespace LiquidCatalog.Liquid

open Text

inductive Block where
  | comment
  | raw
  deriving DecidableEq, Repr

namespace Block

def opening? : Block → List Char → Option (List Char)
  | comment => wordTag? "comment"
  | raw => wordTag? "raw"

def closing? : Block → List Char → Option (List Char)
  | comment => wordTag? "endcomment"
  | raw => wordTag? "endraw"

/-- What follows the first closing tag of a block. -/
def afterClosing? (b : Block) : List Char → Option (List Char)
  | [] => none
  | c :: s =>
    match b.closing? (c :: s) with
    | some rest => some rest
    | none => afterClosing? b s

def body? (b : Block) (s : List Char) : Option (List Char) := do
  let s ← b.opening? s
  b.afterClosing? s

def read? : Reader Block := fun s =>
  match comment.body? s with
  | some rest => some (comment, rest)
  | none => (raw.body? s).map (raw, ·)

end Block

def blocks (s : List Char) : List (Occurrence Block) := occurrences Block.read? s

end LiquidCatalog.Liquid

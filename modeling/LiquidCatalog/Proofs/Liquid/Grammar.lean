import Mathlib.Data.List.Infix
import LiquidCatalog.Liquid.Extract

/-!
The written forms of markers and of blocks.

A form records all that its writer may choose: hyphens, blanks, quotes, the name of a variable, the
end. Its characters are what stands in a template. Whether a stretch of a template is a marker or a
block is a matter of these characters alone.
-/

namespace LiquidCatalog.Liquid

open Text

/-- Blanks, perhaps none. -/
structure Blanks where
  chars : List Char
  isBlank_of_mem : ∀ c ∈ chars, isBlank c = true

def Blanks.space : Blanks := ⟨[' '], List.forall_mem_singleton.2 (by decide)⟩

/-- The hyphen in a bracket that trims the blanks outside it. -/
def hyphen (trims : Bool) : List Char := if trims then ['-'] else []

/-! ### Markers -/

namespace Marker

structure Name where
  chars : List Char
  ne_nil : chars ≠ []
  isNameChar_of_mem : ∀ c ∈ chars, isNameChar c = true

/-- What stands in front of the literal. -/
inductive Opening where
  | output (trims : Bool) (gap : Blanks)
  | assignment (trims : Bool) (lead gap : Blanks) (gap_ne_nil : gap.chars ≠ []) (name : Name)
      (before after : Blanks)

def Opening.chars : Opening → List Char
  | output trims gap => '{' :: '{' :: (hyphen trims ++ gap.chars)
  | assignment trims lead gap _ name before after =>
    '{' :: '%' :: (hyphen trims ++ (lead.chars ++ ("assign".toList ++ (gap.chars ++
      (name.chars ++ (before.chars ++ '=' :: after.chars))))))

inductive Quote where
  | double
  | single

def Quote.char : Quote → Char
  | double => '"'
  | single => '\''

/-- A string literal: any text without the quote that ends it. -/
structure Literal where
  quote : Quote
  text : List Char
  quote_not_mem : quote.char ∉ text

def Literal.chars (l : Literal) : List Char := l.quote.char :: (l.text ++ [l.quote.char])

/-- What shows that the name of the filter is complete. -/
inductive Finish where
  | arguments
  | filter
  | outputEnd (trims : Bool)
  | tagEnd (trims : Bool)

def Finish.chars : Finish → List Char
  | arguments => [':']
  | filter => ['|']
  | outputEnd trims => hyphen trims ++ ['}', '}']
  | tagEnd trims => hyphen trims ++ ['%', '}']

structure Form where
  opening : Opening
  literal : Literal
  beforeBar : Blanks
  afterBar : Blanks
  afterName : Blanks
  finish : Finish

namespace Form

def text (f : Form) : List Char := f.literal.text

def filterChars (f : Form) : List Char :=
  f.beforeBar.chars ++ '|' :: (f.afterBar.chars ++ 't' :: (f.afterName.chars ++ f.finish.chars))

def chars (f : Form) : List Char := f.opening.chars ++ (f.literal.chars ++ f.filterChars)

end Form

end Marker

/-! ### Blocks -/

/-- The written form of a tag that consists of one word. -/
structure Tag (word : String) where
  trimsBefore : Bool
  before : Blanks
  after : Blanks
  trimsAfter : Bool

/-- What follows the opening bracket of a tag. -/
def Tag.inner {word : String} (t : Tag word) : List Char :=
  hyphen t.trimsBefore ++ (t.before.chars ++ (word.toList ++ (t.after.chars ++
    (hyphen t.trimsAfter ++ ['%', '}']))))

def Tag.chars {word : String} (t : Tag word) : List Char := '{' :: '%' :: t.inner

namespace Block

def word : Block → String
  | comment => "comment"
  | raw => "raw"

def endWord : Block → String
  | comment => "endcomment"
  | raw => "endraw"

/-- The written form of a block. Its body has no closing tag of its kind. -/
structure Form (b : Block) where
  opening : Tag b.word
  body : List Char
  closing : Tag b.endWord
  not_infix_body : ∀ t : Tag b.endWord, ¬ t.chars <:+: body

def Form.chars {b : Block} (f : Form b) : List Char :=
  f.opening.chars ++ (f.body ++ f.closing.chars)

end Block

/-! ### Texts that are written forms -/

/-- The text is a marker, and `text` is what its literal says. -/
def IsMarker (text chars : List Char) : Prop := ∃ f : Marker.Form, f.text = text ∧ f.chars = chars

def IsBlock (b : Block) (chars : List Char) : Prop := ∃ f : b.Form, f.chars = chars

end LiquidCatalog.Liquid

import LiquidCatalog.Po.Quoted
import LiquidCatalog.Text.Utf8

/-!
The lines of a PO file.

A line is made of pieces, which are written one after the other: what the line begins with, what
it carries, and what it ends with.
-/

namespace LiquidCatalog.Po

inductive Line where
  | reference (text : String)
  | comment (text : String)
  | msgctxt (text : String)
  | msgid (text : String)
  | msgidPlural (text : String)
  /-- The empty `msgstr` of the header and of a message without plural. -/
  | msgstr
  /-- The empty first `msgstr` of a message with plural. -/
  | msgstrPlural
  /-- The empty `msgid` that tells the header from a message. -/
  | headerMsgid
  /-- A line of the header's text, without its line feed. -/
  | headerField (text : String)
  /-- The empty line between two entries. -/
  | blank
  deriving DecidableEq, Repr

namespace Line

/-- What stands before, in and after a pair of quotes. -/
def quoted (before text after : String) : List (List Char) :=
  [before.toList ++ ['"'], Quoted.encode text.toList, after.toList ++ ['"']]

def pieces : Line → List (List Char)
  | reference s => ["#: ".toList, s.toList]
  | comment s => ["#. ".toList, s.toList]
  | msgctxt s => quoted "msgctxt " s ""
  | msgid s => quoted "msgid " s ""
  | msgidPlural s => quoted "msgid_plural " s ""
  | msgstr => ["msgstr \"\"".toList]
  | msgstrPlural => ["msgstr[0] \"\"".toList]
  | headerMsgid => ["msgid \"\"".toList]
  | headerField s => quoted "" s "\\n"
  | blank => []

def chars (l : Line) : List Char := l.pieces.flatten

/-- The bytes of the line and of its end, piece by piece. -/
def bytes (l : Line) : List (List UInt8) := l.pieces.map Text.utf8 ++ [Text.utf8 ['\n']]

theorem flatten_bytes (l : Line) : l.bytes.flatten = Text.utf8 (l.chars ++ ['\n']) := by
  simp [bytes, chars, Text.utf8_flatten]

end Line

end LiquidCatalog.Po

import LiquidCatalog.Message
import LiquidCatalog.Po.Line
import LiquidCatalog.Po.Header
import LiquidCatalog.Text.Lines

/-!
The entries of a PO file, and the file as a whole.

An entry is the header or a message. It is a group of lines, none of them empty, and an empty line
stands between two entries.
-/

namespace LiquidCatalog.Po

inductive Entry where
  | header (h : Header)
  | message (m : Message)
  deriving DecidableEq, Repr

/-- A reference on one line: line feeds and carriage returns are written as escapes. -/
def oneLine (s : String) : String :=
  String.ofList (s.toList.flatMap fun
    | '\n' => ['\\', 'n']
    | '\r' => ['\\', 'r']
    | c => [c])

def locationLines (l : Location) : List Line :=
  .reference (oneLine l.reference) :: (Text.lines (l.comment.getD "")).map .comment

def textLines (m : Message) : List Line :=
  match m.plural with
  | none => [.msgid m.text, .msgstr]
  | some plural => [.msgid m.text, .msgidPlural plural, .msgstrPlural]

namespace Entry

def lines : Entry → List Line
  | header h => .headerMsgid :: .msgstr :: (Text.lines h.text).map .headerField
  | message m => m.locations.flatMap locationLines ++ m.context.toList.map .msgctxt ++ textLines m

def chars (e : Entry) : List Char := e.lines.flatMap fun l => l.chars ++ ['\n']

def bytes (e : Entry) : List (List UInt8) := e.lines.flatMap Line.bytes

end Entry

def document : List Entry → List Char
  | [] => []
  | e :: es => e.chars ++ es.flatMap fun e => '\n' :: e.chars

end LiquidCatalog.Po

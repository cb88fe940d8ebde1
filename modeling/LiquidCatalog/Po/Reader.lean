import LiquidCatalog.Po.Entry

/-!
Reading a PO file back.

What can be read back of an entry is its content: for the header the lines of its text, and for a
message its texts and context and, for each location, the reference on one line and the lines of
the comment.
-/

namespace LiquidCatalog.Po

/-- What is written about a location. -/
structure Reference where
  text : String
  comment : List String
  deriving DecidableEq, Repr

def Reference.ofLocation (l : Location) : Reference where
  text := oneLine l.reference
  comment := Text.lines (l.comment.getD "")

inductive Content where
  | header (fields : List String)
  | message (references : List Reference) (context : Option String) (text : String)
      (plural : Option String)
  deriving DecidableEq, Repr

def Entry.content : Entry → Content
  | .header h => .header (Text.lines h.text)
  | .message m => .message (m.locations.map .ofLocation) m.context m.text m.plural

namespace Line

def quoted? (before after : String) (s : List Char) : Option String := do
  let s ← (before.toList ++ ['"']).isPrefixOf? s
  let s ← (after.toList ++ ['"']).isSuffixOf? s
  return String.ofList (← Quoted.decode s)

def plain? (before : String) (s : List Char) : Option String :=
  (before.toList.isPrefixOf? s).map String.ofList

/-- Reads a line of an entry. The empty `msgid` of the header reads like that of a message. -/
def read? (s : List Char) : Option Line :=
  if s = "msgstr \"\"".toList then some .msgstr
  else if s = "msgstr[0] \"\"".toList then some .msgstrPlural
  else
    (plain? "#: " s).map .reference <|> (plain? "#. " s).map .comment <|>
      (quoted? "msgctxt " "" s).map .msgctxt <|> (quoted? "msgid " "" s).map .msgid <|>
      (quoted? "msgid_plural " "" s).map .msgidPlural <|> (quoted? "" "\\n" s).map .headerField

def headerField? : Line → Option String
  | .headerField s => some s
  | _ => none

end Line

namespace Content

/-- Parts lines into comments, references with their comments, and the lines after these. -/
def references : List Line → List String × List Reference × List Line
  | .comment s :: ls =>
    let (comment, rs, rest) := references ls
    (s :: comment, rs, rest)
  | .reference s :: ls =>
    let (comment, rs, rest) := references ls
    ([], ⟨s, comment⟩ :: rs, rest)
  | ls => ([], [], ls)

def texts? : List Line → Option (String × Option String)
  | [.msgid text, .msgstr] => some (text, none)
  | [.msgid text, .msgidPlural plural, .msgstrPlural] => some (text, some plural)
  | _ => none

def message? (ls : List Line) : Option Content :=
  match references ls with
  | ([], rs, .msgctxt c :: rest) => (texts? rest).map fun (text, plural) =>
    .message rs (some c) text plural
  | ([], rs, rest) => (texts? rest).map fun (text, plural) => .message rs none text plural
  | _ => none

/-- The content of an entry with the given lines. Fields make it the header. -/
def ofLines? : List Line → Option Content
  | .msgid text :: .msgstr :: l :: ls =>
    if text = "" then ((l :: ls).mapM Line.headerField?).map .header else none
  | ls => message? ls

end Content

/-- The groups of lines between the empty lines of a text whose lines all end. -/
def lineGroups (s : List Char) : List (List (List Char)) :=
  if s.isEmpty then [] else (s.splitOn '\n').dropLast.splitOn []

def readDocument? (s : List Char) : Option (List Content) :=
  (lineGroups s).mapM fun group => do Content.ofLines? (← group.mapM Line.read?)

end LiquidCatalog.Po

/-!
The header of a PO file.

The header's text has one line `Key: value` for each of the ten standard keys. The values are
written as they are, so a line feed in a value adds a line.
-/

namespace LiquidCatalog.Po

structure Header where
  projectIdVersion : String := ""
  potCreationDate : String := ""
  poRevisionDate : String := ""
  lastTranslator : String := ""
  languageTeam : String := ""
  mimeVersion : String := ""
  contentType : String := ""
  contentTransferEncoding : String := ""
  language : String := ""
  pluralCount : Nat := 1
  /-- The expression in `n` that selects the plural form. -/
  pluralExpression : String := "0"
  deriving DecidableEq, Repr

namespace Header

/-- The header of a new template. What only a translator can fill in has a placeholder. -/
def template (creationDate : String) : Header where
  potCreationDate := creationDate
  poRevisionDate := "YEAR-MO-DA HO:MI+ZONE"
  lastTranslator := "FULL NAME <EMAIL@ADDRESS>"
  languageTeam := "LANGUAGE <LL@li.org>"
  mimeVersion := "1.0"
  contentType := "text/plain; charset=UTF-8"
  contentTransferEncoding := "8bit"
  pluralCount := 2
  pluralExpression := "(n != 1)"

def pluralForms (h : Header) : String :=
  "nplurals=" ++ toString h.pluralCount ++ "; plural=" ++ h.pluralExpression ++ ";"

def fields (h : Header) : List (String × String) :=
  [("Project-Id-Version", h.projectIdVersion),
   ("POT-Creation-Date", h.potCreationDate),
   ("PO-Revision-Date", h.poRevisionDate),
   ("Last-Translator", h.lastTranslator),
   ("Language-Team", h.languageTeam),
   ("MIME-Version", h.mimeVersion),
   ("Content-Type", h.contentType),
   ("Content-Transfer-Encoding", h.contentTransferEncoding),
   ("Language", h.language),
   ("Plural-Forms", h.pluralForms)]

def text (h : Header) : String :=
  String.join (h.fields.map fun (key, value) => key ++ ": " ++ value ++ "\n")

end Header

end LiquidCatalog.Po

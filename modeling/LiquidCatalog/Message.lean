/-!
Messages: the texts that a template asks to have translated.

A message is known by its text and its context. The rest of it, a plural form and the places it
was found at, may come from several findings of the same message.
-/

namespace LiquidCatalog

/-- A line number, counting from one. -/
abbrev LineNumber := { n : Nat // 0 < n }

def LineNumber.ofNat? (n : Nat) : Option LineNumber :=
  if h : 0 < n then some ⟨n, h⟩ else none

structure Location where
  file : String
  line : Option LineNumber := none
  comment : Option String := none
  deriving DecidableEq, Repr

/-- The place as a reference reads: the file, and the line after a colon if it is known. -/
def Location.reference (l : Location) : String :=
  match l.line with
  | none => l.file
  | some n => l.file ++ ":" ++ toString n.val

structure Message where
  text : String
  plural : Option String := none
  context : Option String := none
  locations : List Location := []
  deriving DecidableEq, Repr

namespace Message

/-- What a message is known by. -/
abbrev Key := String × Option String

def key (m : Message) : Key := (m.text, m.context)

/-- Appends the locations that are not there yet, one after the other. -/
def addLocations : List Location → List Location → List Location
  | old, [] => old
  | old, l :: new => addLocations (if l ∈ old then old else old ++ [l]) new

/-- Takes from a later finding of the same message what is still missing. -/
def absorb (m later : Message) : Message :=
  { m with
    plural := m.plural <|> later.plural
    locations := addLocations m.locations later.locations }

@[simp] theorem key_absorb (m later : Message) : (m.absorb later).key = m.key := rfl

@[simp] theorem plural_absorb (m later : Message) :
    (m.absorb later).plural = (m.plural <|> later.plural) := rfl

@[simp] theorem locations_absorb (m later : Message) :
    (m.absorb later).locations = addLocations m.locations later.locations := rfl

end Message

end LiquidCatalog

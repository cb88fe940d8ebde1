/-!
What a file system holds: files, symbolic links, and directories of named nodes.

A place is the row of names that leads from a directory to a node.
-/

namespace LiquidCatalog

/-- A file, with whatever is known of its content, a symbolic link, or a directory. -/
inductive Node (α : Type) where
  | file (content : α)
  | link (target : String)
  | dir (entries : List (String × Node α))

namespace Node

variable {α : Type}

instance : Inhabited (Node α) := ⟨dir []⟩

def isDir : Node α → Bool
  | dir _ => true
  | _ => false

def child? (name : String) : Node α → Option (Node α)
  | dir es => es.lookup name
  | _ => none

/-- The node at a place below this one. -/
def get? : Node α → List String → Option (Node α)
  | n, [] => some n
  | n, name :: place => (n.child? name).bind (·.get? place)

def putEntry (name : String) (n : Node α) : List (String × Node α) → List (String × Node α)
  | [] => [(name, n)]
  | e :: es => if e.1 = name then (name, n) :: es else e :: putEntry name n es

/-- Puts a node at a place. Its directory must be there; otherwise nothing changes. -/
def set : Node α → List String → Node α → Node α
  | _, [], new => new
  | dir es, name :: place, new =>
    match es.lookup name, place with
    | some n, _ => dir (putEntry name (n.set place new) es)
    | none, [] => dir (putEntry name new es)
    | none, _ :: _ => dir es
  | n, _ :: _, _ => n

theorem lookup_putEntry (name : String) (n : Node α) (es : List (String × Node α))
    (other : String) :
    (putEntry name n es).lookup other = if other = name then some n else es.lookup other := by
  induction es with
  | nil =>
    by_cases h : other = name
    · simp [putEntry, h]
    · simp [putEntry, List.lookup_cons, h, beq_eq_false_iff_ne.2 h]
  | cons e es ih =>
    obtain ⟨a, m⟩ := e
    rw [putEntry]
    by_cases ha : a = name
    · subst ha
      by_cases h : other = a
      · simp [h]
      · simp [List.lookup_cons, h, beq_eq_false_iff_ne.2 h]
    · rw [if_neg ha]
      by_cases h : other = a
      · subst h; simp [ha]
      · simp [List.lookup_cons, ih, beq_eq_false_iff_ne.2 h]

end Node

end LiquidCatalog

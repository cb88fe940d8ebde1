import LiquidCatalog.Message

/-!
The catalog: messages gathered by text and context.

No two entries of a catalog have the same key. A message that is new goes to the end; one that is
known already is absorbed by its entry, which stays where it is.
-/

namespace LiquidCatalog

namespace Catalog

def insertInto (m : Message) : List Message → List Message
  | [] => [m]
  | e :: es => if e.key = m.key then e.absorb m :: es else e :: insertInto m es

theorem keys_insertInto (m : Message) (es : List Message) :
    (insertInto m es).map Message.key =
      if m.key ∈ es.map Message.key then es.map Message.key
      else es.map Message.key ++ [m.key] := by
  induction es with
  | nil => simp [insertInto]
  | cons e es ih =>
    rw [insertInto]
    by_cases h : e.key = m.key
    · simp [h]
    · rw [if_neg h, List.map_cons, ih]
      simp only [List.map_cons, List.mem_cons, Ne.symm h, false_or]
      split <;> rfl

theorem keys_insertInto_nodup {m : Message} {es : List Message}
    (h : (es.map Message.key).Nodup) : ((insertInto m es).map Message.key).Nodup := by
  rw [keys_insertInto]
  split
  · exact h
  · next hm =>
    rw [List.nodup_append]
    refine ⟨h, by simp, fun a ha b hb => ?_⟩
    rw [List.mem_singleton.1 hb]
    exact fun hab => hm (hab ▸ ha)

end Catalog

@[ext] structure Catalog where
  /-- The entries, in the order their keys were first added. -/
  toList : List Message
  keys_nodup : (toList.map Message.key).Nodup

namespace Catalog

instance : EmptyCollection Catalog := ⟨⟨[], by simp⟩⟩

instance : Inhabited Catalog := ⟨∅⟩

def insert (c : Catalog) (m : Message) : Catalog where
  toList := insertInto m c.toList
  keys_nodup := keys_insertInto_nodup c.keys_nodup

def insertMany (c : Catalog) (ms : List Message) : Catalog := ms.foldl insert c

def ofList (ms : List Message) : Catalog := (∅ : Catalog).insertMany ms

def size (c : Catalog) : Nat := c.toList.length

def isEmpty (c : Catalog) : Bool := c.toList.isEmpty

/-- The entry for a text and a context. No context and the empty context are two contexts. -/
def get? (c : Catalog) (text : String) (context : Option String) : Option Message :=
  c.toList.find? (·.key = (text, context))

@[simp] theorem toList_empty : (∅ : Catalog).toList = [] := rfl

@[simp] theorem toList_insert (c : Catalog) (m : Message) :
    (c.insert m).toList = insertInto m c.toList := rfl

@[simp] theorem insertMany_nil (c : Catalog) : c.insertMany [] = c := rfl

@[simp] theorem insertMany_cons (c : Catalog) (m : Message) (ms : List Message) :
    c.insertMany (m :: ms) = (c.insert m).insertMany ms := rfl

theorem insertMany_append (c : Catalog) (ms ns : List Message) :
    c.insertMany (ms ++ ns) = (c.insertMany ms).insertMany ns := List.foldl_append

end Catalog

end LiquidCatalog

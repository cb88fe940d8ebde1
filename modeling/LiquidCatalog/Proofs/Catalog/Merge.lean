import Mathlib.Data.List.Induction
import LiquidCatalog.Liquid.Template
import LiquidCatalog.Proofs.Catalog.Grouping

/-!
Merging catalogs.

The entries of one catalog are inserted into another. An entry stands for all messages that it was
collected from: what it has taken from them is taken from it in the same order. So the catalogs of
consecutive parts of a list merge to the catalog of the whole list.
-/

namespace LiquidCatalog

/-! ### Entries that are absorbed -/

namespace Message

lemma addLocations_assoc (old new more : List Location) :
    addLocations (addLocations old new) more = addLocations old (addLocations new more) := by
  have hone (new : List Location) (l : Location) :
      addLocations (addLocations old new) [l] = addLocations old (addLocations new [l]) := by
    by_cases hl : l ∈ new
    · simp [addLocations, mem_addLocations, hl]
    · have hnew : addLocations new [l] = new ++ [l] := by simp [addLocations, hl]
      rw [hnew, addLocations_append]
  induction more generalizing new with
  | nil => rfl
  | cons l more ih =>
    calc addLocations (addLocations old new) (l :: more)
        = addLocations (addLocations (addLocations old new) [l]) more := rfl
      _ = addLocations (addLocations old (addLocations new [l])) more := by rw [hone]
      _ = addLocations old (addLocations new (l :: more)) := ih _

lemma absorb_assoc (a b c : Message) : (a.absorb b).absorb c = a.absorb (b.absorb c) := by
  have hplural : ((a.plural <|> b.plural) <|> c.plural) = (a.plural <|> b.plural <|> c.plural) := by
    cases a.plural <;> rfl
  simp only [absorb, hplural, addLocations_assoc]

lemma collect_concat (e : Option Message) (ms : List Message) (m : Message) :
    collect e (ms ++ [m]) = some (join (collect e ms) m) := by
  simp [collect]

/-- The entry that messages make stands for all of them. -/
lemma collect_collect (e : Option Message) (ms : List Message) :
    collect e (collect none ms).toList = collect e ms := by
  induction ms using List.reverseRecOn with
  | nil => rfl
  | append_singleton ms m ih =>
    -- `m` is absorbed before the entry is, or after it
    rw [collect_concat, collect_concat, ← ih]
    rcases collect none ms with _ | a
    · rfl
    · rcases e with _ | e
      · rfl
      · exact congrArg some (absorb_assoc e a m).symm

end Message

namespace Catalog

lemma filter_key_eq {es : List Message} (h : (es.map Message.key).Nodup) (k : Message.Key) :
    es.filter (·.key = k) = (es.find? (·.key = k)).toList := by
  induction es with
  | nil => rfl
  | cons e es ih =>
    rw [List.map_cons, List.nodup_cons] at h
    by_cases hk : e.key = k
    · have hnone : es.filter (·.key = k) = [] := by
        refine List.filter_eq_nil_iff.2 fun e' he' hk' => h.1 (List.mem_map.2 ⟨e', he', ?_⟩)
        exact (of_decide_eq_true hk').trans hk.symm
      simp [hk, hnone]
    · simp [hk, ih h.2]

/-! ### Merging -/

/-- Inserts the entries of `d` into `c`. -/
def merge (c d : Catalog) : Catalog := c.insertMany d.toList

lemma keys_ofList (ms : List Message) : (ofList ms).keys = (ms.map Message.key).eraseDups :=
  keys_insertMany ∅ ms

lemma merge_ofList (c : Catalog) (ms : List Message) : c.merge (ofList ms) = c.insertMany ms := by
  refine eq_of_get?_eq ?_ fun k => ?_
  · have honce : (ofList ms).keys.eraseDups = (ms.map Message.key).eraseDups := by
      rw [keys_ofList, eraseDups_of_nodup (nodup_eraseDups _)]
    calc (c.merge (ofList ms)).keys
        = (c.keys ++ (ofList ms).keys).eraseDups := keys_insertMany c _
      _ = (c.keys ++ ms.map Message.key).eraseDups := eraseDups_append_congr rfl honce
      _ = (c.insertMany ms).keys := (keys_insertMany c ms).symm
  · -- of the messages with the key, `ofList ms` has kept the one entry that they make
    have hentry : (ofList ms).toList.filter (·.key = k) =
        (Message.collect none (ms.filter (·.key = k))).toList := by
      rw [filter_key_eq (ofList ms).keys_nodup]
      exact congrArg Option.toList (get?_insertMany ∅ ms k)
    rw [merge, get?_insertMany, get?_insertMany, hentry, Message.collect_collect]

/-- Every catalog can be made, for one by inserting its entries. -/
lemma ofList_toList (c : Catalog) : ofList c.toList = c := by
  refine eq_of_get?_eq ?_ fun k => ?_
  · rw [keys_ofList]
    exact eraseDups_of_nodup c.keys_nodup
  · have hget : (ofList c.toList).get? k.1 k.2 =
        Message.collect none (c.toList.filter (·.key = k)) := get?_insertMany ∅ c.toList k
    rw [hget, filter_key_eq c.keys_nodup]
    change Message.collect none (c.get? k.1 k.2).toList = c.get? k.1 k.2
    rcases c.get? k.1 k.2 with _ | e <;> rfl

lemma merge_assoc (a b c : Catalog) : (a.merge b).merge c = a.merge (b.merge c) := by
  have hboth : b.merge c = ofList (b.toList ++ c.toList) := by
    conv_lhs => rw [← ofList_toList b]
    exact (insertMany_append ∅ _ _).symm
  rw [hboth, merge_ofList, insertMany_append]
  rfl

lemma foldl_merge_ofList (c : Catalog) (parts : List (List Message)) :
    (parts.map ofList).foldl merge c = c.insertMany parts.flatten := by
  induction parts generalizing c with
  | nil => rfl
  | cons ms parts ih =>
    rw [List.map_cons, List.foldl_cons, ih, merge_ofList, List.flatten_cons, insertMany_append]

/-- **Merging the catalogs of consecutive parts** gives the catalog of the whole, whatever the
parts have in common with each other and with the catalog they are merged into. In which order the
merges are done does not matter, and a set of templates may be parted in any way. -/
theorem merge_consecutive_parts (c : Catalog) :
    (∀ ms, c.merge (ofList ms) = c.insertMany ms) ∧
      (∀ parts : List (List Message),
        (parts.map ofList).foldl merge c = c.insertMany parts.flatten) ∧
      (∀ d e, (c.merge d).merge e = c.merge (d.merge e)) ∧
      ∀ (p : Provenance) (parts : List (List Template)),
        (parts.map (ofTemplates p)).foldl merge ∅ = ofTemplates p parts.flatten := by
  refine ⟨merge_ofList c, foldl_merge_ofList c, merge_assoc c, fun p parts => ?_⟩
  have hparts : parts.map (ofTemplates p) =
      (parts.map fun ts => ts.flatMap (·.messages p)).map ofList := by
    rw [List.map_map]
    rfl
  have hmessages : (parts.map fun ts => ts.flatMap (·.messages p)).flatten =
      parts.flatten.flatMap (·.messages p) := by
    rw [← List.flatMap_def, List.flatten_eq_flatMap (L := parts), List.flatMap_assoc]
    rfl
  rw [hparts, foldl_merge_ofList, hmessages]
  rfl

end Catalog

end LiquidCatalog

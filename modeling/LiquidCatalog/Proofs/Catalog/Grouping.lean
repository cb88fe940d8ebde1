import Mathlib.Data.List.Basic
import Mathlib.Data.List.Induction
import LiquidCatalog.Catalog

/-!
A catalog groups messages by their keys.

After any messages have been inserted the keys stand in the order of their first occurrences. The
entry for a key is the first message with it, which has absorbed all later ones in order.
-/

namespace LiquidCatalog

/-! ### First occurrences -/

section FirstOccurrences

variable {α : Type} [BEq α] [LawfulBEq α]

lemma eraseDups_snoc (l : List α) (a : α) :
    (l ++ [a]).eraseDups = if a ∈ l then l.eraseDups else l.eraseDups ++ [a] := by
  rw [List.eraseDups_append]
  by_cases h : a ∈ l <;> simp [List.removeAll, h, List.eraseDups_cons]

lemma nodup_eraseDups (l : List α) : l.eraseDups.Nodup := by
  induction l using List.reverseRecOn with
  | nil => simp
  | append_singleton l a ih =>
    rw [eraseDups_snoc]
    split
    · exact ih
    · next ha =>
      refine List.nodup_append.2 ⟨ih, by simp, fun b hb c hc => ?_⟩
      rw [List.mem_singleton.1 hc]
      exact fun hba => ha (hba ▸ List.mem_eraseDups.1 hb)

lemma eraseDups_filter (p : α → Bool) (l : List α) :
    (l.filter p).eraseDups = l.eraseDups.filter p := by
  induction l using List.reverseRecOn with
  | nil => rfl
  | append_singleton l a ih =>
    rw [List.filter_append, eraseDups_snoc]
    by_cases hp : p a
    · rw [List.filter_cons_of_pos hp, List.filter_nil, eraseDups_snoc, ih]
      by_cases ha : a ∈ l <;> simp [ha, hp]
    · rw [List.filter_cons_of_neg hp, List.filter_nil, List.append_nil, ih]
      by_cases ha : a ∈ l <;> simp [ha, hp]

omit [LawfulBEq α] in
lemma eraseDups_eq_nil_iff {l : List α} : l.eraseDups = [] ↔ l = [] := by
  cases l <;> simp [List.eraseDups_cons]

lemma eraseDups_of_nodup {l : List α} (h : l.Nodup) : l.eraseDups = l := by
  induction l using List.reverseRecOn with
  | nil => rfl
  | append_singleton l a ih =>
    obtain ⟨hl, -, ha⟩ := List.nodup_append.1 h
    rw [eraseDups_snoc, if_neg fun hmem => ha a hmem a (by simp) rfl, ih hl]

lemma eraseDups_append_congr {as as' bs bs' : List α} (ha : as.eraseDups = as'.eraseDups)
    (hb : bs.eraseDups = bs'.eraseDups) : (as ++ bs).eraseDups = (as' ++ bs').eraseDups := by
  have hmem (b : α) : b ∈ as ↔ b ∈ as' := by
    rw [← List.mem_eraseDups, ha, List.mem_eraseDups]
  have hremove : bs.removeAll as = bs.removeAll as' := by
    simp only [List.removeAll, List.elem_eq_mem, hmem]
  rw [List.eraseDups_append, List.eraseDups_append, ha, hremove]
  simp only [List.removeAll, eraseDups_filter, hb]

lemma eraseDups_of_forall_eq {a : α} {l : List α} (h : ∀ b ∈ l, b = a) (hne : l ≠ []) :
    l.eraseDups = [a] := by
  induction l using List.reverseRecOn with
  | nil => exact absurd rfl hne
  | append_singleton l b ih =>
    rw [eraseDups_snoc, h b (by simp)]
    by_cases hl : l = []
    · simp [hl]
    · have hall : ∀ b ∈ l, b = a := fun b hb => h b (by simp [hb])
      obtain ⟨c, hc⟩ := List.exists_mem_of_ne_nil l hl
      rw [if_pos (hall c hc ▸ hc), ih hall hl]

end FirstOccurrences

namespace Message

/-- Locations are added in order, and none that is there already. -/
lemma addLocations_eq (old new : List Location) :
    addLocations old new = old ++ (new.removeAll old).eraseDups := by
  induction new generalizing old with
  | nil => simp [addLocations]
  | cons l new ih =>
    rw [addLocations, ih]
    by_cases hl : l ∈ old
    · simp [hl, List.cons_removeAll]
    · rw [if_neg hl, List.cons_removeAll, if_pos (by simpa using hl), List.eraseDups_cons]
      have hnew : new.removeAll (old ++ [l]) = (new.removeAll old).filter fun b => !b == l := by
        simp only [List.removeAll, List.filter_filter]
        refine List.filter_congr fun b _ => ?_
        by_cases hb : b = l <;> simp [hb]
      rw [hnew, List.append_assoc, List.singleton_append]

lemma mem_addLocations {l : Location} {old new : List Location} :
    l ∈ addLocations old new ↔ l ∈ old ∨ l ∈ new := by
  rw [addLocations_eq, List.mem_append, List.mem_eraseDups]
  by_cases hl : l ∈ old <;> simp [List.removeAll, hl]

lemma addLocations_append (old new more : List Location) :
    addLocations old (new ++ more) = addLocations (addLocations old new) more := by
  induction new generalizing old with
  | nil => rfl
  | cons l new ih => simp only [List.cons_append, addLocations, ih]

/-- The entry for a key after one more message with it. -/
def join : Option Message → Message → Message
  | none, m => m
  | some e, m => e.absorb m

/-- The entry for a key after more messages with it. -/
def collect (e : Option Message) (ms : List Message) : Option Message :=
  ms.foldl (fun e m => some (join e m)) e

lemma collect_some (e : Message) (ms : List Message) :
    collect (some e) ms = some { e with
      plural := e.plural <|> ms.findSome? (·.plural)
      locations := addLocations e.locations (ms.flatMap (·.locations)) } := by
  induction ms generalizing e with
  | nil => simp [collect, addLocations]
  | cons m ms ih =>
    have hjoin : collect (some e) (m :: ms) = collect (some (e.absorb m)) ms := rfl
    rw [hjoin, ih, List.flatMap_cons, addLocations_append, List.findSome?_cons]
    rcases hm : m.plural with _ | p <;> rcases he : e.plural with _ | q <;> simp [absorb, hm, he]

end Message

namespace Catalog

def keys (c : Catalog) : List Message.Key := c.toList.map Message.key

lemma keys_insert (c : Catalog) (m : Message) :
    (c.insert m).keys = if m.key ∈ c.keys then c.keys else c.keys ++ [m.key] :=
  keys_insertInto m c.toList

/-- **The keys** stand in the order of their first occurrences. -/
lemma keys_insertMany (c : Catalog) (ms : List Message) :
    (c.insertMany ms).keys = (c.keys ++ ms.map Message.key).eraseDups := by
  induction ms using List.reverseRecOn with
  | nil =>
    rw [List.map_nil, List.append_nil]
    exact (eraseDups_of_nodup c.keys_nodup).symm
  | append_singleton ms m ih =>
    rw [insertMany_append, insertMany_cons, insertMany_nil, keys_insert, ih, List.map_append,
      ← List.append_assoc, List.map_singleton, eraseDups_snoc]
    simp only [List.mem_eraseDups]

lemma find?_insertInto (k : Message.Key) (m : Message) (es : List Message) :
    (insertInto m es).find? (·.key = k) =
      if m.key = k then some (Message.join (es.find? (·.key = k)) m)
      else es.find? (·.key = k) := by
  induction es with
  | nil => by_cases hk : m.key = k <;> simp [insertInto, Message.join, hk]
  | cons e es ih =>
    rw [insertInto]
    by_cases he : e.key = m.key
    · by_cases hk : m.key = k
      · simp [he, hk, Message.join]
      · simp [he, hk]
    · rw [if_neg he, List.find?_cons, List.find?_cons, ih]
      by_cases hk : e.key = k
      · simp [hk, show m.key ≠ k from fun h => he (hk.trans h.symm)]
      · simp [hk]

lemma get?_insert (c : Catalog) (m : Message) (k : Message.Key) :
    (c.insert m).get? k.1 k.2 =
      if m.key = k then some (Message.join (c.get? k.1 k.2) m) else c.get? k.1 k.2 :=
  find?_insertInto k m c.toList

/-- **The entry for a key** is collected from the messages with the key. -/
lemma get?_insertMany (c : Catalog) (ms : List Message) (k : Message.Key) :
    (c.insertMany ms).get? k.1 k.2 =
      Message.collect (c.get? k.1 k.2) (ms.filter (·.key = k)) := by
  induction ms generalizing c with
  | nil => rfl
  | cons m ms ih =>
    rw [insertMany_cons, ih, get?_insert]
    by_cases hk : m.key = k
    · rw [if_pos hk, List.filter_cons_of_pos (by simpa using hk)]
      rfl
    · rw [if_neg hk, List.filter_cons_of_neg (by simpa using hk)]

lemma find?_of_mem {es : List Message} (h : (es.map Message.key).Nodup) {e : Message}
    (he : e ∈ es) : es.find? (·.key = e.key) = some e := by
  induction es with
  | nil => cases he
  | cons a es ih =>
    rw [List.map_cons, List.nodup_cons] at h
    rcases List.mem_cons.1 he with rfl | he
    · simp
    · have hne : a.key ≠ e.key := fun hae => h.1 (hae ▸ List.mem_map_of_mem he)
      rw [List.find?_cons_of_neg (by simpa using hne), ih h.2 he]

/-- A catalog is known from its keys and the entries for them. -/
lemma toList_eq_filterMap (c : Catalog) : c.toList = c.keys.filterMap fun k => c.get? k.1 k.2 := by
  have hfind : ∀ e ∈ c.toList, c.get? e.key.1 e.key.2 = some e :=
    fun e he => find?_of_mem c.keys_nodup he
  rw [keys, List.filterMap_map]
  conv_lhs => rw [← List.filterMap_some (l := c.toList)]
  exact List.filterMap_congr fun e he => (hfind e he).symm

lemma eq_of_get?_eq {c d : Catalog} (hkeys : c.keys = d.keys)
    (hget : ∀ k : Message.Key, c.get? k.1 k.2 = d.get? k.1 k.2) : c = d := by
  refine Catalog.ext ?_
  rw [toList_eq_filterMap c, toList_eq_filterMap d, hkeys]
  exact List.filterMap_congr fun k _ => hget k

end Catalog

end LiquidCatalog

import Mathlib.Data.List.Nodup
import LiquidCatalog.Proofs.Catalog.Grouping

/-!
What a history of additions makes of a catalog.

Messages are added one at a time or many at a time. Only their order matters: the catalog groups
all messages of the history by their keys. An entry has the first plural that is set, and it has
the locations of its first message as they are, followed by each later location that is not there
yet. So an entry repeats a location only where its first message does.
-/

namespace LiquidCatalog

/-! ### What is gathered under a key -/

namespace Message

/-- The first locations as they are, and then each later one that is not there yet. -/
def gatherLocations : List (List Location) → List Location
  | [] => []
  | first :: later => first ++ (later.flatten.filter (· ∉ first)).eraseDups

/-- The entry that messages make for a key. -/
def gathered (ms : List Message) (k : Key) : Message where
  text := k.1
  plural := (ms.filter (·.key = k)).findSome? (·.plural)
  context := k.2
  locations := gatherLocations ((ms.filter (·.key = k)).map (·.locations))

variable {first : List Location} {later : List (List Location)}

lemma addLocations_flatten :
    addLocations first later.flatten = gatherLocations (first :: later) := by
  rw [addLocations_eq, gatherLocations]
  congr 2
  exact List.filter_congr fun l _ => by simp

lemma nodup_gatherLocations_iff : (gatherLocations (first :: later)).Nodup ↔ first.Nodup := by
  constructor
  · intro h
    exact (List.nodup_append.1 h).1
  · intro h
    refine List.nodup_append.2 ⟨h, nodup_eraseDups _, fun l hl l' hl' => ?_⟩
    have hnew : l' ∉ first := by
      simpa using (List.mem_filter.1 (List.mem_eraseDups.1 hl')).2
    rintro rfl
    exact hnew hl

/-- How often a location is there: as often as in the first locations, and at most once if it is
new. -/
lemma count_gatherLocations (l : Location) :
    (gatherLocations (first :: later)).count l =
      if l ∈ first then first.count l else if ∃ ls ∈ later, l ∈ ls then 1 else 0 := by
  have hmem : l ∈ (later.flatten.filter (· ∉ first)).eraseDups ↔
      (∃ ls ∈ later, l ∈ ls) ∧ l ∉ first := by
    rw [List.mem_eraseDups, List.mem_filter, List.mem_flatten, decide_eq_true_iff]
  rw [gatherLocations, List.count_append]
  by_cases hfirst : l ∈ first
  · have hnew : l ∉ (later.flatten.filter (· ∉ first)).eraseDups := fun h => (hmem.1 h).2 hfirst
    rw [if_pos hfirst, List.count_eq_zero.2 hnew, Nat.add_zero]
  · rw [if_neg hfirst, List.count_eq_zero.2 hfirst, Nat.zero_add]
    by_cases hlater : ∃ ls ∈ later, l ∈ ls
    · rw [if_pos hlater]
      exact List.count_eq_one_of_mem (nodup_eraseDups _) (hmem.2 ⟨hlater, hfirst⟩)
    · rw [if_neg hlater]
      exact List.count_eq_zero.2 fun h => hlater (hmem.1 h).1

/-- Messages with one key collect to what is gathered under the key. -/
lemma collect_none {ms : List Message} {k : Key} {m : Message} {ns : List Message}
    (h : ms.filter (·.key = k) = m :: ns) : collect none (m :: ns) = some (gathered ms k) := by
  have hkey : m.key = k := by
    have hm : m ∈ ms.filter (·.key = k) := h ▸ List.mem_cons_self
    simpa using (List.mem_filter.1 hm).2
  have hplural : (m :: ns).findSome? (·.plural) = (m.plural <|> ns.findSome? (·.plural)) := by
    rw [List.findSome?_cons]
    cases m.plural <;> rfl
  have hlocations : addLocations m.locations (ns.flatMap (·.locations)) =
      gatherLocations ((m :: ns).map (·.locations)) := addLocations_flatten
  calc collect none (m :: ns)
      = collect (some m) ns := rfl
    _ = some { m with
          plural := m.plural <|> ns.findSome? (·.plural)
          locations := addLocations m.locations (ns.flatMap (·.locations)) } := collect_some m ns
    _ = some (gathered ms k) := by
      rw [gathered, h, hplural, hlocations, ← hkey]
      rfl

end Message

/-! ### A history -/

namespace Catalog

inductive Addition where
  | one (m : Message)
  | many (ms : List Message)
  deriving DecidableEq, Repr

namespace Addition

def messages : Addition → List Message
  | one m => [m]
  | many ms => ms

def perform : Addition → Catalog → Catalog
  | one m, c => c.insert m
  | many ms, c => c.insertMany ms

lemma perform_eq (a : Addition) (c : Catalog) : a.perform c = c.insertMany a.messages := by
  cases a <;> rfl

end Addition

def added (as : List Addition) : List Message := as.flatMap Addition.messages

/-- The catalog that a history makes, starting with no entry. -/
def after (as : List Addition) : Catalog := as.foldl (fun c a => a.perform c) ∅

/-- **A run of additions**: it does not matter how the messages come. -/
lemma foldl_perform (c : Catalog) (as : List Addition) :
    as.foldl (fun c a => a.perform c) c = c.insertMany (added as) := by
  induction as generalizing c with
  | nil => rfl
  | cons a as ih =>
    calc as.foldl (fun c a => a.perform c) (a.perform c)
        = (a.perform c).insertMany (added as) := ih _
      _ = (c.insertMany a.messages).insertMany (added as) := by rw [a.perform_eq]
      _ = c.insertMany (added (a :: as)) := (insertMany_append c _ _).symm

lemma keys_after (as : List Addition) :
    (after as).keys = ((added as).map Message.key).eraseDups := by
  rw [after, foldl_perform, keys_insertMany]
  rfl

/-- **One entry of a history** is what is gathered under its key. -/
lemma get?_after (as : List Addition) (k : Message.Key) :
    (after as).get? k.1 k.2 =
      if k ∈ (added as).map Message.key then some (Message.gathered (added as) k) else none := by
  have hget : (after as).get? k.1 k.2 =
      Message.collect none ((added as).filter (·.key = k)) := by
    rw [after, foldl_perform, get?_insertMany]
    rfl
  rcases hgroup : (added as).filter (·.key = k) with _ | ⟨m, ns⟩
  · have hk : k ∉ (added as).map Message.key := by
      simpa using List.filter_eq_nil_iff.1 hgroup
    rw [hget, hgroup, if_neg hk]
    rfl
  · have hfirst : m ∈ (added as).filter (·.key = k) := hgroup ▸ List.mem_cons_self
    obtain ⟨hm, hkey⟩ := List.mem_filter.1 hfirst
    have hk : k ∈ (added as).map Message.key :=
      List.mem_map.2 ⟨m, hm, of_decide_eq_true hkey⟩
    rw [hget, hgroup, if_pos hk, Message.collect_none hgroup]

lemma toList_after (as : List Addition) :
    (after as).toList =
      ((added as).map Message.key).eraseDups.map (Message.gathered (added as)) := by
  have hget : ∀ k ∈ ((added as).map Message.key).eraseDups,
      (after as).get? k.1 k.2 = some (Message.gathered (added as) k) := fun k hk => by
    rw [get?_after, if_pos (List.mem_eraseDups.1 hk)]
  rw [toList_eq_filterMap, keys_after]
  exact List.filterMap_eq_map_iff_forall_eq_some.2 hget

/-- **A catalog groups its history by key.** It has one entry for each key that was added, in the
order in which the keys were first added, and the entry is what is gathered under the key. An entry
can be looked up by its text and context, and nothing else can. -/
theorem after_eq_grouped (as : List Addition) :
    let ms := added as
    let keys := (ms.map Message.key).eraseDups
    (after as).toList = keys.map (Message.gathered ms) ∧
      (after as).size = keys.length ∧
      ((after as).isEmpty ↔ ms = []) ∧
      ∀ text context, (after as).get? text context =
        if ∃ m ∈ ms, m.text = text ∧ m.context = context then
          some (Message.gathered ms (text, context))
        else none := by
  intro ms keys
  have hlist : (after as).toList = keys.map (Message.gathered ms) := toList_after as
  refine ⟨hlist, ?_, ?_, fun text context => ?_⟩
  · rw [size, hlist, List.length_map]
  · rw [isEmpty, List.isEmpty_iff, hlist, List.map_eq_nil_iff, eraseDups_eq_nil_iff,
      List.map_eq_nil_iff]
  · have hkey : (text, context) ∈ ms.map Message.key ↔
        ∃ m ∈ ms, m.text = text ∧ m.context = context := by
      simp [Message.key]
    exact (get?_after as (text, context)).trans (if_congr hkey rfl rfl)

example :
    let m : Message := { text := "Open" }
    (after [.one m, .many [{ m with context := some "" }, m]]).size = 2 := by
  decide

/-- **What an entry repeats.** The locations of an entry are distinct exactly if those of the first
message with its key are: a location is there as often as in that message, and once if a later
message brought it. -/
theorem locations_nodup_iff_first (as : List Addition) {e : Message} (he : e ∈ (after as).toList) :
    ∃ first later, (added as).filter (·.key = e.key) = first :: later ∧
      (e.locations.Nodup ↔ first.locations.Nodup) ∧
      ∀ l, e.locations.count l =
        if l ∈ first.locations then first.locations.count l
        else if ∃ m ∈ later, l ∈ m.locations then 1 else 0 := by
  rw [toList_after] at he
  obtain ⟨k, hk, rfl⟩ := List.mem_map.1 he
  obtain ⟨m, hm, hkey⟩ := List.mem_map.1 (List.mem_eraseDups.1 hk)
  have hmem : m ∈ (added as).filter (·.key = k) := List.mem_filter.2 ⟨hm, decide_eq_true hkey⟩
  obtain ⟨first, later, hgroup⟩ := List.exists_cons_of_ne_nil (List.ne_nil_of_mem hmem)
  have hlocations : (Message.gathered (added as) k).locations =
      Message.gatherLocations (first.locations :: later.map (·.locations)) := by
    rw [Message.gathered, hgroup, List.map_cons]
  refine ⟨first, later, hgroup, ?_, fun l => ?_⟩
  · rw [hlocations, Message.nodup_gatherLocations_iff]
  · rw [hlocations, Message.count_gatherLocations]
    simp only [List.mem_map, exists_exists_and_eq_and]

/-- A message that comes later brings no location twice. -/
theorem locations_nodup_iff_first_later :
    let a : Location := { file := "a.liquid" }
    let b : Location := { file := "b.liquid" }
    let m : Message := { text := "Hello", locations := [a] }
    let n : Message := { text := "Hello", locations := [b, a, b] }
    let e : Message := { text := "Hello", locations := [a, b] }
    e ∈ (after [.one m, .many [n]]).toList ∧ e.locations.Nodup ∧ e.locations.count b = 1 := by
  intro a b m n e
  have he : e ∈ (after [.one m, .many [n]]).toList := by decide
  obtain ⟨first, later, hgroup, hnodup, hcount⟩ := locations_nodup_iff_first _ he
  have hmessages : [m, n] = first :: later := hgroup
  obtain ⟨rfl, rfl⟩ := List.cons.inj hmessages
  exact ⟨he, hnodup.2 (List.nodup_singleton a), (hcount b).trans (by decide)⟩

/-- The first message under a key may repeat a location, and then its entry does. A later message
with the same locations brings the location once. -/
theorem location_repeated_by_first :
    let a : Location := { file := "a.liquid", line := LineNumber.ofNat? 1 }
    let m : Message := { text := "Hello", locations := [a, a] }
    m ∈ (after [.one m]).toList ∧ ¬ m.locations.Nodup ∧
      (after [.one { text := "Hello" }, .one m]).toList =
        [{ text := "Hello", locations := [a] }] := by
  decide

end Catalog

end LiquidCatalog

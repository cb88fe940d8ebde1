import LiquidCatalog.Proofs.Catalog.History
import LiquidCatalog.Proofs.Catalog.Merge

/-!
What a catalog covers.

A catalog covers a message if its entry for the message has all that the message says. A message is
covered once it has been inserted, and it stays so, since an entry only ever gains: a plural that
is set stays set, and no location is lost. Inserting a message changes nothing exactly if the
catalog covers the message.
-/

namespace LiquidCatalog

/-! ### Entries -/

namespace Message

/-- The entry has all that a message with its key says. -/
structure Covers (e m : Message) : Prop where
  plural_isSome : m.plural.isSome → e.plural.isSome
  locations_subset : m.locations ⊆ e.locations

lemma addLocations_eq_left_iff {old new : List Location} :
    addLocations old new = old ↔ new ⊆ old := by
  constructor
  · intro h l hl
    rw [← h]
    exact mem_addLocations.2 (.inr hl)
  · intro h
    have hnone : new.removeAll old = [] :=
      List.filter_eq_nil_iff.2 fun l hl => by simp [h hl]
    rw [addLocations_eq, hnone, List.eraseDups_nil, List.append_nil]

lemma covers_refl (m : Message) : m.Covers m := ⟨id, List.Subset.refl _⟩

lemma covers_absorb (e m : Message) : (e.absorb m).Covers m where
  plural_isSome h := by
    rw [plural_absorb]
    cases e.plural <;> simp [h]
  locations_subset _ hl := mem_addLocations.2 (.inr hl)

/-- An entry loses nothing. -/
lemma Covers.absorb {e m : Message} (h : e.Covers m) (n : Message) : (e.absorb n).Covers m where
  plural_isSome hm := by
    obtain ⟨p, hp⟩ := Option.isSome_iff_exists.1 (h.plural_isSome hm)
    simp [hp]
  locations_subset _ hl := mem_addLocations.2 (.inl (h.locations_subset hl))

lemma absorb_eq_self_iff {e m : Message} : e.absorb m = e ↔ e.Covers m := by
  constructor
  · intro h
    rw [← h]
    exact covers_absorb e m
  · intro h
    have hplural : (e.plural <|> m.plural) = e.plural := by
      rcases he : e.plural with _ | p
      · have hm : m.plural = none := by
          simpa [he] using h.plural_isSome
        simp [hm]
      · rfl
    rw [absorb, hplural, addLocations_eq_left_iff.2 h.locations_subset]

end Message

/-! ### Catalogs -/

namespace Catalog

/-- The entry for the message's key covers the message. -/
def Covers (c : Catalog) (m : Message) : Prop :=
  ∃ e, c.get? m.key.1 m.key.2 = some e ∧ e.Covers m

variable {c : Catalog} {m : Message}

lemma covers_of_mem (hm : m ∈ c.toList) : c.Covers m :=
  ⟨m, find?_of_mem c.keys_nodup hm, m.covers_refl⟩

lemma covers_insert (c : Catalog) (m : Message) : (c.insert m).Covers m := by
  rcases hget : c.get? m.key.1 m.key.2 with _ | e
  · exact ⟨m, by rw [get?_insert, if_pos rfl, hget]; rfl, m.covers_refl⟩
  · exact ⟨e.absorb m, by rw [get?_insert, if_pos rfl, hget]; rfl, e.covers_absorb m⟩

/-- What is covered stays covered. -/
lemma Covers.insert (h : c.Covers m) (n : Message) : (c.insert n).Covers m := by
  obtain ⟨e, hget, he⟩ := h
  by_cases hkey : n.key = m.key
  · exact ⟨e.absorb n, by rw [get?_insert, if_pos hkey, hget]; rfl, he.absorb n⟩
  · exact ⟨e, by rw [get?_insert, if_neg hkey, hget], he⟩

lemma Covers.insertMany (h : c.Covers m) (ms : List Message) : (c.insertMany ms).Covers m := by
  induction ms generalizing c with
  | nil => exact h
  | cons n ms ih => exact ih (h.insert n)

lemma covers_insertMany (c : Catalog) {ms : List Message} (hm : m ∈ ms) :
    (c.insertMany ms).Covers m := by
  induction ms generalizing c with
  | nil => cases hm
  | cons n ms ih =>
    rcases List.mem_cons.1 hm with rfl | hm
    · exact (c.covers_insert m).insertMany ms
    · exact ih (c.insert n) hm

/-- **What changes nothing**: a message that the catalog covers, and no other. -/
lemma insert_eq_self_iff : c.insert m = c ↔ c.Covers m := by
  constructor
  · intro h
    rw [← h]
    exact c.covers_insert m
  · rintro ⟨e, hget, he⟩
    refine eq_of_get?_eq ?_ fun k => ?_
    · have hmem : m.key ∈ c.keys := by
        have hkey : e.key = m.key := by simpa using List.find?_some hget
        exact List.mem_map.2 ⟨e, List.mem_of_find?_eq_some hget, hkey⟩
      rw [keys_insert, if_pos hmem]
    · rw [get?_insert]
      by_cases hk : m.key = k
      · subst hk
        rw [if_pos rfl, hget]
        exact congrArg some (Message.absorb_eq_self_iff.2 he)
      · rw [if_neg hk]

lemma insertMany_eq_self_iff {ms : List Message} : c.insertMany ms = c ↔ ∀ m ∈ ms, c.Covers m := by
  constructor
  · -- nothing is lost on the way, so the catalog at the end covers all of them
    intro h m hm
    rw [← h]
    exact c.covers_insertMany hm
  · intro h
    induction ms with
    | nil => rfl
    | cons m ms ih =>
      rw [List.forall_mem_cons] at h
      rw [insertMany_cons, insert_eq_self_iff.2 h.1, ih h.2]

/-- **Repeats are absorbed.** After any history, inserting a message of the history again changes
nothing, wherever in the history it is, and neither does merging the catalog into itself. -/
theorem after_absorbs_repeats (as : List Addition) :
    (∀ m ∈ added as, (after as).insert m = after as) ∧ (after as).merge (after as) = after as := by
  constructor
  · intro m hm
    have hcovers : (after as).Covers m := by
      rw [after, foldl_perform]
      exact covers_insertMany ∅ hm
    exact insert_eq_self_iff.2 hcovers
  · exact insertMany_eq_self_iff.2 fun e he => covers_of_mem he

/-- The first message of three under a key comes again: the entry has got a plural that is not in
the message, and locations from the other two. -/
theorem after_absorbs_repeats_first :
    let a : Location := { file := "a.liquid" }
    let b : Location := { file := "b.liquid", comment := some "" }
    let m : Message := { text := "file", locations := [a, a] }
    let as : List Addition :=
      [.one m, .many [{ m with plural := some "files", locations := [b, a] }, { text := "" }],
        .one { m with plural := some "filez" }]
    m ∈ added as ∧ (after as).insert m = after as ∧
      (after as).toList =
        [{ m with plural := some "files", locations := [a, a, b] }, { text := "" }] := by
  intro a b m as
  have hm : m ∈ added as := by decide
  exact ⟨hm, (after_absorbs_repeats as).1 m hm, by decide⟩

end Catalog

end LiquidCatalog

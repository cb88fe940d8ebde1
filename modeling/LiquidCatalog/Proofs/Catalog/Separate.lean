import LiquidCatalog.Proofs.Catalog.OfTemplates
import LiquidCatalog.Proofs.Provenance

/-!
Which templates share an entry.

An entry has the context of each template that it is located in. Templates at different paths whose
names have no dots have different contexts, so no entry of their catalog has messages of two of
them.
-/

namespace LiquidCatalog

/-- The template is called `name` below the base, and the name has no dots. -/
structure Template.IsCalled (b : BasePath) (name : String) (t : Template) : Prop where
  path_eq : t.path = b.text ++ (name ++ ".liquid")
  dot_not_mem : '.' ∉ name.toList

namespace Template

lemma context_of_mem_keys {b : BasePath} {t : Template} {k : Message.Key} (hk : k ∈ t.keys b) :
    k.2 = some (b.context t.path) := by
  obtain ⟨m, hm, rfl⟩ := List.mem_map.1 hk
  obtain ⟨o, -, rfl⟩ := List.mem_map.1 hm
  rfl

variable {b : BasePath} {name name' : String} {t t' : Template}

lemma IsCalled.context_eq (h : t.IsCalled b name) :
    b.context t.path = String.ofList (Path.dotted name.toList) := by
  rw [h.path_eq, b.context_append]

lemma IsCalled.path_unique (h : t.IsCalled b name) (h' : t'.IsCalled b name')
    (hcontext : b.context t.path = b.context t'.path) : t.path = t'.path := by
  rw [h.context_eq, h'.context_eq, String.ofList_inj] at hcontext
  have hname := Path.dotted_injective h.dot_not_mem h'.dot_not_mem hcontext
  rw [h.path_eq, h'.path_eq, String.toList_inj.1 hname]

end Template

namespace Catalog

/-- The templates that have a key are all at one path, and so is the entry for the key. -/
lemma locations_entryOf {b : BasePath} {ts : List Template} {k : Message.Key} {t : Template}
    (ht : t ∈ ts) (hk : k ∈ t.keys b) (hpath : ∀ t' ∈ ts, k ∈ t'.keys b → t'.path = t.path) :
    (entryOf b ts k).locations = [b.location t.path] := by
  refine eraseDups_of_forall_eq ?_ ?_
  · intro l hl
    obtain ⟨t', ht', rfl⟩ := List.mem_map.1 hl
    obtain ⟨ht', hk'⟩ := List.mem_filter.1 ht'
    rw [hpath t' ht' (of_decide_eq_true hk')]
  · have hmem : t ∈ ts.filter (k ∈ ·.keys b) := List.mem_filter.2 ⟨ht, decide_eq_true hk⟩
    exact List.ne_nil_of_mem (List.mem_map_of_mem hmem)

/-- An entry has the context of each template that it is located in. -/
lemma exists_template_of_mem {b : BasePath} {ts : List Template} {m : Message}
    (hm : m ∈ (ofTemplates b.provenance ts).toList) :
    ∃ context, m.context = some context ∧ m.locations ≠ [] ∧
      ∀ l ∈ m.locations, ∃ T ∈ ts, b.location T.path = l ∧ b.context T.path = context := by
  rw [toList_ofTemplates] at hm
  obtain ⟨k, hk, rfl⟩ := List.mem_map.1 hm
  obtain ⟨T, hT, hkT⟩ := List.mem_flatMap.1 (List.mem_eraseDups.1 hk)
  have hcontext := Template.context_of_mem_keys hkT
  have hmem : b.location T.path ∈ (entryOf b ts k).locations := by
    refine List.mem_eraseDups.2 (List.mem_map_of_mem ?_)
    exact List.mem_filter.2 ⟨hT, decide_eq_true hkT⟩
  refine ⟨b.context T.path, hcontext, List.ne_nil_of_mem hmem, fun l hl => ?_⟩
  obtain ⟨T', hT', rfl⟩ := List.mem_map.1 (List.mem_eraseDups.1 hl)
  obtain ⟨hT', hkT'⟩ := List.mem_filter.1 hT'
  have hcontext' := Template.context_of_mem_keys (of_decide_eq_true hkT')
  exact ⟨T', hT', rfl, Option.some.inj (hcontext'.symm.trans hcontext)⟩

/-- **Templates with different paths and names without dots** do not share an entry: each entry has
one location, that of the one template whose name gives the context of the entry. -/
theorem location_of_dotless_names (b : BasePath) {ts : List Template}
    (hpaths : (ts.map (·.path)).Nodup) (hnames : ∀ t ∈ ts, ∃ name, t.IsCalled b name) :
    ∀ m ∈ (ofTemplates b.provenance ts).toList, ∃ t ∈ ts, ∃ name, t.IsCalled b name ∧
      m.context = some (String.ofList (Path.dotted name.toList)) ∧
      m.locations = [{ file := name ++ ".liquid" }] ∧
      ∀ t' ∈ ts, ∀ name', t'.IsCalled b name' →
        m.context = some (String.ofList (Path.dotted name'.toList)) → t' = t := by
  intro m hm
  rw [toList_ofTemplates] at hm
  obtain ⟨k, hk, rfl⟩ := List.mem_map.1 hm
  obtain ⟨t, ht, hk⟩ := List.mem_flatMap.1 (List.mem_eraseDups.1 hk)
  obtain ⟨name, hname⟩ := hnames t ht
  have hcontext : (entryOf b ts k).context = some (b.context t.path) :=
    Template.context_of_mem_keys hk
  have hpath : ∀ t' ∈ ts, k ∈ t'.keys b → t'.path = t.path := by
    intro t' ht' hk'
    obtain ⟨name', hname'⟩ := hnames t' ht'
    refine hname'.path_unique hname (Option.some.inj ?_)
    rw [← Template.context_of_mem_keys hk', Template.context_of_mem_keys hk]
  refine ⟨t, ht, name, hname, ?_, ?_, ?_⟩
  · rw [hcontext, hname.context_eq]
  · rw [locations_entryOf ht hk hpath, hname.path_eq, b.location_append]
  · intro t' ht' name' hname' hcontext'
    refine List.inj_on_of_nodup_map hpaths ht' ht (hname'.path_unique hname ?_)
    rw [hcontext] at hcontext'
    rw [hname'.context_eq, Option.some.inj hcontext']

/-- Two templates have the same text, and one has it twice. -/
theorem location_of_dotless_names_pair :
    let b : BasePath := ⟨"/app/"⟩
    let ts : List Template :=
      [⟨"/app/a/b.liquid", "\x7b\x7b 'Hi' | t \x7d\x7d \x7b\x7b 'Hi' | t \x7d\x7d"⟩,
        ⟨"/app/b.liquid", "\x7b\x7b 'Hi' | t \x7d\x7d"⟩]
    (ts.map (·.path)).Nodup ∧ (∀ t ∈ ts, ∃ name, t.IsCalled b name) ∧
      (ofTemplates b.provenance ts).size = 2 ∧
      ∀ m ∈ (ofTemplates b.provenance ts).toList, ∃ t ∈ ts, ∃ name, t.IsCalled b name ∧
        m.context = some (String.ofList (Path.dotted name.toList)) ∧
        m.locations = [{ file := name ++ ".liquid" }] := by
  intro b ts
  have hpaths : (ts.map (·.path)).Nodup := by decide
  have hnames : ∀ t ∈ ts, ∃ name, t.IsCalled b name := by
    intro t ht
    rcases List.mem_pair.1 ht with rfl | rfl
    · exact ⟨"a/b", by decide, by decide⟩
    · exact ⟨"b", by decide, by decide⟩
  refine ⟨hpaths, hnames, by decide, fun m hm => ?_⟩
  obtain ⟨t, ht, name, hname, hcontext, hlocations, -⟩ :=
    location_of_dotless_names b hpaths hnames m hm
  exact ⟨t, ht, name, hname, hcontext, hlocations⟩

end Catalog

end LiquidCatalog

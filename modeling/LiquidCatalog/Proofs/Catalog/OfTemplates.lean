import Mathlib.Data.List.Nodup
import LiquidCatalog.Liquid.Template
import LiquidCatalog.Po.Catalog
import LiquidCatalog.Proofs.Catalog.Grouping
import LiquidCatalog.Proofs.Po.RoundTrip

/-!
The PO file of a set of templates.

The file has one entry for each text and context that some template asks for, in the order in
which they first occur. The entry lists the templates that ask for it, each once.
-/

namespace LiquidCatalog

open Po Output

/-! ### What a template asks for -/

def Template.keys (b : BasePath) (t : Template) : List Message.Key :=
  (t.messages b.provenance).map Message.key

/-- A message as it is found at one place. -/
structure Message.FoundAt (l : Location) (m : Message) : Prop where
  text_ne : m.text ≠ ""
  plural_eq : m.plural = none
  context_isSome : m.context.isSome
  locations_eq : m.locations = [l]

lemma Template.foundAt_of_mem {b : BasePath} {t : Template} {m : Message}
    (hm : m ∈ t.messages b.provenance) : m.FoundAt (b.location t.path) := by
  obtain ⟨o, ho, rfl⟩ := List.mem_map.1 hm
  have hvalue : o.value ≠ [] := by
    have hvisible := (List.mem_filter.1 ho).2
    rintro h
    simp [h] at hvisible
  exact ⟨by simpa [Liquid.message] using hvalue, rfl, rfl, rfl⟩

lemma Template.mem_keys {b : BasePath} {t : Template} {k : Message.Key} (hk : k ∈ t.keys b) :
    k.1 ≠ "" ∧ k.2.isSome := by
  obtain ⟨m, hm, rfl⟩ := List.mem_map.1 hk
  have hfound := foundAt_of_mem hm
  exact ⟨hfound.text_ne, hfound.context_isSome⟩

/-! ### The entries -/

namespace Catalog

/-- The entry for a key: the places of all templates that have it, each once. -/
def entryOf (b : BasePath) (ts : List Template) (k : Message.Key) : Message where
  text := k.1
  context := k.2
  locations := ((ts.filter (k ∈ ·.keys b)).map (b.location ·.path)).eraseDups

/-- Messages found each at one place make an entry with these places. -/
lemma collect_found {k : Message.Key} {ms : List Message} (hne : ms ≠ [])
    (hkey : ∀ m ∈ ms, m.key = k) (hfound : ∀ m ∈ ms, ∃ l, m.FoundAt l) :
    Message.collect none ms =
      some { text := k.1, context := k.2, locations := (ms.flatMap (·.locations)).eraseDups } := by
  obtain ⟨m, ms, rfl⟩ := List.exists_cons_of_ne_nil hne
  obtain ⟨l, hm⟩ := hfound m (by simp)
  have hplural : ms.findSome? (·.plural) = none := by
    rw [List.findSome?_eq_none_iff]
    intro m' hm'
    obtain ⟨l', hl'⟩ := hfound m' (by simp [hm'])
    exact hl'.plural_eq
  have hcollect : Message.collect none (m :: ms) = Message.collect (some m) ms := rfl
  rw [hcollect, Message.collect_some, hplural, hm.plural_eq, Message.addLocations_eq,
    List.flatMap_cons, List.eraseDups_append, hm.locations_eq, ← hkey m (by simp)]
  simp [Message.key, List.eraseDups_cons]

def places (b : BasePath) (k : Message.Key) (t : Template) : List Location :=
  ((t.messages b.provenance).filter (·.key = k)).flatMap (·.locations)

lemma eraseDups_places (b : BasePath) (k : Message.Key) (t : Template) :
    (places b k t).eraseDups = if k ∈ t.keys b then [b.location t.path] else [] := by
  by_cases hk : k ∈ t.keys b
  · obtain ⟨m, hm, hkey⟩ := List.mem_map.1 hk
    have hmem : m ∈ (t.messages b.provenance).filter (·.key = k) := by simp [hm, hkey]
    have hplace : b.location t.path ∈ places b k t := by
      refine List.mem_flatMap.2 ⟨m, hmem, ?_⟩
      rw [(Template.foundAt_of_mem hm).locations_eq]
      exact List.mem_singleton_self _
    rw [if_pos hk]
    refine eraseDups_of_forall_eq ?_ ?_
    · intro l hl
      obtain ⟨m', hm', hl⟩ := List.mem_flatMap.1 hl
      rw [(Template.foundAt_of_mem (List.mem_filter.1 hm').1).locations_eq] at hl
      exact List.mem_singleton.1 hl
    · exact List.ne_nil_of_mem hplace
  · have hnil : (t.messages b.provenance).filter (·.key = k) = [] := by
      simp only [List.filter_eq_nil_iff, decide_eq_true_eq]
      exact fun m hm hkey => hk (List.mem_map.2 ⟨m, hm, hkey⟩)
    simp [places, hnil, hk]

lemma eraseDups_flatMap_places (b : BasePath) (ts : List Template) (k : Message.Key) :
    (ts.flatMap (places b k)).eraseDups = (entryOf b ts k).locations := by
  induction ts with
  | nil => rfl
  | cons t ts ih =>
    have hcons : (entryOf b (t :: ts) k).locations =
        ((places b k t).eraseDups ++
          (ts.filter (k ∈ ·.keys b)).map (b.location ·.path)).eraseDups := by
      rw [eraseDups_places]
      by_cases hk : k ∈ t.keys b <;> simp [entryOf, hk]
    rw [hcons, List.flatMap_cons]
    refine eraseDups_append_congr ?_ ih
    exact (eraseDups_of_nodup (nodup_eraseDups _)).symm

def found (b : BasePath) (ts : List Template) (k : Message.Key) : List Message :=
  (ts.flatMap (·.messages b.provenance)).filter (·.key = k)

lemma found_ne_nil {b : BasePath} {ts : List Template} {k : Message.Key}
    (hk : k ∈ ts.flatMap (·.keys b)) : found b ts k ≠ [] := by
  obtain ⟨t, ht, hkt⟩ := List.mem_flatMap.1 hk
  obtain ⟨m, hm, hkey⟩ := List.mem_map.1 hkt
  have hmem : m ∈ found b ts k := by
    simp only [found, List.mem_filter, List.mem_flatMap, decide_eq_true_eq]
    exact ⟨⟨t, ht, hm⟩, hkey⟩
  exact List.ne_nil_of_mem hmem

lemma foundAt_of_mem_found {b : BasePath} {ts : List Template} {k : Message.Key} {m : Message}
    (hm : m ∈ found b ts k) : m.key = k ∧ ∃ l, m.FoundAt l := by
  obtain ⟨hm, hkey⟩ := List.mem_filter.1 hm
  obtain ⟨t, -, hm⟩ := List.mem_flatMap.1 hm
  exact ⟨of_decide_eq_true hkey, _, Template.foundAt_of_mem hm⟩

lemma locations_found (b : BasePath) (ts : List Template) (k : Message.Key) :
    (found b ts k).flatMap (·.locations) = ts.flatMap (places b k) := by
  simp only [found, List.filter_flatMap, List.flatMap_assoc]
  rfl

lemma get?_ofTemplates (b : BasePath) (ts : List Template) {k : Message.Key}
    (hk : k ∈ ts.flatMap (·.keys b)) :
    (ofTemplates b.provenance ts).get? k.1 k.2 = some (entryOf b ts k) := by
  have hget : (ofTemplates b.provenance ts).get? k.1 k.2 = Message.collect none (found b ts k) := by
    rw [ofTemplates, ofList, get?_insertMany]
    rfl
  have hkey : ∀ m ∈ found b ts k, m.key = k := fun m hm => (foundAt_of_mem_found hm).1
  have hfound : ∀ m ∈ found b ts k, ∃ l, m.FoundAt l := fun m hm => (foundAt_of_mem_found hm).2
  rw [hget, collect_found (found_ne_nil hk) hkey hfound, locations_found, eraseDups_flatMap_places]
  rfl

lemma toList_ofTemplates (b : BasePath) (ts : List Template) :
    (ofTemplates b.provenance ts).toList =
      (ts.flatMap (·.keys b)).eraseDups.map (entryOf b ts) := by
  have hkeys : (ofTemplates b.provenance ts).keys = (ts.flatMap (·.keys b)).eraseDups := by
    rw [ofTemplates, ofList, keys_insertMany, List.map_flatMap]
    rfl
  rw [toList_eq_filterMap, hkeys, ← List.filterMap_eq_map]
  refine List.filterMap_congr fun k hk => ?_
  exact get?_ofTemplates b ts (List.mem_eraseDups.1 hk)

/-! ### The file -/

/-- A sink with room for the file receives it, and all entries are counted. -/
lemma writePo_of_fits (header : Option Header) (c : Catalog) {s : Sink}
    (hfit : s.Fits (rendered (c.poEntries header))) (hflush : s.flushFault = none) :
    c.writePo header s =
      (.ok (c.poEntries header).length, (s.push (rendered (c.poEntries header))).2) := by
  obtain ⟨w, hall, hw⟩ := (Writer.intact_ofSink s).writeAll_of_fits (c.poEntries header) hfit
  have hclose := hw.closeIfOpen_of_fits hfit hflush
  have hcount : w.entries = (c.poEntries header).length := by
    obtain ⟨b, rfl, -⟩ := hw
    rfl
  simp only [List.nil_append] at hclose
  simp only [writePo, Writer.session, hall, Id.run, bind, pure, hclose, ← hcount]
  rfl

/-- The keys of the entries differ: no message has the key of the header. -/
lemma nodup_entryKeys (b : BasePath) (ts : List Template) (header : Option Header) :
    (((ofTemplates b.provenance ts).poEntries header).map Entry.key).Nodup := by
  have hmap : ((ofTemplates b.provenance ts).poEntries header).map Entry.key =
      header.toList.map (fun _ => ("", none)) ++ (ts.flatMap (·.keys b)).eraseDups := by
    rw [poEntries, toList_ofTemplates, List.map_append, List.map_map, List.map_map, List.map_map]
    congr 1
    exact List.map_id _
  have hheader : ("", none) ∉ (ts.flatMap (·.keys b)).eraseDups := by
    intro hk
    obtain ⟨t, -, hk⟩ := List.mem_flatMap.1 (List.mem_eraseDups.1 hk)
    exact (Template.mem_keys hk).1 rfl
  rw [hmap]
  cases header with
  | none => exact nodup_eraseDups _
  | some h => exact List.nodup_cons.2 ⟨hheader, nodup_eraseDups _⟩

/-- **The file of a set of templates.** It has the header, if there is one, and then one entry for
each key, in the order in which the keys first occur. Its text shows no two entries with the same
key lines, and each message has a context and a text that is not empty. -/
theorem writePo_ofTemplates (b : BasePath) (ts : List Template) (header : Option Header) :
    let keys := (ts.flatMap (·.keys b)).eraseDups
    let entries := header.toList.map Entry.header ++ keys.map fun k => .message (entryOf b ts k)
    (ofTemplates b.provenance ts).writePo header {} =
        (.ok (header.toList.length + keys.length), { received := rendered entries }) ∧
      ((lineGroups (document entries)).map keyLines).Nodup ∧
      ∀ k ∈ keys, k.1 ≠ "" ∧ ∃ c, k.2 = some c ∧
        keyLines (Entry.message (entryOf b ts k)).group =
          [(Line.msgctxt c).chars, (Line.msgid k.1).chars] := by
  intro keys entries
  have hentries : (ofTemplates b.provenance ts).poEntries header = entries := by
    rw [poEntries, toList_ofTemplates, List.map_map]
    rfl
  refine ⟨?_, ?_, ?_⟩
  · have hfit : ({} : Sink).Fits (rendered entries) := by
      rintro n ⟨⟩
    rw [← hentries] at hfit ⊢
    rw [writePo_of_fits header _ hfit rfl, hentries]
    simp [entries, Sink.push]
  · have hkeys := nodup_entryKeys b ts header
    rw [hentries] at hkeys
    rw [lineGroups_document, List.map_map]
    refine List.pairwise_map.2 ((List.pairwise_map.1 hkeys).imp ?_)
    exact fun hne heq => hne (key_eq_of_keyLines_eq heq)
  · intro k hk
    obtain ⟨t, -, hk⟩ := List.mem_flatMap.1 (List.mem_eraseDups.1 hk)
    obtain ⟨htext, hcontext⟩ := Template.mem_keys hk
    obtain ⟨c, hc⟩ := Option.isSome_iff_exists.1 hcontext
    refine ⟨htext, c, hc, ?_⟩
    rw [keyLines_group]
    simp [Entry.key, Message.key, entryOf, linesOfKey, hc]

/-- Two templates ask for the same text in one context, and one asks for it twice. -/
theorem writePo_ofTemplates_shared :
    let b : BasePath := ⟨"/app/"⟩
    let ts : List Template :=
      [⟨"/app/A.liquid", "\x7b\x7b 'Hi' | t \x7d\x7d \x7b\x7b 'Hi' | t \x7d\x7d"⟩,
        ⟨"/app/A", "\x7b\x7b 'Hi' | t \x7d\x7d"⟩]
    let k : Message.Key := ("Hi", some "A")
    let text := "#: A.liquid\n#: A\nmsgctxt \"A\"\nmsgid \"Hi\"\nmsgstr \"\"\n"
    (ofTemplates b.provenance ts).writePo none {} =
        (.ok 1, { received := Text.utf8 text.toList }) ∧
      k ∈ (ts.flatMap (·.keys b)).eraseDups ∧
      keyLines (Entry.message (entryOf b ts k)).group =
        ["msgctxt \"A\"".toList, "msgid \"Hi\"".toList] := by
  intro b ts k text
  have hk : k ∈ (ts.flatMap (·.keys b)).eraseDups := by decide
  obtain ⟨hfile, -, hkeys⟩ := writePo_ofTemplates b ts none
  obtain ⟨-, c, hc, hlines⟩ := hkeys k hk
  obtain rfl : "A" = c := Option.some.inj hc
  exact ⟨hfile.trans (by decide), hk, hlines.trans (by decide)⟩

end Catalog

end LiquidCatalog

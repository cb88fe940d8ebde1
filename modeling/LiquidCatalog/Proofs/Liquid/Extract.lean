import LiquidCatalog.Proofs.Liquid.Block
import LiquidCatalog.Proofs.Liquid.Marker

/-!
What is extracted from a template.

The messages are the markers that a scan from left to right picks, without those that begin inside
a block and those whose literal is empty. A template may be cut where no block is cut: behind the
cut the same texts are found as in the rest alone, except that a marker may reach over the cut.
-/

namespace LiquidCatalog.Liquid

open Text

/-! ### Visible markers -/

/-- The marker gives a message: its literal is not empty, and no block hides where it begins. -/
def IsVisible (bs : List (Occurrence Block)) (m : Occurrence (List Char)) : Prop :=
  m.value ≠ [] ∧ ∀ b ∈ bs, ¬ b.Covers m.start

instance (bs : List (Occurrence Block)) (m : Occurrence (List Char)) :
    Decidable (IsVisible bs m) :=
  inferInstanceAs (Decidable (_ ∧ _))

lemma visibleMarkers_eq (s : List Char) :
    visibleMarkers s = (markers s).filter (IsVisible (blocks s)) := by
  refine List.filter_congr fun m _ => ?_
  rw [Bool.eq_iff_iff, decide_eq_true_iff]
  simp [IsVisible]

/-- **The markers of the grammar are extracted.** At most one marker begins at each place. The
markers and the blocks that a scan from left to right picks are determined, and every marker that
begins in no block and has a literal that is not empty gives one message: its text is the literal,
and where it comes from is found from the whole marker. -/
theorem extract_eq_picked (p : Provenance) (file content : String) :
    let s := content.toList
    (∀ m m' : Occurrence (List Char), m.StandsIn IsMarker s → m'.StandsIn IsMarker s →
        m.start = m'.start → m = m') ∧
      ∃ ms bs, (∀ os, Picked (Occurrence.StandsIn IsMarker s) 0 os ↔ os = ms) ∧
        (∀ os, Picked (Occurrence.StandsIn IsBlock s) 0 os ↔ os = bs) ∧
        extract p file content =
          (ms.filter fun m => m.value ≠ [] ∧ ∀ b ∈ bs, ¬ b.Covers m.start).map fun m =>
            let marker : Expression := ⟨file, String.ofList (m.source s)⟩
            { text := String.ofList m.value
              context := some (p.context marker)
              locations := [p.location marker] } := by
  intro s
  refine ⟨fun m m' hm hm' => hm.unique Marker.accepts hm', markers s, blocks s, ?_, ?_, ?_⟩
  · exact fun os => picked_iff Marker.accepts
  · exact fun os => picked_iff Block.accepts
  · exact congrArg (List.map (message p file s)) (visibleMarkers_eq s)

/-! ### Texts -/

/-- The texts of a template, when its first `k` characters belong to a marker that begins before
it. -/
def textsAfter (k : Nat) (s : List Char) : List (List Char) :=
  ((occurrencesFrom Marker.read? 0 k s).filter (IsVisible (blocks s))).map (·.value)

def texts (s : List Char) : List (List Char) := textsAfter 0 s

lemma texts_eq (s : List Char) :
    texts s = ((markers s).filter (IsVisible (blocks s))).map (·.value) := rfl

lemma map_text_extract (p : Provenance) (file content : String) :
    (extract p file content).map (·.text) = (texts content.toList).map String.ofList := by
  rw [extract, visibleMarkers_eq, texts_eq, List.map_map, List.map_map]
  rfl

/-- Visibility is settled on each side of a cut that no block reaches over. -/
lemma filter_isVisible_append {n : Nat} {ms ms' : List (Occurrence (List Char))}
    {bs bs' : List (Occurrence Block)} (hms : ∀ m ∈ ms, m.start < n) (hms' : ∀ m ∈ ms', n ≤ m.start)
    (hbs : ∀ b ∈ bs, b.start + b.length ≤ n) (hbs' : ∀ b ∈ bs', n ≤ b.start) :
    (ms ++ ms').filter (IsVisible (bs ++ bs')) =
      ms.filter (IsVisible bs) ++ ms'.filter (IsVisible bs') := by
  rw [List.filter_append]
  congr 1
  · refine List.filter_congr fun m hm => ?_
    have hfar : ∀ b ∈ bs', ¬ b.Covers m.start := by
      rintro b hb ⟨hle, -⟩
      have := hms m hm
      have := hbs' b hb
      omega
    rw [decide_eq_decide, IsVisible, IsVisible, List.forall_mem_append]
    exact ⟨fun h => ⟨h.1, h.2.1⟩, fun h => ⟨h.1, h.2, hfar⟩⟩
  · refine List.filter_congr fun m hm => ?_
    have hpast : ∀ b ∈ bs, ¬ b.Covers m.start := by
      rintro b hb ⟨-, hlt⟩
      have := hms' m hm
      have := hbs b hb
      omega
    rw [decide_eq_decide, IsVisible, IsVisible, List.forall_mem_append]
    exact ⟨fun h => ⟨h.1, h.2.2⟩, fun h => ⟨h.1, hpast, h.2⟩⟩

/-- Where a text stands does not matter. -/
lemma map_value_filter_shift (k : Nat) (ms : List (Occurrence (List Char)))
    (bs : List (Occurrence Block)) :
    ((ms.map (Occurrence.shift k)).filter (IsVisible (bs.map (Occurrence.shift k)))).map (·.value) =
      (ms.filter (IsVisible bs)).map (·.value) := by
  rw [List.filter_map, List.map_map]
  have hvisible : ∀ m ∈ ms, (decide (IsVisible (bs.map (Occurrence.shift k)) (m.shift k))) =
      decide (IsVisible bs m) := by
    intro m _
    rw [decide_eq_decide]
    simp only [IsVisible, List.forall_mem_map, Occurrence.Covers, Occurrence.shift]
    have hcovers (b : Occurrence Block) :
        (k + b.start ≤ k + m.start ∧ k + m.start < k + b.start + b.length) ↔
          (b.start ≤ m.start ∧ m.start < b.start + b.length) := by omega
    simp only [hcovers]
  exact congrArg (List.map (·.value)) (List.filter_congr hvisible)

/-- A template is cut at the end of `u`, where no block is cut. -/
lemma texts_append {u : List Char} (hu : Reader.Separates Block.read? u) (v : List Char) :
    texts (u ++ v) =
      (((markers (u ++ v)).filter (·.start < u.length)).filter (IsVisible (blocks u))).map
          (·.value) ++
        textsAfter (reach (markers (u ++ v)) u.length) v := by
  have hmarkers := occurrencesFrom_append Marker.read? 0 0 u v
  have hblocks := hu 0 v
  simp only [Nat.zero_add, Nat.zero_sub, Nat.zero_max] at hmarkers hblocks
  have hshiftM := occurrencesFrom_add Marker.read? u.length 0 (reach (markers (u ++ v)) u.length) v
  have hshiftB := occurrencesFrom_add Block.read? u.length 0 0 v
  rw [Nat.add_zero] at hshiftM hshiftB
  have hcut : (markers (u ++ v)).filter (IsVisible (blocks (u ++ v))) =
      ((markers (u ++ v)).filter (·.start < u.length)).filter (IsVisible (blocks u)) ++
        (occurrencesFrom Marker.read? u.length (reach (markers (u ++ v)) u.length) v).filter
          (IsVisible (occurrencesFrom Block.read? u.length 0 v)) := by
    rw [blocks, occurrences, hblocks]
    conv_lhs => rw [markers, occurrences, hmarkers]
    refine filter_isVisible_append (n := u.length) ?_ ?_ ?_ ?_
    · exact fun m hm => of_decide_eq_true (List.mem_filter.1 hm).2
    · exact fun m hm => Nat.le_trans (Nat.le_add_right _ _) (start_of_mem_occurrencesFrom hm)
    · intro b hb
      have := (end_of_mem_occurrencesFrom hb).2
      omega
    · exact fun b hb => start_of_mem_occurrencesFrom hb
  rw [hshiftM, hshiftB] at hcut
  rw [texts_eq, hcut, List.map_append, map_value_filter_shift]
  rfl

/-- A template is cut where neither a block nor a marker is cut. -/
lemma texts_append_of_separates {u : List Char} (hb : Reader.Separates Block.read? u)
    (hm : Reader.Separates Marker.read? u) (v : List Char) :
    texts (u ++ v) = texts u ++ texts v := by
  have hmarkers := hm 0 v
  rw [Nat.zero_add] at hmarkers
  have hu : ∀ m ∈ markers u, m.start < u.length ∧ m.start + m.length ≤ u.length := by
    intro m hmem
    have := end_of_mem_occurrencesFrom hmem
    omega
  have hv : ∀ m ∈ occurrencesFrom Marker.read? u.length 0 v, u.length ≤ m.start :=
    fun m hmem => start_of_mem_occurrencesFrom hmem
  have hfilter : (markers (u ++ v)).filter (·.start < u.length) = markers u := by
    rw [markers, occurrences, hmarkers, List.filter_append, List.filter_eq_self.2,
      List.filter_eq_nil_iff.2, List.append_nil]
    · rfl
    · intro m hmem
      have := hv m hmem
      simpa using this
    · exact fun m hmem => decide_eq_true (hu m hmem).1
  have hreach : reach (markers (u ++ v)) u.length = 0 := by
    rw [reach_eq_zero_iff, markers, occurrences, hmarkers, List.forall_mem_append]
    refine ⟨fun m hmem _ => (hu m hmem).2, fun m hmem hlt => ?_⟩
    have := hv m hmem
    omega
  rw [texts_append hb, hfilter, hreach]
  rfl

lemma texts_of_idle {u : List Char} (hu : Idle Marker.read? u) : texts u = [] := by
  rw [texts, textsAfter, occurrencesFrom_idle hu]
  rfl

lemma texts_of_isMarker {text u : List Char} (hu : IsMarker text u) (hb : Idle Block.read? u) :
    texts u = [text].filter (· ≠ []) := by
  have hblocks : blocks u = [] := occurrencesFrom_idle hb 0
  have hmarkers : markers u = [⟨0, u.length, text⟩] := Marker.accepts.occurrencesFrom_eq hu 0
  rw [texts_eq, hblocks, hmarkers]
  by_cases htext : text = [] <;> simp [IsVisible, htext]

/-- A block behind plain text adds no texts, but a marker that begins in it may reach past it. -/
lemma texts_append_isBlock {a u : List Char} (ha : '{' ∉ a) {b : Block} (hu : IsBlock b u)
    (v : List Char) :
    texts (a ++ u ++ v) = textsAfter (reach (markers (a ++ u ++ v)) (a ++ u).length) v := by
  have hidle := Block.idle_of_not_mem ha
  have hblocks : blocks (a ++ u) = [⟨a.length, u.length, b⟩] := by
    have := occurrencesFrom_idle_append hidle 0 u
    rw [Nat.zero_add, Block.accepts.occurrencesFrom_eq hu] at this
    exact this
  have hhidden : ∀ m ∈ (markers (a ++ u ++ v)).filter (·.start < (a ++ u).length),
      ¬ IsVisible (blocks (a ++ u)) m := by
    rintro m hm ⟨-, hcovers⟩
    obtain ⟨hm, hlt⟩ := List.mem_filter.1 hm
    have hstart : a.length ≤ m.start := by
      rw [markers, occurrences, List.append_assoc,
        occurrencesFrom_idle_append (Marker.idle_of_not_mem ha)] at hm
      have := start_of_mem_occurrencesFrom hm
      omega
    rw [hblocks] at hcovers
    refine hcovers _ (List.mem_singleton_self _) ⟨hstart, ?_⟩
    simpa using hlt
  rw [texts_append (hidle.separates.append (Block.accepts.separates hu)),
    List.filter_eq_nil_iff.2 fun m hm => by simpa using hhidden m hm]
  rfl

lemma texts_of_isBlock {b : Block} {u : List Char} (hu : IsBlock b u) : texts u = [] := by
  have hcut := texts_append_isBlock (a := []) List.not_mem_nil hu []
  rw [List.nil_append, List.append_nil] at hcut
  exact hcut

end LiquidCatalog.Liquid

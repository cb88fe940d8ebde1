import LiquidCatalog.Proofs.Liquid.Segment

/-!
Markers and blocks that cross.

Markers and blocks are found independently of each other. A marker that begins in a block may end
behind it, and then takes away from what follows the block; tags in the literals of two markers may
make a block, which then hides the second one. These are the only ways in which the body of a block
or the text of a literal has an effect on other messages.
-/

namespace LiquidCatalog.Liquid

open Text

/-! ### Markers that reach over the end of a block -/

/-- The texts of the messages of a template, which do not depend on where they come from. -/
def found (p : Provenance) (file : String) (s : List Char) : List String :=
  (extract p file (String.ofList s)).map (·.text)

lemma found_eq (p : Provenance) (file : String) (s : List Char) :
    found p file s = (texts s).map String.ofList := by
  rw [found, map_text_extract, String.toList_ofList]

lemma ofList_injective : Function.Injective String.ofList := fun _ _ h => String.ofList_inj.1 h

/-- **What the body of a block does to the text behind it.** Templates that differ in a block have
the same texts if and only if what follows has the same texts when it is scanned behind the markers
that reach out of the one block and of the other. If no marker ends behind the block it begins in,
the texts are those of what follows. -/
theorem found_block_iff (p : Provenance) (file : String) {a : List Char} (ha : '{' ∉ a) {b : Block}
    (f f' : b.Form) (v : List Char) :
    let front (f : b.Form) := a ++ f.chars
    let beyond (f : b.Form) := reach (markers (front f ++ v)) (front f).length
    (found p file (front f ++ v) = found p file (front f' ++ v) ↔
        textsAfter (beyond f) v = textsAfter (beyond f') v) ∧
      ((∀ m ∈ markers (front f ++ v), m.start < (front f).length →
          m.start + m.length ≤ (front f).length) →
        found p file (front f ++ v) = found p file v) := by
  intro front beyond
  have htexts (f : b.Form) : texts (front f ++ v) = textsAfter (beyond f) v :=
    texts_append_isBlock ha ⟨f, rfl⟩ v
  simp only [found_eq]
  refine ⟨?_, fun hends => ?_⟩
  · rw [(List.map_injective_iff.2 ofList_injective).eq_iff, htexts, htexts]
  · have hbeyond : beyond f = 0 := reach_eq_zero_iff.2 hends
    rw [htexts, hbeyond]
    rfl

/-- The tag as it is usually written, with one blank on each side of the word. -/
def Tag.spaced (word : String) : Tag word := ⟨false, .space, .space, false⟩

lemma Tag.not_infix_of_length_lt {word : String} (t : Tag word) {u : List Char}
    (hu : u.length < word.length) : ¬ t.chars <:+: u := by
  intro ht
  have hlength := ht.length_le
  simp only [Tag.chars, Tag.inner, List.length_cons, List.length_append,
    String.length_toList] at hlength
  omega

/-- A block whose body is too short to hold a closing tag. -/
def Block.short (b : Block) (body : List Char) (hbody : body.length < b.endWord.length) : b.Form :=
  ⟨.spaced b.word, body, .spaced b.endWord, fun t => t.not_infix_of_length_lt hbody⟩

/-- The marker in the first block ends in it, and the second block is empty. -/
theorem found_block_iff_closed :
    let p := BasePath.provenance ⟨""⟩
    let a := "<p>".toList
    let v := "\x7b\x7b 'Hi' | t \x7d\x7d".toList
    let f := Block.comment.short "\x7b\x7b'x'|t:".toList (by decide)
    let f' := Block.comment.short [] (by decide)
    '{' ∉ a ∧ found p "A.liquid" (a ++ f.chars ++ v) = found p "A.liquid" (a ++ f'.chars ++ v) ∧
      found p "A.liquid" (a ++ f.chars ++ v) = ["Hi"] := by
  intro p a v f f'
  have ha : '{' ∉ a := by decide
  have hends : ∀ m ∈ markers (a ++ f.chars ++ v), m.start < (a ++ f.chars).length →
      m.start + m.length ≤ (a ++ f.chars).length := by decide
  have hv : found p "A.liquid" v = ["Hi"] := by decide
  obtain ⟨hiff, htexts⟩ := found_block_iff p "A.liquid" ha f f' v
  exact ⟨ha, hiff.2 (by decide), (htexts hends).trans hv⟩

/-- A quote in a comment takes the next marker away: the body of a block has an effect behind it. -/
theorem found_block_body_matters :
    let p := BasePath.provenance ⟨""⟩
    let v := "\x7b\x7b '\" | t \x7d\x7d' | t \x7d\x7d".toList
    let f := Block.comment.short "\x7b\x7b \"".toList (by decide)
    let f' := Block.comment.short [] (by decide)
    found p "A.liquid" (f.chars ++ v) = [] ∧
      found p "A.liquid" (f'.chars ++ v) = ["\" | t \x7d\x7d"] := by
  decide

/-! ### Blocks that reach from one literal into another -/

/-- An output with a literal in double quotes. -/
def output (text : List Char) : List Char :=
  "\x7b\x7b \"".toList ++ (text ++ "\" | t \x7d\x7d".toList)

def outputs (texts : List String) : List Char := texts.flatMap fun t => output t.toList

lemma isMarker_output {text : List Char} (ht : '"' ∉ text) : IsMarker text (output text) := by
  refine ⟨⟨.output false .space, ⟨.double, text, ht⟩, .space, .space, .space, .outputEnd false⟩,
    rfl, ?_⟩
  simp [Marker.Form.chars, Marker.Form.filterChars, Marker.Opening.chars, Marker.Literal.chars,
    Marker.Quote.char, Marker.Finish.chars, hyphen, Blanks.space, output]

/-- A tag has no quote, so it does not reach out of a literal. -/
lemma idle_wordTag?_append_quote {word : String} {c : Char} (hword : BeginsWith word c)
    (hquote : '"' ∉ word.toList) {u w : List Char} (hu : ∀ t : Tag word, ¬ t.chars <:+: u)
    (hw : Idle (wordTag? word) w) : Idle (wordTag? word) (u ++ '"' :: w) := by
  have htail (t : Tag word) : '"' ∉ t.chars.tail := t.not_mem_tail (by decide) (by decide) hquote
  induction u with
  | nil => exact hw.cons fun v => rfl
  | cons d u ih =>
    refine (ih fun t ht => hu t (List.infix_cons ht)).cons fun v => ?_
    have hnone := wordTag?_append_cons hword htail (List.cons_ne_nil d u) hu (w ++ v)
    simpa using hnone

lemma idle_output {text : List Char} (ht : ∀ b : Block, ∀ t : Tag b.word, ¬ t.chars <:+: text) :
    Idle Block.read? (output text) := by
  refine Block.idle_of_wordTag? fun b => ?_
  obtain ⟨c, hc⟩ := b.beginsWith_word
  have hquote : '"' ∉ b.word.toList := by cases b <;> decide
  have htail : Idle (wordTag? b.word) " | t \x7d\x7d".toList :=
    (NoTagStart.of_not_mem (by decide)).idle_wordTag? b.word
  have hliteral := idle_wordTag?_append_quote hc hquote (ht b) htail
  exact .cons (fun _ => rfl) (.cons (fun _ => rfl) (.cons (fun _ => rfl)
    (.cons (fun _ => rfl) hliteral)))

lemma map_filter_eq_map_iff {α β : Type} {f : α → β} {p : α → Bool} {l : List α} :
    (l.filter p).map f = l.map f ↔ ∀ a ∈ l, p a = true := by
  constructor
  · intro h
    have hlength := congrArg List.length h
    rw [List.length_map, List.length_map] at hlength
    exact List.length_filter_eq_length_iff.1 hlength
  · intro h
    rw [List.filter_eq_self.2 h]

/-- The markers of outputs are all visible if no block covers the start of one. -/
lemma texts_outputs_iff {ts : List String} (hts : ∀ t ∈ ts, t ≠ "" ∧ '"' ∉ t.toList) :
    texts (outputs ts) = ts.map String.toList ↔
      ∀ i < ts.length, ∀ b ∈ blocks (outputs ts), ¬ b.Covers (outputs (ts.take i)).length := by
  have hmarker : ∀ t ∈ ts, IsMarker t.toList (output t.toList) :=
    fun t ht => isMarker_output (hts t ht).2
  obtain ⟨hvalues, hstarts⟩ := Marker.accepts.occurrencesFrom_flatMap hmarker 0
  have hvalue : ∀ m ∈ markers (outputs ts), m.value ≠ [] := by
    intro m hm
    have hmem : m.value ∈ ts.map String.toList := hvalues ▸ List.mem_map_of_mem hm
    obtain ⟨t, ht, htext⟩ := List.mem_map.1 hmem
    rw [← htext]
    simpa using (hts t ht).1
  have hvisible : (∀ m ∈ markers (outputs ts), decide (IsVisible (blocks (outputs ts)) m) = true) ↔
      ∀ n ∈ (markers (outputs ts)).map (·.start), ∀ b ∈ blocks (outputs ts), ¬ b.Covers n := by
    rw [List.forall_mem_map]
    refine forall₂_congr fun m hm => ?_
    rw [decide_eq_true_iff, IsVisible, and_iff_right (hvalue m hm)]
  have hstarts : (markers (outputs ts)).map (·.start) =
      (List.range ts.length).map fun i => 0 + (outputs (ts.take i)).length := hstarts
  rw [texts_eq, ← hvalues]
  refine map_filter_eq_map_iff.trans (hvisible.trans ?_)
  simp [hstarts]

/-- **When the literals of outputs are all extracted.** Outputs of texts without a double quote, one
after the other, give all these texts if and only if no block covers the start of an output. This is
so if no text has the opening tag of a block. -/
theorem found_outputs_iff (p : Provenance) (file : String) {ts : List String}
    (hts : ∀ t ∈ ts, t ≠ "" ∧ '"' ∉ t.toList) :
    (found p file (outputs ts) = ts ↔
        ∀ i < ts.length, ∀ b ∈ blocks (outputs ts), ¬ b.Covers (outputs (ts.take i)).length) ∧
      ((∀ t ∈ ts, ∀ b : Block, ∀ tag : Tag b.word, ¬ tag.chars <:+: t.toList) →
        found p file (outputs ts) = ts) := by
  have hiff : found p file (outputs ts) = ts ↔ texts (outputs ts) = ts.map String.toList := by
    have himage : (ts.map String.toList).map String.ofList = ts := by simp
    have hinjective := (List.map_injective_iff.2 ofList_injective).eq_iff (a := texts (outputs ts))
      (b := ts.map String.toList)
    rwa [himage, ← found_eq p file] at hinjective
  rw [hiff, texts_outputs_iff hts]
  refine ⟨Iff.rfl, fun htags => ?_⟩
  have hidle : Idle Block.read? (outputs ts) := .flatMap fun t ht => idle_output (htags t ht)
  have hnil : blocks (outputs ts) = [] := occurrencesFrom_idle hidle 0
  simp [hnil]

/-- A text that closes no block may look like a tag; the other text has nothing but a marker. -/
theorem found_outputs_iff_lookalikes :
    let p := BasePath.provenance ⟨""⟩
    let ts := ["\x7b% endcomment %\x7d", "\x7b\x7b 'Hi' | t \x7d\x7d"]
    (∀ t ∈ ts, t ≠ "" ∧ '"' ∉ t.toList) ∧ found p "A.liquid" (outputs ts) = ts := by
  intro p ts
  have hts : ∀ t ∈ ts, t ≠ "" ∧ '"' ∉ t.toList := by decide
  exact ⟨hts, (found_outputs_iff p "A.liquid" hts).1.2 (by decide)⟩

/-- The tags in two literals make a block, which hides the second one. -/
theorem found_outputs_hidden :
    let p := BasePath.provenance ⟨""⟩
    let ts := ["\x7b% comment %\x7d", "\x7b% endcomment %\x7d"]
    (∀ t ∈ ts, t ≠ "" ∧ '"' ∉ t.toList) ∧
      found p "A.liquid" (outputs ts) = ["\x7b% comment %\x7d"] := by
  decide

end LiquidCatalog.Liquid

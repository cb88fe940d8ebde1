import LiquidCatalog.Proofs.Liquid.Extract

/-!
Templates that are put together from plain text, marked expressions and blocks.

No segment of such a template reaches into the next one, for the scan of markers as well as for the
scan of blocks; so all texts outside the blocks are extracted, and nothing else.
-/

namespace LiquidCatalog.Liquid

open Text

/-! ### Segments -/

/-- A marked output or assignment: a marker whose literal does not look like the start of a tag,
and what follows it, such as arguments, further filters and the closing bracket. -/
structure Marked where
  form : Marker.Form
  tag_not_infix : ¬ ['{', '%'] <:+: form.text
  tail : List Char
  brace_not_mem_tail : '{' ∉ tail

inductive Piece where
  | plain (s : List Char) (brace_not_mem : '{' ∉ s)
  | marked (m : Marked)

namespace Piece

def chars : Piece → List Char
  | plain s _ => s
  | marked m => m.form.chars ++ m.tail

def texts : Piece → List (List Char)
  | plain _ _ => []
  | marked m => [m.form.text]

end Piece

inductive Segment where
  | piece (p : Piece)
  | block (b : Block) (opening : Tag b.word) (body : List Piece) (closing : Tag b.endWord)

namespace Segment

def chars : Segment → List Char
  | piece p => p.chars
  | block _ opening body closing => opening.chars ++ (body.flatMap Piece.chars ++ closing.chars)

/-- The literals outside of blocks. -/
def texts : Segment → List (List Char)
  | piece p => p.texts
  | block _ _ _ _ => []

end Segment

/-! ### Where tags begin -/

/-- Every opening brace is followed by a character other than the percent sign. -/
def NoTagStart (u : List Char) : Prop := ∀ y, '{' :: y <:+ u → ∃ c z, y = c :: z ∧ c ≠ '%'

namespace NoTagStart

variable {u w : List Char}

lemma of_not_mem (hu : '{' ∉ u) : NoTagStart u :=
  fun _ hy => absurd (hy.subset (List.mem_cons_self ..)) hu

lemma cons {c : Char} (hu : NoTagStart u) (hc : c = '{' → ∃ d z, u = d :: z ∧ d ≠ '%') :
    NoTagStart (c :: u) := by
  intro y hy
  rcases List.suffix_cons_iff.1 hy with heq | hy
  · obtain ⟨rfl, rfl⟩ := List.cons.inj heq
    exact hc rfl
  · exact hu y hy

lemma append (hu : '{' ∉ u) (hw : NoTagStart w) : NoTagStart (u ++ w) := by
  induction u with
  | nil => exact hw
  | cons c u ih =>
    rw [List.mem_cons, not_or] at hu
    exact (ih hu.2).cons fun hc => absurd hc.symm hu.1

/-- A literal whose text has no start of a tag ends before one can begin. -/
lemma append_quote {q : Char} (hq : q ≠ '%') (hq' : q ≠ '{') (hu : ¬ ['{', '%'] <:+: u)
    (hw : NoTagStart w) : NoTagStart (u ++ q :: w) := by
  induction u with
  | nil => exact hw.cons fun hc => absurd hc hq'
  | cons c u ih =>
    refine (ih fun h => hu (List.infix_cons h)).cons ?_
    rintro rfl
    cases u with
    | nil => exact ⟨q, w, rfl, hq⟩
    | cons d u =>
      refine ⟨d, u ++ q :: w, rfl, ?_⟩
      rintro rfl
      exact hu ⟨[], u, rfl⟩

lemma idle_wordTag? (hu : NoTagStart u) (word : String) : Idle (wordTag? word) u := by
  intro y hy hne v
  obtain ⟨c, y, rfl⟩ := List.exists_cons_of_ne_nil hne
  have hstart : tagStart? (c :: y ++ v) = none := by
    by_cases hc : c = '{'
    · subst hc
      obtain ⟨d, z, rfl, hd⟩ := hu y hy
      simp [tagStart?, hd]
    · simp [tagStart?, hc]
  rw [wordTag?, hstart]
  rfl

end NoTagStart

lemma brace_not_mem_blanks (g : Blanks) : '{' ∉ g.chars :=
  fun hg => absurd (g.isBlank_of_mem _ hg) (by decide)

lemma brace_not_mem_hyphen (trims : Bool) : '{' ∉ hyphen trims := by
  cases trims <;> decide

namespace Marker

lemma Finish.brace_not_mem (f : Finish) : '{' ∉ f.chars := by
  cases f with
  | arguments => decide
  | filter => decide
  | outputEnd trims => cases trims <;> decide
  | tagEnd trims => cases trims <;> decide

lemma Name.brace_not_mem (n : Name) : '{' ∉ n.chars :=
  fun hn => absurd (n.isNameChar_of_mem _ hn) (by decide)

namespace Form

lemma brace_not_mem_filterChars (f : Form) : '{' ∉ f.filterChars := by
  simp [filterChars, brace_not_mem_blanks, f.finish.brace_not_mem]

lemma noTagStart_literal (f : Form) (hf : ¬ ['{', '%'] <:+: f.text) :
    NoTagStart (f.literal.chars ++ f.filterChars) := by
  have hfilter := NoTagStart.of_not_mem f.brace_not_mem_filterChars
  obtain ⟨hpercent, hbrace⟩ : f.literal.quote.char ≠ '%' ∧ f.literal.quote.char ≠ '{' := by
    cases f.literal.quote <;> decide
  have hclose := NoTagStart.append_quote hpercent hbrace hf hfilter
  have hchars : f.literal.chars ++ f.filterChars =
      f.literal.quote.char :: (f.text ++ f.literal.quote.char :: f.filterChars) := by
    simp [Literal.chars, text]
  rw [hchars]
  exact hclose.cons fun hc => absurd hc hbrace

/-- A marker begins a tag only at its own start, and only if it is an assignment. -/
lemma noTagStart_tail (f : Form) (hf : ¬ ['{', '%'] <:+: f.text) : NoTagStart f.chars.tail := by
  have hliteral := f.noTagStart_literal hf
  cases hopening : f.opening with
  | output trims gap =>
    have hinner : NoTagStart (hyphen trims ++ (gap.chars ++ (f.literal.chars ++ f.filterChars))) :=
      .append (brace_not_mem_hyphen trims) (.append (brace_not_mem_blanks gap) hliteral)
    have hchars : f.chars.tail =
        '{' :: (hyphen trims ++ (gap.chars ++ (f.literal.chars ++ f.filterChars))) := by
      simp [chars, hopening, Opening.chars]
    rw [hchars]
    refine hinner.cons fun _ => ?_
    cases trims with
    | true => exact ⟨'-', _, rfl, by decide⟩
    | false =>
      obtain ⟨_ | ⟨c, g⟩, hg⟩ := gap
      · exact ⟨f.literal.quote.char, _, rfl, by cases f.literal.quote <;> decide⟩
      · refine ⟨c, _, rfl, ?_⟩
        rintro rfl
        exact absurd (hg '%' (by simp)) (by decide)
  | assignment trims lead gap hgap name before after =>
    have hinner : '{' ∉ f.opening.chars.tail := by
      simp [hopening, Opening.chars, brace_not_mem_hyphen, brace_not_mem_blanks,
        name.brace_not_mem]
    have hchars : f.chars.tail = f.opening.chars.tail ++ (f.literal.chars ++ f.filterChars) := by
      simp [chars, hopening, Opening.chars]
    rw [hchars]
    exact .append hinner hliteral

/-- What stands in a tag that a marker begins. -/
lemma head?_of_tagStart? (f : Form) {v rest : List Char}
    (h : tagStart? (f.chars ++ v) = some rest) : rest.head? = some 'a' := by
  cases hopening : f.opening with
  | output trims gap => simp [chars, hopening, Opening.chars, tagStart?] at h
  | assignment trims lead gap hgap name before after =>
    have hstart := tagStart?_append trims lead (c := 'a') (by decide) (by decide)
      ("ssign".toList ++ (gap.chars ++ (name.chars ++ (before.chars ++
        '=' :: (after.chars ++ (f.literal.chars ++ (f.filterChars ++ v)))))))
    have hchars : f.chars ++ v = '{' :: '%' :: (hyphen trims ++ (lead.chars ++ 'a' ::
        ("ssign".toList ++ (gap.chars ++ (name.chars ++ (before.chars ++
          '=' :: (after.chars ++ (f.literal.chars ++ (f.filterChars ++ v))))))))) := by
      simp [chars, hopening, Opening.chars]
    rw [hchars, hstart, Option.some.injEq] at h
    rw [← h]
    rfl

end Form

end Marker

/-! ### What is read in a piece -/

/-- A word that may stand alone in a tag and begins no assignment. -/
def IsTagWord (word : String) : Prop := ∃ c, BeginsWith word c ∧ c ≠ 'a'

lemma Block.isTagWord_word (b : Block) : IsTagWord b.word := by
  cases b with
  | comment => exact ⟨'c', ⟨rfl, by decide, by decide⟩, by decide⟩
  | raw => exact ⟨'r', ⟨rfl, by decide, by decide⟩, by decide⟩

lemma Block.isTagWord_endWord (b : Block) : IsTagWord b.endWord :=
  ⟨'e', b.beginsWith_endWord, by decide⟩

lemma Marker.wordTag?_chars {word : String} (hword : IsTagWord word) (f : Form) (v : List Char) :
    wordTag? word (f.chars ++ v) = none := by
  obtain ⟨c, hc, hne⟩ := hword
  by_contra hsome
  obtain ⟨rest, hrest⟩ := Option.ne_none_iff_exists'.1 hsome
  obtain ⟨t, ht⟩ := (wordTag?_eq_some_iff hc).1 hrest
  have hhead := f.head?_of_tagStart? (ht ▸ t.tagStart?_chars hc rest)
  rw [List.head?_append, hc.1] at hhead
  exact hne (Option.some.inj hhead)

lemma Marker.idle_wordTag? {word : String} (hword : IsTagWord word) (f : Form)
    (hf : ¬ ['{', '%'] <:+: f.text) : Idle (wordTag? word) f.chars := by
  have htail := (f.noTagStart_tail hf).idle_wordTag? word
  obtain ⟨c, u, hchars⟩ := List.exists_cons_of_ne_nil f.chars_ne_nil
  rw [hchars] at htail ⊢
  refine htail.cons fun v => ?_
  rw [← hchars]
  exact wordTag?_chars hword f v

/-- Pieces have no tags but assignments. -/
lemma Piece.idle_wordTag? {word : String} (hword : IsTagWord word) (p : Piece) :
    Idle (wordTag? word) p.chars := by
  cases p with
  | plain s hs => exact (NoTagStart.of_not_mem hs).idle_wordTag? word
  | marked m =>
    exact (Marker.idle_wordTag? hword m.form m.tag_not_infix).append
      ((NoTagStart.of_not_mem m.brace_not_mem_tail).idle_wordTag? word)

/-- No marker begins at a tag that consists of one word. -/
lemma Tag.idle_marker {word : String} (hword : IsTagWord word) (hbrace : '{' ∉ word.toList)
    (t : Tag word) : Idle Marker.read? t.chars := by
  obtain ⟨c, hc, hne⟩ := hword
  have htail := t.not_mem_tail (by decide) (by decide) hbrace
  refine (Marker.idle_of_not_mem htail).cons fun v => ?_
  obtain ⟨w, hw⟩ := List.head?_eq_some_iff.1 hc.1
  have hstart := t.tagStart?_chars hc v
  have hassign : Marker.assignment? (t.chars ++ v) = none := by
    rw [Marker.assignment?, hstart, hw]
    simp [hne.symm]
  have hopening : Marker.opening? (t.chars ++ v) = Marker.assignment? (t.chars ++ v) := rfl
  have hnone : Marker.read? (t.chars ++ v) = none := by
    rw [Marker.read?, hopening, hassign]
    rfl
  exact hnone

lemma Piece.separates_marker (p : Piece) : Reader.Separates Marker.read? p.chars := by
  cases p with
  | plain s hs => exact (Marker.idle_of_not_mem hs).separates
  | marked m =>
    exact (Marker.accepts.separates ⟨m.form, rfl, rfl⟩).append
      (Marker.idle_of_not_mem m.brace_not_mem_tail).separates

/-! ### Segments of a template -/

namespace Segment

lemma isBlock {b : Block} (opening : Tag b.word) (body : List Piece) (closing : Tag b.endWord) :
    IsBlock b (block b opening body closing).chars := by
  have hidle : Idle (wordTag? b.endWord) (body.flatMap Piece.chars) :=
    .flatMap fun p _ => p.idle_wordTag? b.isTagWord_endWord
  have hbody (t : Tag b.endWord) : ¬ t.chars <:+: body.flatMap Piece.chars := by
    refine hidle.not_infix (List.cons_ne_nil _ _) fun v => ?_
    rw [(wordTag?_eq_some_iff b.beginsWith_endWord).2 ⟨t, rfl⟩]
    rfl
  exact ⟨⟨opening, body.flatMap Piece.chars, closing, hbody⟩, rfl⟩

lemma separates_block (g : Segment) : Reader.Separates Block.read? g.chars := by
  cases g with
  | piece p => exact (Block.idle_of_wordTag? fun b => p.idle_wordTag? b.isTagWord_word).separates
  | block b opening body closing => exact Block.accepts.separates (isBlock opening body closing)

lemma separates_marker (g : Segment) : Reader.Separates Marker.read? g.chars := by
  cases g with
  | piece p => exact p.separates_marker
  | block b opening body closing =>
    have hopening := opening.idle_marker b.isTagWord_word b.brace_not_mem_word
    have hclosing := closing.idle_marker b.isTagWord_endWord b.brace_not_mem_endWord
    have hbody : Reader.Separates Marker.read? (body.flatMap Piece.chars) :=
      .flatMap fun p _ => p.separates_marker
    exact hopening.separates.append (hbody.append hclosing.separates)

end Segment

/-! ### Texts -/

namespace Segment

lemma texts_chars (g : Segment) : Liquid.texts g.chars = g.texts.filter (· ≠ []) := by
  cases g with
  | piece p =>
    cases p with
    | plain s hs => exact texts_of_idle (Marker.idle_of_not_mem hs)
    | marked m =>
      have hform : Idle Block.read? m.form.chars := Block.idle_of_wordTag? fun b =>
        Marker.idle_wordTag? b.isTagWord_word m.form m.tag_not_infix
      have hmarker : IsMarker m.form.text m.form.chars := ⟨m.form, rfl, rfl⟩
      have hcut := texts_append_of_separates hform.separates (Marker.accepts.separates hmarker)
        m.tail
      have htail : Liquid.texts m.tail = [] :=
        texts_of_idle (Marker.idle_of_not_mem m.brace_not_mem_tail)
      rw [htail, List.append_nil, texts_of_isMarker hmarker hform] at hcut
      exact hcut
  | block b opening body closing => exact texts_of_isBlock (isBlock opening body closing)

lemma texts_flatMap_chars (d : List Segment) :
    Liquid.texts (d.flatMap chars) = (d.flatMap texts).filter (· ≠ []) := by
  induction d with
  | nil => rfl
  | cons g d ih =>
    rw [List.flatMap_cons, List.flatMap_cons, List.filter_append,
      texts_append_of_separates g.separates_block g.separates_marker, g.texts_chars, ih]

/-- **Templates of segments are extracted completely.** The texts of the messages are the literals
of the marked expressions outside of blocks that are not empty, in order. -/
theorem map_text_extract_segments (p : Provenance) (file : String) (d : List Segment) :
    (extract p file (String.ofList (d.flatMap chars))).map (·.text) =
      ((d.flatMap texts).filter (· ≠ [])).map String.ofList := by
  rw [map_text_extract, String.toList_ofList, texts_flatMap_chars]

/-- A template with plain text, an assignment, a comment with an output in it, and two outputs. The
text of one of them looks like an output, and that of the other is empty. -/
theorem map_text_extract_segments_lookalikes :
    let tight : Blanks := ⟨[], List.forall_mem_nil _⟩
    let x : Marker.Name := ⟨['x'], by decide, List.forall_mem_singleton.2 (by decide)⟩
    let form (opening : Marker.Opening) (literal : Marker.Literal) (finish : Marker.Finish) :
      Marker.Form := ⟨opening, literal, .space, .space, .space, finish⟩
    let output : Marker.Opening := .output true .space
    let assignment : Marker.Opening := .assignment false .space .space (by decide) x tight tight
    let said : Marked := ⟨form assignment ⟨.double, "It's".toList, by decide⟩ .filter, by decide,
      " upcase %\x7d".toList, by decide⟩
    let hidden : Marked := ⟨form output ⟨.single, "no".toList, by decide⟩ (.outputEnd true),
      by decide, [], by decide⟩
    let nested : Marked := ⟨form output ⟨.double, "\x7b\x7b 'a' | t \x7d\x7d".toList, by decide⟩
      .arguments, by decide, " n \x7d\x7d".toList, by decide⟩
    let empty : Marked := ⟨form output ⟨.double, [], by decide⟩ (.outputEnd false), by decide,
      "\x7d".toList, by decide⟩
    let d : List Segment := [.piece (.plain "<p>".toList (by decide)), .piece (.marked said),
      .block .comment ⟨false, .space, tight, true⟩
        [.plain "not ".toList (by decide), .marked hidden] ⟨true, tight, .space, false⟩,
      .piece (.marked nested), .piece (.marked empty)]
    String.ofList (d.flatMap chars) =
        "<p>\x7b% assign x=\"It's\" | t | upcase %\x7d" ++
        "\x7b% comment-%\x7dnot \x7b\x7b- 'no' | t -\x7d\x7d\x7b%-endcomment %\x7d" ++
        "\x7b\x7b- \"\x7b\x7b 'a' | t \x7d\x7d\" | t : n \x7d\x7d" ++
        "\x7b\x7b- \"\" | t \x7d\x7d\x7d" ∧
      (extract (BasePath.provenance ⟨""⟩) "a.liquid" (String.ofList (d.flatMap chars))).map
        (·.text) = ["It's", "\x7b\x7b 'a' | t \x7d\x7d"] := by
  intro tight x form output assignment said hidden nested empty d
  refine ⟨by decide +kernel, ?_⟩
  rw [map_text_extract_segments]
  decide

end Segment

end LiquidCatalog.Liquid

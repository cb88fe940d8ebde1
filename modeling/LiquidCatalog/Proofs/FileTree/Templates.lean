import Mathlib.Data.List.Lex
import Mathlib.Data.List.Sort
import Mathlib.Data.String.Basic
import LiquidCatalog.FileTree.Templates
import LiquidCatalog.Proofs.FileTree.Listing

/-!
Which templates and directories are found, and in which order.

What is found below a directory are the places whose last name and node are looked for: files with
the name of a template, or directories. Sorting the entries of each directory puts the places in
order, name by name. A list in strict order is given by its members, so the order in which the
entries are listed does not matter.
-/

namespace LiquidCatalog.Node

variable {α : Type} {p : String → Node α → Bool} {es : List (String × Node α)}
  {place : List String} {name : String} {n : Node α}

/-! ### What is found -/

lemma branches_eq (es : List (String × Node α)) :
    branches p es = es.map fun e => (e.1, placesAt p e.1 e.2) := by
  induction es with
  | nil => rfl
  | cons e es ih =>
    obtain ⟨name, n⟩ := e
    rw [branches, ih, List.map_cons]

lemma mem_inOrder {branches : List (String × List (List String))} :
    place ∈ inOrder branches ↔ ∃ b ∈ branches, place ∈ b.2 := by
  simp [inOrder, List.mem_flatMap, List.mem_mergeSort]

lemma mem_places : place ∈ places p es ↔ ∃ e ∈ es, place ∈ placesAt p e.1 e.2 := by
  simp [places, mem_inOrder, branches_eq]

lemma mem_ownPlace : place ∈ ownPlace p name n ↔ p name n ∧ place = [name] := by
  rw [ownPlace]
  split
  · next h => simp [h]
  · next h => simp [h]

lemma mem_placesAt : place ∈ placesAt p name n ↔ (p name n ∧ place = [name]) ∨
    ∃ es, n = dir es ∧ ∃ more ∈ places p es, name :: more = place := by
  cases n with
  | file content => simp [placesAt, mem_ownPlace]
  | link target => simp [placesAt, mem_ownPlace]
  | dir es =>
    rw [placesAt, List.mem_append, mem_ownPlace, List.mem_map]
    simp only [dir.injEq, exists_eq_left']
    rfl

/-- The places at a node begin with its name. -/
lemma exists_eq_cons_of_mem_placesAt (h : place ∈ placesAt p name n) :
    ∃ more, place = name :: more := by
  rcases mem_placesAt.1 h with ⟨-, rfl⟩ | ⟨es, -, more, -, rfl⟩
  · exact ⟨[], rfl⟩
  · exact ⟨more, rfl⟩

lemma nil_not_mem_places : [] ∉ places p es := by
  intro h
  obtain ⟨e, -, he⟩ := mem_places.1 h
  obtain ⟨more, hmore⟩ := exists_eq_cons_of_mem_placesAt he
  cases hmore

/-- What is found is looked for by its last name. -/
lemma exists_last_of_mem_places (h : place ∈ places p es) :
    ∃ directory name n, place = directory ++ [name] ∧ p name n := by
  induction place generalizing es with
  | nil => exact absurd h nil_not_mem_places
  | cons name place ih =>
    obtain ⟨e, -, he⟩ := mem_places.1 h
    rcases mem_placesAt.1 he with ⟨hp, hplace⟩ | ⟨es', -, more, hmore, heq⟩
    · exact ⟨[], e.1, e.2, hplace, hp⟩
    · obtain ⟨-, rfl⟩ := List.cons.inj heq
      obtain ⟨directory, last, n, rfl, hp⟩ := ih hmore
      exact ⟨name :: directory, last, n, rfl, hp⟩

/-! ### What is at a place that is found -/

/-- There is a node at the place, and `p` holds of the last name and the node. -/
def HasAt (p : String → Node α → Bool) (n : Node α) (place : List String) : Prop :=
  ∃ last m, place.getLast? = some last ∧ n.get? place = some m ∧ p last m

/-- A place below a directory is found at the entry with its first name. -/
lemma cons_mem_places (hnodup : (es.map (·.1)).Nodup) : name :: place ∈ places p es ↔
    ∃ n, es.lookup name = some n ∧ name :: place ∈ placesAt p name n := by
  rw [mem_places]
  constructor
  · rintro ⟨e, he, hplace⟩
    obtain ⟨more, hmore⟩ := exists_eq_cons_of_mem_placesAt hplace
    obtain ⟨rfl, rfl⟩ := List.cons.inj hmore
    exact ⟨e.2, lookup_of_mem hnodup he, hplace⟩
  · rintro ⟨n, hn, hplace⟩
    exact ⟨(name, n), mem_of_lookup hn, hplace⟩

/-- **What is found** below a directory is at the places where `p` holds. -/
lemma mem_places_iff (hwf : (dir es).WellFormed) :
    place ∈ places p es ↔ (dir es).HasAt p place := by
  induction place generalizing es with
  | nil =>
    refine iff_of_false nil_not_mem_places ?_
    rintro ⟨last, m, hlast, -⟩
    cases hlast
  | cons name place ih =>
    cases hwf with
    | dir names_nodup names nodes =>
    rw [cons_mem_places names_nodup, HasAt]
    simp only [get?_cons, child?, Option.bind_eq_some_iff]
    cases place with
    | nil => simp [mem_placesAt, nil_not_mem_places]
    | cons next place =>
      have hmore (n : Node α) (hn : es.lookup name = some n) :
          name :: next :: place ∈ placesAt p name n ↔ n.HasAt p (next :: place) := by
        cases n with
        | file content => simp [mem_placesAt, HasAt, get?_cons, child?]
        | link target => simp [mem_placesAt, HasAt, get?_cons, child?]
        | dir es' =>
          rw [← ih (nodes _ (mem_of_lookup hn))]
          simp [mem_placesAt]
      rw [List.getLast?_cons_cons]
      constructor
      · rintro ⟨n, hn, hplace⟩
        obtain ⟨last, m, hlast, hm, hp⟩ := (hmore n hn).1 hplace
        exact ⟨last, m, hlast, ⟨n, hn, hm⟩, hp⟩
      · rintro ⟨last, m, hlast, ⟨n, hn, hm⟩, hp⟩
        exact ⟨n, hn, (hmore n hn).2 ⟨last, m, hlast, hm, hp⟩⟩

/-! ### In which order -/

/-- Branches in order of their names make a list in order, if each is and begins with its name. -/
lemma pairwise_inOrder {branches : List (String × List (List String))}
    (hnodup : (branches.map (·.1)).Nodup) (hsorted : ∀ b ∈ branches, b.2.Pairwise (· < ·))
    (hnames : ∀ b ∈ branches, ∀ place ∈ b.2, ∃ more, place = b.1 :: more) :
    (inOrder branches).Pairwise (· < ·) := by
  have hperm := List.mergeSort_perm branches fun a b => a.1 ≤ b.1
  have hle : (branches.mergeSort fun a b => a.1 ≤ b.1).Pairwise fun a b => a.1 ≤ b.1 := by
    have htrans (a b c : String × List (List String)) (hab : decide (a.1 ≤ b.1) = true)
        (hbc : decide (b.1 ≤ c.1) = true) : decide (a.1 ≤ c.1) = true :=
      decide_eq_true ((of_decide_eq_true hab).trans (of_decide_eq_true hbc))
    have htotal (a b : String × List (List String)) :
        (decide (a.1 ≤ b.1) || decide (b.1 ≤ a.1)) = true := by
      simpa using le_total a.1 b.1
    simpa using List.pairwise_mergeSort htrans htotal branches
  have hne : (branches.mergeSort fun a b => a.1 ≤ b.1).Pairwise fun a b => a.1 ≠ b.1 :=
    List.pairwise_map.1 ((hperm.map Prod.fst).nodup_iff.2 hnodup)
  rw [inOrder, List.pairwise_flatMap]
  refine ⟨fun b hb => hsorted b (hperm.mem_iff.1 hb), ?_⟩
  refine (hle.and hne).imp_of_mem ?_
  rintro a b ha hb ⟨hab, hab'⟩ q hq q' hq'
  obtain ⟨more, rfl⟩ := hnames a (hperm.mem_iff.1 ha) q hq
  obtain ⟨more', rfl⟩ := hnames b (hperm.mem_iff.1 hb) q' hq'
  exact List.cons_lt_cons_iff.2 (.inl (lt_of_le_of_ne hab hab'))

/-- The entries of a directory, if the places at each of them are in order. -/
lemma pairwise_places_of (hnodup : (es.map (·.1)).Nodup)
    (hsorted : ∀ e ∈ es, (placesAt p e.1 e.2).Pairwise (· < ·)) :
    (places p es).Pairwise (· < ·) := by
  rw [places, branches_eq]
  refine pairwise_inOrder ?_ ?_ ?_
  · rwa [List.map_map]
  · intro b hb
    obtain ⟨e, he, rfl⟩ := List.mem_map.1 hb
    exact hsorted e he
  · intro b hb place hplace
    obtain ⟨e, -, rfl⟩ := List.mem_map.1 hb
    exact exists_eq_cons_of_mem_placesAt hplace

lemma pairwise_ownPlace : (ownPlace p name n).Pairwise (· < ·) := by
  rw [ownPlace]
  split
  · exact List.pairwise_singleton _ _
  · exact .nil

lemma pairwise_placesAt (hn : n.WellFormed) (name : String) :
    (placesAt p name n).Pairwise (· < ·) := by
  induction hn generalizing name with
  | file content =>
    rw [placesAt]
    exact pairwise_ownPlace
  | link target =>
    rw [placesAt]
    exact pairwise_ownPlace
  | dir names_nodup names nodes ih =>
    have hsorted := pairwise_places_of names_nodup fun e he => ih e he e.1
    rw [placesAt, List.pairwise_append]
    refine ⟨pairwise_ownPlace, ?_, ?_⟩
    · exact List.pairwise_map.2 (hsorted.imp fun h => List.cons_lt_cons_iff.2 (.inr ⟨rfl, h⟩))
    · -- a directory comes before what is in it
      rintro own hown place hplace
      obtain ⟨-, rfl⟩ := mem_ownPlace.1 hown
      obtain ⟨more, hmore, rfl⟩ := List.mem_map.1 hplace
      obtain ⟨first, more, rfl⟩ := List.exists_cons_of_ne_nil
        (ne_of_mem_of_not_mem hmore nil_not_mem_places)
      exact List.cons_lt_cons_iff.2 (.inr ⟨rfl, List.nil_lt_cons _ _⟩)

/-- **The places that are found are in strict order**, name by name. -/
lemma pairwise_places (hwf : (dir es).WellFormed) : (places p es).Pairwise (· < ·) := by
  cases hwf with
  | dir names_nodup names nodes =>
    exact pairwise_places_of names_nodup fun e he => pairwise_placesAt (nodes e he) e.1

/-- Where `p` does not look at what is below a node, it holds at the same places of trees that show
the same. -/
lemma HasAt.congr (hp : ∀ name (n n' : Node α), n.kind = n'.kind → p name n = p name n')
    {n' : Node α} (h : n'.kindAt place = n.kindAt place) (hn : n.HasAt p place) :
    n'.HasAt p place := by
  obtain ⟨last, m, hlast, hm, hpm⟩ := hn
  obtain ⟨m', hm', hkind⟩ : ∃ m', n'.get? place = some m' ∧ m'.kind = m.kind := by
    simpa [kindAt, hm] using h
  exact ⟨last, m', hlast, hm', by rwa [hp last m' m hkind]⟩

/-- **What is seen of a directory** gives the list of what is found below it. -/
lemma places_congr (hp : ∀ name (n n' : Node α), n.kind = n'.kind → p name n = p name n')
    {es' : List (String × Node α)} (hwf : (dir es).WellFormed) (hwf' : (dir es').WellFormed)
    (h : ∀ place, (dir es').kindAt place = (dir es).kindAt place) :
    places p es' = places p es := by
  refine (pairwise_places hwf').eq_of_mem_iff (pairwise_places hwf) fun place => ?_
  rw [mem_places_iff hwf', mem_places_iff hwf]
  exact ⟨.congr hp (h place).symm, .congr hp (h place)⟩

/-! ### Templates -/

/-- There is a file at the place, and its name is that of a template. -/
structure HasTemplateAt (n : Node α) (place : List String) : Prop where
  is_file : ∃ content, n.kindAt place = some (.file content)
  is_named : ∃ directory stem, stem ≠ "" ∧ place = directory ++ [stem ++ ".liquid"]

lemma isTemplateName_iff :
    isTemplateName name ↔ ∃ stem, stem ≠ "" ∧ name = stem ++ ".liquid" := by
  rw [isTemplateName, Bool.and_eq_true, List.isSuffixOf_iff_suffix, decide_eq_true_iff]
  constructor
  · rintro ⟨⟨stem, hstem⟩, hne⟩
    have hname : name = String.ofList stem ++ ".liquid" := by
      apply String.toList_inj.1
      rw [String.toList_append, String.toList_ofList]
      exact hstem.symm
    refine ⟨String.ofList stem, ?_, hname⟩
    intro hempty
    rw [hempty, String.empty_append] at hname
    exact hne hname
  · rintro ⟨stem, hne, rfl⟩
    refine ⟨⟨stem.toList, by rw [String.toList_append]⟩, ?_⟩
    intro heq
    have hlist := congrArg String.toList heq
    rw [String.toList_append] at hlist
    exact hne (String.toList_eq_nil_iff.1 (List.append_left_eq_self.1 hlist))

lemma isTemplate_iff :
    isTemplate name n ↔ (∃ content, n = file content) ∧ isTemplateName name := by
  cases n <;> simp [isTemplate]

lemma isTemplate_congr (name : String) (n n' : Node α) (h : n.kind = n'.kind) :
    isTemplate name n = isTemplate name n' := by
  cases n <;> cases n' <;> cases h <;> rfl

lemma HasTemplateAt.ne_nil (h : n.HasTemplateAt place) : place ≠ [] := by
  obtain ⟨directory, stem, -, rfl⟩ := h.is_named
  exact List.append_ne_nil_of_right_ne_nil _ (List.cons_ne_nil _ _)

lemma hasAt_isTemplate_iff : n.HasAt isTemplate place ↔ n.HasTemplateAt place := by
  constructor
  · rintro ⟨last, m, hlast, hm, hp⟩
    obtain ⟨⟨content, rfl⟩, hname⟩ := isTemplate_iff.1 hp
    obtain ⟨stem, hne, rfl⟩ := isTemplateName_iff.1 hname
    obtain ⟨directory, rfl⟩ := List.getLast?_eq_some_iff.1 hlast
    exact ⟨⟨content, kindAt_eq_file_iff.2 hm⟩, directory, stem, hne, rfl⟩
  · rintro ⟨⟨content, hcontent⟩, directory, stem, hne, rfl⟩
    exact ⟨_, _, List.getLast?_concat, kindAt_eq_file_iff.1 hcontent,
      isTemplate_iff.2 ⟨⟨content, rfl⟩, isTemplateName_iff.2 ⟨stem, hne, rfl⟩⟩⟩

/-- **The templates that are found** are the files below the directory with the name of one. -/
lemma mem_templates_iff (hwf : (dir es).WellFormed) :
    place ∈ templates es ↔ (dir es).HasTemplateAt place := by
  rw [templates, mem_places_iff hwf, hasAt_isTemplate_iff]

/-! ### Directories -/

lemma isDir_congr (n n' : Node α) (h : n.kind = n'.kind) : n.isDir = n'.isDir := by
  cases n <;> cases n' <;> cases h <;> rfl

lemma isDir_iff : n.isDir ↔ ∃ es, n = dir es := by
  cases n <;> simp [isDir]

/-- **The directories that are found** are those below the directory, itself aside. -/
lemma mem_directories_iff (hwf : (dir es).WellFormed) :
    place ∈ directories es ↔ place ≠ [] ∧ ∃ es', (dir es).get? place = some (dir es') := by
  rw [directories, mem_places_iff hwf]
  constructor
  · rintro ⟨last, m, hlast, hm, hdir⟩
    obtain ⟨es', rfl⟩ := isDir_iff.1 hdir
    refine ⟨?_, es', hm⟩
    rintro rfl
    cases hlast
  · rintro ⟨hne, es', hes'⟩
    exact ⟨_, _, List.getLast?_eq_some_getLast hne, hes', rfl⟩

end LiquidCatalog.Node

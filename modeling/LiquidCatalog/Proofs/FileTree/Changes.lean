import Mathlib.Data.List.TakeWhile
import LiquidCatalog.FileTree.Operations
import LiquidCatalog.Proofs.FileTree.Leads
import LiquidCatalog.Proofs.Path

/-!
What operations change in a file tree.

Making a directory adds it where nothing was; saving a file gives one file its content. Nothing
else is changed, and the path leads to what has been made.
-/

namespace LiquidCatalog.FileTree

open Node

/-- The second tree is the first one with a node of the kind `k` at a place. -/
structure Gains (t : FileTree) (place : List String) (k : Kind (List UInt8)) (t' : FileTree) :
    Prop where
  workingDirectory_eq : t'.workingDirectory = t.workingDirectory
  kindAt_eq : ∀ q, t'.root.kindAt q = if q = place then some k else t.root.kindAt q

/-- A place where a file can be made: there is nothing, or a file. -/
def IsFree (t : FileTree) (place : List String) : Prop :=
  t.root.kindAt place = none ∨ ∃ content, t.root.kindAt place = some (.file content)

variable {t t' : FileTree} {path : String}

lemma Gains.kindAt_self {place : List String} {k : Kind (List UInt8)} (h : t.Gains place k t') :
    t'.root.kindAt place = some k := by
  rw [h.kindAt_eq, if_pos rfl]

lemma Gains.kindAt_of_ne {place q : List String} {k : Kind (List UInt8)} (h : t.Gains place k t')
    (hq : q ≠ place) : t'.root.kindAt q = t.root.kindAt q := by
  rw [h.kindAt_eq, if_neg hq]

/-- A directory where nothing was, or a file where nothing or a file was, lets the tree grow. -/
lemma Gains.grown {place : List String} {k : Kind (List UInt8)} (h : t.Gains place k t')
    (hfree : t.IsFree place) (hk : t.root.kindAt place = none ∨ ∃ content, k = .file content) :
    Grown t.root t'.root := by
  have hother {q : List String} {k' : Kind (List UInt8)} (hq : t.root.kindAt q = some k')
      (hk' : ∀ content, k' ≠ .file content) : t'.root.kindAt q = some k' := by
    refine (h.kindAt_of_ne ?_).trans hq
    rintro rfl
    rcases hfree with hnone | ⟨content, hcontent⟩
    · rw [hnone] at hq
      cases hq
    · rw [hcontent] at hq
      exact hk' content (Option.some.inj hq).symm
  refine ⟨fun q hq => hother hq Kind.dir_ne_file,
    fun q target hq => hother hq fun content => (Kind.file_ne_link content target).symm,
    fun q content hq => ?_⟩
  by_cases hplace : q = place
  · subst hplace
    rcases hk with hnone | ⟨content', rfl⟩
    · rw [hnone] at hq
      cases hq
    · exact ⟨content', h.kindAt_self⟩
  · exact ⟨content, (h.kindAt_of_ne hplace).trans hq⟩

lemma put_gains {place : List String} {name : String} {n : Node (List UInt8)}
    (hdir : t.root.kindAt place = some .dir) (hfree : t.IsFree (place ++ [name]))
    (hn : ∀ name, n.child? name = none) :
    t.Gains (place ++ [name]) n.kind (t.put (place ++ [name]) n) := by
  refine ⟨rfl, kindAt_set hdir ?_ hn⟩
  rcases hfree with hnone | ⟨content, hcontent⟩
  · rw [hnone]
    exact (Option.some_ne_none _).symm
  · rw [hcontent]
    exact fun h => Kind.dir_ne_file content (Option.some.inj h).symm

/-! ### Paths -/

lemma resolve_eq_ok_iff {purpose : Purpose} {d : Destination} :
    t.resolve purpose path = .ok d ↔
      checkPath path = .ok () ∧
        Leads t.root purpose maxLinks (t.start path) (Path.segments path) d := by
  rw [resolve, ← trail_eq_ok_iff]
  rcases checkPath path with e | ⟨⟩
  · simp [bind, Except.bind]
  · simp [bind, Except.bind]

lemma kindAt_start {purpose : Purpose} {d : Destination} (h : t.resolve purpose path = .ok d) :
    t.root.kindAt (t.start path) = some .dir := by
  obtain ⟨-, h⟩ := resolve_eq_ok_iff.1 h
  obtain ⟨s, rest, hsegments⟩ := List.exists_cons_of_ne_nil (Path.segments_ne_nil path)
  rw [hsegments] at h
  exact h.kindAt_start

def LeadsToDirectory (t : FileTree) (path : String) (place : List String) : Prop :=
  ∃ es, t.resolve .use path = .ok (.found place (.dir es))

lemma LeadsToDirectory.kindAt {place : List String} (h : t.LeadsToDirectory path place) :
    t.root.kindAt place = some .dir := by
  obtain ⟨es, h⟩ := h
  exact kindAt_eq_dir_iff.2 ⟨es, (resolve_eq_ok_iff.1 h).2.get?_found⟩

lemma LeadsToDirectory.grown {place : List String} (h : t.LeadsToDirectory path place)
    (hgrown : Grown t.root t'.root) (hstart : t'.workingDirectory = t.workingDirectory) :
    t'.LeadsToDirectory path place := by
  obtain ⟨es', hes'⟩ := kindAt_eq_dir_iff.1 (hgrown.dir place h.kindAt)
  obtain ⟨es, h⟩ := h
  obtain ⟨hpath, h⟩ := resolve_eq_ok_iff.1 h
  have hleads : Leads t'.root .use maxLinks (t.start path) (Path.segments path ++ [])
      (.found place (.dir es')) := h.append hgrown fun _ => .done hes'
  refine ⟨es', resolve_eq_ok_iff.2 ⟨hpath, ?_⟩⟩
  rwa [List.append_nil, start, ← hstart] at hleads

/-- Slashes at the end of a path stay in the directory. -/
lemma leads_slashes {root : Node (List UInt8)} {links : Nat} {place slashes : List String}
    {es : List (String × Node (List UInt8))} (hes : root.get? place = some (.dir es))
    (hslashes : ∀ s ∈ slashes, s = "") :
    Leads root .use links place slashes (.found place (.dir es)) := by
  induction slashes with
  | nil => exact .done hes
  | cons s slashes ih =>
    obtain ⟨hs, hslashes⟩ := List.forall_mem_cons.1 hslashes
    exact .stay (kindAt_eq_dir_iff.2 ⟨es, hes⟩) (.inl hs) (ih hslashes)

/-! ### Making directories -/

lemma exists_of_bind_eq_ok {ε α β : Type} {x : Except ε α} {f : α → Except ε β} {b : β}
    (h : (x >>= f) = .ok b) : ∃ a, x = .ok a ∧ f a = .ok b := by
  cases x with
  | error e => cases h
  | ok a => exact ⟨a, rfl, h⟩

/-- The segments of a path, with the slashes at its end set apart. -/
lemma segments_eq_append {name : String} {before : List String}
    (h : (Path.segments path).reverse.dropWhile (· = "") = name :: before) :
    name ≠ "" ∧ ∃ slashes, Path.segments path = before.reverse ++ name :: slashes ∧
      ∀ s ∈ slashes, s = "" := by
  refine ⟨?_, ((Path.segments path).reverse.takeWhile (· = "")).reverse, ?_, fun s hs => ?_⟩
  · have hhead := List.head?_dropWhile_not (fun s : String => decide (s = ""))
      (Path.segments path).reverse
    rw [h] at hhead
    simpa using hhead
  · have hsplit := congrArg List.reverse (List.takeWhile_append_dropWhile
      (p := fun s : String => decide (s = "")) (l := (Path.segments path).reverse))
    rw [h, List.reverse_reverse] at hsplit
    exact hsplit.symm.trans (by simp)
  · have hempty := List.mem_takeWhile_imp (List.mem_reverse.1 hs)
    simpa using hempty

lemma of_make_eq_ok {n : Node (List UInt8)} (h : t.make path n = .ok t') :
    checkPath path = .ok () ∧ ∃ before name slashes place,
      Path.segments path = before ++ name :: slashes ∧ (∀ s ∈ slashes, s = "") ∧
      NamesEntry .use name slashes ∧
      (∃ es, Leads t.root .use maxLinks (t.start path) before (.found place (.dir es))) ∧
      t.root.kindAt (place ++ [name]) = none ∧ t' = t.put (place ++ [name]) n := by
  rw [make] at h
  obtain ⟨⟨⟩, hpath, h⟩ := exists_of_bind_eq_ok h
  refine ⟨hpath, ?_⟩
  split at h
  · cases h
  next name before hsegments =>
  obtain ⟨d, htrail, h⟩ := exists_of_bind_eq_ok h
  split at h
  case h_2 => cases h
  case h_3 => cases h
  next place es =>
  by_cases hdots : name = "." ∨ name = ".."
  · simp only [if_pos hdots] at h
    cases h
  by_cases hsize : 255 < name.utf8ByteSize
  · simp only [if_neg hdots, if_pos hsize] at h
    cases h
  cases hlookup : es.lookup name with
  | some m =>
    simp only [if_neg hdots, if_neg hsize, hlookup, Option.isSome_some, if_true] at h
    cases h
  | none =>
    simp only [if_neg hdots, if_neg hsize, hlookup, Option.isSome_none, Bool.false_eq_true,
      if_false] at h
    cases h
    obtain ⟨hne, slashes, hpath_eq, hslashes⟩ := segments_eq_append hsegments
    have hbefore := leads_of_trail htrail
    refine ⟨before.reverse, name, slashes, place, hpath_eq, hslashes, ?_, ⟨es, hbefore⟩, ?_, rfl⟩
    · exact ⟨hne, fun hdot => hdots (.inl hdot), fun hup => hdots (.inr hup), Nat.not_lt.1 hsize,
        not_make_of_use slashes⟩
    · rw [kindAt_concat hbefore.get?_found, hlookup]
      rfl

/-- **Making a directory** adds it where nothing was, and the path leads to it. -/
lemma gains_of_makeDirectory (h : t.makeDirectory path = .ok t') :
    ∃ place, t.root.kindAt place = none ∧ t.Gains place .dir t' ∧
      t'.LeadsToDirectory path place := by
  obtain ⟨hpath, before, name, slashes, place, hsegments, hslashes, hname, ⟨es, hbefore⟩, hnone,
    rfl⟩ := of_make_eq_ok h
  have hdir : t.root.kindAt place = some .dir := kindAt_eq_dir_iff.2 ⟨es, hbefore.get?_found⟩
  have hgains : t.Gains (place ++ [name]) .dir (t.put (place ++ [name]) (.dir [])) :=
    put_gains (n := .dir []) hdir (.inl hnone) fun _ => rfl
  have hgrown := hgains.grown (.inl hnone) (.inl hnone)
  obtain ⟨es', hes'⟩ := kindAt_eq_dir_iff.1 hgains.kindAt_self
  refine ⟨place ++ [name], hnone, hgains, es', resolve_eq_ok_iff.2 ⟨hpath, ?_⟩⟩
  rw [hsegments]
  refine hbefore.append hgrown fun links => ?_
  exact .enter (hgrown.dir place hdir) hname hgains.kindAt_self Kind.dir_ne_link
    (leads_slashes hes' hslashes)

/-- The second tree is the first one with directories added that some of the paths lead to. -/
structure AddsDirectories (t : FileTree) (paths : List String) (t' : FileTree) : Prop where
  workingDirectory_eq : t'.workingDirectory = t.workingDirectory
  kindAt : ∀ q, t'.root.kindAt q = t.root.kindAt q ∨
    t.root.kindAt q = none ∧ ∃ path ∈ paths, t'.LeadsToDirectory path q

lemma AddsDirectories.refl (t : FileTree) (paths : List String) : t.AddsDirectories paths t :=
  ⟨rfl, fun _ => .inl rfl⟩

lemma AddsDirectories.of_makeDirectory {paths : List String} (hpath : path ∈ paths)
    (h : t.makeDirectory path = .ok t') : t.AddsDirectories paths t' := by
  obtain ⟨place, hnone, hgains, hleads⟩ := gains_of_makeDirectory h
  refine ⟨hgains.workingDirectory_eq, fun q => ?_⟩
  by_cases hq : q = place
  · exact .inr ⟨hq ▸ hnone, path, hpath, hq ▸ hleads⟩
  · exact .inl (hgains.kindAt_of_ne hq)

lemma AddsDirectories.grown {paths : List String} (h : t.AddsDirectories paths t') :
    Grown t.root t'.root := by
  have hkept {q : List String} {k : Kind (List UInt8)} (hq : t.root.kindAt q = some k) :
      t'.root.kindAt q = some k := by
    rcases h.kindAt q with hsame | ⟨hnone, -⟩
    · rw [hsame, hq]
    · rw [hnone] at hq
      cases hq
  exact ⟨fun _ hq => hkept hq, fun _ _ hq => hkept hq, fun _ content hq => ⟨content, hkept hq⟩⟩

lemma AddsDirectories.trans {t'' : FileTree} {paths : List String}
    (h : t.AddsDirectories paths t') (h' : t'.AddsDirectories paths t'') :
    t.AddsDirectories paths t'' := by
  refine ⟨h'.workingDirectory_eq.trans h.workingDirectory_eq, fun q => ?_⟩
  rcases h'.kindAt q with hsame' | ⟨hnone', path, hpath, hleads⟩
  · rcases h.kindAt q with hsame | ⟨hnone, path, hpath, hleads⟩
    · exact .inl (hsame'.trans hsame)
    · exact .inr ⟨hnone, path, hpath, hleads.grown h'.grown h'.workingDirectory_eq⟩
  · rcases h.kindAt q with hsame | ⟨hnone, -⟩
    · exact .inr ⟨hsame ▸ hnone', path, hpath, hleads⟩
    · exact .inr ⟨hnone, path, hpath, hleads⟩

lemma AddsDirectories.mono {paths paths' : List String} (hpaths : paths ⊆ paths')
    (h : t.AddsDirectories paths t') : t.AddsDirectories paths' t' := by
  refine ⟨h.workingDirectory_eq, fun q => ?_⟩
  rcases h.kindAt q with hsame | ⟨hnone, path, hpath, hleads⟩
  · exact .inl hsame
  · exact .inr ⟨hnone, path, hpaths hpath, hleads⟩

/-- **Making sure of directories** only adds directories, whether it succeeds or not. -/
lemma addsDirectories_makeDirectories (paths : List String) (t : FileTree) :
    t.AddsDirectories paths (makeDirectories paths t).2 := by
  induction paths generalizing t with
  | nil => exact .refl t []
  | cons path parents ih =>
    have hparents (t : FileTree) :
        t.AddsDirectories (path :: parents) (makeDirectories parents t).2 :=
      (ih t).mono (List.subset_cons_self _ _)
    rw [makeDirectories]
    split
    · next t' h => exact .of_makeDirectory (by simp) h
    · have hadds := hparents t
      split
      · next h => rwa [h] at hadds
      · next t' h =>
        rw [h] at hadds
        split
        · next t'' h' => exact hadds.trans (.of_makeDirectory (by simp) h')
        · exact hadds
    · exact .refl t _

/-! ### Saving files -/

/-- **Saving** a file gives it the content and changes nothing else, and the path leads to it. -/
lemma gains_of_save {content : List UInt8} (h : t.save path content = .ok t') :
    ∃ place, t.IsFree place ∧ t.Gains place (.file content) t' ∧
      t'.resolve .use path = .ok (.found place (.file content)) := by
  rw [save] at h
  obtain ⟨d, hd, h⟩ := exists_of_bind_eq_ok h
  have hstart := kindAt_start hd
  have hstart_ne (target : String) : t.root.kindAt (t.start path) ≠ some (.link target) := by
    rw [hstart]
    exact fun h => Kind.dir_ne_link target (Option.some.inj h)
  obtain ⟨hpath, hleads⟩ := resolve_eq_ok_iff.1 hd
  split at h
  · cases h
  · next place n hn =>
    cases h
    have hget := hleads.get?_found
    obtain ⟨old, hold⟩ : ∃ old, t.root.kindAt place = some (.file old) := by
      cases n with
      | file old => exact ⟨old, kindAt_eq_file_iff.2 hget⟩
      | dir es => exact absurd rfl (hn es)
      | link target =>
        refine absurd ?_ (hleads.found_ne_link hstart_ne target)
        rw [Node.kindAt, hget]
        rfl
    have hne : place ≠ [] := by
      rintro rfl
      rw [kindAt_nil_of_dir hstart] at hold
      cases hold
    obtain ⟨directory, name, rfl⟩ : ∃ directory name, place = directory ++ [name] :=
      ⟨_, _, (List.dropLast_append_getLast hne).symm⟩
    have hdir : t.root.kindAt directory = some .dir :=
      kindAt_eq_dir_of_append name [] (by rw [hold]; exact Option.some_ne_none _)
    have hgains : t.Gains (directory ++ [name]) (.file content) (t.put (directory ++ [name]) _) :=
      put_gains (n := .file content) hdir (.inr ⟨old, hold⟩) fun _ => rfl
    have hgrown := hgains.grown (.inr ⟨old, hold⟩) (.inr ⟨content, rfl⟩)
    refine ⟨_, .inr ⟨old, hold⟩, hgains, resolve_eq_ok_iff.2 ⟨hpath, ?_⟩⟩
    have hmore : Leads _ .use maxLinks (t.start path) (Path.segments path ++ [])
        (.found (directory ++ [name]) (.file content)) :=
      hleads.append hgrown fun _ => .done (kindAt_eq_file_iff.1 hgains.kindAt_self)
    rwa [List.append_nil] at hmore
  · next directory name =>
    cases h
    obtain ⟨hdir, hnone⟩ := hleads.of_vacant
    have hgains : t.Gains (directory ++ [name]) (.file content) (t.put (directory ++ [name]) _) :=
      put_gains (n := .file content) hdir (.inl hnone) fun _ => rfl
    have hgrown := hgains.grown (.inl hnone) (.inl hnone)
    have hmade := hleads.made hgrown (kindAt_eq_file_iff.1 hgains.kindAt_self)
      (Kind.file_ne_link content)
    exact ⟨_, .inl hnone, hgains, resolve_eq_ok_iff.2 ⟨hpath, hmade⟩⟩

end LiquidCatalog.FileTree

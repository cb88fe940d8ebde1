import LiquidCatalog.Proofs.FileTree.Seen
import LiquidCatalog.Proofs.FileTree.Templates

/-!
Reading and searching what is below a directory.

The joined path of what is below a directory goes the way of the directory and then from name to
name, whether the path of the directory ends in slashes or not. So it leads there, unless it is
longer than paths can be.
-/

namespace LiquidCatalog.FileTree

open Node

variable {root : Node (List UInt8)} {links : Nat} {place : List String}

/-! ### Ways -/

/-- A slash at the end of a path that leads somewhere can be left out. -/
lemma Leads.of_slash {segments target : List String} {n : Node (List UInt8)}
    (h : Leads root .use links place (segments ++ [""]) (.found target n)) :
    Leads root .use links place segments (.found target n) := by
  generalize hall : segments ++ [""] = all at h
  generalize hfound : Destination.found target n = found at h ⊢
  induction h generalizing segments with
  | done hn => exact absurd hall (by simp)
  | stay hdir hs h ih =>
    cases segments with
    | nil =>
      obtain ⟨-, rfl⟩ := List.cons.inj hall
      exact h
    | cons s segments =>
      obtain ⟨rfl, hrest⟩ := List.cons.inj hall
      exact .stay hdir hs (ih hrest hfound)
  | up hdir _ ih =>
    cases segments with
    | nil => exact absurd (List.cons.inj hall).1 (by decide)
    | cons s segments =>
      obtain ⟨rfl, hrest⟩ := List.cons.inj hall
      exact .up hdir (ih hrest hfound)
  | follow hdir hs hlink _ ih =>
    cases segments with
    | nil => exact absurd (List.cons.inj hall).1.symm hs.ne_empty
    | cons s segments =>
      obtain ⟨rfl, rfl⟩ := List.cons.inj hall
      exact .follow hdir (hs.use _) hlink (ih (List.append_assoc _ _ _) hfound)
  | enter hdir hs hkind hk _ ih =>
    cases segments with
    | nil => exact absurd (List.cons.inj hall).1.symm hs.ne_empty
    | cons s segments =>
      obtain ⟨rfl, hrest⟩ := List.cons.inj hall
      exact .enter hdir (hs.use _) hkind hk (ih hrest hfound)
  | free => cases hfound

/-- Names of entries lead to what they name, unless that is a link. -/
lemma leads_names {names : List String} {n : Node (List UInt8)}
    (hn : root.get? (place ++ names) = some n) (hlink : ∀ target, n.kind ≠ .link target)
    (hnames : ∀ name ∈ names, IsEntryName name) :
    Leads root .use links place names (.found (place ++ names) n) := by
  have hkind : root.kindAt (place ++ names) = some n.kind := by rw [Node.kindAt, hn]; rfl
  induction names generalizing place with
  | nil =>
    rw [List.append_nil] at hn ⊢
    exact .done hn
  | cons name names ih =>
    obtain ⟨hname, hnames⟩ := List.forall_mem_cons.1 hnames
    have hdir := kindAt_eq_dir_of_append name names (by rw [hkind]; exact Option.some_ne_none _)
    have hentry : NamesEntry .use name names :=
      ⟨hname.ne_empty, hname.ne_dot, hname.ne_up, hname.size_le, not_make_of_use names⟩
    have hsplit : place ++ name :: names = (place ++ [name]) ++ names := by simp
    rw [hsplit] at hn hkind ⊢
    obtain ⟨k, hk, hk_link⟩ : ∃ k, root.kindAt (place ++ [name]) = some k ∧
        ∀ target, k ≠ .link target := by
      cases names with
      | nil => exact ⟨n.kind, by rwa [List.append_nil] at hkind, hlink⟩
      | cons next names =>
        refine ⟨.dir, kindAt_eq_dir_of_append next names ?_, Kind.dir_ne_link⟩
        rw [hkind]
        exact Option.some_ne_none _
    exact .enter hdir hentry hk hk_link (ih hn hnames hkind)

/-! ### Paths -/

variable {t : FileTree} {directory path : String} {names : List String}
  {es : List (String × Node (List UInt8))}

lemma start_below (hdirectory : directory ≠ "") :
    t.start (Path.below directory names) = t.start directory := by
  obtain ⟨more, hmore⟩ := Path.exists_below_eq_append directory names
  obtain ⟨c, cs, hcs⟩ : ∃ c cs, directory.toList = c :: cs :=
    List.exists_cons_of_ne_nil (by simpa using hdirectory)
  rw [start, start, hmore, Path.isAbsolute, Path.isAbsolute, String.toList_append, hcs]
  rfl

lemma checkPath_eq_ok_iff : checkPath path = .ok () ↔
    '\x00' ∉ path.toList ∧ path ≠ "" ∧ path.utf8ByteSize < 4096 := by
  rw [checkPath]
  split
  · next h => simp_all
  · split
    · next h => simp_all
    · split
      · next h => simp_all
      · next h => simp_all

/-- **The joined path** of what is below a directory leads there, unless it is longer than paths can
be. -/
lemma resolve_below {n : Node (List UInt8)} (hes : t.directory? directory = some es)
    (hne : names ≠ []) (hnames : ∀ name ∈ names, IsEntryName name)
    (hn : (dir es).get? names = some n) (hlink : ∀ target, n.kind ≠ .link target)
    (hsize : (Path.below directory names).utf8ByteSize < 4096) :
    ∃ place, t.resolve .use (Path.below directory names) = .ok (.found place n) := by
  obtain ⟨place, hplace⟩ := directory?_eq_some_iff.1 hes
  obtain ⟨hpath, hleads⟩ := resolve_eq_ok_iff.1 hplace
  obtain ⟨hnul, hdirectory, -⟩ := checkPath_eq_ok_iff.1 hpath
  obtain ⟨before, hbelow, -, hspelled⟩ := Path.segments_below hdirectory hne hnames
  have hbefore : Leads t.root .use maxLinks (t.start directory) before (.found place (dir es)) := by
    rcases hspelled with hsegments | hsegments
    · rwa [hsegments] at hleads
    · rw [hsegments] at hleads
      exact hleads.of_slash
  have hget : t.root.get? (place ++ names) = some n := by
    rw [get?_append, hleads.get?_found, Option.bind_some, hn]
  refine ⟨place ++ names, resolve_eq_ok_iff.2 ⟨checkPath_eq_ok_iff.2 ⟨?_, ?_, hsize⟩, ?_⟩⟩
  · exact Path.nul_not_mem_below hnul hnames
  · exact Path.below_ne_empty hdirectory
  · rw [hbelow, start_below hdirectory]
    exact hbefore.append (.refl t.root) fun _ => leads_names hget hlink hnames

/-! ### Reading -/

lemma exists_resolve_of_read {bytes : List UInt8} (h : t.read path = .ok bytes) :
    ∃ d, t.resolve .use path = .ok d := by
  rw [read] at h
  obtain ⟨d, hd, -⟩ := exists_of_bind_eq_ok h
  exact ⟨d, hd⟩

lemma size_lt_of_read {bytes : List UInt8} (h : t.read path = .ok bytes) :
    path.utf8ByteSize < 4096 := by
  obtain ⟨d, hd⟩ := exists_resolve_of_read h
  exact (checkPath_eq_ok_iff.1 (resolve_eq_ok_iff.1 hd).1).2.2

/-- Reading a file below a directory by its joined path gives its content, if the path is not too
long. -/
lemma read_below {content : List UInt8} (hes : t.directory? directory = some es)
    (hnames : ∀ name ∈ names, IsEntryName name)
    (hfile : (dir es).kindAt names = some (.file content))
    (hsize : (Path.below directory names).utf8ByteSize < 4096) :
    t.read (Path.below directory names) = .ok content := by
  have hne : names ≠ [] := by
    rintro rfl
    simp [kind] at hfile
  obtain ⟨place, hplace⟩ := resolve_below hes hne hnames (kindAt_eq_file_iff.1 hfile)
    (Kind.file_ne_link content) hsize
  rw [read, hplace]
  rfl

/-! ### Searching -/

/-- The only way in which the path of a directory can fail is its length. -/
lemma checkPath_of_mem_directoryPaths (hwf : (dir es).WellFormed)
    (hes : t.directory? directory = some es) (hpath : path ∈ directoryPaths directory es) :
    checkPath path = if path.utf8ByteSize < 4096 then .ok () else .error .nameTooLong := by
  obtain ⟨place, hplace⟩ := directory?_eq_some_iff.1 hes
  obtain ⟨hnul, hne, -⟩ := checkPath_eq_ok_iff.1 (resolve_eq_ok_iff.1 hplace).1
  obtain ⟨names, hnames, rfl⟩ := List.mem_map.1 hpath
  obtain ⟨-, es', hes'⟩ := (mem_directories_iff hwf).1 hnames
  have hbelow_nul := Path.nul_not_mem_below hnul (hwf.get? hes').2
  have hbelow_ne : Path.below directory names ≠ "" := Path.below_ne_empty hne
  rw [checkPath, if_neg (by simpa using hbelow_nul), if_neg (by simpa using hbelow_ne)]
  simp only [← not_lt, ite_not]

lemma search_eq_ok_iff_size_lt (hwf : (dir es).WellFormed)
    (hes : t.directory? directory = some es) : t.search directory = .ok es ↔
      ∀ path ∈ directoryPaths directory es, path.utf8ByteSize < 4096 := by
  rw [search_eq_ok_iff, and_iff_right hes]
  refine forall₂_congr fun path hpath => ?_
  rw [checkPath_of_mem_directoryPaths hwf hes hpath]
  split <;> simp [*]

lemma directory?_eq_none_iff (hwf : (dir es).WellFormed) (hes : t.directory? directory = some es)
    (hpath : path ∈ directoryPaths directory es) :
    t.directory? path = none ↔ 4096 ≤ path.utf8ByteSize := by
  constructor
  · intro hnone
    by_contra hsize
    obtain ⟨names, hnames, rfl⟩ := List.mem_map.1 hpath
    obtain ⟨hne, es', hes'⟩ := (mem_directories_iff hwf).1 hnames
    obtain ⟨place, hplace⟩ :=
      resolve_below hes hne (hwf.get? hes').2 hes' Kind.dir_ne_link (not_le.1 hsize)
    rw [directory?_eq_some_iff.2 ⟨place, hplace⟩] at hnone
    cases hnone
  · intro hsize
    have hcheck := checkPath_of_mem_directoryPaths hwf hes hpath
    rw [if_neg (not_lt.2 hsize)] at hcheck
    rw [directory?, resolve, hcheck]
    rfl

/-- **What a search opens.** It comes to an end if the paths of all directories below lead to
directories. Otherwise it tells the first path that does not; this path is too long. -/
theorem search_opens (hwf : (dir es).WellFormed) (hes : t.directory? directory = some es) :
    (t.search directory = .ok es ↔
      ∀ path ∈ directoryPaths directory es, t.directory? path ≠ none) ∧
    ∀ e, t.search directory = .error e ↔ ∃ before path after,
      directoryPaths directory es = before ++ path :: after ∧
      (∀ p ∈ before, t.directory? p ≠ none) ∧ t.directory? path = none ∧
      e = .unopened path .nameTooLong := by
  have hopened : ∀ path ∈ directoryPaths directory es,
      (checkPath path).mapError (SearchError.unopened path) =
        if t.directory? path = none then .error (.unopened path .nameTooLong) else .ok () := by
    intro path hpath
    rw [checkPath_of_mem_directoryPaths hwf hes hpath]
    simp only [directory?_eq_none_iff hwf hes hpath, ← not_lt, ite_not]
    split <;> rfl
  constructor
  · rw [search_eq_ok_iff_size_lt hwf hes]
    exact forall₂_congr fun path hpath => by
      rw [ne_eq, directory?_eq_none_iff hwf hes hpath, not_le]
  · intro e
    have hfirst : t.search directory = .error e ↔ (directoryPaths directory es).forM
        (fun p => (checkPath p).mapError (SearchError.unopened p)) = .error e := by
      rw [search_of_some hes]
      cases (directoryPaths directory es).forM fun p =>
        (checkPath p).mapError (SearchError.unopened p) <;> simp [Except.map]
    rw [hfirst, forM_eq_error_iff]
    refine exists_congr fun before => exists_congr fun path => exists_congr fun after => ?_
    refine and_congr_right fun hpaths => ?_
    rw [hpaths] at hopened
    refine and_congr (forall₂_congr fun p hp => ?_) ?_
    · rw [hopened p (List.mem_append_left _ hp)]
      split <;> simp [*]
    · rw [hopened path (List.mem_append_right _ List.mem_cons_self)]
      split
      · next hnone => simp only [hnone, true_and, Except.error.injEq, eq_comm]
      · next hsome => simp [hsome]

end LiquidCatalog.FileTree

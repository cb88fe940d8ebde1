import LiquidCatalog.Proofs.Extraction.Reading
import LiquidCatalog.Proofs.FileTree.Below
import LiquidCatalog.Proofs.Path
import LiquidCatalog.Proofs.Text.Utf8Order

/-!
Finding the templates below a directory.

The paths of the templates are in strict order of their components, as bytes. Which paths there are
depends on what is at the places of the tree, so the order in which the file system lists the
entries of its directories shows neither in the paths nor in the catalog.
-/

namespace LiquidCatalog

open FileTree Node

variable {t t' : FileTree} {input path : String} {es : List (String × Node (List UInt8))}

/-! ### The directory that is searched -/

lemma ne_empty_of_directory (hes : t.directory? input = some es) : input ≠ "" := by
  obtain ⟨place, hplace⟩ := directory?_eq_some_iff.1 hes
  obtain ⟨hpath, -⟩ := resolve_eq_ok_iff.1 hplace
  rintro rfl
  cases hpath

lemma wellFormed_of_directory (hwf : t.root.WellFormed) (hes : t.directory? input = some es) :
    (dir es).WellFormed := by
  obtain ⟨place, hplace⟩ := directory?_eq_some_iff.1 hes
  obtain ⟨-, hleads⟩ := resolve_eq_ok_iff.1 hplace
  exact (hwf.get? hleads.get?_found).1

/-- The names that lead to a template are names of entries. -/
lemma isEntryName_of_hasTemplateAt (hwf : (dir es).WellFormed) {place : List String}
    (h : (dir es).HasTemplateAt place) : ∀ name ∈ place, IsEntryName name := by
  obtain ⟨content, hcontent⟩ := h.is_file
  exact (hwf.get? (kindAt_eq_file_iff.1 hcontent)).2

/-! ### The paths of templates -/

/-- The paths of templates show at which places they are. -/
lemma byteComponents_below (hinput : input ≠ "") {place : List String} (hne : place ≠ [])
    (hnames : ∀ name ∈ place, IsEntryName name) :
    Path.byteComponents (Path.below input place) =
      Path.byteComponents input ++ place.map fun name => Text.utf8 name.toList := by
  rw [Path.byteComponents, Path.components_below hinput hne hnames, List.map_append]
  rfl

lemma byteComponents_lt (hinput : input ≠ "") (hwf : (dir es).WellFormed)
    {place place' : List String} (hplace : (dir es).HasTemplateAt place)
    (hplace' : (dir es).HasTemplateAt place') (h : place < place') :
    Path.byteComponents (Path.below input place) <
      Path.byteComponents (Path.below input place') := by
  rw [byteComponents_below hinput hplace.ne_nil (isEntryName_of_hasTemplateAt hwf hplace),
    byteComponents_below hinput hplace'.ne_nil (isEntryName_of_hasTemplateAt hwf hplace')]
  exact List.append_left_lt (List.map_lt (fun _ _ => Text.utf8_lt_utf8) h)

lemma place_unique (hinput : input ≠ "") (hwf : (dir es).WellFormed) {place place' : List String}
    (hplace : (dir es).HasTemplateAt place) (hplace' : (dir es).HasTemplateAt place')
    (h : Path.below input place = Path.below input place') : place = place' := by
  have hcomponents := congrArg Path.components h
  rw [Path.components_below hinput hplace.ne_nil (isEntryName_of_hasTemplateAt hwf hplace),
    Path.components_below hinput hplace'.ne_nil (isEntryName_of_hasTemplateAt hwf hplace')]
    at hcomponents
  exact List.append_cancel_left hcomponents

/-- **The paths of templates** are those that lead to one, each of them to one place. -/
lemma mem_templatePaths_iff (hinput : input ≠ "") (hwf : (dir es).WellFormed) :
    path ∈ templatePaths input es ↔
      ∃! place, (dir es).HasTemplateAt place ∧ path = Path.below input place := by
  constructor
  · intro hpath
    obtain ⟨place, hplace, rfl⟩ := List.mem_map.1 hpath
    have htemplate := (mem_templates_iff hwf).1 hplace
    refine ⟨place, ⟨htemplate, rfl⟩, ?_⟩
    rintro place' ⟨htemplate', hbelow⟩
    exact (place_unique hinput hwf htemplate htemplate' hbelow).symm
  · rintro ⟨place, ⟨htemplate, rfl⟩, -⟩
    exact List.mem_map_of_mem ((mem_templates_iff hwf).2 htemplate)

lemma pairwise_templatePaths (hinput : input ≠ "") (hwf : (dir es).WellFormed) :
    (templatePaths input es).Pairwise fun path path' =>
      Path.byteComponents path < Path.byteComponents path' := by
  refine List.pairwise_map.2 ((Node.pairwise_places hwf).imp_of_mem ?_)
  intro place place' hplace hplace' hlt
  exact byteComponents_lt hinput hwf ((mem_templates_iff hwf).1 hplace)
    ((mem_templates_iff hwf).1 hplace') hlt

/-! ### Other listings of the tree -/

lemma looksLike_of_relisted (hwf : t.root.WellFormed) (hlist : t.root.Relisted t'.root)
    (hdirectory : t'.workingDirectory = t.workingDirectory) : t'.LooksLike t :=
  ⟨hdirectory, hlist.kindAt_eq hwf⟩

/-- Trees that look alike have the same places to search, whatever their paths say. -/
lemma places_eq_of_looksLike {p : String → Node (List UInt8) → Bool}
    (hp : ∀ name (n n' : Node (List UInt8)), n.kind = n'.kind → p name n = p name n')
    (hwf : t.root.WellFormed) (hwf' : t'.root.WellFormed) (h : t'.LooksLike t)
    {es' : List (String × Node (List UInt8))} (hes : t.directory? input = some es)
    (hes' : t'.directory? input = some es') : places p es' = places p es := by
  obtain ⟨es'', hes'', hkind⟩ := h.directory hes
  obtain rfl : es'' = es' := Option.some.inj (hes''.symm.trans hes')
  exact places_congr hp (wellFormed_of_directory hwf hes) (wellFormed_of_directory hwf' hes') hkind

lemma templatePaths_eq_of_looksLike (hwf : t.root.WellFormed) (hwf' : t'.root.WellFormed)
    (h : t'.LooksLike t) {es' : List (String × Node (List UInt8))}
    (hes : t.directory? input = some es) (hes' : t'.directory? input = some es') :
    templatePaths input es' = templatePaths input es :=
  congrArg (List.map (Path.below input))
    (places_eq_of_looksLike isTemplate_congr hwf hwf' h hes hes')

/-- **Finding templates** in trees that look alike gives the same paths or the same failure. -/
lemma found_eq_of_looksLike (hwf : t.root.WellFormed) (hwf' : t'.root.WellFormed)
    (h : t'.LooksLike t) (input : String) : t'.found input = t.found input := by
  rw [found, found]
  cases hes : t.directory? input with
  | none => rw [search_of_none hes, search_of_none (h.directory_eq_none hes)]
  | some es =>
    obtain ⟨es', hes', -⟩ := h.directory hes
    have hplaces := places_eq_of_looksLike (fun _ => isDir_congr) hwf hwf' h hes hes'
    have hdirectories : directoryPaths input es' = directoryPaths input es :=
      congrArg (List.map (Path.below input)) hplaces
    rw [search_of_some hes, search_of_some hes', hdirectories]
    cases (directoryPaths input es).forM fun p => (checkPath p).mapError (SearchError.unopened p)
      with
    | error e => rfl
    | ok _ => exact congrArg Except.ok (templatePaths_eq_of_looksLike hwf hwf' h hes hes')

lemma catalog_eq_of_looksLike (hwf : t.root.WellFormed) (hwf' : t'.root.WellFormed)
    (h : t'.LooksLike t) (j : Job) : t'.catalog j = t.catalog j := by
  have htemplate : t'.template = t.template := by
    funext path
    rw [template, template, h.read]
  rw [catalog, catalog, FileTree.templates, FileTree.templates, htemplate,
    found_eq_of_looksLike hwf hwf' h]

/-- Templates are found if the paths of the directories are not too long. -/
lemma toOption_found (hwf : t.root.WellFormed) (hes : t.directory? input = some es) :
    (t.found input).toOption =
      if ∀ path ∈ directoryPaths input es, path.utf8ByteSize < 4096 then
        some (templatePaths input es) else none := by
  have hsearch := search_eq_ok_iff_size_lt (wellFormed_of_directory hwf hes) hes
  rw [found]
  split
  · next hsizes =>
    rw [hsearch.2 hsizes]
    rfl
  · next hsizes =>
    cases hfound : t.search input with
    | error e => rfl
    | ok es' =>
      obtain rfl : es' = es := Option.some.inj ((search_eq_ok_iff.1 hfound).1.symm.trans hes)
      exact absurd (hsearch.1 hfound) hsizes

/-- **The templates that are found.** The paths are those of the files below the input whose names
end in `.liquid` and have something before it, one path for each file, in strict order of their
components. Finding them fails only if the path of a directory is too long. They and the catalog are
the same however the entries of directories are listed. -/
theorem templatePaths_exact (hwf : t.root.WellFormed) (hes : t.directory? input = some es) :
    ((onTree (findTemplates input) t).1.toOption =
      if ∀ path ∈ directoryPaths input es, path.utf8ByteSize < 4096 then
        some (templatePaths input es) else none) ∧
    (∀ path, path ∈ templatePaths input es ↔
      ∃! place, (dir es).HasTemplateAt place ∧ path = Path.below input place) ∧
    (templatePaths input es).Nodup ∧
    (templatePaths input es).Pairwise (fun path path' =>
      Path.byteComponents path < Path.byteComponents path') ∧
    ∀ t' : FileTree, t'.workingDirectory = t.workingDirectory → t.root.Relisted t'.root →
      (∃ es', t'.directory? input = some es' ∧
        templatePaths input es' = templatePaths input es) ∧
      (onTree (findTemplates input) t').1 = (onTree (findTemplates input) t).1 ∧
      ∀ j : Job, (onTree (readCatalog j) t').1 = (onTree (readCatalog j) t).1 := by
  have hinput := ne_empty_of_directory hes
  have hes_wf := wellFormed_of_directory hwf hes
  have hsorted := pairwise_templatePaths hinput hes_wf
  refine ⟨?_, fun path => mem_templatePaths_iff hinput hes_wf, ?_, hsorted, ?_⟩
  · rw [onTree_findTemplates, toOption_found hwf hes]
  · refine hsorted.imp fun hlt heq => ?_
    rw [heq] at hlt
    exact List.lt_irrefl _ hlt
  · intro t' hdirectory hlist
    have hlike := looksLike_of_relisted hwf hlist hdirectory
    have hwf' := hlist.wellFormed hwf
    refine ⟨?_, ?_, fun j => ?_⟩
    · obtain ⟨es', hes', -⟩ := hlike.directory hes
      exact ⟨es', hes', templatePaths_eq_of_looksLike hwf hwf' hlike hes hes'⟩
    · rw [onTree_findTemplates, onTree_findTemplates]
      exact found_eq_of_looksLike hwf hwf' hlike input
    · rw [onTree_readCatalog, onTree_readCatalog]
      exact catalog_eq_of_looksLike hwf hwf' hlike j

/-- A file is listed before a directory whose name comes first, and a link is passed over. -/
theorem templatePaths_exact_reversed :
    let entries : List (String × Node (List UInt8)) :=
      [("a.liquid", .file []), ("l.liquid", .link "a.liquid"), ("a", .dir [("b.liquid", .file [])])]
    let tree (es : List (String × Node (List UInt8))) : FileTree :=
      { root := .dir [("site", .dir es)] }
    (tree entries).root.WellFormed ∧ (tree entries).directory? "site" = some entries ∧
      (tree entries).root.Relisted (tree entries.reverse).root ∧
      templatePaths "site" entries = ["site/a/b.liquid", "site/a.liquid"] ∧
      (∃ es', (tree entries.reverse).directory? "site" = some es' ∧
        templatePaths "site" es' = templatePaths "site" entries) ∧
      (onTree (findTemplates "site") (tree entries.reverse)).1 =
        (onTree (findTemplates "site") (tree entries)).1 := by
  intro entries tree
  have hentries : (dir entries).WellFormed := by
    refine .dir (by decide) (by decide) ?_
    simp only [entries, List.forall_mem_cons]
    refine ⟨.file _, .link _, .dir (by decide) (by decide) ?_, ?_⟩
    · simpa using .file _
    · simp
  have hwf : (tree entries).root.WellFormed :=
    .dir (by decide) (by decide) (by simpa using hentries)
  have hes : (tree entries).directory? "site" = some entries := by rfl
  have hlist : (tree entries).root.Relisted (tree entries.reverse).root :=
    @Relisted.entry _ [] [] "site" _ _ (.perm (List.reverse_perm entries).symm)
  obtain ⟨-, -, -, -, hrelisted⟩ := templatePaths_exact hwf hes
  obtain ⟨hpaths, hfound, -⟩ := hrelisted (tree entries.reverse) rfl hlist
  refine ⟨hwf, hes, hlist, ?_, hpaths, hfound⟩
  have htemplates : Node.templates entries = [["a", "b.liquid"], ["a.liquid"]] := by
    refine (pairwise_places hentries).eq_of_mem_iff (by decide) fun place => ?_
    have ha : isTemplateName "a.liquid" = true := by decide
    have hb : isTemplateName "b.liquid" = true := by decide
    simp [mem_places, entries, placesAt, ownPlace, branches, inOrder, isTemplate, ha, hb, or_comm]
  rw [templatePaths, htemplates]
  decide

end LiquidCatalog

import LiquidCatalog.Proofs.Catalog.Separate
import LiquidCatalog.Proofs.Extraction.Discovery
import LiquidCatalog.Proofs.FileTree.Below

/-!
Catalogs whose base is the input directory.

The path of a template is the base and then the names that lead from the input directory to it, so
the base is taken off exactly. What is left depends on the directory alone: the catalog is one of
its entries, whichever path they have been found by.
-/

namespace LiquidCatalog

open FileTree Node

variable {t : FileTree} {j : Job} {es : List (String × Node (List UInt8))} {place : List String}

/-! ### The path of a template from the directory on -/

/-- The path of a place from the directory on. -/
def relativePath (place : List String) : String := "/".intercalate place

lemma exists_stem {n : Node (List UInt8)} (h : n.HasTemplateAt place) :
    ∃ stem, stem ≠ "" ∧ relativePath place = stem ++ ".liquid" := by
  obtain ⟨directory, stem, hne, rfl⟩ := h.is_named
  rw [relativePath]
  by_cases hdirectory : directory = []
  · subst hdirectory
    exact ⟨stem, hne, by rw [List.nil_append, String.intercalate_singleton]⟩
  · refine ⟨"/".intercalate directory ++ "/" ++ stem, ?_, ?_⟩
    · simp [hne]
    · rw [String.intercalate_append_of_ne_nil hdirectory (List.cons_ne_nil _ _),
        String.intercalate_singleton]
      simp only [String.append_assoc]

lemma base_text (hbase : j.basePath = none) : j.base.text = Path.asDirectory j.input := by
  rw [Job.base, hbase]
  rfl

lemma below_eq_base_append (hbase : j.basePath = none) (hwf : (dir es).WellFormed)
    (hinput : j.input ≠ "") (h : (dir es).HasTemplateAt place) :
    Path.below j.input place = j.base.text ++ relativePath place := by
  rw [base_text hbase]
  exact Path.below_eq hinput h.ne_nil (isEntryName_of_hasTemplateAt hwf h)

/-! ### What is read -/

/-- The template at a place, with its path from the directory on, if it is a text. -/
def relativeTemplate? (es : List (String × Node (List UInt8))) (place : List String) :
    Option Template :=
  match (dir es).get? place with
  | some (.file bytes) => (Text.ofUtf8? bytes).map (⟨relativePath place, ·⟩)
  | _ => none

/-- The catalog of a directory, if all of its templates are texts. -/
def relativeCatalog? (es : List (String × Node (List UInt8))) : Option Catalog :=
  ((Node.templates es).mapM (relativeTemplate? es)).map (.ofTemplates (BasePath.provenance ⟨""⟩))

lemma path_of_relativeTemplate? {T : Template} (h : relativeTemplate? es place = some T) :
    T.path = relativePath place := by
  rw [relativeTemplate?] at h
  split at h
  · obtain ⟨text, -, rfl⟩ := Option.map_eq_some_iff.1 h
    rfl
  · cases h

lemma template_below {input : String} (hwf : (dir es).WellFormed)
    (hes : t.directory? input = some es) (h : (dir es).HasTemplateAt place)
    (hsize : (Path.below input place).utf8ByteSize < 4096) :
    t.template (Path.below input place) =
      match relativeTemplate? es place with
      | some T => .ok { T with path := Path.below input place }
      | none => .error (.unreadable (Path.below input place) .notText) := by
  obtain ⟨bytes, hbytes⟩ := h.is_file
  have hread := read_below hes (isEntryName_of_hasTemplateAt hwf h) hbytes hsize
  rw [template, hread, relativeTemplate?, kindAt_eq_file_iff.1 hbytes]
  cases htext : Text.ofUtf8? bytes <;> simp only [htext, Option.map_some, Option.map_none]

/-- Messages depend on the content of a template and on what is made of its path. -/
lemma messages_congr {b b' : BasePath} {T T' : Template} (hcontent : T.content = T'.content)
    (hcontext : b.context T.path = b'.context T'.path)
    (hlocation : b.location T.path = b'.location T'.path) :
    T.messages b.provenance = T'.messages b'.provenance := by
  rw [Template.messages, Template.messages, hcontent, Liquid.extract, Liquid.extract]
  refine List.map_congr_left fun o _ => ?_
  simp only [Liquid.message, BasePath.provenance, hcontext, hlocation]

/-- What is taken off a path leaves the same messages as if there had been nothing to take off. -/
lemma messages_append_eq (b : BasePath) {stem : String} (text : String) :
    Template.messages b.provenance ⟨b.text ++ (stem ++ ".liquid"), text⟩ =
      Template.messages (BasePath.provenance ⟨""⟩) ⟨stem ++ ".liquid", text⟩ := by
  have hempty : stem ++ ".liquid" = (BasePath.mk "").text ++ (stem ++ ".liquid") := by simp
  refine messages_congr rfl ?_ ?_
  · rw [b.context_append, hempty, BasePath.context_append]
  · rw [b.location_append, hempty, BasePath.location_append]
    simp

lemma messages_below (hbase : j.basePath = none) (hwf : (dir es).WellFormed)
    (hes : t.directory? j.input = some es) (h : (dir es).HasTemplateAt place)
    (hsize : (Path.below j.input place).utf8ByteSize < 4096) :
    (t.template (Path.below j.input place)).toOption.map (·.messages j.base.provenance) =
      (relativeTemplate? es place).map (·.messages (BasePath.provenance ⟨""⟩)) := by
  rw [template_below hwf hes h hsize]
  cases hT : relativeTemplate? es place with
  | none => simp only [Except.toOption, Option.map_none]
  | some T =>
    obtain ⟨stem, -, hstem⟩ := exists_stem h
    have hpath : T.path = stem ++ ".liquid" := (path_of_relativeTemplate? hT).trans hstem
    simp only [Except.toOption, Option.map_some]
    rw [below_eq_base_append hbase hwf (ne_empty_of_directory hes) h, hstem, messages_append_eq,
      ← hpath]

/-- Two ways of reading that agree on each item agree on all of them together. -/
lemma mapM_flatMap_congr {ε α β γ δ : Type} {f : α → Except ε β} {g : α → Option γ}
    {parts : β → List δ} {parts' : γ → List δ} {l : List α}
    (h : ∀ a ∈ l, (f a).toOption.map parts = (g a).map parts') :
    (l.mapM f).toOption.map (·.flatMap parts) = (l.mapM g).map (·.flatMap parts') := by
  induction l with
  | nil => rfl
  | cons a l ih =>
    obtain ⟨ha, hl⟩ := List.forall_mem_cons.1 h
    have ih := ih hl
    rw [List.mapM_cons, List.mapM_cons]
    cases hf : f a with
    | error e =>
      have hg : g a = none := by simpa [hf, Except.toOption, eq_comm] using ha
      rw [hg]
      rfl
    | ok b =>
      obtain ⟨c, hg, hparts⟩ : ∃ c, g a = some c ∧ parts' c = parts b := by
        simpa [hf, Except.toOption, eq_comm] using ha
      rw [hg]
      cases hfs : l.mapM f with
      | error e =>
        have hgs : l.mapM g = none := by simpa [hfs, Except.toOption, eq_comm] using ih
        rw [hgs]
        rfl
      | ok bs =>
        obtain ⟨cs, hgs, hflat⟩ : ∃ cs, l.mapM g = some cs ∧
            cs.flatMap parts' = bs.flatMap parts := by
          simpa [hfs, Except.toOption, eq_comm] using ih
        rw [hgs]
        simp [bind, Except.bind, pure, Except.pure, Except.toOption, hparts, hflat]

/-- Where there is a catalog, all paths that were needed for it could be followed. -/
lemma size_lt_of_catalog {c : Catalog} (hwf : (dir es).WellFormed)
    (hes : t.directory? j.input = some es) (h : t.catalog j = .ok c) :
    ∀ path ∈ directoryPaths j.input es ++ templatePaths j.input es, path.utf8ByteSize < 4096 := by
  obtain ⟨ts, hts, -⟩ := catalog_eq_ok_iff.1 h
  obtain ⟨es', hsearch, hpaths, htexts⟩ := templates_eq_ok_iff.1 hts
  obtain rfl : es' = es := Option.some.inj ((search_eq_ok_iff.1 hsearch).1.symm.trans hes)
  refine List.forall_mem_append.2 ⟨(search_eq_ok_iff_size_lt hwf hes).1 hsearch, ?_⟩
  rw [← hpaths, List.forall_mem_map]
  intro T hT
  obtain ⟨bytes, hbytes, -⟩ := htexts T hT
  exact size_lt_of_read hbytes

/-- **The catalog that is read** is that of the directory, if no path is too long. -/
lemma toOption_catalog_of_size_lt (hbase : j.basePath = none) (hwf : (dir es).WellFormed)
    (hes : t.directory? j.input = some es) (hsizes : ∀ path ∈ directoryPaths j.input es ++
      templatePaths j.input es, path.utf8ByteSize < 4096) :
    (t.catalog j).toOption = relativeCatalog? es := by
  obtain ⟨hdirectories, hpaths⟩ := List.forall_mem_append.1 hsizes
  have hmessages := mapM_flatMap_congr (l := Node.templates es) fun place hplace =>
    messages_below hbase hwf hes ((mem_templates_iff hwf).1 hplace)
      (hpaths _ (List.mem_map_of_mem hplace))
  have htemplates : t.templates j.input =
      (Node.templates es).mapM fun place => t.template (Path.below j.input place) := by
    rw [FileTree.templates, found, (search_eq_ok_iff_size_lt hwf hes).2 hdirectories]
    exact List.mapM_map
  have hgather := congrArg (Option.map Catalog.ofList) hmessages
  rw [Option.map_map, Option.map_map] at hgather
  rw [relativeCatalog?, catalog, htemplates]
  refine Eq.trans ?_ hgather
  cases (Node.templates es).mapM fun place => t.template (Path.below j.input place) with
  | error f => rfl
  | ok ts => rfl

lemma toOption_catalog (hbase : j.basePath = none) (hwf : t.root.WellFormed)
    (hes : t.directory? j.input = some es) :
    (t.catalog j).toOption =
      if ∀ path ∈ directoryPaths j.input es ++ templatePaths j.input es, path.utf8ByteSize < 4096
      then relativeCatalog? es else none := by
  have hes_wf := wellFormed_of_directory hwf hes
  split
  · next hsizes => exact toOption_catalog_of_size_lt hbase hes_wf hes hsizes
  · next hsizes =>
    cases hcatalog : t.catalog j with
    | error f => rfl
    | ok c => exact absurd (size_lt_of_catalog hes_wf hes hcatalog) hsizes

/-! ### The base and the catalog -/

lemma eq_base_append_of_mem (hwf : t.root.WellFormed) (hbase : j.basePath = none)
    (hes : t.directory? j.input = some es) {path : String}
    (hpath : path ∈ templatePaths j.input es) :
    ∃ place stem, (dir es).HasTemplateAt place ∧ stem ≠ "" ∧
      relativePath place = stem ++ ".liquid" ∧ path = j.base.text ++ (stem ++ ".liquid") := by
  have hes_wf := wellFormed_of_directory hwf hes
  obtain ⟨place, hplace, rfl⟩ := List.mem_map.1 hpath
  have htemplate := (mem_templates_iff hes_wf).1 hplace
  obtain ⟨stem, hne, hstem⟩ := exists_stem htemplate
  refine ⟨place, stem, htemplate, hne, hstem, ?_⟩
  rw [below_eq_base_append hbase hes_wf (ne_empty_of_directory hes) htemplate, hstem]

/-- A message has the locations and the context that its templates have from the directory on. -/
lemma exists_stem_of_mem_catalog (hwf : t.root.WellFormed) (hbase : j.basePath = none)
    (hes : t.directory? j.input = some es) {c : Catalog} (hc : t.catalog j = .ok c) {m : Message}
    (hm : m ∈ c.toList) : ∃ context, m.context = some context ∧ m.locations ≠ [] ∧
      ∀ l ∈ m.locations, ∃ place stem, (dir es).HasTemplateAt place ∧ stem ≠ "" ∧
        relativePath place = stem ++ ".liquid" ∧ l = { file := stem ++ ".liquid" } ∧
        context = String.ofList (Path.dotted stem.toList) := by
  obtain ⟨ts, hts, rfl⟩ := catalog_eq_ok_iff.1 hc
  obtain ⟨es', hes', hpaths, -⟩ := templates_eq_ok_iff.1 hts
  obtain rfl : es' = es := Option.some.inj ((search_eq_ok_iff.1 hes').1.symm.trans hes)
  obtain ⟨context, hcontext, hlocations, hall⟩ := Catalog.exists_template_of_mem hm
  refine ⟨context, hcontext, hlocations, fun l hl => ?_⟩
  obtain ⟨T, hT, rfl, rfl⟩ := hall l hl
  obtain ⟨place, stem, htemplate, hne, hstem, hpath⟩ :=
    eq_base_append_of_mem hwf hbase hes (hpaths ▸ List.mem_map_of_mem hT)
  refine ⟨place, stem, htemplate, hne, hstem, ?_, ?_⟩
  · rw [hpath, BasePath.location_append]
  · rw [hpath, BasePath.context_append]

/-- **The default base is taken off exactly.** The path of each template is the base and then its
path from the input directory on. This is also the location of its messages, and their context is
what stands before the extension, with dots for slashes. Whichever input leads to the directory, the
catalog is that of its entries, unless the input makes the path of a directory or of a template too
long. -/
theorem default_base_removed (hwf : t.root.WellFormed) (hbase : j.basePath = none)
    (hes : t.directory? j.input = some es) :
    (∀ path ∈ templatePaths j.input es, ∃ place stem, (dir es).HasTemplateAt place ∧
      relativePath place = stem ++ ".liquid" ∧ path = j.base.text ++ (stem ++ ".liquid")) ∧
    (∀ c, (onTree (readCatalog j) t).1 = .ok c → ∀ m ∈ c.toList, ∃ context,
      m.context = some context ∧ context ≠ "" ∧ '/' ∉ context.toList ∧ m.locations ≠ [] ∧
      ∀ l ∈ m.locations, ∃ place stem, (dir es).HasTemplateAt place ∧
        relativePath place = stem ++ ".liquid" ∧ l = { file := stem ++ ".liquid" } ∧
        context = String.ofList (Path.dotted stem.toList)) ∧
    ∀ j' : Job, j'.basePath = none → t.directory? j'.input = some es →
      (onTree (readCatalog j') t).1.toOption =
        if ∀ path ∈ directoryPaths j'.input es ++ templatePaths j'.input es,
          path.utf8ByteSize < 4096 then relativeCatalog? es else none := by
  simp only [onTree_readCatalog]
  refine ⟨fun path hpath => ?_, fun c hc m hm => ?_,
    fun j' hbase' hes' => toOption_catalog hbase' hwf hes'⟩
  · obtain ⟨place, stem, htemplate, -, hstem, hpath⟩ := eq_base_append_of_mem hwf hbase hes hpath
    exact ⟨place, stem, htemplate, hstem, hpath⟩
  · obtain ⟨context, hcontext, hlocations, hfrom⟩ :=
      exists_stem_of_mem_catalog hwf hbase hes hc hm
    obtain ⟨l, hl⟩ := List.exists_mem_of_ne_nil _ hlocations
    obtain ⟨-, stem, -, hne, -, -, hdotted⟩ := hfrom l hl
    refine ⟨context, hcontext, ?_, ?_, hlocations, fun l hl => ?_⟩
    · rw [hdotted]
      simpa [String.ofList_eq_empty_iff] using hne
    · rw [hdotted, String.toList_ofList]
      exact Path.slash_not_mem_dotted _
    · obtain ⟨place, stem, htemplate, -, hstem, hlocation, hcontext⟩ := hfrom l hl
      exact ⟨place, stem, htemplate, hstem, hlocation, hcontext⟩

/-- Two inputs that lead to one directory. -/
theorem default_base_removed_twice :
    let entries : List (String × Node (List UInt8)) :=
      [("a", .dir [("b.liquid", .file (Text.utf8 "\x7b\x7b 'Hi' | t \x7d\x7d".toList))])]
    let t : FileTree := { root := .dir [("site", .dir entries)] }
    t.root.WellFormed ∧ t.directory? "site" = some entries ∧
      t.directory? "./site/..//site/" = some entries ∧
      (∀ input ∈ ["site", "./site/..//site/"],
        (onTree (readCatalog { input }) t).1.toOption = relativeCatalog? entries) ∧
      (relativeCatalog? entries).map (·.toList) =
        some
          [{ text := "Hi", context := some "a.b", locations := [{ file := "a/b.liquid" }] }] := by
  intro entries t
  have hwf : t.root.WellFormed := by
    refine .dir (by decide) (by decide) (List.forall_mem_singleton.2 ?_)
    refine .dir (by decide) (by decide) (List.forall_mem_singleton.2 ?_)
    exact .dir (by decide) (by decide) (List.forall_mem_singleton.2 (.file _))
  have hplain : t.directory? "site" = some entries := by rfl
  have hdots : t.directory? "./site/..//site/" = some entries := by rfl
  obtain ⟨-, -, hcatalog⟩ := default_base_removed (j := { input := "site" }) hwf rfl hplain
  refine ⟨hwf, hplain, hdots, ?_, by decide +kernel⟩
  intro input hinput
  rcases List.mem_pair.1 hinput with rfl | rfl
  · rw [hcatalog { input := "site" } rfl hplain, if_pos]
    decide +kernel
  · rw [hcatalog { input := "./site/..//site/" } rfl hdots, if_pos]
    decide +kernel

end LiquidCatalog

import LiquidCatalog.Cli.Run
import LiquidCatalog.Proofs.Catalog.OfTemplates
import LiquidCatalog.Proofs.Extraction.Reading
import LiquidCatalog.Proofs.FileTree.Changes

/-!
What an extraction changes.

A catalog is read as a whole before anything is written, so an extraction that fails to read one
keeps the tree. One that succeeds makes the directories that are missing on the way to the output,
and the output, with the catalog of what the templates were before.
-/

namespace LiquidCatalog

open Po

/-! ### The steps of an extraction -/

lemma onTree_adapt {α : Type} (f : Failure → Failure) (x : ExceptT Failure (StateM FileTree) α)
    (t : FileTree) : onTree (x.adapt f) t = ((onTree x t).1.mapError f, (onTree x t).2) := rfl

lemma onTree_save (path : String) (content : List UInt8) (t : FileTree) :
    onTree (liftM (FileSystem.save path content : StateM FileTree _)) t =
      match t.save path content with
      | .error e => (.ok (.error (.create e)), t)
      | .ok t => (.ok (.ok ()), t) := by
  have hrun : onTree (liftM (FileSystem.save path content : StateM FileTree _)) t =
      (.ok ((FileSystem.save path content : StateM FileTree _).run t).1,
        ((FileSystem.save path content : StateM FileTree _).run t).2) := rfl
  rw [hrun]
  simp only [FileSystem.save, StateT.run_bind, StateT.run_get, pure_bind]
  cases t.save path content with
  | error e => rfl
  | ok t => rfl

/-- Saving a catalog makes the directories, and then the file with all of its bytes. -/
lemma onTree_saveCatalog (path : String) (header : Option Header) (c : Catalog) (t : FileTree) :
    onTree (saveCatalog path header c) t =
      match FileTree.makeDirectories (Path.parents path) t with
      | (.error e, t) => (.error (.uncreatable ((Path.parents path).headD "") e), t)
      | (.ok (), t) =>
        match t.save path (rendered (c.poEntries header)) with
        | .error e => (.error (.uncreatable path e), t)
        | .ok t => (.ok (), t) := by
  have hfit : ({} : Output.Sink).Fits (rendered (c.poEntries header)) := by
    rintro n ⟨⟩
  have hwritten := Catalog.writePo_of_fits header c hfit rfl
  have hreceived : (({} : Output.Sink).push (rendered (c.poEntries header))).2.received =
      rendered (c.poEntries header) := rfl
  have hmake : onTree (liftM (FileSystem.makeDirectories (Path.parents path) : StateM FileTree _))
      t = (.ok (FileTree.makeDirectories (Path.parents path) t).1,
        (FileTree.makeDirectories (Path.parents path) t).2) := rfl
  rw [saveCatalog, onTree_bind, hmake]
  rcases FileTree.makeDirectories (Path.parents path) t with ⟨e | ⟨⟩, t⟩
  · rfl
  · simp only [hwritten, hreceived]
    rw [onTree_bind, onTree_save]
    cases t.save path (rendered (c.poEntries header)) with
    | error e => rfl
    | ok t => rfl

lemma onTree_run (j : Job) (creationDate : String) (t : FileTree) :
    onTree (j.run creationDate) t =
      match t.catalog j with
      | .error f => (.error (.extracting f), t)
      | .ok c => onTree (saveCatalog j.output (j.header creationDate) c) t := by
  rw [Job.run, onTree_bind, onTree_adapt, onTree_readCatalog]
  cases t.catalog j with
  | error f => rfl
  | ok c => rfl

namespace FileTree

/-- The second tree is the first one after a file has been saved: the path leads to a file with the
content, where there was nothing or a file, and nothing else is new but directories that the path
lies in. -/
structure SavesOnly (t : FileTree) (path : String) (content : List UInt8) (t' : FileTree) :
    Prop where
  workingDirectory_eq : t'.workingDirectory = t.workingDirectory
  saved : ∃ place, t'.resolve .use path = .ok (.found place (.file content)) ∧ t.IsFree place ∧
    ∀ q ≠ place, t'.root.kindAt q = t.root.kindAt q ∨
      t.root.kindAt q = none ∧ ∃ parent ∈ Path.parents path, t'.LeadsToDirectory parent q

lemma savesOnly_of_save {t t' t'' : FileTree} {path : String} {content : List UInt8}
    (hadds : t.AddsDirectories (Path.parents path) t') (h : t'.save path content = .ok t'') :
    t.SavesOnly path content t'' := by
  obtain ⟨place, hfree, hgains, hleads⟩ := gains_of_save h
  have hgrown : Grown t'.root t''.root := hgains.grown hfree (.inr ⟨content, rfl⟩)
  refine ⟨hgains.workingDirectory_eq.trans hadds.workingDirectory_eq, place, hleads, ?_, ?_⟩
  · rcases hadds.kindAt place with hsame | ⟨hnone, -⟩
    · rwa [IsFree, ← hsame]
    · exact .inl hnone
  · intro q hq
    rw [hgains.kindAt_of_ne hq]
    rcases hadds.kindAt q with hsame | ⟨hnone, parent, hparent, hdirectory⟩
    · exact .inl hsame
    · exact .inr ⟨hnone, parent, hparent, hdirectory.grown hgrown hgains.workingDirectory_eq⟩

lemma savesOnly_of_saveCatalog {t t' : FileTree} {path : String} {header : Option Header}
    {c : Catalog} (h : onTree (saveCatalog path header c) t = (.ok (), t')) :
    t.SavesOnly path (rendered (c.poEntries header)) t' := by
  have hadds := addsDirectories_makeDirectories (Path.parents path) t
  rw [onTree_saveCatalog] at h
  split at h
  · cases h
  · next t₁ hmade =>
    rw [hmade] at hadds
    split at h
    · cases h
    · next t₂ hsaved =>
      cases h
      exact savesOnly_of_save hadds hsaved

end FileTree

/-! ### A run -/

namespace Cli

/-- A run with accepted arguments is a run of the job that they ask for. -/
lemma run_of_job {m : Type → Type} [Monad m] {α : Type} [FileSystem m α] {arguments : List String}
    {environment : String → Option String} {creationDate : String} {g : Given} {j : Job}
    (hgiven : readArguments {} arguments = .ok (.given g)) (hjob : g.job environment = .ok j) :
    (run arguments environment creationDate : m Outcome) = runJob j creationDate := by
  rw [run, hgiven]
  simp only [hjob]

lemma runJob_onTree (j : Job) (creationDate : String) (t : FileTree) :
    (runJob j creationDate : StateM FileTree Outcome).run t =
      match onTree (j.run creationDate) t with
      | (.ok (), t) => (.done, t)
      | (.error f, t) => (.failed f, t) := by
  rw [runJob, StateT.run_bind, onTree]
  rcases (j.run creationDate : ExceptT Failure (StateM FileTree) Unit).run.run t with ⟨_ | _, _⟩
  · rfl
  · rfl

lemma runJob_of_catalog_eq_error {j : Job} (creationDate : String) {t : FileTree} {f : Failure}
    (h : t.catalog j = .error f) :
    (runJob j creationDate : StateM FileTree Outcome).run t = (.failed (.extracting f), t) := by
  rw [runJob_onTree, onTree_run, h]

lemma onTree_of_exitCode_eq_zero {j : Job} {creationDate : String} {t : FileTree}
    (h : ((runJob j creationDate : StateM FileTree Outcome).run t).1.exitCode = 0) :
    onTree (j.run creationDate) t =
      (.ok (), ((runJob j creationDate : StateM FileTree Outcome).run t).2) := by
  rw [runJob_onTree] at h ⊢
  generalize onTree (j.run creationDate) t = after at h ⊢
  obtain ⟨f | ⟨⟩, t'⟩ := after
  · have hone : (1 : UInt32) = 0 := h
    exact absurd hone (by decide)
  · rfl

/-- A run that succeeds has read a catalog, and saves it. -/
lemma exists_catalog_of_exitCode_eq_zero {j : Job} {creationDate : String} {t : FileTree}
    (h : ((runJob j creationDate : StateM FileTree Outcome).run t).1.exitCode = 0) :
    ∃ c, t.catalog j = .ok c ∧ t.SavesOnly j.output (rendered (c.poEntries (j.header creationDate)))
      ((runJob j creationDate : StateM FileTree Outcome).run t).2 := by
  have hrun := onTree_of_exitCode_eq_zero h
  rw [onTree_run] at hrun
  cases hcatalog : t.catalog j with
  | error f =>
    rw [hcatalog] at hrun
    cases hrun
  | ok c =>
    rw [hcatalog] at hrun
    exact ⟨c, rfl, FileTree.savesOnly_of_saveCatalog hrun⟩

/-- **What a run changes.** A run that does not get through its input directory, or does not get the
text of each template there, fails and keeps the tree. A run that succeeds only saves its output,
and the output is the catalog of the texts that the templates had before, one of which it may
replace. -/
theorem run_only_saves_output {arguments : List String} {environment : String → Option String}
    {g : Given} {j : Job} (hgiven : readArguments {} arguments = .ok (.given g))
    (hjob : g.job environment = .ok j) (creationDate : String) (t : FileTree) :
    let after := (run arguments environment creationDate : StateM FileTree Outcome).run t
    ((t.directory? j.input = none ∨ (∃ e, t.search j.input = .error e) ∨
        ∃ es, t.directory? j.input = some es ∧
          ∃ path ∈ templatePaths j.input es, ∀ content, ¬ t.HasText path content) →
      after.1.exitCode = 1 ∧ after.2 = t) ∧
    (after.1.exitCode = 0 → ∃ es ts, t.search j.input = .ok es ∧
      t.directory? j.input = some es ∧ ts.map (·.path) = templatePaths j.input es ∧
      (∀ T ∈ ts, t.HasText T.path T.content) ∧
      t.SavesOnly j.output
        (rendered ((Catalog.ofTemplates j.base.provenance ts).poEntries (j.header creationDate)))
        after.2) := by
  rw [run_of_job hgiven hjob]
  intro after
  constructor
  · intro hunread
    obtain ⟨f, hf⟩ : ∃ f, t.catalog j = .error f := by
      refine FileTree.catalog_eq_error ?_
      rcases hunread with hnone | hunread
      · exact .inl ⟨_, FileTree.search_of_none hnone⟩
      · exact hunread
    have hafter : after = (.failed (.extracting f), t) := runJob_of_catalog_eq_error creationDate hf
    rw [hafter]
    exact ⟨rfl, rfl⟩
  · intro hexit
    obtain ⟨c, hc, hsaves⟩ := exists_catalog_of_exitCode_eq_zero hexit
    obtain ⟨ts, hts, rfl⟩ := FileTree.catalog_eq_ok_iff.1 hc
    obtain ⟨es, hes, hpaths, htexts⟩ := FileTree.templates_eq_ok_iff.1 hts
    exact ⟨es, ts, hes, (FileTree.search_eq_ok_iff.1 hes).1, hpaths, htexts, hsaves⟩

/-- One directory has a template that is not text. The output of the other is its only template. -/
theorem run_only_saves_output_over_template :
    let t : FileTree := { root := .dir [
      ("site", .dir [("a.liquid", .file (Text.utf8 "\x7b\x7b 'Hi' | t \x7d\x7d".toList))]),
      ("torn", .dir [("b.liquid", .file [0xff]), ("a.liquid", .file [])])] }
    let after (input : String) : Outcome × FileTree :=
      (run [input, "-o", "site/a.liquid", "--no-header"] (fun _ => none) "" : StateM _ _).run t
    ((after "torn").1.exitCode = 1 ∧ (after "torn").2 = t) ∧
    (after "site").1.exitCode = 0 ∧ ∃ es ts, t.search "site" = .ok es ∧
      t.directory? "site" = some es ∧ ts.map (·.path) = templatePaths "site" es ∧
      (∀ T ∈ ts, t.HasText T.path T.content) ∧
      t.SavesOnly "site/a.liquid"
        (rendered ((Catalog.ofTemplates (BasePath.mk "site/").provenance ts).poEntries none))
        (after "site").2 := by
  intro t after
  have hgiven (input : String) (hread : Argument.read input = .ok (.positional input))
      (hne : input ≠ "") :
      readArguments {} [input, "-o", "site/a.liquid", "--no-header"] = .ok (.given
        { values := [(.output, "site/a.liquid"), (.input, input)], noHeader := true }) := by
    have houtput : Argument.read "-o" = .ok (.option .output none) := by rfl
    have hheader : Argument.read "--no-header" = .ok .noHeader := by rfl
    have hvalue : looksLikeOption "site/a.liquid" = false := by rfl
    simp [readArguments, hread, houtput, hheader, hvalue, Given.putPositional, Given.put,
      Given.putNoHeader, hne, bind, Except.bind]
  have hjob (input : String) : Given.job
      { values := [(.output, "site/a.liquid"), (.input, input)], noHeader := true }
      (fun _ => none) = .ok { input, output := "site/a.liquid", hasHeader := false } := rfl
  obtain ⟨htorn, -⟩ := run_only_saves_output (hgiven "torn" rfl (by decide)) (hjob "torn") "" t
  obtain ⟨-, hsite⟩ := run_only_saves_output (hgiven "site" rfl (by decide)) (hjob "site") "" t
  have hexit : (after "site").1.exitCode = 0 := by decide +kernel
  refine ⟨htorn (.inr (.inr ⟨[("b.liquid", .file [0xff]), ("a.liquid", .file [])], rfl,
    "torn/b.liquid", ?_, ?_⟩)), hexit, hsite hexit⟩
  · have hpath : Path.below "torn" ["b.liquid"] = "torn/b.liquid" := by decide
    have hname : isTemplateName "b.liquid" = true := by decide
    rw [← hpath, templatePaths, Node.templates, Node.places, Node.inOrder]
    refine List.mem_map_of_mem (List.mem_flatMap.2 ⟨("b.liquid", [["b.liquid"]]), ?_, by simp⟩)
    simp [Node.branches, Node.placesAt, Node.ownPlace, Node.isTemplate, hname]
  · rintro content ⟨bytes, hbytes, htext⟩
    have hread : t.read "torn/b.liquid" = .ok [0xff] := by decide +kernel
    obtain rfl := Except.ok.inj (hread.symm.trans hbytes)
    have hnone : Text.ofUtf8? [0xff] = none := by decide
    rw [hnone] at htext
    cases htext

end Cli

end LiquidCatalog

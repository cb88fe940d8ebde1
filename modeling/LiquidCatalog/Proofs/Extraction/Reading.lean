import Mathlib.Data.List.Forall2
import LiquidCatalog.Extraction
import LiquidCatalog.Proofs.FileTree.Seen

/-!
Reading a catalog from a file tree.

Reading changes nothing, so what is read is a function of the tree: the templates of a directory in
order, or the failure at the first one that cannot be read as text.
-/

namespace LiquidCatalog

/-- What a step of an extraction comes to on a file tree, and the tree after it. -/
def onTree {α : Type} (x : ExceptT Failure (StateM FileTree) α) (t : FileTree) :
    Except Failure α × FileTree := x.run.run t

lemma onTree_bind {α β : Type} (x : ExceptT Failure (StateM FileTree) α)
    (f : α → ExceptT Failure (StateM FileTree) β) (t : FileTree) :
    onTree (x >>= f) t =
      match onTree x t with
      | (.error e, t) => (.error e, t)
      | (.ok a, t) => onTree (f a) t := by
  simp only [onTree, ExceptT.run_bind, StateT.run_bind]
  rcases x.run.run t with ⟨_ | _, _⟩
  · rfl
  · rfl

/-- Steps that keep the tree also keep it when they are taken one after the other. -/
lemma onTree_foldlM {α β : Type} {f : β → α → ExceptT Failure (StateM FileTree) β}
    {g : β → α → Except Failure β} {t : FileTree} (h : ∀ b a, onTree (f b a) t = (g b a, t))
    (l : List α) (b : β) : onTree (l.foldlM f b) t = (l.foldlM g b, t) := by
  induction l generalizing b with
  | nil => rfl
  | cons a l ih =>
    rw [List.foldlM_cons, List.foldlM_cons, onTree_bind, h]
    cases g b a with
    | error e => rfl
    | ok b' => exact ih b'

namespace FileTree

def template (t : FileTree) (path : String) : Except Failure Template :=
  match t.read path with
  | .error e => .error (.unreadable path e)
  | .ok bytes =>
    match Text.ofUtf8? bytes with
    | none => .error (.unreadable path .notText)
    | some content => .ok ⟨path, content⟩

def found (t : FileTree) (directory : String) : Except Failure (List String) :=
  ((t.search directory).map (templatePaths directory)).mapError (.ofSearch directory)

def templates (t : FileTree) (directory : String) : Except Failure (List Template) := do
  (← t.found directory).mapM t.template

def catalog (t : FileTree) (j : Job) : Except Failure Catalog :=
  (t.templates j.input).map (.ofTemplates j.base.provenance)

def HasText (t : FileTree) (path content : String) : Prop :=
  ∃ bytes, t.read path = .ok bytes ∧ Text.ofUtf8? bytes = some content

lemma template_eq_ok_iff {t : FileTree} {path : String} {T : Template} :
    t.template path = .ok T ↔ T.path = path ∧ t.HasText path T.content := by
  rw [template, HasText]
  cases t.read path with
  | error e => simp
  | ok bytes =>
    obtain ⟨path', content'⟩ := T
    cases hbytes : Text.ofUtf8? bytes with
    | none => simp [hbytes]
    | some content => simp [hbytes, eq_comm]

end FileTree

lemma onTree_readTemplate (path : String) (t : FileTree) :
    onTree (readTemplate path) t = (t.template path, t) := by
  have hread : onTree (liftM (FileSystem.read path : StateM FileTree _)) t =
      (.ok (t.read path), t) := rfl
  rw [readTemplate, onTree_bind, hread, FileTree.template]
  cases t.read path with
  | error e => rfl
  | ok bytes => cases hbytes : Text.ofUtf8? bytes <;> simp only [hbytes] <;> rfl

lemma onTree_extractFile (p : Provenance) (path : String) (c : Catalog) (t : FileTree) :
    onTree (extractFile p path c) t =
      ((t.template path).map fun T => ((T.messages p).length, c.insertMany (T.messages p)), t) := by
  rw [extractFile, onTree_bind, onTree_readTemplate]
  cases t.template path with
  | error e => rfl
  | ok T => rfl

lemma onTree_findTemplates (directory : String) (t : FileTree) :
    onTree (findTemplates directory) t = (t.found directory, t) := by
  have hsearch : onTree (liftM (FileSystem.search directory : StateM FileTree _)) t =
      (.ok (t.search directory), t) := rfl
  rw [findTemplates, onTree_bind, hsearch, FileTree.found]
  cases t.search directory with
  | error e => rfl
  | ok es => rfl

/-- Adding the messages of templates one by one, as they are read, adds those of all of them. -/
lemma foldlM_insertMany (t : FileTree) (p : Provenance) (paths : List String) (c : Catalog) :
    paths.foldlM (fun c path => (t.template path).map fun T => c.insertMany (T.messages p)) c =
      (paths.mapM t.template).map fun ts => c.insertMany (ts.flatMap (·.messages p)) := by
  induction paths generalizing c with
  | nil => rfl
  | cons path paths ih =>
    rw [List.foldlM_cons, List.mapM_cons]
    cases t.template path with
    | error e => rfl
    | ok T =>
      have hrest := ih (c.insertMany (T.messages p))
      refine hrest.trans ?_
      cases paths.mapM t.template with
      | error e => rfl
      | ok ts => exact congrArg Except.ok (c.insertMany_append _ _).symm

/-- **Reading a catalog** keeps the tree. -/
lemma onTree_readCatalog (j : Job) (t : FileTree) :
    onTree (readCatalog j) t = (t.catalog j, t) := by
  have hstep (c : Catalog) (path : String) :
      onTree (do return (← extractFile j.base.provenance path c).2) t =
        ((t.template path).map fun T => c.insertMany (T.messages j.base.provenance), t) := by
    rw [onTree_bind, onTree_extractFile]
    cases t.template path with
    | error e => rfl
    | ok T => rfl
  rw [readCatalog, onTree_bind, onTree_findTemplates, FileTree.catalog, FileTree.templates]
  cases t.found j.input with
  | error e => rfl
  | ok paths =>
    have hfold := onTree_foldlM hstep paths ∅
    rwa [foldlM_insertMany] at hfold

/-! ### When all templates can be read -/

lemma mapM_eq_ok_iff {ε α β : Type} {f : α → Except ε β} {l : List α} {bs : List β} :
    l.mapM f = .ok bs ↔ List.Forall₂ (fun a b => f a = .ok b) l bs := by
  induction l generalizing bs with
  | nil =>
    rw [List.mapM_nil, List.forall₂_nil_left_iff]
    exact ⟨fun h => (Except.ok.inj h).symm, fun h => h ▸ rfl⟩
  | cons a l ih =>
    rw [List.mapM_cons, List.forall₂_cons_left_iff]
    cases ha : f a with
    | error e => simp [bind, Except.bind]
    | ok b =>
      cases hl : l.mapM f with
      | error e =>
        have hnone (bs : List β) : ¬ List.Forall₂ (fun a b => f a = .ok b) l bs := by
          rw [← ih, hl]
          intro h
          cases h
        simp [bind, Except.bind, hnone]
      | ok cs =>
        have hcs (bs : List β) : List.Forall₂ (fun a b => f a = .ok b) l bs ↔ bs = cs := by
          rw [← ih, hl, Except.ok.injEq, eq_comm]
        simp [bind, Except.bind, pure, Except.pure, hcs, eq_comm]

namespace FileTree

lemma mapM_template_eq_ok_iff {t : FileTree} {paths : List String} {ts : List Template} :
    paths.mapM t.template = .ok ts ↔
      ts.map (·.path) = paths ∧ ∀ T ∈ ts, t.HasText T.path T.content := by
  simp only [mapM_eq_ok_iff, template_eq_ok_iff]
  induction paths generalizing ts with
  | nil => cases ts <;> simp
  | cons path paths ih =>
    cases ts with
    | nil => simp
    | cons T ts =>
      rw [List.forall₂_cons, ih, List.map_cons, List.cons.injEq, List.forall_mem_cons]
      constructor
      · rintro ⟨⟨rfl, hT⟩, hpaths, hts⟩
        exact ⟨⟨rfl, hpaths⟩, hT, hts⟩
      · rintro ⟨⟨rfl, hpaths⟩, hT, hts⟩
        exact ⟨⟨rfl, hT⟩, hpaths, hts⟩

/-- Templates are read if they are found and each of their files has a text. -/
lemma templates_eq_ok_iff {t : FileTree} {directory : String} {ts : List Template} :
    t.templates directory = .ok ts ↔ ∃ es, t.search directory = .ok es ∧
      ts.map (·.path) = templatePaths directory es ∧ ∀ T ∈ ts, t.HasText T.path T.content := by
  rw [templates, found]
  cases t.search directory with
  | error e => simp [Except.map, Except.mapError, bind, Except.bind]
  | ok es =>
    simp only [Except.ok.injEq, exists_eq_left', ← mapM_template_eq_ok_iff]
    rfl

lemma catalog_eq_ok_iff {t : FileTree} {j : Job} {c : Catalog} :
    t.catalog j = .ok c ↔
      ∃ ts, t.templates j.input = .ok ts ∧ .ofTemplates j.base.provenance ts = c := by
  rw [catalog]
  cases t.templates j.input with
  | error f => simp [Except.map]
  | ok ts => simp [Except.map]

/-- A search that fails, or a template without a text, leaves no catalog. -/
lemma catalog_eq_error {t : FileTree} {j : Job}
    (h : (∃ e, t.search j.input = .error e) ∨ ∃ es, t.directory? j.input = some es ∧
      ∃ path ∈ templatePaths j.input es, ∀ content, ¬ t.HasText path content) :
    ∃ f, t.catalog j = .error f := by
  cases hcatalog : t.catalog j with
  | error f => exact ⟨f, rfl⟩
  | ok c =>
    exfalso
    obtain ⟨ts, hts, -⟩ := catalog_eq_ok_iff.1 hcatalog
    obtain ⟨es, hes, hpaths, htexts⟩ := templates_eq_ok_iff.1 hts
    rcases h with ⟨e, he⟩ | ⟨es', hes', path, hpath, hno⟩
    · rw [he] at hes
      cases hes
    · obtain rfl : es' = es := Option.some.inj (hes'.symm.trans (search_eq_ok_iff.1 hes).1)
      obtain ⟨T, hT, rfl⟩ := List.mem_map.1 (hpaths ▸ hpath)
      exact hno _ (htexts T hT)

end FileTree

end LiquidCatalog

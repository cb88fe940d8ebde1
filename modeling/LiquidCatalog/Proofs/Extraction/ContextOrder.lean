import LiquidCatalog.Extraction
import LiquidCatalog.Proofs.FileTree.Templates
import LiquidCatalog.Proofs.Path
import LiquidCatalog.Proofs.Provenance

/-!
Does it matter that the extension is taken off before the slashes are replaced?

Replacing a slash by a dot makes an extension of a last name `liquid`. So for a path that ends in
`/liquid`, and only then, taking the extension off afterwards gives another context. No template has
such a path: the name of a template has something before the extension.
-/

namespace LiquidCatalog

/-! ### Extensions and slashes -/

namespace Path

lemma withoutExtension_of_not_suffix {s : List Char} (h : ¬ ".liquid".toList <:+ s) :
    withoutExtension s = s := by
  rw [withoutExtension]
  cases hstem : ".liquid".toList.isSuffixOf? s with
  | none => rfl
  | some stem => exact absurd ⟨stem, List.isSuffixOf?_eq_some_iff_append_eq.1 hstem⟩ h

lemma dotted_append (s t : List Char) : dotted (s ++ t) = dotted s ++ dotted t := List.map_append

lemma dotted_append_extension (stem : List Char) :
    dotted (stem ++ ".liquid".toList) = dotted stem ++ ".liquid".toList :=
  dotted_append stem ".liquid".toList

/-- A last name `liquid` becomes an extension. -/
lemma dotted_append_slash (stem : List Char) :
    dotted (stem ++ "/liquid".toList) = dotted stem ++ ".liquid".toList :=
  dotted_append stem "/liquid".toList

lemma dot_mem_dotted {s : List Char} (h : '.' ∈ s) : '.' ∈ dotted s := List.mem_map_of_mem h

/-- What looks like the extension once its slashes are replaced. -/
lemma extension_suffix_dotted_iff {s : List Char} :
    ".liquid".toList <:+ dotted s ↔ ".liquid".toList <:+ s ∨ "/liquid".toList <:+ s := by
  constructor
  · intro h
    obtain ⟨t, ht, heq⟩ := List.suffix_map_iff.1 h
    obtain ⟨c, name, rfl, hc, hname⟩ := List.map_eq_cons_iff.1 heq.symm
    have hdot : '.' ∉ name := fun hmem => by
      have hmem := dot_mem_dotted hmem
      rw [dotted, hname] at hmem
      exact absurd hmem (by decide)
    obtain rfl : name = "liquid".toList := dotted_injective hdot (by decide) hname
    by_cases hslash : c = '/'
    · rw [hslash] at ht
      exact .inr ht
    · rw [if_neg hslash] at hc
      rw [hc] at ht
      exact .inl ht
  · rintro (⟨stem, rfl⟩ | ⟨stem, rfl⟩)
    · exact ⟨dotted stem, (dotted_append_extension stem).symm⟩
    · exact ⟨dotted stem, (dotted_append_slash stem).symm⟩

lemma not_slash_suffix_of_extension {s : List Char} (h : ".liquid".toList <:+ s) :
    ¬ "/liquid".toList <:+ s := by
  intro hslash
  have hle := List.suffix_of_suffix_length_le h hslash (Nat.le_refl 7)
  exact absurd (hle.eq_of_length rfl) (by decide)

/-- **The two orders** of taking the extension off and replacing the slashes. -/
lemma dotted_withoutExtension_eq_iff (s : List Char) :
    dotted (withoutExtension s) = withoutExtension (dotted s) ↔ ¬ "/liquid".toList <:+ s := by
  by_cases hextension : ".liquid".toList <:+ s
  · refine iff_of_true ?_ (not_slash_suffix_of_extension hextension)
    obtain ⟨stem, rfl⟩ := hextension
    rw [dotted_append_extension, withoutExtension_append, withoutExtension_append]
  · rw [withoutExtension_of_not_suffix hextension]
    by_cases hslash : "/liquid".toList <:+ s
    · refine iff_of_false ?_ (not_not_intro hslash)
      obtain ⟨stem, rfl⟩ := hslash
      rw [dotted_append_slash, withoutExtension_append]
      exact fun h => absurd (List.append_right_eq_self.1 h) (by decide)
    · refine iff_of_true ?_ hslash
      rw [withoutExtension_of_not_suffix]
      rw [extension_suffix_dotted_iff]
      exact not_or.2 ⟨hextension, hslash⟩

/-! ### Paths of templates -/

/-- A base that ends in a slash leaves the end of a path, as far as there is no slash in it. -/
lemma suffix_relative {base path u : List Char} (hbase : base.getLast? = some '/') (hu : '/' ∉ u)
    (h : u <:+ path) : u <:+ relative base path := by
  rw [relative]
  cases hrest : base.isPrefixOf? path with
  | none => exact h
  | some rest =>
    obtain ⟨trunk, rfl⟩ := List.getLast?_eq_some_iff.1 hbase
    have hpath := List.isPrefixOf?_eq_some_iff_append_eq.1 hrest
    rw [List.append_assoc, List.singleton_append] at hpath
    rcases List.suffix_or_suffix_of_suffix h ⟨trunk, hpath⟩ with hsuffix | hsuffix
    · rcases List.suffix_cons_iff.1 hsuffix with rfl | hsuffix
      · exact absurd List.mem_cons_self hu
      · exact hsuffix
    · exact absurd (hsuffix.mem List.mem_cons_self) hu

lemma getLast?_asDirectory (directory : String) :
    (asDirectory directory).toList.getLast? = some '/' := by
  obtain ⟨trunk, htrunk, -⟩ := exists_asDirectory_eq directory
  rw [htrunk, String.toList_append]
  exact List.getLast?_concat

lemma suffix_join (directory name : String) : name.toList <:+ (join directory name).toList := by
  rw [join]
  split
  · rw [String.toList_append]
    exact List.suffix_append _ _
  · rw [String.toList_append]
    exact List.suffix_append _ _

end Path

variable {α : Type}

lemma extension_suffix_of_mem_templatePaths {directory path : String}
    {es : List (String × Node α)} (h : path ∈ templatePaths directory es) :
    ".liquid".toList <:+ path.toList := by
  obtain ⟨place, hplace, rfl⟩ := List.mem_map.1 h
  obtain ⟨names, name, n, rfl, htemplate⟩ := Node.exists_last_of_mem_places hplace
  obtain ⟨stem, -, rfl⟩ := Node.isTemplateName_iff.1 (Node.isTemplate_iff.1 htemplate).2
  have hname : ".liquid".toList <:+ (stem ++ ".liquid").toList := by
    rw [String.toList_append]
    exact List.suffix_append _ _
  rw [Path.below, List.foldl_append]
  exact hname.trans (Path.suffix_join _ _)

/-! ### Contexts -/

lemma BasePath.toList_relative (b : BasePath) (path : String) :
    (b.relative path).toList = Path.relative b.text.toList path.toList := String.toList_ofList

/-- The context, with the slashes replaced before the extension is taken off. -/
def BasePath.contextDottedFirst (b : BasePath) (path : String) : String :=
  String.ofList (Path.withoutExtension (Path.dotted (Path.relative b.text.toList path.toList)))

/-- **When the order matters.** Taking the extension off before the slashes are replaced and after
that gives the same context exactly if the path relative to the base does not end in `/liquid`. The
paths of templates below an input directory that is the base do not. -/
theorem context_eq_contextDottedFirst_iff :
    (∀ (b : BasePath) (path : String),
      b.context path = b.contextDottedFirst path ↔
        ¬ "/liquid".toList <:+ (b.relative path).toList) ∧
    ∀ j : Job, j.basePath = none → ∀ es : List (String × Node α),
      ∀ path ∈ templatePaths j.input es,
        j.base.context path = j.base.contextDottedFirst path := by
  have horders (b : BasePath) (path : String) : b.context path = b.contextDottedFirst path ↔
      ¬ "/liquid".toList <:+ (b.relative path).toList := by
    rw [BasePath.context, BasePath.contextDottedFirst, String.ofList_inj,
      Path.dotted_withoutExtension_eq_iff, BasePath.toList_relative]
  refine ⟨horders, fun j hbase es path hpath => ?_⟩
  rw [horders, BasePath.toList_relative, Job.base, hbase]
  refine Path.not_slash_suffix_of_extension (Path.suffix_relative ?_ (by decide) ?_)
  · exact Path.getLast?_asDirectory j.input
  · exact extension_suffix_of_mem_templatePaths hpath

/-- The context of a file called `liquid` hangs on the order, and that of a template does not. -/
theorem context_eq_contextDottedFirst_iff_liquid :
    let b : BasePath := ⟨"/app/"⟩
    let j : Job := { input := "/app" }
    let es : List (String × Node Unit) := [("a", .dir [("b.liquid", .file ())])]
    b.context "/app/a/liquid" ≠ b.contextDottedFirst "/app/a/liquid" ∧
      j.basePath = none ∧ templatePaths j.input es = ["/app/a/b.liquid"] ∧
      ∀ path ∈ templatePaths j.input es,
        j.base.context path = j.base.contextDottedFirst path := by
  intro b j es
  obtain ⟨hiff, htemplates⟩ := @context_eq_contextDottedFirst_iff Unit
  exact ⟨fun h => (hiff b _).1 h (by decide), rfl, by decide +kernel, htemplates j rfl es⟩

end LiquidCatalog

import Mathlib.Data.List.Basic
import LiquidCatalog.Provenance

/-!
Contexts and locations of templates whose paths begin with the base.

The base is taken off exactly, and the context is what is left without the extension, with a dot
for each slash. Contexts of names without dots tell the names apart.
-/

namespace LiquidCatalog

namespace Path

lemma relative_append (base r : List Char) : relative base (base ++ r) = r := by
  rw [relative, List.isPrefixOf?_eq_some_iff_append_eq.2 rfl, Option.getD_some]

lemma withoutExtension_append (stem : List Char) :
    withoutExtension (stem ++ ".liquid".toList) = stem := by
  rw [withoutExtension, List.isSuffixOf?_eq_some_iff_append_eq.2 rfl, Option.getD_some]

@[simp] lemma dotted_eq_nil_iff {s : List Char} : dotted s = [] ↔ s = [] := List.map_eq_nil_iff

lemma slash_not_mem_dotted (s : List Char) : '/' ∉ dotted s := by
  intro h
  obtain ⟨c, -, hc⟩ := List.mem_map.1 h
  split at hc
  · exact absurd hc (by decide)
  · next hne => exact hne hc

/-- Dots that stand for slashes are told from other characters when there are no other dots. -/
lemma dotted_injective {s t : List Char} (hs : '.' ∉ s) (ht : '.' ∉ t)
    (h : dotted s = dotted t) : s = t := by
  induction s generalizing t with
  | nil => exact (dotted_eq_nil_iff.1 h.symm).symm
  | cons c s ih =>
    cases t with
    | nil => exact absurd (dotted_eq_nil_iff.1 h) (List.cons_ne_nil c s)
    | cons d t =>
      simp only [dotted, List.map_cons, List.cons.injEq] at h
      rw [List.mem_cons, not_or] at hs ht
      have hcd : c = d := by
        have hhead := h.1
        split at hhead <;> split at hhead <;> simp_all
      rw [hcd, ih hs.2 ht.2 h.2]

end Path

namespace BasePath

lemma location_append (b : BasePath) (r : String) : b.location (b.text ++ r) = { file := r } := by
  simp [location, relative, Path.relative_append]

lemma context_append (b : BasePath) (stem : String) :
    b.context (b.text ++ (stem ++ ".liquid")) = String.ofList (Path.dotted stem.toList) := by
  rw [context, String.toList_append, Path.relative_append, String.toList_append,
    Path.withoutExtension_append]

example : context ⟨"/app/"⟩ "/app/Views/Home/Index.liquid" = "Views.Home.Index" := by decide

end BasePath

end LiquidCatalog

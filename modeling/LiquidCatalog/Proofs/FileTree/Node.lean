import Mathlib.Data.List.Basic
import Mathlib.Data.List.Nodup
import Mathlib.Data.List.Perm.Basic
import LiquidCatalog.FileTree.Node

/-!
What is found at which place.

A tree is seen through the kinds of the nodes at its places. A node put at a place changes what is
found there and nothing else, and the order in which directories list their entries is not seen.
-/

namespace LiquidCatalog.Node

/-- A node without what lies below it. -/
inductive Kind (α : Type) where
  | file (content : α)
  | link (target : String)
  | dir
  deriving DecidableEq

variable {α : Type}

def kind : Node α → Kind α
  | file content => .file content
  | link target => .link target
  | dir _ => .dir

lemma Kind.dir_ne_link (target : String) : (dir : Kind α) ≠ link target := by
  intro h
  cases h

lemma Kind.file_ne_link (content : α) (target : String) : file content ≠ link target := by
  intro h
  cases h

lemma Kind.dir_ne_file (content : α) : (dir : Kind α) ≠ file content := by
  intro h
  cases h

/-- What is found at a place below a node. -/
def kindAt (n : Node α) (place : List String) : Option (Kind α) := (n.get? place).map kind

@[simp] lemma get?_nil (n : Node α) : n.get? [] = some n := by cases n <;> rfl

lemma get?_cons (n : Node α) (name : String) (place : List String) :
    n.get? (name :: place) = (n.child? name).bind (·.get? place) := by cases n <;> rfl

lemma get?_append (n : Node α) (place more : List String) :
    n.get? (place ++ more) = (n.get? place).bind (·.get? more) := by
  induction place generalizing n with
  | nil => simp
  | cons name place ih =>
    rw [List.cons_append, get?_cons, get?_cons, Option.bind_assoc]
    exact Option.bind_congr fun m _ => ih m

@[simp] lemma kindAt_nil (n : Node α) : n.kindAt [] = some n.kind := by simp [kindAt]

lemma kindAt_dir_cons (es : List (String × Node α)) (name : String) (place : List String) :
    (dir es).kindAt (name :: place) = (es.lookup name).bind (·.kindAt place) := by
  simp only [kindAt, get?_cons, child?, Option.map_bind]
  rfl

lemma kindAt_eq_dir_iff {n : Node α} {place : List String} :
    n.kindAt place = some .dir ↔ ∃ es, n.get? place = some (dir es) := by
  rw [kindAt, Option.map_eq_some_iff]
  constructor
  · rintro ⟨m, hm, hkind⟩
    cases m with
    | dir es => exact ⟨es, hm⟩
    | file content => cases hkind
    | link target => cases hkind
  · rintro ⟨es, hes⟩
    exact ⟨dir es, hes, rfl⟩

lemma kindAt_eq_file_iff {n : Node α} {place : List String} {content : α} :
    n.kindAt place = some (.file content) ↔ n.get? place = some (file content) := by
  rw [kindAt, Option.map_eq_some_iff]
  constructor
  · rintro ⟨m, hm, hkind⟩
    cases m with
    | file content' => rwa [Kind.file.inj hkind] at hm
    | dir es => cases hkind
    | link target => cases hkind
  · exact fun h => ⟨_, h, rfl⟩

lemma kindAt_concat {n : Node α} {place : List String} {es : List (String × Node α)}
    (h : n.get? place = some (dir es)) (name : String) :
    n.kindAt (place ++ [name]) = (es.lookup name).map kind := by
  rw [kindAt, get?_append, h, Option.bind_some, get?_cons, child?]
  simp

/-- Only directories have something below them. -/
lemma kindAt_eq_dir_of_append {n : Node α} {place : List String} (name : String)
    (more : List String) (h : n.kindAt (place ++ name :: more) ≠ none) :
    n.kindAt place = some .dir := by
  rw [kindAt, get?_append] at h
  rcases hm : n.get? place with _ | m
  · simp [hm] at h
  · cases m with
    | dir es => exact kindAt_eq_dir_iff.2 ⟨es, hm⟩
    | file content => simp [hm, get?_cons, child?] at h
    | link target => simp [hm, get?_cons, child?] at h

/-- The directory that a place lies in. -/
lemma kindAt_dropLast {n : Node α} {place : List String} (hne : place ≠ [])
    (h : n.kindAt place ≠ none) : n.kindAt place.dropLast = some .dir := by
  have hplace := List.dropLast_append_getLast hne
  exact kindAt_eq_dir_of_append (place.getLast hne) [] (by rwa [hplace])

lemma kindAt_nil_of_dir {n : Node α} {place : List String} (h : n.kindAt place = some .dir) :
    n.kindAt [] = some .dir := by
  cases place with
  | nil => exact h
  | cons name place =>
    refine kindAt_eq_dir_of_append name place ?_
    rw [List.nil_append, h]
    exact Option.some_ne_none _

/-- The directory that a directory lies in; the root lies in itself. -/
lemma kindAt_dropLast_of_dir {n : Node α} {place : List String}
    (h : n.kindAt place = some .dir) : n.kindAt place.dropLast = some .dir := by
  by_cases hne : place = []
  · rwa [hne] at h ⊢
  · exact kindAt_dropLast hne (by rw [h]; exact Option.some_ne_none _)

/-! ### Putting a node at a place -/

@[simp] lemma set_nil (n new : Node α) : n.set [] new = new := by cases n <;> rfl

lemma set_dir_cons {es : List (String × Node α)} {name : String} {n : Node α}
    (h : es.lookup name = some n) (place : List String) (new : Node α) :
    (dir es).set (name :: place) new = dir (putEntry name (n.set place new) es) := by
  simp only [set, h]

lemma set_dir_singleton (es : List (String × Node α)) (name : String) (new : Node α) :
    (dir es).set [name] new = dir (putEntry name new es) := by
  cases h : es.lookup name with
  | none => simp only [set, h]
  | some n => rw [set_dir_cons h, set_nil]

lemma kindAt_cons_of_no_child {n : Node α} (h : ∀ name, n.child? name = none) (name : String)
    (place : List String) : n.kindAt (name :: place) = none := by
  rw [kindAt, get?_cons, h]
  rfl

lemma child?_eq_none_of_kind {n : Node α} (h : n.kind ≠ .dir) (name : String) :
    n.child? name = none := by
  cases n with
  | dir es => exact absurd rfl h
  | file content => rfl
  | link target => rfl

/-- **Putting a node** that has no entries at a place where there is no directory changes what is
found at this place, and nothing else. -/
lemma kindAt_set {n new : Node α} {place : List String} {name : String}
    (hdir : n.kindAt place = some .dir) (hleaf : n.kindAt (place ++ [name]) ≠ some .dir)
    (hnew : ∀ name, new.child? name = none) (q : List String) :
    (n.set (place ++ [name]) new).kindAt q =
      if q = place ++ [name] then some new.kind else n.kindAt q := by
  induction place generalizing n q with
  | nil =>
    obtain ⟨es, hes⟩ := kindAt_eq_dir_iff.1 hdir
    obtain rfl : n = dir es := by simpa using hes
    rw [List.nil_append] at hleaf ⊢
    rw [set_dir_singleton]
    cases q with
    | nil => simp [kind]
    | cons a q =>
      rw [kindAt_dir_cons, kindAt_dir_cons, lookup_putEntry]
      by_cases ha : a = name
      · subst ha
        cases q with
        | nil => simp
        | cons b q =>
          rw [if_pos rfl, Option.bind_some, kindAt_cons_of_no_child hnew, if_neg (by simp)]
          cases hm : es.lookup a with
          | none => rfl
          | some m =>
            have hkind : m.kind ≠ .dir := by simpa [kindAt_dir_cons, hm] using hleaf
            exact (kindAt_cons_of_no_child (child?_eq_none_of_kind hkind) b q).symm
      · rw [if_neg ha, if_neg (by simp [ha])]
  | cons a place ih =>
    obtain ⟨es, hes⟩ := kindAt_eq_dir_iff.1 (kindAt_nil_of_dir hdir)
    obtain rfl : n = dir es := by simpa using hes
    rw [kindAt_dir_cons] at hdir
    obtain ⟨m, hm, hm_dir⟩ := Option.bind_eq_some_iff.1 hdir
    rw [List.cons_append, kindAt_dir_cons, hm, Option.bind_some] at hleaf
    rw [List.cons_append, set_dir_cons hm]
    cases q with
    | nil => simp [kind]
    | cons b q =>
      rw [kindAt_dir_cons, kindAt_dir_cons, lookup_putEntry]
      by_cases hb : b = a
      · subst hb
        rw [if_pos rfl, Option.bind_some, ih hm_dir hleaf, hm, Option.bind_some]
        simp
      · rw [if_neg hb, if_neg (by simp [hb])]

end LiquidCatalog.Node

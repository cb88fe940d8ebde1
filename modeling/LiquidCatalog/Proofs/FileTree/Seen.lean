import LiquidCatalog.Proofs.FileTree.Changes
import LiquidCatalog.Proofs.FileTree.Listing

/-!
What operations see of a file tree.

Following a path depends on the kinds of the nodes at the places it passes. Two trees that show the
same kinds at the same places are followed alike, with the same failures, and read alike.
-/

namespace LiquidCatalog.FileTree

open Node

/-- The place that a path leads to, and what is found there. -/
def Destination.seen : Destination → List String × Option (Kind (List UInt8))
  | found place n => (place, some n.kind)
  | vacant directory name => (directory ++ [name], none)

variable {root root' : Node (List UInt8)} {purpose : Purpose}

lemma walk_of_kindAt_ne_dir {place : List String} (h : root.kindAt place ≠ some .dir) (s : String)
    (rest : List String) (onLink : Trail) :
    walk root purpose onLink place (s :: rest) = .error .notDirectory := by
  rw [walk]
  split
  · next es hes => exact absurd (kindAt_eq_dir_iff.2 ⟨es, hes⟩) h
  · rfl

/-- Walks see the same if what is done at links does. -/
lemma walk_congr (h : ∀ q, root'.kindAt q = root.kindAt q) {onLink onLink' : Trail}
    (honLink : ∀ place segments, (onLink' place segments).map Destination.seen =
      (onLink place segments).map Destination.seen) (place segments : List String) :
    (walk root' purpose onLink' place segments).map Destination.seen =
      (walk root purpose onLink place segments).map Destination.seen := by
  induction segments generalizing place with
  | nil =>
    have hplace := h place
    rw [kindAt, kindAt] at hplace
    rw [walk, walk]
    cases hn : root.get? place with
    | none =>
      have hn' : root'.get? place = none := by simpa [hn] using hplace
      rw [hn']
    | some n =>
      obtain ⟨n', hn', hkind⟩ : ∃ n', root'.get? place = some n' ∧ n'.kind = n.kind := by
        simpa [hn] using hplace
      rw [hn']
      simp only [Except.map, Destination.seen, hkind]
  | cons s rest ih =>
    by_cases hdir : root.kindAt place = some .dir
    · obtain ⟨es, hes⟩ := kindAt_eq_dir_iff.1 hdir
      obtain ⟨es', hes'⟩ := kindAt_eq_dir_iff.1 ((h place).trans hdir)
      have hlookup : (es'.lookup s).map kind = (es.lookup s).map kind := by
        rw [← kindAt_concat hes', ← kindAt_concat hes, h]
      rw [walk, walk, hes, hes']
      by_cases hstay : s = "" ∨ s = "."
      · simpa only [if_pos hstay] using ih place
      by_cases hup : s = ".."
      · simpa only [if_neg hstay, if_pos hup] using ih place.dropLast
      by_cases hslash : purpose = .make ∧ rest ≠ [] ∧ rest.all (· = "")
      · simp only [if_neg hstay, if_neg hup, if_pos hslash]
      by_cases hsize : 255 < s.utf8ByteSize
      · simp only [if_neg hstay, if_neg hup, if_neg hslash, if_pos hsize]
      simp only [if_neg hstay, if_neg hup, if_neg hslash, if_neg hsize]
      cases hn : es.lookup s with
      | none =>
        have hn' : es'.lookup s = none := by simpa [hn] using hlookup
        rw [hn']
      | some n =>
        obtain ⟨n', hn', hkind⟩ : ∃ n', es'.lookup s = some n' ∧ n'.kind = n.kind := by
          simpa [hn] using hlookup
        rw [hn']
        cases n <;> cases n' <;> cases hkind
        · exact ih (place ++ [s])
        · exact honLink _ _
        · exact ih (place ++ [s])
    · rw [walk_of_kindAt_ne_dir hdir, walk_of_kindAt_ne_dir (by rwa [h])]

lemma trail_congr (h : ∀ q, root'.kindAt q = root.kindAt q) (links : Nat)
    (place segments : List String) :
    (trail root' purpose links place segments).map Destination.seen =
      (trail root purpose links place segments).map Destination.seen := by
  induction links generalizing place segments with
  | zero => exact walk_congr h (fun _ _ => rfl) place segments
  | succ links ih => exact walk_congr h ih place segments

/-! ### Trees that look alike -/

/-- Two trees show the same kinds of nodes at the same places. -/
structure LooksLike (t' t : FileTree) : Prop where
  workingDirectory_eq : t'.workingDirectory = t.workingDirectory
  kindAt_eq : ∀ q, t'.root.kindAt q = t.root.kindAt q

variable {t t' : FileTree}

lemma LooksLike.resolve (h : LooksLike t' t) (purpose : Purpose) (path : String) :
    (t'.resolve purpose path).map Destination.seen =
      (t.resolve purpose path).map Destination.seen := by
  have hstart : t'.start path = t.start path := by rw [start, start, h.workingDirectory_eq]
  rw [FileTree.resolve, FileTree.resolve, hstart]
  cases checkPath path with
  | error e => rfl
  | ok _ => exact trail_congr h.kindAt_eq maxLinks _ _

lemma map_eq_ok_iff {ε α β : Type} {f : α → β} {x : Except ε α} {b : β} :
    x.map f = .ok b ↔ ∃ a, x = .ok a ∧ f a = b := by
  cases x <;> simp [Except.map]

lemma read_eq (t : FileTree) (path : String) :
    t.read path = match (t.resolve .use path).map Destination.seen with
      | .error e => .error e
      | .ok (_, some (.file content)) => .ok content
      | .ok (_, some .dir) => .error .isDirectory
      | .ok _ => .error .missing := by
  rw [FileTree.read]
  rcases t.resolve .use path with e | ⟨place, n⟩ | ⟨directory, name⟩
  · rfl
  · cases n <;> rfl
  · rfl

/-- **Reading a file** gives the same content or the same failure. -/
lemma LooksLike.read (h : LooksLike t' t) (path : String) : t'.read path = t.read path := by
  rw [read_eq, read_eq, h.resolve]

lemma directory?_eq_some_iff {path : String} {es : List (String × Node (List UInt8))} :
    t.directory? path = some es ↔ ∃ place, t.resolve .use path = .ok (.found place (.dir es)) := by
  rw [directory?]
  rcases t.resolve .use path with e | ⟨place, n⟩ | ⟨directory, name⟩
  · simp
  · cases n <;> simp
  · simp

lemma forM_eq_ok_iff {ε α : Type} {f : α → Except ε Unit} {l : List α} :
    l.forM f = .ok () ↔ ∀ a ∈ l, f a = .ok () := by
  induction l with
  | nil => simp [pure, Except.pure]
  | cons a l ih =>
    rw [List.forM_eq_forM, List.forM_cons, List.forall_mem_cons, ← ih]
    cases f a with
    | error e => simp [bind, Except.bind]
    | ok _ => simp [bind, Except.bind]

/-- The failure of steps is that of the first one that fails. -/
lemma forM_eq_error_iff {ε α : Type} {f : α → Except ε Unit} {l : List α} {e : ε} :
    l.forM f = .error e ↔ ∃ before a after, l = before ++ a :: after ∧
      (∀ b ∈ before, f b = .ok ()) ∧ f a = .error e := by
  induction l with
  | nil => simp [pure, Except.pure]
  | cons a l ih =>
    rw [List.forM_eq_forM, List.forM_cons]
    constructor
    · intro h
      cases ha : f a with
      | error e' =>
        rw [ha] at h
        exact ⟨[], a, l, rfl, by simp, ha.trans h⟩
      | ok _ =>
        rw [ha] at h
        obtain ⟨before, b, after, rfl, hbefore, hb⟩ := ih.1 h
        exact ⟨a :: before, b, after, rfl, List.forall_mem_cons.2 ⟨ha, hbefore⟩, hb⟩
    · rintro ⟨before, b, after, heq, hbefore, hb⟩
      cases before with
      | nil =>
        obtain ⟨rfl, rfl⟩ := List.cons.inj heq
        rw [hb]
        rfl
      | cons c before =>
        obtain ⟨rfl, rfl⟩ := List.cons.inj heq
        obtain ⟨ha, hbefore⟩ := List.forall_mem_cons.1 hbefore
        rw [ha]
        exact ih.2 ⟨before, b, after, rfl, hbefore, hb⟩

lemma search_of_none {path : String} (h : t.directory? path = none) :
    t.search path = .error .notDirectory := by
  rw [search, h]
  rfl

lemma search_of_some {path : String} {es : List (String × Node (List UInt8))}
    (h : t.directory? path = some es) :
    t.search path = ((directoryPaths path es).forM fun p =>
      (checkPath p).mapError (SearchError.unopened p)).map fun _ => es := by
  rw [search, h]
  rfl

/-- A search finds what is in the directory if the paths of all directories can be opened. -/
lemma search_eq_ok_iff {path : String} {es : List (String × Node (List UInt8))} :
    t.search path = .ok es ↔
      t.directory? path = some es ∧ ∀ p ∈ directoryPaths path es, checkPath p = .ok () := by
  have hopen (p : String) : (checkPath p).mapError (SearchError.unopened p) = .ok () ↔
      checkPath p = .ok () := by
    cases checkPath p <;> simp [Except.mapError]
  cases hes : t.directory? path with
  | none => simp [search_of_none hes]
  | some es' =>
    rw [search_of_some hes, map_eq_ok_iff, Option.some.injEq]
    constructor
    · rintro ⟨⟨⟩, hall, rfl⟩
      exact ⟨rfl, fun p hp => (hopen p).1 (forM_eq_ok_iff.1 hall p hp)⟩
    · rintro ⟨rfl, hall⟩
      exact ⟨(), forM_eq_ok_iff.2 fun p hp => (hopen p).2 (hall p hp), rfl⟩

/-- What is found below the directory that a path leads to. -/
lemma kindAt_directory {path : String} {place : List String}
    {es : List (String × Node (List UInt8))}
    (h : t.resolve .use path = .ok (.found place (.dir es))) (q : List String) :
    (dir es).kindAt q = t.root.kindAt (place ++ q) := by
  have hget := (resolve_eq_ok_iff.1 h).2.get?_found
  rw [kindAt, kindAt, get?_append, hget]
  rfl

/-- **A directory** is found again, and what is seen below it is the same. -/
lemma LooksLike.directory (h : LooksLike t' t) {path : String}
    {es : List (String × Node (List UInt8))} (hes : t.directory? path = some es) :
    ∃ es', t'.directory? path = some es' ∧ ∀ q, (dir es').kindAt q = (dir es).kindAt q := by
  obtain ⟨place, hplace⟩ := directory?_eq_some_iff.1 hes
  have hseen := h.resolve .use path
  rw [hplace] at hseen
  obtain ⟨d', hd', hseen'⟩ := map_eq_ok_iff.1 hseen
  cases d' with
  | vacant directory name => cases hseen'
  | found place' n' =>
    obtain ⟨rfl, hkind⟩ := Prod.mk.inj hseen'
    cases n' with
    | file content => cases hkind
    | link target => cases hkind
    | dir es' =>
      refine ⟨es', directory?_eq_some_iff.2 ⟨place', hd'⟩, fun q => ?_⟩
      rw [kindAt_directory hd', kindAt_directory hplace, h.kindAt_eq]

lemma LooksLike.symm (h : LooksLike t' t) : LooksLike t t' :=
  ⟨h.workingDirectory_eq.symm, fun q => (h.kindAt_eq q).symm⟩

lemma LooksLike.directory_eq_none (h : LooksLike t' t) {path : String}
    (hnone : t.directory? path = none) : t'.directory? path = none := by
  cases hes' : t'.directory? path with
  | none => rfl
  | some es' =>
    obtain ⟨es, hes, -⟩ := h.symm.directory hes'
    rw [hnone] at hes
    cases hes

end LiquidCatalog.FileTree

import LiquidCatalog.Proofs.FileTree.Node

/-!
Trees as a file system lists them.

The entries of a directory have names of their own, and they may be listed in any order. Two
listings of one tree show the same kinds of nodes at the same places.
-/

namespace LiquidCatalog

/-- A name that an entry of a directory can have. -/
structure IsEntryName (name : String) : Prop where
  ne_empty : name ≠ ""
  ne_dot : name ≠ "."
  ne_up : name ≠ ".."
  slash_not_mem : '/' ∉ name.toList
  nul_not_mem : '\x00' ∉ name.toList
  size_le : name.utf8ByteSize ≤ 255

instance (name : String) : Decidable (IsEntryName name) :=
  decidable_of_iff (name ≠ "" ∧ name ≠ "." ∧ name ≠ ".." ∧ '/' ∉ name.toList ∧
      '\x00' ∉ name.toList ∧ name.utf8ByteSize ≤ 255)
    ⟨fun ⟨ne_empty, ne_dot, ne_up, slash, nul, size_le⟩ =>
      ⟨ne_empty, ne_dot, ne_up, slash, nul, size_le⟩,
      fun h => ⟨h.ne_empty, h.ne_dot, h.ne_up, h.slash_not_mem, h.nul_not_mem, h.size_le⟩⟩

namespace Node

variable {α : Type}

/-- Every directory has entries with names that entries can have, no two of them the same. -/
inductive WellFormed : Node α → Prop
  | file (content : α) : WellFormed (file content)
  | link (target : String) : WellFormed (link target)
  | dir {es : List (String × Node α)} (names_nodup : (es.map (·.1)).Nodup)
      (names : ∀ e ∈ es, IsEntryName e.1) (nodes : ∀ e ∈ es, WellFormed e.2) : WellFormed (dir es)

lemma lookup_of_mem {es : List (String × Node α)} (hnodup : (es.map (·.1)).Nodup)
    {e : String × Node α} (he : e ∈ es) : es.lookup e.1 = some e.2 := by
  obtain ⟨before, after, rfl⟩ := List.append_of_mem he
  rw [List.map_append, List.map_cons] at hnodup
  refine List.lookup_eq_some_iff.2 ⟨before, after, rfl, fun p hp => ?_⟩
  have hne : e.1 ≠ p.1 := by
    intro heq
    exact (List.disjoint_of_nodup_append hnodup) (List.mem_map_of_mem hp) (by simp [← heq])
  simpa using hne

lemma mem_of_lookup {es : List (String × Node α)} {name : String} {n : Node α}
    (h : es.lookup name = some n) : (name, n) ∈ es := by
  obtain ⟨before, after, rfl, -⟩ := List.lookup_eq_some_iff.1 h
  simp

lemma lookup_eq_some_iff_mem {es : List (String × Node α)} (hnodup : (es.map (·.1)).Nodup)
    {name : String} {n : Node α} : es.lookup name = some n ↔ (name, n) ∈ es :=
  ⟨mem_of_lookup, fun h => lookup_of_mem hnodup h⟩

/-- Places lead to well-formed nodes by names that entries can have. -/
lemma WellFormed.get? {n m : Node α} (hn : n.WellFormed) {place : List String}
    (h : n.get? place = some m) : m.WellFormed ∧ ∀ name ∈ place, IsEntryName name := by
  induction place generalizing n with
  | nil =>
    obtain rfl : n = m := by simpa using h
    exact ⟨hn, by simp⟩
  | cons name place ih =>
    rw [get?_cons] at h
    obtain ⟨c, hc, hplace⟩ := Option.bind_eq_some_iff.1 h
    cases hn with
    | file content => simp [child?] at hc
    | link target => simp [child?] at hc
    | dir names_nodup names nodes =>
      have hmem := mem_of_lookup hc
      obtain ⟨hm, hnames⟩ := ih (nodes _ hmem) hplace
      exact ⟨hm, List.forall_mem_cons.2 ⟨names _ hmem, hnames⟩⟩

/-! ### Other orders of the entries -/

/-- The second tree is the first one with the entries of its directories listed in another order. -/
inductive Relisted : Node α → Node α → Prop
  | refl (n : Node α) : Relisted n n
  | perm {es es' : List (String × Node α)} (h : es.Perm es') : Relisted (dir es) (dir es')
  | entry {before after : List (String × Node α)} {name : String} {n n' : Node α}
      (h : Relisted n n') :
      Relisted (dir (before ++ (name, n) :: after)) (dir (before ++ (name, n') :: after))
  | trans {n n' n'' : Node α} (h : Relisted n n') (h' : Relisted n' n'') : Relisted n n''

lemma Relisted.wellFormed {n n' : Node α} (h : Relisted n n') (hn : n.WellFormed) :
    n'.WellFormed := by
  induction h with
  | refl n => exact hn
  | perm hperm =>
    cases hn with
    | dir names_nodup names nodes =>
      exact .dir ((hperm.map _).nodup_iff.1 names_nodup) (fun e he => names e (hperm.mem_iff.2 he))
        fun e he => nodes e (hperm.mem_iff.2 he)
  | entry hentry ih =>
    cases hn with
    | dir names_nodup names nodes =>
      refine .dir (by simpa using names_nodup) ?_ ?_
      · simpa [or_imp, forall_and] using names
      · simp only [List.mem_append, List.mem_cons, or_imp, forall_and, forall_eq] at nodes ⊢
        exact ⟨nodes.1, ih nodes.2.1, nodes.2.2⟩
  | trans _ _ ih ih' => exact ih' (ih hn)

lemma lookup_perm {es es' : List (String × Node α)} (hnodup : (es.map (·.1)).Nodup)
    (hperm : es.Perm es') (name : String) : es.lookup name = es'.lookup name := by
  have hnodup' := (hperm.map Prod.fst).nodup_iff.1 hnodup
  refine Option.ext fun n => ?_
  rw [lookup_eq_some_iff_mem hnodup, lookup_eq_some_iff_mem hnodup', hperm.mem_iff]

lemma lookup_append_cons (before after : List (String × Node α)) (name other : String)
    (n : Node α) : (before ++ (name, n) :: after).lookup other =
      (before.lookup other).or (if other = name then some n else after.lookup other) := by
  rw [List.lookup_append, List.lookup_cons]
  by_cases h : other = name
  · simp [h]
  · rw [if_neg h, beq_eq_false_iff_ne.2 h]

/-- **Listings of one tree** show the same kinds of nodes at the same places. -/
lemma Relisted.kindAt_eq {n n' : Node α} (h : Relisted n n') (hn : n.WellFormed)
    (place : List String) : n'.kindAt place = n.kindAt place := by
  induction h generalizing place with
  | refl n => rfl
  | perm hperm =>
    cases hn with
    | dir names_nodup names nodes =>
      cases place with
      | nil => rfl
      | cons name place =>
        rw [kindAt_dir_cons, kindAt_dir_cons, lookup_perm names_nodup hperm]
  | @entry before after name n n' hentry ih =>
    cases hn with
    | dir names_nodup names nodes =>
      cases place with
      | nil => rfl
      | cons other place =>
        have hn : n.WellFormed := nodes (name, n) (by simp)
        rw [kindAt_dir_cons, kindAt_dir_cons, lookup_append_cons, lookup_append_cons]
        cases before.lookup other with
        | some m => rfl
        | none =>
          by_cases hother : other = name
          · simp [hother, ih hn]
          · simp [hother]
  | trans h h' ih ih' => rw [ih' (h.wellFormed hn), ih hn]

end Node

end LiquidCatalog

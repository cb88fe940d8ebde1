import LiquidCatalog.FileTree.Resolve
import LiquidCatalog.Proofs.FileTree.Node

/-!
Where paths lead.

The ways through a tree are given step by step, with the number of links that they cross, and the
trails of the file tree are these ways. A way depends on the kinds of nodes at the places it
passes, so it stays open in a tree that has grown.
-/

namespace LiquidCatalog.FileTree

open Node

/-- A segment that names an entry to go on to, with the segments behind it. -/
structure NamesEntry (purpose : Purpose) (s : String) (rest : List String) : Prop where
  ne_empty : s ≠ ""
  ne_dot : s ≠ "."
  ne_up : s ≠ ".."
  size_le : s.utf8ByteSize ≤ 255
  /-- A file to be made is not named as a directory. -/
  no_slash : ¬ (purpose = .make ∧ rest ≠ [] ∧ rest.all (· = ""))

/-- To use what is there, it may be named with slashes behind the name. -/
lemma not_make_of_use (rest : List String) :
    ¬ (Purpose.use = .make ∧ rest ≠ [] ∧ rest.all (· = "")) :=
  fun h => absurd h.1 (by decide)

/-- From a place, segments lead to a destination across at most so many links. -/
inductive Leads (root : Node (List UInt8)) (purpose : Purpose) :
    Nat → List String → List String → Destination → Prop
  | done {links : Nat} {place : List String} {n : Node (List UInt8)}
      (h : root.get? place = some n) : Leads root purpose links place [] (.found place n)
  | stay {links : Nat} {place rest : List String} {s : String} {d : Destination}
      (hdir : root.kindAt place = some .dir) (hs : s = "" ∨ s = ".")
      (h : Leads root purpose links place rest d) : Leads root purpose links place (s :: rest) d
  | up {links : Nat} {place rest : List String} {d : Destination}
      (hdir : root.kindAt place = some .dir)
      (h : Leads root purpose links place.dropLast rest d) :
      Leads root purpose links place (".." :: rest) d
  | follow {links : Nat} {place rest : List String} {s target : String} {d : Destination}
      (hdir : root.kindAt place = some .dir) (hs : NamesEntry purpose s rest)
      (hlink : root.kindAt (place ++ [s]) = some (.link target))
      (h : Leads root purpose links (if Path.isAbsolute target then [] else place)
        (Path.segments target ++ rest) d) :
      Leads root purpose (links + 1) place (s :: rest) d
  | enter {links : Nat} {place rest : List String} {s : String} {k : Kind (List UInt8)}
      {d : Destination} (hdir : root.kindAt place = some .dir) (hs : NamesEntry purpose s rest)
      (hkind : root.kindAt (place ++ [s]) = some k) (hk : ∀ target, k ≠ .link target)
      (h : Leads root purpose links (place ++ [s]) rest d) :
      Leads root purpose links place (s :: rest) d
  | free {links : Nat} {place rest : List String} {s : String}
      (hdir : root.kindAt place = some .dir) (hs : NamesEntry purpose s rest)
      (hnone : root.kindAt (place ++ [s]) = none) (hrest : rest.all (· = "")) :
      Leads root purpose links place (s :: rest) (.vacant place s)

variable {root root' : Node (List UInt8)} {purpose : Purpose} {links : Nat}
  {place segments : List String} {d : Destination}

/-- A walk takes the steps of a way, if what is done at links does. -/
lemma leads_of_walk {onLink : Trail}
    (honLink : ∀ place segments d, onLink place segments = .ok d →
      ∃ fewer, links = fewer + 1 ∧ Leads root purpose fewer place segments d)
    (h : walk root purpose onLink place segments = .ok d) :
    Leads root purpose links place segments d := by
  induction segments generalizing place with
  | nil =>
    rw [walk] at h
    split at h
    · next n hn =>
      cases h
      exact .done hn
    · cases h
  | cons s rest ih =>
    rw [walk] at h
    split at h
    case h_2 => cases h
    next es hes =>
    have hdir : root.kindAt place = some .dir := kindAt_eq_dir_iff.2 ⟨es, hes⟩
    split at h
    · next hs => exact .stay hdir hs (ih h)
    split at h
    · next hs => exact hs ▸ .up hdir (ih h)
    split at h
    · cases h
    split at h
    · cases h
    next hstay hup hslash hsize =>
    have hs : NamesEntry purpose s rest :=
      ⟨fun hs => hstay (.inl hs), fun hs => hstay (.inr hs), hup, by omega, hslash⟩
    have hkind := kindAt_concat hes s
    split at h
    · next target hlookup =>
      obtain ⟨fewer, rfl, hfewer⟩ := honLink _ _ _ h
      exact .follow hdir hs (by rw [hkind, hlookup]; rfl) hfewer
    · next n hlink hlookup =>
      refine .enter hdir hs (by rw [hkind, hlookup]; rfl) ?_ (ih h)
      intro target htarget
      cases n with
      | link other => exact hlink other rfl
      | file content => cases htarget
      | dir es => cases htarget
    · next hlookup =>
      split at h
      · next hrest =>
        cases h
        exact .free hdir hs (by rw [hkind, hlookup]; rfl) hrest
      · cases h

lemma leads_of_trail (h : trail root purpose links place segments = .ok d) :
    Leads root purpose links place segments d := by
  induction links generalizing place segments d with
  | zero => exact leads_of_walk (fun _ _ _ h => by cases h) h
  | succ links ih => exact leads_of_walk (fun _ _ _ h => ⟨links, rfl, ih h⟩) h

lemma walk_entry {es : List (String × Node (List UInt8))} {s : String} {rest : List String}
    (hes : root.get? place = some (.dir es)) (hs : NamesEntry purpose s rest) (onLink : Trail) :
    walk root purpose onLink place (s :: rest) =
      match es.lookup s with
      | some (.link target) =>
        onLink (if Path.isAbsolute target then [] else place) (Path.segments target ++ rest)
      | some _ => walk root purpose onLink (place ++ [s]) rest
      | none => if rest.all (· = "") then .ok (.vacant place s) else .error .missing := by
  have hstay : ¬ (s = "" ∨ s = ".") := not_or.2 ⟨hs.ne_empty, hs.ne_dot⟩
  have hsize : ¬ 255 < s.utf8ByteSize := Nat.not_lt.2 hs.size_le
  rw [walk, hes]
  exact (if_neg hstay).trans ((if_neg hs.ne_up).trans ((if_neg hs.no_slash).trans (if_neg hsize)))

/-- The trail across so many links is a walk, whatever is done at a link. -/
lemma exists_trail_eq_walk (root : Node (List UInt8)) (purpose : Purpose) (links : Nat) :
    ∃ onLink, trail root purpose links = walk root purpose onLink := by
  cases links with
  | zero => exact ⟨_, rfl⟩
  | succ links => exact ⟨_, rfl⟩

lemma trail_of_leads (h : Leads root purpose links place segments d) :
    trail root purpose links place segments = .ok d := by
  induction h with
  | @done links place n hn =>
    obtain ⟨onLink, htrail⟩ := exists_trail_eq_walk root purpose links
    rw [htrail, walk, hn]
  | @stay links place rest s d hdir hs h ih =>
    obtain ⟨onLink, htrail⟩ := exists_trail_eq_walk root purpose links
    obtain ⟨es, hes⟩ := kindAt_eq_dir_iff.1 hdir
    rw [htrail] at ih ⊢
    rw [walk, hes]
    simp only [if_pos hs, ih]
  | @up links place rest d hdir h ih =>
    obtain ⟨onLink, htrail⟩ := exists_trail_eq_walk root purpose links
    obtain ⟨es, hes⟩ := kindAt_eq_dir_iff.1 hdir
    rw [htrail] at ih ⊢
    rw [walk, hes]
    simpa using ih
  | @follow links place rest s target d hdir hs hlink h ih =>
    obtain ⟨es, hes⟩ := kindAt_eq_dir_iff.1 hdir
    rw [kindAt_concat hes, Option.map_eq_some_iff] at hlink
    obtain ⟨n, hn, hkind⟩ := hlink
    cases n with
    | link other =>
      cases hkind
      rw [trail, walk_entry hes hs, hn]
      exact ih
    | file content => cases hkind
    | dir es => cases hkind
  | @enter links place rest s k d hdir hs hkind hk h ih =>
    obtain ⟨onLink, htrail⟩ := exists_trail_eq_walk root purpose links
    obtain ⟨es, hes⟩ := kindAt_eq_dir_iff.1 hdir
    rw [kindAt_concat hes, Option.map_eq_some_iff] at hkind
    obtain ⟨n, hn, hkind⟩ := hkind
    rw [htrail] at ih ⊢
    rw [walk_entry hes hs, hn]
    cases n with
    | link other => exact absurd hkind.symm (hk other)
    | file content => exact ih
    | dir es => exact ih
  | @free links place rest s hdir hs hnone hrest =>
    obtain ⟨onLink, htrail⟩ := exists_trail_eq_walk root purpose links
    obtain ⟨es, hes⟩ := kindAt_eq_dir_iff.1 hdir
    rw [kindAt_concat hes, Option.map_eq_none_iff] at hnone
    rw [htrail, walk_entry hes hs, hnone]
    exact if_pos hrest

/-- **The trails** of a file tree are the ways through it. -/
lemma trail_eq_ok_iff :
    trail root purpose links place segments = .ok d ↔ Leads root purpose links place segments d :=
  ⟨leads_of_trail, trail_of_leads⟩

/-! ### What is there at the end -/

lemma Leads.kindAt_start {s : String} {rest : List String}
    (h : Leads root purpose links place (s :: rest) d) : root.kindAt place = some .dir := by
  cases h <;> assumption

lemma Leads.get?_found {n : Node (List UInt8)} {target : List String}
    (h : Leads root purpose links place segments (.found target n)) :
    root.get? target = some n := by
  generalize hd : Destination.found target n = d at h
  induction h with
  | done hn => cases hd; exact hn
  | stay _ _ _ ih => exact ih hd
  | up _ _ ih => exact ih hd
  | follow _ _ _ _ ih => exact ih hd
  | enter _ _ _ _ _ ih => exact ih hd
  | free => cases hd

lemma Leads.of_vacant {directory : List String} {name : String}
    (h : Leads root purpose links place segments (.vacant directory name)) :
    root.kindAt directory = some .dir ∧ root.kindAt (directory ++ [name]) = none := by
  generalize hd : Destination.vacant directory name = d at h
  induction h with
  | done => cases hd
  | stay _ _ _ ih => exact ih hd
  | up _ _ ih => exact ih hd
  | follow _ _ _ _ ih => exact ih hd
  | enter _ _ _ _ _ ih => exact ih hd
  | free hdir _ hnone => cases hd; exact ⟨hdir, hnone⟩

lemma Leads.found_ne_link {n : Node (List UInt8)} {target : List String}
    (h : Leads root purpose links place segments (.found target n))
    (hplace : ∀ text, root.kindAt place ≠ some (.link text)) (text : String) :
    root.kindAt target ≠ some (.link text) := by
  have hdir_ne {q : List String} (hq : root.kindAt q = some .dir) (text : String) :
      root.kindAt q ≠ some (.link text) := by
    rw [hq]
    rintro ⟨⟩
  generalize hd : Destination.found target n = d at h
  induction h with
  | done => cases hd; exact hplace text
  | stay hdir _ _ ih => exact ih (hdir_ne hdir) hd
  | up hdir _ ih => exact ih (hdir_ne (kindAt_dropLast_of_dir hdir)) hd
  | follow hdir _ _ _ ih =>
    refine ih (hdir_ne ?_) hd
    split
    · exact kindAt_nil_of_dir hdir
    · exact hdir
  | enter _ _ hkind hk _ ih =>
    refine ih (fun text htext => ?_) hd
    rw [hkind] at htext
    exact hk text (Option.some.inj htext)
  | free => cases hd

/-! ### Ways in a tree that has grown -/

/-- The second tree has what the first one has, but its files may have other contents. -/
structure Grown (root root' : Node (List UInt8)) : Prop where
  dir : ∀ q, root.kindAt q = some .dir → root'.kindAt q = some .dir
  link : ∀ q target, root.kindAt q = some (.link target) → root'.kindAt q = some (.link target)
  file : ∀ q content, root.kindAt q = some (.file content) →
    ∃ content', root'.kindAt q = some (.file content')

lemma Grown.refl (root : Node (List UInt8)) : Grown root root :=
  ⟨fun _ h => h, fun _ _ h => h, fun _ content h => ⟨content, h⟩⟩

lemma Grown.kindAt (h : Grown root root') {q : List String} {k : Kind (List UInt8)}
    (hkind : root.kindAt q = some k) (hk : ∀ target, k ≠ .link target) :
    ∃ k', root'.kindAt q = some k' ∧ ∀ target, k' ≠ .link target := by
  cases k with
  | dir => exact ⟨.dir, h.dir q hkind, Kind.dir_ne_link⟩
  | link target => exact absurd rfl (hk target)
  | file content =>
    obtain ⟨content', hcontent⟩ := h.file q content hkind
    exact ⟨.file content', hcontent, Kind.file_ne_link content'⟩

lemma NamesEntry.use {s : String} {rest : List String} (h : NamesEntry purpose s rest)
    (rest' : List String) : NamesEntry .use s rest' :=
  ⟨h.ne_empty, h.ne_dot, h.ne_up, h.size_le, not_make_of_use rest'⟩

/-- **Ways go on** from where they lead to, also in a tree that has grown. -/
lemma Leads.append {more target : List String} {n : Node (List UInt8)}
    (hgrown : Grown root root') (h : Leads root purpose links place segments (.found target n))
    (hmore : ∀ links, Leads root' .use links target more d) :
    Leads root' .use links place (segments ++ more) d := by
  generalize hfound : Destination.found target n = found at h
  induction h with
  | done => cases hfound; exact hmore _
  | stay hdir hs _ ih => exact .stay (hgrown.dir _ hdir) hs (ih hfound)
  | up hdir _ ih => exact .up (hgrown.dir _ hdir) (ih hfound)
  | follow hdir hs hlink _ ih =>
    rw [List.cons_append]
    refine .follow (hgrown.dir _ hdir) (hs.use _) (hgrown.link _ _ hlink) ?_
    rw [← List.append_assoc]
    exact ih hfound
  | enter hdir hs hkind hk _ ih =>
    obtain ⟨k', hkind', hk'⟩ := hgrown.kindAt hkind hk
    exact .enter (hgrown.dir _ hdir) (hs.use _) hkind' hk' (ih hfound)
  | free => cases hfound

/-- A way to a name that was free leads to what has been made there. -/
lemma Leads.made {directory : List String} {name : String} {n : Node (List UInt8)}
    (hgrown : Grown root root')
    (h : Leads root .make links place segments (.vacant directory name))
    (hn : root'.get? (directory ++ [name]) = some n) (hlink : ∀ target, n.kind ≠ .link target) :
    Leads root' .use links place segments (.found (directory ++ [name]) n) := by
  generalize hvacant : Destination.vacant directory name = vacant at h
  induction h with
  | done => cases hvacant
  | stay hdir hs _ ih => exact .stay (hgrown.dir _ hdir) hs (ih hvacant)
  | up hdir _ ih => exact .up (hgrown.dir _ hdir) (ih hvacant)
  | follow hdir hs hlink _ ih =>
    exact .follow (hgrown.dir _ hdir) (hs.use _) (hgrown.link _ _ hlink) (ih hvacant)
  | enter hdir hs hkind hk _ ih =>
    obtain ⟨k', hkind', hk'⟩ := hgrown.kindAt hkind hk
    exact .enter (hgrown.dir _ hdir) (hs.use _) hkind' hk' (ih hvacant)
  | @free links place rest s hdir hs hnone hrest =>
    cases hvacant
    -- a name with slashes behind it does not name a file to be made
    obtain rfl : rest = [] := by
      by_contra hne
      exact hs.no_slash ⟨rfl, hne, hrest⟩
    have hkind : root'.kindAt (directory ++ [name]) = some n.kind := by rw [Node.kindAt, hn]; rfl
    exact .enter (hgrown.dir _ hdir) (hs.use _) hkind hlink (.done hn)

end LiquidCatalog.FileTree

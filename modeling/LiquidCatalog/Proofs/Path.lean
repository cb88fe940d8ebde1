import LiquidCatalog.Path
import LiquidCatalog.Proofs.FileTree.Listing
import LiquidCatalog.Text.Utf8

/-!
Paths of what is below a directory.

However a directory is spelled, the path of what names lead to below it begins with the directory
and a slash, goes on with the names and slashes between them, and has the segments of the directory
and then the names for segments.
-/

namespace LiquidCatalog.Path

variable {directory name : String} {names : List String}

/-! ### Joined paths -/

/-- A directory with a slash at its end is its text, or its text with a slash. -/
lemma exists_asDirectory_eq (directory : String) : ∃ trunk, asDirectory directory = trunk ++ "/" ∧
    (directory = trunk ∨ directory = trunk ++ "/") := by
  rw [asDirectory]
  split
  · next hlast =>
    obtain ⟨trunk, htrunk⟩ := List.getLast?_eq_some_iff.1 hlast
    have hdirectory : directory = String.ofList trunk ++ "/" := by
      rw [← String.toList_inj, htrunk, String.toList_append, String.toList_ofList]
      rfl
    exact ⟨String.ofList trunk, hdirectory, .inr hdirectory⟩
  · exact ⟨directory, rfl, .inl rfl⟩

lemma join_eq (hne : directory ≠ "") (name : String) :
    join directory name = asDirectory directory ++ name := by
  rw [join, asDirectory]
  by_cases hlast : directory.toList.getLast? = some '/'
  · rw [if_pos hlast, if_pos (.inr hlast)]
  · rw [if_neg hlast, if_neg (not_or.2 ⟨hne, hlast⟩)]

lemma join_ne_empty (hname : IsEntryName name) : join directory name ≠ "" := by
  rw [join]
  split
  · simp [hname.ne_empty]
  · simp

/-- A joined path does not end in a slash. -/
lemma asDirectory_join (hname : IsEntryName name) :
    asDirectory (join directory name) = join directory name ++ "/" := by
  have hne : name.toList ≠ [] := by simpa using hname.ne_empty
  have hlast (before : String) : (before ++ name).toList.getLast? ≠ some '/' := by
    rw [String.toList_append, List.getLast?_append_of_ne_nil _ hne]
    intro hlast
    exact hname.slash_not_mem (List.mem_of_getLast? hlast)
  rw [asDirectory, if_neg]
  rw [join]
  split
  · exact hlast _
  · exact hlast _

lemma below_cons (directory name : String) (names : List String) :
    below directory (name :: names) = below (join directory name) names := rfl

/-- **Joining names one by one** puts the slashes between them. -/
lemma below_eq (hdirectory : directory ≠ "") (hne : names ≠ [])
    (hnames : ∀ name ∈ names, IsEntryName name) :
    below directory names = asDirectory directory ++ "/".intercalate names := by
  induction names generalizing directory with
  | nil => exact absurd rfl hne
  | cons name names ih =>
    obtain ⟨hname, hnames⟩ := List.forall_mem_cons.1 hnames
    rw [below_cons]
    by_cases hrest : names = []
    · rw [hrest, String.intercalate_singleton]
      exact join_eq hdirectory name
    · rw [ih (join_ne_empty hname) hrest hnames, asDirectory_join hname, join_eq hdirectory,
        String.intercalate_cons_of_ne_nil hrest]
      simp only [String.append_assoc]

/-- A path below a directory begins with the path of the directory. -/
lemma exists_below_eq_append (directory : String) (names : List String) :
    ∃ more, below directory names = directory ++ more := by
  induction names generalizing directory with
  | nil => exact ⟨"", by rw [String.append_empty]; rfl⟩
  | cons name names ih =>
    obtain ⟨more, hmore⟩ := ih (join directory name)
    rw [below_cons, hmore, join]
    split
    · exact ⟨name ++ more, by simp only [String.append_assoc]⟩
    · exact ⟨"/" ++ name ++ more, by simp only [String.append_assoc]⟩

lemma below_ne_empty (hdirectory : directory ≠ "") : below directory names ≠ "" := by
  obtain ⟨more, hmore⟩ := exists_below_eq_append directory names
  rw [hmore]
  simp [hdirectory]

lemma nul_not_mem_below (hdirectory : '\x00' ∉ directory.toList)
    (hnames : ∀ name ∈ names, IsEntryName name) :
    '\x00' ∉ (below directory names).toList := by
  induction names generalizing directory with
  | nil => exact hdirectory
  | cons name names ih =>
    obtain ⟨hname, hnames⟩ := List.forall_mem_cons.1 hnames
    rw [below_cons]
    refine ih ?_ hnames
    rw [join]
    split
    · simp [hdirectory, hname.nul_not_mem]
    · simp [hdirectory, hname.nul_not_mem]

/-! ### Segments -/

lemma segments_ne_nil (path : String) : segments path ≠ [] := by
  simp [segments, List.splitOn_ne_nil]

lemma segments_append_slash (s t : String) :
    segments (s ++ "/" ++ t) = segments s ++ segments t := by
  have hlist : (s ++ "/" ++ t).toList = s.toList ++ '/' :: t.toList := by
    simp [String.toList_append]
  rw [segments, hlist, List.splitOn_append_cons_self, List.map_append]
  rfl

lemma segments_of_name (hname : IsEntryName name) : segments name = [name] := by
  rw [segments, List.splitOn_eq_singleton hname.slash_not_mem]
  simp

lemma segments_intercalate (hne : names ≠ []) (hnames : ∀ name ∈ names, IsEntryName name) :
    segments ("/".intercalate names) = names := by
  induction names with
  | nil => exact absurd rfl hne
  | cons name names ih =>
    obtain ⟨hname, hnames⟩ := List.forall_mem_cons.1 hnames
    by_cases hrest : names = []
    · rw [hrest, String.intercalate_singleton, segments_of_name hname]
    · rw [String.intercalate_cons_of_ne_nil hrest, segments_append_slash, segments_of_name hname,
        ih hrest hnames]
      rfl

/-- **The segments below a directory** are those of the directory, without the empty one behind a
slash at its end, and then the names. -/
lemma segments_below (hdirectory : directory ≠ "") (hne : names ≠ [])
    (hnames : ∀ name ∈ names, IsEntryName name) :
    ∃ before, segments (below directory names) = before ++ names ∧ before ≠ [] ∧
      (segments directory = before ∨ segments directory = before ++ [""]) := by
  obtain ⟨trunk, htrunk, hspelled⟩ := exists_asDirectory_eq directory
  refine ⟨segments trunk, ?_, segments_ne_nil trunk, ?_⟩
  · rw [below_eq hdirectory hne hnames, htrunk, segments_append_slash,
      segments_intercalate hne hnames]
  · rcases hspelled with rfl | rfl
    · exact .inl rfl
    · have hslash := segments_append_slash trunk ""
      rw [String.append_empty] at hslash
      exact .inr hslash

/-! ### Components -/

/-- The segments of a path that name a step, in order. -/
def components (path : String) : List String := ((steps path).filter (·.2)).map (·.1)

/-- The components as bytes. -/
def byteComponents (path : String) : List (List UInt8) :=
  (components path).map fun name => Text.utf8 name.toList

/-- Behind the first segment, the steps are the segments that are not empty and no dot. -/
lemma filter_zipIdx (rest : List String) {i : Nat} (hi : i ≠ 0) :
    (((rest.zipIdx i).map fun (s, i) => (s, s ≠ "" && (s ≠ "." || i = 0))).filter (·.2)).map (·.1) =
      rest.filter fun s => s ≠ "" && s ≠ "." := by
  induction rest generalizing i with
  | nil => rfl
  | cons s rest ih =>
    have hrest := ih (Nat.succ_ne_zero i)
    simp only [List.zipIdx_cons, List.map_cons, List.filter_cons, hi, decide_false, Bool.or_false]
    split
    · rw [List.map_cons, hrest]
    · exact hrest

lemma components_eq {path s : String} {rest : List String} (h : segments path = s :: rest) :
    components path = [s].filter (· ≠ "") ++ rest.filter fun s => s ≠ "" && s ≠ "." := by
  rw [components, steps, h]
  split
  · next habsolute =>
    -- nothing stands before the slash that an absolute path begins with
    obtain ⟨cs, hcs⟩ := List.head?_eq_some_iff.1 (of_decide_eq_true habsolute)
    rw [segments, hcs, List.splitOn_cons_eq_if_modifyHead, if_pos (beq_self_eq_true _)] at h
    have hs : "" = s := (List.cons.inj h).1
    rw [← hs, List.tail_cons, List.filter_map, List.map_map]
    simp [Function.comp_def]
  · have hrest := filter_zipIdx rest Nat.one_ne_zero
    rw [List.zipIdx_cons, List.map_cons, List.filter_cons]
    by_cases hs : s = ""
    · simpa [hs] using hrest
    · simpa [hs] using hrest

/-- The components below a directory are those of the directory and then the names. -/
lemma components_below (hdirectory : directory ≠ "") (hne : names ≠ [])
    (hnames : ∀ name ∈ names, IsEntryName name) :
    components (below directory names) = components directory ++ names := by
  obtain ⟨before, hsegments, hbefore, hspelled⟩ := segments_below hdirectory hne hnames
  obtain ⟨s, rest, rfl⟩ := List.exists_cons_of_ne_nil hbefore
  have hkept : names.filter (fun s => s ≠ "" && s ≠ ".") = names := by
    rw [List.filter_eq_self]
    intro name hname
    simp [(hnames name hname).ne_empty, (hnames name hname).ne_dot]
  have hdirectory_eq : components directory =
      [s].filter (· ≠ "") ++ rest.filter fun s => s ≠ "" && s ≠ "." := by
    rcases hspelled with hsegments | hsegments
    · exact components_eq hsegments
    · rw [List.cons_append] at hsegments
      rw [components_eq hsegments, List.filter_append]
      simp
  rw [List.cons_append] at hsegments
  rw [components_eq hsegments, List.filter_append, hkept, hdirectory_eq, List.append_assoc]

end LiquidCatalog.Path

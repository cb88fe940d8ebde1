import Mathlib.Data.List.Basic
import LiquidCatalog.Text.Occurrences

/-!
What a scan from left to right finds.

A scan picks the first occurrence, then the first one that begins behind it, and so on. This
determines what it finds, if at most one occurrence begins at each place. A text is scanned piece
by piece as long as no occurrence reaches from one piece into the next.
-/

namespace LiquidCatalog.Text

variable {α β : Type}

/-! ### Picking from left to right -/

/-- The occurrences that are picked from position `n` on, among those that satisfy `P`: each time
the first one that begins at the end of the last one or later. -/
inductive Picked (P : Occurrence α → Prop) : Nat → List (Occurrence α) → Prop
  | done {n : Nat} (none : ∀ o, P o → o.start < n) : Picked P n []
  | pick {n : Nat} {o : Occurrence α} {os : List (Occurrence α)} (here : P o)
      (ahead : n ≤ o.start) (first : ∀ o', P o' → n ≤ o'.start → o.start ≤ o'.start)
      (rest : Picked P (o.start + o.length) os) : Picked P n (o :: os)

lemma Picked.unique {P : Occurrence α → Prop}
    (hP : ∀ o o', P o → P o' → o.start = o'.start → o = o') {n : Nat}
    {os os' : List (Occurrence α)} (h : Picked P n os) (h' : Picked P n os') : os = os' := by
  induction h generalizing os' with
  | done none =>
    cases h' with
    | done => rfl
    | pick here ahead => exact absurd (none _ here) (by omega)
  | pick here ahead first rest ih =>
    cases h' with
    | done none => exact absurd (none _ here) (by omega)
    | pick here' ahead' first' rest' =>
      have hle := first _ here' ahead'
      have hge := first' _ here ahead
      obtain rfl := hP _ _ here here' (by omega)
      rw [ih rest']

/-- A place where nothing begins may be passed over. -/
lemma Picked.of_succ {P : Occurrence α → Prop} {n : Nat} {os : List (Occurrence α)}
    (h : Picked P (n + 1) os) (hn : ∀ o, P o → o.start ≠ n) : Picked P n os := by
  cases h with
  | done none =>
    refine .done fun o ho => ?_
    have := none o ho
    have := hn o ho
    omega
  | pick here ahead first rest =>
    refine .pick here (by omega) (fun o' ho' hle => ?_) rest
    have := hn o' ho'
    exact first o' ho' (by omega)

lemma Picked.forall_mem {P : Occurrence α → Prop} {n : Nat} {os : List (Occurrence α)}
    (h : Picked P n os) : ∀ o ∈ os, P o ∧ n ≤ o.start := by
  induction h with
  | done => exact List.forall_mem_nil _
  | pick here ahead first rest ih =>
    refine List.forall_mem_cons.2 ⟨⟨here, ahead⟩, fun o' ho' => ⟨(ih o' ho').1, ?_⟩⟩
    have := (ih o' ho').2
    omega

lemma Picked.pairwise {P : Occurrence α → Prop} {n : Nat} {os : List (Occurrence α)}
    (h : Picked P n os) : os.Pairwise fun o o' => o.start + o.length ≤ o'.start := by
  induction h with
  | done => exact .nil
  | pick here ahead first rest ih =>
    exact List.pairwise_cons.2 ⟨fun o' ho' => (rest.forall_mem o' ho').2, ih⟩

lemma Picked.exists_covers {P : Occurrence α → Prop} {n : Nat} {os : List (Occurrence α)}
    (h : Picked P n os) {o : Occurrence α} (ho : P o) (hle : n ≤ o.start) :
    ∃ o' ∈ os, o'.Covers o.start := by
  induction h with
  | done none => exact absurd (none o ho) (Nat.not_lt.2 hle)
  | @pick n p os here ahead first rest ih =>
    rcases Nat.lt_or_ge o.start (p.start + p.length) with hlt | hge
    · exact ⟨p, List.mem_cons_self, first o ho hle, hlt⟩
    · obtain ⟨o', ho', hcover⟩ := ih hge
      exact ⟨o', List.mem_cons_of_mem p ho', hcover⟩

lemma picked_of_covers {P : Occurrence α → Prop} (hpos : ∀ o, P o → 0 < o.length) {n : Nat}
    {os : List (Occurrence α)} (hall : ∀ o ∈ os, P o ∧ n ≤ o.start)
    (hordered : os.Pairwise fun o o' => o.start + o.length ≤ o'.start)
    (hcovers : ∀ o, P o → n ≤ o.start → ∃ o' ∈ os, o'.Covers o.start) : Picked P n os := by
  induction os generalizing n with
  | nil =>
    refine .done fun o ho => Nat.lt_of_not_le fun hle => ?_
    obtain ⟨o', ho', -⟩ := hcovers o ho hle
    cases ho'
  | cons o os ih =>
    obtain ⟨⟨here, ahead⟩, hall⟩ := List.forall_mem_cons.1 hall
    obtain ⟨hbehind, hordered⟩ := List.pairwise_cons.1 hordered
    have hlength := hpos o here
    have hrest : Picked P (o.start + o.length) os := by
      refine ih (fun o' ho' => ⟨(hall o' ho').1, hbehind o' ho'⟩) hordered fun o' ho' hle => ?_
      obtain ⟨p, hp, hcover, hend⟩ := hcovers o' ho' (by omega)
      rcases List.mem_cons.1 hp with rfl | hp
      · omega
      · exact ⟨p, hp, hcover, hend⟩
    refine .pick here ahead (fun o' ho' hle => ?_) hrest
    obtain ⟨p, hp, hcover, -⟩ := hcovers o' ho' hle
    rcases List.mem_cons.1 hp with rfl | hp
    · exact hcover
    · have := hbehind p hp
      omega

/-- **Picking is covering.** Occurrences are picked from left to right if they follow each other and
each occurrence begins in one of them. -/
lemma picked_iff_covers {P : Occurrence α → Prop} (hpos : ∀ o, P o → 0 < o.length) {n : Nat}
    {os : List (Occurrence α)} :
    Picked P n os ↔ (∀ o ∈ os, P o ∧ n ≤ o.start) ∧
      os.Pairwise (fun o o' => o.start + o.length ≤ o'.start) ∧
      ∀ o, P o → n ≤ o.start → ∃ o' ∈ os, o'.Covers o.start := by
  constructor
  · exact fun h => ⟨h.forall_mem, h.pairwise, fun _ ho hle => h.exists_covers ho hle⟩
  · rintro ⟨hall, hordered, hcovers⟩
    exact picked_of_covers hpos hall hordered hcovers

/-! ### What a reader accepts -/

/-- A reader takes off the front of a text what satisfies `P` for the value that it returns, and
this is never empty. -/
structure Reader.Accepts (read : Reader α) (P : α → List Char → Prop) : Prop where
  ne_nil : ∀ {a u}, P a u → u ≠ []
  eq_some_iff : ∀ {s a rest}, read s = some (a, rest) ↔ ∃ u, P a u ∧ s = u ++ rest

lemma Reader.Accepts.read_append {read : Reader α} {P : α → List Char → Prop}
    (h : read.Accepts P) {a : α} {u : List Char} (hu : P a u) (v : List Char) :
    read (u ++ v) = some (a, v) :=
  h.eq_some_iff.2 ⟨u, hu, rfl⟩

/-- A stretch that lies in the text and satisfies `P` for its value. -/
def Occurrence.StandsIn (P : α → List Char → Prop) (s : List Char) (o : Occurrence α) : Prop :=
  P o.value (o.source s) ∧ (o.source s).length = o.length

namespace Occurrence.StandsIn

variable {read : Reader α} {P : α → List Char → Prop} {s : List Char} {o o' : Occurrence α}

lemma read_drop (h : read.Accepts P) (ho : o.StandsIn P s) :
    read (s.drop o.start) = some (o.value, s.drop (o.start + o.length)) := by
  have hdrop : s.drop o.start = o.source s ++ s.drop (o.start + o.length) := by
    rw [source, ← List.drop_drop, List.take_append_drop]
  rw [hdrop]
  exact h.read_append ho.1 _

lemma start_lt (h : read.Accepts P) (ho : o.StandsIn P s) : o.start < s.length := by
  by_contra hle
  have hnil : s.drop o.start = [] := List.drop_of_length_le (by omega)
  exact h.ne_nil ho.1 (by rw [source, hnil, List.take_nil])

lemma length_pos (h : read.Accepts P) (ho : o.StandsIn P s) : 0 < o.length :=
  Nat.lt_of_lt_of_eq (List.length_pos_iff.2 (h.ne_nil ho.1)) ho.2

lemma exists_eq (h : read.Accepts P) (ho : o.StandsIn P s) :
    ∃ a u v, P o.value u ∧ s = a ++ (u ++ v) ∧ a.length = o.start ∧ u.length = o.length := by
  refine ⟨s.take o.start, o.source s, s.drop (o.start + o.length), ho.1, ?_,
    List.length_take_of_le (Nat.le_of_lt (ho.start_lt h)), ho.2⟩
  rw [source, ← List.drop_drop, List.take_append_drop, List.take_append_drop]

lemma of_eq {a u v : List Char} (hu : P o.value u) (hs : s = a ++ (u ++ v))
    (ha : a.length = o.start) (hlength : u.length = o.length) : o.StandsIn P s := by
  have hsource : o.source s = u := by
    rw [source, hs, ← ha, ← hlength, List.drop_left, List.take_left]
  exact ⟨by rwa [hsource], by rw [hsource, hlength]⟩

lemma unique (h : read.Accepts P) (ho : o.StandsIn P s) (ho' : o'.StandsIn P s)
    (hstart : o.start = o'.start) : o = o' := by
  have hread := ho.read_drop h
  rw [hstart, ho'.read_drop h, Option.some.injEq, Prod.mk.injEq] at hread
  obtain ⟨hvalue, hrest⟩ := hread
  have hlength := congrArg List.length hrest
  have hsource := ho.2
  have hsource' := ho'.2
  simp only [source, List.length_take, List.length_drop] at hlength hsource hsource'
  obtain ⟨start, length, value⟩ := o
  obtain ⟨start', length', value'⟩ := o'
  simp only at hstart hvalue hlength hsource hsource'
  obtain rfl := hstart
  obtain rfl := hvalue
  obtain rfl : length = length' := by omega
  rfl

end Occurrence.StandsIn

/-- **The scan picks from left to right.** -/
lemma picked_occurrencesFrom {read : Reader α} {P : α → List Char → Prop} (h : read.Accepts P)
    {s : List Char} (n skip : Nat) {t : List Char} (ht : s.drop n = t) :
    Picked (Occurrence.StandsIn P s) (n + skip) (occurrencesFrom read n skip t) := by
  have hnext {c : Char} {n : Nat} {t : List Char} (ht : s.drop n = c :: t) :
      s.drop (n + 1) = t := by
    rw [← List.drop_drop, ht, List.drop_one, List.tail_cons]
  fun_induction occurrencesFrom read n skip t with
  | case1 n skip =>
    refine .done fun o ho => ?_
    have hlt := ho.start_lt h
    rw [List.drop_eq_nil_iff] at ht
    omega
  | case2 n skip c t ih =>
    rw [show n + (skip + 1) = n + 1 + skip by omega]
    exact ih (hnext ht)
  | case3 n c t hnone ih =>
    refine (ih (hnext ht)).of_succ ?_
    rintro o ho rfl
    have hread := ho.read_drop h
    rw [ht, hnone] at hread
    cases hread
  | case4 n c t a rest hsome length ih =>
    obtain ⟨used, hused, htext⟩ := h.eq_some_iff.1 hsome
    have hpos := List.length_pos_iff.2 (h.ne_nil hused)
    have hlength : length = used.length := by
      have := congrArg List.length htext
      simp only [List.length_cons, List.length_append] at this
      omega
    have hsource : (Occurrence.mk n length a).source s = used := by
      rw [Occurrence.source, ht, htext, hlength, List.take_left]
    refine .pick ⟨?_, ?_⟩ (Nat.le_refl n) (fun _ _ hle => hle) ?_
    · rwa [hsource]
    · rw [hsource, hlength]
    · rw [show n + length = n + 1 + (length - 1) by omega]
      exact ih (hnext ht)

lemma picked_iff {read : Reader α} {P : α → List Char → Prop} (h : read.Accepts P)
    {s : List Char} {os : List (Occurrence α)} :
    Picked (Occurrence.StandsIn P s) 0 os ↔ os = occurrences read s := by
  have hpicked : Picked (Occurrence.StandsIn P s) 0 (occurrences read s) :=
    picked_occurrencesFrom h 0 0 rfl
  constructor
  · exact fun hos => hos.unique (fun _ _ ho ho' => ho.unique h ho') hpicked
  · rintro rfl
    exact hpicked

/-- Nothing is read where no occurrence is. -/
lemma read_eq_none_of_not_covers {read : Reader α} {P : α → List Char → Prop} (h : read.Accepts P)
    {u v : List Char} (hnone : ∀ o ∈ occurrences read (u ++ v), ¬ o.Covers u.length) :
    read v = none := by
  by_contra hsome
  obtain ⟨⟨a, rest⟩, hread⟩ := Option.ne_none_iff_exists'.1 hsome
  obtain ⟨used, hused, rfl⟩ := h.eq_some_iff.1 hread
  have hstands : (Occurrence.mk u.length used.length a).StandsIn P (u ++ (used ++ rest)) :=
    .of_eq hused rfl rfl rfl
  have hpicked := (picked_iff h).2 (rfl : occurrences read (u ++ (used ++ rest)) = _)
  obtain ⟨o, ho, hcover⟩ := hpicked.exists_covers hstands (Nat.zero_le _)
  exact hnone o ho hcover

/-! ### Where occurrences lie -/

lemma start_of_mem_occurrencesFrom {read : Reader α} {pos skip : Nat} {s : List Char}
    {o : Occurrence α} (ho : o ∈ occurrencesFrom read pos skip s) : pos + skip ≤ o.start := by
  fun_induction occurrencesFrom read pos skip s with
  | case1 => cases ho
  | case2 pos skip c s ih =>
    have := ih ho
    omega
  | case3 pos c s hnone ih =>
    have := ih ho
    omega
  | case4 pos c s a rest hsome length ih =>
    rcases List.mem_cons.1 ho with rfl | ho
    · exact Nat.le_refl pos
    · have := ih ho
      omega

lemma end_of_mem_occurrencesFrom {read : Reader α} {pos skip : Nat} {s : List Char}
    {o : Occurrence α} (ho : o ∈ occurrencesFrom read pos skip s) :
    o.start < pos + s.length ∧ o.start + o.length ≤ pos + s.length := by
  fun_induction occurrencesFrom read pos skip s with
  | case1 => cases ho
  | case2 pos skip c s ih =>
    have := ih ho
    rw [List.length_cons]
    omega
  | case3 pos c s hnone ih =>
    have := ih ho
    rw [List.length_cons]
    omega
  | case4 pos c s a rest hsome length ih =>
    rw [List.length_cons]
    rcases List.mem_cons.1 ho with rfl | ho
    · simp only
      omega
    · have := ih ho
      omega

/-- The occurrence, `k` characters later. -/
def Occurrence.shift (k : Nat) (o : Occurrence α) : Occurrence α := { o with start := k + o.start }

lemma occurrencesFrom_add (read : Reader α) (k pos skip : Nat) (s : List Char) :
    occurrencesFrom read (k + pos) skip s =
      (occurrencesFrom read pos skip s).map (Occurrence.shift k) := by
  induction s generalizing pos skip with
  | nil => rfl
  | cons c s ih =>
    cases skip with
    | succ skip => exact ih (pos + 1) skip
    | zero =>
      cases hread : read (c :: s) with
      | none =>
        simp only [occurrencesFrom, hread]
        exact ih (pos + 1) 0
      | some r =>
        simp only [occurrencesFrom, hread, List.map_cons]
        rw [Nat.add_assoc, ih (pos + 1)]
        rfl

/-! ### Cutting a scan -/

/-- How far the occurrences that begin before position `n` reach past it. -/
def reach (os : List (Occurrence α)) (n : Nat) : Nat :=
  ((os.filter (·.start < n)).map fun o => o.start + o.length - n).foldr max 0

lemma reach_cons (o : Occurrence α) (os : List (Occurrence α)) {n : Nat} (hn : o.start < n) :
    reach (o :: os) n = max (o.start + o.length - n) (reach os n) := by
  simp [reach, hn]

lemma reach_of_forall_le {os : List (Occurrence α)} {n : Nat} (h : ∀ o ∈ os, n ≤ o.start) :
    reach os n = 0 := by
  have hnil : os.filter (·.start < n) = [] := by
    simpa [List.filter_eq_nil_iff] using h
  rw [reach, hnil]
  rfl

lemma reach_eq_zero_iff {os : List (Occurrence α)} {n : Nat} :
    reach os n = 0 ↔ ∀ o ∈ os, o.start < n → o.start + o.length ≤ n := by
  induction os with
  | nil => simp [reach]
  | cons o os ih =>
    rw [List.forall_mem_cons, ← ih]
    by_cases hn : o.start < n
    · rw [reach_cons o os hn, Nat.max_eq_zero_iff, Nat.sub_eq_zero_iff_le]
      simp [hn]
    · have hreach : reach (o :: os) n = reach os n := by simp [reach, hn]
      rw [hreach]
      simp [hn]

/-- A scan is cut at the end of `u`: what begins later is found as if the scan began there, only
that some characters belong to an occurrence that begins in `u`. -/
lemma occurrencesFrom_append (read : Reader α) (pos skip : Nat) (u v : List Char) :
    let os := occurrencesFrom read pos skip (u ++ v)
    let n := pos + u.length
    os = os.filter (·.start < n) ++
      occurrencesFrom read n (max (skip - u.length) (reach os n)) v := by
  induction u generalizing pos skip with
  | nil =>
    intro os n
    have hstart : ∀ o ∈ os, n ≤ o.start := fun o ho => by
      have := start_of_mem_occurrencesFrom ho
      exact Nat.le_trans (Nat.le_add_right pos skip) this
    have hfilter : os.filter (·.start < n) = [] := by
      simpa [List.filter_eq_nil_iff] using hstart
    rw [hfilter, reach_of_forall_le hstart]
    simp [os, n]
  | cons c u ih =>
    have hn : pos + (u.length + 1) = pos + 1 + u.length := by omega
    simp only [List.cons_append, List.length_cons, hn]
    cases skip with
    | succ skip =>
      rw [occurrencesFrom, Nat.add_sub_add_right]
      exact ih (pos + 1) skip
    | zero =>
      cases hread : read (c :: (u ++ v)) with
      | none =>
        have ih := ih (pos + 1) 0
        simp only [Nat.zero_sub] at ih ⊢
        rw [occurrencesFrom, hread]
        exact ih
      | some r =>
        obtain ⟨a, rest⟩ := r
        rw [occurrencesFrom, hread]
        simp only
        generalize hlength : (u ++ v).length + 1 - rest.length = length
        have ih := ih (pos + 1) (length - 1)
        have hlt : (Occurrence.mk pos length a).start < pos + 1 + u.length := by
          simp only
          omega
        simp only at ih
        rw [List.filter_cons_of_pos (by simpa using hlt), List.cons_append, reach_cons _ _ hlt,
          show 0 - (u.length + 1) = 0 by omega, Nat.zero_max,
          show pos + length - (pos + 1 + u.length) = length - 1 - u.length by omega, ← ih]

/-- A scan is cut at a position that no occurrence covers. -/
lemma occurrences_append_of_not_covers {read : Reader α} {u v : List Char}
    (hnone : ∀ o ∈ occurrences read (u ++ v), ¬ o.Covers u.length) :
    occurrences read (u ++ v) = (occurrences read (u ++ v)).filter (·.start < u.length) ++
      occurrencesFrom read u.length 0 v := by
  have hreach : reach (occurrences read (u ++ v)) u.length = 0 := by
    refine reach_eq_zero_iff.2 fun o ho hlt => ?_
    by_contra hend
    exact hnone o ho ⟨Nat.le_of_lt hlt, Nat.lt_of_not_le hend⟩
  have hcut := occurrencesFrom_append read 0 0 u v
  simp only [Nat.zero_add, Nat.zero_sub, Nat.zero_max] at hcut
  rw [← occurrences, hreach] at hcut
  exact hcut

/-- Nothing is read at any place of `u`, whatever follows. -/
def Idle (f : List Char → Option β) (u : List Char) : Prop :=
  ∀ y, y <:+ u → y ≠ [] → ∀ v, f (y ++ v) = none

namespace Idle

variable {f : List Char → Option β} {u w : List Char}

lemma nil (f : List Char → Option β) : Idle f [] :=
  fun _ hy hne => absurd (List.suffix_nil.1 hy) hne

lemma cons {c : Char} (hc : ∀ v, f (c :: u ++ v) = none) (hu : Idle f u) : Idle f (c :: u) := by
  intro y hy hne v
  rcases List.suffix_cons_iff.1 hy with rfl | hy
  · exact hc v
  · exact hu y hy hne v

lemma append (hu : Idle f u) (hw : Idle f w) : Idle f (u ++ w) := by
  induction u with
  | nil => exact hw
  | cons c u ih =>
    refine cons (fun v => ?_) (ih fun y hy => hu y (List.suffix_cons_iff.2 (.inr hy)))
    have hnone := hu _ List.suffix_rfl (List.cons_ne_nil c u) (w ++ v)
    rwa [← List.append_assoc] at hnone

lemma flatMap {γ : Type} {g : γ → List Char} {l : List γ} (h : ∀ a ∈ l, Idle f (g a)) :
    Idle f (l.flatMap g) := by
  induction l with
  | nil => exact nil f
  | cons a l ih =>
    rw [List.forall_mem_cons] at h
    exact h.1.append (ih h.2)

/-- A text without the character that all readings begin with. -/
lemma of_not_mem {c : Char} (hf : ∀ d s, d ≠ c → f (d :: s) = none) (hc : c ∉ u) : Idle f u := by
  induction u with
  | nil => exact nil f
  | cons d u ih =>
    rw [List.mem_cons, not_or] at hc
    exact cons (fun v => hf d _ (Ne.symm hc.1)) (ih hc.2)

lemma not_infix (hu : Idle f u) {w : List Char} (hne : w ≠ [])
    (hw : ∀ v, (f (w ++ v)).isSome = true) : ¬ w <:+: u := by
  rintro ⟨x, y, rfl⟩
  have hsuffix : w ++ y <:+ x ++ w ++ y := ⟨x, (List.append_assoc x w y).symm⟩
  have hnone := hu (w ++ y) hsuffix (by simp [hne]) []
  have hsome := hw (y ++ [])
  rw [← List.append_assoc, hnone] at hsome
  cases hsome

end Idle

/-- No occurrence reaches from `u` into what follows. -/
def Reader.Separates (read : Reader α) (u : List Char) : Prop :=
  ∀ pos v, occurrencesFrom read pos 0 (u ++ v) =
    occurrencesFrom read pos 0 u ++ occurrencesFrom read (pos + u.length) 0 v

namespace Reader.Separates

variable {read : Reader α} {u w : List Char}

lemma append (hu : read.Separates u) (hw : read.Separates w) : read.Separates (u ++ w) := by
  intro pos v
  rw [List.append_assoc, hu, hw, hu pos w, List.append_assoc, List.length_append, Nat.add_assoc]

lemma flatMap {γ : Type} {g : γ → List Char} {l : List γ} (h : ∀ a ∈ l, read.Separates (g a)) :
    read.Separates (l.flatMap g) := by
  induction l with
  | nil => exact fun _ _ => rfl
  | cons a l ih =>
    rw [List.forall_mem_cons] at h
    exact h.1.append (ih h.2)

end Reader.Separates

lemma occurrencesFrom_idle_append {read : Reader α} {u : List Char} (hu : Idle read u)
    (pos : Nat) (v : List Char) :
    occurrencesFrom read pos 0 (u ++ v) = occurrencesFrom read (pos + u.length) 0 v := by
  induction u generalizing pos with
  | nil => rfl
  | cons c u ih =>
    have hnone := hu _ List.suffix_rfl (List.cons_ne_nil c u) v
    have hu : Idle read u := fun y hy => hu y (List.suffix_cons_iff.2 (.inr hy))
    rw [List.cons_append] at hnone ⊢
    rw [occurrencesFrom, hnone]
    simp only
    rw [ih hu, List.length_cons, Nat.add_right_comm, Nat.add_assoc]

lemma occurrencesFrom_idle {read : Reader α} {u : List Char} (hu : Idle read u) (pos : Nat) :
    occurrencesFrom read pos 0 u = [] := by
  simpa [occurrencesFrom] using occurrencesFrom_idle_append hu pos []

lemma Idle.separates {read : Reader α} {u : List Char} (hu : Idle read u) : read.Separates u := by
  intro pos v
  rw [occurrencesFrom_idle_append hu, occurrencesFrom_idle hu, List.nil_append]

namespace Reader.Accepts

variable {read : Reader α} {P : α → List Char → Prop} {a : α} {u : List Char}

lemma occurrencesFrom_append (h : read.Accepts P) (hu : P a u) (pos : Nat) (v : List Char) :
    occurrencesFrom read pos 0 (u ++ v) =
      ⟨pos, u.length, a⟩ :: occurrencesFrom read (pos + u.length) 0 v := by
  have hread := h.read_append hu v
  obtain ⟨c, u, rfl⟩ := List.exists_cons_of_ne_nil (h.ne_nil hu)
  have hlength : (u ++ v).length + 1 - v.length = u.length + 1 := by
    rw [List.length_append]
    omega
  rw [List.cons_append] at hread ⊢
  rw [occurrencesFrom, hread]
  simp only [hlength, Nat.add_sub_cancel]
  rw [occurrencesFrom_skip, List.drop_left, List.length_cons, Nat.add_right_comm, Nat.add_assoc]

lemma occurrencesFrom_eq (h : read.Accepts P) (hu : P a u) (pos : Nat) :
    occurrencesFrom read pos 0 u = [⟨pos, u.length, a⟩] := by
  simpa [occurrencesFrom] using h.occurrencesFrom_append hu pos []

/-- Texts that are read one after the other are found in order, each where the ones before it
end. -/
lemma occurrencesFrom_flatMap (h : read.Accepts P) {γ : Type} {g : γ → List Char} {value : γ → α}
    {l : List γ} (hl : ∀ c ∈ l, P (value c) (g c)) (pos : Nat) :
    (occurrencesFrom read pos 0 (l.flatMap g)).map (·.value) = l.map value ∧
      (occurrencesFrom read pos 0 (l.flatMap g)).map (·.start) =
        (List.range l.length).map fun i => pos + ((l.take i).flatMap g).length := by
  induction l generalizing pos with
  | nil => exact ⟨rfl, rfl⟩
  | cons c l ih =>
    rw [List.forall_mem_cons] at hl
    obtain ⟨hvalue, hstart⟩ := ih hl.2 (pos + (g c).length)
    rw [List.flatMap_cons, h.occurrencesFrom_append hl.1]
    refine ⟨by simp [hvalue], ?_⟩
    rw [List.map_cons, hstart, List.length_cons, List.range_succ_eq_map, List.map_cons,
      List.map_map]
    simp [Nat.add_assoc, Function.comp_def]

lemma separates (h : read.Accepts P) (hu : P a u) : read.Separates u := by
  intro pos v
  rw [h.occurrencesFrom_append hu, h.occurrencesFrom_eq hu, List.singleton_append]

end Reader.Accepts

end LiquidCatalog.Text

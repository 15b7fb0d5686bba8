import Mathlib

namespace GaussMatrix.SortedScan

open List Std

section

variable {A : Type} [Ord A]

theorem compare_cons (a b : A) (as bs : List A) : compare (a :: as) (b :: bs) = (compare a b).then (compare as bs) :=
  List.compareLex_cons_cons

variable [Std.LawfulEqOrd A]

theorem compare_self (a : A) : compare a a = .eq := ReflCmp.compare_self

theorem compare_append (shared left right : List A) :
    compare (shared ++ left) (shared ++ right) = compare left right := by
  induction shared with
  | nil => rfl
  | cons a shared ih => rw [cons_append, cons_append, compare_cons, compare_self, ih]; rfl

theorem below_not_extends {pfx key : List A} (below : compare key pfx = .lt) : ¬ pfx <+: key := by
  intro inside
  obtain ⟨rest, same⟩ := inside
  subst same
  induction pfx with
  | nil => cases rest <;> cases below
  | cons a pfx ih =>
    rw [cons_append, compare_cons, compare_self] at below
    exact ih below

theorem block_ends (pfx key later : List A) (reached : compare key pfx ≠ .lt) (outside : ¬ pfx <+: key)
    (ordered : compare key later = .lt) : ¬ pfx <+: later := by
  induction pfx generalizing key later with
  | nil => exact absurd nil_prefix outside
  | cons a pfx ih =>
    cases key with
    | nil => exact absurd rfl reached
    | cons b key =>
      cases later with
      | nil => cases ordered
      | cons c later =>
        rw [compare_cons] at reached ordered
        intro inside
        obtain ⟨same, tail⟩ := cons_prefix_cons.mp inside
        subst same
        cases order : compare b a with
        | lt => exact reached (by rw [order]; rfl)
        | gt => rw [order] at ordered; cases ordered
        | eq =>
          rw [order] at reached ordered
          cases LawfulEqOrd.eq_of_compare order
          exact ih key later reached (fun both => outside (cons_prefix_cons.mpr ⟨rfl, both⟩)) ordered tail

theorem extends_not_below {pfx key : List A} (inside : pfx <+: key) : compare key pfx ≠ .lt :=
  fun below => below_not_extends below inside

theorem block_convex [TransOrd A] {pfx low key high : List A} (first : pfx <+: low) (last : pfx <+: high)
    (above : compare low key = .lt) (below : compare key high = .lt) : pfx <+: key := by
  by_contra outside
  refine block_ends pfx key high (fun under => ?_) outside below last
  exact extends_not_below first (TransCmp.lt_trans above under)

variable [DecidableEq A]

def scan (keys : List (List A)) (pfx : List A) : List (List A) :=
  (keys.dropWhile fun key => compare key pfx == .lt).takeWhile fun key => decide (pfx <+: key)

theorem walk_block {keys : List (List A)} {pfx : List A} (ascending : keys.Pairwise fun a b => compare a b = .lt)
    (reached : ∀ key ∈ keys, compare key pfx ≠ .lt) :
    (keys.takeWhile fun key => decide (pfx <+: key)) = keys.filter fun key => decide (pfx <+: key) := by
  induction keys with
  | nil => rfl
  | cons key keys ih =>
    obtain ⟨head, tail⟩ := pairwise_cons.mp ascending
    by_cases inside : pfx <+: key
    · rw [takeWhile_cons_of_pos (by simpa using inside), filter_cons_of_pos (by simpa using inside),
        ih tail (fun other member => reached other (by simp [member]))]
    · rw [takeWhile_cons_of_neg (by simpa using inside), filter_cons_of_neg (by simpa using inside)]
      refine (filter_eq_nil_iff.mpr fun other member => ?_).symm
      simpa using block_ends pfx key other (reached key (by simp)) inside (head other member)

theorem scan_filter [TransOrd A] {keys : List (List A)} (pfx : List A)
    (ascending : keys.Pairwise fun a b => compare a b = .lt) :
    scan keys pfx = keys.filter fun key => decide (pfx <+: key) := by
  induction keys with
  | nil => rfl
  | cons key keys ih =>
    obtain ⟨head, tail⟩ := pairwise_cons.mp ascending
    by_cases below : compare key pfx = .lt
    · have outside := below_not_extends below
      rw [scan, dropWhile_cons_of_pos (by simp [below]), filter_cons_of_neg (by simpa using outside)]
      exact ih tail
    · rw [scan, dropWhile_cons_of_neg (by simp [below])]
      refine walk_block ascending fun other member => ?_
      rcases mem_cons.mp member with same | later
      · rwa [same]
      · intro less
        exact below (TransCmp.lt_trans (head other later) less)

end

variable {A : Type} {sep : A}

theorem extends_separated {pfx : List A} {field rest : List A} (plain : sep ∉ pfx) :
    pfx <+: field ++ sep :: rest ↔ pfx <+: field := by
  constructor
  · intro inside
    rcases prefix_or_prefix_of_prefix inside (prefix_append field (sep :: rest)) with shorter | longer
    · exact shorter
    · obtain ⟨more, same⟩ := longer
      subst same
      cases more with
      | nil => simp
      | cons a more =>
        have first := (prefix_append_right_inj field).mp inside
        obtain ⟨isSep, _⟩ := cons_prefix_cons.mp first
        exact absurd (by simp [isSep]) plain
  · intro inside
    exact inside.trans (prefix_append _ _)

theorem separated_injective {field other rest otherRest : List A} (plain : sep ∉ field) (otherPlain : sep ∉ other)
    (same : field ++ sep :: rest = other ++ sep :: otherRest) : field = other ∧ rest = otherRest := by
  induction field generalizing other with
  | nil =>
    cases other with
    | nil => exact ⟨rfl, (cons.inj same).2⟩
    | cons first more =>
      have isSep : sep = first := (cons.inj same).1
      exact absurd (isSep ▸ mem_cons_self) otherPlain
  | cons head tail ih =>
    cases other with
    | nil =>
      have isSep : head = sep := (cons.inj same).1
      exact absurd (isSep ▸ mem_cons_self) plain
    | cons first more =>
      obtain ⟨heads, tails⟩ := cons.inj same
      obtain ⟨fields, rests⟩ := ih (fun member => plain (mem_cons_of_mem head member))
        (fun member => otherPlain (mem_cons_of_mem first member)) tails
      exact ⟨by rw [heads, fields], rests⟩

theorem separated_extends {field other rest otherRest : List A} (plain : sep ∉ field) (otherPlain : sep ∉ other) :
    field ++ sep :: rest <+: other ++ sep :: otherRest ↔ field = other ∧ rest <+: otherRest := by
  constructor
  · rintro ⟨more, whole⟩
    rw [append_assoc, cons_append] at whole
    obtain ⟨fields, rests⟩ := separated_injective plain otherPlain whole
    exact ⟨fields, more, rests⟩
  · rintro ⟨rfl, inside⟩
    exact (prefix_append_right_inj field).mpr (cons_prefix_cons.mpr ⟨rfl, inside⟩)

variable (cmp : A → A → Ordering)

def intersectHead (a : A) (rest : List A → List A) : List A → List A
  | [] => []
  | b :: bs =>
    match cmp a b with
    | .gt => intersectHead a rest bs
    | .lt => rest (b :: bs)
    | .eq => a :: rest bs

def intersectionSorted : List A → List A → List A
  | [] => fun _ => []
  | a :: as => intersectHead cmp a (intersectionSorted as)

variable [Std.LawfulEqCmp cmp]

theorem ordered_apart {a b : A} (less : cmp a b = .lt) : a ≠ b := by
  intro same
  have self : cmp a a = .eq := ReflCmp.compare_self
  rw [← same, self] at less
  cases less

theorem below_absent [TransCmp cmp] {x b : A} {bs : List A} (below : cmp x b = .lt) (first : ∀ y ∈ bs, cmp b y = .lt) :
    x ∉ b :: bs := by
  intro member
  rcases mem_cons.mp member with isB | later
  · exact ordered_apart cmp below isB
  · exact ordered_apart cmp (TransCmp.lt_trans below (first x later)) rfl

theorem intersection_sorted_member [TransCmp cmp] (as bs : List A) (left : as.Pairwise fun a b => cmp a b = .lt)
    (right : bs.Pairwise fun a b => cmp a b = .lt) (x : A) : x ∈ intersectionSorted cmp as bs ↔ x ∈ as ∧ x ∈ bs := by
  induction as generalizing bs with
  | nil => simp [intersectionSorted]
  | cons a as ih =>
    obtain ⟨head, tail⟩ := pairwise_cons.mp left
    rw [intersectionSorted]
    induction bs with
    | nil => simp [intersectHead]
    | cons b bs inner =>
      obtain ⟨first, others⟩ := pairwise_cons.mp right
      cases order : cmp a b with
      | lt =>
        have dropped : x ∈ b :: bs → x ≠ a := by
          intro member isA
          exact below_absent cmp order first (isA ▸ member)
        simp only [intersectHead, order, ih (b :: bs) tail right]
        exact and_congr_left fun member => (mem_cons.trans (or_iff_right (dropped member))).symm
      | gt =>
        have dropped : x ∈ a :: as → x ≠ b := by
          intro member isB
          exact below_absent cmp (OrientedCmp.lt_of_gt order) head (isB ▸ member)
        simp only [intersectHead, order, inner others]
        exact and_congr_right fun member => (mem_cons.trans (or_iff_right (dropped member))).symm
      | eq =>
        cases LawfulEqCmp.eq_of_compare order
        simp only [intersectHead, order, mem_cons, ih bs tail others]
        exact or_and_left

end GaussMatrix.SortedScan

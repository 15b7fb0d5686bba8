import GaussMatrix.Library.Collections
import GaussMatrix.Library.SortedScan

namespace GaussMatrix.Ranges

open Collections List SortedScan Std ExtTreeMap

section

variable {A : Type} {p : A → Bool} {items : List A}

def Ends (p : A → Bool) (items : List A) : Prop := items.Pairwise fun a b => p a = false → p b = false

theorem take_while_filter (ends : Ends p items) : items.takeWhile p = items.filter p := by
  induction items with
  | nil => rfl
  | cons head tail ih =>
    obtain ⟨later, rest⟩ := pairwise_cons.mp ends
    cases holds : p head with
    | true => rw [takeWhile_cons_of_pos holds, filter_cons_of_pos holds, ih rest]
    | false =>
      rw [takeWhile_cons_of_neg (by simp [holds]), filter_cons_of_neg (by simp [holds])]
      exact (filter_eq_nil_iff.mpr fun other member => by simp [later other member holds]).symm

theorem drop_while_filter (ends : Ends p items) : items.dropWhile p = items.filter fun item => !p item := by
  induction items with
  | nil => rfl
  | cons head tail ih =>
    obtain ⟨later, rest⟩ := pairwise_cons.mp ends
    cases holds : p head with
    | true => rw [dropWhile_cons_of_pos holds, filter_cons_of_neg (by simp [holds]), ih rest]
    | false =>
      rw [dropWhile_cons_of_neg (by simp [holds]), filter_cons_of_pos (by simp [holds])]
      exact congrArg (head :: ·) (filter_eq_self.mpr fun other member => by simp [later other member holds]).symm

variable {K V : Type} [Ord K] [TransOrd K]

section

variable (map : BTreeMap K V) (start : K)

def forward : List (K × V) := map.toList.dropWhile fun row => compare row.1 start == .lt

def backward : List (K × V) := map.toList.reverse.dropWhile fun row => compare row.1 start == .gt

theorem forward_filter : forward map start = map.toList.filter fun row => compare row.1 start != .lt := by
  refine drop_while_filter (ordered_keys_toList.imp fun {a b} less here => ?_)
  rw [beq_eq_false_iff_ne] at here ⊢
  exact fun below => here (TransCmp.lt_trans less below)

theorem backward_filter : backward map start = (map.toList.filter fun row => compare row.1 start != .gt).reverse := by
  rw [← filter_reverse]
  refine drop_while_filter (pairwise_reverse.mpr (ordered_keys_toList.imp fun {a b} less here => ?_))
  rw [beq_eq_false_iff_ne] at here ⊢
  exact fun above => here (TransCmp.gt_trans (OrientedCmp.gt_of_lt less) above)

end

variable [LawfulEqOrd K]

structure First (map : BTreeMap K V) (meets : K → Bool) (row : K × V) : Prop where
  held : map[row.1]? = some row.2
  met : meets row.1
  least : ∀ key ∈ map, meets key → compare row.1 key ≠ .gt

theorem first_head (map : BTreeMap K V) (meets : K → Bool) (row : K × V) :
    (map.toList.filter fun row => meets row.1).head? = some row ↔ First map meets row := by
  have sorted := (ordered_keys_toList (t := map)).filter fun row => meets row.1
  have listed : ∀ other, other ∈ (map.toList.filter fun row => meets row.1) ↔ map[other.1]? = some other.2 ∧
    meets other.1 := by
    intro other
    rw [mem_filter, mem_toList_iff_getElem?_eq_some]
  cases rows : map.toList.filter fun row => meets row.1 with
  | nil =>
    refine iff_of_false (by simp) fun first => ?_
    have member := (listed row).mpr ⟨first.held, first.met⟩
    rw [rows] at member
    cases member
  | cons head tail =>
    rw [rows] at sorted listed
    obtain ⟨below, _⟩ := pairwise_cons.mp sorted
    have least : ∀ other ∈ head :: tail, compare head.1 other.1 ≠ .gt := by
      intro other member
      rcases mem_cons.mp member with rfl | later
      · have equal : compare other.1 other.1 = .eq := ReflCmp.compare_self
        rw [equal]
        exact nofun
      · rw [below other later]
        exact nofun
    obtain ⟨held, met⟩ := (listed head).mp mem_cons_self
    rw [head?_cons, Option.some.injEq]
    constructor
    · rintro rfl
      refine ⟨held, met, fun key member keyMet => ?_⟩
      have found := ExtTreeMap.getElem?_eq_some_getElem member
      exact least (key, map[key]) ((listed _).mpr ⟨found, keyMet⟩)
    · intro first
      have upper := least row ((listed row).mpr ⟨first.held, first.met⟩)
      have lower := first.least head.1 (mem_iff_read.mpr ⟨_, held⟩) met
      have same : head.1 = row.1 := by
        cases order : compare head.1 row.1 with
        | lt => exact absurd (OrientedCmp.gt_of_lt order) lower
        | eq => exact LawfulEqOrd.eq_of_compare order
        | gt => exact absurd order upper
      refine Prod.ext same (Option.some.inj ?_)
      rw [← held, same, first.held]

theorem insert_last {map : BTreeMap K V} {key : K} {value : V} (beyond : ∀ other ∈ map, compare other key = .lt) :
    (map.insert key value).toList = map.toList ++ [(key, value)] := by
  have irrefl : Irrefl fun a b : K × V => compare a.1 b.1 = .lt := ⟨fun row less => by
    have equal : compare row.1 row.1 = .eq := ReflCmp.compare_self
    rw [less] at equal
    cases equal⟩
  have antisymm : Antisymm fun a b : K × V => compare a.1 b.1 = .lt :=
    ⟨fun a b less more => absurd (TransCmp.lt_trans less more) (irrefl.irrefl a)⟩
  have listed : (map.toList ++ [(key, value)]).Pairwise fun a b => compare a.1 b.1 = .lt := by
    refine pairwise_append.mpr ⟨ordered_keys_toList, pairwise_singleton _ _, fun row member other last => ?_⟩
    rw [mem_singleton.mp last]
    have read := mem_toList_iff_getElem?_eq_some.mp member
    exact beyond row.1 (mem_iff_read.mpr ⟨_, read⟩)
  refine List.Pairwise.eq_of_mem_iff ordered_keys_toList listed fun row => ?_
  rw [mem_toList_iff_getElem?_eq_some, mem_append, mem_singleton, mem_toList_iff_getElem?_eq_some]
  by_cases here : row.1 = key
  · have absent : map[row.1]? = none := by
      refine ExtTreeMap.getElem?_eq_none fun present => ?_
      have less := beyond row.1 present
      rw [here] at less
      exact irrefl.irrefl (key, value) less
    rw [absent, here, ExtTreeMap.getElem?_insert_self, Option.some.injEq]
    refine ⟨fun same => .inr (Prod.ext here same.symm), fun either => ?_⟩
    rcases either with impossible | same
    · cases impossible
    · rw [same]
  · rw [insert_elsewhere here]
    exact ⟨.inl, fun either => either.resolve_right fun same => here (congrArg Prod.fst same)⟩

def successor (map : BTreeMap K V) (point : K) : Option (K × V) := (forward map point).head?.or map.toList.head?

variable {point : K}

theorem successor_iff {map : BTreeMap K V} {row : K × V} : successor map point = some row ↔
      First map (fun key => compare key point != .lt) row ∨ (∀ key ∈ map, compare key point = .lt) ∧ First map (fun _ => true) row := by
  have whole : map.toList.head? = some row ↔ First map (fun _ => true) row := by
    rw [← first_head, filter_true]
  have none : (forward map point).head? = none ↔ ∀ key ∈ map, compare key point = .lt := by
    rw [forward_filter, head?_eq_none_iff, filter_eq_nil_iff]
    constructor
    · intro empty key member
      have found := mem_toList_iff_getElem?_eq_some.mpr (ExtTreeMap.getElem?_eq_some_getElem member)
      simpa using empty _ found
    · intro below other member
      have read := mem_toList_iff_getElem?_eq_some.mp member
      simpa using below other.1 (mem_iff_read.mpr ⟨_, read⟩)
  have block := first_head map (fun key => compare key point != .lt) row
  rw [successor, Option.or_eq_some_iff, none, whole, forward_filter, block]

theorem successor_kept {wider map : BTreeMap K V} {row : K × V} (next : successor wider point = some row)
    (held : map[row.1]? = some row.2) (within : ∀ key ∈ map, key ∈ wider) : successor map point = some row := by
  rcases successor_iff.mp next with first | ⟨below, first⟩
  · exact successor_iff.mpr (.inl ⟨held, first.met, fun key member => first.least key (within key member)⟩)
  · refine successor_iff.mpr (.inr ⟨fun key member => below key (within key member), held, rfl, ?_⟩)
    exact fun key member => first.least key (within key member)

theorem successor_held {map : BTreeMap K V} {row : K × V} (next : successor map point = some row) :
    map[row.1]? = some row.2 := by
  rcases successor_iff.mp next with first | ⟨_, first⟩
  · exact first.held
  · exact first.held

theorem successor_exists {map : BTreeMap K V} {key : K} (member : key ∈ map) :
    ∃ row, successor map point = some row := by
  have listed := mem_toList_iff_getElem?_eq_some.mpr (ExtTreeMap.getElem?_eq_some_getElem member)
  cases next : successor map point with
  | some row => exact ⟨row, rfl⟩
  | none =>
    have empty := head?_eq_none_iff.mp (Option.or_eq_none_iff.mp next).2
    rw [empty] at listed
    cases listed

end

variable {A V : Type} [Ord A] [TransOrd A] [LawfulEqOrd A] [DecidableEq A] {pfx start : List A}

theorem forward_block {map : BTreeMap (List A) V} (inside : pfx <+: start) :
    ((forward map start).takeWhile fun row => decide (pfx <+: row.1)) =
      map.toList.filter fun row => decide (pfx <+: row.1) && compare row.1 start != .lt := by
  have ends : Ends (fun row : List A × V => decide (pfx <+: row.1)) (forward map start) := by
    rw [forward_filter]
    refine List.Pairwise.imp_of_mem (fun {low high} lowMember _ less outside => ?_) (ordered_keys_toList.filter _)
    rw [decide_eq_false_iff_not] at outside ⊢
    intro later
    have reached : compare low.1 start ≠ .lt := by simpa using (mem_filter.mp lowMember).2
    cases order : compare start low.1 with
    | lt => exact outside (block_convex inside later order less)
    | eq => exact outside (LawfulEqOrd.eq_of_compare order ▸ inside)
    | gt => exact reached (OrientedCmp.lt_of_gt order)
  rw [take_while_filter ends, forward_filter, filter_filter]

theorem backward_block {map : BTreeMap (List A) V} (inside : pfx <+: start) :
    ((backward map start).takeWhile fun row => decide (pfx <+: row.1)) =
      (map.toList.filter fun row => decide (pfx <+: row.1) && compare row.1 start != .gt).reverse := by
  have ends : Ends (fun row : List A × V => decide (pfx <+: row.1)) (backward map start) := by
    rw [backward_filter]
    refine pairwise_reverse.mpr (List.Pairwise.imp_of_mem (fun {low high} _ highMember less outside => ?_) (ordered_keys_toList.filter _))
    rw [decide_eq_false_iff_not] at outside ⊢
    intro later
    have reached : compare high.1 start ≠ .gt := by simpa using (mem_filter.mp highMember).2
    cases order : compare high.1 start with
    | lt => exact outside (block_convex later inside less order)
    | eq => exact outside (LawfulEqOrd.eq_of_compare order ▸ inside)
    | gt => exact reached order
  rw [take_while_filter ends, backward_filter, filter_reverse, filter_filter]

end GaussMatrix.Ranges

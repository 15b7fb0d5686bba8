import Mathlib

open List

namespace GaussMatrix.Utils

variable {Item : Type} [LinearOrder Item]

def inAll (input : List (List Item)) (targ : Item) : Bool := input.all fun other => other.any (· = targ)

def intersection : List (List Item) → List Item
  | [] => []
  | first :: input => first.filter (inAll input)

-- Peeking takes the first item that is not below targ from the borrowed iterator, also where it is not targ.
def look (targ : Item) (it : List Item) : Bool × List Item :=
  let left := it.dropWhile (· < targ)
  (left.head? = some targ, left.tail)

def lookAll (targ : Item) : List (List Item) → Bool × List (List Item)
  | [] => (true, [])
  | it :: input =>
    if (look targ it).1 then ((lookAll targ input).1, (look targ it).2 :: (lookAll targ input).2)
    else (false, (look targ it).2 :: input)

def filterSorted : List Item → List (List Item) → List Item
  | [], _ => []
  | targ :: first, input =>
    let looked := lookAll targ input
    if looked.1 then targ :: filterSorted first looked.2 else filterSorted first looked.2

def intersectionSorted : List (List Item) → List Item
  | [] => []
  | first :: input => filterSorted first input

def between (list : List Item) (low high : Item) : Nat := list.countP fun item => low ≤ item ∧ item < high

-- Each look takes an item away, so targ is still there when its turn comes only if from every earlier target on the
-- list has as many items below targ as there are targets.
def Reached (targets it : List Item) (targ : Item) : Prop :=
  targ ∈ it ∧ ∀ earlier ∈ targets, earlier < targ → between targets earlier targ ≤ between it earlier targ

instance (targets it : List Item) (targ : Item) : Decidable (Reached targets it targ) :=
  inferInstanceAs (Decidable (targ ∈ it ∧ ∀ earlier ∈ targets, earlier < targ →
    between targets earlier targ ≤ between it earlier targ))

def sift (targets it : List Item) : List Item := targets.filter fun targ => Reached targets it targ

section

variable {list : List Item} {low high item : Item}

theorem between_cons : between (item :: list) low high = between list low high + if low ≤ item ∧
    item < high then 1 else 0 := by
  simp [between, countP_cons]

theorem between_mono {lower : Item} (below : lower ≤ low) : between list low high ≤ between list lower high :=
  countP_mono_left fun item _ inside => by
    simp only [decide_eq_true_eq] at inside ⊢
    exact ⟨below.trans inside.1, inside.2⟩

theorem between_none (none : ∀ item ∈ list, item < low ∨ high ≤ item) : between list low high = 0 := by
  rw [between, countP_eq_zero]
  intro item member inside
  simp only [decide_eq_true_eq] at inside
  rcases none item member with below | above
  · exact absurd inside.1 below.not_ge
  · exact absurd inside.2 above.not_gt

theorem between_from {lower : Item} (above : ∀ item ∈ list, low ≤ item) (below : lower ≤ low) :
    between list lower high = between list low high := by
  refine countP_congr fun item member => ?_
  simp [above item member, below.trans (above item member)]

end

theorem look_finds (targ : Item) {it : List Item} (ascending : it.SortedLT) :
    (look targ it).1 = decide (targ ∈ it) := by
  rw [look, decide_eq_decide]
  induction it with
  | nil => simp
  | cons item it ih =>
    have above := pairwise_cons.mp ascending.pairwise
    by_cases below : item < targ
    · simpa [below, below.ne'] using ih above.2.sortedLT
    · have absent : targ ∉ it := fun member => below (above.1 targ member)
      simp [below, absent, eq_comm]

theorem filter_sorted_cons (first it : List Item) (input : List (List Item)) :
    filterSorted first (it :: input) = filterSorted (filterSorted first [it]) input := by
  induction first generalizing it input with
  | nil => rfl
  | cons targ first ih =>
    rw [filterSorted, filterSorted, lookAll, lookAll, lookAll]
    by_cases found : (look targ it).1
    · simp only [found, if_true, filterSorted]
      rw [ih (look targ it).2 (lookAll targ input).2]
    · simp only [found, if_false, Bool.false_eq_true]
      exact ih (look targ it).2 input

-- The first item not below targ, if there is one, is the one the look takes.
theorem look_splits (targ : Item) {it : List Item} (ascending : it.SortedLT) :
    (look targ it).2 = [] ∧ (∀ item ∈ it, item < targ) ∨ ∃ low taken, it = low ++ taken :: (look targ it).2 ∧
    (∀ item ∈ low, item < targ) ∧ targ ≤ taken ∧ ∀ item ∈ (look targ it).2, taken < item := by
  have whole := takeWhile_append_dropWhile (p := (· < targ)) (l := it)
  have below : ∀ item ∈ it.takeWhile (· < targ), item < targ :=
    fun item member => by simpa using mem_takeWhile_imp member
  rw [look]
  cases left : it.dropWhile (· < targ) with
  | nil =>
    rw [left, append_nil] at whole
    exact .inl ⟨rfl, whole ▸ below⟩
  | cons taken rest =>
    have stops : ¬ taken < targ := by simpa [left] using head_dropWhile_not (· < targ) (l := it) (by simp [left])
    rw [left] at whole
    have ordered := (pairwise_append.mp (whole ▸ ascending.pairwise)).2.1
    exact .inr ⟨_, taken, whole.symm, below, not_lt.mp stops, (pairwise_cons.mp ordered).1⟩

theorem between_before {first list : List Item} {targ item : Item} (targets : (targ :: first).SortedLT)
    (member : item ∈ first)
    (enough : ∀ earlier ∈ first, earlier < item → between first earlier item ≤ between list earlier item) :
    between first targ item ≤ between list targ item := by
  obtain ⟨above, later⟩ := pairwise_cons.mp targets.pairwise
  cases first with
  | nil => cases member
  | cons next first =>
    have least : ∀ other ∈ next :: first, next ≤ other :=
      forall_mem_cons.mpr ⟨le_rfl, fun other isLater => ((pairwise_cons.mp later).1 other isLater).le⟩
    rw [between_from least (above next mem_cons_self).le]
    rcases (least item member).eq_or_lt with rfl | before
    · rw [between_none fun other isFirst => .inr (least other isFirst)]
      exact Nat.zero_le _
    · exact (enough next mem_cons_self before).trans (between_mono (above next mem_cons_self).le)

theorem reached_later {first it : List Item} {targ item : Item} (targets : (targ :: first).SortedLT)
    (ascending : it.SortedLT) (member : item ∈ first) :
    Reached (targ :: first) it item ↔ Reached first (look targ it).2 item := by
  obtain ⟨above, _⟩ := pairwise_cons.mp targets.pairwise
  have itemAbove := above item member
  rcases look_splits targ ascending with ⟨nothing, below⟩ | ⟨low, taken, split, below, stops, rest⟩
  · rw [Reached, Reached, nothing]
    exact iff_of_false (fun reached => (below item reached.1).not_gt itemAbove) fun reached => not_mem_nil reached.1
  have counted : ∀ from', targ ≤ from' → between it from' item =
      between (look targ it).2 from' item + if from' ≤ taken ∧ taken < item then 1 else 0 := by
    intro from' inside
    have skipped : between low from' item = 0 := between_none fun other isLow => .inl ((below other isLow).trans_le inside)
    rw [← between_cons]
    nth_rewrite 1 [split]
    rw [between, countP_append]
    exact (congrArg (· + _) skipped).trans (Nat.zero_add _)
  have own : between (targ :: first) targ item = between first targ item + 1 := by
    rw [between_cons, if_pos ⟨le_rfl, itemAbove⟩]
  have others : ∀ earlier ∈ first, between (targ :: first) earlier item = between first earlier item :=
    fun earlier isFirst => by
    rw [between_cons, if_neg fun inside => (above earlier isFirst).not_ge inside.1, Nat.add_zero]
  rw [Reached, Reached, forall_mem_cons]
  constructor
  · rintro ⟨held, fromTarg, fromLater⟩
    have enough := fromTarg itemAbove
    rw [own, counted targ le_rfl] at enough
    have passed : taken < item := by
      by_contra reaches
      have none : between (look targ it).2 targ item = 0 :=
        between_none fun other isRest => .inr ((not_lt.mp reaches).trans (rest other isRest).le)
      rw [none, if_neg fun inside => reaches inside.2] at enough
      omega
    rw [if_pos ⟨stops, passed⟩] at enough
    refine ⟨?_, fun earlier isFirst before => ?_⟩
    · rw [split, mem_append, mem_cons] at held
      rcases held with isLow | same | isRest
      · exact absurd (below item isLow) itemAbove.not_gt
      · exact absurd same.symm passed.ne
      · exact isRest
    · have old := fromLater earlier isFirst before
      rw [others earlier isFirst, counted earlier (above earlier isFirst).le] at old
      by_cases inside : earlier ≤ taken
      · have all : between (look targ it).2 targ item = between (look targ it).2 earlier item :=
          between_from (fun other isRest => inside.trans (rest other isRest).le) (above earlier isFirst).le
        have fewer : between first earlier item ≤ between first targ item := between_mono (above earlier isFirst).le
        omega
      · rw [if_neg fun both => inside both.1] at old
        exact old
  · rintro ⟨held, fromLater⟩
    have passed := rest item held
    refine ⟨split ▸ mem_append_right _ (mem_cons_of_mem _ held), fun _ => ?_, fun earlier isFirst before => ?_⟩
    · rw [own, counted targ le_rfl, if_pos ⟨stops, passed⟩]
      exact Nat.add_le_add_right (between_before targets member fromLater) 1
    · rw [others earlier isFirst, counted earlier (above earlier isFirst).le]
      exact (fromLater earlier isFirst before).trans (Nat.le_add_right _ _)

theorem filter_sorted_sift {first it : List Item} (targets : first.SortedLT) (ascending : it.SortedLT) :
    filterSorted first [it] = sift first it := by
  induction first generalizing it with
  | nil => rfl
  | cons targ first ih =>
    obtain ⟨above, later⟩ := pairwise_cons.mp targets.pairwise
    have left : (look targ it).2.SortedLT := (ascending.pairwise.sublist ((tail_sublist _).trans (dropWhile_sublist _))).sortedLT
    have head : Reached (targ :: first) it targ ↔ targ ∈ it := by
      refine and_iff_left ?_
      intro earlier member before
      rcases mem_cons.mp member with rfl | isFirst
      · exact absurd before (lt_irrefl _)
      · exact absurd before (above earlier isFirst).not_gt
    have tail : (first.filter fun item => Reached (targ :: first) it item) = sift first (look targ it).2 :=
      filter_congr fun item member => decide_eq_decide.mpr (reached_later targets ascending member)
    have found := look_finds targ ascending
    rw [sift, filter_cons, tail, ← ih later.sortedLT left, filterSorted, lookAll]
    by_cases held : targ ∈ it
    · simp [found, held, head, lookAll]
    · simp [found, held, head]

theorem sifted_sublist (first : List Item) (input : List (List Item)) : input.foldl sift first <+ first := by
  induction input generalizing first with
  | nil => exact Sublist.refl _
  | cons it input ih => exact (ih _).trans filter_sublist

theorem filter_sorted_sifts {first : List Item} {input : List (List Item)} (targets : first.SortedLT)
    (ascending : ∀ it ∈ input, it.SortedLT) : filterSorted first input = input.foldl sift first := by
  induction input generalizing first with
  | nil =>
    induction first with
    | nil => rfl
    | cons targ first ih => exact congrArg _ (ih (pairwise_cons.mp targets.pairwise).2.sortedLT)
  | cons it input ih =>
    rw [forall_mem_cons] at ascending
    rw [filter_sorted_cons, filter_sorted_sift targets ascending.1, foldl_cons]
    exact ih (targets.pairwise.sublist filter_sublist).sortedLT ascending.2

theorem mem_sifted {first : List Item} {input : List (List Item)} {targ : Item} : targ ∈ input.foldl sift first ↔
    targ ∈ first ∧ ∀ before it after, input = before ++ it :: after → Reached (before.foldl sift first) it targ := by
  induction input generalizing first with
  | nil => simp
  | cons other input ih =>
    rw [foldl_cons, ih, sift, mem_filter, decide_eq_true_iff, and_assoc]
    refine and_congr_right fun _ => ⟨?_, fun all => ⟨all [] other input rfl, fun before it after split => ?_⟩⟩
    · rintro ⟨now, later⟩ before it after split
      cases before with
      | nil =>
        cases split
        exact now
      | cons head before =>
        cases split
        exact later before it after rfl
    · exact all (other :: before) it after (congrArg _ split)

theorem intersection_sorted_iff (first : List Item) (input : List (List Item))
    (ascending : ∀ it ∈ first :: input, it.SortedLT) : (intersection (first :: input)).SortedLT ∧
    (∀ item, item ∈ intersection (first :: input) ↔ ∀ it ∈ first :: input, item ∈ it) ∧
      intersectionSorted (first :: input) <+ intersection (first :: input) ∧ intersectionSorted (first :: input) = input.foldl sift first ∧
      (intersectionSorted (first :: input) = intersection (first :: input) ↔
        ∀ before it after, input = before ++ it :: after → ∀ targ, (∀ list ∈ first :: input, targ ∈ list) →
          ∀ earlier ∈ before.foldl sift first, earlier < targ → between (before.foldl sift first) earlier targ ≤ between it earlier targ) ∧
        intersectionSorted ([] : List (List Item)) = intersection [] := by
  rw [forall_mem_cons] at ascending
  have sifted : intersectionSorted (first :: input) = input.foldl sift first :=
    filter_sorted_sifts ascending.1 ascending.2
  have common : ∀ item, item ∈ intersection (first :: input) ↔ ∀ it ∈ first :: input, item ∈ it := by
    simp [intersection, inAll]
  have sorted : (intersection (first :: input)).SortedLT := (ascending.1.pairwise.filter _).sortedLT
  have siftedSorted : (input.foldl sift first).SortedLT :=
    (ascending.1.pairwise.sublist (sifted_sublist first input)).sortedLT
  have inside : ∀ item ∈ input.foldl sift first, item ∈ intersection (first :: input) := by
    intro item member
    obtain ⟨own, reached⟩ := mem_sifted.mp member
    refine (common item).mpr (forall_mem_cons.mpr ⟨own, fun it isInput => ?_⟩)
    obtain ⟨before, after, split⟩ := append_of_mem isInput
    exact (reached before it after split).1
  have shorter : intersectionSorted (first :: input) <+ intersection (first :: input) := by
    have filtered : (input.foldl sift first).filter (inAll input) = input.foldl sift first :=
      filter_eq_self.mpr fun item member => (mem_filter.mp (inside item member)).2
    rw [sifted, ← filtered]
    exact (sifted_sublist first input).filter _
  refine ⟨sorted, common, shorter, sifted,
    ⟨fun same before it after split targ shared earlier => ?_, fun enough => ?_⟩, rfl⟩
  · have member : targ ∈ input.foldl sift first := sifted ▸ same ▸ (common targ).mpr shared
    exact ((mem_sifted.mp member).2 before it after split).2 earlier
  · rw [sifted]
    refine siftedSorted.eq_of_mem_iff sorted fun item => ⟨inside item, fun member => ?_⟩
    have shared := (common item).mp member
    refine mem_sifted.mpr ⟨shared first mem_cons_self, fun before it after split => ⟨shared it ?_, enough before it after split item shared⟩⟩
    rw [split]
    exact mem_cons_of_mem _ (mem_append_right _ mem_cons_self)

theorem shared_items_listed : intersectionSorted [[1, 3, 5], [1, 2, 3, 5], [1, 3, 4, 5]] = [1, 3, 5] ∧
    intersectionSorted [[1, 3, 5], [1, 2, 3, 5], [1, 3, 4, 5]] <+ intersection
    [[1, 3, 5], [1, 2, 3, 5], [1, 3, 4, 5]] :=
  ⟨by decide, (intersection_sorted_iff [1, 3, 5] [[1, 2, 3, 5], [1, 3, 4, 5]] (by simp [sortedLT_iff_pairwise])).2.2.1⟩

theorem common_item_skipped : intersectionSorted [[1, 2], [2]] = [] ∧ intersection [[1, 2], [2]] = [2] := by decide

end GaussMatrix.Utils

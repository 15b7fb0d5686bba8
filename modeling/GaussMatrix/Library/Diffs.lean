import GaussMatrix.Library.Collections

namespace GaussMatrix.Diffs

open Collections Std ExtTreeSet

variable {A : Type} {base added removed new gone : Set A}

structure Exact (base added removed : Set A) : Prop where
  fresh : ∀ a ∈ added, a ∉ base
  held : ∀ a ∈ removed, a ∈ base

def after (base added removed : Set A) : Set A := (base ∪ added) \ removed

theorem exact_apart (exact : Exact base added removed) (a : A) (isAdded : a ∈ added) : a ∉ removed :=
  fun isRemoved => exact.fresh a isAdded (exact.held a isRemoved)

theorem exact_between (base target : Set A) :
    Exact base (target \ base) (base \ target) ∧ after base (target \ base) (base \ target) = target := by
  refine ⟨⟨fun a member => member.2, fun a member => member.1⟩, ?_⟩
  ext a
  simp only [after, Set.mem_sdiff, Set.mem_union]
  tauto

theorem exact_merge (first : Exact base added removed) (second : Exact (after base added removed) new gone) :
    Exact base ((added \ gone) ∪ (new \ removed)) ((removed \ new) ∪ (gone \ added)) := by
  refine ⟨fun a member => ?_, fun a member => ?_⟩
  · rcases member with kept | pushed
    · exact first.fresh a kept.1
    · intro inBase
      exact second.fresh a pushed.1 ⟨.inl inBase, pushed.2⟩
  · rcases member with kept | pulled
    · exact first.held a kept.1
    · have inMiddle := (second.held a pulled.1).1
      exact inMiddle.resolve_right pulled.2

theorem after_merge (first : Exact base added removed) (second : Exact (after base added removed) new gone) :
    after base ((added \ gone) ∪ (new \ removed))
    ((removed \ new) ∪ (gone \ added)) = after (after base added removed) new gone := by
  ext a
  have apart := exact_apart first a
  have fresh := first.fresh a
  have held := first.held a
  have newApart := exact_apart second a
  simp only [after, Set.mem_sdiff, Set.mem_union] at *
  tauto

theorem added_subset_after (exact : Exact base added removed) : added ⊆ after base added removed :=
  fun a member => ⟨.inr member, exact_apart exact a member⟩

variable [Ord A] [TransOrd A] [LawfulEqOrd A]

def members (set : BTreeSet A) : Set A := {a | a ∈ set}

theorem members_injective {set other : BTreeSet A} (same : members set = members other) : set = other :=
  ext_mem fun a => iff_of_eq (congrFun same a)

theorem size_le_of_subset {set other : BTreeSet A} (subset : members set ⊆ members other) : set.size ≤ other.size := by
  classical
  rw [← length_toList, ← length_toList]
  refine (List.subperm_of_subset (set_nodup set) fun a member => ?_).length_le
  exact mem_toList.mpr (subset (mem_toList.mp member))

omit [LawfulEqOrd A] in
theorem members_empty : members (∅ : BTreeSet A) = ∅ := Set.eq_empty_of_forall_notMem fun _ => not_mem_empty

theorem members_without (set other : BTreeSet A) :
    members (set.filter fun a => !other.contains a) = members set \ members other := by
  ext a
  change a ∈ set.filter _ ↔ a ∈ set ∧ a ∉ other
  simp only [mem_filter, get_eq, exists_prop, Bool.not_eq_true', ← Bool.not_eq_true, contains_iff_mem]

theorem insert_all_member (items : List A) (set : BTreeSet A) (a : A) :
    a ∈ items.foldl (fun set => set.insert) set ↔ a ∈ set ∨ a ∈ items := by
  induction items generalizing set with
  | nil => simp
  | cons item rest ih =>
    rw [List.foldl_cons, ih, mem_insert, LawfulEqCmp.compare_eq_iff_eq, List.mem_cons]
    tauto

theorem insert_all_list (set : BTreeSet A) : set.toList.foldl (fun set => set.insert) ∅ = set := by
  refine ext_mem fun a => ?_
  rw [insert_all_member, mem_toList]
  exact or_iff_right not_mem_empty

theorem erase_all_member {items : List A} {set : BTreeSet A} (a : A) :
    a ∈ items.foldl (fun set => set.erase) set ↔ a ∈ set ∧ a ∉ items := by
  induction items generalizing set with
  | nil => simp
  | cons item rest ih =>
    rw [List.foldl_cons, ih, mem_erase, ne_eq, LawfulEqCmp.compare_eq_iff_eq, List.mem_cons, eq_comm]
    tauto

theorem members_after (base added removed : BTreeSet A) :
    members (removed.toList.foldl (fun set => set.erase) (added.toList.foldl (fun set => set.insert) base)) =
      after (members base) (members added) (members removed) := by
  ext a
  refine (erase_all_member a).trans ?_
  rw [insert_all_member, mem_toList, mem_toList]
  exact Iff.rfl

end GaussMatrix.Diffs

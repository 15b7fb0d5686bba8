import GaussMatrix.StateRes.Resolve

namespace GaussMatrix.StateRes

open Collections Memo

section

variable (capacity : Nat) (inserts : List (CacheKey × StateMap))

def cacheAfter : ResolvedStateCache := (Table.new capacity).fill inserts

theorem cache_after_order : (cacheAfter capacity inserts).order =
    ((Table.new capacity).entered inserts).dedup.rtake capacity := fill_order (Table.new capacity) inserts

theorem cache_after_bounded : (cacheAfter capacity inserts).entries.keys.length ≤ capacity := by
  have bounded := (cacheAfter capacity inserts).bounded
  rw [cacheAfter, fill_capacity] at bounded
  rw [cacheAfter, keys_perm.length_eq]
  exact bounded

end

theorem resolved_state_cache_represents (capacity : Nat) (inserts : List (CacheKey × StateMap)) :
    (cacheAfter capacity inserts).order.Nodup ∧
    (cacheAfter capacity inserts).entries.keys.Perm (cacheAfter capacity inserts).order ∧
      (cacheAfter capacity inserts).entries.keys.length ≤ capacity ∧
      (∀ key ∈ (cacheAfter capacity inserts).order, ∃ resolved, (cacheAfter capacity inserts).get key = some resolved ∧
      Latest inserts key resolved) ∧ (cacheAfter capacity inserts).order =
      ((Table.new capacity : ResolvedStateCache).entered inserts).dedup.rtake capacity ∧
      (∀ key ∈ (cacheAfter capacity inserts).order, ∀ resolved,
      ((cacheAfter capacity inserts).insert key resolved).order = (cacheAfter capacity inserts).order) ∧ (capacity = 0 →
      (cacheAfter capacity inserts).entries.keys = [] ∧ ∀ key, (cacheAfter capacity inserts).get key = none) := by
  refine ⟨(cacheAfter capacity inserts).distinct, keys_perm, cache_after_bounded capacity inserts, fun key held => ?_,
    cache_after_order capacity inserts,
    fun key held resolved => insert_held held, ?_⟩
  · obtain ⟨resolved, read⟩ := Option.isSome_iff_exists.mp (get_held.mpr held)
    exact ⟨resolved, read, get_latest read⟩
  · rintro rfl
    have empty := List.eq_nil_of_length_eq_zero (Nat.le_zero.mp (cache_after_bounded 0 inserts))
    exact ⟨empty, fun key => get_disabled (fill_capacity _ inserts)⟩

-- The key that was evicted comes in again at the end; the one that was held stays where it was.
example : let one : CacheKey := {"$1"}
    let two : CacheKey := {"$2"}
    let three : CacheKey := {"$3"}
    (cacheAfter 2 [(one, ∅), (two, ∅), (one, ∅), (three, ∅), (one, ∅)]).order = [three, one] := by
  decide +kernel

end GaussMatrix.StateRes

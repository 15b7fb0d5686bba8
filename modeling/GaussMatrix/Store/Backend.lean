import GaussMatrix.Library.Ranges

namespace GaussMatrix.Store

open Collections Ranges SortedScan

abbrev Bytes := List UInt8

abbrev DomainTree (V : Type) := BTreeMap Bytes V

variable {V : Type}

section

variable (tree : DomainTree V) (pfx : Bytes)

def prefixScan : List (Bytes × V) := (forward tree pfx).takeWhile fun row => decide (pfx <+: row.1)

theorem prefix_scan_filter : prefixScan tree pfx = tree.toList.filter fun row => decide (pfx <+: row.1) := by
  rw [prefixScan, forward_block List.prefix_rfl]
  refine List.filter_congr fun row _ => ?_
  by_cases inside : pfx <+: row.1
  · have reached := extends_not_below inside
    simp [inside, reached]
  · simp [inside]

theorem prefix_scan_row (row : Bytes × V) : row ∈ prefixScan tree pfx ↔ tree[row.1]? = some row.2 ∧ pfx <+: row.1 := by
  rw [prefix_scan_filter, List.mem_filter, Std.ExtTreeMap.mem_toList_iff_getElem?_eq_some, decide_eq_true_eq]

theorem prefix_scan_nodup : (prefixScan tree pfx).Nodup := by
  rw [prefix_scan_filter]
  refine List.Nodup.filter _ (Std.ExtTreeMap.ordered_keys_toList.imp fun {a b} less same => ?_)
  have equal : compare a.1 b.1 = .eq := same ▸ Std.ReflCmp.compare_self
  rw [less] at equal
  cases equal

end

theorem prefix_scan_all (tree : DomainTree V) : prefixScan tree [] = tree.toList := by
  rw [prefix_scan_filter]
  exact List.filter_eq_self.mpr fun row _ => decide_eq_true List.nil_prefix

end GaussMatrix.Store

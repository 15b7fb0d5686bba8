import Mathlib

namespace GaussMatrix.Fed.Notary

open List

-- The servers in order, each with the key ids wanted of it.
abbrev RumaBatch := List (String × List String)

-- The items of an iterator after skipping some, then every step-th one.
def stepBy (step : Nat) : Nat → List String → List String
  | _, [] => []
  | 0, key :: rest => key :: stepBy step (step - 1) rest
  | skip + 1, _ :: rest => stepBy step skip rest

def splitOff : List String → RumaBatch → List RumaBatch
  | [], _ => []
  | batch :: rest, serverKeys =>
    let request := serverKeys.filter (batch ≤ ·.1)
    let requests := splitOff rest (serverKeys.filter (¬ batch ≤ ·.1))
    if request.isEmpty then requests else request :: requests

-- step_by panics on a step of zero.
def batchNotaryRequest (batchMax : Nat) (serverKeys : RumaBatch) : Option (List RumaBatch) :=
  let keys := serverKeys.map Prod.fst
  if batchMax - 1 = 0 then none
    else some (splitOff ((stepBy (batchMax - 1) 0 keys.reverse).drop 1 ++ keys.head?.toList) serverKeys)

def Partitioned (batchMax : Nat) (serverKeys : RumaBatch) : Prop :=
  ∃ requests, batchNotaryRequest batchMax serverKeys = some requests ∧ requests.flatten.Perm serverKeys ∧
    ∀ request ∈ requests, request ≠ [] ∧ request.length ≤ batchMax

variable {batches final : List String} {serverKeys front rest request : RumaBatch} {row : String × List String}
  {step skip bound : Nat}

theorem split_off_cons {batch : String} (member : request ∈ splitOff (batch :: batches) serverKeys) :
    request = serverKeys.filter (batch ≤ ·.1) ∧ request ≠ [] ∨
    request ∈ splitOff batches (serverKeys.filter (¬ batch ≤ ·.1)) := by
  rw [splitOff] at member
  split at member
  case isTrue => exact .inr member
  case isFalse found =>
    rcases mem_cons.mp member with rfl | later
    · exact .inl ⟨rfl, fun empty => found (isEmpty_iff.mpr empty)⟩
    · exact .inr later

theorem split_off_request (member : request ∈ splitOff batches serverKeys) :
    request ≠ [] ∧ request.length ≤ serverKeys.length := by
  induction batches generalizing serverKeys with
  | nil => cases member
  | cons batch batches ih =>
    rcases split_off_cons member with ⟨rfl, found⟩ | later
    · exact ⟨found, length_filter_le _ _⟩
    · exact ⟨(ih later).1, (ih later).2.trans (length_filter_le _ _)⟩

theorem split_off_perm {least : String} (above : ∀ row ∈ serverKeys, least ≤ row.1) :
    (splitOff (batches ++ [least]) serverKeys).flatten.Perm serverKeys := by
  induction batches generalizing serverKeys with
  | nil =>
    have all : serverKeys.filter (least ≤ ·.1) = serverKeys := filter_eq_self.mpr fun row member => decide_eq_true (above row member)
    cases serverKeys with
    | nil => exact Perm.nil
    | cons row rest => simp [splitOff, all]
  | cons batch batches ih =>
    have later := @ih (serverKeys.filter (¬ batch ≤ ·.1)) fun row member => above row (mem_of_mem_filter member)
    have whole : (serverKeys.filter (batch ≤ ·.1) ++ serverKeys.filter (¬ batch ≤ ·.1)).Perm serverKeys := by
      simpa only [decide_not] using filter_append_perm (fun row : String × List String => decide (batch ≤ row.1)) serverKeys
    rw [cons_append, splitOff]
    split
    case isTrue empty =>
      rw [isEmpty_iff.mp empty, nil_append] at whole
      exact later.trans whole
    case isFalse => exact (later.append_left _).trans whole

theorem walk_filter (descending : (front ++ row :: rest).Pairwise (·.1 > ·.1)) :
    (front ++ row :: rest).filter (row.1 ≤ ·.1) = front ++ [row] ∧
    (front ++ row :: rest).filter (¬ row.1 ≤ ·.1) = rest := by
  obtain ⟨_, tail, ahead⟩ := pairwise_append.mp descending
  have greater : ∀ other ∈ front, row.1 ≤ other.1 := fun other member => (ahead other member row mem_cons_self).le
  have less : ∀ other ∈ rest, ¬ row.1 ≤ other.1 := fun other member => ((pairwise_cons.mp tail).1 other member).not_ge
  constructor
  · rw [filter_append, filter_cons_of_pos (by simp), filter_eq_self.mpr fun other member => decide_eq_true (greater other member),
      filter_eq_nil_iff.mpr fun other member found => less other member (of_decide_eq_true found)]
  · rw [filter_append, filter_cons_of_neg (by simp), filter_eq_nil_iff.mpr fun other member found =>
      absurd (greater other member) (of_decide_eq_true found),
      filter_eq_self.mpr fun other member => decide_eq_true (less other member), nil_append]

-- The walk backwards through the servers: those in front were passed since the last batch key, and the next one is skip
-- steps ahead.
theorem split_off_bounded (layout : serverKeys.Perm (front ++ rest)) (descending : (front ++ rest).Pairwise (·.1 > ·.1))
    (within : front.length + skip + 1 ≤ bound) (fits : step ≤ bound) (member :
    request ∈ splitOff (stepBy step skip (rest.map Prod.fst) ++ final) serverKeys) : request.length ≤ bound := by
  induction rest generalizing front skip serverKeys with
  | nil =>
    have few := (split_off_request member).2
    rw [layout.length_eq, append_nil] at few
    omega
  | cons row rest ih =>
    cases skip with
    | succ skip =>
      rw [append_cons] at layout descending
      exact ih layout descending (by rw [length_append, length_singleton]; omega) member
    | zero =>
      obtain ⟨cut, left⟩ := walk_filter descending
      rcases split_off_cons member with ⟨rfl, _⟩ | later
      · rw [(layout.filter _).length_eq, cut, length_append, length_singleton]
        exact within
      · exact @ih _ [] (step - 1) (left ▸ layout.filter _)
          (pairwise_cons.mp (pairwise_append.mp descending).2.1).2 (by rw [length_nil]; omega) later

theorem partitioned_of_size {batchMax : Nat} {serverKeys : RumaBatch} (size : 2 ≤ batchMax)
    (ascending : serverKeys.Pairwise (·.1 < ·.1)) : Partitioned batchMax serverKeys := by
  refine ⟨_, if_neg (by omega), ?_, fun request member => ⟨(split_off_request member).1, ?_⟩⟩
  · cases serverKeys with
    | nil => exact Perm.nil
    | cons least rest => exact split_off_perm fun row member =>
      (mem_cons.mp member).elim (fun same => same ▸ le_rfl) fun later => ((pairwise_cons.mp ascending).1 row later).le
  · have descending : serverKeys.reverse.Pairwise (·.1 > ·.1) := pairwise_reverse.mpr ascending
    have layout := serverKeys.reverse_perm.symm
    rw [← map_reverse] at member
    cases split : serverKeys.reverse with
    | nil =>
      cases reverse_eq_nil_iff.mp split
      cases member
    | cons top rest =>
      rw [split] at member descending layout
      exact @split_off_bounded _ serverKeys [top] rest request (batchMax - 1)
        (batchMax - 1 - 1) batchMax layout descending (by rw [length_singleton]; omega) (by omega) member

theorem notary_batches_partition (batchMax : Nat) (serverKeys : RumaBatch)
    (ascending : serverKeys.Pairwise (·.1 < ·.1)) : Partitioned batchMax serverKeys ↔ 2 ≤ batchMax := by
  refine ⟨fun partitioned => Classical.byContradiction fun small => ?_, fun size => partitioned_of_size size ascending⟩
  obtain ⟨requests, built, _⟩ := partitioned
  rw [batchNotaryRequest, if_pos (by omega)] at built
  cases built

def abc : RumaBatch := [("a", ["1"]), ("b", ["1", "2"]), ("c", ["1"])]

theorem three_servers_batched : Partitioned 2 abc ∧ ¬ Partitioned 1 abc :=
  ⟨(notary_batches_partition 2 abc (by decide)).mpr le_rfl, fun built =>
    absurd ((notary_batches_partition 1 abc (by decide)).mp built) (by decide)⟩

theorem single_server_panics : batchNotaryRequest 1 abc = none := rfl

end GaussMatrix.Fed.Notary

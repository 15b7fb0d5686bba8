import Mathlib

namespace GaussMatrix.Memo

open List

variable {K V : Type} [DecidableEq K]

abbrev Entries (K V : Type) := AList (fun _ : K => V)

def evict (capacity : Nat) : List K → Entries K V → Entries K V × List K
  | [], entries => (entries, [])
  | oldest :: rest, entries =>
    if (oldest :: rest).length > capacity then evict capacity rest (entries.erase oldest) else (entries, oldest :: rest)

variable {value : V}

section

variable (capacity : Nat) (order : List K) (entries : Entries K V)

theorem evict_bounded : (evict capacity order entries).2.length ≤ capacity := by
  induction order generalizing entries with
  | nil => simp [evict]
  | cons oldest rest ih =>
    by_cases excess : (oldest :: rest).length > capacity
    · rw [evict, if_pos excess]
      exact ih (entries.erase oldest)
    · rw [evict, if_neg excess]
      exact not_lt.mp excess

theorem evict_suffix : (evict capacity order entries).2 <:+ order := by
  induction order generalizing entries with
  | nil => exact suffix_refl []
  | cons oldest rest ih =>
    by_cases excess : (oldest :: rest).length > capacity
    · rw [evict, if_pos excess]
      exact (ih (entries.erase oldest)).trans (suffix_cons oldest rest)
    · rw [evict, if_neg excess]

theorem evict_tracked (distinct : order.Nodup) (tracked : ∀ key, key ∈ entries ↔ key ∈ order) (key : K) :
    key ∈ (evict capacity order entries).1 ↔ key ∈ (evict capacity order entries).2 := by
  induction order generalizing entries with
  | nil => exact tracked key
  | cons oldest rest ih =>
    obtain ⟨fresh, restDistinct⟩ := nodup_cons.mp distinct
    by_cases excess : (oldest :: rest).length > capacity
    · rw [evict, if_pos excess]
      apply ih (entries.erase oldest) restDistinct
      intro other
      rw [AList.mem_erase, tracked other, mem_cons]
      exact ⟨fun both => both.2.resolve_left both.1, fun member => ⟨fun same => fresh (same ▸ member), .inr member⟩⟩
    · rw [evict, if_neg excess]
      exact tracked key

theorem evict_lookup {key : K} (read : (evict capacity order entries).1.lookup key = some value) :
    entries.lookup key = some value := by
  induction order generalizing entries with
  | nil => exact read
  | cons oldest rest ih =>
    by_cases excess : (oldest :: rest).length > capacity
    · rw [evict, if_pos excess] at read
      have before := ih (entries.erase oldest) read
      by_cases same : key = oldest
      · rw [same, AList.lookup_erase] at before
        cases before
      · rwa [AList.lookup_erase_ne same] at before
    · rwa [evict, if_neg excess] at read

end

-- A memo table that forgets the least recently inserted keys. Every entry has
-- one place in the eviction order, so the capacity bounds the entries too.
structure Table (K V : Type) [DecidableEq K] where
  entries : Entries K V
  order : List K
  capacity : Nat
  distinct : order.Nodup
  tracked : ∀ key, key ∈ entries ↔ key ∈ order
  bounded : order.length ≤ capacity

def Table.new (capacity : Nat) : Table K V where
  entries := ∅
  order := []
  capacity := capacity
  distinct := List.nodup_nil
  tracked := by simp
  bounded := Nat.zero_le capacity

section

variable (memo : Table K V) (key : K)

def Table.get : Option V := memo.entries.lookup key

def queueKey : List K := if key ∈ memo.entries then memo.order else memo.order ++ [key]

theorem queue_key_distinct : (queueKey memo key).Nodup := by
  by_cases known : key ∈ memo.entries
  · rw [queueKey, if_pos known]
    exact memo.distinct
  · rw [queueKey, if_neg known]
    exact memo.distinct.append (nodup_singleton key) (by simpa using fun member => known ((memo.tracked key).mpr member))

theorem queue_key_tracked (other : K) : other ∈ memo.entries.insert key value ↔ other ∈ queueKey memo key := by
  rw [AList.mem_insert, memo.tracked other]
  by_cases known : key ∈ memo.entries
  · rw [queueKey, if_pos known]
    exact ⟨fun either => either.elim (fun same => same ▸ (memo.tracked key).mp known) id, .inr⟩
  · rw [queueKey, if_neg known, mem_append, mem_singleton, or_comm]

def Table.insert (value : V) : Table K V :=
  if memo.capacity = 0 then memo
  else
    let kept := evict memo.capacity (queueKey memo key) (memo.entries.insert key value)
    { entries := kept.1
      order := kept.2
      capacity := memo.capacity
      distinct := (queue_key_distinct memo key).sublist (evict_suffix _ _ _).sublist
      tracked := evict_tracked _ _ _ (queue_key_distinct memo key) (queue_key_tracked memo key)
      bounded := evict_bounded _ _ _ }

end

theorem get_new (capacity : Nat) (key : K) : (Table.new capacity : Table K V).get key = none := rfl

theorem get_disabled {memo : Table K V} {key : K} (off : memo.capacity = 0) : memo.get key = none := by
  have empty : memo.order = [] := eq_nil_of_length_eq_zero (Nat.le_zero.mp (off ▸ memo.bounded))
  have absent : key ∉ memo.entries := by
    rw [memo.tracked key, empty]
    exact not_mem_nil
  exact AList.lookup_eq_none.mpr absent

theorem get_insert {memo : Table K V} {key other : K} {found : V}
    (read : (memo.insert key value).get other = some found) :
    (other = key ∧ found = value) ∨ (other ≠ key ∧ memo.get other = some found) := by
  by_cases off : memo.capacity = 0
  · rw [Table.insert, if_pos off, get_disabled off] at read
    cases read
  · rw [Table.insert, if_neg off] at read
    have before := evict_lookup _ _ _ read
    by_cases same : other = key
    · subst same
      rw [AList.lookup_insert] at before
      exact .inl ⟨rfl, (Option.some.inj before).symm⟩
    · rw [AList.lookup_insert_ne same] at before
      exact .inr ⟨same, before⟩

theorem evict_order {capacity : Nat} {order : List K} {entries : Entries K V} :
    (evict capacity order entries).2 = order.rtake capacity := by
  induction order generalizing entries with
  | nil => rw [evict, rtake_nil]
  | cons oldest rest ih =>
    by_cases excess : (oldest :: rest).length > capacity
    · rw [evict, if_pos excess, ih, List.rtake, List.rtake, length_cons, Nat.succ_sub (Nat.le_of_lt_succ excess), drop_succ_cons]
    · rw [evict, if_neg excess, List.rtake, Nat.sub_eq_zero_of_le (not_lt.mp excess), drop_zero]

theorem insert_capacity {memo : Table K V} {key : K} : (memo.insert key value).capacity = memo.capacity := by
  by_cases off : memo.capacity = 0
  · rw [Table.insert, if_pos off]
  · rw [Table.insert, if_neg off]

theorem insert_order (memo : Table K V) (key : K) (value : V) :
    (memo.insert key value).order = (queueKey memo key).rtake memo.capacity := by
  by_cases off : memo.capacity = 0
  · have empty : memo.order = [] := eq_nil_of_length_eq_zero (Nat.le_zero.mp (off ▸ memo.bounded))
    rw [Table.insert, if_pos off, off, rtake_zero, empty]
  · rw [Table.insert, if_neg off]
    exact evict_order

omit [DecidableEq K] in
theorem rtake_short {items : List K} {count : Nat} (short : items.length ≤ count) : items.rtake count = items := by
  rw [List.rtake, Nat.sub_eq_zero_of_le short, drop_zero]

theorem insert_held {memo : Table K V} {key : K} (held : key ∈ memo.order) :
    (memo.insert key value).order = memo.order := by
  rw [insert_order, queueKey, if_pos ((memo.tracked key).mpr held), rtake_short memo.bounded]

theorem get_held {memo : Table K V} {key : K} : (memo.get key).isSome = true ↔ key ∈ memo.order := by
  rw [Table.get, AList.lookup_isSome, memo.tracked]

theorem keys_perm {memo : Table K V} : memo.entries.keys.Perm memo.order :=
  (List.perm_ext_iff_of_nodup memo.entries.nodupKeys memo.distinct).mpr memo.tracked

def Table.fill (memo : Table K V) (rows : List (K × V)) : Table K V :=
  rows.foldl (fun memo row => memo.insert row.1 row.2) memo

def Table.entered (memo : Table K V) : List (K × V) → List K
  | [] => []
  | (key, value) :: rest =>
    if key ∈ memo.order then (memo.insert key value).entered rest else key :: (memo.insert key value).entered rest

theorem fill_capacity (memo : Table K V) (rows : List (K × V)) : (memo.fill rows).capacity = memo.capacity := by
  induction rows generalizing memo with
  | nil => rfl
  | cons row rest ih => exact (ih (memo.insert row.1 row.2)).trans insert_capacity

theorem distinct_fits {items others : List K} (distinct : items.Nodup) (inside : items ⊆ others) :
    items.length ≤ others.dedup.length :=
  (List.subperm_of_subset distinct fun _ member => List.mem_dedup.mpr (inside member)).length_le

theorem dedup_rtake_front {front : List K} {rest : List K} {count : Nat} (many : count ≤ rest.dedup.length) :
    (front ++ rest).dedup.rtake count = rest.dedup.rtake count := by
  induction front with
  | nil => rfl
  | cons key front ih =>
    by_cases later : key ∈ front ++ rest
    · rw [cons_append, dedup_cons_of_mem later, ih]
    · have longer : rest.dedup.length ≤ (front ++ rest).dedup.length :=
        distinct_fits rest.nodup_dedup fun _ member => mem_append_right front (mem_dedup.mp member)
      rw [cons_append, dedup_cons_of_notMem later, ← ih, List.rtake, List.rtake, length_cons, Nat.succ_sub (many.trans longer), drop_succ_cons]

theorem dedup_rtake_again {order later : List K} (distinct : order.Nodup) (count : Nat) :
    (order.rtake count ++ later).dedup.rtake count = (order ++ later).dedup.rtake count := by
  by_cases short : order.length ≤ count
  · rw [rtake_short short]
  · have split : order ++ later = order.take (order.length - count) ++ (order.rtake count ++ later) := by
      rw [← append_assoc, List.rtake, take_append_drop]
    have full : (order.rtake count).length = count := by
      rw [List.rtake, length_drop]
      omega
    have many : count ≤ (order.rtake count ++ later).dedup.length := by
      have kept : (order.rtake count).Nodup := distinct.sublist (drop_sublist _ order)
      exact full.ge.trans (distinct_fits kept (subset_append_left _ later))
    rw [split, dedup_rtake_front many]

theorem fill_order (memo : Table K V) (rows : List (K × V)) :
    (memo.fill rows).order = (memo.order ++ memo.entered rows).dedup.rtake memo.capacity := by
  induction rows generalizing memo with
  | nil => rw [Table.entered, append_nil, memo.distinct.dedup, rtake_short memo.bounded, Table.fill, foldl_nil]
  | cons row rest ih =>
    obtain ⟨key, value⟩ := row
    have later : (memo.fill ((key, value) :: rest)).order = _ := ih (memo.insert key value)
    rw [later, insert_capacity, Table.entered]
    by_cases held : key ∈ memo.order
    · rw [insert_held held, if_pos held]
    · have known : key ∉ memo.entries := fun known => held ((memo.tracked key).mp known)
      have distinct := queue_key_distinct memo key
      rw [queueKey, if_neg known] at distinct
      rw [insert_order, queueKey, if_neg known, if_neg held, dedup_rtake_again distinct, append_assoc, singleton_append]

def Latest (rows : List (K × V)) (key : K) (value : V) : Prop :=
  ∃ before after, rows = before ++ (key, value) :: after ∧ ∀ row ∈ after, row.1 ≠ key

theorem get_latest {capacity : Nat} {rows : List (K × V)} {key : K}
    (read : ((Table.new capacity).fill rows).get key = some value) : Latest rows key value := by
  induction rows using reverseRecOn with
  | nil => cases read
  | append_singleton rows row ih =>
    rw [Table.fill, foldl_append] at read
    rcases get_insert read with ⟨rfl, rfl⟩ | ⟨other, held⟩
    · exact ⟨rows, [], rfl, fun row impossible => absurd impossible not_mem_nil⟩
    · obtain ⟨before, after, rfl, last⟩ := ih held
      refine ⟨before, after ++ [row], by rw [append_assoc, cons_append], fun later member => ?_⟩
      rcases mem_append.mp member with inAfter | isLast
      · exact last later inAfter
      · rw [mem_singleton.mp isLast]
        exact other.symm

end GaussMatrix.Memo

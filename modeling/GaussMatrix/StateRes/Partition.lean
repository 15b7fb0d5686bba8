import GaussMatrix.StateRes.Event

namespace GaussMatrix.StateRes

open Collections List Std ExtTreeMap

abbrev ConflictedState := BTreeMap StateKey (BTreeSet EventId)

structure Partitioned where
  unconflicted : StateMap
  conflicted : ConflictedState

-- One turn of the grouping loop: entry(key).or_default().insert(event_id).
def groupEntry (grouped : ConflictedState) (entry : StateKey × EventId) : ConflictedState :=
  grouped.insert entry.1 ((grouped[entry.1]?.getD ∅).insert entry.2)

def groupStates (states : List StateMap) : ConflictedState :=
  states.foldl (fun grouped state => state.toList.foldl groupEntry grouped) ∅

def partitionEntry (out : Partitioned) (entry : StateKey × BTreeSet EventId) : Partitioned := if entry.2.size = 1 then
    match popFirst entry.2 with
    | some eventId => { out with unconflicted := out.unconflicted.insert entry.1 eventId }
    | none => out
  else { out with conflicted := out.conflicted.insert entry.1 entry.2 }

def partition (states : List StateMap) : Partitioned := (groupStates states).toList.foldl partitionEntry ⟨∅, ∅⟩

def conflictingEventIds (conflicted : ConflictedState) : BTreeSet EventId := unionAll (conflicted.toList.map Prod.snd)

def Holds (states : List StateMap) (slot : StateKey) (id : EventId) : Prop := ∃ state ∈ states, state[slot]? = some id

variable (states : List StateMap) (entries : List (StateKey × BTreeSet EventId)) (grouped : ConflictedState)
  (out : Partitioned) (entry : StateKey × BTreeSet EventId) (slot : StateKey) (id : EventId) (ids : BTreeSet EventId)

theorem group_entry_member (entry : StateKey × EventId) (slot : StateKey) (id : EventId) :
    id ∈ ((groupEntry grouped entry)[slot]?.getD ∅) ↔
      id ∈ (grouped[slot]?.getD ∅) ∨ entry = (slot, id) := by
  by_cases same : slot = entry.1
  · subst same
    rw [groupEntry, getElem?_insert_self, Option.getD_some, ExtTreeSet.mem_insert]
    simp only [LawfulEqOrd.compare_eq_iff_eq, Prod.ext_iff, true_and]
    exact or_comm
  · have different : entry ≠ (slot, id) := fun eq => same (congrArg Prod.fst eq).symm
    rw [groupEntry, insert_elsewhere same]
    simp [different]

theorem group_entries_member (entries : List (StateKey × EventId)) (grouped : ConflictedState) (slot : StateKey)
    (id : EventId) : id ∈ ((entries.foldl groupEntry grouped)[slot]?.getD ∅) ↔ id ∈ (grouped[slot]?.getD ∅) ∨
    (slot, id) ∈ entries := by
  induction entries generalizing grouped with
  | nil => simp
  | cons entry tail ih =>
    rw [foldl_cons, ih, group_entry_member, mem_cons, or_assoc, eq_comm]

theorem group_states_fold :
    id ∈ ((states.foldl (fun grouped state => state.toList.foldl groupEntry grouped) grouped)[slot]?.getD ∅) ↔
      id ∈ (grouped[slot]?.getD ∅) ∨ Holds states slot id := by
  induction states generalizing grouped with
  | nil => simp [Holds]
  | cons state tail ih =>
    rw [foldl_cons, ih, group_entries_member, or_assoc]
    simp [Holds]

theorem group_states_member : id ∈ ((groupStates states)[slot]?.getD ∅) ↔ Holds states slot id := by
  simpa [groupStates] using group_states_fold states ∅ slot id

variable {states slot ids} in
theorem group_states_read (read : (groupStates states)[slot]? = some ids) (id : EventId) :
    id ∈ ids ↔ Holds states slot id := by
  rw [← group_states_member, read, Option.getD_some]

theorem group_entry_nonempty {entry : StateKey × EventId} (nonempty : ∀ slot : StateKey, grouped[slot]? ≠ some ∅)
    (slot : StateKey) : (groupEntry grouped entry)[slot]? ≠ some ∅ := by
  by_cases same : slot = entry.1
  · subst same
    rw [groupEntry, getElem?_insert_self]
    intro empty
    exact ExtTreeSet.insert_ne_empty (Option.some.inj empty)
  · rw [groupEntry, insert_elsewhere same]
    exact nonempty slot

theorem group_states_nonempty : (groupStates states)[slot]? ≠ some ∅ := by
  have entries : ∀ (rows : List (StateKey × EventId)) (grouped : ConflictedState),
      (∀ slot : StateKey, grouped[slot]? ≠ some ∅) → ∀ slot : StateKey, (rows.foldl groupEntry grouped)[slot]? ≠ some ∅ := by
    intro rows
    induction rows with
    | nil => exact fun grouped nonempty => nonempty
    | cons row tail ih => exact fun grouped nonempty => ih _ (group_entry_nonempty grouped nonempty)
  have general : ∀ grouped : ConflictedState, (∀ slot : StateKey, grouped[slot]? ≠ some ∅) → ∀ slot : StateKey,
      (states.foldl (fun grouped state => state.toList.foldl groupEntry grouped) grouped)[slot]? ≠ some ∅ := by
    induction states with
    | nil => exact fun grouped nonempty => nonempty
    | cons state tail ih => exact fun grouped nonempty => ih _ (entries state.toList grouped nonempty)
  exact general ∅ (by simp) slot

theorem partition_entry_unconflicted (fresh : out.unconflicted[entry.1]? = none) :
    (partitionEntry out entry).unconflicted[slot]? = some id ↔
      out.unconflicted[slot]? = some id ∨ entry.1 = slot ∧ entry.2.size = 1 ∧ popFirst entry.2 = some id := by
  by_cases single : entry.2.size = 1
  · rw [partitionEntry, if_pos single]
    cases first : popFirst entry.2 with
    | none => simp
    | some least =>
      by_cases same : slot = entry.1
      · subst same
        simp [fresh, single]
      · simp [insert_elsewhere same, Ne.symm same]
  · rw [partitionEntry, if_neg single]
    simp [single]

theorem partition_entry_conflicted (fresh : out.conflicted[entry.1]? = none) :
    (partitionEntry out entry).conflicted[slot]? = some ids ↔
      out.conflicted[slot]? = some ids ∨ entry.1 = slot ∧ entry.2 = ids ∧ ids.size ≠ 1 := by
  obtain ⟨key, members⟩ := entry
  by_cases single : members.size = 1
  · have same : (partitionEntry out (key, members)).conflicted = out.conflicted := by
      rw [partitionEntry, if_pos single]
      cases popFirst members <;> rfl
    rw [same]
    refine ⟨.inl, ?_⟩
    intro either
    rcases either with old | ⟨-, eq, several⟩
    · exact old
    · cases eq
      exact absurd single several
  · rw [partitionEntry, if_neg single]
    by_cases same : slot = key
    · subst same
      have fresh : out.conflicted[slot]? = none := fresh
      simp only [getElem?_insert_self, Option.some.injEq, fresh, reduceCtorEq, false_or, true_and]
      exact ⟨fun eq => ⟨eq, eq ▸ single⟩, And.left⟩
    · simp [insert_elsewhere same, Ne.symm same]

-- The second loop meets every slot once, so an entry is filed by its own size
-- alone and is never overwritten.
theorem partition_fold_read {Value : Type} (read : Partitioned → StateKey → Option Value)
    (gives : BTreeSet EventId → Value → Prop) (step : ∀ out entry slot value, read out entry.1 = none →
      (read (partitionEntry out entry) slot = some value ↔ read out slot = some value ∨ entry.1 = slot ∧ gives entry.2 value))
    (distinct : entries.Pairwise fun a b => a.1 ≠ b.1) (fresh : ∀ entry ∈ entries, read out entry.1 = none)
    (slot : StateKey) (value : Value) : read (entries.foldl partitionEntry out) slot = some value ↔
    read out slot = some value ∨ ∃ ids, (slot, ids) ∈ entries ∧ gives ids value := by
  induction entries generalizing out with
  | nil => simp
  | cons entry tail ih =>
    obtain ⟨headDistinct, tailDistinct⟩ := pairwise_cons.mp distinct
    have head := fresh entry mem_cons_self
    have tailFresh : ∀ other ∈ tail, read (partitionEntry out entry) other.1 = none := by
      intro other member
      refine Option.eq_none_iff_forall_ne_some.mpr fun stale found => ?_
      rcases (step out entry other.1 stale head).mp found with old | ⟨same, _⟩
      · simp [fresh other (mem_cons_of_mem entry member)] at old
      · exact headDistinct other member same
    rw [foldl_cons, ih _ tailDistinct tailFresh, step out entry slot value head, or_assoc]
    refine or_congr_right ⟨?_, ?_⟩
    · rintro (⟨rfl, given⟩ | ⟨ids, member, given⟩)
      · exact ⟨entry.2, mem_cons_self, given⟩
      · exact ⟨ids, mem_cons_of_mem entry member, given⟩
    · rintro ⟨ids, member, given⟩
      rcases mem_cons.mp member with rfl | later
      · exact .inl ⟨rfl, given⟩
      · exact .inr ⟨ids, later, given⟩

theorem group_states_distinct : (groupStates states).toList.Pairwise fun a b => a.1 ≠ b.1 := by
  refine distinct_keys_toList.imp fun {a b} apart same => apart ?_
  rw [same]
  exact ReflCmp.compare_self

theorem group_states_found (held : Holds states slot id) : ∃ ids, (groupStates states)[slot]? = some ids := by
  have member := (group_states_member states slot id).mpr held
  cases read : (groupStates states)[slot]? with
  | none => simp [read] at member
  | some ids => exact ⟨ids, rfl⟩

theorem partition_unconflicted : (partition states).unconflicted[slot]? = some id ↔ ∀ other, Holds states slot other ↔
    other = id := by
  refine (partition_fold_read _ _ (·.unconflicted[·]?)
    (fun ids id => ids.size = 1 ∧ popFirst ids = some id) partition_entry_unconflicted
    (group_states_distinct states) (by simp) slot id).trans ?_
  simp only [getElem?_empty, reduceCtorEq, false_or, singleton_iff, mem_toList_iff_getElem?_eq_some]
  refine ⟨fun ⟨ids, read, only⟩ other => ?_, fun only => ?_⟩
  · rw [← group_states_read read, only]
  · obtain ⟨ids, read⟩ := group_states_found states slot id ((only id).mpr rfl)
    exact ⟨ids, read, fun other => (group_states_read read other).trans (only other)⟩

theorem partition_conflicted : (partition states).conflicted[slot]? = some ids ↔
      (∀ id, id ∈ ids ↔ Holds states slot id) ∧ ∃ a b, a ≠ b ∧ Holds states slot a ∧ Holds states slot b := by
  refine (partition_fold_read _ _ (·.conflicted[·]?)
    (fun found ids => found = ids ∧ ids.size ≠ 1) partition_entry_conflicted
    (group_states_distinct states) (by simp) slot ids).trans ?_
  simp only [getElem?_empty, reduceCtorEq, false_or, mem_toList_iff_getElem?_eq_some, ↓existsAndEq, true_and]
  refine ⟨fun ⟨read, several⟩ => ?_, fun ⟨members, a, b, different, first, second⟩ => ?_⟩
  · have members := group_states_read read
    have nonempty : ids ≠ ∅ := fun empty => group_states_nonempty states slot (empty ▸ read)
    obtain ⟨a, b, different, first, second⟩ := (two_members ids nonempty).mp several
    exact ⟨members, a, b, different, (members a).mp first, (members b).mp second⟩
  · obtain ⟨found, read⟩ := group_states_found states slot a first
    have same : found = ids := ExtTreeSet.ext_mem fun id =>
      (group_states_read read id).trans (members id).symm
    subst same
    have nonempty : found ≠ ∅ := fun empty => group_states_nonempty states slot (empty ▸ read)
    exact ⟨read, (two_members found nonempty).mpr ⟨a, b, different, (members a).mpr first, (members b).mpr second⟩⟩

theorem conflicting_event_ids_member {conflicted : ConflictedState} {id : EventId} :
    id ∈ conflictingEventIds conflicted ↔ ∃ (slot : StateKey) (ids : BTreeSet EventId),
    conflicted[slot]? = some ids ∧ id ∈ ids := by
  rw [conflictingEventIds, union_all_member]
  refine ⟨fun ⟨ids, listed, member⟩ => ?_, fun ⟨slot, ids, read, member⟩ => ?_⟩
  · obtain ⟨row, inRows, rfl⟩ := mem_map.mp listed
    exact ⟨row.1, row.2, mem_toList_iff_getElem?_eq_some.mp inRows, member⟩
  · have row := mem_toList_iff_getElem?_eq_some.mpr read
    exact ⟨ids, mem_map.mpr ⟨(slot, ids), row, rfl⟩, member⟩

end GaussMatrix.StateRes

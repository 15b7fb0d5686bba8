import GaussMatrix.StateRes.Partition

namespace GaussMatrix.Rooms

open Collections List StateRes Std

abbrev Occurrences := BTreeMap StateKey (BTreeMap EventId Nat)
abbrev ConflictMap := BTreeMap StateKey (List EventId)

structure SplitState where
  unconflicted : StateMap
  conflicted : ConflictMap

def countOccurrence (occurrences : Occurrences) (entry : StateKey × EventId) : Occurrences :=
  let ids := occurrences[entry.1]?.getD ∅
  occurrences.insert entry.1 (ids.insert entry.2 (ids[entry.2]?.getD 0 + 1))

def occurrencesIn (stateMaps : List StateMap) : Occurrences :=
  (stateMaps.flatMap fun state => state.toList).foldl countOccurrence ∅

def splitId (stateSetCount : Nat) (slot : StateKey) (out : SplitState) (occurrence : EventId × Nat) : SplitState :=
  if occurrence.2 = stateSetCount then
    { out with unconflicted := out.unconflicted.insert slot occurrence.1 }
  else { out with conflicted := out.conflicted.insert slot (out.conflicted[slot]?.getD [] ++ [occurrence.1]) }

abbrev Rows := List (StateKey × List (EventId × Nat))

def splitRows (stateSetCount : Nat) (rows : Rows) : SplitState :=
  rows.foldl (fun out row => row.2.foldl (splitId stateSetCount row.1) out) ⟨∅, ∅⟩

-- The occurrences are hash maps of hash maps: they are walked slot by slot and
-- id by id, in an order that only the hasher knows.
def HashOrder (order : Occurrences → Rows) : Prop :=
  ∀ occurrences, ((order occurrences).map Prod.fst).Perm occurrences.keys ∧
    ∀ row ∈ order occurrences, row.2.Perm (occurrences[row.1]?.getD ∅).toList

def splitConflictedState (order : Occurrences → Rows) (stateMaps : List StateMap) : SplitState :=
  splitRows stateMaps.length (order (occurrencesIn stateMaps))

def ascending (occurrences : Occurrences) : Rows := occurrences.toList.map fun entry => (entry.1, entry.2.toList)

theorem ascending_hash_order : HashOrder ascending := by
  intro occurrences
  constructor
  · rw [ascending, map_map, ← ExtTreeMap.map_fst_toList_eq_keys]
    exact List.Perm.refl _
  · intro row listed
    obtain ⟨entry, member, same⟩ := mem_map.mp listed
    rw [← same, ExtTreeMap.mem_toList_iff_getElem?_eq_some.mp member]
    exact List.Perm.refl _

section

def readCount (occurrences : Occurrences) (slot : StateKey) (id : EventId) : Option Nat :=
  (occurrences[slot]?.getD ∅)[id]?

theorem count_occurrence_read (occurrences : Occurrences) (entry : StateKey × EventId) (slot : StateKey)
    (id : EventId) : readCount (countOccurrence occurrences entry) slot id =
      if entry = (slot, id) then some ((readCount occurrences slot id).getD 0 + 1) else readCount occurrences slot id := by
  obtain ⟨place, value⟩ := entry
  by_cases sameSlot : slot = place
  · subst sameSlot
    by_cases sameId : id = value
    · subst sameId
      simp [readCount, countOccurrence]
    · have different : (slot, value) ≠ (slot, id) := fun eq => sameId (congrArg Prod.snd eq).symm
      simp only [readCount, countOccurrence, ExtTreeMap.getElem?_insert_self, Option.getD_some, if_neg different]
      exact insert_elsewhere sameId
  · have different : (place, value) ≠ (slot, id) := fun eq => sameSlot (congrArg Prod.fst eq).symm
    rw [readCount, countOccurrence, insert_elsewhere sameSlot, if_neg different, readCount]

theorem count_occurrences_read (entries : List (StateKey × EventId)) (occurrences : Occurrences) (slot : StateKey)
    (id : EventId) : readCount (entries.foldl countOccurrence occurrences) slot id = if entries.count (slot, id) =
    0 then readCount occurrences slot id
      else some ((readCount occurrences slot id).getD 0 + entries.count (slot, id)) := by
  induction entries generalizing occurrences with
  | nil => simp
  | cons entry tail ih =>
    rw [foldl_cons, ih, count_occurrence_read]
    by_cases same : entry = (slot, id)
    · subst same
      rw [if_pos rfl, count_cons_self]
      by_cases none : tail.count (slot, id) = 0
      · simp [none]
      · rw [if_neg none, if_neg (by omega), Option.getD_some, Nat.add_assoc, Nat.add_comm 1]
    · rw [if_neg same, count_cons_of_ne same]

def heldCount (stateMaps : List StateMap) (slot : StateKey) (id : EventId) : Nat :=
  stateMaps.countP fun state => state[slot]? = some id

theorem state_entry_count (state : StateMap) (slot : StateKey) (id : EventId) :
    state.toList.count (slot, id) = if state[slot]? = some id then 1 else 0 := by
  have distinct : state.toList.Nodup := by
    refine ExtTreeMap.distinct_keys_toList.imp fun {a b} apart same => apart ?_
    rw [same]
    exact ReflCmp.compare_self
  rw [distinct.count]
  simp only [ExtTreeMap.mem_toList_iff_getElem?_eq_some]

section

variable (stateMaps : List StateMap) (slot : StateKey) (id : EventId)

theorem entries_count : (stateMaps.flatMap fun state => state.toList).count (slot, id) =
    heldCount stateMaps slot id := by
  induction stateMaps with
  | nil => rfl
  | cons state tail ih =>
    rw [flatMap_cons, count_append, ih, state_entry_count, heldCount, heldCount, countP_cons]
    by_cases here : state[slot]? = some id
    · simp [here, Nat.add_comm]
    · simp [here]

theorem occurrences_in_read (count : Nat) : readCount (occurrencesIn stateMaps) slot id = some count ↔
    count = heldCount stateMaps slot id ∧ 0 < count := by
  rw [occurrencesIn, count_occurrences_read, entries_count]
  have empty : readCount ∅ slot id = none := by simp [readCount]
  rw [empty]
  by_cases none : heldCount stateMaps slot id = 0
  · simp only [none, if_true, reduceCtorEq, false_iff]
    omega
  · simp only [none, if_false, Option.getD_none, Nat.zero_add, Option.some.injEq]
    omega

end

def Rows.occurrences (rows : Rows) : List (StateKey × EventId × Nat) :=
  rows.flatMap fun row => row.2.map fun occurrence => (row.1, occurrence)

def splitOccurrence (stateSetCount : Nat) (out : SplitState) (occurrence : StateKey × EventId × Nat) : SplitState :=
  splitId stateSetCount occurrence.1 out occurrence.2

variable (stateSetCount : Nat) (occurrences : List (StateKey × EventId × Nat)) (out : SplitState)

theorem split_rows_flat (rows : Rows) :
    splitRows stateSetCount rows = rows.occurrences.foldl (splitOccurrence stateSetCount) ⟨∅, ∅⟩ := by
  rw [splitRows, Rows.occurrences, foldl_flatMap]
  simp only [foldl_map, splitOccurrence]

def agreedRows (stateSetCount : Nat) (occurrences : List (StateKey × EventId × Nat)) : List (StateKey × EventId) :=
  (occurrences.filter fun occurrence => occurrence.2.2 = stateSetCount).map fun occurrence =>
    (occurrence.1, occurrence.2.1)

theorem split_unconflicted : (occurrences.foldl (splitOccurrence stateSetCount) out).unconflicted =
    extend out.unconflicted (agreedRows stateSetCount occurrences) := by
  induction occurrences generalizing out with
  | nil => rfl
  | cons occurrence tail ih =>
    rw [foldl_cons, ih]
    by_cases every : occurrence.2.2 = stateSetCount
    · simp [splitOccurrence, splitId, agreedRows, every, extend]
    · simp [splitOccurrence, splitId, agreedRows, every]

def disputedIds (stateSetCount : Nat) (occurrences : List (StateKey × EventId × Nat)) (slot : StateKey) :
    List EventId :=
  (occurrences.filter fun occurrence => occurrence.1 = slot ∧ occurrence.2.2 ≠ stateSetCount).map fun occurrence =>
    occurrence.2.1

theorem split_occurrence_conflicted (occurrence : StateKey × EventId × Nat) (slot : StateKey) :
    (splitOccurrence stateSetCount out occurrence).conflicted[slot]? =
      if occurrence.1 = slot ∧ occurrence.2.2 ≠ stateSetCount then
        some (out.conflicted[slot]?.getD [] ++ [occurrence.2.1])
      else out.conflicted[slot]? := by
  by_cases every : occurrence.2.2 = stateSetCount
  · simp [splitOccurrence, splitId, every]
  · by_cases same : slot = occurrence.1
    · subst same
      simp [splitOccurrence, splitId, every]
    · rw [if_neg (fun both => same both.1.symm), splitOccurrence, splitId, if_neg every]
      exact insert_elsewhere same

theorem split_conflicted (slot : StateKey) : (occurrences.foldl (splitOccurrence stateSetCount) out).conflicted[slot]? =
      if disputedIds stateSetCount occurrences slot = [] then out.conflicted[slot]?
      else some (out.conflicted[slot]?.getD [] ++ disputedIds stateSetCount occurrences slot) := by
  induction occurrences generalizing out with
  | nil => simp [disputedIds]
  | cons occurrence tail ih =>
    rw [foldl_cons, ih, split_occurrence_conflicted]
    by_cases here : occurrence.1 = slot ∧ occurrence.2.2 ≠ stateSetCount
    · have head : disputedIds stateSetCount (occurrence :: tail) slot = occurrence.2.1 :: disputedIds stateSetCount tail slot := by
        rw [disputedIds, filter_cons_of_pos (by simpa using here), map_cons, ← disputedIds]
      rw [if_pos here, head, if_neg (cons_ne_nil _ _), Option.getD_some]
      by_cases none : disputedIds stateSetCount tail slot = []
      · rw [if_pos none, none]
      · rw [if_neg none, append_assoc, singleton_append]
    · have head : disputedIds stateSetCount (occurrence :: tail) slot = disputedIds stateSetCount tail slot := by
        rw [disputedIds, filter_cons_of_neg (by simpa using here), ← disputedIds]
      rw [if_neg here, head]

variable (order : Occurrences → Rows) (stateMaps : List StateMap)

theorem walked_occurrence (hashed : HashOrder order) {slot : StateKey} {id : EventId} {count : Nat} :
    (slot, id, count) ∈ (order (occurrencesIn stateMaps)).occurrences ↔ count = heldCount stateMaps slot id ∧
    0 < count := by
  obtain ⟨slots, ids⟩ := hashed (occurrencesIn stateMaps)
  rw [← occurrences_in_read, Rows.occurrences, mem_flatMap]
  constructor
  · intro walked
    obtain ⟨row, listed, occurrence⟩ := walked
    obtain ⟨found, member, same⟩ := mem_map.mp occurrence
    cases same
    exact ExtTreeMap.mem_toList_iff_getElem?_eq_some.mp ((ids row listed).mem_iff.mp member)
  · intro read
    have present : slot ∈ (occurrencesIn stateMaps).keys := by
      rw [ExtTreeMap.mem_keys, ExtTreeMap.mem_iff_isSome_getElem?]
      cases stored : (occurrencesIn stateMaps)[slot]? with
      | none => simp [readCount, stored] at read
      | some ids => rfl
    obtain ⟨row, listed, same⟩ := mem_map.mp (slots.mem_iff.mpr present)
    subst same
    refine ⟨row, listed, mem_map.mpr ⟨(id, count), ?_, rfl⟩⟩
    exact (ids row listed).mem_iff.mpr (ExtTreeMap.mem_toList_iff_getElem?_eq_some.mpr read)

theorem held_by_all (slot : StateKey) (id : EventId) :
    heldCount stateMaps slot id = stateMaps.length ↔ ∀ state ∈ stateMaps, state[slot]? = some id := by
  rw [heldCount, countP_eq_length]
  simp

theorem held_by_some (slot : StateKey) (id : EventId) : 0 < heldCount stateMaps slot id ↔ Holds stateMaps slot id := by
  rw [heldCount, countP_pos_iff, Holds]
  simp

theorem split_unconflicted_iff (hashed : HashOrder order) {slot : StateKey} {id : EventId} :
    (splitConflictedState order stateMaps).unconflicted[slot]? = some id ↔ Holds stateMaps slot id ∧
    ∀ state ∈ stateMaps, state[slot]? = some id := by
  rw [splitConflictedState, split_rows_flat, split_unconflicted]
  have agreed : ∀ row : StateKey × EventId, row ∈ agreedRows stateMaps.length
    (order (occurrencesIn stateMaps)).occurrences ↔
        Holds stateMaps row.1 row.2 ∧ ∀ state ∈ stateMaps, state[row.1]? = some row.2 := by
    intro row
    rw [← held_by_some, ← held_by_all, agreedRows, mem_map]
    constructor
    · intro listed
      obtain ⟨⟨slot, id, count⟩, kept, same⟩ := listed
      cases same
      obtain ⟨walked, every⟩ := mem_filter.mp kept
      obtain ⟨held, positive⟩ := (walked_occurrence order stateMaps hashed).mp walked
      exact ⟨held ▸ positive, held ▸ of_decide_eq_true every⟩
    · intro both
      refine ⟨(row.1, row.2, heldCount stateMaps row.1 row.2), mem_filter.mpr ⟨?_, decide_eq_true both.2⟩, rfl⟩
      exact (walked_occurrence order stateMaps hashed).mpr ⟨rfl, both.1⟩
  constructor
  · intro read
    rcases extend_source read with listed | stale
    · exact (agreed (slot, id)).mp listed
    · simp at stale
  · intro both
    have listed := (agreed (slot, id)).mpr both
    obtain ⟨⟨first, member, _⟩, every⟩ := both
    have consistent : ∀ row ∈ agreedRows stateMaps.length (order (occurrencesIn stateMaps)).occurrences,
      (fun slot : StateKey => first[slot]?) row.1 = some row.2 :=
      fun row listed => ((agreed row).mp listed).2 first member
    rw [extend_consistent ∅ _ (fun slot : StateKey => first[slot]?) consistent ⟨(slot, id), listed, rfl⟩]
    exact every first member

theorem disputed_member (hashed : HashOrder order) (slot : StateKey) (id : EventId) :
    id ∈ disputedIds stateMaps.length (order (occurrencesIn stateMaps)).occurrences slot ↔ Holds stateMaps slot id ∧
    ¬ ∀ state ∈ stateMaps, state[slot]? = some id := by
  rw [← held_by_some, ← held_by_all, disputedIds, mem_map]
  constructor
  · intro listed
    obtain ⟨⟨place, found, count⟩, kept, same⟩ := listed
    obtain ⟨walked, partly⟩ := mem_filter.mp kept
    have partly := of_decide_eq_true partly
    obtain ⟨held, positive⟩ := (walked_occurrence order stateMaps hashed).mp walked
    cases same
    cases partly.1
    exact ⟨held ▸ positive, fun every => partly.2 (held.trans every)⟩
  · intro both
    refine ⟨(slot, id, heldCount stateMaps slot id), mem_filter.mpr ⟨?_, decide_eq_true ⟨rfl, both.2⟩⟩, rfl⟩
    exact (walked_occurrence order stateMaps hashed).mpr ⟨rfl, both.1⟩

def conflictSet (out : SplitState) (slot : StateKey) : Option (BTreeSet EventId) :=
  out.conflicted[slot]?.map fun ids => ExtTreeSet.ofList ids

theorem conflict_set_iff (hashed : HashOrder order) (slot : StateKey) (ids : BTreeSet EventId) :
    conflictSet (splitConflictedState order stateMaps) slot = some ids ↔
      (∀ id, id ∈ ids ↔ Holds stateMaps slot id ∧ ¬ ∀ state ∈ stateMaps, state[slot]? = some id) ∧ ids ≠ ∅ := by
  have listed := disputed_member order stateMaps hashed slot
  rw [conflictSet, splitConflictedState, split_rows_flat, split_conflicted]
  by_cases none : disputedIds stateMaps.length (order (occurrencesIn stateMaps)).occurrences slot = []
  · rw [if_pos none]
    simp only [ExtTreeMap.getElem?_empty, Option.map_none, reduceCtorEq, false_iff]
    intro both
    apply both.2
    refine ExtTreeSet.ext_mem fun id => ?_
    rw [both.1 id, ← listed id, none]
    simp
  · rw [if_neg none]
    simp only [ExtTreeMap.getElem?_empty, Option.getD_none, nil_append, Option.map_some, Option.some.injEq]
    constructor
    · intro same
      subst same
      refine ⟨fun id => ?_, fun empty => none ?_⟩
      · rw [← listed id, ExtTreeSet.mem_ofList, contains_iff_mem]
      · refine eq_nil_iff_forall_not_mem.mpr fun id member => ?_
        have inside : id ∈ (ExtTreeSet.ofList
          (disputedIds stateMaps.length (order (occurrencesIn stateMaps)).occurrences slot) : BTreeSet EventId) := by
          rw [ExtTreeSet.mem_ofList, contains_iff_mem]
          exact member
        rw [empty] at inside
        simp at inside
    · intro both
      refine ExtTreeSet.ext_mem fun id => ?_
      rw [ExtTreeSet.mem_ofList, contains_iff_mem, listed id, both.1 id]

def PartlyHeld (slot : StateKey) : Prop := (∃ id, ∀ other, Holds stateMaps slot other ↔ other = id) ∧
    ∃ state ∈ stateMaps, state[slot]? = none

theorem unconflicted_agrees (hashed : HashOrder order) {slot : StateKey} (whole : ¬ PartlyHeld stateMaps slot) :
    (splitConflictedState order stateMaps).unconflicted[slot]? = (partition stateMaps).unconflicted[slot]? := by
  refine Option.ext fun id => ?_
  rw [split_unconflicted_iff order stateMaps hashed, partition_unconflicted]
  constructor
  · intro ⟨held, every⟩ other
    constructor
    · intro ⟨state, member, read⟩
      rw [every state member] at read
      exact (Option.some.inj read).symm
    · exact fun same => same ▸ held
  · intro only
    refine ⟨(only id).mpr rfl, fun state member => ?_⟩
    cases read : state[slot]? with
    | none => exact absurd ⟨⟨id, only⟩, state, member, read⟩ whole
    | some other => rw [(only other).mp ⟨state, member, read⟩]

theorem two_held_disagree {slot : StateKey} {a b : EventId} (different : a ≠ b) (heldA : Holds stateMaps slot a)
    (heldB : Holds stateMaps slot b) {id : EventId} : ¬ ∀ state ∈ stateMaps, state[slot]? = some id := by
  intro every
  obtain ⟨first, firstMember, firstRead⟩ := heldA
  obtain ⟨state, member, read⟩ := heldB
  rw [every first firstMember] at firstRead
  rw [every state member] at read
  exact different ((Option.some.inj firstRead).symm.trans (Option.some.inj read))

theorem disputed_second {slot : StateKey} (whole : ¬ PartlyHeld stateMaps slot) {id : EventId}
    (held : Holds stateMaps slot id)
    (disputed : ¬ ∀ state ∈ stateMaps, state[slot]? = some id) : ∃ other, other ≠ id ∧ Holds stateMaps slot other := by
  by_contra alone
  refine whole ⟨⟨id, fun other => ⟨fun heldOther => ?_, fun same => same ▸ held⟩⟩, ?_⟩
  · by_contra different
    exact alone ⟨other, different, heldOther⟩
  · by_contra full
    refine disputed fun state member => ?_
    cases read : state[slot]? with
    | none => exact absurd ⟨state, member, read⟩ full
    | some other =>
      by_contra different
      exact alone ⟨other, fun same => different (by rw [same]), state, member, read⟩

theorem conflicted_agrees (hashed : HashOrder order) {slot : StateKey} (whole : ¬ PartlyHeld stateMaps slot) :
    conflictSet (splitConflictedState order stateMaps) slot = (partition stateMaps).conflicted[slot]? := by
  refine Option.ext fun ids => ?_
  rw [conflict_set_iff order stateMaps hashed, partition_conflicted]
  constructor
  · intro ⟨members, nonempty⟩
    obtain ⟨id, least⟩ := Option.isSome_iff_exists.mp (ExtTreeSet.isSome_min?_iff_ne_empty.mpr nonempty)
    have inside := (ExtTreeSet.min?_eq_some_iff_mem_and_forall.mp least).1
    obtain ⟨held, disputed⟩ := (members id).mp inside
    obtain ⟨other, different, heldOther⟩ := disputed_second stateMaps whole held disputed
    refine ⟨fun candidate => ?_, other, id, different, heldOther, held⟩
    rw [members candidate, and_iff_left (two_held_disagree stateMaps different heldOther held)]
  · intro ⟨members, a, b, different, heldA, heldB⟩
    refine ⟨fun id => ?_, fun empty => ?_⟩
    · rw [members id, and_iff_left (two_held_disagree stateMaps different heldA heldB)]
    · have inside := (members a).mpr heldA
      rw [empty] at inside
      simp at inside

theorem partly_held_split (hashed : HashOrder order) {slot : StateKey} (partly : PartlyHeld stateMaps slot) :
    ∃ id, (partition stateMaps).unconflicted[slot]? = some id ∧ (partition stateMaps).conflicted[slot]? = none ∧
      (splitConflictedState order stateMaps).unconflicted[slot]? = none ∧
      conflictSet (splitConflictedState order stateMaps) slot = some (ExtTreeSet.ofList [id]) := by
  obtain ⟨⟨id, only⟩, lacking, member, read⟩ := partly
  have missing : ∀ other, ¬ ∀ state ∈ stateMaps, state[slot]? = some other := by
    intro other every
    rw [every lacking member] at read
    cases read
  refine ⟨id, (partition_unconflicted stateMaps slot id).mpr only, ?_, ?_, ?_⟩
  · refine Option.eq_none_iff_forall_ne_some.mpr fun ids filed => ?_
    obtain ⟨_, a, b, different, heldA, heldB⟩ := (partition_conflicted stateMaps slot ids).mp filed
    exact different (((only a).mp heldA).trans ((only b).mp heldB).symm)
  · refine Option.eq_none_iff_forall_ne_some.mpr fun other filed => ?_
    exact missing other ((split_unconflicted_iff order stateMaps hashed).mp filed).2
  · rw [conflict_set_iff order stateMaps hashed]
    refine ⟨fun other => ?_, by simp⟩
    rw [and_iff_left (missing other), only other, ExtTreeSet.mem_ofList, contains_iff_mem, mem_singleton]

end

theorem split_agrees_unless_partly_held (order : Occurrences → Rows) (hashed : HashOrder order)
    (stateMaps : List StateMap) (slot : StateKey) : (¬ PartlyHeld stateMaps slot →
    (splitConflictedState order stateMaps).unconflicted[slot]? = (partition stateMaps).unconflicted[slot]? ∧
      conflictSet (splitConflictedState order stateMaps) slot = (partition stateMaps).conflicted[slot]?) ∧
    (PartlyHeld stateMaps slot → ∃ id, (partition stateMaps).unconflicted[slot]? = some id ∧
    (partition stateMaps).conflicted[slot]? = none ∧
      (splitConflictedState order stateMaps).unconflicted[slot]? = none ∧
      conflictSet (splitConflictedState order stateMaps) slot = some (ExtTreeSet.ofList [id])) :=
  ⟨fun whole => ⟨unconflicted_agrees order stateMaps hashed whole, conflicted_agrees order stateMaps hashed whole⟩,
    partly_held_split order stateMaps hashed⟩

def topicKey : StateKey := ("m.room.topic", "")

def topicForks : List StateMap :=
  [ExtTreeMap.ofList [(createKey, "$c"), (topicKey, "$t")], ExtTreeMap.ofList [(createKey, "$c")]]

theorem create_agreed : (splitConflictedState ascending topicForks).unconflicted[createKey]? = some "$c" := by
  have whole : ¬ PartlyHeld topicForks createKey := by
    intro partly
    obtain ⟨_, state, member, read⟩ := partly
    simp only [topicForks, mem_cons, not_mem_nil, or_false] at member
    rcases member with same | same <;> subst same <;> revert read <;> decide +kernel
  rw [((split_agrees_unless_partly_held ascending ascending_hash_order topicForks createKey).1 whole).1]
  decide +kernel

theorem topic_split_differs : (partition topicForks).unconflicted[topicKey]? = some "$t" ∧
    (splitConflictedState ascending topicForks).unconflicted[topicKey]? = none ∧
    (splitConflictedState ascending topicForks).conflicted[topicKey]? = some ["$t"] := by
  decide +kernel

end GaussMatrix.Rooms

import GaussMatrix.Rooms.EventAuth
import GaussMatrix.Rooms.MainlineSort
import GaussMatrix.Rooms.PowerSort
import GaussMatrix.Rooms.SplitConflicted

namespace GaussMatrix.Rooms

open Chase Collections List Std Worklist
open StateRes (EventId EventStore StateKey StateMap Holds createType memberType joinRulesType powerLevelsKey
  sortKeyed mainlineLe)

section

structure Counts where
  byId : BTreeMap EventId Nat
  total : Nat

def countId (byId : BTreeMap EventId Nat) (id : EventId) : BTreeMap EventId Nat := byId.insert id (byId[id]?.getD 0 + 1)

def Counts.merge (counts : Counts) (set : BTreeSet EventId) : Counts :=
  ⟨set.toList.foldl countId counts.byId, counts.total + 1⟩

def authDifference (authSets : List (BTreeSet EventId)) : List EventId :=
  let counts := authSets.foldl Counts.merge ⟨∅, 0⟩
  (counts.byId.toList.filter fun entry => entry.2 < counts.total).map Prod.fst

variable {Content : Type} [AuthView Content]

-- Outside of its tests the server rejects no stored event.
def Pdu.rejected (_ : Pdu Content) : Bool := false

abbrev StateEntry (Content : Type) := StateKey × Pdu Content

def dropRepeats (key : StateKey) : List (StateEntry Content) → List (StateEntry Content)
  | [] => []
  | entry :: rest => if entry.1 = key then dropRepeats key rest else entry :: dropRepeats entry.1 rest

def dedupByKey : List (StateEntry Content) → List (StateEntry Content)
  | [] => []
  | entry :: rest => entry :: dropRepeats entry.1 rest

def keyLe (entry other : StateEntry Content) : Bool := (compare entry.1 other.1).isLE

variable (fetch : EventId → Except Error (Pdu Content))

def citedEntries : List EventId → Except Error (List (StateEntry Content))
  | [] => .ok []
  | id :: rest =>
    match fetch id with
    | .error _ => citedEntries rest
    | .ok authEvent =>
      match authEvent.stateKey with
      | none => .error (invalidParam "Missing state_key")
      | some stateKey =>
        (citedEntries rest).map fun entries => if authEvent.rejected then entries else ((authEvent.kind, stateKey), authEvent) :: entries

def heldEntries (state : StateMap) (authTypes : List StateKey) : List (StateEntry Content) :=
  authTypes.filterMap fun key => state[key]?.bind fun id => (fetch id).toOption.bind fun authEvent =>
    if authEvent.rejected then none else some (key, authEvent)

def alsoCreateId (rules : AuthorizationRules) (event : Pdu Content) : List EventId :=
  if event.kind ≠ createType ∧
    rules.roomCreateEventIdAsRoomId = true then (AuthView.roomEventId Content event.roomId).toOption.toList else []

def fetchState (authEvents : List (StateEntry Content)) (key : StateKey) : Except Error (Pdu Content) :=
  match authEvents.find? fun entry => entry.1 = key with
  | some entry => .ok entry.2
  | none =>
    let type := key.1
    let stateKey := key.2
    .error ⟨.notFound, s!"Missing auth_event {type},{stateKey}"⟩

def iterativeAuthStep (rules : AuthorizationRules) (state : StateMap) (eventId : EventId) (stateKey : String)
    (event : Pdu Content) : Except Error StateMap :=
  match authTypesForEvent event.kind event.sender (some stateKey) event.content rules true with
  | .error _ => .ok state
  | .ok authTypes => do
    let cited ← citedEntries fetch (event.authEvents ++ alsoCreateId rules event)
    let sorted := (cited ++ heldEntries fetch state authTypes).insertionSort fun entry other => keyLe entry other = true
    let authEvents := dedupByKey sorted.reverse
    match (checkStateDependentAuthRules rules event).run (fetchState authEvents) with
    | .ok _ => .ok (state.insert (event.kind, stateKey) eventId)
    | .error _ => .ok state

def iterativeAuthCheck (rules : AuthorizationRules) (events : List EventId) (state : StateMap) :
    Except Error StateMap := events.foldlM (fun state eventId => do
    let event ← fetch eventId
    match event.stateKey with
    | none => .error (invalidParam "Missing state_key")
    | some stateKey => iterativeAuthStep fetch rules state eventId stateKey event) state

end

section

structure StateResolutionV2Rules where
  considerConflictedStateSubgraph : Bool
  beginIterativeAuthChecksWithEmptyStateMap : Bool

structure RoomVersionRules where
  authorization : AuthorizationRules
  v2 : Option StateResolutionV2Rules

structure ResolveSchedule extends PowerSchedule where
  occurrences : Occurrences → Rows
  remaining : List EventId → List EventId
  subgraph : List EventId → List EventId

structure ResolveSchedule.Fair (schedule : ResolveSchedule) :
    Prop extends PowerSchedule.Fair schedule.toPowerSchedule where
  occurrences : HashOrder schedule.occurrences
  remaining : ∀ ids, (schedule.remaining ids).Perm ids

def considersSubgraph (rules : RoomVersionRules) (backportCss : Bool) : Bool :=
  rules.v2.any (·.considerConflictedStateSubgraph) || backportCss

def conflictedStateSet (conflictedStates : ConflictMap) : List EventId :=
  (ExtTreeSet.ofList (conflictedStates.toList.flatMap fun entry => entry.2)).toList

def fullConflictedSet (rules : RoomVersionRules) (conflictedStates : ConflictMap) (authSets : List (BTreeSet EventId))
    (isStored : EventId → Bool) (backportCss : Bool) (subgraph : List EventId → List EventId) : BTreeSet EventId :=
  let conflicted := conflictedStateSet conflictedStates
  ExtTreeSet.ofList ((authDifference authSets ++ conflicted).filter isStored ++
    if considersSubgraph rules backportCss then subgraph conflicted else [])

variable {Content : Type} [AuthView Content]

section

variable (rules : RoomVersionRules) (fetch : EventId → Except Error (Pdu Content)) (full : BTreeSet EventId)
  (unconflicted : StateMap)

def resolveRemaining (remainingOrder : List EventId → List EventId) (fuel : Nat) (sortedPowerSet : List EventId) :
    Option (Except Error StateMap) :=
  let initialState := if rules.v2.all (!·.beginIterativeAuthChecksWithEmptyStateMap) then unconflicted else ∅
  match iterativeAuthCheck fetch rules.authorization sortedPowerSet initialState with
  | .error error => some (.error error)
  | .ok partiallyResolved =>
    let remaining := full.toList.filter fun id => !sortedPowerSet.contains id
    let sorted := if remaining.isEmpty then some (.ok [])
      else mainlineSort fetch fuel partiallyResolved[powerLevelsKey]? (remainingOrder remaining)
    sorted.map fun sorted => sorted.bind fun sortedRemaining =>
      (iterativeAuthCheck fetch rules.authorization sortedRemaining partiallyResolved).map fun resolved => extend resolved unconflicted.toList

def resolveConflicts (schedule : ResolveSchedule) (fuel : Nat) : Option (Except Error StateMap) :=
  match powerSort fetch full rules.authorization schedule.toPowerSchedule fuel with
  | none => none
  | some (.error error) => some (.error error)
  | some (.ok sortedPowerSet) => resolveRemaining rules fetch full unconflicted schedule.remaining fuel sortedPowerSet

end

def resolve (rules : RoomVersionRules) (stateMaps : List StateMap) (authSets : List (BTreeSet EventId))
    (fetch : EventId → Except Error (Pdu Content)) (isStored : EventId → Bool) (backportCss : Bool)
    (schedule : ResolveSchedule) (fuel : Nat) : Option (Except Error StateMap) :=
  let split := splitConflictedState schedule.occurrences stateMaps
  if split.conflicted.isEmpty then some (.ok split.unconflicted)
  else
    let full := fullConflictedSet rules split.conflicted authSets isStored backportCss schedule.subgraph
    resolveConflicts rules fetch full split.unconflicted schedule fuel

end

section

theorem count_ids_read {ids : List EventId} (distinct : ids.Nodup) (byId : BTreeMap EventId Nat) (id : EventId) :
    (ids.foldl countId byId)[id]? = if id ∈ ids then some (byId[id]?.getD 0 + 1) else byId[id]? := by
  induction ids generalizing byId with
  | nil => rfl
  | cons head tail ih =>
    obtain ⟨fresh, tailDistinct⟩ := nodup_cons.mp distinct
    rw [foldl_cons, ih tailDistinct]
    by_cases same : id = head
    · subst same
      rw [if_neg fresh, if_pos mem_cons_self, countId, ExtTreeMap.getElem?_insert_self]
    · rw [countId, insert_elsewhere same]
      simp [same]

theorem merge_commutes (counts : Counts) (set other : BTreeSet EventId) :
    (counts.merge set).merge other = (counts.merge other).merge set := by
  have same : ((counts.merge set).merge other).byId = ((counts.merge other).merge set).byId := by
    refine ExtTreeMap.ext_getElem? fun id => ?_
    simp only [Counts.merge, count_ids_read (set_nodup _)]
    split <;> split <;> rfl
  rw [Counts.merge, Counts.mk.injEq]
  exact ⟨same, rfl⟩

theorem auth_difference_perm {authSets others : List (BTreeSet EventId)} (layout : others.Perm authSets) :
    authDifference others = authDifference authSets := by
  have commutes : RightCommutative Counts.merge := ⟨merge_commutes⟩
  have merged : others.foldl Counts.merge ⟨∅, 0⟩ = authSets.foldl Counts.merge ⟨∅, 0⟩ := layout.foldl_eq _
  rw [authDifference, authDifference, merged]

def Disputed (stateMaps : List StateMap) (slot : StateKey) (id : EventId) : Prop :=
  Holds stateMaps slot id ∧ ¬ ∀ state ∈ stateMaps, state[slot]? = some id

variable {order : Occurrences → Rows} {stateMaps others : List StateMap} {otherOrder : Occurrences → Rows}

theorem conflicted_member (hashed : HashOrder order) {slot : StateKey} :
    (splitConflictedState order stateMaps).conflicted[slot]? = none ∧ (∀ id, ¬ Disputed stateMaps slot id) ∨
      ∃ ids, (splitConflictedState order stateMaps).conflicted[slot]? = some ids ∧ ids ≠ [] ∧ ∀ id, id ∈ ids ↔
      Disputed stateMaps slot id := by
  have listed := disputed_member order stateMaps hashed slot
  rw [splitConflictedState, split_rows_flat, split_conflicted]
  split
  case isTrue none =>
    refine .inl ⟨ExtTreeMap.getElem?_empty, fun id disputed => ?_⟩
    have member := (listed id).mpr disputed
    rw [none] at member
    exact not_mem_nil member
  case isFalse some =>
    exact .inr ⟨_, rfl, some, listed⟩

theorem conflicted_state_set_member (hashed : HashOrder order) (stateMaps : List StateMap) (id : EventId) :
    id ∈ conflictedStateSet (splitConflictedState order stateMaps).conflicted ↔ ∃ slot, Disputed stateMaps slot id := by
  rw [conflictedStateSet, ExtTreeSet.mem_toList, ExtTreeSet.mem_ofList, contains_iff_mem, mem_flatMap]
  constructor
  · intro listed
    obtain ⟨⟨slot, ids⟩, entry, member⟩ := listed
    have read := ExtTreeMap.mem_toList_iff_getElem?_eq_some.mp entry
    rcases conflicted_member hashed with absent | present
    · rw [absent.1] at read
      cases read
    · obtain ⟨others, found, _, disputed⟩ := present
      cases found.symm.trans read
      exact ⟨slot, (disputed id).mp member⟩
  · intro disputed
    obtain ⟨slot, inSlot⟩ := disputed
    rcases conflicted_member hashed with absent | present
    · exact absurd inSlot (absent.2 id)
    · obtain ⟨ids, found, _, same⟩ := present
      exact ⟨(slot, ids), ExtTreeMap.mem_toList_iff_getElem?_eq_some.mpr found, (same id).mpr inSlot⟩

theorem conflicted_empty_iff (hashed : HashOrder order) (stateMaps : List StateMap) :
    (splitConflictedState order stateMaps).conflicted.isEmpty = true ↔ ∀ slot id, ¬ Disputed stateMaps slot id := by
  rw [ExtTreeMap.isEmpty_iff]
  constructor
  · intro empty slot id disputed
    rcases conflicted_member hashed with absent | present
    · exact absent.2 id disputed
    · obtain ⟨ids, found, _, _⟩ := present
      rw [empty] at found
      cases found
  · intro none
    refine ExtTreeMap.ext_getElem? fun slot => ?_
    rcases conflicted_member hashed with absent | present
    · exact absent.1
    · obtain ⟨ids, _, nonempty, disputed⟩ := present
      obtain ⟨id, member⟩ := exists_mem_of_ne_nil ids nonempty
      exact absurd ((disputed id).mp member) (none slot id)

theorem disputed_perm (layout : others.Perm stateMaps) (slot : StateKey) (id : EventId) :
    Disputed others slot id ↔ Disputed stateMaps slot id := by
  simp only [Disputed, Holds, layout.mem_iff]

theorem unconflicted_perm (hashed : HashOrder order) (otherHashed : HashOrder otherOrder)
    (layout : others.Perm stateMaps) :
    (splitConflictedState otherOrder others).unconflicted = (splitConflictedState order stateMaps).unconflicted := by
  refine ExtTreeMap.ext_getElem? fun slot => Option.ext fun id => ?_
  rw [split_unconflicted_iff otherOrder others otherHashed, split_unconflicted_iff order stateMaps hashed]
  simp only [Holds, layout.mem_iff]

theorem conflicted_empty_perm (hashed : HashOrder order) (otherHashed : HashOrder otherOrder)
    (layout : others.Perm stateMaps) : (splitConflictedState otherOrder others).conflicted.isEmpty =
    (splitConflictedState order stateMaps).conflicted.isEmpty := by
  rw [Bool.eq_iff_iff, conflicted_empty_iff otherHashed, conflicted_empty_iff hashed]
  simp only [disputed_perm layout]

theorem full_conflicted_set_perm {rules : RoomVersionRules} {backportCss : Bool}
    (plain : considersSubgraph rules backportCss = false) (hashed : HashOrder order)
    (otherHashed : HashOrder otherOrder) (layout : others.Perm stateMaps)
    {authSets otherSets : List (BTreeSet EventId)} (setLayout : otherSets.Perm authSets) (isStored : EventId → Bool)
    (subgraph otherSubgraph : List EventId → List EventId) :
    fullConflictedSet rules (splitConflictedState otherOrder others).conflicted otherSets isStored backportCss
    otherSubgraph =
      fullConflictedSet rules (splitConflictedState order stateMaps).conflicted authSets isStored backportCss subgraph := by
  refine ExtTreeSet.ext_mem fun id => ?_
  rw [fullConflictedSet, fullConflictedSet, plain, auth_difference_perm setLayout, ExtTreeSet.mem_ofList,
    ExtTreeSet.mem_ofList, contains_iff_mem, contains_iff_mem]
  simp only [Bool.false_eq_true, if_false, append_nil, mem_filter, mem_append, conflicted_state_set_member otherHashed,
    conflicted_state_set_member hashed, disputed_perm layout]

variable {Content : Type} {fetch : EventId → Except Error (Pdu Content)}

def Cites (fetch : EventId → Except Error (Pdu Content)) (auth id : EventId) : Prop :=
  ∃ event, fetch id = .ok event ∧ auth ∈ event.authEvents

def OwnIds (fetch : EventId → Except Error (Pdu Content)) : Prop :=
  ∀ id event, fetch id = .ok event → event.eventId = id

theorem power_levels_auth_event_cited {ids : List EventId} {found : Pdu Content}
    (read : getPowerLevelsAuthEvent fetch ids = .ok (some found)) : ∃ id ∈ ids, fetch id = .ok found := by
  induction ids with
  | nil => cases read
  | cons id rest ih =>
    rw [getPowerLevelsAuthEvent] at read
    cases fetched : fetch id with
    | error error =>
      rw [fetched] at read
      cases read
    | ok event =>
      simp only [fetched] at read
      split at read
      · cases read
        exact ⟨id, mem_cons_self, fetched⟩
      · obtain ⟨other, member, isFound⟩ := ih read
        exact ⟨other, mem_cons_of_mem id member, isFound⟩

theorem ends_later {Result : Type} {run : Nat → Option Result} (result : Result) (bound : Nat)
    (stops : ∀ fuel, bound ≤ fuel → run (fuel + 1) = some result) :
    ∃ result bound, ∀ fuel, bound ≤ fuel → run fuel = some result := by
  refine ⟨result, bound + 1, fun fuel enough => ?_⟩
  obtain ⟨fuel, rfl⟩ := Nat.exists_eq_succ_of_ne_zero (Nat.ne_zero_of_lt enough)
  exact stops fuel (Nat.le_of_succ_le_succ enough)

theorem mainline_of_ends (own : OwnIds fetch) (founded : WellFounded (Cites fetch)) (id : EventId) :
    ∃ result bound, ∀ fuel, bound ≤ fuel → mainlineOf fetch fuel (some id) = some result := by
  induction id using founded.induction with
  | _ id ih =>
    cases fetched : fetch id with
    | error error =>
      refine ends_later (.error error) 0 fun fuel _ => ?_
      simp only [mainlineOf, fetched]
    | ok event =>
      cases next : getPowerLevelsAuthEvent fetch event.authEvents with
      | error error =>
        refine ends_later (.error error) 0 fun fuel _ => ?_
        simp only [mainlineOf, fetched, next]
      | ok found =>
        cases found with
        | none =>
          refine ends_later (.ok [event.eventId]) 0 fun fuel _ => ?_
          simp only [mainlineOf, fetched, next]
          cases fuel <;> rfl
        | some auth =>
          obtain ⟨authId, cited, isAuth⟩ := power_levels_auth_event_cited next
          obtain rfl := own authId auth isAuth
          obtain ⟨result, bound, ended⟩ := ih auth.eventId ⟨event, fetched, cited⟩
          refine ends_later (result.map (event.eventId :: ·)) bound fun fuel enough => ?_
          simp only [mainlineOf, fetched, next, Option.map_some, ended fuel enough]

theorem mainline_position_ends (founded : WellFounded (Cites fetch)) (mainline : List EventId) (id : EventId) :
    ∀ event, fetch id = .ok event → ∃ result bound, ∀ fuel, bound ≤ fuel →
    mainlinePosition fetch mainline fuel (some event) = some result := by
  induction id using founded.induction with
  | _ id ih =>
    intro event fetched
    cases hit : mainline.idxOf? event.eventId with
    | some position =>
      refine ends_later (.ok (position + 1)) 0 fun fuel _ => ?_
      simp only [mainlinePosition, hit]
    | none =>
      cases next : getPowerLevelsAuthEvent fetch event.authEvents with
      | error error =>
        refine ends_later (.error error) 0 fun fuel _ => ?_
        simp only [mainlinePosition, hit, next]
      | ok found =>
        cases found with
        | none =>
          refine ends_later (.ok 0) 0 fun fuel _ => ?_
          cases fuel <;> simp only [mainlinePosition, hit, next]
        | some auth =>
          obtain ⟨authId, cited, isAuth⟩ := power_levels_auth_event_cited next
          obtain ⟨result, bound, ended⟩ := ih authId ⟨event, fetched, cited⟩ auth isAuth
          refine ends_later result bound fun fuel enough => ?_
          simp only [mainlinePosition, hit, next, ended fuel enough]

theorem mainline_entry_ends (founded : WellFounded (Cites fetch)) {mainline : List EventId} (id : EventId) :
    ∃ entry bound, ∀ fuel, bound ≤ fuel → mainlineEntry fetch fuel mainline id = some entry := by
  cases fetched : fetch id with
  | error error => exact ⟨none, 0, fun fuel _ => by simp only [mainlineEntry, fetched]⟩
  | ok event =>
    obtain ⟨result, bound, ended⟩ := mainline_position_ends founded mainline id event fetched
    exact ⟨_, bound, fun fuel enough => by simp only [mainlineEntry, fetched, ended fuel enough]; rfl⟩

theorem sort_keyed_perm {keyed others : List (Nat × Nat × EventId)} (layout : others.Perm keyed) :
    sortKeyed others = sortKeyed keyed := by
  rw [← StateRes.sort_keyed_canonical ((perm_insertionSort _ others).trans layout) (pairwise_insertionSort _ others)]
  rfl

theorem mainline_sort_converges (own : OwnIds fetch) (founded : WellFounded (Cites fetch)) (top : Option EventId)
    (ids : List EventId) : ∃ outcome bound, ∀ arrived : List EventId, arrived.Perm ids → ∀ fuel, bound ≤ fuel →
    mainlineSort fetch fuel top arrived = some outcome := by
  obtain ⟨line, lineBound, lineEnds⟩ : ∃ result bound, ∀ fuel, bound ≤ fuel →
    mainlineOf fetch fuel top = some result := by
    cases top with
    | none => exact ⟨.ok [], 0, fun fuel _ => by cases fuel <;> rfl⟩
    | some id => exact mainline_of_ends own founded id
  cases line with
  | error error =>
    exact ⟨.error error, lineBound, fun arrived _ fuel enough => by rw [mainlineSort, lineEnds fuel enough]⟩
  | ok mainline =>
    choose entry bound ended using mainline_entry_ends founded
    refine ⟨.ok (sortKeyed ((ids.map entry).reduceOption.map fun row => (row.2.1, row.2.2, row.1))),
      lineBound + (ids.map bound).sum, fun arrived layout fuel enough => ?_⟩
    have entries : arrived.mapM (mainlineEntry fetch fuel mainline.reverse) = some (arrived.map entry) := by
      rw [map_all_ended, List.forall₂_map_right_iff, List.forall₂_same]
      intro id member
      have heavy := single_le_sum (fun _ _ => Nat.zero_le _) _ (mem_map_of_mem (f := bound) (layout.mem_iff.mp member))
      exact ended id fuel (by omega)
    rw [mainlineSort, lineEnds fuel (by omega)]
    simp only [entries, Option.map_some, entry_sort_keyed]
    have kept : (arrived.map entry).reduceOption.Perm (ids.map entry).reduceOption := (layout.map entry).filterMap id
    rw [sort_keyed_perm (kept.map _)]

variable {store : EventStore (Pdu Content)} {missing : EventId → Error} {full : BTreeSet EventId}

def storedFetch (store : EventStore (Pdu Content)) (missing : EventId → Error) (id : EventId) :
    Except Error (Pdu Content) :=
  match store[id]? with
  | some event => .ok event
  | none => .error (missing id)

theorem stored_fetch_ok {id : EventId} {event : Pdu Content} :
    storedFetch store missing id = .ok event ↔ store[id]? = some event := by
  rw [storedFetch]
  cases store[id]? with
  | none => exact iff_of_false (fun fetched => nomatch fetched) (fun read => nomatch read)
  | some stored => rw [Except.ok.injEq, Option.some.injEq]

theorem stored_cites_founded (acyclic : ∀ id, ¬ Relation.TransGen (Cites (storedFetch store missing)) id id) :
    WellFounded (Cites (storedFetch store missing)) := by
  refine founded_of_acyclic _ store.keys (fun auth id cited => ?_) acyclic
  obtain ⟨event, fetched, _⟩ := cited
  rw [ExtTreeMap.mem_keys, ExtTreeMap.mem_iff_isSome_getElem?, stored_fetch_ok.mp fetched]
  rfl

theorem stored_fetched (own : OwnIds (storedFetch store missing)) (stored : ∀ id ∈ full, id ∈ store) :
    Fetched (storedFetch store missing) full := by
  intro id member
  obtain ⟨event, read⟩ := mem_iff_read.mp (stored id member)
  have fetched : storedFetch store missing id = .ok event := stored_fetch_ok.mpr read
  exact ⟨event, fetched, own id event fetched⟩

theorem auth_in_cited {id auth : EventId} (member : auth ∈ authIn fetch full id) : Cites fetch auth id := by
  rw [authIn] at member
  split at member
  case h_1 event fetched => exact ⟨event, fetched, mem_of_mem_filter member⟩
  case h_2 => exact absurd member not_mem_nil

end

variable {Content : Type} [AuthView Content] (rules : RoomVersionRules) {fetch : EventId → Except Error (Pdu Content)}

theorem resolve_remaining_converges (own : OwnIds fetch) (founded : WellFounded (Cites fetch)) (full : BTreeSet EventId)
    (unconflicted : StateMap) (sortedPowerSet : List EventId) :
    ∃ outcome bound, ∀ order : List EventId → List EventId, (∀ ids, (order ids).Perm ids) → ∀ fuel, bound ≤ fuel →
      resolveRemaining rules fetch full unconflicted order fuel sortedPowerSet = some outcome := by
  simp only [resolveRemaining]
  split
  case h_1 error _ => exact ⟨.error error, 0, fun order _ fuel _ => rfl⟩
  case h_2 partiallyResolved _ =>
    split
    · exact ⟨_, 0, fun order _ fuel _ => rfl⟩
    · obtain ⟨sorted, bound, converged⟩ := mainline_sort_converges own founded partiallyResolved[powerLevelsKey]?
        (full.toList.filter fun id => !sortedPowerSet.contains id)
      exact ⟨_, bound, fun order layout fuel enough => congrArg (Option.map _) (converged (order _) (layout _) fuel enough)⟩

theorem resolve_conflicts_converge (own : OwnIds fetch) (founded : WellFounded (Cites fetch)) {full : BTreeSet EventId}
    (fetched : Fetched fetch full) (unconflicted : StateMap) :
    ∃ outcome bound, ∀ schedule : ResolveSchedule, schedule.Fair → ∀ fuel, bound ≤ fuel →
      (resolveConflicts rules fetch full unconflicted schedule fuel).map Except.toOption = some outcome := by
  obtain ⟨weight, lighter⟩ := exists_weight founded fun _ _ => auth_in_cited
  obtain ⟨sorted, sortBound, sorts⟩ := power_sort_converges rules.authorization fetched lighter
  cases sorted with
  | none =>
    refine ⟨none, sortBound, fun schedule fair fuel enough => ?_⟩
    obtain ⟨result, run, failed⟩ := Option.map_eq_some_iff.mp (sorts schedule.toPowerSchedule fair.toFair fuel enough)
    cases result with
    | error error => rw [resolveConflicts, run]; rfl
    | ok sortedPowerSet => cases failed
  | some sortedPowerSet =>
    obtain ⟨outcome, restBound, ends⟩ := resolve_remaining_converges rules own founded full unconflicted sortedPowerSet
    refine ⟨outcome.toOption, sortBound + restBound, fun schedule fair fuel enough => ?_⟩
    obtain ⟨result, run, sorted⟩ := Option.map_eq_some_iff.mp (sorts schedule.toPowerSchedule fair.toFair fuel (by omega))
    cases result with
    | error error => cases sorted
    | ok other =>
      cases sorted
      simp only [resolveConflicts, run, ends schedule.remaining fair.remaining fuel (by omega), Option.map_some]

theorem legacy_resolve_converges (rules : RoomVersionRules) (backportCss : Bool)
    (plain : considersSubgraph rules backportCss = false)
    (store : EventStore (Pdu Content)) (missing : EventId → Error) (own : OwnIds (storedFetch store missing))
    (acyclic : ∀ id, ¬ Relation.TransGen (Cites (storedFetch store missing)) id id) (isStored : EventId → Bool)
    (succeeds : ∀ id, isStored id = true → id ∈ store) (stateMaps : List StateMap)
    (authSets : List (BTreeSet EventId)) : ∃ outcome bound, ∀ others : List StateMap, others.Perm stateMaps →
    ∀ otherSets : List (BTreeSet EventId), otherSets.Perm authSets →
      ∀ schedule : ResolveSchedule, schedule.Fair → ∀ fuel, bound ≤ fuel →
        (resolve rules others otherSets (storedFetch store missing) isStored backportCss schedule fuel).map Except.toOption = some outcome := by
  let split := splitConflictedState ascending stateMaps
  let full := fullConflictedSet rules split.conflicted authSets isStored backportCss id
  have stored : ∀ id ∈ full, id ∈ store := by
    intro id member
    simp only [full, fullConflictedSet, plain, Bool.false_eq_true, if_false, append_nil, ExtTreeSet.mem_ofList, contains_iff_mem] at member
    exact succeeds id (of_mem_filter member)
  obtain ⟨outcome, bound, converged⟩ := resolve_conflicts_converge rules own (stored_cites_founded acyclic)
    (stored_fetched own stored) split.unconflicted
  refine ⟨if split.conflicted.isEmpty then some split.unconflicted else outcome, bound,
    fun others layout otherSets setLayout schedule fair fuel enough => ?_⟩
  have sameFull := full_conflicted_set_perm plain ascending_hash_order fair.occurrences layout setLayout isStored id
    schedule.subgraph
  simp only [resolve]
  rw [conflicted_empty_perm ascending_hash_order fair.occurrences layout,
    unconflicted_perm ascending_hash_order fair.occurrences layout, sameFull]
  split
  · rfl
  · exact converged schedule fair fuel enough

def forkedStore : EventStore (Pdu ReadContent) := ExtTreeMap.ofList [("$c", readEvent "$c" createType "@a:x" "" { }),
     ("$m", { readEvent "$m" memberType "@a:x" "@a:x" { membership := some .join } with authEvents := ["$c"] }),
     ("$j", { readEvent "$j" joinRulesType "@a:x" "" { joinRule := some .publicRule } with authEvents := ["$c", "$m"], originServerTs := 1 }),
     ("$t", { readEvent "$t" "m.room.topic" "@a:x" "" { } with authEvents := ["$c", "$m"], originServerTs := 2 }),
     ("$u", { readEvent "$u" "m.room.topic" "@a:x" "" { } with authEvents := ["$c", "$m"], originServerTs := 3 })]

def forkedStates : List StateMap :=
  [ExtTreeMap.ofList [((createType, ""), "$c"), ((memberType, "@a:x"), "$m"), ((joinRulesType, ""), "$j"),
    (("m.room.topic", ""), "$t")],
   ExtTreeMap.ofList [((createType, ""), "$c"), ((memberType, "@a:x"), "$m"), (("m.room.topic", ""), "$u")]]

def orderlySchedule : ResolveSchedule where
  powerEvents := id
  completes _ _ := 0
  levels := id
  rows graph := graph.toList
  occurrences := ascending
  remaining := id
  subgraph := id

def forkedRules : RoomVersionRules := ⟨v11Rules, some ⟨false, false⟩⟩

theorem forked_states_converge : (resolve forkedRules forkedStates []
    (storedFetch forkedStore fun _ => plainError "missing") forkedStore.contains false orderlySchedule 20).map
        (fun outcome => outcome.toOption.map fun state => state.toList.map Prod.snd) = some (some ["$c", "$j", "$m", "$u"]) ∧
      ∃ outcome bound, ∀ others : List StateMap, others.Perm forkedStates → ∀ otherSets : List (BTreeSet EventId), otherSets.Perm [] →
        ∀ schedule : ResolveSchedule, schedule.Fair → ∀ fuel, bound ≤ fuel →
          (resolve forkedRules others otherSets
          (storedFetch forkedStore fun _ => plainError "missing") forkedStore.contains false schedule fuel).map
            Except.toOption = some outcome := by
  have listed : ∀ id event, storedFetch forkedStore (fun _ => plainError "missing") id = .ok event →
    (id, event) ∈ forkedStore.toList :=
    fun id event fetched => ExtTreeMap.mem_toList_iff_getElem?_eq_some.mpr (stored_fetch_ok.mp fetched)
  have own : ∀ row ∈ forkedStore.toList, row.2.eventId = row.1 := by decide +kernel
  let rank : EventId → Nat := fun id => if id = "$c" then 0 else if id = "$m" then 1 else 2
  have earlier : ∀ row ∈ forkedStore.toList, ∀ auth ∈ row.2.authEvents, rank auth < rank row.1 := by decide +kernel
  refine ⟨by decide +kernel, legacy_resolve_converges forkedRules false rfl forkedStore _ (fun id event fetched => own _ (listed id event fetched))
    (acyclic_of_rank _ rank fun auth id cited => ?_) forkedStore.contains (fun id => ExtTreeMap.contains_iff_mem.mp) forkedStates []⟩
  obtain ⟨event, fetched, cites⟩ := cited
  exact earlier _ (listed id event fetched) auth cites

end GaussMatrix.Rooms

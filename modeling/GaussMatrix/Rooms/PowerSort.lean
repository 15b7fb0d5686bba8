import GaussMatrix.Library.Worklist
import GaussMatrix.Rooms.RoomPowerLevels
import GaussMatrix.Rooms.TopologicalOrder

namespace GaussMatrix.Rooms

open Collections List Outcome RoomPowerLevelsEventOption Std Worklist ExtTreeMap
open StateRes (EventId EventStore createType memberType powerLevelsType joinRulesType)

section

variable {Content : Type} [AuthView Content]

def isPowerEvent (event : Pdu Content) : Bool :=
  if event.kind = powerLevelsType ∨ event.kind = joinRulesType ∨ event.kind = createType then event.stateKey = some ""
  else if event.kind = memberType then
    match (RoomMemberEventContent.membership event.content).toOption with
    | some .leave | some .ban => some event.sender ≠ event.stateKey
    | _ => false
  else false

variable (fetch : EventId → Except Error (Pdu Content))

def isPowerEventId (eventId : EventId) : Bool :=
  match fetch eventId with
  | .ok event => isPowerEvent event
  | .error _ => false

def scanAuthEvents (hydraRoomId : Bool) : List EventId → Option (Pdu Content) × Option (Pdu Content) →
    Option (Pdu Content) × Option (Pdu Content)
  | [], found => found
  | authEventId :: rest, found =>
    match fetch authEventId with
    | .error _ => scanAuthEvents hydraRoomId rest found
    | .ok authEvent =>
      let next :=
        if !hydraRoomId && authEvent.isTypeAndStateKey createType "" then (found.1.or (some authEvent), found.2)
        else if authEvent.isTypeAndStateKey powerLevelsType "" then (found.1, found.2.or (some authEvent))
        else found
      if next.2.isSome && next.1.isSome then next else scanAuthEvents hydraRoomId rest next

def hydraCreateEvent (rules : AuthorizationRules) (event : Pdu Content) : Except Error (Option (Pdu Content)) := do
  if rules.roomCreateEventIdAsRoomId then
    let createId ← describe (AuthView.roomEventId Content event.roomId) plainError
    let fetched ← fetch createId
    return some fetched
  else return none

def powerLevelForSender (rules : AuthorizationRules) (eventId : EventId) : Except Error UserPowerLevel := do
  match fetch eventId with
  | .ok event =>
    let createEvent ← hydraCreateEvent fetch rules event
    let found := scanAuthEvents fetch rules.roomCreateEventIdAsRoomId event.authEvents (createEvent, none)
    match found.1.bind fun create => (RoomCreateEvent.creators create rules).toOption with
    | some creators => userPowerLevel found.2 event.sender creators rules
    | none => (getAsIntOrDefault found.2 .usersDefault rules).map .int
  | .error _ => (getAsIntOrDefault (none : Option (Pdu Content)) .usersDefault rules).map .int

variable (fullConflictedSet : BTreeSet EventId)

def addReference (eventId : EventId) (state : List EventId × EventGraph) (authEventId : EventId) :
    List EventId × EventGraph :=
  (if state.2.contains authEventId then state.1 else state.1 ++ [authEventId],
    state.2.insert eventId (pushNew (state.2.references eventId) authEventId))

def conflictedAuth (event : Pdu Content) : List EventId := event.authEvents.filter fullConflictedSet.contains

def expandEvent (event : Pdu Content) (todo : List EventId) (graph : EventGraph) : List EventId × EventGraph :=
  (conflictedAuth fullConflictedSet event).foldl (addReference event.eventId) (todo, graph.insertIfNew event.eventId [])

def addEventAuthChain (completes : Nat → Nat) : Nat → List EventId → EventGraph → Option EventGraph
  | 0, todo, graph => if todo.isEmpty then some graph else none
  | fuel + 1, todo, graph =>
    match takeAt (completes fuel) todo with
    | none => some graph
    | some (eventId, rest) =>
      match fetch eventId with
      | .error _ => addEventAuthChain completes fuel rest graph
      | .ok event =>
        let state := expandEvent fullConflictedSet event rest graph
        addEventAuthChain completes fuel state.1 state.2

def powerQuery (levels : BTreeMap EventId UserPowerLevel) (eventId : EventId) : Except Error (UserPowerLevel × Nat) :=
  match levels[eventId]? with
  | none => .error ⟨.notFound, s!"Missing PL event: {eventId}"⟩
  | some powerLevel => (fetch eventId).map fun event => (powerLevel, event.originServerTs)

-- What the hasher and the network decide: in which order the events of a set are
-- looked at, which fetch completes next, how a map is laid out.
structure PowerSchedule where
  powerEvents : List EventId → List EventId
  completes : EventId → Nat → Nat
  levels : List EventId → List EventId
  rows : EventGraph → List (EventId × ReferencedIds)

structure PowerSchedule.Fair (schedule : PowerSchedule) : Prop where
  powerEvents : ∀ ids, (schedule.powerEvents ids).Perm ids
  levels : ∀ ids, (schedule.levels ids).Perm ids
  rows : ∀ graph, (schedule.rows graph).Perm graph.toList

def powerGraph (schedule : PowerSchedule) (fuel : Nat) : Option EventGraph :=
  ((schedule.powerEvents fullConflictedSet.toList).filter (isPowerEventId fetch)).foldlM
    (fun graph eventId => addEventAuthChain fetch fullConflictedSet (schedule.completes eventId) fuel [eventId] graph) ∅

def senderLevels (rules : AuthorizationRules) (eventIds : List EventId) :
    Except Error (List (EventId × UserPowerLevel)) := eventIds.mapM fun eventId =>
    ((powerLevelForSender fetch rules eventId).map fun level => (eventId, level)).mapError fun error =>
      let text := error.message
      ⟨.notFound, s!"Missing PL for sender: {text}"⟩

def powerSort (rules : AuthorizationRules) (schedule : PowerSchedule) (fuel : Nat) :
    Option (Except Error (List EventId)) :=
  match powerGraph fetch fullConflictedSet schedule fuel with
  | none => none
  | some graph =>
    match senderLevels fetch rules (schedule.levels graph.keys) with
    | .error error => some (.error error)
    | .ok levels => topologicalSort (powerQuery fetch (extend ∅ levels)) fuel (schedule.rows graph)

end

section

variable {Content : Type} (fullConflictedSet : BTreeSet EventId)

theorem add_references (eventId : EventId) (added todo : List EventId) (graph : EventGraph)
    (present : eventId ∈ graph) :
    (added.foldl (addReference eventId) (todo, graph)).1 = todo ++ added.filter (fun id => !graph.contains id) ∧
      ∀ id : EventId, (added.foldl (addReference eventId) (todo, graph)).2[id]? =
        if id = eventId then some (added.foldl pushNew (graph.references eventId)) else graph[id]? := by
  induction added generalizing todo graph with
  | nil =>
    refine ⟨(append_nil todo).symm, fun id => ?_⟩
    split
    case isTrue same =>
      obtain ⟨references, read⟩ := mem_iff_read.mp present
      rw [same, foldl_nil, foldl_nil, EventGraph.references, read]
      rfl
    case isFalse => rfl
  | cons authEventId tail ih =>
    let next := graph.insert eventId (pushNew (graph.references eventId) authEventId)
    have held : ∀ id : EventId, next.contains id = graph.contains id := by
      intro id
      rw [ExtTreeMap.contains_insert]
      by_cases same : eventId = id
      · subst same
        simp [ExtTreeMap.contains_iff_mem.mpr present]
      · simp [same]
    obtain ⟨pending, read⟩ := ih (if graph.contains authEventId then todo else todo ++ [authEventId]) next
      (ExtTreeMap.contains_iff_mem.mp (by rw [held]; exact ExtTreeMap.contains_iff_mem.mpr present))
    rw [foldl_cons]
    refine ⟨?_, fun id => ?_⟩
    · rw [addReference, pending]
      simp only [held]
      by_cases known : graph.contains authEventId
      · simp [known]
      · simp [known]
    · rw [addReference, read id, references_insert, if_pos rfl, foldl_cons]
      split
      case isTrue => rfl
      case isFalse different => exact insert_elsewhere different

section

variable (event : Pdu Content) (todo : List EventId) (graph : EventGraph)

theorem expand_event_read : (expandEvent fullConflictedSet event todo graph).1 =
        todo ++ (conflictedAuth fullConflictedSet event).filter (fun id => !(graph.insertIfNew event.eventId []).contains id) ∧
      ∀ id : EventId, (expandEvent fullConflictedSet event todo graph).2[id]? =
        if id = event.eventId then some
        ((conflictedAuth fullConflictedSet event).foldl pushNew (graph.references event.eventId)) else graph[id]? := by
  have present : event.eventId ∈ graph.insertIfNew event.eventId [] := mem_insertIfNew_self
  obtain ⟨pending, read⟩ := add_references event.eventId (conflictedAuth fullConflictedSet event) todo _ present
  refine ⟨pending, fun id => ?_⟩
  rw [expandEvent, read id]
  split
  case isTrue =>
    have same : EventGraph.references (graph.insertIfNew event.eventId []) event.eventId = graph.references event.eventId := by
      rw [EventGraph.references, EventGraph.references, ExtTreeMap.getElem?_insertIfNew]
      split
      case isTrue absent =>
        rw [ExtTreeMap.getElem?_eq_none absent.2]
        rfl
      case isFalse => rfl
    rw [same]
  case isFalse different =>
    rw [ExtTreeMap.getElem?_insertIfNew, if_neg]
    exact fun both => different (LawfulEqOrd.eq_of_compare both.1).symm

theorem expand_event_member (id : EventId) : id ∈ (expandEvent fullConflictedSet event todo graph).2 ↔
    id = event.eventId ∨ id ∈ graph := by
  rw [mem_iff_isSome_getElem?, mem_iff_isSome_getElem?, (expand_event_read fullConflictedSet event todo graph).2 id]
  split
  case isTrue same => simp [same]
  case isFalse different => simp [different]

end

theorem expand_event_weight (weight : EventId → Nat) (event : Pdu Content) (todo : List EventId) (graph : EventGraph) :
    ((expandEvent fullConflictedSet event todo graph).1.map weight).sum ≤ (todo.map weight).sum +
    ((conflictedAuth fullConflictedSet event).map weight).sum := by
  rw [(expand_event_read fullConflictedSet event todo graph).1, map_append, sum_append]
  exact Nat.add_le_add_left ((filter_sublist.map weight).sum_le_sum fun _ _ => Nat.zero_le _) _

end

section

variable {Content : Type} (fetch : EventId → Except Error (Pdu Content)) (fullConflictedSet : BTreeSet EventId)

def authIn (eventId : EventId) : List EventId :=
  match fetch eventId with
  | .ok event => conflictedAuth fullConflictedSet event
  | .error _ => []

def referencesIn (eventId : EventId) : ReferencedIds := (authIn fetch fullConflictedSet eventId).foldl pushNew []

def Reached (roots : List EventId) (eventId : EventId) : Prop :=
  ∃ root ∈ roots, Relation.ReflTransGen (fun event auth =>
    auth ∈ referencesIn fetch fullConflictedSet event) root eventId

structure Gathered (roots todo : List EventId) (graph : EventGraph) : Prop where
  entries : ∀ (id : EventId) references, graph[id]? = some references →
    references = referencesIn fetch fullConflictedSet id ∧ Reached fetch fullConflictedSet roots id
  pending : ∀ id ∈ todo, Reached fetch fullConflictedSet roots id
  closed : ∀ id : EventId, id ∈ graph → ∀ auth ∈ referencesIn fetch fullConflictedSet id, auth ∈ graph ∨ auth ∈ todo

def Fetched : Prop := ∀ id ∈ fullConflictedSet, ∃ event, fetch id = .ok event ∧ event.eventId = id

variable {fetch fullConflictedSet} {roots todo rest : List EventId} {graph other : EventGraph}

theorem auth_in_fetched {event : Pdu Content} (fetched : fetch event.eventId = .ok event) :
    authIn fetch fullConflictedSet event.eventId = conflictedAuth fullConflictedSet event := by
  rw [authIn, fetched]

theorem references_in_member {eventId auth : EventId} :
    auth ∈ referencesIn fetch fullConflictedSet eventId ↔ auth ∈ authIn fetch fullConflictedSet eventId := by
  rw [referencesIn, push_all_member]
  simp

theorem auth_in_set {eventId auth : EventId} (cited : auth ∈ authIn fetch fullConflictedSet eventId) :
    auth ∈ fullConflictedSet := by
  rw [authIn] at cited
  split at cited
  · exact ExtTreeSet.contains_iff_mem.mp (mem_filter.mp cited).2
  · exact absurd cited not_mem_nil

theorem reached_in_set (inside : ∀ root ∈ roots, root ∈ fullConflictedSet) {eventId : EventId}
    (reached : Reached fetch fullConflictedSet roots eventId) : eventId ∈ fullConflictedSet := by
  obtain ⟨root, listed, path⟩ := reached
  cases path with
  | refl => exact inside _ listed
  | tail _ last => exact auth_in_set (references_in_member.mp last)

theorem gathered_step {event : Pdu Content} (gathered : Gathered fetch fullConflictedSet roots todo graph)
    (taken : todo.Perm (event.eventId :: rest)) (fetched : fetch event.eventId = .ok event) :
    Gathered fetch fullConflictedSet roots (expandEvent fullConflictedSet event rest graph).1
    (expandEvent fullConflictedSet event rest graph).2 := by
  obtain ⟨pending, read⟩ := expand_event_read fullConflictedSet event rest graph
  have cites : authIn fetch fullConflictedSet event.eventId = conflictedAuth fullConflictedSet event :=
    auth_in_fetched fetched
  have reached : Reached fetch fullConflictedSet roots event.eventId :=
    gathered.pending _ (taken.mem_iff.mpr mem_cons_self)
  have member := expand_event_member fullConflictedSet event rest graph
  have inserted : ∀ id : EventId, (graph.insertIfNew event.eventId []).contains id = true ↔ id = event.eventId ∨
    id ∈ graph := by
    intro id
    rw [ExtTreeMap.contains_iff_mem, mem_insertIfNew, LawfulEqOrd.compare_eq_iff_eq]
    exact or_congr_left eq_comm
  refine ⟨?_, ?_, ?_⟩
  · intro id references found
    rw [read id] at found
    split at found
    case isTrue same =>
      subst same
      refine ⟨?_, reached⟩
      rw [← Option.some.inj found, referencesIn, cites]
      cases held : graph[event.eventId]? with
      | none => rw [EventGraph.references, held]; rfl
      | some references =>
        rw [EventGraph.references, held, Option.getD_some, (gathered.entries _ references held).1, referencesIn, cites]
        exact push_all_held fun auth cited => push_all_member.mpr (.inr cited)
    case isFalse => exact gathered.entries id references found
  · intro id listed
    rw [pending, mem_append] at listed
    rcases listed with old | new
    · exact gathered.pending id (taken.mem_iff.mpr (mem_cons_of_mem _ old))
    · obtain ⟨root, isRoot, path⟩ := reached
      refine ⟨root, isRoot, path.tail (references_in_member.mpr ?_)⟩
      rw [cites]
      exact (mem_filter.mp new).1
  · intro id present auth cited
    rw [member auth, pending, mem_append]
    by_cases known : auth = event.eventId ∨ auth ∈ graph
    · exact .inl known
    · refine .inr ?_
      rcases (member id).mp present with same | old
      · subst same
        refine .inr (mem_filter.mpr ⟨cites ▸ references_in_member.mp cited, ?_⟩)
        rw [Bool.not_eq_true', Bool.eq_false_iff]
        exact fun held => known ((inserted auth).mp held)
      · rcases gathered.closed id old auth cited with there | waiting
        · exact absurd (.inr there) known
        · rcases mem_cons.mp (taken.mem_iff.mp waiting) with same | later
          · exact absurd (.inl same) known
          · exact .inl later

theorem gathered_unique (gathered : Gathered fetch fullConflictedSet roots [] graph)
    (rooted : ∀ root ∈ roots, root ∈ graph) (otherGathered : Gathered fetch fullConflictedSet roots [] other)
    (otherRooted : ∀ root ∈ roots, root ∈ other) : graph = other := by
  have complete : ∀ graph : EventGraph, Gathered fetch fullConflictedSet roots [] graph →
    (∀ root ∈ roots, root ∈ graph) →
      ∀ id : EventId, Reached fetch fullConflictedSet roots id → graph[id]? = some (referencesIn fetch fullConflictedSet id) := by
    intro graph gathered rooted id reached
    obtain ⟨root, listed, path⟩ := reached
    have present : id ∈ graph := by
      induction path with
      | refl => exact rooted root listed
      | tail _ link ih => exact (gathered.closed _ ih _ link).resolve_right not_mem_nil
    obtain ⟨references, read⟩ := mem_iff_read.mp present
    rw [read, (gathered.entries id references read).1]
  refine ext_getElem? fun id => Option.ext fun references => ?_
  constructor
  · intro read
    obtain ⟨isReferences, reached⟩ := gathered.entries id references read
    rw [isReferences]
    exact complete other otherGathered otherRooted id reached
  · intro read
    obtain ⟨isReferences, reached⟩ := otherGathered.entries id references read
    rw [isReferences]
    exact complete graph gathered rooted id reached

variable (weight : EventId → Nat) (lighter : ∀ id, ((authIn fetch fullConflictedSet id).map weight).sum < weight id)

include lighter in
theorem add_chain_done (fetched : Fetched fetch fullConflictedSet) (inside : ∀ root ∈ roots, root ∈ fullConflictedSet)
    (completes : Nat → Nat) (fuel : Nat) (todo : List EventId) (graph : EventGraph)
    (gathered : Gathered fetch fullConflictedSet roots todo graph) (enough : (todo.map weight).sum ≤ fuel) :
    ∃ last, addEventAuthChain fetch fullConflictedSet completes fuel todo graph = some last ∧
    Gathered fetch fullConflictedSet roots [] last ∧
      ∀ id : EventId, id ∈ graph ∨ id ∈ todo → id ∈ last := by
  induction fuel generalizing todo graph with
  | zero =>
    have empty : todo = [] := by
      cases todo with
      | nil => rfl
      | cons id tail =>
        have positive := lighter id
        simp only [map_cons, sum_cons] at enough
        omega
    subst empty
    exact ⟨graph, rfl, gathered, fun id either => either.resolve_right not_mem_nil⟩
  | succ fuel ih =>
    rw [addEventAuthChain]
    cases taken : takeAt (completes fuel) todo with
    | none =>
      have empty := take_at_none taken
      subst empty
      exact ⟨graph, rfl, gathered, fun id either => either.resolve_right not_mem_nil⟩
    | some pick =>
      obtain ⟨id, rest⟩ := pick
      have layout := take_at_perm taken
      obtain ⟨event, isEvent, own⟩ := fetched id (reached_in_set inside (gathered.pending id (layout.mem_iff.mpr mem_cons_self)))
      subst own
      have cost : ((expandEvent fullConflictedSet event rest graph).1.map weight).sum ≤ fuel := by
        have before := (layout.map weight).sum_eq
        have light := lighter event.eventId
        have grown := expand_event_weight fullConflictedSet weight event rest graph
        rw [auth_in_fetched isEvent] at light
        simp only [map_cons, sum_cons] at before
        omega
      obtain ⟨last, run, complete, kept⟩ := ih _ _ (gathered_step gathered layout isEvent) cost
      refine ⟨last, by simp only [isEvent]; exact run, complete, fun id either => kept id ?_⟩
      rw [expand_event_member]
      rcases either with there | waiting
      · exact .inl (.inr there)
      · rcases mem_cons.mp (layout.mem_iff.mp waiting) with same | later
        · exact .inl (.inl same)
        · refine .inr ?_
          rw [(expand_event_read fullConflictedSet event rest graph).1]
          exact mem_append_left _ later

include lighter in
theorem add_chains_done (fetched : Fetched fetch fullConflictedSet) (inside : ∀ root ∈ roots, root ∈ fullConflictedSet)
    (completes : EventId → Nat → Nat) (fuel : Nat) (enough : ∀ root ∈ roots, weight root ≤ fuel) (starts : List EventId)
    (listed : ∀ start ∈ starts, start ∈ roots) (graph : EventGraph)
    (gathered : Gathered fetch fullConflictedSet roots [] graph) : ∃ last, starts.foldlM (fun graph start =>
    addEventAuthChain fetch fullConflictedSet (completes start) fuel [start] graph) graph = some last ∧
      Gathered fetch fullConflictedSet roots [] last ∧ ∀ id : EventId, id ∈ graph ∨ id ∈ starts → id ∈ last := by
  induction starts generalizing graph with
  | nil => exact ⟨graph, rfl, gathered, fun id either => either.resolve_right not_mem_nil⟩
  | cons start tail ih =>
    have isRoot := listed start mem_cons_self
    have begun : Gathered fetch fullConflictedSet roots [start] graph := by
      refine ⟨gathered.entries, ?_, ?_⟩
      · intro id member
        rw [mem_singleton.mp member]
        exact ⟨start, isRoot, Relation.ReflTransGen.refl⟩
      · exact fun id present auth cited => .inl ((gathered.closed id present auth cited).resolve_right not_mem_nil)
    obtain ⟨next, run, nextGathered, kept⟩ := add_chain_done weight lighter fetched inside (completes start) fuel
      [start] graph begun (by simpa using enough start isRoot)
    obtain ⟨last, rest, complete, keptRest⟩ := ih (fun id member => listed id (mem_cons_of_mem start member)) next nextGathered
    refine ⟨last, by rw [foldlM_cons, run]; exact rest, complete, fun id either => keptRest id ?_⟩
    rcases either with there | member
    · exact .inl (kept id (.inl there))
    · rcases mem_cons.mp member with same | later
      · exact .inl (kept id (.inr (mem_singleton.mpr same)))
      · exact .inr later

include lighter in
theorem power_graph_converges [AuthView Content] (fetched : Fetched fetch fullConflictedSet) :
    ∃ graph, (∀ id : EventId, id ∈ graph → id ∈ fullConflictedSet) ∧
      ∀ schedule, PowerSchedule.Fair schedule → ∀ fuel, (∀ id ∈ fullConflictedSet, weight id ≤ fuel) →
      powerGraph fetch fullConflictedSet schedule fuel = some graph := by
  let roots := fullConflictedSet.toList.filter (isPowerEventId fetch)
  have inside : ∀ root ∈ roots, root ∈ fullConflictedSet :=
    fun root member => ExtTreeSet.mem_toList.mp (mem_filter.mp member).1
  have started : Gathered fetch fullConflictedSet roots [] ∅ := by
    refine ⟨fun id references found => ?_, fun id member => absurd member not_mem_nil, fun id present => ?_⟩
    · simp at found
    · simp at present
  let most := (fullConflictedSet.toList.map weight).sum
  have enough : ∀ root ∈ roots, weight root ≤ most := fun root member =>
    single_le_sum (fun _ _ => Nat.zero_le _) _ (mem_map_of_mem (mem_filter.mp member).1)
  obtain ⟨graph, _, complete, kept⟩ :=
    add_chains_done weight lighter fetched inside (fun _ _ => 0) most enough roots (fun _ member => member) ∅ started
  refine ⟨graph, fun id present => ?_, fun schedule fair fuel heavy => ?_⟩
  · obtain ⟨references, read⟩ := mem_iff_read.mp present
    exact reached_in_set inside (complete.entries id references read).2
  · have layout : ((schedule.powerEvents fullConflictedSet.toList).filter (isPowerEventId fetch)).Perm roots := (fair.powerEvents _).filter _
    obtain ⟨other, run, otherComplete, otherKept⟩ := add_chains_done weight lighter fetched inside schedule.completes fuel
      (fun root member => heavy root (inside root member)) _ (fun start => layout.mem_iff.mp) ∅ started
    rw [powerGraph, run, gathered_unique complete (fun root member => kept root (.inr member)) otherComplete
      (fun root member => otherKept root (.inr (layout.mem_iff.mpr member)))]

end

variable {Content : Type} [AuthView Content] {fetch : EventId → Except Error (Pdu Content)}
  {fullConflictedSet : BTreeSet EventId}

theorem extend_each {V : Type} (value : EventId → V) (ids : List EventId) (id : EventId) :
    (extend ∅ (ids.map fun id => (id, value id)))[id]? = if id ∈ ids then some (value id) else none := by
  split
  case isTrue listed =>
    refine extend_consistent ∅ _ (fun id => some (value id)) ?_ ⟨(id, value id), mem_map_of_mem listed, rfl⟩
    intro row member
    obtain ⟨other, _, rfl⟩ := mem_map.mp member
    rfl
  case isFalse absent =>
    rw [extend_outside ∅ _ id, ExtTreeMap.getElem?_empty]
    intro row member same
    obtain ⟨other, listed, rfl⟩ := mem_map.mp member
    exact absent (same ▸ listed)

theorem extend_each_perm {V : Type} {value : EventId → V} {ids others : List EventId} (layout : others.Perm ids) :
    (extend ∅ (others.map fun id => (id, value id)) : BTreeMap EventId V) = extend ∅
    (ids.map fun id => (id, value id)) := by
  refine ext_getElem? fun id => ?_
  simp only [extend_each, layout.mem_iff]

theorem sender_levels_converge (fetch : EventId → Except Error (Pdu Content)) (rules : AuthorizationRules)
    (ids : List EventId) : (∃ level : EventId → UserPowerLevel, ∀ others : List EventId, others.Perm ids →
    senderLevels fetch rules others = .ok (others.map fun id => (id, level id))) ∨
    (∀ others : List EventId, others.Perm ids → (senderLevels fetch rules others).toOption = none) := by
  by_cases answered : ∀ id ∈ ids, ∃ level, powerLevelForSender fetch rules id = .ok level
  · refine .inl ⟨fun id => (powerLevelForSender fetch rules id).toOption.getD .infinite, fun others layout => ?_⟩
    refine map_all_done fun id member => ?_
    obtain ⟨level, found⟩ := answered id (layout.mem_iff.mp member)
    simp only [found]
    rfl
  · refine .inr fun others layout => ?_
    cases run : senderLevels fetch rules others with
    | error error => rfl
    | ok rows =>
      refine absurd (fun id member => ?_) answered
      obtain ⟨row, _, found⟩ := map_all_member run id (layout.mem_iff.mpr member)
      cases asked : powerLevelForSender fetch rules id with
      | ok level => exact ⟨level, rfl⟩
      | error error =>
        rw [asked] at found
        cases found

omit [AuthView Content] in
theorem power_query_answered {levels : BTreeMap EventId UserPowerLevel} {event : Pdu Content} {level : UserPowerLevel}
    (isLevel : levels[event.eventId]? = some level) (fetched : fetch event.eventId = .ok event) :
    tieBreaker (powerQuery fetch levels) event.eventId = .ok ⟨event.eventId, level, event.originServerTs⟩ := by
  rw [tieBreaker, powerQuery, isLevel, fetched]
  rfl

theorem power_sort_converges (rules : AuthorizationRules) (fetched : Fetched fetch fullConflictedSet)
    {weight : EventId → Nat} (lighter : ∀ id, ((authIn fetch fullConflictedSet id).map weight).sum < weight id) :
    ∃ outcome bound, ∀ schedule, PowerSchedule.Fair schedule → ∀ fuel, bound ≤ fuel →
      (powerSort fetch fullConflictedSet rules schedule fuel).map Except.toOption = some outcome := by
  obtain ⟨graph, inside, gathered⟩ := power_graph_converges weight lighter fetched
  let most := (fullConflictedSet.toList.map weight).sum
  have heavy : ∀ id ∈ fullConflictedSet, weight id ≤ most := fun id member =>
    single_le_sum (fun _ _ => Nat.zero_le _) _ (mem_map_of_mem (ExtTreeSet.mem_toList.mpr member))
  rcases sender_levels_converge fetch rules graph.keys with found | failed
  · obtain ⟨level, asked⟩ := found
    let levels : BTreeMap EventId UserPowerLevel := extend ∅ (graph.keys.map fun id => (id, level id))
    let ts : EventId → Nat := fun id => ((fetch id).map Pdu.originServerTs).toOption.getD 0
    have answered : ∀ id ∈ graph.keys, tieBreaker (powerQuery fetch levels) id = .ok ⟨id, level id, ts id⟩ := by
      intro id member
      obtain ⟨event, isEvent, rfl⟩ := fetched id (inside id (mem_keys.mp member))
      have isLevel : levels[event.eventId]? = some (level event.eventId) := by rw [extend_each, if_pos member]
      have isTs : ts event.eventId = event.originServerTs := by simp only [ts, isEvent]; rfl
      rw [power_query_answered isLevel isEvent, isTs]
    obtain ⟨sorted, converged, _⟩ := topological_sort_greedy answered
    refine ⟨some sorted, most + graph.keys.length + 1, fun schedule fair fuel enough => ?_⟩
    have run := gathered schedule fair fuel fun id member => (heavy id member).trans (by omega)
    simp only [powerSort, run, asked _ (fair.levels graph.keys), extend_each_perm (fair.levels graph.keys)]
    rw [converged (schedule.rows graph) (fair.rows graph) fuel (by omega)]
    rfl
  · refine ⟨none, most, fun schedule fair fuel enough => ?_⟩
    have run := gathered schedule fair fuel fun id member => (heavy id member).trans enough
    have none := failed _ (fair.levels graph.keys)
    cases asked : senderLevels fetch rules (schedule.levels graph.keys) with
    | ok rows =>
      rw [asked] at none
      cases none
    | error error =>
      simp only [powerSort, run, asked]
      rfl

end GaussMatrix.Rooms

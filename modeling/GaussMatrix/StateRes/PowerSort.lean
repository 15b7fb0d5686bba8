import GaussMatrix.StateRes.Event
import GaussMatrix.Library.Kahn

namespace GaussMatrix.StateRes

open Collections Event GreedyOrder Kahn List Std

variable {E : Type} [Event E]

structure PowerKey where
  power : Int
  ts : Nat
  id : EventId
deriving DecidableEq

-- The greatest key goes first: higher power, then lower ts, then lower id.
def PowerKey.cmp (key other : PowerKey) : Ordering :=
  (compare key.power other.power).then ((compare other.ts key.ts).then (compare other.id key.id))

instance : TransCmp PowerKey.cmp := inferInstanceAs (TransCmp (compareLex (compareOn PowerKey.power)
    (compareLex (fun key other => compareOn PowerKey.ts other key) (fun key other => compareOn PowerKey.id other key))))

instance : LawfulEqCmp PowerKey.cmp where
  eq_of_compare := by
    intro key other same
    simp only [PowerKey.cmp, Ordering.then_eq_eq, LawfulEqOrd.compare_eq_iff_eq] at same
    obtain ⟨power, ts, id⟩ := same
    cases key
    cases other
    simp_all

def powerKeyOf (event : E) : PowerKey := { power := powerLevel event, ts := originServerTs event, id := eventId event }

structure SortTables where
  keyOf : BTreeMap EventId PowerKey
  remaining : BTreeMap EventId Nat
  dependents : BTreeMap EventId (List EventId)

def presentIds (events : List E) : BTreeSet EventId := ExtTreeSet.ofList (events.map eventId)

def presentDeps (present : BTreeSet EventId) (event : E) : BTreeSet EventId :=
  ExtTreeSet.ofList ((authEventIds event).filter present.contains)

def addDependent (id : EventId) (dependents : BTreeMap EventId (List EventId)) (dep : EventId) :
    BTreeMap EventId (List EventId) :=
  dependents.insert dep (dependents[dep]?.getD [] ++ [id])

def addEvent (present : BTreeSet EventId) (tables : SortTables) (event : E) : SortTables :=
  let id := eventId event
  let deps := presentDeps present event
  { keyOf := tables.keyOf.insert id (powerKeyOf event)
    remaining := tables.remaining.insert id deps.size
    dependents := deps.toList.foldl (addDependent id) tables.dependents }

def sortTables (events : List E) : SortTables := events.foldl (addEvent (presentIds events)) ⟨∅, ∅, ∅⟩

def seedKeys (tables : SortTables) : List PowerKey :=
  (tables.remaining.toList.filter fun row => row.2 == 0).filterMap fun row => tables.keyOf[row.1]?

def reverseTopologicalPowerSort (fuel : Nat) (ids : List EventId) (store : EventStore E) : Option (List EventId) :=
  let tables := sortTables (ids.filterMap fun id => store[id]?)
  kahn PowerKey.cmp PowerKey.id tables.keyOf tables.dependents fuel ⟨tables.remaining, seedKeys tables⟩

variable (present : BTreeSet EventId) (fuel : Nat) (events : List E) (tables : SortTables) {ordered : List EventId}

theorem sort_more {more : Nat} {ids : List EventId} {store : EventStore E} (enough : fuel ≤ more)
    (ended : reverseTopologicalPowerSort fuel ids store = some ordered) :
    reverseTopologicalPowerSort more ids store = some ordered :=
  kahn_more _ _ _ _ fuel more _ ordered enough ended

theorem add_events_key : (events.foldl (addEvent present) tables).keyOf = extend tables.keyOf
    (events.map fun event => (eventId event, powerKeyOf event)) := by
  induction events generalizing tables with
  | nil => rfl
  | cons event tail ih => exact ih (addEvent present tables event)

theorem add_events_remaining : (events.foldl (addEvent present) tables).remaining =
      extend tables.remaining (events.map fun event => (eventId event, (presentDeps present event).size)) := by
  induction events generalizing tables with
  | nil => rfl
  | cons event tail ih => exact ih (addEvent present tables event)

theorem add_dependent_rows (id : EventId) (deps : List EventId) (dependents : BTreeMap EventId (List EventId))
    (dep : EventId) (distinct : deps.Nodup) : (deps.foldl (addDependent id) dependents)[dep]?.getD [] =
    dependents[dep]?.getD [] ++ if dep ∈ deps then [id] else [] := by
  induction deps generalizing dependents with
  | nil => simp
  | cons head tail ih =>
    obtain ⟨fresh, rest⟩ := nodup_cons.mp distinct
    rw [foldl_cons, ih (addDependent id dependents head) rest, addDependent]
    by_cases same : dep = head
    · subst same
      simp [fresh]
    · rw [insert_elsewhere same]
      simp [same]

theorem add_events_dependents (dep : EventId) :
    (events.foldl (addEvent present) tables).dependents[dep]?.getD [] = tables.dependents[dep]?.getD [] ++
      (events.filter fun event => dep ∈ presentDeps present event).map eventId := by
  induction events generalizing tables with
  | nil => simp
  | cons event tail ih =>
    have head := add_dependent_rows (eventId event) (presentDeps present event).toList tables.dependents dep (set_nodup _)
    rw [foldl_cons, ih (addEvent present tables event), addEvent, head]
    by_cases depends : dep ∈ presentDeps present event <;> simp [depends]

variable {V : Type} {id : EventId} {value : E → V}

theorem event_rows_source {held : V}
    (read : (extend ∅ (events.map fun event => (eventId event, value event)))[id]? = some held) :
    ∃ event ∈ events, eventId event = id ∧ value event = held := by
  rcases extend_source read with row | empty
  · obtain ⟨event, member, same⟩ := mem_map.mp row
    exact ⟨event, member, congrArg Prod.fst same, congrArg Prod.snd same⟩
  · simp at empty

theorem seed_keys_member (key : PowerKey) : key ∈ seedKeys tables ↔ ∃ id : EventId, tables.remaining[id]? = some 0 ∧
    tables.keyOf[id]? = some key := by
  simp only [seedKeys, mem_filterMap, mem_filter, beq_iff_eq, Prod.exists, ExtTreeMap.mem_toList_iff_getElem?_eq_some]
  exact ⟨fun ⟨id, count, ⟨read, zero⟩, held⟩ => ⟨id, zero ▸ read, held⟩, fun ⟨id, read, held⟩ =>
    ⟨id, 0, ⟨read, rfl⟩, held⟩⟩

theorem seed_keys_nodup (named : ∀ (id : EventId) key, tables.keyOf[id]? = some key → key.id = id) :
    (seedKeys tables).Nodup := by
  have keys : ((tables.remaining.toList.filter fun row => row.2 == 0).map Prod.fst).Nodup := by
    have listed : (tables.remaining.toList.map Prod.fst).Nodup := by
      rw [ExtTreeMap.map_fst_toList_eq_keys]
      exact ExtTreeMap.nodup_keys
    exact listed.sublist (filter_sublist.map _)
  have through : seedKeys tables = ((tables.remaining.toList.filter fun row => row.2 == 0).map Prod.fst).filterMap
    fun id => tables.keyOf[id]? := by
    rw [filterMap_map]
    rfl
  rw [through]
  apply keys.filterMap
  intro first second key atFirst atSecond
  rw [← named first key atFirst, named second key atSecond]

def StoredUnder (store : EventStore E) (ids : List EventId) (id : EventId) : Prop :=
  ∃ entry ∈ ids, ∃ event, store[entry]? = some event ∧ eventId event = id

theorem sort_emitted {ids : List EventId} {store : EventStore E}
    (ended : reverseTopologicalPowerSort fuel ids store = some ordered) : ∀ id ∈ ordered, StoredUnder store ids id := by
  have keys : ∀ (id : EventId) key, (sortTables (ids.filterMap fun id => store[id]?)).keyOf[id]? = some key →
    StoredUnder store ids key.id := by
    intro id key read
    rw [sortTables, add_events_key] at read
    obtain ⟨event, member, _, same⟩ := event_rows_source _ read
    obtain ⟨entry, listed, held⟩ := mem_filterMap.mp member
    exact ⟨entry, listed, event, held, congrArg PowerKey.id same⟩
  refine kahn_emitted PowerKey.cmp PowerKey.id _ _ (StoredUnder store ids) keys fuel _ ordered ?_ ended
  intro key member
  obtain ⟨row, _, read⟩ := mem_filterMap.mp member
  exact keys row.1 key read

variable (ids : List EventId) (store : EventStore E) (keyed : Keyed store)

def sortDeps (id : EventId) : BTreeSet EventId :=
  match store[id]? with
  | none => ∅
  | some event => presentDeps (presentIds (ids.filterMap fun id => store[id]?)) event

include keyed

theorem sort_nodes : (ids.filterMap fun id => store[id]?).map eventId = ids.filter store.contains := by
  induction ids with
  | nil => rfl
  | cons id tail ih =>
    cases read : store[id]? with
    | none =>
      have absent : store.contains id = false := by
        rw [ExtTreeMap.contains_eq_isSome_getElem?, read]
        rfl
      rw [filterMap_cons_none read, ih, filter_cons_of_neg (by simp [absent])]
    | some event =>
      rw [filterMap_cons_some read, map_cons, ih, keyed id event read, filter_cons_of_pos ((contains_iff_some store id).mpr ⟨event, read⟩)]

theorem sort_event {event : E} (member : event ∈ ids.filterMap fun id => store[id]?) :
    store[eventId event]? = some event := by
  obtain ⟨id, _, read⟩ := mem_filterMap.mp member
  rw [keyed id event read]
  exact read

theorem sort_node_event (node : id ∈ ids.filter store.contains) :
    ∃ event ∈ ids.filterMap (fun id => store[id]?), store[id]? = some event ∧ eventId event = id := by
  rw [← sort_nodes ids store keyed] at node
  obtain ⟨event, member, same⟩ := mem_map.mp node
  exact ⟨event, member, by rw [← same]; exact sort_event ids store keyed member, same⟩

theorem event_rows_read (node : id ∈ ids.filter store.contains) :
    (extend ∅ ((ids.filterMap fun id => store[id]?).map fun event => (eventId event, value event)))[id]? =
    store[id]?.map value := by
  obtain ⟨event, member, _, same⟩ := sort_node_event ids store keyed node
  apply extend_consistent ∅ _ (fun id => store[id]?.map value)
  · intro row inRows
    obtain ⟨other, listed, rfl⟩ := mem_map.mp inRows
    rw [sort_event ids store keyed listed, Option.map_some]
  · exact ⟨(eventId event, value event), mem_map.mpr ⟨event, member, rfl⟩, same⟩

theorem sort_deps_inside (dep id : EventId) (depends : dep ∈ sortDeps ids store id) :
    dep ∈ ids.filter store.contains ∧ AuthEdge store dep id := by
  cases read : store[id]? with
  | none => simp [sortDeps, read] at depends
  | some event =>
    rw [sortDeps, read] at depends
    simp only [presentDeps, presentIds, ExtTreeSet.mem_ofList, contains_eq_mem, decide_eq_true_eq, mem_filter,
      ExtTreeSet.contains_ofList, sort_nodes ids store keyed] at depends
    exact ⟨mem_filter.mpr depends.2, event, read, depends.1⟩

theorem sort_tables_sound (distinct : ids.Nodup) : Sound PowerKey.id (ids.filter store.contains) (sortDeps ids store)
    (sortTables (ids.filterMap fun id => store[id]?)).keyOf
      (sortTables (ids.filterMap fun id => store[id]?)).dependents := by
  have rows : ∀ dep : EventId, (sortTables (ids.filterMap fun id => store[id]?)).dependents[dep]?.getD [] =
    ((ids.filterMap fun id => store[id]?).filter fun event =>
        dep ∈ presentDeps (presentIds (ids.filterMap fun id => store[id]?)) event).map eventId := by
    intro dep
    rw [sortTables, add_events_dependents]
    simp
  constructor
  · intro id node
    obtain ⟨event, _, read, _⟩ := sort_node_event ids store keyed node
    rw [sortTables, add_events_key, event_rows_read ids store keyed node, read]
    exact ⟨powerKeyOf event, rfl⟩
  · intro id key read
    rw [sortTables, add_events_key] at read
    obtain ⟨event, _, own, same⟩ := event_rows_source _ read
    rw [← own, ← same]
    rfl
  · intro dep child
    rw [rows dep, mem_map]
    constructor
    · intro ⟨event, listed, same⟩
      subst same
      obtain ⟨member, depends⟩ := mem_filter.mp listed
      rw [sortDeps, sort_event ids store keyed member, ← sort_nodes ids store keyed]
      exact ⟨mem_map.mpr ⟨event, member, rfl⟩, of_decide_eq_true depends⟩
    · intro ⟨node, depends⟩
      obtain ⟨event, member, read, same⟩ := sort_node_event ids store keyed node
      rw [sortDeps, read] at depends
      exact ⟨event, mem_filter.mpr ⟨member, decide_eq_true depends⟩, same⟩
  · intro dep
    rw [rows dep]
    have nodes : ((ids.filterMap fun id => store[id]?).map eventId).Nodup := by
      rw [sort_nodes ids store keyed]
      exact distinct.filter _
    exact nodes.sublist (filter_sublist.map _)

theorem sort_starts (distinct : ids.Nodup) : Progress PowerKey.id (ids.filter store.contains) (sortDeps ids store)
    (sortTables (ids.filterMap fun id => store[id]?)).keyOf []
      ⟨(sortTables (ids.filterMap fun id => store[id]?)).remaining, seedKeys (sortTables (ids.filterMap fun id => store[id]?))⟩ := by
  have sound := sort_tables_sound ids store keyed distinct
  have counts : ∀ id ∈ ids.filter store.contains, (sortTables (ids.filterMap fun id => store[id]?)).remaining[id]? =
    some (openCount (sortDeps ids store) [] id) := by
    intro id node
    obtain ⟨event, _, read, _⟩ := sort_node_event ids store keyed node
    rw [sortTables, add_events_remaining, event_rows_read ids store keyed node, read, openCount, sortDeps, read]
    simp
  have listed : ∀ (id : EventId) count, (sortTables (ids.filterMap fun id => store[id]?)).remaining[id]? = some count →
    id ∈ ids.filter store.contains := by
    intro id count read
    rw [sortTables, add_events_remaining] at read
    obtain ⟨event, member, own, _⟩ := event_rows_source _ read
    rw [← sort_nodes ids store keyed, ← own]
    exact mem_map.mpr ⟨event, member, rfl⟩
  constructor
  · exact nodup_nil
  · simp
  · simp
  · exact counts
  · exact seed_keys_nodup _ sound.named
  · intro key
    rw [seed_keys_member]
    constructor
    · intro seeded
      obtain ⟨id, zero, read⟩ := seeded
      have node := listed id 0 zero
      rw [counts id node, Option.some_inj, open_count_zero] at zero
      exact ⟨id, node, read, by simp, zero⟩
    · intro ready
      obtain ⟨id, node, read, _, all⟩ := ready
      refine ⟨id, ?_, read⟩
      rw [counts id node, (open_count_zero (sortDeps ids store) []).mpr all]

theorem sort_ends (distinct : ids.Nodup) :
    ∃ ordered, reverseTopologicalPowerSort (ids.length + 1) ids store = some ordered ∧
      Greedy (· ∈ ids.filter store.contains) (fun id dep => dep ∈ sortDeps ids store id)
        (KeyBefore PowerKey.cmp (sortTables (ids.filterMap fun id => store[id]?)).keyOf) [] ordered := by
  have bound := length_filter_le store.contains ids
  exact kahn_greedy PowerKey.cmp PowerKey.id _ _ _ _ (sort_tables_sound ids store keyed distinct) (ids.length + 1) [] _
    (sort_starts ids store keyed distinct) (by simp only [length_nil]; omega)

theorem sort_total (acyclic : AuthAcyclic store) (distinct : ids.Nodup) :
    ∃ ordered, reverseTopologicalPowerSort (ids.length + 1) ids store = some ordered ∧
      ∀ id ∈ ids, id ∈ store → id ∈ ordered := by
  have founded : WellFounded (Need (· ∈ ids.filter store.contains) fun id dep => dep ∈ sortDeps ids store id) :=
    Subrelation.wf (fun link => (sort_deps_inside ids store keyed _ _ link.2).2) (auth_edge_founded store acyclic)
  obtain ⟨ordered, ended, greedy⟩ := sort_ends ids store keyed distinct
  refine ⟨ordered, ended, fun id listed stored => ?_⟩
  have closed := fun id dep (_ : id ∈ ids.filter store.contains) depends =>
    (sort_deps_inside ids store keyed dep id depends).1
  exact (greedy_exhausts closed greedy (mem_filter.mpr ⟨listed, stored⟩) (founded.apply id)).resolve_right not_mem_nil

end GaussMatrix.StateRes

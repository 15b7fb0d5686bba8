import GaussMatrix.Rooms.TopologicalOrder
import GaussMatrix.StateRes.PowerOrder

namespace GaussMatrix.Rooms

open Collections GreedyOrder Kahn StateRes Std ExtTreeMap

section

variable {E : Type} [Event E]

structure Mirrors (query : EventId → Except Error (UserPowerLevel × Nat)) (graph : EventGraph)
    (store : EventStore E) : Prop where
  keyed : Keyed store
  nodes : ∀ id, id ∈ store ↔ id ∈ graph
  edges : ∀ id event, store[id]? = some event → ∀ reference, reference ∈ Event.authEventIds event ↔
    reference ∈ graph.references id
  present : ∀ id, ∀ reference ∈ graph.references id, reference ∈ graph
  keys : ∀ id event, store[id]? = some event →
    query id = .ok (.int (Event.powerLevel event), Event.originServerTs event)

def tieOf (store : EventStore E) (id : EventId) : TieBreaker :=
  match store[id]? with
  | none => ⟨id, .int 0, 0⟩
  | some event => ⟨id, .int (Event.powerLevel event), Event.originServerTs event⟩

variable {query : EventId → Except Error (UserPowerLevel × Nat)} {graph : EventGraph} {store : EventStore E}
  (mirrors : Mirrors query graph store)

include mirrors

theorem mirrored_event {id : EventId} (key : id ∈ graph.keys) : ∃ event, store[id]? = some event :=
  mem_iff_read.mp ((mirrors.nodes id).mpr (mem_keys.mp key))

theorem mirrored_tie (id : EventId) (key : id ∈ graph.keys) : tieBreaker query id = .ok (tieOf store id) := by
  obtain ⟨event, read⟩ := mirrored_event mirrors key
  rw [tieBreaker, mirrors.keys id event read, tieOf, read]
  rfl

theorem mirrored_order {id other : EventId} (key : id ∈ graph.keys) (otherKey : other ∈ graph.keys)
    (ahead : TieBefore (tieOf store) id other) : OutranksAt store id other := by
  obtain ⟨event, read⟩ := mirrored_event mirrors key
  obtain ⟨otherEvent, readOther⟩ := mirrored_event mirrors otherKey
  refine ⟨event, otherEvent, read, readOther, power_key_outranks.mp ?_⟩
  rw [TieBefore, tieOf, tieOf, read, readOther] at ahead
  rw [PowerKey.cmp, powerKeyOf, powerKeyOf, mirrors.keyed id event read, mirrors.keyed other otherEvent readOther]
  exact ahead

theorem mirrored_edge {ids : List EventId} (all : ∀ id, id ∈ ids ↔ id ∈ graph) (id reference : EventId)
    (key : id ∈ graph.keys) : reference ∈ graph.references id ↔ InSetAuth ids store reference id := by
  obtain ⟨event, read⟩ := mirrored_event mirrors key
  have inside : ∀ id, id ∈ graph → Present ids store id :=
    fun id member => ⟨(all id).mpr member, (mirrors.nodes id).mpr member⟩
  refine ⟨fun cited => ?_, fun cites => ?_⟩
  · exact ⟨inside id (mem_keys.mp key), inside reference (mirrors.present id reference cited), event, read,
      (mirrors.edges id event read reference).mpr cited⟩
  · obtain ⟨_, _, found, readAgain, cited⟩ := cites
    exact (mirrors.edges id found readAgain reference).mp cited

end

theorem power_sorts_agree {E : Type} [Event E] (query : EventId → Except Error (UserPowerLevel × Nat))
    (graph : EventGraph) (store : EventStore E) (mirrors : Mirrors query graph store) (ids : List EventId)
    (distinct : ids.Nodup) (all : ∀ id, id ∈ ids ↔ id ∈ graph) (rows : List (EventId × ReferencedIds))
    (layout : rows.Perm graph.toList) : ∃ sorted, (∀ fuel, ids.length < fuel →
    topologicalSort query fuel rows = some (.ok sorted) ∧ reverseTopologicalPowerSort fuel ids store = some sorted) ∧
      (AuthAcyclic store → sorted.Perm ids) := by
  have same : ids.Perm graph.keys := (List.perm_ext_iff_of_nodup distinct nodup_keys).mpr fun id =>
    (all id).trans mem_keys.symm
  obtain ⟨sorted, ended, greedy⟩ := topological_sort_greedy (mirrored_tie mirrors)
  obtain ⟨ordered, endedToo, greedyToo⟩ := sort_greedy mirrors.keyed distinct
  have nodes : ∀ id, id ∈ graph.keys ↔ Present ids store id := by
    intro id
    rw [Present, all id, mirrors.nodes id, and_self, mem_keys]
  have agree : sorted = ordered := by
    refine greedy_unique outranks_asymm (greedy_congr nodes (mirrored_edge mirrors all) ?_ greedy) greedyToo
    exact fun id other key otherKey => mirrored_order mirrors key otherKey
  subst agree
  refine ⟨sorted, fun fuel enough => ⟨ended rows layout fuel (same.length_eq ▸ enough), sort_more _ enough endedToo⟩,
    fun acyclic => ?_⟩
  refine (List.perm_ext_iff_of_nodup (greedy_distinct greedy).1 distinct).mpr fun id => ?_
  rw [greedy_member (fun id auth _ cites => cites.2.1) greedyToo, founded_iff_no_cycle, ← nodes id, mem_keys, all id]
  refine and_iff_left fun cycle => ?_
  obtain ⟨on, _, loop⟩ := cycle
  exact acyclic on (loop.lift (fun event => event) fun _ _ cites => cites.2.2)

def diamondGraph : EventGraph := extend ∅ [("$a", []), ("$b", ["$a"]), ("$c", ["$a", "$a"]), ("$d", ["$c", "$b"])]

def diamondStore : EventStore StateEvent := storeOf
    [StateEvent.new "$a" createType "@x", { StateEvent.new "$b" memberType "@x" with authEventIds := ["$a"], originServerTs := 2 },
      { StateEvent.new "$c" memberType "@x" with authEventIds := ["$a"], originServerTs := 1 },
      { StateEvent.new "$d" memberType "@x" with authEventIds := ["$b", "$c"], powerLevel := 100 }]

def diamondQuery (id : EventId) : Except Error (UserPowerLevel × Nat) :=
  match diamondStore[id]? with
  | none => .error ⟨.notFound, "PDU not found"⟩
  | some event => .ok (.int event.powerLevel, event.originServerTs)

theorem forked_mirrors : Mirrors diamondQuery diamondGraph diamondStore where
  keyed := store_of_keyed
  nodes := by
    intro id
    have same : diamondStore.keys = diamondGraph.keys := by decide +kernel
    rw [← mem_keys, same, mem_keys]
  edges := by
    have rows : ∀ row ∈ diamondStore.toList, (∀ reference ∈ row.2.authEventIds, reference ∈ diamondGraph.references row.1) ∧
        ∀ reference ∈ diamondGraph.references row.1, reference ∈ row.2.authEventIds := by decide +kernel
    intro id event read reference
    obtain ⟨into, back⟩ := rows (id, event) (mem_toList_iff_getElem?_eq_some.mpr read)
    exact ⟨into reference, back reference⟩
  present := by
    have rows : ∀ row ∈ diamondGraph.toList, ∀ reference ∈ row.2, reference ∈ diamondGraph := by decide +kernel
    intro id reference cited
    cases read : diamondGraph[id]? with
    | none => simp [EventGraph.references, read] at cited
    | some references =>
      rw [EventGraph.references, read, Option.getD_some] at cited
      exact rows (id, references) (mem_toList_iff_getElem?_eq_some.mpr read) reference cited
  keys := by
    intro id event read
    rw [diamondQuery, read]
    rfl

theorem forked_sorts_agree :
    reverseTopologicalPowerSort 5 ["$d", "$c", "$b", "$a"] diamondStore = some ["$a", "$c", "$b", "$d"] ∧
      topologicalSort diamondQuery 5 diamondGraph.toList = some (.ok ["$a", "$c", "$b", "$d"]) := by
  have order : reverseTopologicalPowerSort 5 ["$d", "$c", "$b", "$a"] diamondStore = some ["$a", "$c", "$b", "$d"] := by
    decide +kernel
  have listed : (["$d", "$c", "$b", "$a"] : List EventId).Perm diamondGraph.keys := by decide +kernel
  obtain ⟨sorted, ended, _⟩ :=
    power_sorts_agree diamondQuery diamondGraph diamondStore forked_mirrors ["$d", "$c", "$b", "$a"] (by decide)
    (fun id => listed.mem_iff.trans mem_keys) diamondGraph.toList (List.Perm.refl _)
  obtain ⟨legacy, new⟩ := ended 5 (by decide)
  rw [Option.some.inj (new.symm.trans order)] at legacy
  exact ⟨order, legacy⟩

end GaussMatrix.Rooms

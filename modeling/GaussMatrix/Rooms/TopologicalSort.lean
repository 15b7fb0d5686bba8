import GaussMatrix.Library.Bfs
import GaussMatrix.Library.Kahn
import GaussMatrix.Library.Outcome
import GaussMatrix.Rooms.Pdu

namespace GaussMatrix.Rooms

open Bfs Collections Kahn Outcome StateRes Std

inductive UserPowerLevel where
  | int (level : Int)
  | infinite
deriving DecidableEq

def UserPowerLevel.cmp : UserPowerLevel → UserPowerLevel → Ordering
  | .infinite, .infinite => .eq
  | .infinite, .int _ => .gt
  | .int _, .infinite => .lt
  | .int level, .int other => compare level other

structure TieBreaker where
  eventId : EventId
  powerLevel : UserPowerLevel
  originServerTs : Nat
deriving DecidableEq

def TieBreaker.cmp (self other : TieBreaker) : Ordering := (other.powerLevel.cmp self.powerLevel).then
    ((compare self.originServerTs other.originServerTs).then (compare self.eventId other.eventId))

abbrev ReferencedIds := List EventId

abbrev EventGraph := BTreeMap EventId ReferencedIds

def EventGraph.references (graph : EventGraph) (eventId : EventId) : ReferencedIds := graph[eventId]?.getD []

variable (query : EventId → Except Error (UserPowerLevel × Nat))

def tieBreaker (eventId : EventId) : Except Error TieBreaker :=
  (query eventId).map fun info => ⟨eventId, info.1, info.2⟩

-- The rows of the graph come in the order its hash map is iterated.
def incomingOf (rows : List (EventId × ReferencedIds)) : EventGraph :=
  (rows.flatMap fun row => row.2.map fun reference => (row.1, reference)).foldl (fun incoming edge =>
    let references := incoming.references edge.2
    incoming.insert edge.2 (if references.contains edge.1 then references else references ++ [edge.1])) ∅

-- A parent comes from a row of the graph, so it is always found there.
def cutEdge (eventId : EventId) (state : List TieBreaker × EventGraph) (parentId : EventId) :
    Except Error (List TieBreaker × EventGraph) :=
  let out := (state.2.references parentId).filter fun reference => reference ≠ eventId
  let graph := state.2.insert parentId out
  if out.isEmpty then (tieBreaker query parentId).map fun item => (item :: state.1, graph)
  else .ok (state.1, graph)

def kahnSort (incoming : EventGraph) : Nat → List TieBreaker → EventGraph → Option (Except Error (List EventId))
  | 0, _, _ => none
  | fuel + 1, heap, graph =>
    match popMax (fun item other => other.cmp item) heap with
    | none => some (.ok [])
    | some (item, rest) =>
      match (incoming.references item.eventId).foldlM (cutEdge query item.eventId) (rest, graph) with
      | .error error => some (.error error)
      | .ok state => (kahnSort incoming fuel state.1 state.2).map fun sorted => sorted.map fun later => item.eventId :: later

def topologicalSort (fuel : Nat) (rows : List (EventId × ReferencedIds)) : Option (Except Error (List EventId)) :=
  match (rows.filter fun row => row.2.isEmpty).mapM fun row => tieBreaker query row.1 with
  | .error error => some (.error error)
  | .ok horizon => kahnSort query (incomingOf rows) fuel horizon (extend ∅ rows)

variable (graph : EventGraph)

theorem references_insert (state : EventGraph) (parentId eventId : EventId) (out : ReferencedIds) :
    EventGraph.references (state.insert parentId out) eventId = if eventId = parentId then out
    else state.references eventId := by
  by_cases same : eventId = parentId
  · subst same
    rw [EventGraph.references, ExtTreeMap.getElem?_insert_self, if_pos rfl, Option.getD_some]
  · rw [EventGraph.references, insert_elsewhere same, if_neg same, EventGraph.references]

theorem tie_breaker_id {eventId : EventId} {item : TieBreaker} (queried : tieBreaker query eventId = .ok item) :
    item.eventId = eventId := by
  cases answer : query eventId with
  | error error => simp [tieBreaker, answer, Except.map] at queried
  | ok info =>
    simp only [tieBreaker, answer, Except.map, Except.ok.injEq] at queried
    rw [← queried]

variable {emitted : EventId → Prop} (rows : List (EventId × ReferencedIds)) {eventId : EventId}

theorem rows_read (layout : rows.Perm graph.toList) (row : EventId × ReferencedIds) (member : row ∈ rows) :
    graph[row.1]? = some row.2 :=
  ExtTreeMap.mem_toList_iff_getElem?_eq_some.mp (layout.mem_iff.mp member)

theorem rows_extend (layout : rows.Perm graph.toList) : extend ∅ rows = graph := by
  apply ExtTreeMap.ext_getElem?
  intro eventId
  by_cases present : ∃ row ∈ rows, row.1 = eventId
  · exact extend_consistent ∅ rows (fun id => graph[id]?) (rows_read graph rows layout) present
  · rw [extend_outside ∅ rows eventId fun row member same => present ⟨row, member, same⟩]
    cases found : graph[eventId]? with
    | none => rfl
    | some references =>
      have listed := layout.mem_iff.mpr (ExtTreeMap.mem_toList_iff_getElem?_eq_some.mpr found)
      exact absurd ⟨_, listed, rfl⟩ present

end GaussMatrix.Rooms

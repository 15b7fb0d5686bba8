import GaussMatrix.Rooms.TopologicalSort

namespace GaussMatrix.Rooms

open Collections GreedyOrder Kahn List Outcome StateRes Std

def UserPowerLevel.isInfinite : UserPowerLevel → Bool
  | .int _ => false
  | .infinite => true

def UserPowerLevel.amount : UserPowerLevel → Int
  | .int level => level
  | .infinite => 0

theorem level_cmp_lex : UserPowerLevel.cmp = compareLex (compareOn UserPowerLevel.isInfinite)
    (compareOn UserPowerLevel.amount) := by
  funext level other
  cases level <;> cases other <;> rfl

instance : Ord UserPowerLevel := ⟨UserPowerLevel.cmp⟩

instance : TransCmp UserPowerLevel.cmp := level_cmp_lex ▸ inferInstance

instance : TransOrd UserPowerLevel := inferInstanceAs (TransCmp UserPowerLevel.cmp)

instance : LawfulEqOrd UserPowerLevel where
  eq_of_compare := by
    intro level other same
    cases level <;> cases other <;> first | cases same | skip
    · exact congrArg UserPowerLevel.int (LawfulEqOrd.eq_of_compare same)
    · rfl

def handedLater (item other : TieBreaker) : Ordering := other.cmp item

instance : TransCmp handedLater := inferInstanceAs (TransCmp (compareLex (compareOn TieBreaker.powerLevel)
    (compareLex (fun item other => compareOn TieBreaker.originServerTs other item)
      (fun item other => compareOn TieBreaker.eventId other item))))

instance : LawfulEqCmp handedLater where
  eq_of_compare := by
    intro item other same
    rw [handedLater, TieBreaker.cmp, Ordering.then_eq_eq, Ordering.then_eq_eq] at same
    have level : item.powerLevel = other.powerLevel := LawfulEqOrd.eq_of_compare same.1
    have ts : other.originServerTs = item.originServerTs := LawfulEqOrd.eq_of_compare same.2.1
    have eventId : other.eventId = item.eventId := LawfulEqOrd.eq_of_compare same.2.2
    cases item
    cases other
    cases level
    cases ts
    cases eventId
    rfl

theorem incoming_references (edges : List (EventId × EventId)) (incoming : EventGraph) (reference : EventId)
    (distinct : (incoming.references reference).Nodup) : let built := edges.foldl (fun incoming edge =>
      let references := EventGraph.references incoming edge.2
      incoming.insert edge.2 (if references.contains edge.1 then references else references ++ [edge.1])) incoming
    (EventGraph.references built reference).Nodup ∧
      ∀ parentId, parentId ∈ EventGraph.references built reference ↔ parentId ∈ incoming.references reference ∨ (parentId, reference) ∈ edges := by
  induction edges generalizing incoming with
  | nil => simpa using distinct
  | cons edge tail ih =>
    let references := incoming.references edge.2
    let next := incoming.insert edge.2 (if references.contains edge.1 then references else references ++ [edge.1])
    have step : (EventGraph.references next reference).Nodup ∧ ∀ parentId, parentId ∈ EventGraph.references next reference ↔
        parentId ∈ incoming.references reference ∨ (parentId, reference) = edge := by
      rw [references_insert]
      by_cases same : reference = edge.2
      · subst same
        rw [if_pos rfl]
        by_cases held : edge.1 ∈ references
        · rw [if_pos (contains_iff_mem.mpr held)]
          refine ⟨distinct, fun parentId => ⟨.inl, fun either => either.elim id fun isEdge => ?_⟩⟩
          rw [show parentId = edge.1 from congrArg Prod.fst isEdge]
          exact held
        · rw [if_neg (by simpa using held)]
          refine ⟨nodup_append.mpr ⟨distinct, nodup_singleton _, ?_⟩, fun parentId => ?_⟩
          · intro parentId member other isEdge same
            exact held (mem_singleton.mp isEdge ▸ same ▸ member)
          · rw [mem_append, mem_singleton, Prod.ext_iff]
            simp [references]
      · rw [if_neg same]
        refine ⟨distinct, fun parentId => ⟨.inl, fun either => either.elim id fun isEdge => ?_⟩⟩
        exact absurd (congrArg Prod.snd isEdge) same
    obtain ⟨rest, member⟩ := ih next step.1
    refine ⟨rest, fun parentId => ?_⟩
    rw [mem_cons, ← or_assoc, ← step.2 parentId]
    exact member parentId

theorem incoming_of_references {rows : List (EventId × ReferencedIds)} {reference : EventId} :
    ((incomingOf rows).references reference).Nodup ∧
      ∀ parentId, parentId ∈ (incomingOf rows).references reference ↔ ∃ references, (parentId, references) ∈ rows ∧
      reference ∈ references := by
  have none : EventGraph.references ∅ reference = [] := by simp [EventGraph.references]
  obtain ⟨distinct, member⟩ := incoming_references
    (rows.flatMap fun row => row.2.map fun reference => (row.1, reference)) ∅ reference (by rw [none]; exact nodup_nil)
  refine ⟨distinct, fun parentId => (member parentId).trans ?_⟩
  rw [none]
  simp

variable (eventId : EventId)

def leftOf (graph : EventGraph) (parentId : EventId) : ReferencedIds :=
  (graph.references parentId).filter fun reference => reference ≠ eventId

variable (query : EventId → Except Error (UserPowerLevel × Nat)) (tie : EventId → TieBreaker)

theorem left_after_cut {graph : EventGraph} {parentId other : EventId} (different : other ≠ parentId) :
    leftOf eventId (graph.insert parentId (leftOf eventId graph parentId)) other = leftOf eventId graph other := by
  rw [leftOf, references_insert, if_neg different, leftOf]

theorem cut_edge_done {parentId : EventId} (answered : tieBreaker query parentId = .ok (tie parentId))
    (heap : List TieBreaker) (graph : EventGraph) : cutEdge query eventId (heap, graph) parentId =
      .ok (if (leftOf eventId graph parentId).isEmpty then tie parentId :: heap else heap,
      graph.insert parentId (leftOf eventId graph parentId)) := by
  change (if (leftOf eventId graph parentId).isEmpty then (tieBreaker query parentId).map fun item =>
    (item :: heap, graph.insert parentId (leftOf eventId graph parentId))
    else .ok (heap, graph.insert parentId (leftOf eventId graph parentId))) = _
  rw [answered]
  by_cases empty : (leftOf eventId graph parentId).isEmpty
  · rw [if_pos empty, if_pos empty]
    rfl
  · rw [if_neg empty, if_neg empty]

theorem cut_edges_done {parents : List EventId} (distinct : parents.Nodup)
    (answered : ∀ parentId ∈ parents, tieBreaker query parentId = .ok (tie parentId))
    (heap : List TieBreaker) (graph : EventGraph) :
    ∃ later current, parents.foldlM (cutEdge query eventId) (heap, graph) = .ok (later, current) ∧
      later.Perm ((parents.filter fun parentId => (leftOf eventId graph parentId).isEmpty).map tie ++ heap) ∧
      ∀ id, current[id]? = if id ∈ parents then some (leftOf eventId graph id) else graph[id]? := by
  induction parents generalizing heap graph with
  | nil => exact ⟨heap, graph, rfl, List.Perm.refl _, fun id => rfl⟩
  | cons parentId tail ih =>
    obtain ⟨fresh, tailDistinct⟩ := nodup_cons.mp distinct
    let next := graph.insert parentId (leftOf eventId graph parentId)
    let grown := if (leftOf eventId graph parentId).isEmpty then tie parentId :: heap else heap
    obtain ⟨later, current, cut, layout, read⟩ := ih tailDistinct (fun other member => answered other (mem_cons_of_mem _ member)) grown next
    have same : ∀ other ∈ tail, leftOf eventId next other = leftOf eventId graph other :=
      fun other member => left_after_cut eventId fun isHead => fresh (isHead ▸ member)
    refine ⟨later, current, ?_, ?_, ?_⟩
    · rw [foldlM_cons, cut_edge_done eventId query tie (answered parentId mem_cons_self)]
      exact cut
    · have kept : tail.filter (fun other => (leftOf eventId next other).isEmpty) = tail.filter fun other => (leftOf eventId graph other).isEmpty :=
        filter_congr fun other member => by rw [same other member]
      rw [kept] at layout
      by_cases empty : (leftOf eventId graph parentId).isEmpty
      · rw [filter_cons, if_pos empty]
        simp only [grown, if_pos empty] at layout
        exact layout.trans perm_middle
      · rw [filter_cons, if_neg empty]
        simpa only [grown, if_neg empty] using layout
    · intro id
      rw [read id]
      by_cases isHead : id = parentId
      · subst isHead
        rw [if_neg fresh, if_pos mem_cons_self, ExtTreeMap.getElem?_insert_self]
      · simp only [mem_cons, isHead, false_or]
        split
        case isTrue member => rw [same id member]
        case isFalse => exact insert_elsewhere isHead

variable {query tie} {graph : EventGraph} {rows : List (EventId × ReferencedIds)}

def Waiting (graph : EventGraph) (emitted : List EventId) (id : EventId) : Prop :=
  Ready (· ∈ graph.keys) (fun id reference => reference ∈ graph.references id) emitted id

def TieBefore (tie : EventId → TieBreaker) (id other : EventId) : Prop := handedLater (tie other) (tie id) = .lt

structure Exact (tie : EventId → TieBreaker) (graph : EventGraph) (emitted : List EventId) (heap : List TieBreaker)
    (current : EventGraph) : Prop where
  left : ∀ id, current.references id = (graph.references id).filter fun reference => reference ∉ emitted
  queued : ∀ item, item ∈ heap ↔ ∃ id, Waiting graph emitted id ∧ tie id = item

structure Running (graph : EventGraph) (emitted : List EventId) (heap : List TieBreaker) : Prop where
  queuedOnce : heap.Nodup
  once : emitted.Nodup
  closed : ∀ id ∈ emitted, id ∈ graph.keys ∧ ∀ reference ∈ graph.references id, reference ∈ emitted

theorem references_key {id reference : EventId} (member : reference ∈ graph.references id) : id ∈ graph.keys := by
  rw [ExtTreeMap.mem_keys, ExtTreeMap.mem_iff_isSome_getElem?]
  cases read : graph[id]? with
  | none =>
    rw [EventGraph.references, read] at member
    cases member
  | some references => rfl

theorem left_of_exact {emitted : List EventId} {heap : List TieBreaker} {current : EventGraph}
    (precise : Exact tie graph emitted heap current) (eventId id : EventId) :
    leftOf eventId current id = (graph.references id).filter fun reference => reference ∉ eventId :: emitted := by
  rw [leftOf, precise.left, filter_filter]
  refine filter_congr fun reference _ => ?_
  simp

section

variable {emitted parents : List EventId} {heap rest later : List TieBreaker} {current next : EventGraph}
  {item : TieBreaker}

theorem exact_left (precise : Exact tie graph emitted heap current)
    (edges : ∀ id, id ∈ parents ↔ item.eventId ∈ graph.references id) (read :
    ∀ id, next[id]? = if id ∈ parents then some (leftOf item.eventId current id) else current[id]?) (id : EventId) :
    next.references id = (graph.references id).filter fun reference => reference ∉ item.eventId :: emitted := by
  by_cases parent : id ∈ parents
  · rw [EventGraph.references, read id, if_pos parent, Option.getD_some, left_of_exact precise]
  · have kept : next.references id = current.references id := by rw [EventGraph.references, read id, if_neg parent, EventGraph.references]
    rw [kept, precise.left]
    refine filter_congr fun reference member => ?_
    have different : reference ≠ item.eventId := fun same => parent ((edges id).mpr (same ▸ member))
    simp [different]

theorem left_empty (precise : Exact tie graph emitted heap current) {id : EventId} :
    (leftOf item.eventId current id).isEmpty = true ↔
    ∀ reference ∈ graph.references id, reference ∈ item.eventId :: emitted := by
  rw [left_of_exact precise, List.isEmpty_iff, filter_eq_nil_iff]
  refine forall_congr' fun reference => imp_congr_right fun _ => ?_
  rw [decide_eq_true_eq, not_not]

variable (own : ∀ id ∈ graph.keys, (tie id).eventId = id) (running : Running graph emitted heap)
  (precise : Exact tie graph emitted heap current) (popped : heap.Perm (item :: rest))

include own running precise popped

theorem running_step (distinct : parents.Nodup) (edges : ∀ id, id ∈ parents ↔ item.eventId ∈ graph.references id)
    (grown :
    later.Perm ((parents.filter fun parentId => (leftOf item.eventId current parentId).isEmpty).map tie ++ rest)) :
    Running graph (item.eventId :: emitted) later := by
  obtain ⟨top, waiting, rfl⟩ := (precise.queued item).mp (popped.mem_iff.mpr mem_cons_self)
  rw [own top waiting.1] at edges ⊢
  refine ⟨grown.nodup_iff.mpr (nodup_append.mpr ⟨?_, (nodup_cons.mp (popped.nodup_iff.mp running.queuedOnce)).2, ?_⟩),
    nodup_cons.mpr ⟨waiting.2.1, running.once⟩, ?_⟩
  · refine (distinct.filter _).map_on fun id member other memberToo same => ?_
    have key := fun id (parent : id ∈ parents) => references_key ((edges id).mp parent)
    rw [← own id (key id (mem_filter.mp member).1), same, own other (key other (mem_filter.mp memberToo).1)]
  · -- A parent still waited for the event, so it was not in the heap.
    rintro _ freed _ kept rfl
    obtain ⟨id, member, same⟩ := mem_map.mp freed
    obtain ⟨held, ready, tied⟩ := (precise.queued _).mp (popped.mem_iff.mpr (mem_cons_of_mem _ kept))
    have cites := (edges id).mp (mem_filter.mp member).1
    rw [← own id (references_key cites), same, ← tied, own held ready.1] at cites
    exact waiting.2.1 (ready.2.2 top cites)
  · refine forall_mem_cons.mpr ⟨⟨waiting.1, fun reference cited => mem_cons_of_mem _ (waiting.2.2 reference cited)⟩, fun id member => ?_⟩
    exact ⟨(running.closed id member).1, fun reference cited => mem_cons_of_mem _ ((running.closed id member).2 reference cited)⟩

theorem exact_step (edges : ∀ id, id ∈ parents ↔ item.eventId ∈ graph.references id)
    (grown :
    later.Perm ((parents.filter fun parentId => (leftOf item.eventId current parentId).isEmpty).map tie ++ rest))
    (read : ∀ id, next[id]? = if id ∈ parents then some (leftOf item.eventId current id) else current[id]?) :
    Exact tie graph (item.eventId :: emitted) later next := by
  obtain ⟨top, waiting, rfl⟩ := (precise.queued item).mp (popped.mem_iff.mpr mem_cons_self)
  have named : (tie top).eventId = top := own top waiting.1
  have once : tie top ∉ rest := (nodup_cons.mp (popped.nodup_iff.mp running.queuedOnce)).1
  refine ⟨exact_left precise edges read, fun other => ?_⟩
  rw [grown.mem_iff, mem_append, mem_map]
  constructor
  · rintro (⟨id, freed, rfl⟩ | kept)
    · obtain ⟨parent, empty⟩ := mem_filter.mp freed
      have cites := (edges id).mp parent
      refine ⟨id, ⟨references_key cites, fun done => ?_, (left_empty precise).mp empty⟩, rfl⟩
      rw [named] at cites done
      rcases mem_cons.mp done with rfl | old
      · exact waiting.2.1 (waiting.2.2 id cites)
      · exact waiting.2.1 ((running.closed id old).2 top cites)
    · obtain ⟨id, ready, rfl⟩ := (precise.queued other).mp (popped.mem_iff.mpr (mem_cons_of_mem _ kept))
      refine ⟨id, ⟨ready.1, fun done => ?_, fun reference cited => mem_cons_of_mem _ (ready.2.2 reference cited)⟩, rfl⟩
      rcases mem_cons.mp done with same | old
      · rw [named] at same
        exact once (same ▸ kept)
      · exact ready.2.1 old
  · rintro ⟨id, ready, rfl⟩
    rw [named] at ready
    have different : id ≠ top := fun same => ready.2.1 (same ▸ mem_cons_self)
    by_cases cites : top ∈ graph.references id
    · refine .inl ⟨id, mem_filter.mpr ⟨(edges id).mpr (named.symm ▸ cites), (left_empty precise).mpr ?_⟩, rfl⟩
      rw [named]
      exact ready.2.2
    · have before : Waiting graph emitted id := by
        refine ⟨ready.1, fun old => ready.2.1 (mem_cons_of_mem top old), fun reference cited => ?_⟩
        exact (mem_cons.mp (ready.2.2 reference cited)).resolve_left fun same => cites (same ▸ cited)
      have held := popped.mem_iff.mp ((precise.queued (tie id)).mpr ⟨id, before, rfl⟩)
      refine .inr ((mem_cons.mp held).resolve_left fun same => different ?_)
      rw [← own id ready.1, same, named]

end

theorem kahn_sort_greedy {incoming : EventGraph} (distinct : ∀ id, (incoming.references id).Nodup)
    (edges : ∀ id parentId, parentId ∈ incoming.references id ↔ parentId ∈ graph.keys ∧ id ∈ graph.references parentId)
    (answered : ∀ id ∈ graph.keys, tieBreaker query id = .ok (tie id)) (fuel : Nat) (emitted : List EventId)
    (heap : List TieBreaker) (current : EventGraph) (running : Running graph emitted heap)
    (precise : Exact tie graph emitted heap current) (enough : graph.keys.length < emitted.length + fuel) :
    ∃ sorted, kahnSort query incoming fuel heap current = some (.ok sorted) ∧
      Greedy (· ∈ graph.keys) (fun id reference => reference ∈ graph.references id) (TieBefore tie) emitted sorted := by
  have own : ∀ id ∈ graph.keys, (tie id).eventId = id := fun id member => tie_breaker_id query (answered id member)
  induction fuel generalizing emitted heap current with
  | zero =>
    have bounded := running.once.subperm fun id member => (running.closed id member).1
    exact absurd bounded.length_le (by omega)
  | succ fuel ih =>
    have named : (fun item other : TieBreaker => other.cmp item) = handedLater := rfl
    rw [kahnSort, named]
    cases popped : popMax handedLater heap with
    | none =>
      refine ⟨[], rfl, fun id waiting => ?_⟩
      have held := (precise.queued (tie id)).mpr ⟨id, waiting, rfl⟩
      rw [pop_max_none handedLater heap popped] at held
      cases held
    | some pair =>
      obtain ⟨item, rest⟩ := pair
      have layout := pop_max_perm popped
      obtain ⟨later, next, cut, grown, read⟩ := cut_edges_done item.eventId query tie
        (distinct item.eventId) (fun parentId member => answered parentId ((edges _ parentId).mp member).1) rest current
      have parents : ∀ id, id ∈ incoming.references item.eventId ↔ item.eventId ∈ graph.references id :=
        fun id => (edges item.eventId id).trans ⟨fun both => both.2, fun cites => ⟨references_key cites, cites⟩⟩
      obtain ⟨tail, run, ordered⟩ := ih _ later next (running_step own running precise layout (distinct item.eventId) parents grown)
        (exact_step own running precise layout parents grown read) (by simp only [length_cons]; omega)
      refine ⟨item.eventId :: tail, by simp only [cut, run]; rfl, ?_⟩
      obtain ⟨top, waiting, rfl⟩ := (precise.queued item).mp (layout.mem_iff.mpr mem_cons_self)
      rw [own top waiting.1] at ordered ⊢
      refine ⟨waiting, fun other waits => ?_, ordered⟩
      rcases pop_max_greatest handedLater popped ((precise.queued _).mpr ⟨other, waits, rfl⟩) with same | less
      · exact .inl (by rw [← own other waits.1, same, own top waiting.1])
      · exact .inr less

theorem row_key (layout : rows.Perm graph.toList) {row : EventId × ReferencedIds} (member : row ∈ rows) :
    row.1 ∈ graph.keys := by
  rw [← ExtTreeMap.map_fst_toList_eq_keys]
  exact mem_map_of_mem (layout.mem_iff.mp member)

theorem topological_sort_rows (answered : ∀ id ∈ graph.keys, tieBreaker query id = .ok (tie id))
    (layout : rows.Perm graph.toList) (fuel : Nat) : topologicalSort query fuel rows = kahnSort query
    (incomingOf rows) fuel ((rows.filter fun row => row.2.isEmpty).map fun row => tie row.1) graph := by
  have horizon : (rows.filter fun row => row.2.isEmpty).mapM (fun row => tieBreaker query row.1) = .ok
    ((rows.filter fun row => row.2.isEmpty).map fun row => tie row.1) := by
    exact map_all_done fun row member => answered row.1 (row_key layout (mem_filter.mp member).1)
  rw [topologicalSort, horizon, rows_extend graph rows layout]

theorem incoming_edges (layout : rows.Perm graph.toList) (id parentId : EventId) :
    parentId ∈ (incomingOf rows).references id ↔ parentId ∈ graph.keys ∧ id ∈ graph.references parentId := by
  rw [incoming_of_references.2 parentId, ExtTreeMap.mem_keys, ExtTreeMap.mem_iff_isSome_getElem?, EventGraph.references]
  constructor
  · intro listed
    obtain ⟨references, member, cited⟩ := listed
    rw [rows_read graph rows layout _ member]
    exact ⟨rfl, cited⟩
  · intro both
    obtain ⟨references, read⟩ := Option.isSome_iff_exists.mp both.1
    rw [read] at both
    exact ⟨references, layout.mem_iff.mpr (ExtTreeMap.mem_toList_iff_getElem?_eq_some.mpr read), both.2⟩

theorem horizon_exact (layout : rows.Perm graph.toList) :
    Exact tie graph [] ((rows.filter fun row => row.2.isEmpty).map fun row => tie row.1) graph := by
  refine ⟨fun id => (filter_eq_self.mpr fun reference _ => decide_eq_true not_mem_nil).symm, fun item => ?_⟩
  rw [mem_map]
  constructor
  · rintro ⟨row, kept, rfl⟩
    obtain ⟨inRows, empty⟩ := mem_filter.mp kept
    have read := rows_read graph rows layout row inRows
    refine ⟨row.1, ⟨?_, not_mem_nil, fun reference cited => ?_⟩, rfl⟩
    · exact row_key layout inRows
    · have inRow : reference ∈ graph.references row.1 := cited
      rw [EventGraph.references, read, Option.getD_some, List.isEmpty_iff.mp empty] at inRow
      exact inRow
  · rintro ⟨id, ⟨key, _, met⟩, rfl⟩
    obtain ⟨references, read⟩ := mem_iff_read.mp (ExtTreeMap.mem_keys.mp key)
    have none : references = [] := by
      have own : graph.references id = references := by rw [EventGraph.references, read, Option.getD_some]
      rw [← own]
      exact eq_nil_iff_forall_not_mem.mpr fun reference cited => not_mem_nil (met reference cited)
    exact ⟨(id, references),
      mem_filter.mpr ⟨layout.mem_iff.mpr (ExtTreeMap.mem_toList_iff_getElem?_eq_some.mpr read), by rw [none]; rfl⟩, rfl⟩

theorem horizon_running (layout : rows.Perm graph.toList) (own : ∀ id ∈ graph.keys, (tie id).eventId = id) :
    Running graph [] ((rows.filter fun row => row.2.isEmpty).map fun row => tie row.1) := by
  refine ⟨List.Nodup.of_map TieBreaker.eventId ?_, nodup_nil, fun id member => absurd member not_mem_nil⟩
  have names : ((rows.filter fun row => row.2.isEmpty).map fun row => tie row.1).map TieBreaker.eventId =
    (rows.filter fun row => row.2.isEmpty).map Prod.fst := by
    rw [map_map]
    exact map_congr_left fun row member => own row.1 (row_key layout (mem_filter.mp member).1)
  have distinct : (rows.map Prod.fst).Nodup := by
    rw [(layout.map Prod.fst).nodup_iff, ExtTreeMap.map_fst_toList_eq_keys]
    exact ExtTreeMap.nodup_keys
  rw [names]
  exact distinct.sublist (filter_sublist.map Prod.fst)

theorem tie_before_asymm (id other : EventId) (ahead : TieBefore tie id other) : ¬ TieBefore tie other id := by
  intro behind
  rw [TieBefore, OrientedCmp.gt_of_lt ahead] at behind
  cases behind

theorem topological_sort_greedy (answered : ∀ id ∈ graph.keys, tieBreaker query id = .ok (tie id)) :
    ∃ sorted, (∀ rows, rows.Perm graph.toList → ∀ fuel, graph.keys.length < fuel →
    topologicalSort query fuel rows = some (.ok sorted)) ∧
      Greedy (· ∈ graph.keys) (fun id reference => reference ∈ graph.references id) (TieBefore tie) [] sorted := by
  have ends : ∀ rows, rows.Perm graph.toList → ∀ fuel, graph.keys.length < fuel →
    ∃ sorted, topologicalSort query fuel rows = some (.ok sorted) ∧
      Greedy (· ∈ graph.keys) (fun id reference => reference ∈ graph.references id) (TieBefore tie) [] sorted := by
    intro rows layout fuel enough
    rw [topological_sort_rows answered layout]
    exact kahn_sort_greedy (fun id => incoming_of_references.1) (incoming_edges layout) answered fuel [] _ graph
      (horizon_running layout fun id key => tie_breaker_id query (answered id key)) (horizon_exact layout) (by simpa using enough)
  obtain ⟨sorted, _, greedy⟩ := ends graph.toList (List.Perm.refl _) _ (Nat.lt_succ_self _)
  refine ⟨sorted, fun rows layout fuel enough => ?_, greedy⟩
  obtain ⟨again, ended, greedyToo⟩ := ends rows layout fuel enough
  rw [greedy_unique tie_before_asymm greedy greedyToo]
  exact ended

end GaussMatrix.Rooms

import GaussMatrix.StateRes.PowerSort

namespace GaussMatrix.StateRes

open Collections Event GreedyOrder Kahn

variable {E : Type} [Event E]

def Outranks (event other : E) : Prop := powerLevel other < powerLevel event ∨ powerLevel event = powerLevel other ∧
    (originServerTs event < originServerTs other ∨ originServerTs event = originServerTs other ∧ eventId event < eventId other)

def OutranksAt (store : EventStore E) (id other : EventId) : Prop :=
  ∃ event otherEvent, store[id]? = some event ∧ store[other]? = some otherEvent ∧ Outranks event otherEvent

section

variable (ids : List EventId) (store : EventStore E)

def Present (id : EventId) : Prop := id ∈ ids ∧ id ∈ store

def InSetAuth (auth id : EventId) : Prop := Present ids store id ∧ Present ids store auth ∧ AuthEdge store auth id

def ReachesCycle (id : EventId) : Prop := ∃ on, Relation.ReflTransGen (InSetAuth ids store) on id ∧
    Relation.TransGen (InSetAuth ids store) on on

end

theorem power_key_outranks {event other : E} :
    (powerKeyOf other).cmp (powerKeyOf event) = .lt ↔ Outranks event other := by
  have power : powerLevel other = powerLevel event ↔ powerLevel event = powerLevel other := eq_comm
  simp only [PowerKey.cmp, powerKeyOf, Ordering.then_eq_lt, compare_lt_iff_lt, compare_eq_iff_eq, Outranks, power]

theorem outranks_asymm {store : EventStore E} (id other : EventId) (ahead : OutranksAt store id other) :
    ¬ OutranksAt store other id := by
  intro behind
  obtain ⟨event, otherEvent, read, readOther, first⟩ := ahead
  obtain ⟨again, last, readAgain, readLast, second⟩ := behind
  cases readOther.symm.trans readAgain
  cases read.symm.trans readLast
  rw [← power_key_outranks] at first second
  rw [Std.OrientedCmp.gt_of_lt first] at second
  cases second

omit [Event E] in
theorem present_node (ids : List EventId) (store : EventStore E) (id : EventId) :
    id ∈ ids.filter store.contains ↔ Present ids store id := List.mem_filter

section

variable {ids : List EventId} {store : EventStore E} (keyed : Keyed store)

include keyed

theorem sort_deps_member {id : EventId} (auth : EventId) (present : Present ids store id) :
    auth ∈ sortDeps ids store id ↔ InSetAuth ids store auth id := by
  refine ⟨fun depends => ?_, fun cites => ?_⟩
  · obtain ⟨node, edge⟩ := sort_deps_inside ids store keyed auth id depends
    exact ⟨present, (present_node ids store auth).mp node, edge⟩
  · obtain ⟨_, there, event, read, cited⟩ := cites
    rw [sortDeps, read]
    simp only [presentDeps, presentIds, Std.ExtTreeSet.mem_ofList, List.contains_eq_mem, decide_eq_true_eq, List.mem_filter,
      Std.ExtTreeSet.contains_ofList, sort_nodes ids store keyed]
    exact ⟨cited, there⟩

theorem key_of_read {id : EventId} {key : PowerKey}
    (read : (sortTables (ids.filterMap fun id => store[id]?)).keyOf[id]? = some key) :
    ∃ event, store[id]? = some event ∧ powerKeyOf event = key := by
  rw [sortTables, add_events_key] at read
  obtain ⟨event, member, own, same⟩ := event_rows_source _ read
  exact ⟨event, own ▸ sort_event ids store keyed member, same⟩

theorem sort_greedy (distinct : ids.Nodup) :
    ∃ ordered, reverseTopologicalPowerSort (ids.length + 1) ids store = some ordered ∧
      Greedy (Present ids store) (fun id auth => InSetAuth ids store auth id) (OutranksAt store) [] ordered := by
  obtain ⟨ordered, ended, greedy⟩ := sort_ends ids store keyed distinct
  refine ⟨ordered, ended, ?_⟩
  refine greedy_congr (present_node ids store)
    (fun id auth node => sort_deps_member keyed auth ((present_node ids store id).mp node)) ?_ greedy
  intro id other _ _ ahead
  obtain ⟨key, otherKey, read, readOther, less⟩ := ahead
  obtain ⟨event, held, rfl⟩ := key_of_read keyed read
  obtain ⟨otherEvent, heldOther, rfl⟩ := key_of_read keyed readOther
  exact ⟨event, otherEvent, held, heldOther, power_key_outranks.mp less⟩

end

theorem greedy_of_perm {ids others ordered : List EventId} {store : EventStore E} (perm : others.Perm ids)
    (greedy : Greedy (Present others store) (fun id auth => InSetAuth others store auth id)
    (OutranksAt store) [] ordered) :
    Greedy (Present ids store) (fun id auth => InSetAuth ids store auth id) (OutranksAt store) [] ordered := by
  have same : ∀ id, Present others store id ↔ Present ids store id := fun id => and_congr_left fun _ => perm.mem_iff
  refine greedy_congr same (fun id auth _ => ?_) (fun _ _ _ _ ahead => ahead) greedy
  rw [InSetAuth, InSetAuth, same id, same auth]

theorem founded_iff_no_cycle (ids : List EventId) (store : EventStore E) (id : EventId) :
    Acc (Need (Present ids store) fun id auth => InSetAuth ids store auth id) id ↔ ¬ ReachesCycle ids store id := by
  have same : (Need (Present ids store) fun id auth => InSetAuth ids store auth id) = InSetAuth ids store := by
    funext auth id
    exact propext ⟨fun need => need.2, fun cites => ⟨cites.1, cites⟩⟩
  rw [same]
  exact Chase.acc_iff_no_cycle (InSetAuth ids store) ids (fun auth id cites => cites.1.1) id

theorem power_sort_exact (ids : List EventId) (store : EventStore E) (keyed : Keyed store) (distinct : ids.Nodup) :
    ∃ ordered : List EventId,
      (∀ others, others.Perm ids → ∀ fuel, ids.length < fuel → reverseTopologicalPowerSort fuel others store = some ordered) ∧ ordered.Nodup ∧
      (∀ id, id ∈ ordered ↔ Present ids store id ∧ ¬ ReachesCycle ids store id) ∧
      ∀ before id after, ordered = before ++ id :: after → (∀ auth, InSetAuth ids store auth id → auth ∈ before) ∧
          ∀ other, Present ids store other → other ∉ before → (∀ auth, InSetAuth ids store auth other → auth ∈ before) →
          other = id ∨ OutranksAt store id other := by
  obtain ⟨ordered, _, greedy⟩ := sort_greedy keyed distinct
  refine ⟨ordered, fun others perm fuel enough => ?_, (greedy_distinct greedy).1, fun id => ?_,
    fun before id after split => ?_⟩
  · obtain ⟨again, ended, greedyToo⟩ := sort_greedy keyed (perm.nodup_iff.mpr distinct)
    rw [greedy_unique outranks_asymm greedy (greedy_of_perm perm greedyToo)]
    exact sort_more _ (by rw [perm.length_eq]; omega) ended
  · rw [greedy_member (fun id auth _ cites => cites.2.1) greedy, founded_iff_no_cycle]
  · obtain ⟨⟨_, _, met⟩, first⟩ := greedy_turn greedy split
    rw [List.append_nil] at met first
    refine ⟨fun auth cites => List.mem_reverse.mp (met auth cites), fun other present waits metOther => ?_⟩
    exact first other ⟨present, fun member => waits (List.mem_reverse.mp member), fun auth cites =>
      List.mem_reverse.mpr (metOther auth cites)⟩

def tangledStore : EventStore StateEvent := storeOf
    [{ StateEvent.new "$a" createType "@x" with originServerTs := 2 },
      { StateEvent.new "$b" memberType "@x" with authEventIds := ["$a", "$z"], originServerTs := 1 },
      { StateEvent.new "$c" memberType "@x" with authEventIds := ["$a", "$d"] },
        { StateEvent.new "$d" memberType "@x" with authEventIds := ["$c"] },
      { StateEvent.new "$e" memberType "@x" with authEventIds := ["$d"], powerLevel := 100 }]

theorem tangled_sorted : reverseTopologicalPowerSort 7 ["$e", "$d", "$z", "$c", "$b", "$a"] tangledStore =
    some ["$a", "$b"] ∧
      ReachesCycle ["$e", "$d", "$z", "$c", "$b", "$a"] tangledStore "$e" := by
  have sorted : reverseTopologicalPowerSort 7 ["$e", "$d", "$z", "$c", "$b", "$a"] tangledStore = some
    ["$a", "$b"] := by decide +kernel
  obtain ⟨ordered, ended, _, members, _⟩ :=
    power_sort_exact ["$e", "$d", "$z", "$c", "$b", "$a"] tangledStore store_of_keyed (by decide)
  have same : ["$a", "$b"] = ordered := Option.some.inj (sorted.symm.trans (ended _ (List.Perm.refl _) 7 (by decide)))
  refine ⟨sorted, ?_⟩
  by_contra none
  have listed := (members "$e").mpr ⟨⟨by decide, by decide +kernel⟩, none⟩
  rw [← same] at listed
  exact absurd listed (by decide)

end GaussMatrix.StateRes

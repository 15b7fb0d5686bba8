import GaussMatrix.StateRes.Partition
import GaussMatrix.StateRes.Auth
import GaussMatrix.StateRes.PowerSort
import GaussMatrix.StateRes.Mainline
import GaussMatrix.Library.Memo

namespace GaussMatrix.StateRes

open Collections Option

abbrev CacheKey := BTreeSet EventId
abbrev ResolvedStateCache := Memo.Table CacheKey StateMap

variable {E : Type} [Event E]

def authDifference : List (BTreeSet EventId) → BTreeSet EventId
  | [] => ∅
  | first :: rest => unionAll (first :: rest) \ interAll first rest

theorem auth_difference_member (chains : List (BTreeSet EventId)) (id : EventId) :
    id ∈ authDifference chains ↔ (∃ chain ∈ chains, id ∈ chain) ∧ ∃ chain ∈ chains, id ∉ chain := by
  cases chains with
  | nil => simp [authDifference]
  | cons first rest =>
    rw [authDifference, Std.ExtTreeSet.mem_diff_iff, union_all_member, inter_all_member]
    simp only [not_forall, exists_prop]

def isControlEvent (event : E) : Bool := Event.eventType event == powerLevelsType || Event.eventType event ==
    joinRulesType || Event.eventType event == memberType

def merged (unconflicted resolved : StateMap) : StateMap := extend unconflicted resolved.toList

def fullConflict (cacheKey : CacheKey) (authChains : List (BTreeSet EventId)) : BTreeSet EventId :=
  cacheKey ∪ authDifference authChains

def storedIds (store : EventStore E) (full : BTreeSet EventId) : List EventId := full.toList.filter store.contains

def controlIds (store : EventStore E) (stored : List EventId) : List EventId :=
  stored.filter fun id => store[id]?.any isControlEvent

def otherIds (store : EventStore E) (stored : List EventId) : List EventId :=
  stored.filter fun id => !store[id]?.any isControlEvent

structure Passes where
  orderedControl : List EventId
  first : StateMap
  orderedOthers : List EventId
  last : StateMap

def resolvePasses (fuel : Nat) (stored : List EventId) (base : StateMap) (store : EventStore E) (rules : AuthRules E) :
    Option Passes :=
  (reverseTopologicalPowerSort fuel (controlIds store stored) store).bind fun orderedControl =>
    let first := iterativeAuthChecks orderedControl base store rules
    (mainlineOrdering fuel first[powerLevelsKey]? (otherIds store stored) store).map fun orderedOthers =>
      { orderedControl := orderedControl
        first := first
        orderedOthers := orderedOthers
        last := iterativeAuthChecks orderedOthers first store rules }

def resolve (fuel : Nat) (forks : List StateMap) (authChains : List (BTreeSet EventId)) (store : EventStore E)
    (rules : AuthRules E) (cache : ResolvedStateCache) : Option (StateMap × ResolvedStateCache) :=
  let parts := partition forks
  if parts.conflicted.isEmpty then some (parts.unconflicted, cache)
  else
    let cacheKey := conflictingEventIds parts.conflicted
    match cache.get cacheKey with
    | some resolved => some (merged parts.unconflicted resolved, cache)
    | none =>
      (resolvePasses fuel (storedIds store (fullConflict cacheKey authChains)) parts.unconflicted store rules).map fun passes =>
        let resolved := restrict parts.conflicted.keys passes.last
        (merged parts.unconflicted resolved, cache.insert cacheKey resolved)

theorem merged_get (unconflicted resolved : StateMap) (slot : StateKey) :
    (merged unconflicted resolved)[slot]? = resolved[slot]?.or unconflicted[slot]? :=
  extend_map unconflicted

variable {passes : Passes}

theorem passes_spec {fuel : Nat} {stored : List EventId} {base : StateMap} {store : EventStore E}
    {rules : AuthRules E} : resolvePasses fuel stored base store rules = some passes ↔
    reverseTopologicalPowerSort fuel (controlIds store stored) store = some passes.orderedControl ∧
        passes.first = iterativeAuthChecks passes.orderedControl base store rules ∧
        mainlineOrdering fuel passes.first[powerLevelsKey]? (otherIds store stored) store = some passes.orderedOthers ∧
        passes.last = iterativeAuthChecks passes.orderedOthers passes.first store rules := by
  simp only [resolvePasses, bind_eq_some_iff, map_eq_some_iff]
  constructor
  · intro ⟨orderedControl, sorted, orderedOthers, mainline, same⟩
    subst same
    exact ⟨sorted, rfl, mainline, rfl⟩
  · intro ⟨sorted, first, mainline, last⟩
    refine ⟨passes.orderedControl, sorted, passes.orderedOthers, first ▸ mainline, ?_⟩
    rw [← first, ← last]

section

variable (fuel more : Nat) (stored : List EventId) (base : StateMap) (store : EventStore E) (rules : AuthRules E)

theorem passes_more (enough : fuel ≤ more) (ended : resolvePasses fuel stored base store rules = some passes) :
    resolvePasses more stored base store rules = some passes := by
  obtain ⟨sorted, first, mainline, last⟩ := passes_spec.mp ended
  exact passes_spec.mpr
    ⟨sort_more fuel enough sorted, first, mainline_more enough mainline, last⟩

theorem passes_unique {other : Passes} (first : resolvePasses fuel stored base store rules = some passes)
    (second : resolvePasses more stored base store rules = some other) : passes = other := by
  have left := passes_more fuel (max fuel more) stored base store rules (le_max_left _ _) first
  have right := passes_more more (max fuel more) stored base store rules (le_max_right _ _) second
  rw [left] at right
  exact some.inj right

end

theorem passes_total {stored : List EventId} {base : StateMap} {store : EventStore E} {rules : AuthRules E}
    (keyed : Keyed store) (acyclic : AuthAcyclic store) (distinct : stored.Nodup) :
    ∃ fuel passes, resolvePasses fuel stored base store rules = some passes ∧
    ∀ id ∈ controlIds store stored, id ∈ store → id ∈ passes.orderedControl := by
  obtain ⟨orderedControl, sorted, all⟩ := sort_total (controlIds store stored) store keyed acyclic (distinct.filter _)
  let first := iterativeAuthChecks orderedControl base store rules
  obtain ⟨fuel, orderedOthers, mainline⟩ := mainline_total first[powerLevelsKey]? (otherIds store stored) store acyclic
  let passes : Passes := ⟨orderedControl, first, orderedOthers, iterativeAuthChecks orderedOthers first store rules⟩
  refine ⟨max ((controlIds store stored).length + 1) fuel, passes, ?_, all⟩
  exact passes_spec.mpr
    ⟨sort_more _ (le_max_left _ _) sorted, rfl, mainline_more (le_max_right _ _) mainline, rfl⟩

omit [Event E] in
theorem stored_ids_nodup {store : EventStore E} {full : BTreeSet EventId} : (storedIds store full).Nodup :=
  (set_nodup full).filter _

omit [Event E] in
theorem stored_ids_member {store : EventStore E} {full : BTreeSet EventId} {id : EventId} :
    id ∈ storedIds store full ↔ id ∈ full ∧ id ∈ store := by
  rw [storedIds, List.mem_filter, Std.ExtTreeSet.mem_toList, Std.ExtTreeMap.contains_iff_mem]

def conflictPasses (fuel : Nat) (forks : List StateMap) (authChains : List (BTreeSet EventId)) (store : EventStore E)
    (rules : AuthRules E) : Option Passes :=
  resolvePasses fuel (storedIds store (fullConflict (conflictingEventIds (partition forks).conflicted) authChains))
    (partition forks).unconflicted store rules

variable (fuel : Nat) (forks : List StateMap) (authChains : List (BTreeSet EventId)) (store : EventStore E)
  (rules : AuthRules E) (cache : ResolvedStateCache)

theorem resolve_agreed (agreed : (partition forks).conflicted = ∅) :
    resolve fuel forks authChains store rules cache = some ((partition forks).unconflicted, cache) := by
  simp [resolve, agreed]

variable {resolved : StateMap}

theorem resolve_hit (disputed : (partition forks).conflicted ≠ ∅)
    (hit : cache.get (conflictingEventIds (partition forks).conflicted) = some resolved) :
    resolve fuel forks authChains store rules cache = some (merged (partition forks).unconflicted resolved, cache) := by
  simp [resolve, disputed, hit]

theorem resolve_miss (disputed : (partition forks).conflicted ≠ ∅)
    (miss : cache.get (conflictingEventIds (partition forks).conflicted) = none) : resolve fuel forks authChains store
    rules cache = (conflictPasses fuel forks authChains store rules).map fun passes =>
        (merged (partition forks).unconflicted (restrict (partition forks).conflicted.keys passes.last),
          cache.insert (conflictingEventIds (partition forks).conflicted) (restrict (partition forks).conflicted.keys passes.last)) := by
  simp [resolve, disputed, miss, conflictPasses]

theorem resolve_more (more : Nat) {out : StateMap × ResolvedStateCache} (enough : fuel ≤ more)
    (ended : resolve fuel forks authChains store rules cache = some out) :
    resolve more forks authChains store rules cache = some out := by
  by_cases agreed : (partition forks).conflicted = ∅
  · rw [resolve_agreed _ _ _ _ _ _ agreed] at ended ⊢
    exact ended
  · cases hit : cache.get (conflictingEventIds (partition forks).conflicted) with
    | some resolved =>
      rw [resolve_hit _ _ _ _ _ _ agreed hit] at ended ⊢
      exact ended
    | none =>
      rw [resolve_miss _ _ _ _ _ _ agreed hit] at ended ⊢
      obtain ⟨passes, done, same⟩ := map_eq_some_iff.mp ended
      exact map_eq_some_iff.mpr ⟨passes, passes_more fuel more _ _ store rules enough done, same⟩

theorem resolve_total (keyed : Keyed store) (acyclic : AuthAcyclic store) :
    ∃ fuel out, resolve fuel forks authChains store rules cache = some out := by
  by_cases agreed : (partition forks).conflicted = ∅
  · exact ⟨0, _, resolve_agreed _ _ _ _ _ _ agreed⟩
  · cases hit : cache.get (conflictingEventIds (partition forks).conflicted) with
    | some resolved => exact ⟨0, _, resolve_hit _ _ _ _ _ _ agreed hit⟩
    | none =>
      obtain ⟨fuel, passes, done, _⟩ := passes_total keyed acyclic stored_ids_nodup
      have ended := resolve_miss fuel forks authChains store rules cache agreed hit
      rw [conflictPasses, done, map_some] at ended
      exact ⟨fuel, _, ended⟩

def Returns (out : StateMap) (after : ResolvedStateCache) : Prop :=
  ∃ fuel, resolve fuel forks authChains store rules cache = some (out, after)

def Resolved (resolved : StateMap) : Prop :=
  ∃ fuel passes, conflictPasses fuel forks authChains store rules = some passes ∧
    resolved = restrict (partition forks).conflicted.keys passes.last

variable {other out : StateMap} {after : ResolvedStateCache}

theorem returns_unique {last : ResolvedStateCache} (first : Returns forks authChains store rules cache out after)
    (second : Returns forks authChains store rules cache other last) : out = other ∧ after = last := by
  obtain ⟨fuel, ended⟩ := first
  obtain ⟨more, endedToo⟩ := second
  have left := resolve_more fuel forks authChains store rules cache (max fuel more) (le_max_left _ _) ended
  have right := resolve_more more forks authChains store rules cache (max fuel more) (le_max_right _ _) endedToo
  rw [left] at right
  cases right
  exact ⟨rfl, rfl⟩

theorem resolved_unique (first : Resolved forks authChains store rules resolved)
    (second : Resolved forks authChains store rules other) : resolved = other := by
  obtain ⟨fuel, passes, ended, same⟩ := first
  obtain ⟨more, last, endedToo, sameToo⟩ := second
  rw [same, sameToo, passes_unique fuel more _ _ store rules ended endedToo]

theorem returns_agreed (agreed : (partition forks).conflicted = ∅) :
    Returns forks authChains store rules cache out after ↔ out = (partition forks).unconflicted ∧ after = cache := by
  simp only [Returns, resolve_agreed _ _ _ _ _ _ agreed, some_inj, Prod.mk.injEq, exists_const]
  exact and_congr eq_comm eq_comm

theorem returns_hit (disputed : (partition forks).conflicted ≠ ∅)
    (hit : cache.get (conflictingEventIds (partition forks).conflicted) = some resolved) : Returns forks authChains
    store rules cache out after ↔ out = merged (partition forks).unconflicted resolved ∧ after = cache := by
  simp only [Returns, resolve_hit _ _ _ _ _ _ disputed hit, some_inj, Prod.mk.injEq, exists_const]
  exact and_congr eq_comm eq_comm

theorem returns_miss (disputed : (partition forks).conflicted ≠ ∅)
    (miss : cache.get (conflictingEventIds (partition forks).conflicted) = none) (out : StateMap)
    (after : ResolvedStateCache) : Returns forks authChains store rules cache out after ↔
      ∃ resolved, Resolved forks authChains store rules resolved ∧ out = merged (partition forks).unconflicted resolved ∧
        after = cache.insert (conflictingEventIds (partition forks).conflicted) resolved := by
  simp only [Returns, resolve_miss _ _ _ _ _ _ disputed miss, map_eq_some_iff, Prod.mk.injEq]
  constructor
  · intro ⟨fuel, passes, ended, result, cached⟩
    exact ⟨_, ⟨fuel, passes, ended, rfl⟩, result.symm, cached.symm⟩
  · intro ⟨resolved, ⟨fuel, passes, ended, same⟩, result, cached⟩
    subst same
    exact ⟨fuel, passes, ended, result.symm, cached.symm⟩

end GaussMatrix.StateRes

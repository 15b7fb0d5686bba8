import GaussMatrix.StateRes.Resolve

namespace GaussMatrix.StateRes

open Collections

variable {E : Type} [Event E]

structure Call where
  forks : List StateMap
  authChains : List (BTreeSet EventId)

def Call.unconflicted (call : Call) : StateMap := (partition call.forks).unconflicted
def Call.conflicted (call : Call) : ConflictedState := (partition call.forks).conflicted
def Call.cacheKey (call : Call) : CacheKey := conflictingEventIds call.conflicted
def Call.stored (call : Call) (store : EventStore E) : List EventId :=
  storedIds store (fullConflict call.cacheKey call.authChains)

def WellSlotted (store : EventStore E) (forks : List StateMap) : Prop :=
  ∀ fork ∈ forks, ∀ (slot : StateKey) id, fork[slot]? = some id → ∃ event, store[id]? = some event ∧ slotOf event = slot

def latest (served : List Call) (key : CacheKey) : Option Call :=
  served.find? fun call => !call.conflicted.isEmpty && decide (call.cacheKey = key)

def HitAgrees (store : EventStore E) (served : List Call) (cache : ResolvedStateCache) (call : Call) : Prop :=
  call.conflicted ≠ ∅ → (cache.get call.cacheKey).isSome = true →
    ∀ earlier, latest served call.cacheKey = some earlier →
    call.unconflicted = earlier.unconflicted ∧ call.stored store = earlier.stored store

inductive AgreeingRun (store : EventStore E) (rules : AuthRules E) (capacity : Nat) :
    List Call → ResolvedStateCache → Prop
  | start : AgreeingRun store rules capacity [] (.new capacity)
  | serve (served : List Call) (cache after : ResolvedStateCache) (call : Call) (out : StateMap)
      (run : AgreeingRun store rules capacity served cache) (slotted : WellSlotted store call.forks)
      (agrees : HitAgrees store served cache call) (returned : Returns call.forks call.authChains store rules cache out after) :
      AgreeingRun store rules capacity (call :: served) after

def Remembers (store : EventStore E) (rules : AuthRules E) (served : List Call) (cache : ResolvedStateCache) : Prop :=
  ∀ key resolved, cache.get key = some resolved → ∃ call, latest served key = some call ∧ WellSlotted store call.forks ∧
    Resolved call.forks call.authChains store rules resolved

variable (store : EventStore E) (rules : AuthRules E) (served : List Call) (call : Call) (cache : ResolvedStateCache)

theorem latest_same (served : List Call) (disputed : call.conflicted ≠ ∅) :
    latest (call :: served) call.cacheKey = some call := by
  simp [latest, disputed]

variable {key : CacheKey}

theorem latest_other {served : List Call} (other : call.conflicted = ∅ ∨ call.cacheKey ≠ key) :
    latest (call :: served) key = latest served key := by
  rcases other with agreed | different
  · simp [latest, agreed]
  · simp [latest, different]

theorem latest_key {call : Call} (found : latest served key = some call) : call.cacheKey = key := by
  have matched := List.find?_some found
  simp only [Bool.and_eq_true, decide_eq_true_eq] at matched
  exact matched.2

theorem conflicted_slot_iff (slotted : WellSlotted store call.forks) {slot : StateKey} :
    slot ∈ call.conflicted.keys ↔ ∃ id ∈ call.cacheKey, ∃ event, store[id]? = some event ∧ slotOf event = slot := by
  have held : ∀ (other : StateKey) ids id, call.conflicted[other]? = some ids → id ∈ ids →
    ∃ event, store[id]? = some event ∧ slotOf event = other := by
    intro other ids id read member
    obtain ⟨fork, listed, here⟩ := (((partition_conflicted call.forks other ids).mp read).1 id).mp member
    exact slotted fork listed other id here
  rw [Std.ExtTreeMap.mem_keys, mem_iff_read]
  constructor
  · intro ⟨ids, read⟩
    obtain ⟨members, first, _, _, holds, _⟩ := (partition_conflicted call.forks slot ids).mp read
    have member := (members first).mpr holds
    exact ⟨first, conflicting_event_ids_member.mpr ⟨slot, ids, read, member⟩, held slot ids first read member⟩
  · intro ⟨id, disputed, event, stored, here⟩
    obtain ⟨other, ids, read, member⟩ := conflicting_event_ids_member.mp disputed
    obtain ⟨same, storedToo, there⟩ := held other ids id read member
    rw [stored] at storedToo
    cases storedToo
    rw [← here, there]
    exact ⟨ids, read⟩

variable {resolved : StateMap}

theorem resolved_of_agreeing {earlier : Call} (slotted : WellSlotted store call.forks)
    (slottedToo : WellSlotted store earlier.forks) (key : call.cacheKey = earlier.cacheKey)
    (unconflicted : call.unconflicted = earlier.unconflicted) (stored : call.stored store = earlier.stored store)
    (before : Resolved earlier.forks earlier.authChains store rules resolved) :
    Resolved call.forks call.authChains store rules resolved := by
  obtain ⟨fuel, passes, ended, same⟩ := before
  have samePasses : conflictPasses fuel call.forks call.authChains store rules =
    conflictPasses fuel earlier.forks earlier.authChains store rules := by
    change resolvePasses fuel (call.stored store) call.unconflicted store rules = resolvePasses fuel
      (earlier.stored store) earlier.unconflicted store rules
    rw [stored, unconflicted]
  refine ⟨fuel, passes, samePasses.trans ended, same.trans (restrict_congr _ fun slot => ?_)⟩
  exact (conflicted_slot_iff store earlier slottedToo).trans (key ▸ (conflicted_slot_iff store call slotted).symm)

theorem remembered_resolved {call : Call} (remembers : Remembers store rules served cache)
    (slotted : WellSlotted store call.forks)
    (agrees : HitAgrees store served cache call) (disputed : call.conflicted ≠ ∅)
    (hit : cache.get call.cacheKey = some resolved) : Resolved call.forks call.authChains store rules resolved := by
  obtain ⟨earlier, found, slottedToo, before⟩ := remembers call.cacheKey resolved hit
  obtain ⟨unconflicted, stored⟩ := agrees disputed (by rw [hit]; rfl) earlier found
  have key := latest_key served found
  exact resolved_of_agreeing store rules call slotted slottedToo key.symm unconflicted stored before

theorem remembers_step {after : ResolvedStateCache} {call : Call} {out : StateMap}
    (remembers : Remembers store rules served cache) (slotted : WellSlotted store call.forks) (agrees :
    HitAgrees store served cache call) (returned : Returns call.forks call.authChains store rules cache out after) :
    Remembers store rules (call :: served) after := by
  by_cases agreed : call.conflicted = ∅
  · obtain ⟨_, same⟩ := (returns_agreed _ _ _ _ _ agreed).mp returned
    subst same
    intro key resolved hit
    rw [latest_other call (.inl agreed)]
    exact remembers key resolved hit
  · have here := latest_same call served agreed
    cases found : cache.get call.cacheKey with
    | some kept =>
      obtain ⟨_, same⟩ := (returns_hit _ _ _ _ _ agreed found).mp returned
      subst same
      intro key resolved hit
      by_cases own : call.cacheKey = key
      · subst own
        exact ⟨call, here, slotted, remembered_resolved store rules served _ remembers slotted agrees agreed hit⟩
      · rw [latest_other call (.inr own)]
        exact remembers key resolved hit
    | none =>
      obtain ⟨fresh, resolves, _, same⟩ := (returns_miss _ _ _ _ _ agreed found out after).mp returned
      subst same
      intro key resolved hit
      rcases Memo.get_insert hit with ⟨own, value⟩ | ⟨other, old⟩
      · subst own value
        exact ⟨call, here, slotted, resolves⟩
      · rw [latest_other call (.inr other.symm)]
        exact remembers key resolved old

theorem agreeing_run_remembers {capacity : Nat} {served : List Call} {cache : ResolvedStateCache}
    (run : AgreeingRun store rules capacity served cache) : Remembers store rules served cache := by
  induction run with
  | start =>
    intro key resolved hit
    cases hit
  | serve served cache after call out _ slotted agrees returned ih =>
    exact remembers_step store rules served cache ih slotted agrees returned

theorem agreeing_call_transparent (store : EventStore E) (rules : AuthRules E) (capacity : Nat) (served : List Call)
    (cache : ResolvedStateCache) (run : AgreeingRun store rules capacity served cache) (call : Call)
    (slotted : WellSlotted store call.forks) (agrees : HitAgrees store served cache call) (out : StateMap) :
    (∃ after, Returns call.forks call.authChains store rules cache out after) ↔
    ∃ after, Returns call.forks call.authChains store rules (.new capacity) out after := by
  have remembers := agreeing_run_remembers store rules run
  by_cases agreed : call.conflicted = ∅
  · simp only [returns_agreed _ _ _ _ _ agreed, exists_and_left, exists_eq, and_true]
  · have miss := returns_miss call.forks call.authChains store rules (.new capacity) agreed (Memo.get_new capacity call.cacheKey) out
    simp only [miss]
    cases found : cache.get call.cacheKey with
    | none =>
      simp only [returns_miss _ _ _ _ cache agreed found]
      exact ⟨fun ⟨_, resolved, resolves, result, _⟩ => ⟨_, resolved, resolves, result, rfl⟩,
        fun ⟨_, resolved, resolves, result, _⟩ => ⟨_, resolved, resolves, result, rfl⟩⟩
    | some kept =>
      have resolves := remembered_resolved store rules served cache remembers slotted agrees agreed found
      simp only [returns_hit _ _ _ _ cache agreed found]
      constructor
      · intro ⟨_, result, _⟩
        exact ⟨_, kept, resolves, result, rfl⟩
      · intro ⟨_, resolved, resolvesToo, result, _⟩
        rw [resolved_unique _ _ _ _ resolvesToo resolves] at result
        exact ⟨cache, result, rfl⟩

-- Two calls dispute the same two names. The room's undisputed power levels let
-- only alice set the name in the first call and only bob in the second.
def soleAdmin (id user : String) : StateEvent := { StateEvent.new id powerLevelsType user with
    powerLevels := some { (default : PowerLevels) with users := extend ∅ [(user, 100)], stateDefault := 50 } }

def nameStore : EventStore StateEvent :=
  storeOf [StateEvent.new "$c" createType "@alice", soleAdmin "$pa" "@alice", soleAdmin "$pb" "@bob",
    StateEvent.new "$na" "m.room.name" "@alice", StateEvent.new "$nb" "m.room.name" "@bob"]

def nameKey : StateKey := ("m.room.name", "")

def nameFork (levels name : EventId) : StateMap :=
  extend ∅ [(createKey, "$c"), (powerLevelsKey, levels), (nameKey, name)]

def nameCall (levels : EventId) : Call := { forks := [nameFork levels "$na", nameFork levels "$nb"], authChains := [] }

theorem name_call_slotted (levels : EventId) (event : StateEvent) (read : nameStore[levels]? = some event)
    (slot : slotOf event = powerLevelsKey) : WellSlotted nameStore (nameCall levels).forks := by
  have rows : ∀ name held, nameStore[name]? = some held → slotOf held = nameKey → ∀ (slot : StateKey) (id : EventId),
      (nameFork levels name)[slot]? = some id → ∃ event, nameStore[id]? = some event ∧ slotOf event = slot := by
    intro name held nameRead nameSlot slot id found
    rcases extend_source found with row | empty
    · simp only [List.mem_cons, Prod.mk.injEq, List.not_mem_nil, or_false] at row
      rcases row with ⟨rfl, rfl⟩ | ⟨rfl, rfl⟩ | ⟨rfl, rfl⟩
      · exact ⟨StateEvent.new "$c" createType "@alice", by decide, rfl⟩
      · exact ⟨event, read, slot⟩
      · exact ⟨held, nameRead, nameSlot⟩
    · simp at empty
  intro fork listed
  rcases List.mem_cons.mp listed with rfl | last
  · exact rows "$na" (StateEvent.new "$na" "m.room.name" "@alice") (by decide) rfl
  · rw [List.mem_singleton.mp last]
    exact rows "$nb" (StateEvent.new "$nb" "m.room.name" "@bob") (by decide) rfl

theorem stale_name_served : (WellSlotted nameStore (nameCall "$pa").forks ∧
    WellSlotted nameStore (nameCall "$pb").forks) ∧ ∃ out after stale last fresh own,
        Returns (nameCall "$pa").forks [] nameStore composedRules (.new 4) out after ∧
        Returns (nameCall "$pb").forks [] nameStore composedRules after stale last ∧
        Returns (nameCall "$pb").forks [] nameStore composedRules (.new 4) fresh own ∧
        stale[nameKey]? = some "$na" ∧ fresh[nameKey]? = some "$nb" := by
  have shared : ((resolve 3 (nameCall "$pa").forks [] nameStore composedRules (.new 4)).bind fun first =>
      (resolve 3 (nameCall "$pb").forks [] nameStore composedRules first.2).map fun second => second.1[nameKey]?) = some
        (some "$na") := by decide +kernel
  have alone : (resolve 3 (nameCall "$pb").forks [] nameStore composedRules (.new 4)).map (fun own => own.1[nameKey]?) =
    some (some "$nb") := by decide +kernel
  obtain ⟨⟨out, after⟩, first, rest⟩ := Option.bind_eq_some_iff.mp shared
  obtain ⟨⟨stale, last⟩, second, staleName⟩ := Option.map_eq_some_iff.mp rest
  obtain ⟨⟨fresh, own⟩, third, freshName⟩ := Option.map_eq_some_iff.mp alone
  exact ⟨⟨name_call_slotted "$pa" (soleAdmin "$pa" "@alice") (by decide) rfl,
    name_call_slotted "$pb" (soleAdmin "$pb" "@bob") (by decide) rfl⟩,
    out, after, stale, last, fresh, own, ⟨3, first⟩, ⟨3, second⟩, ⟨3, third⟩, staleName, freshName⟩

theorem repeated_name_call_transparent :
    ∃ out after, Returns (nameCall "$pa").forks [] nameStore composedRules (.new 4) out after ∧
      (after.get (nameCall "$pa").cacheKey).isSome = true ∧
      ∀ again, (∃ last, Returns (nameCall "$pa").forks [] nameStore composedRules after again last) ↔
        ∃ last, Returns (nameCall "$pa").forks [] nameStore composedRules (.new 4) again last := by
  have served : (resolve 3 (nameCall "$pa").forks [] nameStore composedRules (.new 4)).map
      (fun first => (first.2.get (nameCall "$pa").cacheKey).isSome) = some true := by decide +kernel
  obtain ⟨⟨out, after⟩, first, held⟩ := Option.map_eq_some_iff.mp served
  have slotted := name_call_slotted "$pa" (soleAdmin "$pa" "@alice") (by decide) rfl
  have disputed : (nameCall "$pa").conflicted ≠ ∅ := by decide +kernel
  have opened : HitAgrees nameStore [] (.new 4) (nameCall "$pa") := fun _ _ earlier found => by cases found
  have run := AgreeingRun.serve [] (.new 4) after (nameCall "$pa") out (AgreeingRun.start) slotted opened ⟨3, first⟩
  have agrees : HitAgrees nameStore [nameCall "$pa"] after (nameCall "$pa") := by
    intro _ _ earlier found
    rw [latest_same (nameCall "$pa") [] disputed] at found
    cases found
    exact ⟨rfl, rfl⟩
  exact ⟨out, after, ⟨3, first⟩, held, agreeing_call_transparent nameStore composedRules 4 [nameCall "$pa"] after run
    (nameCall "$pa") slotted agrees⟩

end GaussMatrix.StateRes

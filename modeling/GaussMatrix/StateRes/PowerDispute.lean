import GaussMatrix.StateRes.Composed
import GaussMatrix.StateRes.Safety

namespace GaussMatrix.StateRes

open Collections List Option Std.ExtTreeMap

variable {E : Type} [Event E]

structure NoneAboveZero (levels : PowerLevels) : Prop where
  users : ∀ user, levels.forUser user ≤ 0
  messages : ∀ eventType, levels.requiredFor eventType false ≤ 0
  usersDefault : levels.usersDefault ≤ 0
  eventsDefault : levels.eventsDefault ≤ 0
  stateDefault : levels.stateDefault ≤ 0
  invite : levels.invite ≤ 0
  kick : levels.kick ≤ 0
  ban : levels.ban ≤ 0

variable (reach : Int) (store : EventStore E) (state : StateMap) (id : EventId) (event : E)

theorem within_reach_low {old new : Int} (reached : WithinReach reach old new) (low : reach ≤ 0)
    (oldLow : old ≤ 0) : new ≤ 0 := by
  by_cases same : old = new
  · omega
  · have bound := (reached same).2
    omega

theorem reached_none_above_zero {old new : PowerLevels} (reached : Reached reach old new) (low : reach ≤ 0)
    (oldLow : NoneAboveZero old) : NoneAboveZero new where
  users := fun user => within_reach_low reach (reached.users user) low (oldLow.users user)
  messages := fun eventType => within_reach_low reach (reached.messages eventType) low (oldLow.messages eventType)
  usersDefault := within_reach_low reach reached.usersDefault low oldLow.usersDefault
  eventsDefault := within_reach_low reach reached.eventsDefault low oldLow.eventsDefault
  stateDefault := within_reach_low reach reached.stateDefault low oldLow.stateDefault
  invite := within_reach_low reach reached.invite low oldLow.invite
  kick := within_reach_low reach reached.kick low oldLow.kick
  ban := within_reach_low reach reached.ban low oldLow.ban

theorem default_for_user {user : String} : (default : PowerLevels).forUser user = 0 := by
  simp [PowerLevels.forUser, default]

theorem default_required_for {eventType : String} {isState : Bool} :
    (default : PowerLevels).requiredFor eventType isState = 0 := by
  cases isState <;> simp [PowerLevels.requiredFor, default]

theorem default_none_above_zero : NoneAboveZero default where
  users := fun _ => default_for_user.le
  messages := fun _ => default_required_for.le
  usersDefault := le_refl 0
  eventsDefault := le_refl 0
  stateDefault := le_refl 0
  invite := le_refl 0
  kick := le_refl 0
  ban := le_refl 0

theorem default_reaches {new : PowerLevels} (low : NoneAboveZero new) : Reached 0 default new where
  users := fun user _ => ⟨default_for_user.le, low.users user⟩
  messages := fun eventType _ => ⟨default_required_for.le, low.messages eventType⟩
  usersDefault := fun _ => ⟨le_refl 0, low.usersDefault⟩
  eventsDefault := fun _ => ⟨le_refl 0, low.eventsDefault⟩
  stateDefault := fun _ => ⟨le_refl 0, low.stateDefault⟩
  invite := fun _ => ⟨le_refl 0, low.invite⟩
  kick := fun _ => ⟨le_refl 0, low.kick⟩
  ban := fun _ => ⟨le_refl 0, low.ban⟩

def LowLevels (store : EventStore E) (id : EventId) : Prop :=
  ∃ event levels, store[id]? = some event ∧ Event.powerLevels event = some levels ∧ NoneAboveZero levels

def HoldsLow (store : EventStore E) (state : StateMap) : Prop :=
  ∀ id, state[powerLevelsKey]? = some id → LowLevels store id

theorem holds_low_current (holds : HoldsLow store state) : NoneAboveZero (currentPowerLevels state store) := by
  cases held : state[powerLevelsKey]? with
  | none =>
    rw [currentPowerLevels, held]
    exact default_none_above_zero
  | some id =>
    obtain ⟨event, levels, read, content, low⟩ := holds id held
    rw [currentPowerLevels, held, bind_some, read, bind_some, content]
    exact low

theorem authorised_levels_low (read : store[id]? = some event) (authorised : composedRules event state store = true)
    (slot : slotOf event = powerLevelsKey) (holds : HoldsLow store state) : LowLevels store id := by
  have eventType : Event.eventType event = powerLevelsType := congrArg Prod.fst slot
  have mutation := all_of_member powerLevelMutationRules (by simp) authorised
  obtain ⟨new, content, reached⟩ := (mutation_rules_iff event state store eventType).mp mutation
  have low := holds_low_current store state holds
  exact ⟨event, new, read, content, reached_none_above_zero _ reached (low.users _) low⟩

theorem holds_low_step (read : store[id]? = some event) (authorised : composedRules event state store = true)
    (holds : HoldsLow store state) : HoldsLow store (state.insert (slotOf event) id) := by
  intro held found
  by_cases slot : slotOf event = powerLevelsKey
  · rw [slot, getElem?_insert_self] at found
    cases found
    exact authorised_levels_low store state id event read authorised slot holds
  · rw [insert_elsewhere (Ne.symm slot)] at found
    exact holds held found

theorem holds_low_run {events : List EventId} {base : StateMap} (holds : HoldsLow store base) :
    HoldsLow store (iterativeAuthChecks events base store composedRules) := by
  apply auth_checks_invariant (HoldsLow store) holds
  intro state id event authorised holdsNow
  have read := (checked_listed authorised.1).2
  exact holds_low_step store state id event read authorised.2 holdsNow

variable {fuel : Nat} {passes : Passes}

theorem passes_hold_low {stored : List EventId} {base : StateMap} {store : EventStore E}
    (ended : resolvePasses fuel stored base store composedRules = some passes) (empty : base[powerLevelsKey]? = none) :
    HoldsLow store passes.last := by
  obtain ⟨_, first, _, last⟩ := passes_spec.mp ended
  have opening : HoldsLow store base := fun id found => by rw [empty] at found; cases found
  rw [last]
  apply holds_low_run
  rw [first]
  exact holds_low_run store opening

def AuthorisedByOwnLevels (store : EventStore E) (base : StateMap) (id : EventId) : Prop :=
  ∃ event parent, store[id]? = some event ∧ slotOf event = powerLevelsKey ∧ powerLevelsInAuth id store = some parent ∧
    composedRules event (base.insert powerLevelsKey parent) store = true

theorem authorised_created (base : StateMap) (id : EventId) (authorised : AuthorisedByOwnLevels store base id) :
    ∃ create, base[createKey]? = some create := by
  obtain ⟨event, parent, _, slot, _, pass⟩ := authorised
  have eventType : Event.eventType event = powerLevelsType := congrArg Prod.fst slot
  have created := all_of_member createRules (by simp) pass
  rw [createRules, if_neg (by rw [eventType]; decide), contains_iff_some, insert_elsewhere (by decide)] at created
  exact created

theorem low_levels_authorised {levels : PowerLevels} (slot : slotOf event = powerLevelsKey)
    (content : Event.powerLevels event = some levels) (low : NoneAboveZero levels)
    (created : ∃ create, state[createKey]? = some create) (empty : state[powerLevelsKey]? = none) :
    composedRules event state store = true := by
  have eventType : Event.eventType event = powerLevelsType := congrArg Prod.fst slot
  have current : currentPowerLevels state store = default := by
    rw [currentPowerLevels, empty]
    rfl
  rw [composed_rules_not_member (by rw [eventType]; decide), level_gates_iff (by rw [eventType]; decide)]
  constructor
  · exact contains_iff_mem.mp ((contains_iff_some state createKey).mpr created)
  · rw [current, default_for_user, default_required_for]
  · intro _
    rw [current, default_for_user]
    exact ⟨levels, content, default_reaches low⟩

section

variable (forks : List StateMap) (authChains : List (BTreeSet EventId)) (store : EventStore E) (capacity : Nat)

def AgreeElsewhere : Prop := ∀ fork ∈ forks, ∀ other ∈ forks, ∀ slot : StateKey, slot ≠ powerLevelsKey →
    fork[slot]? = other[slot]?

def OthersRaise : Prop := ∀ id ∈ authDifference authChains,
    (∃ event, store[id]? = some event ∧ slotOf event = powerLevelsKey) →
    LowLevels store id → Holds forks powerLevelsKey id

theorem conflict_at_levels (agree : AgreeElsewhere forks) {slot : StateKey}
    (disputed : slot ∈ (partition forks).conflicted.keys) : slot = powerLevelsKey := by
  obtain ⟨a, b, different, ⟨fork, listed, held⟩, ⟨other, listedToo, heldToo⟩⟩ :=
    (conflicted_key_iff forks slot).mp disputed
  by_contra elsewhere
  rw [agree fork listed other listedToo slot elsewhere, heldToo] at held
  exact different (Option.some.inj held).symm

theorem conflicting_candidate (agree : AgreeElsewhere forks) {id : EventId}
    (member : id ∈ conflictingEventIds (partition forks).conflicted) : Holds forks powerLevelsKey id := by
  obtain ⟨slot, ids, read, inside⟩ := conflicting_event_ids_member.mp member
  have levels := conflict_at_levels forks agree (mem_keys.mpr (mem_iff_read.mpr ⟨ids, read⟩))
  rw [← levels]
  exact (((partition_conflicted forks slot ids).mp read).1 id).mp inside

theorem passes_candidate (agree : AgreeElsewhere forks) (keyed : Keyed store)
    (others : OthersRaise forks authChains store)
    (ended : conflictPasses fuel forks authChains store composedRules = some passes) {id : EventId}
    (held : passes.last[powerLevelsKey]? = some id) (empty : (partition forks).unconflicted[powerLevelsKey]? = none) :
    Holds forks powerLevelsKey id := by
  have low := passes_hold_low ended empty id held
  rcases passes_slot ended with kept | ⟨found, read, authorised⟩
  · rw [kept, empty] at held
    cases held
  · rw [read] at held
    cases held
    have full : id ∈ fullConflict (conflictingEventIds (partition forks).conflicted) authChains := by
      rcases passes_stored ended authorised with member | stored
      · exact member
      · exact Std.ExtTreeSet.mem_toList.mp (stored_under_keyed keyed stored)
    rcases Std.ExtTreeSet.mem_union_iff.mp full with disputed | different
    · exact conflicting_candidate forks agree disputed
    · obtain ⟨event, _, stored, slot, _⟩ := authorised
      exact others id different ⟨event, stored, slot⟩ low

theorem low_candidate_kept (keyed : Keyed store) (acyclic : AuthAcyclic store)
    (disputed : powerLevelsKey ∈ (partition forks).conflicted.keys)
    (authorised : ∀ id, Holds forks powerLevelsKey id → AuthorisedByOwnLevels store (partition forks).unconflicted id)
    {candidate : EventId} (holds : Holds forks powerLevelsKey candidate) (low : LowLevels store candidate) :
    ∃ fuel passes id, conflictPasses fuel forks authChains store composedRules = some passes ∧
    passes.last[powerLevelsKey]? = some id := by
  obtain ⟨fuel, passes, ended, all⟩ := passes_total keyed acyclic stored_ids_nodup
  obtain ⟨event, parent, read, slot, cited, pass⟩ := authorised candidate holds
  obtain ⟨same, levels, readToo, content, none⟩ := low
  rw [read] at readToo
  cases readToo
  have stored : candidate ∈ store := contains_iff_mem.mp ((contains_iff_some store candidate).mpr ⟨event, read⟩)
  have conflicting : candidate ∈ conflictingEventIds (partition forks).conflicted := by
    obtain ⟨ids, found⟩ := isSome_iff_exists.mp (mem_iff_isSome_getElem?.mp (mem_keys.mp disputed))
    have member := (((partition_conflicted forks powerLevelsKey ids).mp found).1 candidate).mpr holds
    exact conflicting_event_ids_member.mpr ⟨powerLevelsKey, ids, found, member⟩
  have control : candidate ∈ controlIds store
    (storedIds store (fullConflict (conflictingEventIds (partition forks).conflicted) authChains)) := by
    have eventType : Event.eventType event = powerLevelsType := congrArg Prod.fst slot
    refine mem_filter.mpr ⟨stored_ids_member.mpr ⟨?_, stored⟩, ?_⟩
    · exact Std.ExtTreeSet.mem_union_iff.mpr (.inl conflicting)
    · simp [read, isControlEvent, eventType]
  obtain ⟨_, first, _, last⟩ := passes_spec.mp ended
  have filled := auth_checks_fill store composedRules passes.orderedControl (partition forks).unconflicted
    (all candidate control stored) read (fun state checked empty => by
      obtain ⟨before, _, _, reached, _⟩ := checked
      have created := auth_checks_filled store composedRules before _ createKey
        (authorised_created store _ candidate ⟨event, parent, read, slot, cited, pass⟩)
      rw [← reached] at created
      exact low_levels_authorised store state event slot content none created (slot ▸ empty))
  rw [slot, ← first] at filled
  have kept := auth_checks_filled store composedRules passes.orderedOthers passes.first powerLevelsKey filled
  rw [← last] at kept
  obtain ⟨id, held⟩ := kept
  exact ⟨fuel, passes, id, ended, held⟩

def LevelsKept : Prop := ∃ out after candidate, Returns forks authChains store composedRules (.new capacity) out after ∧
    Holds forks powerLevelsKey candidate ∧ out[powerLevelsKey]? = some candidate

theorem levels_kept_low (kept : LevelsKept forks authChains store capacity) :
    (∃ only, HoldsOnly forks powerLevelsKey only) ∨ ∃ low, Holds forks powerLevelsKey low ∧ LowLevels store low := by
  obtain ⟨out, after, candidate, returned, holds, held⟩ := kept
  by_cases disputed : powerLevelsKey ∈ (partition forks).conflicted.keys
  · rcases returns_empty_cache returned powerLevelsKey with
      ⟨agreed, _⟩ | ⟨_, fuel, passes, ended, same⟩
    · exact absurd disputed agreed
    · have empty := conflicted_key_unconflicted disputed
      rw [same] at held
      exact .inr ⟨candidate, holds, passes_hold_low ended empty candidate held⟩
  · exact .inl ⟨candidate, holds_only_of_undisputed forks powerLevelsKey holds disputed⟩

theorem undisputed_levels_kept (agree : AgreeElsewhere forks) {only : EventId}
    (holdsOnly : HoldsOnly forks powerLevelsKey only) : LevelsKept forks authChains store capacity := by
  have held := (partition_unconflicted forks powerLevelsKey only).mpr holdsOnly
  have agreed : (partition forks).conflicted = ∅ := by
    refine ext_getElem? fun slot => ?_
    rw [getElem?_empty]
    refine Option.eq_none_iff_forall_ne_some.mpr fun ids read => ?_
    have disputed := mem_keys.mpr (mem_iff_read.mpr ⟨ids, read⟩)
    rw [conflict_at_levels forks agree disputed] at disputed
    rw [conflicted_key_unconflicted disputed] at held
    cases held
  exact ⟨_, _, only, ⟨0, resolve_agreed _ _ _ _ _ _ agreed⟩, (holdsOnly only).mpr rfl, held⟩

theorem low_levels_kept (agree : AgreeElsewhere forks)
    (authorised : ∀ id, Holds forks powerLevelsKey id → AuthorisedByOwnLevels store (partition forks).unconflicted id)
    (keyed : Keyed store) (acyclic : AuthAcyclic store) (others : OthersRaise forks authChains store) {low : EventId}
    (holds : Holds forks powerLevelsKey low)
    (lowLevels : LowLevels store low) : LevelsKept forks authChains store capacity := by
  by_cases disputed : powerLevelsKey ∈ (partition forks).conflicted.keys
  · obtain ⟨fuel, ⟨out, after⟩, ended⟩ := resolve_total forks authChains store composedRules (.new capacity) keyed acyclic
    have empty := conflicted_key_unconflicted disputed
    obtain ⟨first, passes, id, done, held⟩ := low_candidate_kept forks authChains store keyed acyclic disputed authorised holds lowLevels
    rcases returns_empty_cache ⟨fuel, ended⟩ powerLevelsKey with ⟨agreed, _⟩ | ⟨_, second, last, doneToo, same⟩
    · exact absurd disputed agreed
    · rw [← passes_unique first second _ _ store composedRules done doneToo, held] at same
      exact ⟨out, after, id, ⟨fuel, ended⟩, passes_candidate forks authChains store agree keyed others done held empty, same⟩
  · exact undisputed_levels_kept forks authChains store capacity agree (holds_only_of_undisputed forks powerLevelsKey holds disputed)

theorem disputed_levels_kept (agree : AgreeElsewhere forks)
    (authorised : ∀ id, Holds forks powerLevelsKey id → AuthorisedByOwnLevels store (partition forks).unconflicted id) :
    (LevelsKept forks authChains store capacity → (∃ only, HoldsOnly forks powerLevelsKey only) ∨
    ∃ low, Holds forks powerLevelsKey low ∧ LowLevels store low) ∧
    ((∃ only, HoldsOnly forks powerLevelsKey only) → LevelsKept forks authChains store capacity) ∧
    (Keyed store → AuthAcyclic store → OthersRaise forks authChains store →
    (∃ low, Holds forks powerLevelsKey low ∧ LowLevels store low) →
      LevelsKept forks authChains store capacity) := by
  refine ⟨levels_kept_low forks authChains store capacity, ?_, ?_⟩
  · rintro ⟨only, holdsOnly⟩
    exact undisputed_levels_kept forks authChains store capacity agree holdsOnly
  · rintro keyed acyclic others ⟨low, holds, lowLevels⟩
    exact low_levels_kept forks authChains store capacity agree authorised keyed acyclic others holds lowLevels

variable (base : StateMap) (candidates : List EventId)

def candidateForks : List StateMap := candidates.map fun id => base.insert powerLevelsKey id

theorem candidate_forks_agree : AgreeElsewhere (candidateForks base candidates) := by
  intro fork listed other listedToo slot different
  obtain ⟨first, _, rfl⟩ := mem_map.mp listed
  obtain ⟨second, _, rfl⟩ := mem_map.mp listedToo
  rw [insert_elsewhere different, insert_elsewhere different]

theorem candidate_forks_hold {id : EventId} :
    Holds (candidateForks base candidates) powerLevelsKey id ↔ id ∈ candidates := by
  simp [Holds, candidateForks]

end

theorem candidate_forks_unconflicted {base : StateMap} {first second : EventId} (different : first ≠ second)
    (absent : base[powerLevelsKey]? = none) :
    (partition (candidateForks base [first, second])).unconflicted = base := by
  refine ext_getElem? fun slot => Option.ext fun id => ?_
  rw [partition_unconflicted]
  by_cases disputed : slot = powerLevelsKey
  · subst disputed
    rw [absent]
    refine iff_of_false (fun only => different ?_) (by simp)
    have one := (only first).mp ((candidate_forks_hold base [first, second]).mpr (by simp))
    have two := (only second).mp ((candidate_forks_hold base [first, second]).mpr (by simp))
    exact one.trans two.symm
  · have elsewhere : ∀ other, Holds (candidateForks base [first, second]) slot other ↔ base[slot]? = some other := by
      intro other
      simp [Holds, candidateForks, insert_elsewhere disputed]
    simp only [elsewhere]
    refine ⟨fun only => (only id).mpr rfl, fun held other => ?_⟩
    rw [held, Option.some.injEq, eq_comm]

def adminLevels (listed : List (String × Int)) : PowerLevels :=
  { (default : PowerLevels) with
    users := extend ∅ ([("@creator", 100), ("@mod", 50)] ++ listed), stateDefault := 50, kick := 50, ban := 50 }

def levelsEvent (id sender : String) (levels : PowerLevels) (auth : List EventId) : StateEvent :=
  { StateEvent.new id powerLevelsType sender with powerLevels := some levels, authEventIds := auth }

def disputeStore : EventStore StateEvent :=
  storeOf [StateEvent.new "$c" createType "@creator", memberEvent "$cj" "@creator" "@creator" "join" ["$c"],
    levelsEvent "$p" "@creator" (adminLevels []) ["$c", "$cj"], memberEvent "$mj" "@mod" "@mod" "join" ["$c", "$p"],
    levelsEvent "$p1" "@creator" (adminLevels [("@dan", 25)]) ["$c", "$cj", "$p"],
    levelsEvent "$p2" "@mod" (adminLevels [("@erin", 10)]) ["$c", "$mj", "$p"],
    levelsEvent "$q" "@creator" default ["$c", "$cj", "$p"]]

def disputeBase : StateMap := extend ∅ [(createKey, "$c"), (memberKey "@creator", "$cj"), (memberKey "@mod", "$mj")]

def disputeChains : List (BTreeSet EventId) :=
  [Std.ExtTreeSet.ofList ["$c", "$cj", "$p"], Std.ExtTreeSet.ofList ["$c", "$cj", "$p", "$mj"]]

theorem dispute_store_acyclic : AuthAcyclic disputeStore :=
  acyclic_of_order disputeStore ["$c", "$cj", "$p", "$mj", "$p1", "$p2", "$q"] (by decide +kernel)

theorem creator_change_authorised : AuthorisedByOwnLevels disputeStore disputeBase "$p1" :=
  ⟨levelsEvent "$p1" "@creator" (adminLevels [("@dan", 25)]) ["$c", "$cj", "$p"],
    "$p", by decide, rfl, by decide, by decide +kernel⟩

theorem mod_change_authorised : AuthorisedByOwnLevels disputeStore disputeBase "$p2" :=
  ⟨levelsEvent "$p2" "@mod" (adminLevels [("@erin", 10)]) ["$c", "$mj", "$p"],
    "$p", by decide, rfl, by decide, by decide +kernel⟩

theorem clearing_authorised : AuthorisedByOwnLevels disputeStore disputeBase "$q" :=
  ⟨levelsEvent "$q" "@creator" default ["$c", "$cj", "$p"], "$p", by decide, rfl, by decide, by decide +kernel⟩

theorem candidates_authorised {second : EventId} (different : "$p1" ≠ second)
    (authorised : AuthorisedByOwnLevels disputeStore disputeBase second) (id : EventId)
    (holds : Holds (candidateForks disputeBase ["$p1", second]) powerLevelsKey id) :
    AuthorisedByOwnLevels disputeStore (partition (candidateForks disputeBase ["$p1", second])).unconflicted id := by
  rw [candidate_forks_unconflicted different (by decide)]
  rcases mem_cons.mp ((candidate_forks_hold _ _).mp holds) with rfl | last
  · exact creator_change_authorised
  · rw [mem_singleton.mp last]
    exact authorised

theorem disputed_levels_lost : AgreeElsewhere (candidateForks disputeBase ["$p1", "$p2"]) ∧
    (∀ id, Holds (candidateForks disputeBase ["$p1", "$p2"]) powerLevelsKey id →
        AuthorisedByOwnLevels disputeStore (partition (candidateForks disputeBase ["$p1", "$p2"])).unconflicted id) ∧
      ∃ out after, Returns (candidateForks disputeBase ["$p1", "$p2"]) disputeChains disputeStore composedRules
      (.new 1) out after ∧ out[powerLevelsKey]? = none := by
  refine ⟨candidate_forks_agree _ _, candidates_authorised (by decide) mod_change_authorised, ?_⟩
  have ended :
    (resolve 4 (candidateForks disputeBase ["$p1", "$p2"]) disputeChains disputeStore composedRules (.new 1)).map
      (fun done => done.1[powerLevelsKey]?) = some none := by decide +kernel
  obtain ⟨⟨out, after⟩, returned, lost⟩ := map_eq_some_iff.mp ended
  exact ⟨out, after, ⟨4, returned⟩, lost⟩

theorem cleared_levels_kept : LevelsKept (candidateForks disputeBase ["$p1", "$q"]) disputeChains disputeStore 1 := by
  have authorised := candidates_authorised (by decide : "$p1" ≠ "$q") clearing_authorised
  have others : OthersRaise (candidateForks disputeBase ["$p1", "$q"]) disputeChains disputeStore := by
    intro id member stored
    have difference : authDifference disputeChains = Std.ExtTreeSet.ofList ["$mj"] := by decide +kernel
    rw [difference, Std.ExtTreeSet.mem_ofList, contains_eq_mem, decide_eq_true_eq, mem_singleton] at member
    obtain ⟨event, read, slot⟩ := stored
    have joined : disputeStore["$mj"]? = some (memberEvent "$mj" "@mod" "@mod" "join" ["$c", "$p"]) := by decide
    rw [member, joined] at read
    cases read
    exact absurd slot (by decide)
  have low : LowLevels disputeStore "$q" :=
    ⟨levelsEvent "$q" "@creator" default ["$c", "$cj", "$p"], default, by decide, rfl, default_none_above_zero⟩
  exact (disputed_levels_kept _ disputeChains disputeStore 1 (candidate_forks_agree _ _) authorised).2.2 store_of_keyed
    dispute_store_acyclic others ⟨"$q", (candidate_forks_hold _ _).mpr (by simp), low⟩

def NoneAbove (top : Int) (state : StateMap) : Prop := ∀ user, (currentPowerLevels state store).forUser user ≤ top

variable {components : List (AuthRules E)} {top : Int}

theorem auth_checks_none_above {events : List EventId} {base : StateMap}
    (included : powerLevelMutationRules ∈ components) (low : NoneAbove store top base) :
    NoneAbove store top (iterativeAuthChecks events base store (allOf components)) :=
  auth_checks_invariant (NoneAbove store top) low fun _ _ _ authorised =>
    mutation_keeps_top (checked_listed authorised.1).2 (all_of_member _ included authorised.2)

theorem resolve_none_above {out : StateMap} {after : ResolvedStateCache}
    (included : powerLevelMutationRules ∈ components)
    (returned : Returns forks authChains store (allOf components) (.new capacity) out after)
    (low : NoneAbove store top (partition forks).unconflicted) : NoneAbove store top out := by
  intro user
  rcases returns_empty_cache returned powerLevelsKey with ⟨_, same⟩ | ⟨_, fuel, passes, ended, same⟩
  · rw [currentPowerLevels, same]
    exact low user
  · obtain ⟨_, first, _, last⟩ := passes_spec.mp ended
    rw [currentPowerLevels, same, last, first]
    exact auth_checks_none_above store included (auth_checks_none_above store included low) user

-- With the levels disputed nobody is above 0, whatever the candidates say.
theorem disputed_levels_stay_low : ∃ out after,
    Returns (candidateForks disputeBase ["$p1", "$q"]) disputeChains disputeStore composedRules (.new 1) out after ∧
    NoneAbove disputeStore 0 out := by
  obtain ⟨fuel, ⟨out, after⟩, ended⟩ := resolve_total _ _ disputeStore _ _ store_of_keyed dispute_store_acyclic
  refine ⟨out, after, ⟨fuel, ended⟩, resolve_none_above _ (by simp) ⟨fuel, ended⟩ fun user => ?_⟩
  rw [candidate_forks_unconflicted (by decide) rfl]
  exact default_for_user.le

end GaussMatrix.StateRes

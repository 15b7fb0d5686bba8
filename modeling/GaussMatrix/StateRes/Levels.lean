import GaussMatrix.StateRes.Auth

namespace GaussMatrix.StateRes

open Collections List Option Std.ExtTreeMap

variable {E : Type} [Event E]

def WithinReach (reach old new : Int) : Prop := old ≠ new → old ≤ reach ∧ new ≤ reach

theorem filter_within_reach (reach : Int) (changes : List (Int × Int)) :
    (∀ change ∈ changes.filter (fun change => change.1 != change.2), change.1 ≤ reach ∧ change.2 ≤ reach) ↔
    ∀ change ∈ changes, WithinReach reach change.1 change.2 := by
  simp only [mem_filter, bne_iff_ne, WithinReach, and_imp]

theorem entry_changes_within_reach (reach : Int) (old new : BTreeMap String Int) (oldDefault newDefault : Int) :
    (∀ change ∈ entryChanges old new oldDefault newDefault, change.1 ≤ reach ∧ change.2 ≤ reach) ↔
      ∀ key, key ∈ old ∨ key ∈ new → WithinReach reach (old[key]?.getD oldDefault) (new[key]?.getD newDefault) := by
  rw [entryChanges, filter_within_reach]
  simp [Std.ExtTreeSet.mem_ofList]

theorem level_changes_within_reach (reach : Int) (old new : PowerLevels) :
    (∀ change ∈ levelChanges old new, change.1 ≤ reach ∧ change.2 ≤ reach) ↔
      (WithinReach reach old.usersDefault new.usersDefault ∧ WithinReach reach old.eventsDefault new.eventsDefault ∧
        WithinReach reach old.stateDefault new.stateDefault ∧ WithinReach reach old.invite new.invite ∧
        WithinReach reach old.kick new.kick ∧ WithinReach reach old.ban new.ban) ∧
      (∀ user, user ∈ old.users ∨ user ∈ new.users → WithinReach reach (old.forUser user) (new.forUser user)) ∧
      ∀ eventType, eventType ∈ old.events ∨ eventType ∈ new.events → WithinReach reach (old.requiredFor eventType false)
      (new.requiredFor eventType false) := by
  rw [levelChanges, forall_mem_append, forall_mem_append, filter_within_reach, entry_changes_within_reach,
    entry_changes_within_reach, and_assoc]
  simp [PowerLevels.forUser, PowerLevels.requiredFor]

structure Reached (reach : Int) (old new : PowerLevels) : Prop where
  users : ∀ user, WithinReach reach (old.forUser user) (new.forUser user)
  messages : ∀ eventType, WithinReach reach (old.requiredFor eventType false) (new.requiredFor eventType false)
  usersDefault : WithinReach reach old.usersDefault new.usersDefault
  eventsDefault : WithinReach reach old.eventsDefault new.eventsDefault
  stateDefault : WithinReach reach old.stateDefault new.stateDefault
  invite : WithinReach reach old.invite new.invite
  kick : WithinReach reach old.kick new.kick
  ban : WithinReach reach old.ban new.ban

theorem level_changes_reached (reach : Int) (old new : PowerLevels) :
    (∀ change ∈ levelChanges old new, change.1 ≤ reach ∧ change.2 ≤ reach) ↔ Reached reach old new := by
  rw [level_changes_within_reach]
  refine ⟨fun ⟨⟨usersDefault, eventsDefault, stateDefault, invite, kick, ban⟩, users, events⟩ => ?_, fun reached => ?_⟩
  · refine ⟨fun user => ?_, fun eventType => ?_, usersDefault, eventsDefault, stateDefault, invite, kick, ban⟩
    · by_cases listed : user ∈ old.users ∨ user ∈ new.users
      · exact users user listed
      · have absent := not_or.mp listed
        simpa [PowerLevels.forUser, getElem?_eq_none absent.1, getElem?_eq_none absent.2]
          using usersDefault
    · by_cases listed : eventType ∈ old.events ∨ eventType ∈ new.events
      · exact events eventType listed
      · have absent := not_or.mp listed
        simpa [PowerLevels.requiredFor, getElem?_eq_none absent.1, getElem?_eq_none absent.2]
          using eventsDefault
  · exact ⟨⟨reached.usersDefault, reached.eventsDefault, reached.stateDefault, reached.invite, reached.kick, reached.ban⟩,
      fun user _ => reached.users user, fun eventType _ => reached.messages eventType⟩

theorem mutation_rules_iff (event : E) (state : StateMap) (store : EventStore E)
    (powerLevels : Event.eventType event = powerLevelsType) :
    powerLevelMutationRules event state store = true ↔ ∃ new, Event.powerLevels event = some new ∧
      Reached ((currentPowerLevels state store).forUser (Event.sender event)) (currentPowerLevels state store) new := by
  rw [powerLevelMutationRules, if_neg (not_not.mpr powerLevels)]
  cases content : Event.powerLevels event with
  | none => simp
  | some new => simp [← level_changes_reached]

structure NoEscalation (reach : Int) (old new : PowerLevels) : Prop where
  users : ∀ user, WithinReach reach (old.forUser user) (new.forUser user)
  required : ∀ eventType isState, WithinReach reach (old.requiredFor eventType isState)
    (new.requiredFor eventType isState)
  invite : WithinReach reach old.invite new.invite
  kick : WithinReach reach old.kick new.kick
  ban : WithinReach reach old.ban new.ban

def EntriesWithinReach (reach : Int) (old new : PowerLevels) : Prop := ∀ (eventType : String) (level : Int),
    (old.events[eventType]? = some level → new.events[eventType]? = none → WithinReach reach level new.stateDefault) ∧
    (old.events[eventType]? = none → new.events[eventType]? = some level → WithinReach reach old.stateDefault level)

theorem required_state_reached {reach : Int} {old new : PowerLevels} (reached : Reached reach old new)
    (entries : EntriesWithinReach reach old new) {eventType : String} :
    WithinReach reach (old.requiredFor eventType true) (new.requiredFor eventType true) := by
  have message := reached.messages eventType
  cases before : old.events[eventType]? with
  | none =>
    cases after : new.events[eventType]? with
    | none => simpa [PowerLevels.requiredFor, before, after] using reached.stateDefault
    | some level => simpa [PowerLevels.requiredFor, before, after] using (entries eventType level).2 before after
  | some level =>
    cases after : new.events[eventType]? with
    | none => simpa [PowerLevels.requiredFor, before, after] using (entries eventType level).1 before after
    | some next => simpa [PowerLevels.requiredFor, before, after] using message

theorem entries_of_required {reach : Int} {old new : PowerLevels}
    (required : ∀ eventType, WithinReach reach (old.requiredFor eventType true) (new.requiredFor eventType true)) :
    EntriesWithinReach reach old new := by
  intro eventType level
  have here := required eventType
  refine ⟨fun before after => ?_, fun before after => ?_⟩
  · simpa [PowerLevels.requiredFor, before, after] using here
  · simpa [PowerLevels.requiredFor, before, after] using here

theorem mutation_no_escalation_iff (event : E) (state : StateMap) (store : EventStore E) (new : PowerLevels)
    (powerLevels : Event.eventType event = powerLevelsType) (content : Event.powerLevels event = some new)
    (authorised : powerLevelMutationRules event state store = true) :
    let old := currentPowerLevels state store
    let level := old.forUser (Event.sender event)
    NoEscalation level old new ↔ EntriesWithinReach level old new := by
  intro old level
  obtain ⟨found, same, reached⟩ := (mutation_rules_iff event state store powerLevels).mp authorised
  have eq : found = new := Option.some.inj (same.symm.trans content)
  subst eq
  refine ⟨fun safe => entries_of_required (fun eventType => safe.required eventType true), fun entries => ?_⟩
  refine ⟨reached.users, fun eventType isState => ?_, reached.invite, reached.kick, reached.ban⟩
  cases isState with
  | false => exact reached.messages eventType
  | true => exact required_state_reached reached entries

-- An announcement room: messages and the tombstone need 100, other state 50.
-- The moderator's event leaves out the tombstone entry and changes nothing else.
def announceLevels : PowerLevels :=
  { (default : PowerLevels) with
    users := extend ∅ [("@admin", 100), ("@mod", 50)]
    events := extend ∅ [("m.room.tombstone", 100)]
    eventsDefault := 100
    stateDefault := 50
    kick := 50
    ban := 50 }

def announceEvent : StateEvent :=
  { StateEvent.new "$pl" powerLevelsType "@admin" with powerLevels := some announceLevels }

def dropTombstone : StateEvent := { StateEvent.new "$drop" powerLevelsType "@mod" with
    powerLevels := some { announceLevels with events := ∅ }
    authEventIds := ["$pl"] }

def announceStore : EventStore StateEvent := storeOf [announceEvent, dropTombstone]
def announceState : StateMap := extend ∅ [(powerLevelsKey, "$pl")]

theorem drop_tombstone_escalates : Event.eventType dropTombstone = powerLevelsType ∧
    powerLevelMutationRules dropTombstone announceState announceStore = true ∧
      ¬ NoEscalation ((currentPowerLevels announceState announceStore).forUser (Event.sender dropTombstone))
        (currentPowerLevels announceState announceStore) { announceLevels with events := ∅ } := by
  refine ⟨rfl, by decide, fun safe => ?_⟩
  have required := safe.required "m.room.tombstone" true
  revert required
  rw [WithinReach]
  decide

theorem drop_tombstone_reached : powerLevelMutationRules dropTombstone announceState announceStore = true ∧
      (NoEscalation ((currentPowerLevels announceState announceStore).forUser (Event.sender dropTombstone))
          (currentPowerLevels announceState announceStore) { announceLevels with events := ∅ } ↔
        EntriesWithinReach ((currentPowerLevels announceState announceStore).forUser (Event.sender dropTombstone))
          (currentPowerLevels announceState announceStore) { announceLevels with events := ∅ }) :=
  ⟨by decide, mutation_no_escalation_iff dropTombstone announceState announceStore _ rfl rfl (by decide)⟩

theorem levels_greatest {levels : PowerLevels} : ∃ top, IsGreatest (Set.range levels.forUser) top := by
  have bounded :
    Set.range levels.forUser ⊆ {level | level ∈ levels.usersDefault :: levels.users.toList.map Prod.snd} := by
    intro level member
    obtain ⟨user, rfl⟩ := member
    cases listed : levels.users[user]? with
    | none => simp [PowerLevels.forUser, listed]
    | some own =>
      have row := mem_toList_iff_getElem?_eq_some.mpr listed
      rw [PowerLevels.forUser, listed]
      exact mem_cons_of_mem _ (mem_map.mpr ⟨(user, own), row, rfl⟩)
  have finite : (Set.range levels.forUser).Finite := (finite_toSet _).subset bounded
  obtain ⟨top, attained, greatest⟩ := Set.exists_max_image _ id finite (Set.range_nonempty _)
  exact ⟨top, attained, greatest⟩

theorem mutation_keeps_top {event : E} {id : EventId} {state : StateMap} {store : EventStore E} {top : Int}
    (read : store[id]? = some event) (authorised : powerLevelMutationRules event state store = true)
    (bounded : ∀ user, (currentPowerLevels state store).forUser user ≤ top) (user : String) :
    (currentPowerLevels (state.insert (slotOf event) id) store).forUser user ≤ top := by
  by_cases slot : slotOf event = powerLevelsKey
  · have powerLevels : Event.eventType event = powerLevelsType := congrArg Prod.fst slot
    obtain ⟨new, content, reached⟩ := (mutation_rules_iff event state store powerLevels).mp authorised
    rw [slot, power_levels_taken state store read, content, getD_some]
    by_cases same : (currentPowerLevels state store).forUser user = new.forUser user
    · exact same ▸ bounded user
    · exact (reached.users user same).2.trans (bounded (Event.sender event))
  · rw [power_levels_elsewhere state store slot]
    exact bounded user

theorem auth_checks_keep_top (store : EventStore E) (base : StateMap) (events : List EventId)
    (components : List (AuthRules E)) (included : powerLevelMutationRules ∈ components) :
    ∃ top, IsGreatest (Set.range (currentPowerLevels base store).forUser) top ∧
      ∀ user, (currentPowerLevels (iterativeAuthChecks events base store (allOf components)) store).forUser user ≤ top := by
  obtain ⟨top, greatest⟩ := levels_greatest
  refine ⟨top, greatest, ?_⟩
  apply auth_checks_invariant (fun state => ∀ user, (currentPowerLevels state store).forUser user ≤ top)
  · exact fun user => greatest.2 ⟨user, rfl⟩
  · intro state id event authorised bounded
    have read := (checked_listed authorised.1).2
    have mutation := all_of_member powerLevelMutationRules included authorised.2
    exact mutation_keeps_top read mutation bounded

theorem announce_run_keeps_top :
    powerLevelMutationRules ∈ ([powerLevelRules, powerLevelMutationRules] : List (AuthRules StateEvent)) ∧
      ∃ top, IsGreatest (Set.range (currentPowerLevels announceState announceStore).forUser) top ∧
        ∀ user, (currentPowerLevels (iterativeAuthChecks ["$drop"] announceState announceStore
          (allOf [powerLevelRules, powerLevelMutationRules])) announceStore).forUser user ≤ top :=
  ⟨by simp, auth_checks_keep_top announceStore announceState ["$drop"] _ (by simp)⟩

end GaussMatrix.StateRes

import GaussMatrix.StateRes.Levels
import GaussMatrix.StateRes.Membership

namespace GaussMatrix.StateRes

open Collections Event

variable {E : Type} [Event E]

def levelGates : AuthRules E := allOf [createRules, powerLevelRules, powerLevelMutationRules]

theorem composed_rules_gates (event : E) (state : StateMap) (store : EventStore E) :
    composedRules event state store = (levelGates event state store && membershipRules event state store) := by
  simp [composedRules, levelGates, allOf, Bool.and_assoc]

variable {event : E} {state : StateMap} {store : EventStore E}

theorem composed_rules_not_member (notMember : eventType event ≠ memberType) :
    composedRules event state store = levelGates event state store := by
  rw [composed_rules_gates, membershipRules, if_pos notMember, Bool.and_true]

structure LevelAdmits (event : E) (state : StateMap) (store : EventStore E) : Prop where
  created : createKey ∈ state
  reaches : (currentPowerLevels state store).requiredFor (eventType event) true ≤
    (currentPowerLevels state store).forUser (sender event)
  mutation : eventType event = powerLevelsType → ∃ new, powerLevels event = some new ∧
    Reached ((currentPowerLevels state store).forUser (sender event)) (currentPowerLevels state store) new

theorem level_gates_iff (notCreate : eventType event ≠ createType) :
    levelGates event state store = true ↔ LevelAdmits event state store := by
  have created : createRules event state store = true ↔ createKey ∈ state := by
    rw [createRules, if_neg notCreate, Std.ExtTreeMap.contains_iff_mem]
  have reaches : powerLevelRules event state store = true ↔
    (currentPowerLevels state store).requiredFor (eventType event) true ≤
        (currentPowerLevels state store).forUser (sender event) := decide_eq_true_iff
  have mutation : powerLevelMutationRules event state store = true ↔
    (eventType event = powerLevelsType → ∃ new, powerLevels event = some new ∧
        Reached ((currentPowerLevels state store).forUser (sender event)) (currentPowerLevels state store) new) := by
    by_cases powerLevels : eventType event = powerLevelsType
    · rw [mutation_rules_iff event state store powerLevels]
      exact ⟨fun reached _ => reached, fun reached => reached powerLevels⟩
    · simp [powerLevelMutationRules, powerLevels]
  have gates : levelGates event state store = true ↔ createRules event state store = true ∧
      powerLevelRules event state store = true ∧ powerLevelMutationRules event state store = true := by
    simp [levelGates, allOf]
  rw [gates, created, reaches, mutation]
  constructor
  · intro passed
    exact ⟨passed.1, passed.2.1, passed.2.2⟩
  · intro admits
    exact ⟨admits.created, admits.reaches, admits.mutation⟩

theorem only_members_act_iff : (∀ (event : E) (state : StateMap) (store : EventStore E), eventType event ≠ createType →
    eventType event ≠ memberType →
      ((composedRules event state store = true → membershipOf (sender event) state store = "join") ↔
        membershipOf (sender event) state store = "join" ∨ ¬ LevelAdmits event state store)) ∧
      ∀ (store : EventStore E) (base : StateMap) (events : List EventId),
        (∀ state id event, Checked store composedRules events base state id event → eventType event ≠ memberType →
          membershipOf (sender event) state store ≠ "join" → levelGates event state store = false) →
        ∀ slot : StateKey, slot.1 ≠ memberType → (iterativeAuthChecks events base store composedRules)[slot]? = base[slot]? ∨
            ∃ state id event, Authorised store composedRules events base state id event ∧ slotOf event = slot ∧
              (iterativeAuthChecks events base store composedRules)[slot]? = some id ∧
              membershipOf (sender event) state store = "join" := by
  refine ⟨fun event state store notCreate notMember => ?_, fun store base events refused slot notMember => ?_⟩
  · rw [composed_rules_not_member notMember, level_gates_iff notCreate, imp_iff_or_not]
  · rcases auth_checks_slot store composedRules events base slot with kept | ⟨state, id, event, authorised, taken, held⟩
    · exact Or.inl kept
    · right
      have eventType : eventType event ≠ memberType := fun member => notMember (by rw [← taken]; exact member)
      refine ⟨state, id, event, authorised, taken, held, ?_⟩
      by_contra outside
      have gates := refused state id event authorised.1 eventType outside
      rw [← composed_rules_not_member eventType, authorised.2] at gates
      cases gates

theorem membership_alone_iff (event : E) (state : StateMap) (store : EventStore E) (created : createKey ∈ state)
    (member : eventType event = memberType) : (composedRules event state store = true ↔
    membershipRules event state store = true) ↔ membershipRules event state store = false ∨
        (currentPowerLevels state store).requiredFor memberType true ≤ (currentPowerLevels state store).forUser (sender event) := by
  have notCreate : eventType event ≠ createType := by rw [member]; decide
  have notLevels : eventType event ≠ powerLevelsType := by rw [member]; decide
  have gates : levelGates event state store = true ↔ (currentPowerLevels state store).requiredFor memberType true ≤
    (currentPowerLevels state store).forUser (sender event) := by
    rw [level_gates_iff notCreate, ← member]
    exact ⟨fun admits => admits.reaches, fun reaches => ⟨created, reaches, fun levels => absurd levels notLevels⟩⟩
  rw [composed_rules_gates, Bool.and_eq_true, gates]
  cases membershipRules event state store <;> simp

def publicLevels : PowerLevels :=
  { users := extend ∅ [("@admin", 100)], usersDefault := 0, events := ∅, eventsDefault := 0, stateDefault := 50, invite := 0, kick := 50, ban := 50 }

def publicStore : EventStore StateEvent := storeOf [StateEvent.new "$c" createType "@admin",
    { StateEvent.new "$pl" powerLevelsType "@admin" with powerLevels := some publicLevels },
    { StateEvent.new "$jr" joinRulesType "@admin" with joinRule := some "public" },
    memberEvent "$ban" "@owner" "@admin" "ban" ["$c", "$pl"], StateEvent.new "$name" "m.room.name" "@admin",
    StateEvent.new "$topic" "m.room.topic" "@bob", memberEvent "$bj" "@bob" "@bob" "join" ["$c", "$pl", "$jr"]]

def publicState : StateMap :=
  extend ∅ [(createKey, "$c"), (powerLevelsKey, "$pl"), (joinRulesKey, "$jr"), (memberKey "@admin", "$ban")]

theorem banned_admin_names_room : ∃ event, publicStore["$name"]? = some event ∧ eventType event ≠ createType ∧
      eventType event ≠ memberType ∧ composedRules event publicState publicStore = true ∧
      membershipOf (sender event) publicState publicStore = "ban" ∧
      (iterativeAuthChecks ["$name"] publicState publicStore composedRules)[("m.room.name", "")]? = some "$name" :=
  ⟨_, rfl, by decide, by decide, by decide, by decide, by decide⟩

theorem outsider_topic_refused : ∃ event, publicStore["$topic"]? = some event ∧
    membershipOf (sender event) publicState publicStore ≠ "join" ∧
      ¬ LevelAdmits event publicState publicStore ∧
      (composedRules event publicState publicStore = true → membershipOf (sender event) publicState publicStore = "join") := by
  have low : ¬ LevelAdmits (StateEvent.new "$topic" "m.room.topic" "@bob") publicState publicStore := fun admits =>
    absurd admits.reaches (by decide)
  exact ⟨_, by decide, by decide, low, (only_members_act_iff.1 (StateEvent.new "$topic" "m.room.topic" "@bob")
    publicState publicStore (by decide) (by decide)).mpr (Or.inr low)⟩

theorem public_join_vetoed : ∃ event, publicStore["$bj"]? = some event ∧ createKey ∈ publicState ∧
    eventType event = memberType ∧
      currentJoinRule publicState publicStore = "public" ∧ membershipRules event publicState publicStore = true ∧
      composedRules event publicState publicStore = false :=
  ⟨_, rfl, by decide, by decide, by decide, by decide, by decide⟩

theorem public_join_governed_without_levels :
    ∃ event, publicStore["$bj"]? = some event ∧ createKey ∈ publicState.erase powerLevelsKey ∧
      membershipRules event (publicState.erase powerLevelsKey) publicStore = true ∧
      (composedRules event (publicState.erase powerLevelsKey) publicStore = true ↔
      membershipRules event (publicState.erase powerLevelsKey) publicStore = true) :=
  ⟨memberEvent "$bj" "@bob" "@bob" "join" ["$c", "$pl", "$jr"], by decide, by decide, by decide,
    (membership_alone_iff _ _ _ (by decide) (by decide)).mpr (Or.inr (by decide))⟩

end GaussMatrix.StateRes

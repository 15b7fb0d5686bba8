import GaussMatrix.StateRes.Levels

namespace GaussMatrix.StateRes

open Collections Event List Std Std.ExtTreeMap

structure PowerLevels.AtMost (levels : PowerLevels) (bound : Int) : Prop where
  users : ∀ (user : String) (level : Int), levels.users[user]? = some level → level ≤ bound
  events : ∀ (eventType : String) (level : Int), levels.events[eventType]? = some level → level ≤ bound
  usersDefault : levels.usersDefault ≤ bound
  eventsDefault : levels.eventsDefault ≤ bound
  stateDefault : levels.stateDefault ≤ bound
  invite : levels.invite ≤ bound
  kick : levels.kick ≤ bound
  ban : levels.ban ≤ bound

variable {levels : PowerLevels} {bound : Int}

theorem at_most_rows : ((∀ row ∈ levels.users.toList, row.2 ≤ bound) ∧ (∀ row ∈ levels.events.toList, row.2 ≤ bound) ∧
      ∀ level ∈ [levels.usersDefault, levels.eventsDefault, levels.stateDefault, levels.invite, levels.kick,
      levels.ban], level ≤ bound) ↔ levels.AtMost bound := by
  have rows (entries : BTreeMap String Int) : (∀ row ∈ entries.toList, row.2 ≤ bound) ↔
    ∀ (key : String) (level : Int), entries[key]? = some level → level ≤ bound := by
    refine ⟨fun all key level read => ?_, fun all row member => ?_⟩
    · exact all (key, level) (mem_toList_iff_getElem?_eq_some.mpr read)
    · exact all row.1 row.2 (mem_toList_iff_getElem?_eq_some.mp member)
  rw [rows, rows]
  simp only [forall_mem_cons, not_mem_nil, false_imp_iff, implies_true, and_true]
  refine ⟨fun ⟨users, events, usersDefault, eventsDefault, stateDefault, invite, kick, ban⟩ => ?_, fun low => ?_⟩
  · exact ⟨users, events, usersDefault, eventsDefault, stateDefault, invite, kick, ban⟩
  · exact ⟨low.users, low.events, low.usersDefault, low.eventsDefault, low.stateDefault, low.invite, low.kick, low.ban⟩

instance (levels : PowerLevels) (bound : Int) : Decidable (levels.AtMost bound) := decidable_of_iff _ at_most_rows

structure Bootstrap (E : Type) [Event E] where
  store : EventStore E
  creator : String
  content : PowerLevels
  createId : EventId
  joinId : EventId
  powerId : EventId
  create : E
  join : E
  power : E
  createRead : store[createId]? = some create
  joinRead : store[joinId]? = some join
  powerRead : store[powerId]? = some power
  createSlot : slotOf create = createKey
  createSender : sender create = creator
  createAuth : authEventIds create = []
  joinSlot : slotOf join = memberKey creator
  joinSender : sender join = creator
  joinMembership : membership join = some "join"
  joinAuth : authEventIds join = [createId]
  powerSlot : slotOf power = powerLevelsKey
  powerSender : sender power = creator
  powerContent : powerLevels power = some content
  powerAuth : (authEventIds power).Perm [createId, joinId]

section

variable {E : Type} [Event E] {state : StateMap}

section

variable (store : EventStore E) (rules : AuthRules E)

def AcceptsAll (events : List EventId) (base : StateMap) : Prop :=
  ∀ before id after, events = before ++ id :: after →
    authGate store rules (iterativeAuthChecks before base store rules) id = true

theorem accepts_all_cons (id : EventId) (rest : List EventId) (base : StateMap) :
    AcceptsAll store rules (id :: rest) base ↔ authGate store rules base id = true ∧
    AcceptsAll store rules rest (authStep store rules base id) := by
  refine ⟨fun all => ⟨all [] id rest rfl, fun before other after split => ?_⟩,
    fun ⟨first, later⟩ before other after split => ?_⟩
  · exact all (id :: before) other after (congrArg (id :: ·) split)
  · cases before with
    | nil =>
      cases split
      exact first
    | cons head before =>
      obtain ⟨rfl, rest⟩ := cons.inj split
      exact later before other after rest

theorem accepts_all_nil {base : StateMap} : AcceptsAll store rules [] base := by
  intro before id after split
  cases before with
  | nil => cases split
  | cons _ _ => cases split

end

theorem composed_iff (event : E) (state : StateMap) (store : EventStore E) : composedRules event state store = true ↔
      createRules event state store = true ∧ powerLevelRules event state store = true ∧ powerLevelMutationRules event state store = true ∧
        membershipRules event state store = true := by
  simp only [composedRules, allOf, all_cons, all_nil, Bool.and_true, Bool.and_eq_true]

theorem levels_unset (unset : state[powerLevelsKey]? = none) (store : EventStore E) :
    currentPowerLevels state store = default := by
  rw [currentPowerLevels, unset]
  rfl

variable {event : E}

theorem default_levels_allow (unset : state[powerLevelsKey]? = none) {store : EventStore E} :
    powerLevelRules event state store = true := by
  rw [powerLevelRules, levels_unset unset]
  simp [PowerLevels.requiredFor, PowerLevels.forUser, default]

theorem within_zero_iff {new : Int} : WithinReach 0 0 new ↔ new ≤ 0 := by
  rw [WithinReach]
  omega

theorem entries_at_most (entries : BTreeMap String Int) {fallback : Int} (low : fallback ≤ bound) :
    (∀ key : String, entries[key]?.getD fallback ≤ bound) ↔ ∀ (key : String) (level : Int), entries[key]? = some level →
    level ≤ bound := by
  refine ⟨fun all key level read => ?_, fun listed key => ?_⟩
  · have own := all key
    rwa [read] at own
  · cases read : entries[key]? with
    | none => exact low
    | some level => exact listed key level read

theorem reached_default_iff {new : PowerLevels} : Reached 0 default new ↔ new.AtMost 0 := by
  have users (low : new.usersDefault ≤ 0) := entries_at_most new.users low
  have events (low : new.eventsDefault ≤ 0) := entries_at_most new.events low
  refine ⟨fun reached => ?_, fun low => ?_⟩
  · have usersLow := within_zero_iff.mp reached.usersDefault
    have eventsLow := within_zero_iff.mp reached.eventsDefault
    exact
      { users := (users usersLow).mp fun user => within_zero_iff.mp (reached.users user)
        events := (events eventsLow).mp fun eventType => within_zero_iff.mp (reached.messages eventType)
        usersDefault := usersLow
        eventsDefault := eventsLow
        stateDefault := within_zero_iff.mp reached.stateDefault
        invite := within_zero_iff.mp reached.invite
        kick := within_zero_iff.mp reached.kick
        ban := within_zero_iff.mp reached.ban }
  · exact
      { users := fun user => within_zero_iff.mpr ((users low.usersDefault).mpr low.users user)
        messages := fun eventType => within_zero_iff.mpr ((events low.eventsDefault).mpr low.events eventType)
        usersDefault := within_zero_iff.mpr low.usersDefault
        eventsDefault := within_zero_iff.mpr low.eventsDefault
        stateDefault := within_zero_iff.mpr low.stateDefault
        invite := within_zero_iff.mpr low.invite
        kick := within_zero_iff.mpr low.kick
        ban := within_zero_iff.mpr low.ban }

omit [Event E] in
theorem gate_read {store : EventStore E} {rules : AuthRules E} {id : EventId} (read : store[id]? = some event) :
    authGate store rules state id = rules event state store := by
  rw [authGate, read]

theorem step_accepted {store : EventStore E} {rules : AuthRules E} {id : EventId} (read : store[id]? = some event)
    (accepted : authGate store rules state id = true) :
    authStep store rules state id = state.insert (slotOf event) id := by
  rw [gate_read read] at accepted
  rw [authStep, read]
  exact if_pos accepted

end

section

variable {E : Type} [Event E] (room : Bootstrap E)

def Bootstrap.events : List EventId := [room.createId, room.joinId, room.powerId]

def Bootstrap.created : StateMap := (∅ : StateMap).insert createKey room.createId

def Bootstrap.joined : StateMap := room.created.insert (memberKey room.creator) room.joinId

omit [Event E] in
theorem other_slot {user : String} {slot : StateKey} (other : slot.1 ≠ memberType) : slot ≠ memberKey user :=
  fun same => other (congrArg Prod.fst same)

theorem created_unset : room.created[powerLevelsKey]? = none := by
  rw [Bootstrap.created, insert_elsewhere (by decide), getElem?_empty]

theorem joined_unset : room.joined[powerLevelsKey]? = none := by
  rw [Bootstrap.joined, insert_elsewhere (other_slot (by decide)), created_unset]

theorem create_accepted : authGate room.store composedRules ∅ room.createId = true := by
  have type : eventType room.create = createType := congrArg Prod.fst room.createSlot
  have stateKey : stateKey room.create = "" := congrArg Prod.snd room.createSlot
  rw [gate_read room.createRead, composed_iff]
  refine ⟨?_, default_levels_allow getElem?_empty, ?_, ?_⟩
  · rw [createRules, if_pos type, room.createAuth, stateKey]
    rfl
  · rw [powerLevelMutationRules, type, if_pos (by decide)]
  · rw [membershipRules, type, if_pos (by decide)]

theorem join_accepted : authGate room.store composedRules room.created room.joinId = true := by
  have type : eventType room.join = memberType := congrArg Prod.fst room.joinSlot
  have stateKey : stateKey room.join = room.creator := congrArg Prod.snd room.joinSlot
  have held : room.created[createKey]? = some room.createId := getElem?_insert_self
  have unknown : membershipOf room.creator room.created room.store = "leave" := by
    rw [Bootstrap.created, membership_elsewhere _ _ _ (other_slot (by decide)), membershipOf, getElem?_empty]
    rfl
  have bootstraps : isBootstrapJoin room.join room.created room.store = true := by
    rw [isBootstrapJoin, held]
    simp [room.createRead, room.createSender, room.joinSender, room.joinAuth]
  rw [gate_read room.joinRead, composed_iff]
  refine ⟨?_, default_levels_allow (created_unset room), ?_, ?_⟩
  · rw [createRules, type, if_neg (by decide), contains_eq_isSome_getElem?, held]
    rfl
  · rw [powerLevelMutationRules, type, if_pos (by decide)]
  · rw [membershipRules, if_neg (not_not.mpr type), room.joinMembership]
    simp [joinAllowed, stateKey, room.joinSender, unknown, bootstraps]

theorem power_accepted_iff : authGate room.store composedRules room.joined room.powerId = true ↔
    room.content.AtMost 0 := by
  have type : eventType room.power = powerLevelsType := congrArg Prod.fst room.powerSlot
  have held : room.joined[createKey]? = some room.createId := by
    rw [Bootstrap.joined, insert_elsewhere (other_slot (by decide))]
    exact getElem?_insert_self
  have created : createRules room.power room.joined room.store = true := by
    rw [createRules, type, if_neg (by decide), contains_eq_isSome_getElem?, held]
    rfl
  have passes : membershipRules room.power room.joined room.store = true := by
    rw [membershipRules, type, if_pos (by decide)]
  rw [gate_read room.powerRead, composed_iff, mutation_rules_iff _ _ _ type, levels_unset (joined_unset room),
    room.powerContent]
  refine ⟨fun ⟨_, _, ⟨new, same, reached⟩, _⟩ => ?_, fun low => ?_⟩
  · cases same
    exact reached_default_iff.mp reached
  · exact ⟨created, default_levels_allow (joined_unset room), ⟨room.content, rfl, reached_default_iff.mpr low⟩, passes⟩

theorem bootstrap_steps : authStep room.store composedRules ∅ room.createId = room.created ∧
    authStep room.store composedRules room.created room.joinId = room.joined := by
  refine ⟨?_, ?_⟩
  · rw [step_accepted room.createRead (create_accepted room), room.createSlot, Bootstrap.created]
  · rw [step_accepted room.joinRead (join_accepted room), room.joinSlot, Bootstrap.joined]

theorem accepts_all_iff : AcceptsAll room.store composedRules room.events ∅ ↔ room.content.AtMost 0 := by
  obtain ⟨first, second⟩ := bootstrap_steps room
  rw [Bootstrap.events, accepts_all_cons, accepts_all_cons, accepts_all_cons, first, second, power_accepted_iff]
  exact ⟨fun all => all.2.2.1, fun low => ⟨create_accepted room, join_accepted room, low, accepts_all_nil _ _⟩⟩

theorem bootstrap_state : iterativeAuthChecks room.events ∅ room.store composedRules =
    if room.content.AtMost 0 then room.joined.insert powerLevelsKey room.powerId else room.joined := by
  obtain ⟨first, second⟩ := bootstrap_steps room
  have last : iterativeAuthChecks room.events ∅ room.store composedRules =
    authStep room.store composedRules room.joined room.powerId := by
    rw [← second, ← first]
    rfl
  rw [last]
  split
  case isTrue low => rw [step_accepted room.powerRead ((power_accepted_iff room).mpr low), room.powerSlot]
  case isFalse high =>
    have rejected : ¬ composedRules room.power room.joined room.store = true := by
      rw [← power_accepted_iff room, gate_read room.powerRead] at high
      exact high
    rw [authStep, room.powerRead]
    exact if_neg rejected

end

theorem at_most_own_iff {user : String} (top : levels.AtMost (levels.forUser user)) :
    levels.AtMost 0 ↔ levels.forUser user ≤ 0 := by
  refine ⟨fun low => (entries_at_most levels.users low.usersDefault).mpr low.users user, fun low => ?_⟩
  exact
    { users := fun user level read => (top.users user level read).trans low
      events := fun eventType level read => (top.events eventType level read).trans low
      usersDefault := top.usersDefault.trans low
      eventsDefault := top.eventsDefault.trans low
      stateDefault := top.stateDefault.trans low
      invite := top.invite.trans low
      kick := top.kick.trans low
      ban := top.ban.trans low }

theorem bootstrap_accepted_iff {E : Type} [Event E] (room : Bootstrap E)
    (top : room.content.AtMost (room.content.forUser room.creator)) :
    AcceptsAll room.store composedRules [room.createId, room.joinId] ∅ ∧
    (AcceptsAll room.store composedRules room.events ∅ ↔ room.content.forUser room.creator ≤ 0) ∧
      iterativeAuthChecks room.events ∅ room.store composedRules =
        if room.content.forUser room.creator ≤ 0 then room.joined.insert powerLevelsKey room.powerId else room.joined := by
  have low := at_most_own_iff top
  refine ⟨?_, (accepts_all_iff room).trans low, ?_⟩
  · rw [accepts_all_cons, accepts_all_cons, (bootstrap_steps room).1]
    exact ⟨create_accepted room, join_accepted room, accepts_all_nil _ _⟩
  · rw [bootstrap_state, if_congr low rfl rfl]

def aliceCreate : StateEvent := StateEvent.new "$create" createType "@alice"

def aliceJoin : StateEvent := { StateEvent.new "$join" memberType "@alice" with stateKey := "@alice", membership := some "join", authEventIds := ["$create"] }

def alicePower (content : PowerLevels) : StateEvent :=
  { StateEvent.new "$power" powerLevelsType "@alice" with powerLevels := some content, authEventIds := ["$create", "$join"] }

def aliceRoom (content : PowerLevels) : Bootstrap StateEvent where
  store := storeOf [aliceCreate, aliceJoin, alicePower content]
  creator := "@alice"
  content := content
  createId := "$create"
  joinId := "$join"
  powerId := "$power"
  create := aliceCreate
  join := aliceJoin
  power := alicePower content
  createRead := (insert_elsewhere (show "$create" ≠ "$power" by decide)).trans rfl
  joinRead := (insert_elsewhere (show "$join" ≠ "$power" by decide)).trans rfl
  powerRead := Std.ExtTreeMap.getElem?_insert_self
  createSlot := rfl
  createSender := rfl
  createAuth := rfl
  joinSlot := rfl
  joinSender := rfl
  joinMembership := rfl
  joinAuth := rfl
  powerSlot := rfl
  powerSender := rfl
  powerContent := rfl
  powerAuth := List.Perm.refl _

def mutedLevels : PowerLevels := { (default : PowerLevels) with usersDefault := -10, users := extend ∅ [("@alice", 0)] }

theorem muted_room_bootstraps :
    AcceptsAll (aliceRoom mutedLevels).store composedRules ["$create", "$join", "$power"] ∅ := by
  have accepted := (bootstrap_accepted_iff (aliceRoom mutedLevels) (by decide +kernel)).2.1
  exact accepted.mpr (by decide +kernel)

def usualLevels : PowerLevels :=
  { (default : PowerLevels) with users := extend ∅ [("@alice", 100)], stateDefault := 50, kick := 50, ban := 50 }

theorem usual_room_rejected :
    (aliceRoom usualLevels).content.AtMost ((aliceRoom usualLevels).content.forUser (aliceRoom usualLevels).creator) ∧
      ¬ AcceptsAll (aliceRoom usualLevels).store composedRules (aliceRoom usualLevels).events ∅ ∧
      (iterativeAuthChecks (aliceRoom usualLevels).events ∅ (aliceRoom usualLevels).store composedRules)[powerLevelsKey]? = none := by
  refine ⟨by decide +kernel, fun accepted => ?_, by decide +kernel⟩
  have power := accepted ["$create", "$join"] "$power" [] rfl
  exact absurd power (by decide +kernel)

end GaussMatrix.StateRes

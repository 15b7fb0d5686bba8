import GaussMatrix.StateRes.Event
import GaussMatrix.Library.Walk

namespace GaussMatrix.StateRes

open Collections Event List Option Std.ExtTreeMap Walk

abbrev AuthRules (E : Type) := E → StateMap → EventStore E → Bool

variable {E : Type} [Event E]

def currentPowerLevels (state : StateMap) (store : EventStore E) : PowerLevels :=
  ((state[powerLevelsKey]?.bind fun id => store[id]?).bind powerLevels).getD default

def membershipOf (user : String) (state : StateMap) (store : EventStore E) : String :=
  ((state[memberKey user]?.bind fun id => store[id]?).bind membership).getD "leave"

def currentJoinRule (state : StateMap) (store : EventStore E) : String :=
  ((state[joinRulesKey]?.bind fun id => store[id]?).bind joinRule).getD "invite"

def powerLevelRules : AuthRules E := fun event state store =>
  let levels := currentPowerLevels state store
  let required := levels.requiredFor (eventType event) true
  decide (levels.forUser (sender event) ≥ required)

def createRules : AuthRules E := fun event state _ =>
  if eventType event = createType then (authEventIds event).isEmpty && stateKey event == ""
  else state.contains createKey

def allOf (rules : List (AuthRules E)) : AuthRules E := fun event state store =>
  rules.all fun rule => rule event state store

section

variable (event : E) (state : StateMap) (store : EventStore E)

def isBootstrapJoin : Bool :=
  match state[createKey]? with
  | none => false
  | some createId =>
    store[createId]?.map sender == some (sender event) && authEventIds event == [createId]

def joinAllowed : Bool :=
  let target := stateKey event
  let levels := currentPowerLevels state store
  let targetMembership := membershipOf target state store
  if sender event ≠ target ∨ targetMembership = "ban" then false
  else if isBootstrapJoin event state store then true
  else if targetMembership = "invite" ∨ targetMembership = "join" then true
  else if currentJoinRule state store = "public" then true
  else if currentJoinRule state store = "restricted" ∨ currentJoinRule state store = "knock_restricted" then
    match joinAuthorisedViaUsersServer event with
    | some authoriser => membershipOf authoriser state store == "join" && decide (levels.forUser authoriser ≥ levels.invite)
    | none => false
  else false

def inviteAllowed : Bool :=
  let levels := currentPowerLevels state store
  let targetMembership := membershipOf (stateKey event) state store
  membershipOf (sender event) state store == "join" && !(targetMembership == "join" || targetMembership == "ban") &&
    decide (levels.forUser (sender event) ≥ levels.invite)

def leaveAllowed : Bool :=
  let sender := sender event
  let target := stateKey event
  let levels := currentPowerLevels state store
  let senderMembership := membershipOf sender state store
  if sender = target then senderMembership == "join" || senderMembership == "invite" || senderMembership == "knock"
  else senderMembership == "join" && decide (levels.forUser sender ≥ levels.kick) &&
    decide (levels.forUser sender > levels.forUser target)

def banAllowed : Bool :=
  let levels := currentPowerLevels state store
  membershipOf (sender event) state store == "join" && decide (levels.forUser (sender event) ≥ levels.ban) &&
    decide (levels.forUser (sender event) > levels.forUser (stateKey event))

def knockAllowed : Bool :=
  let targetMembership := membershipOf (stateKey event) state store
  sender event == stateKey event &&
    (currentJoinRule state store == "knock" || currentJoinRule state store == "knock_restricted") &&
    !(targetMembership == "join" || targetMembership == "ban")

end

def membershipRules : AuthRules E := fun event state store =>
  if eventType event ≠ memberType then true
  else match membership event with
    | none => false
    | some membership =>
      if membership = "join" then joinAllowed event state store
      else if membership = "invite" then inviteAllowed event state store
      else if membership = "leave" then leaveAllowed event state store
      else if membership = "ban" then banAllowed event state store
      else if membership = "knock" then knockAllowed event state store
      else false

def entryChanges (old new : BTreeMap String Int) (oldDefault newDefault : Int) : List (Int × Int) :=
  let keys : BTreeSet String := Std.ExtTreeSet.ofList (old.keys ++ new.keys)
  (keys.toList.map fun key => (old[key]?.getD oldDefault, new[key]?.getD newDefault)).filter fun change =>
    change.1 != change.2

def levelChanges (old new : PowerLevels) : List (Int × Int) :=
  let scalars := [(old.usersDefault, new.usersDefault), (old.eventsDefault, new.eventsDefault),
    (old.stateDefault, new.stateDefault), (old.invite, new.invite), (old.kick, new.kick), (old.ban, new.ban)]
  (scalars.filter fun change => change.1 != change.2) ++
    entryChanges old.users new.users old.usersDefault new.usersDefault ++
    entryChanges old.events new.events old.eventsDefault new.eventsDefault

def powerLevelMutationRules : AuthRules E := fun event state store =>
  if eventType event ≠ powerLevelsType then true
  else match powerLevels event with
    | none => false
    | some newLevels =>
      let oldLevels := currentPowerLevels state store
      let senderLevel := oldLevels.forUser (sender event)
      (levelChanges oldLevels newLevels).all fun change =>
        decide (change.1 ≤ senderLevel) && decide (change.2 ≤ senderLevel)

def composedRules : AuthRules E := allOf [createRules, powerLevelRules, powerLevelMutationRules, membershipRules]

def authStep (store : EventStore E) (rules : AuthRules E) (state : StateMap) (id : EventId) : StateMap :=
  match store[id]? with
  | none => state
  | some event => if rules event state store then state.insert (slotOf event) id else state

def iterativeAuthChecks (events : List EventId) (base : StateMap) (store : EventStore E) (rules : AuthRules E) :
    StateMap := events.foldl (authStep store rules) base

section

variable (store : EventStore E) (rules : AuthRules E) (events : List EventId) (base state : StateMap)
  (id : EventId) (event : E)

def Checked : Prop := ∃ before after, events = before ++ id :: after ∧
    state = iterativeAuthChecks before base store rules ∧ store[id]? = some event

def Authorised : Prop := Checked store rules events base state id event ∧ rules event state store = true

end

def authGate (store : EventStore E) (rules : AuthRules E) (state : StateMap) (id : EventId) : Bool :=
  match store[id]? with
  | none => false
  | some event => rules event state store

def authTake (store : EventStore E) (state : StateMap) (id : EventId) : StateMap :=
  match store[id]? with
  | none => state
  | some event => state.insert (slotOf event) id

variable (store : EventStore E) (rules : AuthRules E) (events : List EventId) (base : StateMap) (slot : StateKey)

theorem auth_step_walk (state : StateMap) (id : EventId) :
    authStep store rules state id = walkStep (authGate store rules) (authTake store) state id := by
  cases read : store[id]? with
  | none => simp [authStep, walkStep, authGate, read]
  | some event => simp [authStep, walkStep, authGate, authTake, read]

theorem auth_checks_walk : iterativeAuthChecks events base store rules = walk (authGate store rules)
    (authTake store) events base := by
  induction events generalizing base with
  | nil => rfl
  | cons id tail ih =>
    change iterativeAuthChecks tail (authStep store rules base id) store rules = _
    rw [ih, auth_step_walk]
    rfl

theorem authorised_of_accepted {state : StateMap} {id : EventId}
    (accepted : Accepted (authGate store rules) (authTake store) events base state id) : ∃ event,
    Authorised store rules events base state id event ∧ authTake store state id = state.insert (slotOf event) id := by
  obtain ⟨⟨before, after, split, reached⟩, pass⟩ := accepted
  cases read : store[id]? with
  | none => simp [authGate, read] at pass
  | some event =>
    rw [authGate, read] at pass
    rw [← auth_checks_walk] at reached
    exact ⟨event, ⟨⟨before, after, split, reached, read⟩, pass⟩, by rw [authTake, read]⟩

variable {store rules events base} in
theorem auth_checks_invariant (inv : StateMap → Prop) (start : inv base)
    (step : ∀ state id event, Authorised store rules events base state id event → inv state →
    inv (state.insert (slotOf event) id)) : inv (iterativeAuthChecks events base store rules) := by
  rw [auth_checks_walk]
  refine walk_invariant _ _ inv events base start fun state id accepted holds => ?_
  obtain ⟨event, authorised, taken⟩ := authorised_of_accepted store rules events base accepted
  rw [taken]
  exact step state id event authorised holds

theorem auth_checks_broken (kept : StateMap → Prop) (start : kept base)
    (lost : ¬ kept (iterativeAuthChecks events base store rules)) : ∃ state id event,
    Authorised store rules events base state id event ∧ kept state ∧ ¬ kept (state.insert (slotOf event) id) := by
  rw [auth_checks_walk] at lost
  obtain ⟨state, id, accepted, holds, broken⟩ := walk_broken _ _ start lost
  obtain ⟨event, authorised, taken⟩ := authorised_of_accepted store rules events base accepted
  exact ⟨state, id, event, authorised, holds, taken ▸ broken⟩

theorem auth_checks_slot : (iterativeAuthChecks events base store rules)[slot]? = base[slot]? ∨
      ∃ state id event, Authorised store rules events base state id event ∧ slotOf event = slot ∧
      (iterativeAuthChecks events base store rules)[slot]? = some id := by
  apply auth_checks_invariant (fun current => current[slot]? = base[slot]? ∨
    ∃ state id event, Authorised store rules events base state id event ∧ slotOf event = slot ∧ current[slot]? = some id)
  · exact .inl rfl
  · intro state id event authorised holds
    by_cases here : slotOf event = slot
    · exact .inr ⟨state, id, event, authorised, here, by rw [here, getElem?_insert_self]⟩
    · rw [insert_elsewhere (Ne.symm here)]
      exact holds

theorem auth_checks_append (before after : List EventId) (base : StateMap) :
    iterativeAuthChecks (before ++ after) base store rules =
      iterativeAuthChecks after (iterativeAuthChecks before base store rules) store rules :=
  List.foldl_append

theorem auth_checks_filled (filled : ∃ id, base[slot]? = some id) :
    ∃ id, (iterativeAuthChecks events base store rules)[slot]? = some id := by
  rcases auth_checks_slot store rules events base slot with kept | ⟨_, id, _, _, _, held⟩
  · rw [kept]
    exact filled
  · exact ⟨id, held⟩

theorem auth_checks_fill {id : EventId} {event : E} (listed : id ∈ events) (read : store[id]? = some event)
    (passes : ∀ state, Checked store rules events base state id event → state[slotOf event]? = none →
    rules event state store = true) :
    ∃ held, (iterativeAuthChecks events base store rules)[slotOf event]? = some held := by
  obtain ⟨before, after, split⟩ := append_of_mem listed
  have checked : Checked store rules events base (iterativeAuthChecks before base store rules) id event :=
    ⟨before, after, split, rfl, read⟩
  rw [split, auth_checks_append]
  change ∃ held, (iterativeAuthChecks after (authStep store rules (iterativeAuthChecks before base store rules) id)
    store rules)[slotOf event]? = some held
  apply auth_checks_filled
  rw [authStep, read]
  cases held : (iterativeAuthChecks before base store rules)[slotOf event]? with
  | none => exact ⟨id, by simp [passes _ checked held]⟩
  | some other =>
    by_cases authorised : rules event (iterativeAuthChecks before base store rules) store = true
    · exact ⟨id, by simp [authorised]⟩
    · exact ⟨other, by simp [authorised, held]⟩

variable {store rules events base} in
theorem checked_listed {state : StateMap} {id : EventId} {event : E}
    (checked : Checked store rules events base state id event) : id ∈ events ∧ store[id]? = some event := by
  obtain ⟨before, after, split, _, read⟩ := checked
  exact ⟨by simp [split], read⟩

theorem checked_nil {state : StateMap} {id : EventId} {event : E} : ¬ Checked store rules [] base state id event := by
  intro checked
  exact absurd (checked_listed checked).1 not_mem_nil

theorem checked_cons {head : EventId} {tail : List EventId} {base state : StateMap} {id : EventId} {event : E} :
    Checked store rules (head :: tail) base state id event ↔ (state = base ∧ id = head ∧ store[id]? = some event) ∨
        Checked store rules tail (authStep store rules base head) state id event := by
  refine ⟨fun ⟨before, after, split, reached, read⟩ => ?_, fun cases => ?_⟩
  · cases before with
    | nil => exact .inl ⟨reached, (cons.inj split).1.symm, read⟩
    | cons first rest =>
      obtain ⟨same, rows⟩ := cons.inj split
      subst same
      exact .inr ⟨rest, after, rows, reached, read⟩
  · rcases cases with ⟨reached, same, read⟩ | ⟨before, after, split, reached, read⟩
    · exact ⟨[], tail, by rw [same]; rfl, reached, read⟩
    · exact ⟨head :: before, after, by rw [split]; rfl, reached, read⟩

theorem checked_single {only : EventId} {base state : StateMap} {id : EventId}
    {event : E} : Checked store rules [only] base state id event ↔ state = base ∧ id = only ∧
    store[id]? = some event := by
  rw [checked_cons]
  exact or_iff_left (checked_nil store rules _)

omit [Event E] in
theorem all_of_member {rules : List (AuthRules E)} (rule : AuthRules E) {event : E} {state : StateMap}
    {store : EventStore E}
    (included : rule ∈ rules) (authorised : allOf rules event state store = true) : rule event state store = true :=
  List.all_eq_true.mp authorised rule included

variable (user : String) (state : StateMap) (store : EventStore E)

theorem power_levels_elsewhere {slot : StateKey} {id : EventId}
    (different : slot ≠ powerLevelsKey) :
    currentPowerLevels (state.insert slot id) store = currentPowerLevels state store := by
  rw [currentPowerLevels, insert_elsewhere different.symm, currentPowerLevels]

theorem power_levels_taken {id : EventId} {event : E} (read : store[id]? = some event) :
    currentPowerLevels (state.insert powerLevelsKey id) store = (powerLevels event).getD default := by
  rw [currentPowerLevels, getElem?_insert_self, bind_some, read, bind_some]

theorem membership_elsewhere {slot : StateKey} {id : EventId}
    (different : slot ≠ memberKey user) :
    membershipOf user (state.insert slot id) store = membershipOf user state store := by
  rw [membershipOf, insert_elsewhere different.symm, membershipOf]

theorem membership_taken {id : EventId} {event : E} (read : store[id]? = some event) :
    membershipOf user (state.insert (memberKey user) id) store = (membership event).getD "leave" := by
  rw [membershipOf, getElem?_insert_self, bind_some, read, bind_some]

theorem join_rule_elsewhere {slot : StateKey} (id : EventId) (different : slot ≠ joinRulesKey) :
    currentJoinRule (state.insert slot id) store = currentJoinRule state store := by
  rw [currentJoinRule, insert_elsewhere different.symm, currentJoinRule]

end GaussMatrix.StateRes

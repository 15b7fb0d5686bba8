import GaussMatrix.StateRes.Auth

namespace GaussMatrix.StateRes

open Collections Event

variable {E : Type} [Event E] (event : E) (id : EventId) (state : StateMap) (store : EventStore E) (user : String)

theorem membership_rules_cases (member : eventType event = memberType) (authorised : membershipRules event state store = true) :
    (membership event = some "join" ∧ joinAllowed event state store = true) ∨
    (membership event = some "invite" ∧ inviteAllowed event state store = true) ∨
      (membership event = some "leave" ∧ leaveAllowed event state store = true) ∨
      (membership event = some "ban" ∧ banAllowed event state store = true) ∨
      (membership event = some "knock" ∧ knockAllowed event state store = true) := by
  rw [membershipRules, if_neg (not_not.mpr member)] at authorised
  cases content : membership event with
  | none => simp [content] at authorised
  | some membership =>
    simp only [content] at authorised
    by_cases join : membership = "join"
    · subst join
      exact .inl ⟨rfl, by simpa using authorised⟩
    · by_cases invite : membership = "invite"
      · subst invite
        exact .inr (.inl ⟨rfl, by simpa using authorised⟩)
      · by_cases leave : membership = "leave"
        · subst leave
          exact .inr (.inr (.inl ⟨rfl, by simpa using authorised⟩))
        · by_cases ban : membership = "ban"
          · subst ban
            exact .inr (.inr (.inr (.inl ⟨rfl, by simpa using authorised⟩)))
          · by_cases knock : membership = "knock"
            · subst knock
              exact .inr (.inr (.inr (.inr ⟨rfl, by simpa using authorised⟩)))
            · simp [join, invite, leave, ban, knock] at authorised

theorem join_allowed_own (allowed : joinAllowed event state store = true) :
    sender event = stateKey event ∧ membershipOf (stateKey event) state store ≠ "ban" := by
  by_contra other
  simp [joinAllowed, other] at allowed

theorem invite_allowed_spec (allowed : inviteAllowed event state store = true) :
    membershipOf (sender event) state store = "join" ∧ membershipOf (stateKey event) state store ≠ "join" ∧
    membershipOf (stateKey event) state store ≠ "ban" := by
  simp only [inviteAllowed, Bool.and_eq_true, beq_iff_eq, Bool.not_eq_true', Bool.or_eq_false_iff,
    beq_eq_false_iff_ne] at allowed
  exact ⟨allowed.1.1, allowed.1.2.1, allowed.1.2.2⟩

theorem leave_allowed_banned (allowed : leaveAllowed event state store = true)
    (banned : membershipOf (stateKey event) state store = "ban") : membershipOf (sender event) state store = "join" ∧
    (currentPowerLevels state store).kick ≤ (currentPowerLevels state store).forUser (sender event) ∧
      (currentPowerLevels state store).forUser (stateKey event) < (currentPowerLevels state store).forUser (sender event) := by
  by_cases own : sender event = stateKey event
  · simp [leaveAllowed, own, banned] at allowed
  · simpa [leaveAllowed, own, and_assoc] using allowed

theorem knock_allowed_not_banned (allowed : knockAllowed event state store = true) :
    membershipOf (stateKey event) state store ≠ "ban" := by
  intro banned
  simp [knockAllowed, banned] at allowed

theorem slot_member (slot : slotOf event = memberKey user) : eventType event = memberType ∧ stateKey event = user :=
  ⟨congrArg Prod.fst slot, congrArg Prod.snd slot⟩

def UnbansWithBanPower (store : EventStore E) (events : List EventId) (base : StateMap) (user : String) : Prop :=
  ∀ state id event, Checked store membershipRules events base state id event → slotOf event = memberKey user →
    membership event = some "leave" → membershipOf user state store = "ban" →
    membershipOf (sender event) state store = "join" →
    (currentPowerLevels state store).kick ≤ (currentPowerLevels state store).forUser (sender event) →
    (currentPowerLevels state store).forUser user < (currentPowerLevels state store).forUser (sender event) →
    (currentPowerLevels state store).ban ≤ (currentPowerLevels state store).forUser (sender event)

theorem ban_left_by_leave (read : store[id]? = some event) (authorised : membershipRules event state store = true)
    (banned : membershipOf user state store = "ban")
    (lifted : membershipOf user (state.insert (slotOf event) id) store ≠ "ban") :
    slotOf event = memberKey user ∧ membership event = some "leave" ∧ leaveAllowed event state store = true := by
  by_cases slot : slotOf event = memberKey user
  · obtain ⟨member, target⟩ := slot_member event user slot
    have targetBanned : membershipOf (stateKey event) state store = "ban" := by rw [target, banned]
    rw [slot, membership_taken user state store read] at lifted
    rcases membership_rules_cases event state store member authorised with
      ⟨content, allowed⟩ | ⟨content, allowed⟩ | ⟨content, allowed⟩ | ⟨content, allowed⟩ | ⟨content, allowed⟩
    · exact absurd targetBanned (join_allowed_own event state store allowed).2
    · exact absurd targetBanned (invite_allowed_spec event state store allowed).2.2
    · exact ⟨slot, content, allowed⟩
    · simp [content] at lifted
    · exact absurd targetBanned (knock_allowed_not_banned event state store allowed)
  · rw [membership_elsewhere user state store slot] at lifted
    exact absurd banned lifted

theorem unban_needs_ban_power (store : EventStore E) (base : StateMap) (events : List EventId) (user : String)
    (guarded : UnbansWithBanPower store events base user) (banned : membershipOf user base store = "ban")
    (lifted : membershipOf user (iterativeAuthChecks events base store membershipRules) store ≠ "ban") :
    ∃ state id event, Authorised store membershipRules events base state id event ∧ slotOf event = memberKey user ∧
    membershipOf (sender event) state store = "join" ∧
      (currentPowerLevels state store).ban ≤ (currentPowerLevels state store).forUser (sender event) ∧
      (currentPowerLevels state store).forUser user < (currentPowerLevels state store).forUser (sender event) := by
  obtain ⟨state, id, event, authorised, stillBanned, free⟩ := auth_checks_broken store membershipRules events base
    (fun state => membershipOf user state store = "ban") banned lifted
  have read := (checked_listed authorised.1).2
  obtain ⟨slot, content, allowed⟩ := ban_left_by_leave event id state store user read authorised.2 stillBanned free
  obtain ⟨member, target⟩ := slot_member event user slot
  obtain ⟨joined, kick, above⟩ := leave_allowed_banned event state store allowed (by rw [target, stillBanned])
  rw [target] at above
  exact ⟨state, id, event, authorised, slot, joined,
    guarded state id event authorised.1 slot content stillBanned joined kick above, above⟩

def modLevels : PowerLevels :=
  { (default : PowerLevels) with
    users := extend ∅ [("@admin", 100), ("@mod", 30)]
    stateDefault := 50
    kick := 20
    ban := 50 }

def memberEvent (id sender target membership : String) (auth : List EventId) : StateEvent :=
  { StateEvent.new id memberType sender with stateKey := target, membership := some membership, authEventIds := auth }

def banStore : EventStore StateEvent :=
  storeOf [{ StateEvent.new "$pl" powerLevelsType "@admin" with powerLevels := some modLevels },
    memberEvent "$aj" "@admin" "@admin" "join" ["$c"], memberEvent "$mj" "@mod" "@mod" "join" ["$c"],
    memberEvent "$ban" "@admin" "@bob" "ban" ["$pl", "$aj"], memberEvent "$lift" "@mod" "@bob" "leave" ["$pl", "$mj"],
    memberEvent "$pardon" "@admin" "@bob" "leave" ["$pl", "$aj"]]

def banState : StateMap :=
  extend ∅ [(powerLevelsKey, "$pl"), (memberKey "@admin", "$aj"), (memberKey "@mod", "$mj"), (memberKey "@bob", "$ban")]

theorem kick_power_lifts_ban : membershipOf "@bob" banState banStore = "ban" ∧
      membershipOf "@bob" (iterativeAuthChecks ["$lift"] banState banStore membershipRules) banStore ≠ "ban" ∧
      ¬ ∃ state id event, Authorised banStore membershipRules ["$lift"] banState state id event ∧
        slotOf event = memberKey "@bob" ∧ membershipOf (sender event) state banStore = "join" ∧
        (currentPowerLevels state banStore).ban ≤ (currentPowerLevels state banStore).forUser (sender event) ∧
        (currentPowerLevels state banStore).forUser "@bob" < (currentPowerLevels state banStore).forUser (sender event) := by
  refine ⟨by decide, by decide, ?_⟩
  intro ⟨state, id, event, ⟨checked, pass⟩, slot, joined, power, above⟩
  obtain ⟨rfl, rfl, read⟩ := (checked_single _ _).mp checked
  have same : some event = some (memberEvent "$lift" "@mod" "@bob" "leave" ["$pl", "$mj"]) :=
    read.symm.trans (by decide)
  cases same
  revert power
  decide

theorem pardon_needs_ban_power :
    membershipOf "@bob" (iterativeAuthChecks ["$pardon"] banState banStore membershipRules) banStore ≠ "ban" ∧
      ∃ state id event, Authorised banStore membershipRules ["$pardon"] banState state id event ∧
        slotOf event = memberKey "@bob" ∧ membershipOf (sender event) state banStore = "join" ∧
        (currentPowerLevels state banStore).ban ≤ (currentPowerLevels state banStore).forUser (sender event) ∧
        (currentPowerLevels state banStore).forUser "@bob" < (currentPowerLevels state banStore).forUser (sender event) := by
  refine ⟨by decide, unban_needs_ban_power banStore banState ["$pardon"] "@bob" ?_ (by decide) (by decide)⟩
  intro state id event checked slot content banned joined kick above
  obtain ⟨rfl, rfl, read⟩ := (checked_single _ _).mp checked
  have same : some event = some (memberEvent "$pardon" "@admin" "@bob" "leave" ["$pl", "$aj"]) :=
    read.symm.trans (by decide)
  cases same
  decide

def NoBootstrapReturn (store : EventStore E) (events : List EventId) (base : StateMap) (user : String) : Prop :=
  ∀ state id event, Checked store membershipRules events base state id event → slotOf event = memberKey user →
    membership event = some "join" → sender event = user → membershipOf user state store ≠ "join" →
    membershipOf user state store ≠ "invite" → membershipOf user state store ≠ "ban" → isBootstrapJoin event state store = false

theorem join_allowed_invite_rule (allowed : joinAllowed event state store = true)
    (noBootstrap : isBootstrapJoin event state store = false) (rule : currentJoinRule state store = "invite") :
    membershipOf (stateKey event) state store = "invite" ∨ membershipOf (stateKey event) state store = "join" := by
  by_contra outside
  simp [joinAllowed, noBootstrap, rule, outside] at allowed

def Outside (store : EventStore E) (user : String) (state : StateMap) : Prop :=
  currentJoinRule state store = "invite" ∧ membershipOf user state store ≠ "join" ∧
    membershipOf user state store ≠ "invite"

theorem outside_kept (read : store[id]? = some event) (authorised : membershipRules event state store = true)
    (notRules : eventType event ≠ joinRulesType) (noBootstrap : slotOf event = memberKey user → membership event = some
    "join" → sender event = user → membershipOf user state store ≠ "ban" → isBootstrapJoin event state store = false)
    (notInvite : slotOf event = memberKey user → membership event ≠ some "invite")
    (outside : Outside store user state) : Outside store user (state.insert (slotOf event) id) := by
  obtain ⟨rule, notJoined, notInvited⟩ := outside
  have otherSlot : slotOf event ≠ joinRulesKey := fun same => notRules (congrArg Prod.fst same)
  have sameRule := (join_rule_elsewhere state store id otherSlot).trans rule
  by_cases slot : slotOf event = memberKey user
  · obtain ⟨member, target⟩ := slot_member event user slot
    refine ⟨sameRule, ?_⟩
    rw [slot, membership_taken user state store read]
    rcases membership_rules_cases event state store member authorised with
      ⟨content, allowed⟩ | ⟨content, allowed⟩ | ⟨content, allowed⟩ | ⟨content, allowed⟩ | ⟨content, allowed⟩
    · obtain ⟨own, notBanned⟩ := join_allowed_own event state store allowed
      rw [target] at own notBanned
      have inside := join_allowed_invite_rule event state store allowed (noBootstrap slot content own notBanned) rule
      rw [target] at inside
      exact absurd inside (not_or.mpr ⟨notInvited, notJoined⟩)
    · exact absurd content (notInvite slot)
    · simp [content]
    · simp [content]
    · simp [content]
  · refine ⟨sameRule, ?_⟩
    rw [membership_elsewhere user state store slot]
    exact ⟨notJoined, notInvited⟩

theorem invite_only_join_needs_invite (store : EventStore E) (base : StateMap) (events : List EventId) (user : String)
    (noBootstrap : NoBootstrapReturn store events base user) (rule : currentJoinRule base store = "invite")
    (left : ∃ id event, base[memberKey user]? = some id ∧ store[id]? = some event ∧ membership event = some "leave")
    (noRules : ∀ id ∈ events, ∀ event, store[id]? = some event → eventType event ≠ joinRulesType)
    (joined : membershipOf user (iterativeAuthChecks events base store membershipRules) store = "join") :
    ∃ state id event, Authorised store membershipRules events base state id event ∧ slotOf event = memberKey user ∧
      membership event = some "invite" ∧ membershipOf (sender event) state store = "join" := by
  by_contra uninvited
  have start : Outside store user base := by
    obtain ⟨id, event, held, read, content⟩ := left
    have leave : membershipOf user base store = "leave" := by
      rw [membershipOf, held, Option.bind_some, read, Option.bind_some, content, Option.getD_some]
    exact ⟨rule, by simp [leave], by simp [leave]⟩
  have kept : Outside store user (iterativeAuthChecks events base store membershipRules) := by
    refine auth_checks_invariant (Outside store user) start ?_
    intro state id event authorised outside
    obtain ⟨member, read⟩ := checked_listed authorised.1
    refine outside_kept event id state store user read authorised.2 (noRules id member event read)
      (fun slot content own => noBootstrap state id event authorised.1 slot content own outside.2.1 outside.2.2)
      (fun slot content => ?_) outside
    obtain ⟨memberTyped, target⟩ := slot_member event user slot
    rcases membership_rules_cases event state store memberTyped authorised.2 with
      ⟨other, _⟩ | ⟨_, allowed⟩ | ⟨other, _⟩ | ⟨other, _⟩ | ⟨other, _⟩
    · simp [content] at other
    · exact uninvited ⟨state, id, event, authorised, slot, content, (invite_allowed_spec event state store allowed).1⟩
    · simp [content] at other
    · simp [content] at other
    · simp [content] at other
  exact kept.2.1 joined

def doorStore : EventStore StateEvent := storeOf [StateEvent.new "$c" createType "@creator",
    { StateEvent.new "$jr" joinRulesType "@admin" with joinRule := some "invite" },
    memberEvent "$cj" "@creator" "@creator" "join" ["$c"], memberEvent "$aj" "@admin" "@admin" "join" ["$c", "$ai"],
    memberEvent "$kick" "@admin" "@creator" "leave" ["$c", "$aj"], memberEvent "$bl" "@bob" "@bob" "leave" ["$c"],
    memberEvent "$inv" "@admin" "@bob" "invite" ["$c", "$aj"], memberEvent "$bj" "@bob" "@bob" "join" ["$c", "$inv"]]

def doorState : StateMap := extend ∅ [(createKey, "$c"), (joinRulesKey, "$jr"), (memberKey "@admin", "$aj"),
    (memberKey "@creator", "$kick"), (memberKey "@bob", "$bl")]

theorem kicked_creator_returns : currentJoinRule doorState doorStore = "invite" ∧
      (∃ id event, doorState[memberKey "@creator"]? = some id ∧ doorStore[id]? = some event ∧ membership event = some "leave") ∧
      (∀ id ∈ ["$cj"], ∀ event, doorStore[id]? = some event → eventType event ≠ joinRulesType) ∧
      membershipOf "@creator" (iterativeAuthChecks ["$cj"] doorState doorStore membershipRules) doorStore = "join" ∧
      ¬ ∃ state id event, Authorised doorStore membershipRules ["$cj"] doorState state id event ∧
      slotOf event = memberKey "@creator" ∧ membership event = some "invite" ∧
        membershipOf (sender event) state doorStore = "join" := by
  have rejoin : doorStore["$cj"]? = some (memberEvent "$cj" "@creator" "@creator" "join" ["$c"]) := by decide
  refine ⟨by decide, ⟨"$kick", _, by decide, rfl, by decide⟩, ?_, by decide, ?_⟩
  · intro id member event read
    rw [List.mem_singleton.mp member, rejoin] at read
    cases read
    decide
  · intro ⟨state, id, event, ⟨checked, pass⟩, slot, content, joined⟩
    obtain ⟨rfl, rfl, read⟩ := (checked_single _ _).mp checked
    rw [rejoin] at read
    cases read
    revert content
    decide

theorem invited_bob_joins :
    membershipOf "@bob" (iterativeAuthChecks ["$inv", "$bj"] doorState doorStore membershipRules) doorStore = "join" ∧
      ∃ state id event, Authorised doorStore membershipRules ["$inv", "$bj"] doorState state id event ∧
      slotOf event = memberKey "@bob" ∧ membership event = some "invite" ∧
        membershipOf (sender event) state doorStore = "join" := by
  have invite : doorStore["$inv"]? = some (memberEvent "$inv" "@admin" "@bob" "invite" ["$c", "$aj"]) := by decide
  have join : doorStore["$bj"]? = some (memberEvent "$bj" "@bob" "@bob" "join" ["$c", "$inv"]) := by decide
  refine ⟨by decide, invite_only_join_needs_invite doorStore doorState ["$inv", "$bj"] "@bob" ?_ (by decide)
    ⟨"$bl", _, by decide, rfl, by decide⟩ ?_ (by decide)⟩
  · intro state id event checked slot content own notJoined notInvited notBanned
    rcases (checked_cons _ _).mp checked with ⟨rfl, rfl, read⟩ | later
    · rw [invite] at read
      cases read
      decide
    · obtain ⟨rfl, rfl, read⟩ := (checked_single _ _).mp later
      rw [join] at read
      cases read
      decide
  · intro id member event read
    rcases List.mem_cons.mp member with rfl | last
    · rw [invite] at read
      cases read
      decide
    · rw [List.mem_singleton.mp last, join] at read
      cases read
      decide

end GaussMatrix.StateRes

import GaussMatrix.Library.Footprint
import GaussMatrix.Library.Worklist
import GaussMatrix.Rooms.RoomPowerLevels

namespace GaussMatrix.Rooms

open Collections Footprint Outcome RoomMemberEventContent RoomPowerLevelsEventOption StateRes Worklist

def thirdPartyInviteType : String := "m.room.third_party_invite"
def aliasesType : String := "m.room.aliases"
def redactionType : String := "m.room.redaction"

def thirdPartyInviteKey (token : String) : StateKey := (thirdPartyInviteType, token)

section

variable {Content : Type} [AuthView Content]

section

variable (authTypes : List StateKey) (membership : MembershipState)

def pushJoinRules : List StateKey := if membership = .join ∨ membership = .invite ∨
    membership = .knock then pushNew authTypes joinRulesKey else authTypes

def pushThirdPartyInvite (content : Content) : Except Error (List StateKey) := do
  if membership = .invite then
    match ← thirdPartyInvite content with
    | some signed =>
      let token ← ThirdPartyInvite.token Content signed
      .ok (pushNew authTypes (thirdPartyInviteKey token))
    | none => .ok authTypes
  else .ok authTypes

def pushAuthorised (content : Content) (rules : AuthorizationRules) : Except Error (List StateKey) := do
  if membership = .join ∧ rules.restrictedJoinRule = true then
    match ← joinAuthorisedViaUsersServer content with
    | some user => .ok (pushNew authTypes (memberKey user))
    | none => .ok authTypes
  else .ok authTypes

end

def authTypesForMemberEvent (authTypes : List StateKey) (stateKey : Option String) (content : Content)
    (rules : AuthorizationRules) : Except Error (List StateKey) := do
  match stateKey with
  | none => .error (plainError "missing `state_key` field for `m.room.member` event")
  | some stateKey =>
    let membership ← RoomMemberEventContent.membership content
    let withInvite ← pushThirdPartyInvite (pushJoinRules (pushNew authTypes (memberKey stateKey)) membership) membership content
    pushAuthorised withInvite membership content rules

def authTypesForEvent (eventType sender : String) (stateKey : Option String) (content : Content)
    (rules : AuthorizationRules) (alwaysCreate : Bool) : Except Error (List StateKey) :=
  let authTypes :=
    if eventType = createType then []
    else (if !rules.roomCreateEventIdAsRoomId || alwaysCreate then [createKey] else []) ++ [powerLevelsKey, memberKey sender]
  if eventType = memberType then authTypesForMemberEvent authTypes stateKey content rules else .ok authTypes

abbrev StateLookup (Content A : Type) := Lookup StateKey (Pdu Content) Error A

def roomCreateEvent : StateLookup Content (Pdu Content) := do
  match ← outcome createKey with
  | .ok event => pure event
  | .error error =>
    let text := error.message
    throw (plainError s!"no `m.room.create` event in current state: {text}")

def userMembership (user : String) : StateLookup Content MembershipState := do
  match ← outcome (memberKey user) with
  | .ok event => RoomMemberEventContent.membership event.content
  | .error _ => pure .leave

def roomPowerLevelsEvent : StateLookup Content (Option (Pdu Content)) := do
  match ← outcome powerLevelsKey with
  | .ok event => pure (some event)
  | .error _ => pure none

def currentJoinRule : StateLookup Content JoinRule := do
  match ← outcome joinRulesKey with
  | .ok event => RoomJoinRulesEvent.joinRule event
  | .error error =>
    let text := error.message
    throw (plainError s!"no `m.room.join_rules` event in current state: {text}")

def roomThirdPartyInviteEvent (token : String) : StateLookup Content (Option (Pdu Content)) := do
  match ← outcome (thirdPartyInviteKey token) with
  | .ok event => pure (some event)
  | .error _ => pure none

end

-- The lookups that the source makes at once, before it looks at the first of their
-- results, stand here where each result is used: a lookup changes nothing.
section

variable {Content : Type} [AuthView Content]

def checkRoomMemberJoin (event : Pdu Content) (targetUser : String) (rules : AuthorizationRules)
    (create : Pdu Content) : StateLookup Content Unit := do
  let creator ← RoomCreateEvent.creator create rules
  let creators ← RoomCreateEvent.creators create rules
  if event.prevEvents = [create.eventId] ∧ targetUser = creator then pure ()
  else
    rejectIf (event.sender != targetUser) (plainError "sender of join event must match target user")
    let currentMembership ← userMembership targetUser
    rejectIf (currentMembership = .ban) (plainError "banned user cannot join room")
    let joinRule ← currentJoinRule
    let invited : Bool := currentMembership = .invite ∨ currentMembership = .join
    if (joinRule = .invite ∨ rules.knocking = true ∧ joinRule = .knock) ∧ invited = true then pure ()
    else if rules.restrictedJoinRule = true ∧ joinRule = .restricted ∨ rules.knockRestrictedJoinRule = true ∧ joinRule = .knockRestricted then
      if invited = true then pure ()
      else
        match ← (joinAuthorisedViaUsersServer event.content : Except Error (Option String)) with
        | none =>
          throw (plainError "cannot join restricted room without `join_authorised_via_users_server` field if not invited")
        | some authorizedViaUser =>
          let membership ← userMembership authorizedViaUser
          rejectIf (membership != .join) (plainError "`join_authorised_via_users_server` is not joined")
          let levels ← roomPowerLevelsEvent
          let level ← userPowerLevel levels authorizedViaUser creators rules
          let invite ← getAsIntOrDefault levels .invite rules
          rejectIf (level.below invite) (plainError "`join_authorised_via_users_server` does not have enough power")
    else rejectIf (joinRule != .publicRule) (plainError "cannot join a room that is not `public`")

def verifiesSignature (Content : Type) [AuthView Content] (publicKeys : List String) (signed : Bytes)
    (entry : String × CanonicalJson) : Bool :=
  match AuthView.keyAlgorithm Content entry.1, (ThirdPartyInvite.asStr entry.2).bind (AuthView.base64 Content) with
  | some algorithm, some signature => publicKeys.any fun encoded =>
    match AuthView.decodePublicKey Content encoded with
    | some publicKey => AuthView.verifyCanonicalJsonBytes Content algorithm publicKey signature signed
    | none => false
  | _, _ => false

def checkSignatures (Content : Type) [AuthView Content] (publicKeys : List String) (signed : Bytes) :
    List CanonicalJson → Except Error Unit
  | [] =>
    .error (plainError "no signature on third-party invite matches a public key in `m.room.third_party_invite` event")
  | value :: rest =>
    match ThirdPartyInvite.asObject value with
    | some entries => if entries.any (verifiesSignature Content publicKeys signed) then .ok () else checkSignatures Content publicKeys signed rest
    | none =>
      let got := AuthView.debug Content value
      .error (invalidParam s!"unexpected format of `signatures` field in `third_party_invite.signed` of `m.room.member` event: expected a map of string to object, got {got}")

section

variable (event : Pdu Content)

def checkThirdPartyInvite (signed : List (String × CanonicalJson)) (targetUser : String) : StateLookup Content Unit :=
  do
  let currentTargetUserMembership ← userMembership targetUser
  rejectIf (currentTargetUserMembership = .ban) (plainError "cannot invite user that is banned")
  let token ← ThirdPartyInvite.token Content signed
  let mxid ← ThirdPartyInvite.mxid Content signed
  rejectIf (targetUser != mxid) (plainError "third-party invite mxid does not match target user")
  match ← roomThirdPartyInviteEvent token with
  | none => throw (plainError "no `m.room.third_party_invite` in room state matches the token")
  | some inviteEvent =>
    rejectIf (event.sender != inviteEvent.sender)
      (plainError "sender of `m.room.third_party_invite` does not match sender of `m.room.member`")
    let signatures ← ThirdPartyInvite.signatures Content signed
    let publicKeys ← RoomThirdPartyInviteEvent.publicKeys inviteEvent
    let signedCanonicalJson ← ThirdPartyInvite.signedCanonicalJson Content signed
    checkSignatures Content publicKeys.toList signedCanonicalJson (signatures.map Prod.snd)

def checkRoomMemberInvite (targetUser : String) (rules : AuthorizationRules) (create : Pdu Content) :
    StateLookup Content Unit := do
  match ← (thirdPartyInvite event.content : Except Error _) with
  | some signed => checkThirdPartyInvite event signed targetUser
  | none =>
    let senderMembership ← userMembership event.sender
    rejectIf (senderMembership != .join) (plainError "cannot invite user if sender is not joined")
    let targetMembership ← userMembership targetUser
    rejectIf (targetMembership = .join ∨ targetMembership = .ban) (plainError "cannot invite user that is joined or banned")
    let creators ← RoomCreateEvent.creators create rules
    let levels ← roomPowerLevelsEvent
    let senderPowerLevel ← userPowerLevel levels event.sender creators rules
    let invitePowerLevel ← getAsIntOrDefault levels .invite rules
    rejectIf (senderPowerLevel.below invitePowerLevel) (plainError "sender does not have enough power to invite")

def checkRoomMemberLeave (targetUser : String) (rules : AuthorizationRules) (create : Pdu Content) :
    StateLookup Content Unit := do
  let senderMembership ← userMembership event.sender
  if event.sender = targetUser then
    rejectIf (!decide (senderMembership = .join ∨ senderMembership = .invite ∨ rules.knocking = true ∧ senderMembership = .knock))
      (plainError "cannot leave if not joined, invited or knocked")
  else
    rejectIf (senderMembership != .join) (plainError "cannot kick if sender is not joined")
    let creators ← RoomCreateEvent.creators create rules
    let targetMembership ← userMembership targetUser
    let levels ← roomPowerLevelsEvent
    let senderPowerLevel ← userPowerLevel levels event.sender creators rules
    let banPowerLevel ← getAsIntOrDefault levels .ban rules
    rejectIf (targetMembership = .ban ∧ senderPowerLevel.below banPowerLevel = true) (plainError "sender does not have enough power to unban")
    let kickPowerLevel ← getAsIntOrDefault levels .kick rules
    let targetPowerLevel ← userPowerLevel levels targetUser creators rules
    rejectIf (!decide (senderPowerLevel.below kickPowerLevel = false ∧ targetPowerLevel.cmp senderPowerLevel = .lt))
      (plainError "sender does not have enough power to kick target user")

def checkRoomMemberBan (targetUser : String) (rules : AuthorizationRules) (create : Pdu Content) :
    StateLookup Content Unit := do
  let senderMembership ← userMembership event.sender
  rejectIf (senderMembership != .join) (plainError "cannot ban if sender is not joined")
  let creators ← RoomCreateEvent.creators create rules
  let levels ← roomPowerLevelsEvent
  let senderPowerLevel ← userPowerLevel levels event.sender creators rules
  let banPowerLevel ← getAsIntOrDefault levels .ban rules
  let targetPowerLevel ← userPowerLevel levels targetUser creators rules
  rejectIf (!decide (senderPowerLevel.below banPowerLevel = false ∧ targetPowerLevel.cmp senderPowerLevel = .lt))
    (plainError "sender does not have enough power to ban target user")

def checkRoomMemberKnock (targetUser : String) (rules : AuthorizationRules) : StateLookup Content Unit := do
  let joinRule ← currentJoinRule
  rejectIf (!decide (joinRule = .knock ∨ rules.knockRestrictedJoinRule = true ∧ joinRule = .knockRestricted))
    (plainError "join rule is not set to knock or knock_restricted, knocking is not allowed")
  rejectIf (event.sender != targetUser) (plainError "cannot make another user knock, sender does not match target user")
  let senderMembership ← userMembership event.sender
  rejectIf (senderMembership = .ban ∨ senderMembership = .invite ∨ senderMembership = .join)
    (plainError "cannot knock if user is banned, invited or joined")

def checkRoomMember (rules : AuthorizationRules) (create : Pdu Content) : StateLookup Content Unit := do
  match event.stateKey with
  | none => throw (plainError "missing `state_key` field in `m.room.member` event")
  | some targetUser =>
    (describe (AuthView.userId Content targetUser) fun e => plainError s!"invalid `state_key` field in `m.room.member` event: {e}")
    let federate ← RoomCreateEvent.federate create
    rejectIf (!federate && serverName targetUser != serverName create.sender)
      (plainError "MSC4361: room is not federated and target user domain does not match `m.room.create` event's sender domain")
    match ← (RoomMemberEventContent.membership event.content : Except Error MembershipState) with
    | .join => checkRoomMemberJoin event targetUser rules create
    | .invite => checkRoomMemberInvite event targetUser rules create
    | .leave => checkRoomMemberLeave event targetUser rules create
    | .ban => checkRoomMemberBan event targetUser rules create
    | .knock =>
      if rules.knocking = true then checkRoomMemberKnock event targetUser rules else throw (plainError "unknown membership")
    | .custom _ => throw (plainError "unknown membership")

end

def UserPowerLevel.debug : UserPowerLevel → String
  | .int level => s!"Int({level})"
  | .infinite => "Infinite"

def checkRoomRedaction (event : Pdu Content) (current : Option (Pdu Content)) (rules : AuthorizationRules)
    (senderLevel : UserPowerLevel) : Except Error Unit := do
  let redactLevel ← getAsIntOrDefault current .redact rules
  if senderLevel.below redactLevel = false then .ok ()
  else if eventServerName event.eventId = (AuthView.redacts event).bind eventServerName then .ok ()
  else .error (plainError "`m.room.redaction` event did not pass any of the allow rules")

def checkStateDependentAuthRules (rules : AuthorizationRules) (event : Pdu Content) : StateLookup Content Unit := do
  if event.kind = createType then pure ()
  else
    let create ← roomCreateEvent
    let federate ← RoomCreateEvent.federate create
    rejectIf (!federate && serverName create.sender != serverName event.sender)
      (plainError "room is not federated and event's sender domain does not match `m.room.create` event's sender domain")
    if rules.specialCaseRoomAliases = true ∧ event.kind = aliasesType then
      rejectIf (event.stateKey != some (serverName event.sender))
        (plainError "server name of the `state_key` of `m.room.aliases` event does not match the server name of the sender")
    else if event.kind = memberType then checkRoomMember event rules create
    else
      let senderMembership ← userMembership event.sender
      let membership := senderMembership.asStr
      rejectIf (senderMembership != .join) (plainError s!"sender's membership `{membership}` is not `join`")
      let creators ← RoomCreateEvent.creators create rules
      let levels ← roomPowerLevelsEvent
      let senderPowerLevel ← userPowerLevel levels event.sender creators rules
      let senderText := senderPowerLevel.debug
      if event.kind = thirdPartyInviteType then
        let invitePowerLevel ← getAsIntOrDefault levels .invite rules
        rejectIf (senderPowerLevel.below invitePowerLevel)
          (plainError
          s!"sender does not have enough power ({senderText}) to send invites ({invitePowerLevel}) in this room")
      else
        let eventTypePowerLevel ← eventPowerLevel levels event.kind event.stateKey rules
        let kind := event.kind
        rejectIf (senderPowerLevel.below eventTypePowerLevel)
          (plainError
          s!"sender does not have enough power ({senderText}) for `{kind}` event type ({eventTypePowerLevel})")
        rejectIf (event.stateKey.any (fun key => key.startsWith "@") && event.stateKey != some event.sender)
          (plainError "sender cannot send event with `state_key` matching another user's ID")
        if event.kind = powerLevelsType then checkRoomPowerLevels event levels rules senderPowerLevel creators
        else if rules.specialCaseRoomRedaction = true ∧ event.kind = redactionType then checkRoomRedaction event levels rules senderPowerLevel
        else pure ()

end

section

variable {Content : Type} {keys : Set StateKey}

theorem room_create_event_reads (declared : createKey ∈ keys) :
    ReadsOnly keys (roomCreateEvent : StateLookup Content (Pdu Content)) :=
  reads_outcome_bind declared (fun _ => reads_pure) fun _ _ _ _ => rfl

theorem power_levels_event_reads (declared : powerLevelsKey ∈ keys) :
    ReadsOnly keys (roomPowerLevelsEvent : StateLookup Content (Option (Pdu Content))) :=
  reads_outcome_bind declared (fun _ => reads_pure) fun _ _ _ _ => rfl

theorem third_party_invite_event_reads {token : String} (declared : thirdPartyInviteKey token ∈ keys) :
    ReadsOnly keys (roomThirdPartyInviteEvent token : StateLookup Content (Option (Pdu Content))) :=
  reads_outcome_bind declared (fun _ => reads_pure) fun _ _ _ _ => rfl

variable [AuthView Content]

theorem user_membership_reads {user : String} (declared : memberKey user ∈ keys) :
    ReadsOnly keys (userMembership user : StateLookup Content MembershipState) :=
  reads_outcome_bind declared (fun _ => reads_lift) fun _ _ _ _ => rfl

theorem join_rule_reads (declared : joinRulesKey ∈ keys) :
    ReadsOnly keys (currentJoinRule : StateLookup Content JoinRule) :=
  reads_outcome_bind declared (fun _ => reads_lift) fun _ _ _ _ => rfl

variable {event : Pdu Content} {targetUser : String} {rules : AuthorizationRules} {create : Pdu Content}

theorem member_join_reads (levels : powerLevelsKey ∈ keys) (joinRules : joinRulesKey ∈ keys)
    (target : memberKey targetUser ∈ keys)
    (implied : rules.knockRestrictedJoinRule = true → rules.restrictedJoinRule = true)
    (authorised : rules.restrictedJoinRule = true →
    ∀ user, joinAuthorisedViaUsersServer event.content = .ok (some user) → memberKey user ∈ keys) :
    ReadsOnly keys (checkRoomMemberJoin event targetUser rules create) := by
  refine reads_bind reads_lift fun creator => ?_
  refine reads_bind reads_lift fun creators => ?_
  refine reads_ite (fun _ => reads_pure) fun _ => ?_
  refine reads_bind reads_reject fun _ => ?_
  refine reads_bind (user_membership_reads target) fun currentMembership => ?_
  refine reads_bind reads_reject fun _ => ?_
  refine reads_bind (join_rule_reads joinRules) fun joinRule => ?_
  refine reads_ite (fun _ => reads_pure) fun _ => ?_
  refine reads_ite (fun limited => ?_) fun _ => reads_reject
  refine reads_ite (fun _ => reads_pure) fun _ => ?_
  refine reads_lift_bind fun authorizedViaUser read => ?_
  have restricted : rules.restrictedJoinRule = true := limited.elim And.left fun knock => implied knock.1
  cases authorizedViaUser with
  | none => exact reads_throw
  | some user =>
    refine reads_bind (user_membership_reads (authorised restricted user read)) fun membership => ?_
    refine reads_bind reads_reject fun _ => ?_
    refine reads_bind (power_levels_event_reads levels) fun levels => ?_
    refine reads_bind reads_lift fun level => ?_
    refine reads_bind reads_lift fun invite => ?_
    exact reads_reject

theorem third_party_invite_reads {signed : List (String × CanonicalJson)} (target : memberKey targetUser ∈ keys)
    (invited : ∀ token, ThirdPartyInvite.token Content signed = .ok token → thirdPartyInviteKey token ∈ keys) :
    ReadsOnly keys (checkThirdPartyInvite event signed targetUser) := by
  refine reads_bind (user_membership_reads target) fun currentMembership => ?_
  refine reads_bind reads_reject fun _ => ?_
  refine reads_lift_bind fun token isToken => ?_
  refine reads_bind reads_lift fun mxid => ?_
  refine reads_bind reads_reject fun _ => ?_
  refine reads_bind (third_party_invite_event_reads (invited token isToken)) fun found => ?_
  cases found with
  | none => exact reads_throw
  | some inviteEvent =>
    refine reads_bind reads_reject fun _ => ?_
    refine reads_bind reads_lift fun signatures => ?_
    refine reads_bind reads_lift fun publicKeys => ?_
    refine reads_bind reads_lift fun signedCanonicalJson => ?_
    exact reads_lift

section

variable (levels : powerLevelsKey ∈ keys) (sender : memberKey event.sender ∈ keys)

include levels sender

theorem member_invite_reads (target : memberKey targetUser ∈ keys)
    (invited : ∀ signed, thirdPartyInvite event.content = .ok (some signed) →
      ∀ token, ThirdPartyInvite.token Content signed = .ok token → thirdPartyInviteKey token ∈ keys) :
    ReadsOnly keys (checkRoomMemberInvite event targetUser rules create) := by
  refine reads_lift_bind fun thirdPartyInvite read => ?_
  cases thirdPartyInvite with
  | some signed => exact third_party_invite_reads target (invited signed read)
  | none =>
    refine reads_bind (user_membership_reads sender) fun senderMembership => ?_
    refine reads_bind reads_reject fun _ => ?_
    refine reads_bind (user_membership_reads target) fun targetMembership => ?_
    refine reads_bind reads_reject fun _ => ?_
    refine reads_bind reads_lift fun creators => ?_
    refine reads_bind (power_levels_event_reads levels) fun levels => ?_
    refine reads_bind reads_lift fun senderPowerLevel => ?_
    refine reads_bind reads_lift fun invitePowerLevel => ?_
    exact reads_reject

theorem member_leave_reads (target : memberKey targetUser ∈ keys) :
    ReadsOnly keys (checkRoomMemberLeave event targetUser rules create) := by
  refine reads_bind (user_membership_reads sender) fun senderMembership => ?_
  refine reads_ite (fun _ => reads_reject) fun _ => ?_
  refine reads_bind reads_reject fun _ => ?_
  refine reads_bind reads_lift fun creators => ?_
  refine reads_bind (user_membership_reads target) fun targetMembership => ?_
  refine reads_bind (power_levels_event_reads levels) fun levels => ?_
  refine reads_bind reads_lift fun senderPowerLevel => ?_
  refine reads_bind reads_lift fun banPowerLevel => ?_
  refine reads_bind reads_reject fun _ => ?_
  refine reads_bind reads_lift fun kickPowerLevel => ?_
  refine reads_bind reads_lift fun targetPowerLevel => ?_
  exact reads_reject

theorem member_ban_reads : ReadsOnly keys (checkRoomMemberBan event targetUser rules create) := by
  refine reads_bind (user_membership_reads sender) fun senderMembership => ?_
  refine reads_bind reads_reject fun _ => ?_
  refine reads_bind reads_lift fun creators => ?_
  refine reads_bind (power_levels_event_reads levels) fun levels => ?_
  refine reads_bind reads_lift fun senderPowerLevel => ?_
  refine reads_bind reads_lift fun banPowerLevel => ?_
  refine reads_bind reads_lift fun targetPowerLevel => ?_
  exact reads_reject

end

theorem member_knock_reads (joinRules : joinRulesKey ∈ keys) (sender : memberKey event.sender ∈ keys) :
    ReadsOnly keys (checkRoomMemberKnock event targetUser rules) := by
  refine reads_bind (join_rule_reads joinRules) fun joinRule => ?_
  refine reads_bind reads_reject fun _ => ?_
  refine reads_bind reads_reject fun _ => ?_
  refine reads_bind (user_membership_reads sender) fun senderMembership => ?_
  exact reads_reject

structure MemberDeclared (event : Pdu Content) (rules : AuthorizationRules) (targetUser : String)
    (membership : MembershipState) (keys : Set StateKey) : Prop where
  target : memberKey targetUser ∈ keys
  joinRules : membership = .join ∨ membership = .invite ∨ membership = .knock → joinRulesKey ∈ keys
  invited : membership = .invite → ∀ signed, thirdPartyInvite event.content = .ok (some signed) →
    ∀ token, ThirdPartyInvite.token Content signed = .ok token → thirdPartyInviteKey token ∈ keys
  authorised : membership = .join → rules.restrictedJoinRule = true →
    ∀ user, joinAuthorisedViaUsersServer event.content = .ok (some user) → memberKey user ∈ keys

variable {event : Pdu Content} {rules : AuthorizationRules} {authTypes pushed : List StateKey}
  {membership : MembershipState}

theorem join_rules_pushed : authTypes ⊆ pushJoinRules authTypes membership ∧
    (membership = .join ∨ membership = .invite ∨ membership = .knock →
    joinRulesKey ∈ pushJoinRules authTypes membership) := by
  rw [pushJoinRules]
  split
  case isTrue => exact ⟨push_new_kept, fun _ => push_new_pushed⟩
  case isFalse other => exact ⟨List.Subset.refl _, fun needed => absurd needed other⟩

theorem third_party_invite_pushed (done : pushThirdPartyInvite authTypes membership event.content = .ok pushed) :
    authTypes ⊆ pushed ∧ (membership = .invite → ∀ signed, thirdPartyInvite event.content = .ok (some signed) →
      ∀ token, ThirdPartyInvite.token Content signed = .ok token → thirdPartyInviteKey token ∈ pushed) := by
  rw [pushThirdPartyInvite] at done
  split at done
  case isFalse other =>
    cases done
    exact ⟨List.Subset.refl _, fun isInvite => absurd isInvite other⟩
  case isTrue =>
    obtain ⟨thirdPartyInvite, read, done⟩ := bind_ok done
    rw [read]
    cases thirdPartyInvite with
    | none =>
      cases done
      exact ⟨List.Subset.refl _, fun _ _ same => nomatch Except.ok.inj same⟩
    | some signed =>
      obtain ⟨token, isToken, done⟩ := bind_ok done
      cases done
      refine ⟨push_new_kept, fun _ other same name isName => ?_⟩
      cases same
      cases isToken.symm.trans isName
      exact push_new_pushed

theorem authorised_pushed (done : pushAuthorised authTypes membership event.content rules = .ok pushed) :
    authTypes ⊆ pushed ∧ (membership = .join → rules.restrictedJoinRule = true → ∀ user,
      joinAuthorisedViaUsersServer event.content = .ok (some user) → memberKey user ∈ pushed) := by
  rw [pushAuthorised] at done
  split at done
  case isFalse other =>
    cases done
    exact ⟨List.Subset.refl _, fun isJoin restricted => absurd ⟨isJoin, restricted⟩ other⟩
  case isTrue =>
    obtain ⟨authorised, read, done⟩ := bind_ok done
    rw [read]
    cases authorised with
    | none =>
      cases done
      exact ⟨List.Subset.refl _, fun _ _ _ same => nomatch Except.ok.inj same⟩
    | some user =>
      cases done
      refine ⟨push_new_kept, fun _ _ other same => ?_⟩
      cases same
      exact push_new_pushed

theorem member_types_declared
    (done : authTypesForMemberEvent authTypes event.stateKey event.content rules = .ok pushed) :
    authTypes ⊆ pushed ∧ ∃ targetUser membership, event.stateKey = some targetUser ∧
      RoomMemberEventContent.membership event.content = .ok membership ∧
      MemberDeclared event rules targetUser membership {key | key ∈ pushed} := by
  cases isTarget : event.stateKey with
  | none =>
    rw [isTarget] at done
    cases done
  | some targetUser =>
    rw [isTarget] at done
    obtain ⟨membership, isMembership, done⟩ := bind_ok done
    obtain ⟨withInvite, inviting, done⟩ := bind_ok done
    obtain ⟨withTarget, joinRules⟩ := join_rules_pushed
    obtain ⟨withRules, invited⟩ := third_party_invite_pushed inviting
    obtain ⟨kept, authorised⟩ := authorised_pushed done
    have early : pushNew authTypes (memberKey targetUser) ⊆ pushed := List.Subset.trans (List.Subset.trans withTarget withRules) kept
    refine ⟨List.Subset.trans push_new_kept early, targetUser, membership, rfl, isMembership, early push_new_pushed, ?_, ?_, authorised⟩
    · exact fun needed => kept (withRules (joinRules needed))
    · exact fun isInvite signed read token isToken => kept (invited isInvite signed read token isToken)

end

section

variable {Content : Type} [AuthView Content] {rules : AuthorizationRules} {event : Pdu Content} {keys : Set StateKey}

theorem room_member_reads {create : Pdu Content} {targetUser : String} {membership : MembershipState}
    (implied : rules.knockRestrictedJoinRule = true → rules.restrictedJoinRule = true) (levels : powerLevelsKey ∈ keys)
    (sender : memberKey event.sender ∈ keys) (isTarget : event.stateKey = some targetUser)
    (isMembership : RoomMemberEventContent.membership event.content = .ok membership)
    (declared : MemberDeclared event rules targetUser membership keys) :
    ReadsOnly keys (checkRoomMember event rules create) := by
  unfold checkRoomMember
  rw [isTarget, isMembership]
  refine reads_bind reads_lift fun _ => ?_
  refine reads_bind reads_lift fun federate => ?_
  refine reads_bind reads_reject fun _ => ?_
  cases membership with
  | join =>
    exact member_join_reads levels (declared.joinRules (by simp)) declared.target implied (declared.authorised rfl)
  | invite => exact member_invite_reads levels sender declared.target (declared.invited rfl)
  | leave => exact member_leave_reads levels sender declared.target
  | ban => exact member_ban_reads levels sender
  | knock => exact reads_ite (fun _ => member_knock_reads (declared.joinRules (by simp)) sender) fun _ => reads_throw
  | custom text => exact reads_throw

theorem dependent_rules_read (create : createKey ∈ keys) (levels : powerLevelsKey ∈ keys)
    (sender : memberKey event.sender ∈ keys)
    (member : event.kind = memberType → ∀ createEvent, ReadsOnly keys (checkRoomMember event rules createEvent)) :
    ReadsOnly keys (checkStateDependentAuthRules rules event) := by
  refine reads_ite (fun _ => reads_pure) fun _ => ?_
  refine reads_bind (room_create_event_reads create) fun createEvent => ?_
  refine reads_bind reads_lift fun federate => ?_
  refine reads_bind reads_reject fun _ => ?_
  refine reads_ite (fun _ => reads_reject) fun _ => ?_
  refine reads_ite (fun isMember => member isMember createEvent) fun _ => ?_
  refine reads_bind (user_membership_reads sender) fun senderMembership => ?_
  refine reads_bind reads_reject fun _ => ?_
  refine reads_bind reads_lift fun creators => ?_
  refine reads_bind (power_levels_event_reads levels) fun levels => ?_
  refine reads_bind reads_lift fun senderPowerLevel => ?_
  refine reads_ite (fun _ => reads_bind reads_lift fun invitePowerLevel => reads_reject) fun _ => ?_
  refine reads_bind reads_lift fun eventTypePowerLevel => ?_
  refine reads_bind reads_reject fun _ => ?_
  refine reads_bind reads_reject fun _ => ?_
  refine reads_ite (fun _ => reads_lift) fun _ => ?_
  exact reads_ite (fun _ => reads_lift) fun _ => reads_pure

theorem event_types_declared {authTypes : List StateKey} (ordinary : event.kind ≠ createType)
    (done : authTypesForEvent event.kind event.sender event.stateKey event.content rules true = .ok authTypes) :
    [createKey, powerLevelsKey, memberKey event.sender] ⊆ authTypes ∧
    (event.kind = memberType → ∃ targetUser membership,
      event.stateKey = some targetUser ∧ RoomMemberEventContent.membership event.content = .ok membership ∧
        MemberDeclared event rules targetUser membership {key | key ∈ authTypes}) := by
  unfold authTypesForEvent at done
  simp only [ordinary, if_false, Bool.or_true, if_true] at done
  split at done
  case isTrue =>
    obtain ⟨kept, declared⟩ := member_types_declared done
    exact ⟨kept, fun _ => declared⟩
  case isFalse other =>
    cases done
    exact ⟨List.Subset.refl _, fun isMember => absurd isMember other⟩

theorem auth_reads_declared_types (rules : AuthorizationRules) (event : Pdu Content) (authTypes : List StateKey)
    (implied : rules.knockRestrictedJoinRule = true → rules.restrictedJoinRule = true)
    (declared : authTypesForEvent event.kind event.sender event.stateKey event.content rules true = .ok authTypes)
    (state other : StateKey → Except Error (Pdu Content)) (agree : ∀ key ∈ authTypes, (state key).toOption = (other key).toOption) :
    (checkStateDependentAuthRules rules event).run state = .ok () ↔ (checkStateDependentAuthRules rules event).run other = .ok () := by
  by_cases isCreate : event.kind = createType
  · rw [checkStateDependentAuthRules, if_pos isCreate]
    exact Iff.rfl
  · obtain ⟨base, member⟩ := event_types_declared isCreate declared
    have levels : powerLevelsKey ∈ authTypes := base (by simp)
    have sender : memberKey event.sender ∈ authTypes := base (by simp)
    have reads : ReadsOnly {key | key ∈ authTypes} (checkStateDependentAuthRules rules event) := by
      refine dependent_rules_read (base (by simp)) levels sender fun isMember createEvent => ?_
      obtain ⟨targetUser, membership, isTarget, isMembership, memberDeclared⟩ := member isMember
      exact room_member_reads implied levels sender isTarget isMembership memberDeclared
    rw [← to_option_ok, ← to_option_ok, reads state other agree]

end

def stateFrom (events : List (Pdu ReadContent)) (key : StateKey) : Except Error (Pdu ReadContent) :=
  match events.find? fun event => event.isTypeAndStateKey key.1 key.2 with
  | some event => .ok event
  | none => .error ⟨.notFound, "no such state"⟩

def restrictedRoom : List (Pdu ReadContent) :=
  [readEvent "$c" createType "@a:x" "" { }, readEvent "$a" memberType "@a:x" "@a:x" { membership := some .join },
   readEvent "$r" joinRulesType "@a:x" "" { joinRule := some .restricted }]

def authorisedJoin : Pdu ReadContent :=
  readEvent "$b" memberType "@b:x" "@b:x" { membership := some .join, joinAuthorised := some "@a:x" }

theorem restricted_join_reads_declared :
    (checkStateDependentAuthRules v11Rules authorisedJoin).run (stateFrom restrictedRoom) = .ok () ∧
      (checkStateDependentAuthRules v11Rules authorisedJoin).run
        (stateFrom (readEvent "$d" memberType "@d:x" "@d:x" { membership := some .ban } :: restrictedRoom)) = .ok () := by
  have accepted : (checkStateDependentAuthRules v11Rules authorisedJoin).run (stateFrom restrictedRoom) = .ok () := by
    decide +kernel
  refine ⟨accepted, (auth_reads_declared_types v11Rules authorisedJoin
    [createKey, powerLevelsKey, memberKey "@b:x", joinRulesKey, memberKey "@a:x"] (fun _ => rfl) (by decide +kernel) _ _ ?_).mp accepted⟩
  decide +kernel

end GaussMatrix.Rooms

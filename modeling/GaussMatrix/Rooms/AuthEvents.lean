import GaussMatrix.Rooms.TopologicalSort

namespace GaussMatrix.Rooms

open Collections StateRes

structure AuthorizationRules where
  specialCaseRoomAliases : Bool
  specialCaseRoomRedaction : Bool
  limitNotificationsPowerLevels : Bool
  knocking : Bool
  restrictedJoinRule : Bool
  knockRestrictedJoinRule : Bool
  integerPowerLevels : Bool
  useRoomCreateSender : Bool
  explicitlyPrivilegeRoomCreators : Bool
  additionalRoomCreators : Bool
  roomCreateEventIdAsRoomId : Bool

inductive MembershipState where
  | ban
  | invite
  | join
  | knock
  | leave
  | custom (text : String)
deriving DecidableEq

def MembershipState.asStr : MembershipState → String
  | .ban => "ban"
  | .invite => "invite"
  | .join => "join"
  | .knock => "knock"
  | .leave => "leave"
  | .custom text => text

inductive JoinRule where
  | publicRule
  | invite
  | knock
  | restricted
  | knockRestricted
  | custom (text : String)
deriving DecidableEq

inductive CanonicalJson where
  | string (text : String)
  | object (fields : List (String × CanonicalJson))
  | other (text : String)

abbrev Bytes := List UInt8

inductive LevelKey where
  | eventType
  | notification
  | userId

-- What serde and ruma read in a content, each with the text of its own error, and
-- the parts of an event and of its ids that they work out.
class AuthView (Content : Type) where
  Value : Type
  object : Content → Except String (String → Option Value)
  int : Value → Except String Int
  v1Powerlevel : Value → Except String Int
  intPowerlevelValues : LevelKey → Value → Except String (List (String × Int))
  v1PowerlevelValues : LevelKey → Value → Except String (List (String × Int))
  federate : Content → Except String (Option Bool)
  creator : Content → Except String String
  additionalCreators : Content → Except String (List String)
  joinRule : Content → Except String JoinRule
  membership : Content → Except String MembershipState
  joinAuthorisedViaUsersServer : Content → Except String (Option String)
  thirdPartyInvite : Content → Except String (Option (List (String × CanonicalJson)))
  publicKeys : Content → Except String (Option String × List String)
  redacts : Pdu Content → Option EventId
  userId : String → Except String Unit
  roomEventId : String → Except String EventId
  debug : CanonicalJson → String
  canonicalForSigning : List (String × CanonicalJson) → Except String Bytes
  keyAlgorithm : String → Option String
  base64 : String → Option Bytes
  decodePublicKey : String → Option Bytes
  verifyCanonicalJsonBytes : String → Bytes → Bytes → Bytes → Bool

def serverName (id : String) : String := ":".intercalate ((id.splitOn ":").drop 1)

def eventServerName (id : EventId) : Option String := if (id.splitOn ":").length = 1 then none else some (serverName id)

def invalidParam (message : String) : Error := ⟨.invalidParam, message⟩

def plainError (message : String) : Error := ⟨.unknown, message⟩

def describe {A : Type} (result : Except String A) (describeError : String → Error) : Except Error A :=
  result.mapError describeError

section

variable {Content : Type} [AuthView Content]

namespace RoomCreateEvent

def federate (event : Pdu Content) : Except Error Bool :=
  (describe (AuthView.federate event.content) fun err =>
    plainError s!"invalid `m.federate` field in `m.room.create` event: {err}").map (·.getD true)

def creator (event : Pdu Content) (rules : AuthorizationRules) : Except Error String :=
  if rules.useRoomCreateSender then .ok event.sender
  else describe (AuthView.creator event.content) fun err =>
    plainError s!"missing or invalid `creator` field in `m.room.create` event: {err}"

def additionalCreators (event : Pdu Content) (rules : AuthorizationRules) : Except Error (List String) :=
  if rules.additionalRoomCreators then
    (describe (AuthView.additionalCreators event.content) fun err =>
      plainError s!"invalid `additional_creators` field in `m.room.create` event: {err}").map
      fun users => (Std.ExtTreeSet.ofList users).toList
  else .ok []

def creators (event : Pdu Content) (rules : AuthorizationRules) : Except Error (List String) := do
  let initial ← creator event rules
  let additional ← additionalCreators event rules
  return initial :: additional

end RoomCreateEvent

def RoomJoinRulesEvent.joinRule (event : Pdu Content) : Except Error JoinRule :=
  describe (AuthView.joinRule event.content) fun err =>
    plainError s!"missing or invalid `join_rule` field in `m.room.join_rules` event: {err}"

namespace RoomMemberEventContent

def membership (content : Content) : Except Error MembershipState := describe (AuthView.membership content) fun err =>
    invalidParam s!"missing or invalid `membership` field in `m.room.member` event: {err}"

def joinAuthorisedViaUsersServer (content : Content) : Except Error (Option String) :=
  describe (AuthView.joinAuthorisedViaUsersServer content) fun err =>
    invalidParam s!"invalid `join_authorised_via_users_server` field in `m.room.member` event: {err}"

def thirdPartyInvite (content : Content) : Except Error (Option (List (String × CanonicalJson))) :=
  describe (AuthView.thirdPartyInvite content) fun err =>
    invalidParam s!"invalid `third_party_invite` field in `m.room.member` event: {err}"

end RoomMemberEventContent

namespace ThirdPartyInvite

variable (Content)

def signedField {A : Type} (signed : List (String × CanonicalJson)) (field expected : String)
    (read : CanonicalJson → Option A) : Except Error A :=
  match signed.lookup field with
  | none => .error (invalidParam s!"missing `{field}` field in `third_party_invite.signed` of `m.room.member` event")
  | some value =>
    match read value with
    | some result => .ok result
    | none =>
      let got := AuthView.debug Content value
      .error (invalidParam s!"unexpected format of `{field}` field in `third_party_invite.signed` of `m.room.member` event: expected {expected}, got {got}")

def asStr : CanonicalJson → Option String
  | .string text => some text
  | _ => none

def asObject : CanonicalJson → Option (List (String × CanonicalJson))
  | .object fields => some fields
  | _ => none

def token (signed : List (String × CanonicalJson)) : Except Error String :=
  signedField Content signed "token" "string" asStr

def mxid (signed : List (String × CanonicalJson)) : Except Error String :=
  signedField Content signed "mxid" "string" asStr

def signatures (signed : List (String × CanonicalJson)) : Except Error (List (String × CanonicalJson)) :=
  signedField Content signed "signatures" "object" asObject

def signedCanonicalJson (signed : List (String × CanonicalJson)) : Except Error Bytes :=
  describe (AuthView.canonicalForSigning Content signed) fun error =>
    invalidParam s!"invalid `third_party_invite.signed` field in `m.room.member` event: {error}"

end ThirdPartyInvite

def RoomThirdPartyInviteEvent.publicKeys (event : Pdu Content) : Except Error (BTreeSet String) :=
  (describe (AuthView.publicKeys event.content) fun err =>
    plainError s!"invalid `public_key` or `public_keys` in `m.room.third_party_invite` event: {err}").map
    fun keys => Std.ExtTreeSet.ofList (keys.1.toList ++ keys.2)

end

inductive RoomPowerLevelsIntField where
  | usersDefault
  | eventsDefault
  | stateDefault
  | ban
  | redact
  | kick
  | invite
deriving DecidableEq

namespace RoomPowerLevelsIntField

def all : List RoomPowerLevelsIntField := [.usersDefault, .eventsDefault, .stateDefault, .ban, .redact, .kick, .invite]

def asStr : RoomPowerLevelsIntField → String
  | .usersDefault => "users_default"
  | .eventsDefault => "events_default"
  | .stateDefault => "state_default"
  | .ban => "ban"
  | .redact => "redact"
  | .kick => "kick"
  | .invite => "invite"

def defaultValue : RoomPowerLevelsIntField → Int
  | .usersDefault | .eventsDefault | .invite => 0
  | .stateDefault | .kick | .ban | .redact => 50

end RoomPowerLevelsIntField

def defaultCreatorPowerLevel : Int := 100

def UserPowerLevel.below (level : UserPowerLevel) (required : Int) : Bool :=
  match level with
  | .int held => held < required
  | .infinite => false

def UserPowerLevel.reached (level : UserPowerLevel) (value : Int) : Bool :=
  match level with
  | .int held => held ≤ value
  | .infinite => false

namespace RoomPowerLevelsEvent

variable {Content : Type} [AuthView Content]

def deserializedContent (event : Pdu Content) : Except Error (String → Option (AuthView.Value Content)) :=
  describe (AuthView.object event.content) fun error =>
    invalidParam s!"malformed `m.room.power_levels` content: {error}"

def getField {A : Type} (event : Pdu Content) (field : String) (parse : AuthView.Value Content → Except String A) :
    Except Error (Option A) := do
  let content ← deserializedContent event
  match content field with
  | none => return none
  | some value =>
    (describe (parse value) fun error =>
      invalidParam s!"unexpected format of `{field}` field in `content` of `m.room.power_levels` event: {error}").map some

def getAsInt (event : Pdu Content) (field : RoomPowerLevelsIntField) (rules : AuthorizationRules) :
    Except Error (Option Int) :=
  getField event field.asStr (if rules.integerPowerLevels then AuthView.int else AuthView.v1Powerlevel)

def getAsIntOrDefault (event : Pdu Content) (field : RoomPowerLevelsIntField) (rules : AuthorizationRules) :
    Except Error Int :=
  (getAsInt event field rules).map (·.getD field.defaultValue)

def getAsIntMap (event : Pdu Content) (key : LevelKey) (field : String) (rules : AuthorizationRules) :
    Except Error (Option (List (String × Int))) :=
  getField event field (if rules.integerPowerLevels then AuthView.intPowerlevelValues key
    else AuthView.v1PowerlevelValues key)

def events (event : Pdu Content) (rules : AuthorizationRules) : Except Error (Option (List (String × Int))) :=
  getAsIntMap event .eventType "events" rules

def notifications (event : Pdu Content) (rules : AuthorizationRules) : Except Error (Option (List (String × Int))) :=
  getAsIntMap event .notification "notifications" rules

def users (event : Pdu Content) (rules : AuthorizationRules) : Except Error (Option (List (String × Int))) :=
  getAsIntMap event .userId "users" rules

def userPowerLevel (event : Pdu Content) (user : String) (rules : AuthorizationRules) : Except Error UserPowerLevel :=
  do
  match (← users event rules).bind (·.lookup user) with
  | some level => return .int level
  | none => return .int (← getAsIntOrDefault event .usersDefault rules)

def eventPowerLevel (event : Pdu Content) (eventType : String) (stateKey : Option String) (rules : AuthorizationRules) :
    Except Error Int := do
  match (← events event rules).bind (·.lookup eventType) with
  | some level => return level
  | none => getAsIntOrDefault event (if stateKey.isSome then .stateDefault else .eventsDefault) rules

def intFieldsMap (event : Pdu Content) (rules : AuthorizationRules) :
    Except Error (List (RoomPowerLevelsIntField × Int)) := do
  let values ← RoomPowerLevelsIntField.all.mapM fun field => (getAsInt event field rules).map fun value =>
    value.map (field, ·)
  return values.filterMap id

end RoomPowerLevelsEvent

namespace RoomPowerLevelsEventOption

variable {Content : Type} [AuthView Content]

def userPowerLevel (event : Option (Pdu Content)) (user : String) (creators : List String)
    (rules : AuthorizationRules) : Except Error UserPowerLevel :=
  if rules.explicitlyPrivilegeRoomCreators && creators.contains user then .ok .infinite
  else
    match event with
    | some event => RoomPowerLevelsEvent.userPowerLevel event user rules
    | none => .ok (.int (if creators.contains user then defaultCreatorPowerLevel else RoomPowerLevelsIntField.usersDefault.defaultValue))

def getAsIntOrDefault (event : Option (Pdu Content)) (field : RoomPowerLevelsIntField) (rules : AuthorizationRules) :
    Except Error Int :=
  match event with
  | some event => RoomPowerLevelsEvent.getAsIntOrDefault event field rules
  | none => .ok field.defaultValue

def eventPowerLevel (event : Option (Pdu Content)) (eventType : String) (stateKey : Option String)
    (rules : AuthorizationRules) : Except Error Int :=
  match event with
  | some event => RoomPowerLevelsEvent.eventPowerLevel event eventType stateKey rules
  | none => .ok (if stateKey.isSome then RoomPowerLevelsIntField.stateDefault else .eventsDefault).defaultValue

end RoomPowerLevelsEventOption

structure ReadContent where
  ints : List (String × Int) := []
  maps : List (String × List (String × Int)) := []
  creator : Option String := none
  additionalCreators : List String := []
  joinRule : Option JoinRule := none
  membership : Option MembershipState := none
  joinAuthorised : Option String := none
deriving DecidableEq

def orMissing {A : Type} : Option A → Except String A
  | some value => .ok value
  | none => .error "missing field"

instance : AuthView ReadContent where
  Value := Int ⊕ List (String × Int)
  object content := .ok fun field => ((content.ints.lookup field).map .inl).or ((content.maps.lookup field).map .inr)
  int value := orMissing value.getLeft?
  v1Powerlevel value := orMissing value.getLeft?
  intPowerlevelValues _ value := orMissing value.getRight?
  v1PowerlevelValues _ value := orMissing value.getRight?
  federate _ := .ok none
  creator content := orMissing content.creator
  additionalCreators content := .ok content.additionalCreators
  joinRule content := orMissing content.joinRule
  membership content := orMissing content.membership
  joinAuthorisedViaUsersServer content := .ok content.joinAuthorised
  thirdPartyInvite _ := .ok none
  publicKeys _ := .ok (none, [])
  redacts _ := none
  userId _ := .ok ()
  roomEventId room := .ok room
  debug _ := ""
  canonicalForSigning _ := .ok []
  keyAlgorithm _ := none
  base64 _ := none
  decodePublicKey _ := none
  verifyCanonicalJsonBytes _ _ _ _ := false

def readEvent (eventId kind sender stateKey : String) (content : ReadContent) : Pdu ReadContent where
  eventId := eventId
  kind := kind
  content := content
  roomId := "!room"
  sender := sender
  stateKey := some stateKey
  prevEvents := []
  authEvents := []
  originServerTs := 0

def v11Rules : AuthorizationRules where
  specialCaseRoomAliases := false
  specialCaseRoomRedaction := false
  limitNotificationsPowerLevels := true
  knocking := true
  restrictedJoinRule := true
  knockRestrictedJoinRule := true
  integerPowerLevels := true
  useRoomCreateSender := true
  explicitlyPrivilegeRoomCreators := false
  additionalRoomCreators := false
  roomCreateEventIdAsRoomId := false

def v12Rules : AuthorizationRules :=
  { v11Rules with explicitlyPrivilegeRoomCreators := true, additionalRoomCreators := true, roomCreateEventIdAsRoomId := true }

end GaussMatrix.Rooms

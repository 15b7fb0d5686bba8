import GaussMatrix.StateRes.Event

namespace GaussMatrix.Rooms

open Collections StateRes

inductive ErrorKind where
  | notFound
  | invalidParam
  | forbidden
  | database
  | unsupportedRoomVersion
  | unknown
deriving DecidableEq

structure Error where
  kind : ErrorKind
  message : String
deriving DecidableEq

-- The content is raw JSON. What is read from it is read through the parsers of
-- ContentView, so that no part of the model depends on a JSON type.
structure Pdu (Content : Type) where
  eventId : EventId
  kind : String
  content : Content
  roomId : String
  sender : String
  stateKey : Option String
  prevEvents : List EventId
  authEvents : List EventId
  originServerTs : Nat
deriving DecidableEq

def Pdu.isTypeAndStateKey {Content : Type} (pdu : Pdu Content) (kind stateKey : String) : Bool :=
  pdu.kind == kind && pdu.stateKey == some stateKey

class ContentView (Content : Type) where
  powerLevelsFromContent : Content → PowerLevels
  membershipFromContent : Content → Option String
  joinAuthorisedFromContent : Content → Option String
  joinRuleFromContent : Content → Option String

open ContentView in
def StateEvent.withContent {Content : Type} [ContentView Content] (state : StateEvent)
    (content : Content) : StateEvent :=
  if state.eventType = powerLevelsType then { state with powerLevels := some (powerLevelsFromContent content) }
  else if state.eventType = memberType
    then { state with membership := membershipFromContent content, joinAuthorised := joinAuthorisedFromContent content }
  else if state.eventType = joinRulesType then { state with joinRule := joinRuleFromContent content }
  else state

def StateEvent.fromView {Content : Type} [ContentView Content] (view : Pdu Content) (powerLevel : Int) : StateEvent :=
  let state := StateEvent.withContent
    { StateEvent.new view.eventId view.kind view.sender with originServerTs := view.originServerTs, powerLevel := powerLevel }
    view.content
  { state with stateKey := view.stateKey.getD state.stateKey, authEventIds := view.authEvents }

section

variable {Content : Type} [ContentView Content]

-- A live event as the gm engine sees it; resolve_forks supplies the level zero.
instance : Event (Pdu Content) where
  eventId pdu := pdu.eventId
  eventType pdu := pdu.kind
  stateKey pdu := (StateEvent.fromView pdu 0).stateKey
  powerLevel pdu := (StateEvent.fromView pdu 0).powerLevel
  originServerTs pdu := pdu.originServerTs
  authEventIds pdu := pdu.authEvents
  sender pdu := pdu.sender
  powerLevels pdu := (StateEvent.fromView pdu 0).powerLevels
  membership pdu := (StateEvent.fromView pdu 0).membership
  joinRule pdu := (StateEvent.fromView pdu 0).joinRule
  joinAuthorisedViaUsersServer pdu := (StateEvent.fromView pdu 0).joinAuthorised

end

structure ParsedContent where
  powerLevels : PowerLevels := default
  membership : Option String := none
  joinAuthorised : Option String := none
  joinRule : Option String := none
deriving DecidableEq, Inhabited

instance : ContentView ParsedContent where
  powerLevelsFromContent := ParsedContent.powerLevels
  membershipFromContent := ParsedContent.membership
  joinAuthorisedFromContent := ParsedContent.joinAuthorised
  joinRuleFromContent := ParsedContent.joinRule

def roomEvent (eventId kind sender : String) (stateKey : Option String) (prevEvents authEvents : List EventId)
    (originServerTs : Nat) : Pdu ParsedContent where
  eventId := eventId
  kind := kind
  content := default
  roomId := "!room"
  sender := sender
  stateKey := stateKey
  prevEvents := prevEvents
  authEvents := authEvents
  originServerTs := originServerTs

def pduStore (pdus : List (Pdu ParsedContent)) : EventStore (Pdu ParsedContent) :=
  pdus.foldl (fun store pdu => store.insert pdu.eventId pdu) ∅

end GaussMatrix.Rooms

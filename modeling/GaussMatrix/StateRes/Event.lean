import GaussMatrix.Library.Collections
import GaussMatrix.Library.Chase

namespace GaussMatrix.StateRes

open Collections Std.ExtTreeMap

abbrev EventId := String

abbrev StateKey := String × String

instance : Ord StateKey := lexOrd

abbrev StateMap := BTreeMap StateKey EventId
abbrev EventStore (E : Type) := BTreeMap EventId E

-- The i64 levels are compared and never computed with, so integers stand for
-- them without a word size.
structure PowerLevels where
  users : BTreeMap String Int
  usersDefault : Int
  events : BTreeMap String Int
  eventsDefault : Int
  stateDefault : Int
  invite : Int
  kick : Int
  ban : Int
deriving DecidableEq

-- PowerLevels::default, the levels of a state without a power-levels event.
instance : Inhabited PowerLevels := ⟨⟨∅, 0, ∅, 0, 0, 0, 0, 0⟩⟩

def PowerLevels.forUser (levels : PowerLevels) (user : String) : Int := levels.users[user]?.getD levels.usersDefault

def PowerLevels.requiredFor (levels : PowerLevels) (eventType : String) (isState : Bool) : Int :=
  let fallback := if isState then levels.stateDefault else levels.eventsDefault
  levels.events[eventType]?.getD fallback

class Event (E : Type) where
  eventId : E → EventId
  eventType : E → String
  stateKey : E → String
  powerLevel : E → Int
  originServerTs : E → Nat
  authEventIds : E → List EventId
  sender : E → String
  powerLevels : E → Option PowerLevels
  membership : E → Option String
  joinRule : E → Option String
  joinAuthorisedViaUsersServer : E → Option String

def slotOf {E : Type} [Event E] (event : E) : StateKey := (Event.eventType event, Event.stateKey event)

def powerLevelsType : String := "m.room.power_levels"
def createType : String := "m.room.create"
def memberType : String := "m.room.member"
def joinRulesType : String := "m.room.join_rules"

def powerLevelsKey : StateKey := (powerLevelsType, "")
def createKey : StateKey := (createType, "")
def joinRulesKey : StateKey := (joinRulesType, "")
def memberKey (user : String) : StateKey := (memberType, user)

-- A store is meant as a by-id lookup. Its type does not say so, and the engine
-- reads both the key and the event's own id.
def Keyed {E : Type} [Event E] (store : EventStore E) : Prop :=
  ∀ id event, store[id]? = some event → Event.eventId event = id

theorem keyed_of_rows {E : Type} [Event E] {store : EventStore E}
    (rows : ∀ row ∈ store.toList, Event.eventId row.2 = row.1) : Keyed store :=
  fun id event read => rows (id, event) (Std.ExtTreeMap.mem_toList_iff_getElem?_eq_some.mpr read)

def AuthEdge {E : Type} [Event E] (store : EventStore E) (auth id : EventId) : Prop :=
  ∃ event, store[id]? = some event ∧ auth ∈ Event.authEventIds event

def AuthAcyclic {E : Type} [Event E] (store : EventStore E) : Prop := ∀ id, ¬ Relation.TransGen (AuthEdge store) id id

theorem auth_edge_founded {E : Type} [Event E] (store : EventStore E) (acyclic : AuthAcyclic store) :
    WellFounded (AuthEdge store) := by
  apply Chase.founded_of_acyclic (AuthEdge store) store.keys
  · intro auth id edge
    obtain ⟨event, read, _⟩ := edge
    rw [mem_keys]
    exact mem_iff_read.mpr ⟨_, read⟩
  · exact acyclic

theorem acyclic_of_order {E : Type} [Event E] (store : EventStore E) (order : List EventId)
    (ascending : ∀ row ∈ store.toList, ∀ auth ∈ Event.authEventIds row.2, order.idxOf auth < order.idxOf row.1) :
    AuthAcyclic store := by
  have edge : ∀ auth id, AuthEdge store auth id → order.idxOf auth < order.idxOf id := by
    intro auth id link
    obtain ⟨event, read, cited⟩ := link
    exact ascending (id, event) (mem_toList_iff_getElem?_eq_some.mpr read) auth cited
  intro id cycle
  have below : ∀ last, Relation.TransGen (AuthEdge store) id last → order.idxOf id < order.idxOf last := by
    intro last path
    induction path with
    | single link => exact edge id _ link
    | tail _ link ih => exact ih.trans (edge _ _ link)
  exact lt_irrefl _ (below id cycle)

structure StateEvent where
  eventId : EventId
  eventType : String
  stateKey : String
  sender : String
  originServerTs : Nat
  authEventIds : List EventId
  powerLevel : Int
  powerLevels : Option PowerLevels
  membership : Option String
  joinRule : Option String
  joinAuthorised : Option String
deriving DecidableEq

def StateEvent.new (eventId : EventId) (eventType sender : String) : StateEvent where
  eventId := eventId
  eventType := eventType
  stateKey := ""
  sender := sender
  originServerTs := 0
  authEventIds := []
  powerLevel := 0
  powerLevels := none
  membership := none
  joinRule := none
  joinAuthorised := none

instance : Event StateEvent where
  eventId := StateEvent.eventId
  eventType := StateEvent.eventType
  stateKey := StateEvent.stateKey
  powerLevel := StateEvent.powerLevel
  originServerTs := StateEvent.originServerTs
  authEventIds := StateEvent.authEventIds
  sender := StateEvent.sender
  powerLevels := StateEvent.powerLevels
  membership := StateEvent.membership
  joinRule := StateEvent.joinRule
  joinAuthorisedViaUsersServer := StateEvent.joinAuthorised

def storeOf (events : List StateEvent) : EventStore StateEvent :=
  events.foldl (fun store event => store.insert event.eventId event) ∅

theorem store_of_keyed {events : List StateEvent} : Keyed (storeOf events) := by
  suffices general : ∀ store : EventStore StateEvent, Keyed store →
    Keyed (events.foldl (fun store event => store.insert event.eventId event) store) from
    general ∅ (fun id event read => by simp at read)
  induction events with
  | nil => exact fun store keyed => keyed
  | cons event tail ih =>
    intro store keyed
    apply ih
    intro id other read
    by_cases same : id = event.eventId
    · subst same
      rw [getElem?_insert_self] at read
      exact congrArg StateEvent.eventId (Option.some.inj read).symm
    · rw [insert_elsewhere same] at read
      exact keyed id other read

end GaussMatrix.StateRes

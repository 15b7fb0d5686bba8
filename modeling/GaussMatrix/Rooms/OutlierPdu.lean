import GaussMatrix.Rooms.Upgrade

namespace GaussMatrix.Rooms

open Collections StateRes

-- A call returns Ok or Err, or it panics.
inductive Outcome (A : Type) where
  | returned (result : Except Error A)
  | panicked (message : String)
deriving DecidableEq

def Outcome.andThen {A B : Type} (outcome : Outcome A) (next : A → Outcome B) : Outcome B :=
  match outcome with
  | .returned (.ok value) => next value
  | .returned (.error e) => .returned (.error e)
  | .panicked message => .panicked message

def Outcome.Panics {A : Type} (outcome : Outcome A) : Prop := ∃ message, outcome = .panicked message

@[simp] theorem returned_calm {A : Type} {result : Except Error A} : ¬ (Outcome.returned result).Panics := by
  intro panics
  obtain ⟨message, same⟩ := panics
  cases same

@[simp] theorem panicked_panics {A : Type} (message : String) : (Outcome.panicked message : Outcome A).Panics :=
  ⟨message, rfl⟩

theorem and_then_panics_iff {A B : Type} (outcome : Outcome A) (next : A → Outcome B) :
    (outcome.andThen next).Panics ↔ outcome.Panics ∨ ∃ value, outcome = .returned (.ok value) ∧
    (next value).Panics := by
  cases outcome with
  | panicked message => simp [Outcome.andThen]
  | returned result =>
    cases result with
    | ok value => simp [Outcome.andThen]
    | error e => simp [Outcome.andThen]

inductive Verified where
  | all
  | signatures

structure RoomRules where
  referencesV1 : Bool
  requireRoomCreateRoomId : Bool
  requireEventId : Bool
  allowRoomCreateInAuthEvents : Bool
deriving DecidableEq

-- The event's JSON is opaque but for its type. The signature check, the redaction
-- and the parser come from outside.
structure OutlierServices (Content Json Hash : Type) [Ord Hash] where
  removeUnsigned : Json → Json
  verifyEvent : Json → Except Error Verified
  roomVersion : String
  rules : Except Error RoomRules
  redact : Json → Except Error Json
  jsonType : Json → Option String
  mutateIncomingReferenceFormat : Json → Json
  insertRoomId : String → Json → Json
  insertEventId : EventId → Json → Json
  fromObjectChecked : RoomRules → Json → Except Error (Pdu Content)
  asEventId : String → Option EventId
  fetchAuth : List EventId → Room Content Hash → Room Content Hash
  authCheck : Pdu Content → (EventId → Except Error (Pdu Content)) → (StateKey → Except Error (Pdu Content)) →
    Except Error Unit

variable {eventId : EventId} {rules : RoomRules} {roomId : String}

section

variable {Content Json Hash : Type} [Ord Hash] (services : OutlierServices Content Json Hash)

def verifiedJson (room : Room Content Hash) (eventId : EventId) (pduJson : Json) : Except Error Json :=
  match services.verifyEvent pduJson with
  | .ok .all => .ok pduJson
  | .ok .signatures =>
    match services.rules with
    | .error _ => .error ⟨.unsupportedRoomVersion, s!"Cannot redact event for unknown room version {services.roomVersion}."⟩
    | .ok _ =>
      match services.redact pduJson with
      | .error _ => .error ⟨.invalidParam, "Redaction failed"⟩
      | .ok redacted =>
        match room.getPdu eventId with
        | .ok _ => .error ⟨.invalidParam, "Event was redacted and we already knew about it"⟩
        | .error _ => .ok redacted
  | .error e => .error ⟨.invalidParam, s!"Signature verification failed for {eventId}: {e.message}"⟩

-- Indexing the object with a key it does not have panics.
def fromIncomingFederation (rules : RoomRules) (roomId : String) (eventId : EventId) (pduJson : Json) : Outcome Json :=
  let referenced := if rules.referencesV1 then services.mutateIncomingReferenceFormat pduJson else pduJson
  let placed : Outcome Json :=
    if rules.requireRoomCreateRoomId then .returned (.ok referenced)
    else
      match services.jsonType referenced with
      | none => .panicked "no entry found for key"
      | some kind => .returned (.ok (if kind = createType then services.insertRoomId roomId referenced else referenced))
  placed.andThen fun json =>
    .returned (.ok (if rules.requireEventId then json else services.insertEventId eventId json))

def fromObjectFederation (rules : RoomRules) (roomId : String) (eventId : EventId) (pduJson : Json) :
    Outcome (Pdu Content × Json) :=
  (fromIncomingFederation services rules roomId eventId pduJson).andThen fun json =>
    match services.fromObjectChecked rules json with
    | .error e => .returned (.error e)
    | .ok pdu => if pdu.roomId = roomId then .returned (.ok (pdu, json)) else .returned (.error ⟨.invalidParam, "Event in wrong room"⟩)

def incomingOutlier (room : Room Content Hash) (roomId : String) (eventId : EventId) (pduJson : Json) :
    Outcome (RoomRules × Pdu Content × Json) :=
  match verifiedJson services room eventId (services.removeUnsigned pduJson) with
  | .error e => .returned (.error e)
  | .ok verified =>
    match services.rules with
    | .error e => .returned (.error e)
    | .ok rules => (fromObjectFederation services rules roomId eventId verified).andThen fun parsed => .returned (.ok (rules, parsed))

def listedAuthEvents (rules : RoomRules) (event : Pdu Content) : List EventId :=
  let notCreate := event.kind ≠ createType
  let isHydra := rules.allowRoomCreateInAuthEvents = false
  event.authEvents ++ if notCreate ∧ isHydra then (services.asEventId event.roomId).toList else []

def keyedAuthEvents (room : Room Content Hash) : List EventId → Outcome (List (StateKey × Pdu Content))
  | [] => .returned (.ok [])
  | authEventId :: rest =>
    match room.getPdu authEventId with
    | .error _ => keyedAuthEvents room rest
    | .ok authEvent =>
      match authEvent.stateKey with
      | none => .panicked "all auth events have state_key"
      | some stateKey =>
        (keyedAuthEvents room rest).andThen fun keyed => .returned (.ok (((authEvent.kind, stateKey), authEvent) :: keyed))

def fetchKeyed (authEvents : List (StateKey × Pdu Content)) (slot : StateKey) : Except Error (Pdu Content) :=
  match authEvents.find? fun entry => entry.1 = slot with
  | none => .error ⟨.notFound, "state not found"⟩
  | some entry => .ok entry.2

def checkOutlier (room : Room Content Hash) (rules : RoomRules) (event : Pdu Content) (json : Json) :
    Outcome (Pdu Content × Json) × Room Content Hash :=
  match keyedAuthEvents room (listedAuthEvents services rules event) with
  | .panicked message => (.panicked message, room)
  | .returned (.error e) => (.returned (.error e), room)
  | .returned (.ok authEvents) =>
    match services.authCheck event room.getPdu (fetchKeyed authEvents) with
    | .error e => (.returned (.error e), room)
    | .ok () => (.returned (.ok (event, json)), { room with outliers := room.outliers.insert event.eventId event })

def handleOutlierPdu (room : Room Content Hash) (roomId : String) (eventId : EventId) (pduJson : Json)
    (authEventsKnown : Bool) : Outcome (Pdu Content × Json) × Room Content Hash :=
  match incomingOutlier services room roomId eventId pduJson with
  | .panicked message => (.panicked message, room)
  | .returned (.error e) => (.returned (.error e), room)
  | .returned (.ok (rules, event, json)) =>
    checkOutlier services (if authEventsKnown then room else services.fetchAuth event.authEvents room) rules event json

-- What holds of the code outside: a JSON that passes the signature check has a
-- type, and neither redaction nor the change of the reference format removes it.
structure TypedJson : Prop where
  verified : ∀ json, (∃ verified, services.verifyEvent json = .ok verified) → (services.jsonType json).isSome
  redacted : ∀ json redacted, services.redact json = .ok redacted → services.jsonType redacted = services.jsonType json
  mutated : ∀ json, services.jsonType (services.mutateIncomingReferenceFormat json) = services.jsonType json

variable {services} {pduJson : Json}

theorem verified_json_typed (typed : TypedJson services) {room : Room Content Hash} {verified : Json}
    (passes : verifiedJson services room eventId pduJson = .ok verified) :
    (services.jsonType verified).isSome = true := by
  unfold verifiedJson at passes
  split at passes
  · rename_i all
    cases passes
    exact typed.verified _ ⟨_, all⟩
  · rename_i signatures
    split at passes
    · cases passes
    · split at passes
      · cases passes
      · rename_i redacted redacts
        split at passes
        · cases passes
        · cases passes
          rw [typed.redacted _ _ redacts]
          exact typed.verified _ ⟨_, signatures⟩
  · cases passes

theorem from_incoming_returns (typed : TypedJson services) (hasType : (services.jsonType pduJson).isSome = true) :
    ¬ (fromIncomingFederation services rules roomId eventId pduJson).Panics := by
  obtain ⟨kind, isKind⟩ := Option.isSome_iff_exists.mp hasType
  have readable : services.jsonType (if rules.referencesV1 then services.mutateIncomingReferenceFormat pduJson
    else pduJson) = some kind := by
    split
    · rw [typed.mutated, isKind]
    · exact isKind
  rw [fromIncomingFederation, and_then_panics_iff]
  simp only [readable, returned_calm, and_false, exists_false, or_false]
  split
  · exact returned_calm
  · exact returned_calm

theorem from_object_returns (typed : TypedJson services) (hasType : (services.jsonType pduJson).isSome = true) :
    ¬ (fromObjectFederation services rules roomId eventId pduJson).Panics := by
  rw [fromObjectFederation, and_then_panics_iff]
  rintro (panics | ⟨json, _, panics⟩)
  · exact from_incoming_returns typed hasType panics
  · split at panics
    · exact returned_calm panics
    · split at panics
      · exact returned_calm panics
      · exact returned_calm panics

theorem incoming_returns (typed : TypedJson services) (room : Room Content Hash) (roomId : String) (eventId : EventId)
    (pduJson : Json) : ¬ (incomingOutlier services room roomId eventId pduJson).Panics := by
  intro panics
  unfold incomingOutlier at panics
  split at panics
  · exact returned_calm panics
  · rename_i verified passes
    split at panics
    · exact returned_calm panics
    · rename_i rules _
      have hasType := verified_json_typed typed passes
      rw [and_then_panics_iff] at panics
      simp only [returned_calm, and_false, exists_false, or_false] at panics
      exact from_object_returns typed hasType panics

theorem keyed_panics_iff (room : Room Content Hash) (authEventIds : List EventId) :
    (keyedAuthEvents room authEventIds).Panics ↔
      ∃ authEventId ∈ authEventIds, ∃ authEvent, room.getPdu authEventId = .ok authEvent ∧ authEvent.stateKey = none := by
  induction authEventIds with
  | nil => simp [keyedAuthEvents, Outcome.Panics]
  | cons authEventId rest ih =>
    rw [keyedAuthEvents, List.exists_mem_cons_iff]
    cases read : room.getPdu authEventId with
    | error e =>
      rw [ih]
      simp
    | ok authEvent =>
      have here : (∃ other, (Except.ok authEvent : Except Error (Pdu Content)) = .ok other ∧ other.stateKey = none) ↔
        authEvent.stateKey = none := by simp
      rw [here]
      cases own : authEvent.stateKey with
      | none => simp [own]
      | some stateKey =>
        simp only [own, and_then_panics_iff, ih]
        simp

theorem check_outlier_panics_iff (room : Room Content Hash) (rules : RoomRules) (event : Pdu Content) (json : Json) :
    (checkOutlier services room rules event json).1.Panics ↔
    (keyedAuthEvents room (listedAuthEvents services rules event)).Panics := by
  rw [checkOutlier]
  cases keyedAuthEvents room (listedAuthEvents services rules event) with
  | panicked message => simp
  | returned result =>
    cases result with
    | error e => simp
    | ok authEvents =>
      simp only [returned_calm, iff_false]
      split
      · exact returned_calm
      · exact returned_calm

theorem outlier_panics_iff (typed : TypedJson services) (room : Room Content Hash) (roomId : String) (eventId : EventId)
    (pduJson : Json) : (handleOutlierPdu services room roomId eventId pduJson true).1.Panics ↔
      ∃ rules event json, incomingOutlier services room roomId eventId pduJson = .returned (.ok (rules, event, json)) ∧
        ∃ authEventId ∈ listedAuthEvents services rules event, ∃ authEvent, room.getPdu authEventId = .ok authEvent ∧
        authEvent.stateKey = none := by
  have returns := incoming_returns typed room roomId eventId pduJson
  rw [handleOutlierPdu]
  cases incoming : incomingOutlier services room roomId eventId pduJson with
  | panicked message => exact absurd ⟨message, incoming⟩ returns
  | returned result =>
    cases result with
    | error e => simp
    | ok accepted =>
      obtain ⟨rules, event, json⟩ := accepted
      rw [check_outlier_panics_iff, keyed_panics_iff]
      constructor
      · intro listed
        exact ⟨rules, event, json, rfl, listed⟩
      · rintro ⟨_, _, _, same, listed⟩
        cases same
        exact listed

theorem outlier_returns_iff (typed : TypedJson services) (room : Room Content Hash) (roomId : String)
    (eventId : EventId) (pduJson : Json) :
    (∃ result, (handleOutlierPdu services room roomId eventId pduJson true).1 = .returned result) ↔
      ∀ rules event json, incomingOutlier services room roomId eventId pduJson = .returned (.ok (rules, event, json)) →
        ∀ authEventId ∈ listedAuthEvents services rules event, ∀ authEvent, room.getPdu authEventId = .ok authEvent →
        ∃ stateKey, authEvent.stateKey = some stateKey := by
  have panics := outlier_panics_iff typed room roomId eventId pduJson
  have either : (∃ result, (handleOutlierPdu services room roomId eventId pduJson true).1 = .returned result) ↔
      ¬ (handleOutlierPdu services room roomId eventId pduJson true).1.Panics := by
    cases (handleOutlierPdu services room roomId eventId pduJson true).1 with
    | returned result => simp
    | panicked message => simp
  rw [either, panics]
  constructor
  · intro calm rules event json incoming authEventId listed authEvent known
    rw [← Option.ne_none_iff_exists']
    exact fun missing => calm ⟨rules, event, json, incoming, authEventId, listed, authEvent, known, missing⟩
  · rintro keyed ⟨rules, event, json, incoming, authEventId, listed, authEvent, known, missing⟩
    obtain ⟨stateKey, own⟩ := keyed rules event json incoming authEventId listed authEvent known
    rw [missing] at own
    cases own

end

def chatServer : OutlierServices ParsedContent (Pdu ParsedContent) (List (Nat × EventId)) where
  removeUnsigned := fun json => json
  verifyEvent := fun _ => .ok .all
  roomVersion := "11"
  rules := .ok ⟨false, true, false, true⟩
  redact := fun json => .ok json
  jsonType := fun json => some json.kind
  mutateIncomingReferenceFormat := fun json => json
  insertRoomId := fun roomId json => { json with roomId := roomId }
  insertEventId := fun eventId json => { json with eventId := eventId }
  fromObjectChecked := fun _ json => .ok json
  asEventId := fun _ => none
  fetchAuth := fun _ room => room
  authCheck := authCheckJoined

theorem chat_server_typed : TypedJson chatServer where
  verified := fun _ _ => rfl
  redacted := by
    intro json redacted same
    cases same
    rfl
  mutated := fun _ => rfl

def chatRoom : Room ParsedContent (List (Nat × EventId)) :=
  serverRoom [roomEvent "$m" "m.room.message" "@bob" none ["$b"] ["$c", "$b"] 5]
    (Std.ExtTreeMap.ofList [(1, "$c"), (2, "$a"), (3, "$b")]) ["$m"]

def topicCiting (authEvents : List EventId) : Pdu ParsedContent :=
  roomEvent "$t" "m.room.topic" "@bob" (some "") ["$m"] authEvents 6

theorem cited_message_panics : (handleOutlierPdu chatServer chatRoom "!room" "$t"
    (topicCiting ["$c", "$b", "$m"]) true).1 = .panicked "all auth events have state_key" := by
  decide +kernel

theorem cited_state_returns : ∃ result,
    (handleOutlierPdu chatServer chatRoom "!room" "$t" (topicCiting ["$c", "$b"]) true).1 = .returned result := by
  refine (outlier_returns_iff chat_server_typed chatRoom "!room" "$t" (topicCiting ["$c", "$b"])).mpr ?_
  intro rules event json incoming authEventId listed authEvent known
  have parsed : incomingOutlier chatServer chatRoom "!room" "$t" (topicCiting ["$c", "$b"]) =
      .returned (.ok (⟨false, true, false, true⟩, topicCiting ["$c", "$b"], topicCiting ["$c", "$b"])) := by decide +kernel
  rw [parsed] at incoming
  cases incoming
  have cited : ∀ authEventId ∈ listedAuthEvents chatServer ⟨false, true, false, true⟩ (topicCiting ["$c", "$b"]),
      ∀ authEvent ∈ (chatRoom.getPdu authEventId).toOption, authEvent.stateKey.isSome = true := by decide +kernel
  exact Option.isSome_iff_exists.mp (cited authEventId listed authEvent (by rw [known]; rfl))

end GaussMatrix.Rooms

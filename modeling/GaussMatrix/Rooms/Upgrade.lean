import GaussMatrix.Library.Handler
import GaussMatrix.Rooms.StateAtIncoming

namespace GaussMatrix.Rooms

open Collections Handlers StateRes Std ExtTreeSet

abbrev RawPduId := Nat × Nat

inductive PolicyCheck where
  | notApplicable
  | pass
  | missing
  | invalid
deriving DecidableEq

-- The tables of one room. A saved state is found under its hash; rooms and events
-- refer to hashes.
structure Room (Content Hash : Type) [Ord Hash] where
  timeline : BTreeMap EventId (RawPduId × Pdu Content)
  outliers : BTreeMap EventId (Pdu Content)
  count : Nat
  softFailed : BTreeSet EventId
  referenced : BTreeSet EventId
  forwardExtremities : BTreeSet EventId
  states : BTreeMap Hash ShortState
  shortstatehash : Option Hash
  eventStates : BTreeMap EventId Hash

-- The services the upgrade calls. Those that only fail or succeed as far as the
-- room's tables are concerned return no value.
structure Services (Content Hash : Type) [Ord Hash] where
  checkRules : Pdu Content → Except Error Unit
  shortstatekey : StateKey → Nat
  statekeyFromShort : Nat → Option StateKey
  stateHash : ShortState → Hash
  authChain : (EventId → Except Error (Pdu Content)) → List EventId → Except Error (BTreeSet EventId)
  stateResolution : (EventId → Except Error (Pdu Content)) → List StateMap → List (BTreeSet EventId) →
    Except Error StateMap
  schedule : Pdu Content → Schedule Content Hash
  fetchState : EventId → List (Pdu Content) × Except Error ShortState
  authTypesForEvent : Pdu Content → Except Error (List StateKey)
  authCheck : Pdu Content → (EventId → Except Error (Pdu Content)) → (StateKey → Except Error (Pdu Content)) →
    Except Error Unit
  redactsId : Pdu Content → Option EventId
  userCanRedact : Room Content Hash → EventId → String → Except Error Bool
  verifyOrFetchInboundPolicySignature : Pdu Content → PolicyCheck
  saveState : ShortState → Except Error Unit
  forceState : ShortState → Except Error Unit
  saveEventState : ShortState → Except Error Unit
  shortroomid : Except Error Nat
  unsignedContent : Room Content Hash → Pdu Content → Except Error Unit
  appendPduEffects : RawPduId → Pdu Content → Except Error Unit

section

variable {Content Hash : Type} [Ord Hash] [TransOrd Hash]

abbrev Upgrading (Content Hash : Type) [Ord Hash] := ExceptT Error (StateM (Room Content Hash))

def notInDatabase : Error := ⟨.notFound, "Not found in database"⟩

def Room.getPdu (room : Room Content Hash) (eventId : EventId) : Except Error (Pdu Content) :=
  match room.timeline[eventId]? with
  | some entry => .ok entry.2
  | none =>
    match room.outliers[eventId]? with
    | some pdu => .ok pdu
    | none => .error notInDatabase

def Room.currentState (room : Room Content Hash) : Option ShortState :=
  room.shortstatehash.bind fun sstatehash => room.states[sstatehash]?

def Room.saved (room : Room Content Hash) (sstatehash : Hash) (state : ShortState) : Room Content Hash :=
  { room with states := room.states.insertIfNew sstatehash state }

variable (services : Services Content Hash)

def Room.store (room : Room Content Hash) : StateStore Content Hash where
  pduShortstatehash := fun eventId =>
    match room.eventStates[eventId]? with
    | some sstatehash => .ok sstatehash
    | none => .error notInDatabase
  getPdu := room.getPdu
  stateFullIds := fun sstatehash => (room.states[sstatehash]?.getD ∅).toList
  shortstatekey := services.shortstatekey
  statekeyFromShort := services.statekeyFromShort
  authChain := services.authChain room.getPdu

def stateAtIncoming (room : Room Content Hash) (incomingPdu : Pdu Content) : Except Error (Option ShortState) :=
  match incomingPdu.prevEvents with
  | [prevEventId] => stateAtIncomingDegreeOne (room.store services) prevEventId
  | _ =>
    stateAtIncomingResolved (room.store services) (services.stateResolution room.getPdu) (services.schedule incomingPdu)

def Room.stored (room : Room Content Hash) (fetched : List (Pdu Content)) : Room Content Hash :=
  { room with outliers := extend room.outliers (fetched.map fun pdu => (pdu.eventId, pdu)) }

def resolveStateAtIncomingEvent (incomingPdu : Pdu Content) : Upgrading Content Hash ShortState := do
  let room ← get
  let stateAtIncomingEvent ← liftM (stateAtIncoming services room incomingPdu)
  match stateAtIncomingEvent with
  | some state => pure state
  | none => do
    modify fun room => room.stored (services.fetchState incomingPdu.eventId).1
    liftM (services.fetchState incomingPdu.eventId).2

def fetchAtEvent (room : Room Content Hash) (stateAtIncomingEvent : ShortState) (slot : StateKey) :
    Except Error (Pdu Content) :=
  let shortstatekey := services.shortstatekey slot
  match stateAtIncomingEvent[shortstatekey]? with
  | none => .error ⟨.notFound, s!"shortstatekey {shortstatekey} not found for ({slot.1},{slot.2})"⟩
  | some eventId => room.getPdu eventId

def getAuthEvents (room : Room Content Hash) (incomingPdu : Pdu Content) :
    Except Error (BTreeMap StateKey (Pdu Content)) :=
  match room.currentState with
  | none => .ok ∅
  | some state =>
    match services.authTypesForEvent incomingPdu with
    | .error e => .error e
    | .ok authTypes => .ok (extend ∅ (authTypes.filterMap fun slot =>
      match state[services.shortstatekey slot]? with
      | none => none
      | some eventId =>
        match room.getPdu eventId with
        | .error _ => none
        | .ok pdu => some (slot, pdu)))

def fetchAuthEvent (authEvents : BTreeMap StateKey (Pdu Content)) (slot : StateKey) : Except Error (Pdu Content) :=
  match authEvents[slot]? with
  | none => .error ⟨.notFound, "state event not found"⟩
  | some pdu => .ok pdu

section

variable (room : Room Content Hash) (incomingPdu : Pdu Content)

def authCheckOutlierPdu (stateAtIncomingEvent : ShortState) : Except Error Unit :=
  match services.authCheck incomingPdu room.getPdu (fetchAtEvent services room stateAtIncomingEvent) with
  | .error e => .error e
  | .ok () =>
    match getAuthEvents services room incomingPdu with
    | .error e => .error e
    | .ok authEvents => services.authCheck incomingPdu room.getPdu (fetchAuthEvent authEvents)

def computeSoftFail : Except Error Bool :=
  let softFailRedact : Except Error Bool := match services.redactsId incomingPdu with
    | none => .ok false
    | some redactId => (services.userCanRedact room redactId incomingPdu.sender).map not
  match softFailRedact with
  | .error e => .error e
  | .ok redact => .ok (redact || services.verifyOrFetchInboundPolicySignature incomingPdu = .invalid)

def computeRemainingExtremities : BTreeSet EventId := room.forwardExtremities.filter fun eventId =>
    !incomingPdu.prevEvents.contains eventId && !room.referenced.contains eventId

end

def resolveState (room : Room Content Hash) (roomId : String) (incomingState : ShortState) : Except Error ShortState :=
  match room.currentState with
  | none => .error ⟨.database, s!"No state for {roomId}: {notInDatabase.message}"⟩
  | some current =>
    let forkStates := [current, incomingState]
    let authChainSets := forkStates.filterMap fun state => (services.authChain room.getPdu state.values).toOption
    let forkMaps := forkStates.map fun state => extend ∅ (slotRows (room.store services) state.toList)
    match services.stateResolution room.getPdu forkMaps authChainSets with
    | .error e => .error e
    | .ok state => .ok (extend ∅ (state.toList.map fun entry => (services.shortstatekey entry.1, entry.2)))

section

variable (incomingPdu : Pdu Content) (stateAtIncomingEvent : ShortState)

def stateAfterIncoming : ShortState :=
  match incomingPdu.stateKey with
  | none => stateAtIncomingEvent
  | some stateKey =>
    stateAtIncomingEvent.insert (services.shortstatekey (incomingPdu.kind, stateKey)) incomingPdu.eventId

def resolveAndForceStateAfter : Upgrading Content Hash Unit := do
  let room ← get
  let newRoomState ← liftM
    (resolveState services room incomingPdu.roomId (stateAfterIncoming services incomingPdu stateAtIncomingEvent))
  liftM (services.saveState newRoomState)
  let shortstatehash := services.stateHash newRoomState
  modify fun room => room.saved shortstatehash newRoomState
  liftM (services.forceState newRoomState)
  modify fun room => { room with shortstatehash := some shortstatehash }

def forceIfState : Upgrading Content Hash Unit :=
  if incomingPdu.stateKey.isSome then resolveAndForceStateAfter services incomingPdu stateAtIncomingEvent else pure ()

end

def Room.recorded (room : Room Content Hash) (eventId : EventId) (state : ShortState) : Room Content Hash :=
  { room.saved (services.stateHash state) state with eventStates := room.eventStates.insert eventId (services.stateHash state) }

def setEventState (eventId : EventId) (state : ShortState) : Upgrading Content Hash Unit := do
  liftM (services.saveEventState state)
  modify fun room => room.recorded services eventId state

def markAsReferenced (eventIds : List EventId) : Upgrading Content Hash Unit :=
  modify fun room => { room with referenced := room.referenced.insertMany eventIds }

def setForwardExtremities (leaves : BTreeSet EventId) : Upgrading Content Hash Unit :=
  modify fun room => { room with forwardExtremities := leaves }

def appendPdu (pdu : Pdu Content) (leaves : BTreeSet EventId) : Upgrading Content Hash RawPduId := do
  let shortroomid ← liftM (services.shortroomid.mapError fun _ => (⟨.database, "Room does not exist"⟩ : Error))
  let room ← get
  liftM (services.unsignedContent room pdu)
  markAsReferenced pdu.prevEvents
  setForwardExtremities leaves
  let pduId := (shortroomid, room.count + 1)
  modify fun room => { room with
    count := room.count + 2
    timeline := room.timeline.insert pdu.eventId (pduId, pdu)
    outliers := room.outliers.erase pdu.eventId }
  liftM (services.appendPduEffects pduId pdu)
  pure pduId

def appendIncomingPdu (pdu : Pdu Content) (newRoomLeafs : BTreeSet EventId) (state : ShortState) (softFail : Bool) :
    Upgrading Content Hash (Option RawPduId) := do
  setEventState services pdu.eventId state
  if softFail then do
    markAsReferenced pdu.prevEvents
    setForwardExtremities newRoomLeafs
    pure none
  else do
    let pduId ← appendPdu services pdu newRoomLeafs
    pure (some pduId)

def softFailedError : Error := ⟨.invalidParam, "Event has been soft failed"⟩

section

variable (incomingPdu : Pdu Content)

def judgeIncomingPdu : Upgrading Content Hash (ShortState × Bool) := do
  liftM (services.checkRules incomingPdu)
  let stateAtIncomingEvent ← resolveStateAtIncomingEvent services incomingPdu
  let room ← get
  liftM (authCheckOutlierPdu services room incomingPdu stateAtIncomingEvent)
  let softFail ← liftM (computeSoftFail services room incomingPdu)
  pure (stateAtIncomingEvent, softFail)

def settleIncomingPdu (stateAtIncomingEvent : ShortState) (softFail : Bool) :
    Upgrading Content Hash (Option (RawPduId × Bool)) := do
  let room ← get
  let extremities := computeRemainingExtremities room incomingPdu
  forceIfState services incomingPdu stateAtIncomingEvent
  let leaves := if softFail then extremities else extremities.insert incomingPdu.eventId
  let pduId ← appendIncomingPdu services incomingPdu leaves stateAtIncomingEvent softFail
  if softFail then do
    modify fun room => { room with softFailed := room.softFailed.insert incomingPdu.eventId }
    throw softFailedError
  else
    pure (pduId.map fun pduId => (pduId, true))

def upgradeOutlierToTimelinePdu : Upgrading Content Hash (Option (RawPduId × Bool)) := do
  let room ← get
  match room.timeline[incomingPdu.eventId]? with
  | some entry => pure (some (entry.1, false))
  | none =>
    if room.softFailed.contains incomingPdu.eventId then
      throw softFailedError
    else do
      let (stateAtIncomingEvent, softFail) ← judgeIncomingPdu services incomingPdu
      settleIncomingPdu services incomingPdu stateAtIncomingEvent softFail

end

variable (incomingPdu : Pdu Content)

def Room.settled (room : Room Content Hash) : Room Content Hash := { room with outliers := ∅ }

theorem resolve_state_at_keeps : Respects (keeps Room.settled) (resolveStateAtIncomingEvent services incomingPdu) := by
  refine respects_bind _ (respects_get _) fun room => respects_bind _ (respects_lift _) fun found => ?_
  cases found with
  | some state => exact respects_pure _
  | none => exact respects_bind _ (respects_modify _ fun room => rfl) fun _ => respects_lift _

theorem judge_keeps : Respects (keeps Room.settled) (judgeIncomingPdu services incomingPdu) :=
  respects_bind _ (respects_lift _) fun _ => respects_bind _ (resolve_state_at_keeps services incomingPdu) fun _ =>
    respects_bind _ (respects_get _) fun _ => respects_bind _ (respects_lift _) fun _ =>
      respects_bind _ (respects_lift _) fun _ => respects_pure _

omit [TransOrd Hash] in
theorem kept_but_outliers {A : Type} {handler : Upgrading Content Hash A} (kept : Respects (keeps Room.settled) handler)
    {room after : Room Content Hash} {outcome : Except Error A} (reached : run handler room = (outcome, after)) :
    ∃ outliers, after = { room with outliers := outliers } := by
  have same := kept room
  rw [reached] at same
  cases room
  cases after
  obtain ⟨rfl, -, rfl, rfl, rfl, rfl, rfl, rfl, rfl⟩ := same
  exact ⟨_, rfl⟩

end

variable {error : Error} {softFail : Bool}

section

variable {Content Hash : Type} [Ord Hash] [TransOrd Hash] (services : Services Content Hash) (incomingPdu : Pdu Content)
  (state : ShortState) (room : Room Content Hash) {forced : Room Content Hash}

omit [TransOrd Hash] in
theorem remaining_member {eventId : EventId} : eventId ∈ computeRemainingExtremities room incomingPdu ↔
    eventId ∈ room.forwardExtremities ∧ eventId ∉ incomingPdu.prevEvents ∧ eventId ∉ room.referenced := by
  have unmarked : room.referenced.contains eventId = false ↔ eventId ∉ room.referenced := by
    rw [← Bool.not_eq_true, contains_iff_mem]
  simp only [computeRemainingExtremities, mem_filter, get_eq, Bool.and_eq_true, Bool.not_eq_true',
    unmarked, exists_prop]
  simp

theorem settle_soft_failed (done : run (forceIfState services incomingPdu state) room = (.ok (), forced))
    (recorded : services.saveEventState state = .ok ()) : run (settleIncomingPdu services incomingPdu state true) room =
    (.error softFailedError, { forced.recorded services incomingPdu.eventId state with
        referenced := forced.referenced.insertMany incomingPdu.prevEvents
        forwardExtremities := computeRemainingExtremities room incomingPdu
        softFailed := forced.softFailed.insert incomingPdu.eventId }) := by
  rw [settleIncomingPdu, run_bind_ok (run_get room)]
  simp only
  rw [run_bind_ok done]
  simp only [appendIncomingPdu, setEventState, recorded]
  rfl

theorem settle_unrecorded (done : run (forceIfState services incomingPdu state) room = (.ok (), forced))
    (failed : services.saveEventState state = .error error) :
    run (settleIncomingPdu services incomingPdu state softFail) room = (.error error, forced) := by
  rw [settleIncomingPdu, run_bind_ok (run_get room)]
  simp only
  rw [run_bind_ok done]
  simp only [appendIncomingPdu, setEventState, failed]
  rfl

theorem settle_unforced (failed : run (forceIfState services incomingPdu state) room = (.error error, forced)) :
    run (settleIncomingPdu services incomingPdu state softFail) room = (.error error, forced) := by
  rw [settleIncomingPdu, run_bind_ok (run_get room)]
  rw [run_bind_error failed]

end

section

variable {Content Hash : Type} [Ord Hash] [TransOrd Hash] {services : Services Content Hash} {incomingPdu : Pdu Content}
  {room judged : Room Content Hash}

theorem upgrade_exists {entry : RawPduId × Pdu Content} (known : room.timeline[incomingPdu.eventId]? = some entry) :
    run (upgradeOutlierToTimelinePdu services incomingPdu) room = (.ok (some (entry.1, false)), room) := by
  rw [upgradeOutlierToTimelinePdu, run_bind_ok (run_get room), known]
  rfl

theorem upgrade_soft_failed_before (new : room.timeline[incomingPdu.eventId]? = none)
    (before : room.softFailed.contains incomingPdu.eventId = true) :
    run (upgradeOutlierToTimelinePdu services incomingPdu) room = (.error softFailedError, room) := by
  rw [upgradeOutlierToTimelinePdu, run_bind_ok (run_get room), new]
  rw [if_pos before]
  rfl

theorem upgrade_fresh (new : room.timeline[incomingPdu.eventId]? = none) (fresh : room.softFailed.contains incomingPdu.eventId = false) :
    run (upgradeOutlierToTimelinePdu services incomingPdu) room = run (judgeIncomingPdu services incomingPdu >>= fun judgement =>
        settleIncomingPdu services incomingPdu judgement.1 judgement.2) room := by
  rw [upgradeOutlierToTimelinePdu, run_bind_ok (run_get room), new]
  rw [if_neg (by simp [fresh])]

end

instance : Ord (Nat × EventId) := lexOrd

-- A server to run the model on: states are hashed by their rows, an event needs
-- its sender joined in the state it is checked against, and in a resolution the
-- later states win.
def serverSlots : List (Nat × StateKey) :=
  [(1, createKey), (2, (memberType, "@alice")), (3, (memberType, "@bob")), (4, ("m.room.topic", ""))]

def authCheckJoined (incomingPdu : Pdu ParsedContent) (_ : EventId → Except Error (Pdu ParsedContent))
    (fetchState : StateKey → Except Error (Pdu ParsedContent)) : Except Error Unit :=
  match fetchState (memberType, incomingPdu.sender) with
  | .error e => .error e
  | .ok member =>
    if member.content.membership = some "join" then .ok () else .error ⟨.forbidden, "sender is not joined"⟩

section

variable (policy : PolicyCheck) (remoteState : EventId → Except Error ShortState)

def serverOf : Services ParsedContent (List (Nat × EventId)) where
  checkRules := fun _ => .ok ()
  shortstatekey := fun slot => ((serverSlots.find? fun entry => entry.2 = slot).map Prod.fst).getD 0
  statekeyFromShort := fun short => (serverSlots.find? fun entry => entry.1 = short).map Prod.snd
  stateHash := fun state => state.toList
  authChain := fun _ ids => .ok (ofList ids)
  stateResolution := fun _ states _ => .ok (states.foldl (fun merged state => extend merged state.toList) ∅)
  schedule := fun incomingPdu => ⟨incomingPdu.prevEvents, fun hashes => hashes.toList, fun rows _ => rows⟩
  fetchState := fun eventId => ([], remoteState eventId)
  authTypesForEvent := fun incomingPdu => .ok [createKey, (memberType, incomingPdu.sender)]
  authCheck := authCheckJoined
  redactsId := fun _ => none
  userCanRedact := fun _ _ _ => .ok true
  verifyOrFetchInboundPolicySignature := fun _ => policy
  saveState := fun _ => .ok ()
  forceState := fun _ => .ok ()
  saveEventState := fun _ => .ok ()
  shortroomid := .ok 1
  unsignedContent := fun _ _ => .ok ()
  appendPduEffects := fun _ _ => .ok ()

theorem server_hash_injective : Function.Injective (serverOf policy remoteState).stateHash :=
  fun _ _ same => ExtTreeMap.ext_toList (List.Perm.of_eq same)

end

def memberEvent (eventId user membership : String) (prevEvents : List EventId) (originServerTs : Nat) :
    Pdu ParsedContent := { roomEvent eventId memberType user (some user) prevEvents ["$c"] originServerTs with
    content := { membership := some membership } }

def serverRoom (later : List (Pdu ParsedContent)) (currentState : ShortState) (extremities : List EventId) :
    Room ParsedContent (List (Nat × EventId)) where
  timeline := ExtTreeMap.ofList [("$c", (1, 1), roomEvent "$c" createType "@alice" (some "") [] [] 1),
    ("$a", (1, 3), memberEvent "$a" "@alice" "join" ["$c"] 2),
    ("$b", (1, 5), memberEvent "$b" "@bob" "join" ["$a"] 3)] |>.insertMany
    (later.map fun pdu => (pdu.eventId, (1, 7), pdu))
  outliers := ∅
  count := 8
  softFailed := ∅
  referenced := ofList ["$c", "$a"]
  forwardExtremities := ofList extremities
  states := ExtTreeMap.ofList [([], ∅), ([(1, "$c")], ExtTreeMap.ofList [(1, "$c")]),
    ([(1, "$c"), (2, "$a")], ExtTreeMap.ofList [(1, "$c"), (2, "$a")]), (currentState.toList, currentState)]
  shortstatehash := some currentState.toList
  eventStates := ExtTreeMap.ofList [("$c", []), ("$a", [(1, "$c")]), ("$b", [(1, "$c"), (2, "$a")])]

end GaussMatrix.Rooms

import GaussMatrix.Rooms.Upgrade

namespace GaussMatrix.Rooms

open Collections Handlers StateRes Std ExtTreeMap

section

variable {Content Hash : Type} [Ord Hash] [TransOrd Hash] [LawfulEqOrd Hash] (services : Services Content Hash)

structure Room.Sound (room : Room Content Hash) : Prop where
  hashed : ∀ sstatehash state, room.states[sstatehash]? = some state → services.stateHash state = sstatehash
  current : ∀ sstatehash, room.shortstatehash = some sstatehash → ∃ state, room.states[sstatehash]? = some state

variable {services} {room : Room Content Hash} {state : ShortState}

theorem saved_current (sound : room.Sound services) {sstatehash : Hash} :
    (room.saved sstatehash state).currentState = room.currentState := by
  change room.shortstatehash.bind (fun other => (room.saved sstatehash state).states[other]?) = _
  cases hash : room.shortstatehash with
  | none => simp [Room.currentState, hash]
  | some current =>
    obtain ⟨held, read⟩ := sound.current current hash
    simp [Room.currentState, Room.saved, hash, read, insert_if_new_held room.states sstatehash read]

theorem saved_own (sound : room.Sound services)
    (apart : ∀ (sstatehash : Hash) held, room.states[sstatehash]? = some held →
    services.stateHash held = services.stateHash state → held = state) :
    (room.saved (services.stateHash state) state).states[services.stateHash state]? = some state := by
  have present : services.stateHash state ∈ room.states.insertIfNew (services.stateHash state) state := by simp
  obtain ⟨held, read⟩ := mem_iff_read.mp present
  rcases insert_if_new_source _ _ read with old | new
  · exact read.trans (congrArg some (apart _ held old (sound.hashed _ held old)))
  · exact read.trans (congrArg some new.2)

theorem saved_sound (sound : room.Sound services) : (room.saved (services.stateHash state) state).Sound services where
  hashed := by
    intro sstatehash held read
    rcases insert_if_new_source _ _ read with old | new
    · exact sound.hashed sstatehash held old
    · rw [new.1, new.2]
  current := by
    intro sstatehash hash
    obtain ⟨held, read⟩ := sound.current sstatehash hash
    exact ⟨held, insert_if_new_held room.states _ read⟩

theorem forced_sound (sound : room.Sound services) :
    ({ room.saved (services.stateHash state) state with shortstatehash := some (services.stateHash state) } :
    Room Content Hash).Sound
      services where
  hashed := (saved_sound sound).hashed
  current := by
    intro sstatehash isHash
    cases isHash
    have present : services.stateHash state ∈ room.states.insertIfNew (services.stateHash state) state := by simp
    exact mem_iff_read.mp present

end

section

variable {Content Hash : Type} [Ord Hash] [TransOrd Hash] (services : Services Content Hash) (room : Room Content Hash)
  (incomingPdu : Pdu Content) (state : ShortState)

def forcedState : Except Error ShortState :=
  match resolveState services room incomingPdu.roomId (stateAfterIncoming services incomingPdu state) with
  | .error e => .error e
  | .ok newRoomState =>
    match services.saveState newRoomState with
    | .error e => .error e
    | .ok () =>
      match services.forceState newRoomState with
      | .error e => .error e
      | .ok () => .ok newRoomState

theorem force_message (message : incomingPdu.stateKey = none) :
    run (forceIfState services incomingPdu state) room = (.ok (), room) := by
  rw [forceIfState, if_neg (by simp [message])]
  rfl

theorem force_returns (isState : incomingPdu.stateKey.isSome = true) {newRoomState : ShortState}
    (returned : forcedState services room incomingPdu state = .ok newRoomState) :
    run (forceIfState services incomingPdu state) room =
    (.ok (), { room.saved (services.stateHash newRoomState) newRoomState with
      shortstatehash := some (services.stateHash newRoomState) }) := by
  rw [forceIfState, if_pos isState, resolveAndForceStateAfter, run_bind_ok (run_get room)]
  unfold forcedState at returned
  split at returned
  · cases returned
  · rename_i resolved resolves
    split at returned
    · cases returned
    · rename_i saves
      split at returned
      · cases returned
      · rename_i forces
        cases returned
        rw [run_lift_ok resolves, run_lift_ok saves, run_bind_ok run_modify, run_lift_ok forces]
        rfl

theorem force_fails (isState : incomingPdu.stateKey.isSome = true) {error : Error}
    (failed : forcedState services room incomingPdu state = .error error) :
    ∃ after, run (forceIfState services incomingPdu state) room = (.error error, after) ∧
    (after = room ∨ ∃ unused, after = room.saved (services.stateHash unused) unused) := by
  rw [forceIfState, if_pos isState, resolveAndForceStateAfter, run_bind_ok (run_get room)]
  unfold forcedState at failed
  split at failed
  · rename_i resolves
    cases failed
    exact ⟨room, run_lift_error resolves, .inl rfl⟩
  · rename_i newRoomState resolves
    rw [run_lift_ok resolves]
    split at failed
    · rename_i saves
      cases failed
      exact ⟨room, run_lift_error saves, .inl rfl⟩
    · rename_i saves
      rw [run_lift_ok saves, run_bind_ok run_modify]
      split at failed
      · rename_i forces
        cases failed
        exact ⟨_, run_lift_error forces, .inr ⟨newRoomState, rfl⟩⟩
      · cases failed

end

section

variable {Content Hash : Type} [Ord Hash] [TransOrd Hash] [LawfulEqOrd Hash] (services : Services Content Hash)
  (incomingPdu : Pdu Content)

theorem unforced_frame {services} {room after : Room Content Hash} (sound : room.Sound services)
    (unchanged : after = room ∨ ∃ unused, after = room.saved (services.stateHash unused) unused) :
    after.Sound services ∧ after.currentState = room.currentState ∧
    after.forwardExtremities = room.forwardExtremities := by
  rcases unchanged with same | saved
  · rw [same]
    exact ⟨sound, rfl, rfl⟩
  · obtain ⟨unused, rfl⟩ := saved
    exact ⟨saved_sound sound, saved_current sound, rfl⟩

end

section

variable {Content Hash : Type} [Ord Hash] [TransOrd Hash] [LawfulEqOrd Hash] (services : Services Content Hash)
  (room : Room Content Hash) (incomingPdu : Pdu Content) (state : ShortState)

omit [TransOrd Hash] [LawfulEqOrd Hash] in
theorem remaining_same_iff : computeRemainingExtremities room incomingPdu = room.forwardExtremities ↔
    ∀ eventId ∈ room.forwardExtremities, eventId ∉ incomingPdu.prevEvents ∧ eventId ∉ room.referenced := by
  constructor
  · intro same eventId member
    rw [← same] at member
    exact ((remaining_member incomingPdu room).mp member).2
  · intro clear
    apply ExtTreeSet.ext_mem
    intro eventId
    rw [remaining_member]
    exact ⟨fun kept => kept.1, fun member => ⟨member, clear eventId member⟩⟩

def Harmless : Prop :=
  (incomingPdu.stateKey.isSome ∧ ∃ error, forcedState services room incomingPdu state = .error error) ∨
  ((incomingPdu.stateKey = none ∨ ∃ newRoomState, forcedState services room incomingPdu state = .ok newRoomState ∧
    room.currentState = some newRoomState) ∧
    ((∃ error, services.saveEventState state = .error error) ∨
      ∀ eventId ∈ room.forwardExtremities, eventId ∉ incomingPdu.prevEvents ∧ eventId ∉ room.referenced))

variable {services}

theorem settle_after_force {forced : Room Content Hash} (sound : forced.Sound services)
    (forces : run (forceIfState services incomingPdu state) room = (.ok (), forced))
    (sameLeaves : forced.forwardExtremities = room.forwardExtremities) :
    (run (settleIncomingPdu services incomingPdu state true) room).2.currentState = forced.currentState ∧
    ((run (settleIncomingPdu services incomingPdu state true) room).2.forwardExtremities = room.forwardExtremities ↔
    (∃ error, services.saveEventState state = .error error) ∨
      ∀ eventId ∈ room.forwardExtremities, eventId ∉ incomingPdu.prevEvents ∧ eventId ∉ room.referenced) := by
  cases recording : services.saveEventState state with
  | error error =>
    rw [settle_unrecorded services incomingPdu state room forces recording]
    exact ⟨rfl, iff_of_true sameLeaves (.inl ⟨error, rfl⟩)⟩
  | ok done =>
    rw [settle_soft_failed services incomingPdu state room forces recording]
    refine ⟨saved_current sound, ?_⟩
    rw [remaining_same_iff]
    simp

-- The hash of the state to be forced is that of no other saved state.
def HashApart (services : Services Content Hash) (room : Room Content Hash) (incomingPdu : Pdu Content)
    (state : ShortState) : Prop :=
  ∀ newRoomState, forcedState services room incomingPdu state = .ok newRoomState →
    ∀ (sstatehash : Hash) held, room.states[sstatehash]? = some held →
    services.stateHash held = services.stateHash newRoomState → held = newRoomState

theorem settle_harmless_iff (sound : room.Sound services) (apart : HashApart services room incomingPdu state) :
    ((run (settleIncomingPdu services incomingPdu state true) room).2.currentState = room.currentState ∧
      (run (settleIncomingPdu services incomingPdu state true) room).2.forwardExtremities = room.forwardExtremities) ↔
      Harmless services room incomingPdu state := by
  cases own : incomingPdu.stateKey with
  | none =>
    have frame := settle_after_force room incomingPdu state sound (force_message services room incomingPdu state own) rfl
    rw [frame.1, frame.2]
    simp [Harmless, own]
  | some stateKey =>
    have isState : incomingPdu.stateKey.isSome = true := by simp [own]
    cases forcing : forcedState services room incomingPdu state with
    | error error =>
      obtain ⟨after, failed, unchanged⟩ := force_fails services room incomingPdu state isState forcing
      rw [settle_unforced services incomingPdu state room failed]
      exact iff_of_true (unforced_frame sound unchanged).2 (.inl ⟨isState, error, forcing⟩)
    | ok newRoomState =>
      have done := force_returns services room incomingPdu state isState forcing
      have held := saved_own sound (apart newRoomState forcing)
      have frame := settle_after_force room incomingPdu state (forced_sound sound) done rfl
      rw [frame.1, frame.2]
      have current : ({ room.saved (services.stateHash newRoomState) newRoomState with
          shortstatehash := some (services.stateHash newRoomState) } : Room Content Hash).currentState = some newRoomState := held
      rw [current]
      simp [Harmless, own, forcing, eq_comm]

variable {room incomingPdu state} {judged : Room Content Hash}

theorem soft_failed_frame_iff (sound : room.Sound services) (apart : HashApart services judged incomingPdu state)
    (new : room.timeline[incomingPdu.eventId]? = none) (fresh : room.softFailed.contains incomingPdu.eventId = false)
    (softFails : run (judgeIncomingPdu services incomingPdu) room = (.ok (state, true), judged)) :
    ((run (upgradeOutlierToTimelinePdu services incomingPdu) room).2.currentState = room.currentState ∧
      (run (upgradeOutlierToTimelinePdu services incomingPdu) room).2.forwardExtremities = room.forwardExtremities) ↔
      Harmless services judged incomingPdu state := by
  obtain ⟨outliers, rfl⟩ := kept_but_outliers (judge_keeps services incomingPdu) softFails
  rw [upgrade_fresh new fresh, run_bind_ok softFails]
  exact settle_harmless_iff _ incomingPdu state ⟨sound.hashed, sound.current⟩ apart

section

variable (services) (incomingPdu : Pdu Content)

def keepsSound (before after : Room Content Hash) : Prop := before.Sound services → after.Sound services

instance : Std.Refl (keepsSound services) := ⟨fun _ => id⟩

instance : IsTrans (Room Content Hash) (keepsSound services) := ⟨fun _ _ _ first second => second ∘ first⟩

theorem force_sound (state : ShortState) :
    Respects (keepsSound services) (forceIfState services incomingPdu state) := by
  intro room sound
  cases own : incomingPdu.stateKey with
  | none =>
    rw [force_message services room incomingPdu state own]
    exact sound
  | some stateKey =>
    have isState : incomingPdu.stateKey.isSome = true := by simp [own]
    cases forcing : forcedState services room incomingPdu state with
    | error error =>
      obtain ⟨after, failed, unchanged⟩ := force_fails services room incomingPdu state isState forcing
      rw [failed]
      exact (unforced_frame sound unchanged).1
    | ok newRoomState =>
      rw [force_returns services room incomingPdu state isState forcing]
      exact forced_sound sound

omit [LawfulEqOrd Hash] in
theorem plain_sound {change : Room Content Hash → Room Content Hash}
    (same : ∀ room, (change room).states = room.states ∧ (change room).shortstatehash = room.shortstatehash) :
    Respects (keepsSound services) (modify change : Upgrading Content Hash Unit) := by
  refine respects_modify _ fun room sound => ⟨?_, ?_⟩
  · rw [(same room).1]
    exact sound.hashed
  · rw [(same room).1, (same room).2]
    exact sound.current

theorem append_incoming_sound (leaves : BTreeSet EventId) (state : ShortState) (softFail : Bool) :
    Respects (keepsSound services) (appendIncomingPdu services incomingPdu leaves state softFail) := by
  have recorded : Respects (keepsSound services) (setEventState services incomingPdu.eventId state) :=
    respects_bind _ (respects_lift _) fun _ => respects_modify _ fun room sound => ⟨(saved_sound sound).hashed, (saved_sound sound).current⟩
  have referenced : Respects (keepsSound services)
    (markAsReferenced incomingPdu.prevEvents : Upgrading Content Hash Unit) := plain_sound services fun _ => ⟨rfl, rfl⟩
  have left : Respects (keepsSound services) (setForwardExtremities leaves : Upgrading Content Hash Unit) :=
    plain_sound services fun _ => ⟨rfl, rfl⟩
  refine respects_bind _ recorded fun _ => ?_
  cases softFail with
  | true => exact respects_bind _ referenced fun _ => respects_bind _ left fun _ => respects_pure _
  | false =>
    refine respects_bind _ (respects_bind _ (respects_lift _) fun _ => respects_bind _ (respects_get _) fun _ => ?_) fun _ => respects_pure _
    exact respects_bind _ (respects_lift _) fun _ => respects_bind _ referenced fun _ => respects_bind _ left fun _ =>
      respects_bind _ (plain_sound services fun _ => ⟨rfl, rfl⟩) fun _ => respects_bind _ (respects_lift _) fun _ => respects_pure _

theorem settle_sound (state : ShortState) (softFail : Bool) :
    Respects (keepsSound services) (settleIncomingPdu services incomingPdu state softFail) := by
  refine respects_bind _ (respects_get _) fun _ => respects_bind _ (force_sound services incomingPdu state) fun _ =>
    respects_bind _ (append_incoming_sound services incomingPdu _ state softFail) fun _ => ?_
  cases softFail with
  | true => exact respects_bind _ (plain_sound services fun _ => ⟨rfl, rfl⟩) fun _ _ sound => sound
  | false => exact respects_pure _

omit [LawfulEqOrd Hash] in
theorem judge_sound : Respects (keepsSound services) (judgeIncomingPdu services incomingPdu) := by
  intro room sound
  obtain ⟨outliers, same⟩ := kept_but_outliers (judge_keeps services incomingPdu)
    (Prod.mk.eta (p := run (judgeIncomingPdu services incomingPdu) room)).symm
  rw [same]
  exact ⟨sound.hashed, sound.current⟩

-- Whatever its outcome, an upgrade leaves each saved state under its own hash and the current one saved.
theorem upgrade_sound (room : Room Content Hash) (sound : room.Sound services) :
    (run (upgradeOutlierToTimelinePdu services incomingPdu) room).2.Sound services := by
  cases known : room.timeline[incomingPdu.eventId]? with
  | some entry => exact (upgrade_exists known).symm ▸ sound
  | none =>
    cases before : room.softFailed.contains incomingPdu.eventId with
    | true => exact (upgrade_soft_failed_before known before).symm ▸ sound
    | false =>
      rw [upgrade_fresh known before]
      exact respects_bind _ (judge_sound services incomingPdu)
        (fun judgement => settle_sound services incomingPdu judgement.1 judgement.2) room sound

end

def SoftFailRecorded (services : Services Content Hash) (room : Room Content Hash) (incomingPdu : Pdu Content)
    (state : ShortState) : Prop :=
  room.eventStates[incomingPdu.eventId]? = some (services.stateHash state) ∧
    room.states[services.stateHash state]? = some state ∧ incomingPdu.eventId ∈ room.softFailed

variable {fetched : Room Content Hash} {authEvents : BTreeMap StateKey (Pdu Content)} {error : Error}
  (rules : services.checkRules incomingPdu = .ok ())
  (resolved : run (resolveStateAtIncomingEvent services incomingPdu) room = (.ok state, fetched))
  (atEvent : services.authCheck incomingPdu fetched.getPdu (fetchAtEvent services fetched state) = .ok ())
  (gathered : getAuthEvents services fetched incomingPdu = .ok authEvents)
  (atCurrent : services.authCheck incomingPdu fetched.getPdu (fetchAuthEvent authEvents) = .error error)

include rules resolved atEvent gathered atCurrent

omit [LawfulEqOrd Hash] in
theorem judge_rejects_currently : run (judgeIncomingPdu services incomingPdu) room = (.error error, fetched) := by
  have failed : authCheckOutlierPdu services fetched incomingPdu state = .error error := by
    simp only [authCheckOutlierPdu, atEvent, gathered, atCurrent]
  rw [judgeIncomingPdu, run_lift_ok rules, run_bind_ok resolved, run_bind_ok (run_get fetched), run_lift_error failed]

omit [LawfulEqOrd Hash] in
theorem current_state_soft_fail_iff :
    SoftFailRecorded services (run (upgradeOutlierToTimelinePdu services incomingPdu) room).2 incomingPdu state ↔
      SoftFailRecorded services room incomingPdu state := by
  cases known : room.timeline[incomingPdu.eventId]? with
  | some entry => rw [upgrade_exists known]
  | none =>
    cases before : room.softFailed.contains incomingPdu.eventId with
    | true => rw [upgrade_soft_failed_before known before]
    | false =>
      obtain ⟨outliers, rfl⟩ := kept_but_outliers (resolve_state_at_keeps services incomingPdu) resolved
      rw [upgrade_fresh known before, run_bind_error (judge_rejects_currently rules resolved atEvent gathered atCurrent)]
      rfl

end

def bobJoined : ShortState := ofList [(1, "$c"), (2, "$a"), (3, "$b")]

def bobGone : ShortState := ofList [(1, "$c"), (2, "$a"), (3, "$k")]

def unreachable (_ : EventId) : Except Error ShortState := .error notInDatabase

def bobTopic : Pdu ParsedContent := roomEvent "$t" "m.room.topic" "@bob" (some "") ["$b"] ["$c", "$b"] 5

-- The policy server refuses the topic. It is forced on the room nonetheless, and
-- no extremity is left.
theorem refused_topic_forced : (run (judgeIncomingPdu (serverOf .invalid unreachable) bobTopic)
    (serverRoom [] bobJoined ["$b"])).1 = .ok (bobJoined, true) ∧
    (serverRoom [] bobJoined ["$b"]).currentState = some bobJoined ∧
    (run (upgradeOutlierToTimelinePdu (serverOf .invalid unreachable) bobTopic) (serverRoom [] bobJoined ["$b"])).1 =
    .error softFailedError ∧ (run (upgradeOutlierToTimelinePdu (serverOf .invalid unreachable) bobTopic)
    (serverRoom [] bobJoined ["$b"])).2.currentState = some (bobJoined.insert 4 "$t") ∧
    (run (upgradeOutlierToTimelinePdu (serverOf .invalid unreachable) bobTopic)
    (serverRoom [] bobJoined ["$b"])).2.forwardExtremities = ∅ := by
  decide +kernel

theorem sound_of_rows {Content Hash : Type} [Ord Hash] [TransOrd Hash] [LawfulEqOrd Hash]
    {services : Services Content Hash}
    {room : Room Content Hash} (rows : ∀ entry ∈ room.states.toList, services.stateHash entry.2 = entry.1)
    (current : ∀ sstatehash ∈ room.shortstatehash, (room.states[sstatehash]?).isSome) : room.Sound services where
  hashed := fun sstatehash state read => rows (sstatehash, state) (mem_toList_iff_getElem?_eq_some.mpr read)
  current := fun sstatehash isHash => Option.isSome_iff_exists.mp (current sstatehash isHash)

def bobMessage : Pdu ParsedContent := roomEvent "$m" "m.room.message" "@bob" none ["$b"] ["$c", "$b"] 5

def bobKicked : Pdu ParsedContent := memberEvent "$k" "@bob" "leave" ["$b"] 4

def aliceTopic : Pdu ParsedContent := roomEvent "$u" "m.room.topic" "@alice" (some "") ["$b"] ["$c", "$a"] 4

theorem refused_message_harmless : (run (upgradeOutlierToTimelinePdu (serverOf .invalid unreachable) bobMessage)
      (serverRoom [aliceTopic] bobJoined ["$u"])).2.currentState = some bobJoined ∧
    (run (upgradeOutlierToTimelinePdu (serverOf .invalid unreachable) bobMessage)
      (serverRoom [aliceTopic] bobJoined ["$u"])).2.forwardExtremities = ExtTreeSet.ofList ["$u"] := by
  have sound : (serverRoom [aliceTopic] bobJoined ["$u"]).Sound (serverOf .invalid unreachable) :=
    sound_of_rows (by decide +kernel) (by decide +kernel)
  have softFails : run (judgeIncomingPdu (serverOf .invalid unreachable) bobMessage)
    (serverRoom [aliceTopic] bobJoined ["$u"]) = (.ok (bobJoined, true),
        (run (judgeIncomingPdu (serverOf .invalid unreachable) bobMessage) (serverRoom [aliceTopic] bobJoined ["$u"])).2) :=
    Prod.ext (by decide +kernel) rfl
  have leaves : ∀ eventId ∈ (serverRoom [aliceTopic] bobJoined ["$u"]).forwardExtremities.toList,
      eventId ∉ bobMessage.prevEvents ∧ eventId ∉ (serverRoom [aliceTopic] bobJoined ["$u"]).referenced := by decide +kernel
  refine (soft_failed_frame_iff sound (fun _ _ _ _ _ same => server_hash_injective .invalid unreachable same)
    (by decide +kernel) (by decide +kernel) softFails).mpr (Or.inr ⟨Or.inl rfl, Or.inr ?_⟩)
  obtain ⟨outliers, same⟩ := kept_but_outliers (judge_keeps (serverOf .invalid unreachable) bobMessage) softFails
  rw [same]
  exact fun eventId member => leaves eventId (ExtTreeSet.mem_toList.mpr member)

def lateRoom : Room ParsedContent (List (Nat × EventId)) := serverRoom [bobKicked] bobGone ["$k"]

def lateServer : Services ParsedContent (List (Nat × EventId)) := serverOf .notApplicable unreachable

-- Bob was joined when $m was written, and kicked before it arrived. It passes
-- against its auth events and against the state at the event, and is dropped.
theorem late_message_dropped : authCheckJoined bobMessage lateRoom.getPdu
    (fetchAuthEvent (ofList [((memberType, "@bob"), memberEvent "$b" "@bob" "join" ["$a"] 3)])) = .ok () ∧
    (run (resolveStateAtIncomingEvent lateServer bobMessage) lateRoom).1 = .ok bobJoined ∧
    authCheckJoined bobMessage lateRoom.getPdu (fetchAtEvent lateServer lateRoom bobJoined) = .ok () ∧
    (run (upgradeOutlierToTimelinePdu lateServer bobMessage) lateRoom).1 = .error ⟨.forbidden, "sender is not joined"⟩ ∧
    (run (upgradeOutlierToTimelinePdu lateServer bobMessage) lateRoom).2.softFailed = ∅ ∧
    stateAtIncomingDegreeOne ((run (upgradeOutlierToTimelinePdu lateServer bobMessage) lateRoom).2.store lateServer)
    "$m" = .ok none := by
  decide +kernel

theorem late_message_unrecorded : ¬ SoftFailRecorded lateServer
    (run (upgradeOutlierToTimelinePdu lateServer bobMessage) lateRoom).2 bobMessage bobJoined := by
  have resolved : run (resolveStateAtIncomingEvent lateServer bobMessage) lateRoom = (.ok bobJoined, lateRoom) := by
    have found : stateAtIncoming lateServer lateRoom bobMessage = .ok (some bobJoined) := by decide +kernel
    rw [resolveStateAtIncomingEvent, run_bind_ok (run_get lateRoom), run_lift_ok found]
    rfl
  have gathered : getAuthEvents lateServer lateRoom bobMessage = .ok (ofList
      [(createKey, roomEvent "$c" createType "@alice" (some "") [] [] 1), ((memberType, "@bob"), bobKicked)]) := by decide +kernel
  have atEvent : lateServer.authCheck bobMessage lateRoom.getPdu (fetchAtEvent lateServer lateRoom bobJoined) = .ok
    () := by decide +kernel
  have atCurrent : lateServer.authCheck bobMessage lateRoom.getPdu (fetchAuthEvent (ofList
      [(createKey, roomEvent "$c" createType "@alice" (some "") [] [] 1), ((memberType, "@bob"), bobKicked)])) =
      .error ⟨.forbidden, "sender is not joined"⟩ := by decide +kernel
  rw [current_state_soft_fail_iff rfl resolved atEvent gathered atCurrent]
  intro before
  have unmarked : "$m" ∉ lateRoom.softFailed := by decide +kernel
  exact unmarked before.2.2

end GaussMatrix.Rooms

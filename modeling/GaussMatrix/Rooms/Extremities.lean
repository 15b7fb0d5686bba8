import GaussMatrix.Rooms.SoftFail

namespace GaussMatrix.Rooms

open Collections Handlers StateRes Std ExtTreeSet

variable {leaves : BTreeSet EventId} {state : ShortState} {softFail : Bool}

section

variable {Content Hash : Type} [Ord Hash] [TransOrd Hash] {services : Services Content Hash} {incomingPdu : Pdu Content}
  {room after : Room Content Hash} {pduId : RawPduId}

theorem force_keeps_timeline (services : Services Content Hash) (incomingPdu : Pdu Content) (state : ShortState) :
    Respects (keeps Room.timeline) (forceIfState services incomingPdu state) := by
  rw [forceIfState]
  split
  · exact respects_bind _ (respects_get _) fun _ => respects_bind _ (respects_lift _) fun _ => respects_bind _ (respects_lift _) fun _ =>
      respects_bind _ (respects_modify _ fun _ => rfl) fun _ => respects_bind _ (respects_lift _) fun _ =>
        respects_modify _ fun _ => rfl
  · exact respects_pure _

omit [TransOrd Hash] in
theorem append_pdu_returns (returned : run (appendPdu services incomingPdu leaves) room = (.ok pduId, after)) :
    after.timeline = room.timeline.insert incomingPdu.eventId (pduId, incomingPdu) ∧
    after.forwardExtremities = leaves := by
  obtain ⟨shortroomid, _, rest⟩ := run_lift_returns returned
  rw [run_bind_ok (run_get room)] at rest
  obtain ⟨_, _, marking⟩ := run_lift_returns rest
  rw [markAsReferenced, run_bind_ok run_modify, setForwardExtremities, run_bind_ok run_modify,
    run_bind_ok run_modify] at marking
  obtain ⟨_, _, ended⟩ := run_lift_returns marking
  cases ended
  exact ⟨rfl, rfl⟩

theorem append_incoming_returns (returned : run (appendIncomingPdu services incomingPdu leaves state softFail) room = (.ok (some pduId), after)) :
    after.timeline = room.timeline.insert incomingPdu.eventId (pduId, incomingPdu) ∧ after.forwardExtremities = leaves := by
  obtain ⟨_, recorded, recording, rest⟩ := run_bind_returns returned
  obtain ⟨_, _, saved⟩ := run_lift_returns recording
  cases saved
  cases softFail with
  | true => cases rest
  | false =>
    obtain ⟨appended, last, appending, ended⟩ := run_bind_returns rest
    cases ended
    have done := append_pdu_returns appending
    exact done

theorem settle_returns {fresh : Bool}
    (returned : run (settleIncomingPdu services incomingPdu state softFail) room = (.ok (some (pduId, fresh)), after)) :
    after.timeline = room.timeline.insert incomingPdu.eventId (pduId, incomingPdu) ∧
      after.forwardExtremities = (computeRemainingExtremities room incomingPdu).insert incomingPdu.eventId := by
  rw [settleIncomingPdu, run_bind_ok (run_get room)] at returned
  obtain ⟨_, forced, forcing, rest⟩ := run_bind_returns returned
  obtain ⟨appended, last, appending, ended⟩ := run_bind_returns rest
  have timeline := force_keeps_timeline services incomingPdu state room
  rw [forcing] at timeline
  cases softFail with
  | true => cases ended
  | false =>
    cases appended with
    | none => cases ended
    | some id =>
      cases ended
      rw [← (timeline : forced.timeline = room.timeline)]
      exact append_incoming_returns appending

theorem upgrade_accepts (accepted : run (upgradeOutlierToTimelinePdu services incomingPdu) room =
    (.ok (some (pduId, true)), after)) : room.timeline[incomingPdu.eventId]? = none ∧
    after.timeline = room.timeline.insert incomingPdu.eventId (pduId, incomingPdu) ∧
    after.forwardExtremities = (computeRemainingExtremities room incomingPdu).insert incomingPdu.eventId := by
  cases known : room.timeline[incomingPdu.eventId]? with
  | some entry =>
    rw [upgrade_exists known] at accepted
    cases accepted
  | none =>
    cases before : room.softFailed.contains incomingPdu.eventId with
    | true =>
      rw [upgrade_soft_failed_before known before] at accepted
      cases accepted
    | false =>
      rw [upgrade_fresh known before] at accepted
      obtain ⟨judgement, judged, judging, settling⟩ := run_bind_returns accepted
      obtain ⟨outliers, rfl⟩ := kept_but_outliers (judge_keeps services incomingPdu) judging
      have settled := settle_returns settling
      exact ⟨rfl, settled⟩

end

variable {eventId : EventId}

section

variable {Content Hash : Type} [Ord Hash]

def Room.Accepted (room : Room Content Hash) (eventId : EventId) : Prop := ∃ entry, room.timeline[eventId]? = some entry

def Room.Named (room : Room Content Hash) (eventId : EventId) : Prop :=
  ∃ (child : EventId) (entry : RawPduId × Pdu Content), room.timeline[child]? = some entry ∧
    eventId ∈ entry.2.prevEvents

def Room.Exact (room : Room Content Hash) : Prop :=
  ∀ eventId, eventId ∈ room.forwardExtremities ↔ room.Accepted eventId ∧ ¬ room.Named eventId

structure Fits (room : Room Content Hash) (incomingPdu : Pdu Content) : Prop where
  unnamed : ¬ room.Named incomingPdu.eventId
  notSelf : incomingPdu.eventId ∉ incomingPdu.prevEvents
  unmarked : ∀ eventId ∈ room.forwardExtremities, eventId ∈ incomingPdu.prevEvents ∨ eventId ∉ room.referenced

variable {services : Services Content Hash} {incomingPdu : Pdu Content} {room after : Room Content Hash}
  {pduId : RawPduId}

section

variable (appended : after.timeline = room.timeline.insert incomingPdu.eventId (pduId, incomingPdu))

include appended

theorem accepted_after (eventId : EventId) : after.Accepted eventId ↔ eventId = incomingPdu.eventId ∨
    room.Accepted eventId := by
  by_cases own : eventId = incomingPdu.eventId
  · simp [Room.Accepted, appended, own]
  · simp only [Room.Accepted, appended, insert_elsewhere own, own, false_or]

theorem named_after (new : room.timeline[incomingPdu.eventId]? = none) (eventId : EventId) :
    after.Named eventId ↔ eventId ∈ incomingPdu.prevEvents ∨ room.Named eventId := by
  constructor
  · intro named
    obtain ⟨child, entry, read, member⟩ := named
    rw [appended] at read
    by_cases own : child = incomingPdu.eventId
    · rw [own, ExtTreeMap.getElem?_insert_self] at read
      cases read
      exact .inl member
    · rw [insert_elsewhere own] at read
      exact .inr ⟨child, entry, read, member⟩
  · intro named
    rcases named with byNew | byOld
    · exact ⟨incomingPdu.eventId, (pduId, incomingPdu), by rw [appended, ExtTreeMap.getElem?_insert_self], byNew⟩
    · obtain ⟨child, entry, read, member⟩ := byOld
      have other : child ≠ incomingPdu.eventId := by
        intro same
        rw [same, new] at read
        cases read
      exact ⟨child, entry, by rw [appended, insert_elsewhere other, read], member⟩

end

theorem extremity_after (leaves : after.forwardExtremities = (computeRemainingExtremities room incomingPdu).insert
    incomingPdu.eventId) : eventId ∈ after.forwardExtremities ↔ eventId = incomingPdu.eventId ∨
      (eventId ∈ room.forwardExtremities ∧ eventId ∉ incomingPdu.prevEvents ∧ eventId ∉ room.referenced) := by
  rw [leaves, mem_insert, remaining_member, LawfulEqOrd.compare_eq_iff_eq, eq_comm]

variable [TransOrd Hash]

theorem exact_step_iff (exact : room.Exact)
    (accepted : run (upgradeOutlierToTimelinePdu services incomingPdu) room = (.ok (some (pduId, true)), after)) :
    after.Exact ↔ Fits room incomingPdu := by
  obtain ⟨new, appended, leaves⟩ := upgrade_accepts accepted
  have unaccepted : ¬ room.Accepted incomingPdu.eventId := by
    intro known
    obtain ⟨entry, read⟩ := known
    rw [new] at read
    cases read
  have stated : after.Exact ↔ ∀ eventId, (eventId = incomingPdu.eventId ∨
    (eventId ∈ room.forwardExtremities ∧ eventId ∉ incomingPdu.prevEvents ∧ eventId ∉ room.referenced)) ↔
      ((eventId = incomingPdu.eventId ∨ room.Accepted eventId) ∧ ¬ (eventId ∈ incomingPdu.prevEvents ∨ room.Named eventId)) := by
    simp only [Room.Exact, extremity_after leaves, accepted_after appended, named_after appended new]
  rw [stated]
  constructor
  · intro exactAfter
    have own := ((exactAfter incomingPdu.eventId).mp (.inl rfl)).2
    refine ⟨fun named => own (.inr named), fun names => own (.inl names), fun eventId member => ?_⟩
    by_cases names : eventId ∈ incomingPdu.prevEvents
    · exact .inl names
    · obtain ⟨known, free⟩ := (exact eventId).mp member
      rcases (exactAfter eventId).mpr ⟨.inr known, fun named => named.elim names free⟩ with same | kept
      · exact absurd (same ▸ known) unaccepted
      · exact .inr kept.2.2
  · intro fits eventId
    by_cases own : eventId = incomingPdu.eventId
    · subst own
      exact iff_of_true (.inl rfl) ⟨.inl rfl, fun named => named.elim fits.notSelf fits.unnamed⟩
    · simp only [own, false_or, exact eventId, not_or]
      constructor
      · intro kept
        exact ⟨kept.1.1, kept.2.1, kept.1.2⟩
      · intro free
        have member := (exact eventId).mpr ⟨free.1, free.2.2⟩
        exact ⟨⟨free.1, free.2.2⟩, free.2.1, (fits.unmarked eventId member).resolve_left free.2.1⟩

def roomsAfter (room : Room Content Hash) : List (Services Content Hash × Pdu Content) → List (Room Content Hash)
  | [] => []
  | (services, incomingPdu) :: rest =>
    let after := (run (upgradeOutlierToTimelinePdu services incomingPdu) room).2
    after :: roomsAfter after rest

def AllAccepted (room : Room Content Hash) : List (Services Content Hash × Pdu Content) → Prop
  | [] => True
  | (services, incomingPdu) :: rest =>
    (∃ pduId, (run (upgradeOutlierToTimelinePdu services incomingPdu) room).1 = .ok (some (pduId, true))) ∧
      AllAccepted (run (upgradeOutlierToTimelinePdu services incomingPdu) room).2 rest

def AllFit (room : Room Content Hash) : List (Services Content Hash × Pdu Content) → Prop
  | [] => True
  | (services, incomingPdu) :: rest =>
    Fits room incomingPdu ∧ AllFit (run (upgradeOutlierToTimelinePdu services incomingPdu) room).2 rest

theorem extremities_exact_iff (events : List (Services Content Hash × Pdu Content)) (room : Room Content Hash)
    (exact : room.Exact) (accepted : AllAccepted room events) :
    (∀ after ∈ roomsAfter room events, after.Exact ∧ after.forwardExtremities ≠ ∅) ↔ AllFit room events := by
  induction events generalizing room with
  | nil => simp [roomsAfter, AllFit]
  | cons event rest ih =>
    obtain ⟨services, incomingPdu⟩ := event
    obtain ⟨⟨pduId, returned⟩, later⟩ := accepted
    have step : run (upgradeOutlierToTimelinePdu services incomingPdu) room =
        (.ok (some (pduId, true)), (run (upgradeOutlierToTimelinePdu services incomingPdu) room).2) := Prod.ext returned rfl
    have stepIff := exact_step_iff exact step
    have nonempty : (run (upgradeOutlierToTimelinePdu services incomingPdu) room).2.forwardExtremities ≠ ∅ := by
      intro empty
      have own := (extremity_after (upgrade_accepts step).2.2).mpr (Or.inl rfl)
      rw [empty] at own
      exact not_mem_empty own
    rw [roomsAfter, List.forall_mem_cons, AllFit]
    constructor
    · intro all
      exact ⟨stepIff.mp all.1.1, (ih _ all.1.1 later).mp all.2⟩
    · intro fit
      have exactAfter := stepIff.mpr fit.1
      exact ⟨⟨exactAfter, nonempty⟩, (ih _ exactAfter later).mpr fit.2⟩

end

section

variable {Content Hash : Type} [Ord Hash]

theorem accepted_row_iff (room : Room Content Hash) (eventId : EventId) :
    eventId ∈ room.timeline.toList.map Prod.fst ↔ room.Accepted eventId := by
  simp only [List.mem_map, Prod.exists, ExtTreeMap.mem_toList_iff_getElem?_eq_some, exists_and_right,
    exists_eq_right, Room.Accepted]

variable {room : Room Content Hash}

theorem named_row_iff : eventId ∈ room.timeline.toList.flatMap (fun row => row.2.2.prevEvents) ↔
    room.Named eventId := by
  rw [List.mem_flatMap]
  constructor
  · intro found
    obtain ⟨row, member, names⟩ := found
    exact ⟨row.1, row.2, ExtTreeMap.mem_toList_iff_getElem?_eq_some.mp member, names⟩
  · intro named
    obtain ⟨child, entry, read, names⟩ := named
    exact ⟨(child, entry), ExtTreeMap.mem_toList_iff_getElem?_eq_some.mpr read, names⟩

instance (room : Room Content Hash) (eventId : EventId) : Decidable (room.Named eventId) :=
  decidable_of_iff _ named_row_iff

theorem exact_rows_iff : room.forwardExtremities = ExtTreeSet.ofList
    ((room.timeline.toList.map Prod.fst).filter fun eventId => ¬ room.Named eventId) ↔ room.Exact := by
  rw [ExtTreeSet.ext_mem_iff, Room.Exact]
  refine forall_congr' fun eventId => ?_
  rw [ExtTreeSet.mem_ofList, List.contains_iff_mem, List.mem_filter, accepted_row_iff]
  simp

instance (room : Room Content Hash) : Decidable room.Exact := decidable_of_iff _ exact_rows_iff

instance (room : Room Content Hash) (incomingPdu : Pdu Content) : Decidable (Fits room incomingPdu) :=
  decidable_of_iff (¬ room.Named incomingPdu.eventId ∧ incomingPdu.eventId ∉ incomingPdu.prevEvents ∧
      ∀ eventId ∈ room.forwardExtremities.toList, eventId ∈ incomingPdu.prevEvents ∨ eventId ∉ room.referenced)
    ⟨fun fits => ⟨fits.1, fits.2.1, fun eventId member => fits.2.2 eventId (mem_toList.mpr member)⟩,
      fun fits => ⟨fits.unnamed, fits.notSelf, fun eventId member => fits.unmarked eventId (mem_toList.mp member)⟩⟩

end

def parentMessage : Pdu ParsedContent := roomEvent "$x" "m.room.message" "@alice" none ["$b"] ["$c", "$a"] 6

def childMessage : Pdu ParsedContent := roomEvent "$y" "m.room.message" "@bob" none ["$x"] ["$c", "$b"] 7

def openServer : Services ParsedContent (List (Nat × EventId)) := serverOf .notApplicable fun _ => .ok bobJoined

def quietRoom : Room ParsedContent (List (Nat × EventId)) := serverRoom [] bobJoined ["$b"]

def markedRoom : Room ParsedContent (List (Nat × EventId)) :=
  { serverRoom [aliceTopic] bobJoined ["$u"] with referenced := ExtTreeSet.ofList ["$c", "$a", "$b", "$u"] }

-- A parent that comes after its child is listed beside it, and a marked
-- extremity is dropped by an event that does not name it.
theorem late_parent_listed : quietRoom.Exact ∧
    AllAccepted quietRoom [(openServer, childMessage), (openServer, parentMessage)] ∧
    (roomsAfter quietRoom [(openServer, childMessage), (openServer, parentMessage)]).map
    (fun after => after.forwardExtremities.toList) = [["$b", "$y"], ["$x", "$y"]] ∧
    (∃ after ∈ roomsAfter quietRoom [(openServer, childMessage), (openServer, parentMessage)], ¬ after.Exact) ∧
    markedRoom.Exact ∧
    AllAccepted markedRoom [(openServer, parentMessage)] ∧
    (roomsAfter markedRoom [(openServer, parentMessage)]).map
    (fun after => after.forwardExtremities.toList) = [["$x"]] := by
  refine ⟨by decide +kernel, ⟨⟨(1, 9), by decide +kernel⟩, ⟨(1, 11), by decide +kernel⟩, trivial⟩, by decide +kernel, by decide +kernel,
    by decide +kernel, ⟨⟨(1, 9), by decide +kernel⟩, trivial⟩, by decide +kernel⟩

theorem parent_first_exact : AllFit quietRoom [(openServer, parentMessage), (openServer, childMessage)] ∧
      ∀ after ∈ roomsAfter quietRoom [(openServer, parentMessage), (openServer, childMessage)], after.Exact ∧
      after.forwardExtremities ≠ ∅ := by
  have accepted : AllAccepted quietRoom [(openServer, parentMessage), (openServer, childMessage)] :=
    ⟨⟨(1, 9), by decide +kernel⟩, ⟨(1, 11), by decide +kernel⟩, trivial⟩
  have fit : AllFit quietRoom [(openServer, parentMessage), (openServer, childMessage)] :=
    ⟨by decide +kernel, by decide +kernel, trivial⟩
  exact ⟨fit, (extremities_exact_iff _ quietRoom (by decide +kernel) accepted).mpr fit⟩

end GaussMatrix.Rooms

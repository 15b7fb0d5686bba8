import GaussMatrix.Library.OrderedBuffer
import GaussMatrix.Rooms.TopologicalSort
import GaussMatrix.Rooms.Upgrade

namespace GaussMatrix.Rooms

open Bfs Collections Handlers List Option OrderedBuffer StateRes Std.ExtTreeMap

def maxPrevEvents : Nat := 20

structure Incoming where
  origin : String
  roomId : String
  eventId : EventId
  firstTsInRoom : Nat

structure PrevServices (Content Json : Type) where
  running : EventId → Bool
  nonOutlierPduExists : EventId → Bool
  fetchAuth : EventId → List (Pdu Content × Option Json)
  maxFetchPrevEvents : Nat
  getOutlierPduJson : EventId → Option Json
  isDisabled : EventId → Bool
  isBackedOff : EventId → Bool

structure PrevGraph (Content Json : Type) where
  amount : Nat
  eventidInfo : BTreeMap EventId (Pdu Content × Json)
  graph : EventGraph

section

variable {Content Json : Type} (services : PrevServices Content Json) (incoming : Incoming)

def checkRoomId (pdu : Pdu Content) (roomId : String) : Except Error Unit :=
  if pdu.roomId ≠ roomId then .error ⟨.invalidParam, "Event in wrong room"⟩ else .ok ()

def PrevGraph.unlinked (found : PrevGraph Content Json) (eventId : EventId) : PrevGraph Content Json :=
  { found with graph := found.graph.insert eventId [] }

def fetchPrevStep (found : PrevGraph Content Json) (prevEventId : EventId) :
    Except Error (PrevGraph Content Json × List EventId) := do
  if !services.running prevEventId then throw ⟨.unknown, "Server shutting down"⟩
  match (services.fetchAuth prevEventId).getLast? with
  | none => pure (found.unlinked prevEventId, [])
  | some (pdu, jsonOpt) =>
    checkRoomId pdu incoming.roomId
    if found.amount > services.maxFetchPrevEvents then pure (found.unlinked prevEventId, [])
    else
      match jsonOpt.or (services.getOutlierPduJson prevEventId) with
      | none => pure (found.unlinked prevEventId, [])
      | some json =>
        let eventidInfo := found.eventidInfo.insert prevEventId (pdu, json)
        if pdu.originServerTs > incoming.firstTsInRoom then
          pure ({ amount := min (found.amount + 1) 65535
                  eventidInfo := eventidInfo
                  graph := found.graph.insert prevEventId pdu.prevEvents },
            pdu.prevEvents.filter fun prevPrev => !found.graph.contains prevPrev)
        else pure ({ found.unlinked prevEventId with eventidInfo := eventidInfo }, [])

def fetchPrevLoop : Nat → PrevGraph Content Json → List EventId → Option (Except Error (PrevGraph Content Json))
  | _, found, [] => some (.ok found)
  | 0, _, _ :: _ => none
  | fuel + 1, found, prevEventId :: todo =>
    match fetchPrevStep services incoming found prevEventId with
    | .error error => some (.error error)
    | .ok (next, more) => fetchPrevLoop fuel next (todo ++ more)

def eventFetch (eventidInfo : BTreeMap EventId (Pdu Content × Json)) (eventId : EventId) :
    Except Error (UserPowerLevel × Nat) :=
  .ok (.int 0, (eventidInfo[eventId]?.map fun info => info.1.originServerTs).getD 0)

def sortPrev (fuel : Nat) (found : PrevGraph Content Json) : Option (Except Error (List EventId)) :=
  topologicalSort (eventFetch found.eventidInfo) fuel found.graph.toList

def fetchPrev (fuel : Nat) (initialSet : List EventId) :
    Option (Except Error (List EventId × BTreeMap EventId (Pdu Content × Json))) :=
  let todo := initialSet.filter fun eventId => !services.nonOutlierPduExists eventId
  match fetchPrevLoop services incoming fuel ⟨0, ∅, ∅⟩ todo with
  | none => none
  | some (.error error) => some (.error error)
  | some (.ok found) =>
    (sortPrev fuel found).map fun sorted =>
      match sorted with
      | .error error => .error ⟨.database, s!"Error sorting prev events: {error.message}"⟩
      | .ok sorted => .ok (sorted, found.eventidInfo)

def prevToUpgrade (eventidInfo : Option (Pdu Content × Json)) (prevId : EventId) :
    Except Error (Option (Pdu Content × Json)) :=
  if services.isDisabled prevId then
    .error ⟨.forbidden, s!"Federaton of room {incoming.roomId} is currently disabled on this server. Request by origin {incoming.origin} and event ID {incoming.eventId}"⟩
  else
    match eventidInfo with
    | none => .ok none
    | some info =>
      if info.1.originServerTs < incoming.firstTsInRoom then .ok none
      else if services.isBackedOff prevId then .ok none
      else .ok (some info)

def handlePrevPdu {Hash : Type} [Ord Hash] [Std.TransOrd Hash] (upgrading : Services Content Hash)
    (eventidInfo : Option (Pdu Content × Json)) (prevId : EventId) :
    Upgrading Content Hash (Option (RawPduId × Bool)) := do
  match ← liftM (prevToUpgrade services incoming eventidInfo prevId) with
  | none => pure none
  | some info => upgradeOutlierToTimelinePdu upgrading info.1

def prevItems : BTreeMap EventId (Pdu Content × Json) → List EventId → List (EventId × Option (Pdu Content × Json))
  | _, [] => []
  | eventidInfo, prevId :: rest => (prevId, eventidInfo[prevId]?) :: prevItems (eventidInfo.erase prevId) rest

def upgradeOf (item : EventId × Option (Pdu Content × Json)) : Option (Pdu Content × Json) :=
  match prevToUpgrade services incoming item.2 item.1 with
  | .error _ => none
  | .ok upgrade => upgrade

variable (eventidInfo : BTreeMap EventId (Pdu Content × Json)) (sorted : List EventId)

def upgradeAt (i : Nat) : Option (Pdu Content × Json) :=
  (prevItems eventidInfo sorted)[i]?.bind (upgradeOf services incoming)

def parentAt (i parent : Nat) : Prop := ∃ info prevId, upgradeAt services incoming eventidInfo sorted i = some info ∧
    sorted[parent]? = some prevId ∧ prevId ∈ info.1.prevEvents

def ParentsFirst (width : Nat) : Prop :=
  NeedsFinished width sorted.length (fun i => (upgradeAt services incoming eventidInfo sorted i).isSome)
    (parentAt services incoming eventidInfo sorted)

end

section

variable {Content Json : Type} (services : PrevServices Content Json) (incoming : Incoming)
  (eventidInfo : BTreeMap EventId (Pdu Content × Json)) (sorted : List EventId)

structure Upgraded (prevId : EventId) (info : Pdu Content × Json) : Prop where
  known : eventidInfo[prevId]? = some info
  enabled : services.isDisabled prevId = false
  recent : incoming.firstTsInRoom ≤ info.1.originServerTs
  allowed : services.isBackedOff prevId = false

theorem upgrade_of_some (prevId : EventId) (found : Option (Pdu Content × Json)) (info : Pdu Content × Json) :
    upgradeOf services incoming (prevId, found) = some info ↔ found = some info ∧ services.isDisabled prevId = false ∧
      incoming.firstTsInRoom ≤ info.1.originServerTs ∧ services.isBackedOff prevId = false := by
  unfold upgradeOf prevToUpgrade
  cases services.isDisabled prevId with
  | true => simp
  | false =>
    cases found with
    | none => simp
    | some known =>
      by_cases old : known.1.originServerTs < incoming.firstTsInRoom
      · have late : known = info → ¬ incoming.firstTsInRoom ≤ info.1.originServerTs := fun same => same ▸ Nat.not_le.mpr old
        simpa [old] using fun same recent => absurd recent (late same)
      · have recent : known = info → incoming.firstTsInRoom ≤ info.1.originServerTs := fun same => same ▸ not_lt.mp old
        cases services.isBackedOff prevId with
        | true => simp [old]
        | false => simpa [old] using recent

variable {info : Pdu Content × Json}

theorem upgrade_of_iff {prevId : EventId} : upgradeOf services incoming (prevId, eventidInfo[prevId]?) = some info ↔
    Upgraded services incoming eventidInfo prevId info := by
  rw [upgrade_of_some]
  exact ⟨fun parts => ⟨parts.1, parts.2.1, parts.2.2.1, parts.2.2.2⟩, fun upgraded =>
    ⟨upgraded.known, upgraded.enabled, upgraded.recent, upgraded.allowed⟩⟩

theorem prev_items_read (i : Nat) : (prevItems eventidInfo sorted)[i]? =
    sorted[i]?.map fun prevId => (prevId, if prevId ∈ sorted.take i then none else eventidInfo[prevId]?) := by
  induction sorted generalizing eventidInfo i with
  | nil => rfl
  | cons first rest ih =>
    cases i with
    | zero => simp [prevItems]
    | succ i =>
      rw [prevItems, getElem?_cons_succ, getElem?_cons_succ, ih (eventidInfo.erase first) i]
      refine Option.map_congr fun prevId _ => ?_
      rw [take_succ_cons, getElem?_erase]
      by_cases same : prevId = first
      · simp [same]
      · have different : compare first prevId ≠ .eq := fun equal => same (Std.LawfulEqOrd.eq_of_compare equal).symm
        simp [same, different]

theorem upgrade_at_iff {i : Nat} : upgradeAt services incoming eventidInfo sorted i = some info ↔
    ∃ prevId ∈ sorted, sorted.idxOf prevId = i ∧ Upgraded services incoming eventidInfo prevId info := by
  rw [upgradeAt, prev_items_read]
  constructor
  · intro upgrades
    obtain ⟨item, found, upgrade⟩ := bind_eq_some_iff.mp upgrades
    obtain ⟨prevId, listed, same⟩ := map_eq_some_iff.mp found
    subst same
    have member := mem_of_getElem? listed
    by_cases earlier : prevId ∈ sorted.take i
    · rw [if_pos earlier, upgrade_of_some] at upgrade
      cases upgrade.1
    · rw [if_neg earlier] at upgrade
      have least := mt (mem_take_iff_idxOf_lt member).mpr earlier
      obtain ⟨below, isPrev⟩ := List.getElem?_eq_some_iff.mp listed
      have within : prevId ∈ sorted.take (i + 1) := mem_take_iff_getElem.mpr ⟨i, by omega, isPrev⟩
      have most := (mem_take_iff_idxOf_lt member).mp within
      exact ⟨prevId, member, by omega, (upgrade_of_iff services incoming eventidInfo).mp upgrade⟩
  · intro upgrades
    obtain ⟨prevId, member, place, upgraded⟩ := upgrades
    have listed : sorted[i]? = some prevId := by
      rw [← place]
      exact getElem?_idxOf member
    have first : prevId ∉ sorted.take i := by
      rw [mem_take_iff_idxOf_lt member, place]
      exact Nat.lt_irrefl i
    rw [listed, map_some, if_neg first, bind_some]
    exact (upgrade_of_iff services incoming eventidInfo).mpr upgraded

theorem parents_first_width_iff {width : Nat} (room : 0 < width) :
    ParentsFirst services incoming eventidInfo sorted width ↔
      ∀ child ∈ sorted, ∀ parent ∈ sorted, ∀ info parentInfo, Upgraded services incoming eventidInfo child info →
        Upgraded services incoming eventidInfo parent parentInfo → parent ∈ info.1.prevEvents →
        sorted.idxOf parent + width ≤ sorted.idxOf child := by
  rw [ParentsFirst, needs_finished_iff width sorted.length _ room]
  constructor
  · intro apart child inChild parent inParent info parentInfo childUp parentUp lists
    have atChild := (upgrade_at_iff services incoming eventidInfo sorted).mpr ⟨child, inChild, rfl, childUp⟩
    have atParent := (upgrade_at_iff services incoming eventidInfo sorted).mpr ⟨parent, inParent, rfl, parentUp⟩
    exact apart _ (idxOf_lt_length_of_mem inChild) _ (idxOf_lt_length_of_mem inParent) (isSome_of_eq_some atChild)
      (isSome_of_eq_some atParent)
      ⟨info, parent, atChild, getElem?_idxOf inParent, lists⟩
  · intro apart item _ needed _ _ neededUp isParent
    obtain ⟨info, prevId, atItem, atNeeded, lists⟩ := isParent
    obtain ⟨parentInfo, atParent⟩ := isSome_iff_exists.mp neededUp
    obtain ⟨child, inChild, childPlace, childUp⟩ := (upgrade_at_iff services incoming eventidInfo sorted).mp atItem
    obtain ⟨parent, inParent, parentPlace, parentUp⟩ := (upgrade_at_iff services incoming eventidInfo sorted).mp atParent
    have same : prevId = parent := by
      rw [← parentPlace, getElem?_idxOf inParent] at atNeeded
      exact (some.inj atNeeded).symm
    rw [← childPlace, ← parentPlace]
    exact apart child inChild parent inParent info parentInfo childUp parentUp (same ▸ lists)

theorem parents_upgraded_first_iff : ParentsFirst services incoming eventidInfo sorted maxPrevEvents ↔
    ∀ child ∈ sorted, ∀ parent ∈ sorted, ∀ info parentInfo, Upgraded services incoming eventidInfo child info →
      Upgraded services incoming eventidInfo parent parentInfo → parent ∈ info.1.prevEvents →
      sorted.idxOf parent + maxPrevEvents ≤ sorted.idxOf child :=
  parents_first_width_iff services incoming eventidInfo sorted (by decide)

end

def knownEvent : Pdu ParsedContent := roomEvent "$known" "m.room.message" "@alice:a" none [] [] 10

def parentEvent : Pdu ParsedContent := roomEvent "$parent" "m.room.message" "@alice:a" none ["$known"] [] 20

def childEvent : Pdu ParsedContent := roomEvent "$child" "m.room.message" "@alice:a" none ["$parent"] [] 30

def prevServer : PrevServices ParsedContent Unit where
  running _ := true
  nonOutlierPduExists eventId := eventId == "$known"
  fetchAuth eventId := if eventId = "$child" then [(childEvent, some ())]
    else if eventId = "$parent" then [(parentEvent, some ())]
    else if eventId = "$known" then [(knownEvent, none)]
    else []
  maxFetchPrevEvents := 192
  getOutlierPduJson _ := none
  isDisabled _ := false
  isBackedOff _ := false

def prevIncoming : Incoming := ⟨"remote.org", "!room", "$incoming", 1⟩

def prevInfo : BTreeMap EventId (Pdu ParsedContent × Unit) :=
  ((∅ : BTreeMap EventId (Pdu ParsedContent × Unit)).insert "$child" (childEvent, ())).insert "$parent"
    (parentEvent, ())

def prevSorted : List EventId := ["$known", "$parent", "$child"]

def fetchedPrev (initialSet : List EventId) : Option (List EventId × BTreeMap EventId (Pdu ParsedContent × Unit)) :=
  (fetchPrev prevServer prevIncoming 10 initialSet).bind Except.toOption

def siblingEvent : Pdu ParsedContent := roomEvent "$sibling" "m.room.message" "@alice:a" none ["$known"] [] 25

def siblingInfo : BTreeMap EventId (Pdu ParsedContent × Unit) := prevInfo.insert "$sibling" (siblingEvent, ())

def siblings : List EventId := ["$known", "$parent", "$sibling"]

-- Two events are upgraded, and neither is a parent of the other.
theorem siblings_upgraded : (upgradeAt prevServer prevIncoming siblingInfo siblings 1).isSome ∧
    (upgradeAt prevServer prevIncoming siblingInfo siblings 2).isSome ∧
    ParentsFirst prevServer prevIncoming siblingInfo siblings maxPrevEvents := by
  refine ⟨by decide +kernel, by decide +kernel, ?_⟩
  rw [parents_upgraded_first_iff]
  intro child inChild parent inParent info parentInfo childUp parentUp lists
  have outside : ∀ child ∈ siblings, ∀ info ∈ siblingInfo[child]?, ∀ parent ∈ info.1.prevEvents,
    (siblingInfo[parent]?).isNone := by decide +kernel
  have unknown := outside child inChild info childUp.known parent lists
  rw [parentUp.known] at unknown
  cases unknown

-- The parent's upgrade has begun and not ended when the child's begins.
theorem child_upgraded_early :
    (fetchedPrev ["$child"]).map (fun fetched => (fetched.1, fetched.2.toList)) = some (prevSorted, prevInfo.toList) ∧
      ¬ ParentsFirst prevServer prevIncoming prevInfo prevSorted maxPrevEvents := by
  refine ⟨by decide +kernel, fun first => ?_⟩
  let works : Nat → Bool := fun i => (upgradeAt prevServer prevIncoming prevInfo prevSorted i).isSome
  let reached : Buffer := ⟨0, 3, Function.update (Function.update (fun _ => .waiting) 0 .finished) 1 .running⟩
  have knownSkipped : works 0 = false := by decide +kernel
  have parentWorks : works 1 = true := by decide +kernel
  have childWorks : works 2 = true := by decide +kernel
  have atChild : upgradeAt prevServer prevIncoming prevInfo prevSorted 2 = some (childEvent, ()) := by decide +kernel
  have played : play maxPrevEvents prevSorted.length works .empty [.push, .push, .push, .skip 0, .start 1] =
    some reached := by
    simp [play, move, Buffer.empty, Buffer.setStage, maxPrevEvents, prevSorted, knownSkipped, parentWorks, reached]
  have started : move maxPrevEvents prevSorted.length works reached (.start 2) = some
    (reached.setStage 2 .running) := by
    rw [move, if_pos ⟨by decide, by decide, childWorks⟩]
  have done := first _ 2 reached _ played started 1
    (by decide) parentWorks ⟨(childEvent, ()), "$parent", atChild, rfl, by decide⟩
  cases done

end GaussMatrix.Rooms

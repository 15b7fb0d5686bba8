import GaussMatrix.Library.Flood
import GaussMatrix.StateRes.Event

namespace GaussMatrix.Rooms.AuthChain

open Collections Flood List StateRes Std

abbrev RoomId := String
abbrev ShortEventId := Nat

structure Pdu where
  authEvents : List EventId
  roomId : RoomId
deriving DecidableEq

structure Service where
  timeline : BTreeMap EventId Pdu
  authchainkeyAuthchain : BTreeMap (List ShortEventId) (List ShortEventId)
  shorteventidAuthchain : BTreeMap ShortEventId (List ShortEventId)

-- What the other services tell. An event id keeps the number it is first given and
-- shares it with no other, so a history is read with all its numbers fixed beforehand.
-- A room has one version, and rules only if that version is supported.
structure Services where
  shorteventid : EventId → ShortEventId
  injective : Function.Injective shorteventid
  roomCreateEventIdAsRoomId : RoomId → Option Bool
  asEventId : RoomId → Option EventId

inductive ChainError where
  | unsupportedRoomVersion
  | unfinished
deriving DecidableEq

variable {authEvent : EventId}

section

variable (services : Services)

section

variable (timeline : BTreeMap EventId Pdu) (roomId : RoomId) (eventId : EventId)

def getEventAuthEventIds : Option (List EventId) :=
  timeline[eventId]?.bind fun pdu => if pdu.roomId = roomId then some pdu.authEvents else none

-- An event that fails to load, or is of another room, adds nothing to the chain.
def authEventIds : List EventId := (getEventAuthEventIds timeline roomId eventId).getD []

end

def seen (roomId : RoomId) : List EventId :=
  match services.roomCreateEventIdAsRoomId roomId with
  | some true => (services.asEventId roomId).toList
  | _ => []

def references (timeline : BTreeMap EventId Pdu) : List EventId := timeline.toList.flatMap fun row => row.2.authEvents

section

variable (schedule : EventId → Nat → Nat) (timeline : BTreeMap EventId Pdu) (roomId : RoomId) (eventId : EventId)

def getEventAuthChainIds : Option (List EventId) := flood (authEventIds timeline roomId) (schedule eventId)
    ((references timeline).length + 1) [eventId] (seen services roomId)

def getEventAuthChain : Option (List ShortEventId) :=
  (getEventAuthChainIds services schedule timeline roomId eventId).map (List.map services.shorteventid)

end

def putCachedAuthChain (key authChain : List ShortEventId) (service : Service) : Service :=
  { service with authchainkeyAuthchain := service.authchainkeyAuthchain.insert key authChain }

-- On a miss the legacy table is asked for single events; nothing writes to it anymore.
def getCachedAuthChain (service : Service) : List ShortEventId → Option (List ShortEventId)
  | [] => some []
  | [short] => service.authchainkeyAuthchain[[short]]?.or service.shorteventidAuthchain[short]?
  | short :: another :: rest => service.authchainkeyAuthchain[short :: another :: rest]?

def sortedDedup (shorts : List ShortEventId) : List ShortEventId :=
  (Std.ExtTreeSet.ofList shorts : BTreeSet ShortEventId).toList

def collect {A B S : Type} (call : A → S → Option (List B × S)) : List A → S → Option (List B × S)
  | [], state => some ([], state)
  | item :: rest, state =>
    (call item state).bind fun first => (collect call rest first.2).map fun others => (first.1 ++ others.1, others.2)

section

variable (schedule : EventId → Nat → Nat) (roomId : RoomId)

def buildChain (start : ShortEventId × EventId) (service : Service) : Option (List ShortEventId × Service) :=
  match getCachedAuthChain service [start.1] with
  | some cached => some (cached, service)
  | none =>
    (getEventAuthChain services schedule service.timeline roomId start.2).map fun authChain =>
      (authChain, putCachedAuthChain [start.1] authChain service)

def getChunkAuthChain (startingEvents : List (ShortEventId × EventId)) (service : Service) :
    Option (List ShortEventId × Service) :=
  match getCachedAuthChain service (startingEvents.map Prod.fst) with
  | some cached => some (cached, service)
  | none =>
    (collect (buildChain services schedule roomId) startingEvents service).map fun built =>
      (sortedDedup built.1, putCachedAuthChain (startingEvents.map Prod.fst) (sortedDedup built.1) built.2)

end

def numBuckets : Nat := 50

def bucket (startingEvents : List EventId) (index : Nat) : List (ShortEventId × EventId) :=
  let numbered := startingEvents.map fun eventId => (services.shorteventid eventId, eventId)
  (extend ∅ (numbered.filter fun start => start.1 % numBuckets = index)).toList

-- The chunks run side by side. No two buckets share a number, hence no cache key, and
-- their results are sorted: the order in which they are taken cannot be seen.
def getAuthChain (schedule : EventId → Nat → Nat) (roomId : RoomId) (startingEvents : List EventId)
    (service : Service) : Except ChainError (List ShortEventId × Service) :=
  match services.roomCreateEventIdAsRoomId roomId with
  | none => .error .unsupportedRoomVersion
  | some _ =>
    match collect (getChunkAuthChain services schedule roomId) ((List.range numBuckets).map (bucket services startingEvents)) service with
    | none => .error .unfinished
    | some full => .ok (sortedDedup full.1, full.2)

theorem sorted_dedup_member (shorts : List ShortEventId) (short : ShortEventId) :
    short ∈ sortedDedup shorts ↔ short ∈ shorts := by
  rw [sortedDedup, ExtTreeSet.mem_toList, ExtTreeSet.mem_ofList, contains_iff_mem]

theorem sorted_dedup_same {shorts others : List ShortEventId} (same : ∀ short, short ∈ shorts ↔ short ∈ others) :
    sortedDedup shorts = sortedDedup others := by
  have equal : (ExtTreeSet.ofList shorts : BTreeSet ShortEventId) = ExtTreeSet.ofList others := by
    refine ExtTreeSet.ext_mem fun short => ?_
    rw [ExtTreeSet.mem_ofList, ExtTreeSet.mem_ofList, contains_iff_mem, contains_iff_mem]
    exact same short
  rw [sortedDedup, sortedDedup, equal]

theorem collect_covers {A B S : Type} {call : A → S → Option (List B × S)} {keeps : S → Prop} {covers : A → B → Prop}
    {items : List A} (each : ∀ item ∈ items, ∀ state, keeps state → ∃ out after, call item state = some (out, after) ∧
    keeps after ∧ ∀ b, b ∈ out ↔ covers item b) {state : S} (kept : keeps state) :
    ∃ out after, collect call items state = some (out, after) ∧ keeps after ∧ ∀ b, b ∈ out ↔
    ∃ item ∈ items, covers item b := by
  induction items generalizing state with
  | nil => exact ⟨[], state, rfl, kept, by simp⟩
  | cons head tail ih =>
    obtain ⟨first, between, called, keptBetween, covered⟩ := each head mem_cons_self state kept
    obtain ⟨others, after, collected, keptAfter, coveredOthers⟩ := ih (fun item member => each item (mem_cons_of_mem head member)) keptBetween
    refine ⟨first ++ others, after, ?_, keptAfter, ?_⟩
    · simp [collect, called, collected]
    · intro b
      rw [mem_append, covered, coveredOthers]
      simp

section

variable (timeline : BTreeMap EventId Pdu) (roomId : RoomId)

def InChain (eventId authEvent : EventId) : Prop :=
  Spreads (authEventIds timeline roomId) (seen services roomId) eventId authEvent

def Lists (eventIds : List EventId) (authChain : List ShortEventId) : Prop :=
  ∀ short, short ∈ authChain ↔ ∃ eventId ∈ eventIds, ∃ authEvent, InChain services timeline roomId eventId authEvent ∧
    services.shorteventid authEvent = short

def Placed (eventId : EventId) : Prop := ∀ pdu ∈ timeline[eventId]?, pdu.authEvents = [] ∨ pdu.roomId = roomId

end

def Current (timeline : BTreeMap EventId Pdu) (key authChain : List ShortEventId) : Prop :=
  ∃ roomId eventIds, key = eventIds.map services.shorteventid ∧ (∀ eventId ∈ eventIds, Placed timeline roomId eventId) ∧
    Lists services timeline roomId eventIds authChain

structure AllCurrent (service : Service) : Prop where
  keyed : ∀ key authChain, service.authchainkeyAuthchain[key]? = some authChain →
    Current services service.timeline key authChain
  legacy : ∀ short authChain, service.shorteventidAuthchain[short]? = some authChain →
    Current services service.timeline [short] authChain

variable {services} {timeline : BTreeMap EventId Pdu} {roomId : RoomId} {eventId : EventId}

theorem auth_event_ids_unplaced (nothing : ∀ pdu ∈ timeline[eventId]?, pdu.authEvents = []) :
    authEventIds timeline roomId eventId = [] := by
  rw [authEventIds, getEventAuthEventIds]
  cases stored : timeline[eventId]? with
  | none => rfl
  | some pdu =>
    rw [Option.bind_some, nothing pdu stored]
    split <;> rfl

theorem in_chain_nothing (nothing : ∀ pdu ∈ timeline[eventId]?, pdu.authEvents = []) :
    ¬ InChain services timeline roomId eventId authEvent :=
  spreads_nowhere (auth_event_ids_unplaced nothing)

theorem in_chain_placed {other : RoomId} (placed : Placed timeline roomId eventId)
    (placedOther : Placed timeline other eventId) :
    InChain services timeline roomId eventId authEvent ↔ InChain services timeline other eventId authEvent := by
  by_cases nothing : ∀ pdu ∈ timeline[eventId]?, pdu.authEvents = []
  · exact iff_of_false (in_chain_nothing nothing) (in_chain_nothing nothing)
  · push Not at nothing
    obtain ⟨pdu, stored, named⟩ := nothing
    have inRoom := (placed pdu stored).resolve_left named
    have inOther := (placedOther pdu stored).resolve_left named
    rw [← inRoom, ← inOther]

theorem current_lists {eventIds : List EventId} {authChain : List ShortEventId}
    (current : Current services timeline (eventIds.map services.shorteventid) authChain)
    (placed : ∀ eventId ∈ eventIds, Placed timeline roomId eventId) :
    Lists services timeline roomId eventIds authChain := by
  obtain ⟨cachedRoom, cachedIds, key, cachedPlaced, lists⟩ := current
  have same : eventIds = cachedIds := map_injective_iff.mpr services.injective key
  subst same
  intro short
  rw [lists short]
  refine exists_congr fun eventId => and_congr_right fun member => exists_congr fun authEvent =>
    and_congr_left fun _ => ?_
  exact in_chain_placed (cachedPlaced eventId member) (placed eventId member)

theorem auth_event_ids_member : authEvent ∈ authEventIds timeline roomId eventId ↔
    ∃ pdu ∈ timeline[eventId]?, pdu.roomId = roomId ∧ authEvent ∈ pdu.authEvents := by
  rw [authEventIds, getEventAuthEventIds]
  cases stored : timeline[eventId]? with
  | none => simp
  | some pdu => by_cases own : pdu.roomId = roomId <;> simp [own]

theorem references_bound (eventId : EventId) :
    ∀ authEvent ∈ authEventIds timeline roomId eventId, authEvent ∈ (references timeline).toFinset := by
  intro authEvent member
  obtain ⟨pdu, stored, _, named⟩ := auth_event_ids_member.mp member
  rw [mem_toFinset, references, mem_flatMap]
  exact ⟨(eventId, pdu), ExtTreeMap.mem_toList_iff_getElem?_eq_some.mpr stored, named⟩

theorem auth_chain_ids_end {services : Services} {schedule : EventId → Nat → Nat} :
    ∃ ids, getEventAuthChainIds services schedule timeline roomId eventId = some ids ∧ ids.Nodup ∧
      ∀ authEvent, authEvent ∈ ids ↔ InChain services timeline roomId eventId authEvent := by
  have few : unseen (references timeline).toFinset (seen services roomId) ≤ (references timeline).length :=
    (Finset.card_filter_le _ _).trans (toFinset_card_le _)
  have enough : [eventId].length + unseen (references timeline).toFinset (seen services roomId) ≤
    (references timeline).length + 1 := by
    rw [length_singleton]
    omega
  obtain ⟨ids, flooded⟩ := flood_ends (schedule eventId) _ references_bound _ [eventId] _ enough
  obtain ⟨distinct, member⟩ := flood_lists flooded
  exact ⟨ids, flooded, distinct, fun authEvent => by simpa [InChain] using member authEvent⟩

theorem event_auth_chain_lists (schedule : EventId → Nat → Nat) (timeline : BTreeMap EventId Pdu) (roomId : RoomId)
    (eventId : EventId) : ∃ authChain, getEventAuthChain services schedule timeline roomId eventId = some authChain ∧
    Lists services timeline roomId [eventId] authChain := by
  obtain ⟨ids, ended, _, member⟩ := auth_chain_ids_end
  refine ⟨ids.map services.shorteventid, by rw [getEventAuthChain, ended, Option.map_some], fun short => ?_⟩
  rw [mem_map]
  simp only [mem_singleton, exists_eq_left]
  exact exists_congr fun authEvent => and_congr_left fun _ => member authEvent

def Cites (timeline : BTreeMap EventId Pdu) (eventId authEvent : EventId) : Prop :=
  ∃ pdu ∈ timeline[eventId]?, authEvent ∈ pdu.authEvents

-- Citing an event that is not the create event made into the room id.
def CitesOther (services : Services) (timeline : BTreeMap EventId Pdu) (roomId : RoomId)
    (eventId authEvent : EventId) : Prop :=
  Cites timeline eventId authEvent ∧ authEvent ∉ seen services roomId

theorem in_chain_cited (stored : ∀ ancestor, Relation.ReflTransGen (Cites timeline) eventId ancestor →
    ∃ pdu ∈ timeline[ancestor]?, pdu.roomId = roomId) : InChain services timeline roomId eventId authEvent ↔
    Relation.TransGen (CitesOther services timeline roomId) eventId authEvent := by
  constructor
  · refine Relation.TransGen.mono (fun a b edge => ?_) _ _
    obtain ⟨pdu, read, _, names⟩ := auth_event_ids_member.mp edge.1
    exact ⟨⟨pdu, read, names⟩, edge.2⟩
  · intro path
    have edge : ∀ a b, Relation.ReflTransGen (CitesOther services timeline roomId) eventId a → CitesOther services timeline roomId a b →
        Edge (authEventIds timeline roomId) (seen services roomId) a b := by
      intro a b before step
      obtain ⟨⟨again, readAgain, names⟩, other⟩ := step
      obtain ⟨pdu, read, own⟩ := stored a (Relation.ReflTransGen.mono (fun _ _ cites => cites.1) _ _ before)
      cases Option.mem_unique read readAgain
      exact ⟨auth_event_ids_member.mpr ⟨_, read, own, names⟩, other⟩
    induction path with
    | single step => exact Relation.TransGen.single (edge _ _ Relation.ReflTransGen.refl step)
    | tail before step ih => exact Relation.TransGen.tail ih (edge _ _ before.to_reflTransGen step)

theorem auth_chain_exact_iff (services : Services) (schedule : EventId → Nat → Nat) (timeline : BTreeMap EventId Pdu)
    (roomId : RoomId) (eventId : EventId) (stored : ∀ ancestor,
    Relation.ReflTransGen (Cites timeline) eventId ancestor → ∃ pdu ∈ timeline[ancestor]?, pdu.roomId = roomId) :
    ∃ ids, getEventAuthChainIds services schedule timeline roomId eventId = some ids ∧ ids.Nodup ∧
      (∀ authEvent, authEvent ∈ ids ↔ Relation.TransGen (CitesOther services timeline roomId) eventId authEvent) ∧
      ((∀ authEvent, authEvent ∈ ids ↔ Relation.TransGen (Cites timeline) eventId authEvent) ↔
        ∀ create ∈ seen services roomId, ¬ Relation.TransGen (Cites timeline) eventId create) := by
  obtain ⟨ids, ended, distinct, member⟩ := @auth_chain_ids_end timeline roomId eventId services schedule
  have listed := fun authEvent => (member authEvent).trans (in_chain_cited stored)
  refine ⟨ids, ended, distinct, listed, fun exactly create isSeen ancestor => ?_, fun unseen authEvent =>
    (listed authEvent).trans ⟨?_, fun path => ?_⟩⟩
  · obtain ⟨_, _, step⟩ := Relation.TransGen.tail'_iff.mp ((listed create).mp ((exactly create).mpr ancestor))
    exact step.2 isSeen
  · exact Relation.TransGen.mono (fun _ _ cites => cites.1) _ _
  · induction path with
    | single cites => exact Relation.TransGen.single ⟨cites, fun isSeen => unseen _ isSeen (Relation.TransGen.single cites)⟩
    | tail before cites ih => exact Relation.TransGen.tail ih ⟨cites, fun isSeen => unseen _ isSeen (Relation.TransGen.tail before cites)⟩

end

variable {services : Services} (schedule : EventId → Nat → Nat) (startingEvents : List EventId) {service : Service}
  {authChain : List ShortEventId} {eventIds : List EventId}
  {timeline : BTreeMap EventId Pdu} {roomId : RoomId} {key : List ShortEventId}

theorem cached_current (current : AllCurrent services service)
    (cached : getCachedAuthChain service key = some authChain) : Current services service.timeline key authChain := by
  match key with
  | [] =>
    cases cached
    exact ⟨"", [], rfl, by simp, by simp [Lists]⟩
  | [short] =>
    rcases Option.or_eq_some_iff.mp cached with keyed | fallback
    · exact current.keyed [short] authChain keyed
    · exact current.legacy short authChain fallback.2
  | short :: another :: rest => exact current.keyed _ authChain cached

theorem put_current (current : AllCurrent services service)
    (added : Current services service.timeline key authChain) :
    AllCurrent services (putCachedAuthChain key authChain service) := by
  refine ⟨fun other cached read => ?_, current.legacy⟩
  by_cases same : other = key
  · subst same
    have inserted : (service.authchainkeyAuthchain.insert other authChain)[other]? = some cached := read
    rw [ExtTreeMap.getElem?_insert_self] at inserted
    cases inserted
    exact added
  · have kept : (service.authchainkeyAuthchain.insert key authChain)[other]? = some cached := read
    rw [insert_elsewhere same] at kept
    exact current.keyed other cached kept

structure Keeps (services : Services) (timeline : BTreeMap EventId Pdu) (service : Service) : Prop where
  stored : service.timeline = timeline
  current : AllCurrent services service

theorem put_keeps (keeps : Keeps services timeline service)
    (placed : ∀ eventId ∈ eventIds, Placed timeline roomId eventId)
    (lists : Lists services timeline roomId eventIds authChain) :
    Keeps services timeline (putCachedAuthChain (eventIds.map services.shorteventid) authChain service) := by
  refine ⟨keeps.stored, put_current keeps.current ⟨roomId, eventIds, rfl, ?_⟩⟩
  rw [keeps.stored]
  exact ⟨placed, lists⟩

theorem cached_lists (keeps : Keeps services timeline service)
    (placed : ∀ eventId ∈ eventIds, Placed timeline roomId eventId) (cached : getCachedAuthChain service
    (eventIds.map services.shorteventid) = some authChain) : Lists services timeline roomId eventIds authChain := by
  have current := cached_current keeps.current cached
  rw [keeps.stored] at current
  exact current_lists current placed

def Numbered (services : Services) (start : ShortEventId × EventId) : Prop := start.1 = services.shorteventid start.2

variable {start : ShortEventId × EventId}

theorem build_chain_lists (numbered : Numbered services start) (placed : Placed timeline roomId start.2)
    (keeps : Keeps services timeline service) : ∃ authChain after, buildChain services schedule roomId start service =
    some (authChain, after) ∧ Keeps services timeline after ∧
      Lists services timeline roomId [start.2] authChain := by
  have alone : ∀ eventId ∈ [start.2], Placed timeline roomId eventId := by simpa using placed
  have key : [start.1] = [start.2].map services.shorteventid := congrArg (fun short => [short]) numbered
  rw [buildChain, key]
  cases cached : getCachedAuthChain service ([start.2].map services.shorteventid) with
  | some authChain => exact ⟨authChain, service, rfl, keeps, cached_lists keeps alone cached⟩
  | none =>
    obtain ⟨authChain, computed, lists⟩ := event_auth_chain_lists schedule service.timeline roomId start.2
    rw [keeps.stored] at lists
    exact ⟨authChain, _, by rw [computed, Option.map_some], put_keeps keeps alone lists, lists⟩

theorem chunk_auth_chain_lists {startingEvents : List (ShortEventId × EventId)}
    (numbered : ∀ start ∈ startingEvents, Numbered services start)
    (placed : ∀ start ∈ startingEvents, Placed timeline roomId start.2) (keeps : Keeps services timeline service) :
    ∃ authChain after, getChunkAuthChain services schedule roomId startingEvents service = some (authChain, after) ∧
      Keeps services timeline after ∧ Lists services timeline roomId (startingEvents.map Prod.snd) authChain := by
  have key : startingEvents.map Prod.fst = (startingEvents.map Prod.snd).map services.shorteventid := by
    rw [map_map]
    exact map_congr_left numbered
  have all : ∀ eventId ∈ startingEvents.map Prod.snd, Placed timeline roomId eventId := by
    intro eventId member
    obtain ⟨start, started, rfl⟩ := mem_map.mp member
    exact placed start started
  rw [getChunkAuthChain, key]
  cases cached : getCachedAuthChain service ((startingEvents.map Prod.snd).map services.shorteventid) with
  | some authChain => exact ⟨authChain, service, rfl, keeps, cached_lists keeps all cached⟩
  | none =>
    have each := fun start (started : start ∈ startingEvents) (state : Service) (kept : Keeps services timeline state) =>
      build_chain_lists schedule (numbered start started) (placed start started) kept
    obtain ⟨built, after, collected, keptAfter, covered⟩ := collect_covers each keeps
    have lists : Lists services timeline roomId (startingEvents.map Prod.snd) (sortedDedup built) := by
      intro short
      rw [sorted_dedup_member, covered]
      constructor
      · intro found
        obtain ⟨start, started, eventId, member, reached⟩ := found
        cases mem_singleton.mp member
        exact ⟨start.2, mem_map_of_mem started, reached⟩
      · intro found
        obtain ⟨eventId, member, reached⟩ := found
        obtain ⟨start, started, rfl⟩ := mem_map.mp member
        exact ⟨start, started, start.2, mem_singleton_self _, reached⟩
    exact ⟨sortedDedup built, _, by rw [collected, Option.map_some], put_keeps keptAfter all lists, lists⟩

theorem bucket_member {index : Nat} : start ∈ bucket services startingEvents index ↔ Numbered services start ∧
    start.2 ∈ startingEvents ∧ start.1 % numBuckets = index := by
  rw [bucket, ExtTreeMap.mem_toList_iff_getElem?_eq_some]
  have row : ∀ row, row ∈ ((startingEvents.map fun eventId => (services.shorteventid eventId, eventId)).filter
    fun start => start.1 % numBuckets = index) ↔
      Numbered services row ∧ row.2 ∈ startingEvents ∧ row.1 % numBuckets = index := by
    intro row
    rw [mem_filter, mem_map, decide_eq_true_iff]
    constructor
    · rintro ⟨⟨eventId, started, rfl⟩, placed⟩
      exact ⟨rfl, started, placed⟩
    · rintro ⟨numbered, started, placed⟩
      exact ⟨⟨row.2, started, Prod.ext numbered.symm rfl⟩, placed⟩
  constructor
  · intro read
    rcases extend_source read with listed | absent
    · exact (row start).mp listed
    · simp at absent
  · intro facts
    have listed := (row start).mpr facts
    obtain ⟨eventId, other, read⟩ := extend_present (∅ : BTreeMap ShortEventId EventId) ⟨start, listed, rfl⟩
    have same : start.2 = eventId := services.injective (facts.1.symm.trans ((row _).mp other).1)
    rw [read, same]

theorem buckets_cover {eventId : EventId} :
    (∃ starts ∈ (List.range numBuckets).map (bucket services startingEvents), eventId ∈ starts.map Prod.snd) ↔
    eventId ∈ startingEvents := by
  constructor
  · intro bucketed
    obtain ⟨starts, chosen, member⟩ := bucketed
    obtain ⟨index, _, rfl⟩ := mem_map.mp chosen
    obtain ⟨start, started, rfl⟩ := mem_map.mp member
    exact ((bucket_member startingEvents).mp started).2.1
  · intro started
    let index := services.shorteventid eventId % numBuckets
    have inRange : index ∈ List.range numBuckets := mem_range.mpr (Nat.mod_lt _ (by decide))
    have inBucket : (services.shorteventid eventId, eventId) ∈ bucket services startingEvents index :=
      (bucket_member startingEvents).mpr ⟨rfl, started, rfl⟩
    exact ⟨_, mem_map_of_mem inRange, mem_map_of_mem inBucket⟩

theorem auth_chain_lists {rule : Bool} (supported : services.roomCreateEventIdAsRoomId roomId = some rule)
    {startingEvents : List EventId} (current : AllCurrent services service)
    (placed : ∀ eventId ∈ startingEvents, Placed service.timeline roomId eventId) :
    ∃ shorts after, getAuthChain services schedule roomId startingEvents service = .ok (sortedDedup shorts, after) ∧
      Keeps services service.timeline after ∧ Lists services service.timeline roomId startingEvents shorts := by
  have keeps : Keeps services service.timeline service := ⟨rfl, current⟩
  have bucketed : ∀ starts ∈ (List.range numBuckets).map (bucket services startingEvents), ∀ start ∈ starts,
    Numbered services start ∧ start.2 ∈ startingEvents := by
    intro starts chosen start member
    obtain ⟨index, _, rfl⟩ := mem_map.mp chosen
    have facts := (bucket_member startingEvents).mp member
    exact ⟨facts.1, facts.2.1⟩
  have each :=
    fun starts (chosen : starts ∈ (List.range numBuckets).map (bucket services startingEvents)) (state : Service)
      (kept : Keeps services service.timeline state) =>
    chunk_auth_chain_lists schedule (fun start member => (bucketed starts chosen start member).1)
      (fun start member => placed start.2 (bucketed starts chosen start member).2) kept
  obtain ⟨shorts, after, collected, keptAfter, covered⟩ := collect_covers each keeps
  refine ⟨shorts, after, by rw [getAuthChain, supported, collected], keptAfter, fun short => ?_⟩
  rw [covered]
  constructor
  · intro found
    obtain ⟨starts, chosen, eventId, member, reached⟩ := found
    exact ⟨eventId, (buckets_cover startingEvents).mp ⟨starts, chosen, member⟩, reached⟩
  · intro found
    obtain ⟨eventId, started, reached⟩ := found
    obtain ⟨starts, chosen, member⟩ := (buckets_cover startingEvents).mpr started
    exact ⟨starts, chosen, eventId, member, reached⟩

end GaussMatrix.Rooms.AuthChain

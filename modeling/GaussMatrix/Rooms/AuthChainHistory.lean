import GaussMatrix.Library.Runs
import GaussMatrix.Rooms.AuthChain

namespace GaussMatrix.Rooms.AuthChain

open Collections Flood List Option Runs StateRes Std Std.ExtTreeMap

inductive Act where
  | insert (eventId : EventId) (pdu : Pdu)
  | query (roomId : RoomId) (startingEvents : List EventId) (schedule : EventId → Nat → Nat)
  | evict (key : List ShortEventId)
  | evictLegacy (short : ShortEventId)
  | clearCache

def Service.insert (service : Service) (eventId : EventId) (pdu : Pdu) : Service :=
  { service with timeline := service.timeline.insertIfNew eventId pdu }

def Service.clearCache (service : Service) : Service :=
  { service with authchainkeyAuthchain := ∅, shorteventidAuthchain := ∅ }

def uncached (timeline : BTreeMap EventId Pdu) : Service := ⟨timeline, ∅, ∅⟩

section

variable (services : Services) (service : Service)

def step : Act → Option Service
  | .insert eventId pdu => some (service.insert eventId pdu)
  | .query roomId startingEvents schedule =>
    match getAuthChain services schedule roomId startingEvents service with
    | .ok answer => some answer.2
    | .error .unsupportedRoomVersion => some service
    | .error .unfinished => none
  | .evict key => some { service with authchainkeyAuthchain := service.authchainkeyAuthchain.erase key }
  | .evictLegacy short => some { service with shorteventidAuthchain := service.shorteventidAuthchain.erase short }
  | .clearCache => some service.clearCache

def Unmentioned (eventId : EventId) : Prop :=
  (∀ row ∈ service.authchainkeyAuthchain.toList, services.shorteventid eventId ∉ row.1 ++ row.2) ∧
    ∀ row ∈ service.shorteventidAuthchain.toList, services.shorteventid eventId ∉ row.1 :: row.2

def Timely : Act → Prop
  | .insert eventId pdu =>
    pdu.authEvents = [] ∨ service.timeline.contains eventId ∨ Unmentioned services service eventId
  | .query roomId startingEvents _ => ∀ eventId ∈ startingEvents, Placed service.timeline roomId eventId
  | _ => True

end

instance decidableTimely (services : Services) (service : Service) (act : Act) :
    Decidable (Timely services service act) := match act with
  | .insert eventId _ =>
    have : Decidable (Unmentioned services service eventId) := inferInstanceAs (Decidable (_ ∧ _))
    inferInstanceAs (Decidable (_ ∨ _ ∨ _))
  | .query roomId startingEvents _ =>
    have : ∀ eventId, Decidable (Placed service.timeline roomId eventId) :=
      fun eventId => inferInstanceAs (Decidable (∀ pdu ∈ service.timeline[eventId]?, _ ∨ _))
    inferInstanceAs (Decidable (∀ eventId ∈ startingEvents, _))
  | .evict _ => isTrue trivial
  | .evictLegacy _ => isTrue trivial
  | .clearCache => isTrue trivial

variable {services : Services} {timeline : BTreeMap EventId Pdu} {eventId : EventId}

theorem insert_stored (stored : timeline.contains eventId) (pdu : Pdu) :
    timeline.insertIfNew eventId pdu = timeline := by
  refine ext_getElem? fun other => ?_
  rw [getElem?_insertIfNew, if_neg]
  intro new
  exact new.2 (mem_iff_contains.mpr stored)

theorem insert_new_elsewhere {other : EventId} (different : other ≠ eventId) (pdu : Pdu) :
    (timeline.insertIfNew eventId pdu)[other]? = timeline[other]? := by
  rw [getElem?_insertIfNew, if_neg]
  intro new
  exact different (LawfulEqOrd.eq_of_compare new.1).symm

variable {pdu : Pdu}

theorem auth_event_ids_elsewhere {roomId : RoomId} {other : EventId} (different : other ≠ eventId) :
    authEventIds (timeline.insertIfNew eventId pdu) roomId other = authEventIds timeline roomId other := by
  rw [authEventIds, authEventIds, getEventAuthEventIds, getEventAuthEventIds, insert_new_elsewhere different]

theorem insert_current (absent : ¬ timeline.contains eventId) {key authChain : List ShortEventId}
    (current : Current services timeline key authChain)
    (apart : pdu.authEvents = [] ∨ services.shorteventid eventId ∉ key ++ authChain) :
    Current services (timeline.insertIfNew eventId pdu) key authChain := by
  obtain ⟨roomId, eventIds, rfl, placed, lists⟩ := current
  have unread : timeline[eventId]? = none := by
    rwa [contains_eq_isSome_getElem?, Bool.not_eq_true, isSome_eq_false_iff, isNone_iff_eq_none] at absent
  have read : (timeline.insertIfNew eventId pdu)[eventId]? = some pdu := by
    rw [getElem?_insertIfNew, if_pos ⟨ReflOrd.compare_self, fun member => absent (mem_iff_contains.mp member)⟩]
  have before : authEventIds timeline roomId eventId = [] := auth_event_ids_unplaced (by simp [unread])
  have same : ∀ start ∈ eventIds, ∀ met, met = start ∨ InChain services timeline roomId start met →
      authEventIds (timeline.insertIfNew eventId pdu) roomId met = authEventIds timeline roomId met := by
    intro start started met reached
    by_cases here : met = eventId
    · subst here
      rcases apart with nothing | unmentioned
      · rw [before]
        refine auth_event_ids_unplaced fun found reading => ?_
        rw [read] at reading
        cases reading
        exact nothing
      · refine absurd (mem_append.mpr ?_) unmentioned
        rcases reached with rfl | spread
        · exact .inl (mem_map_of_mem started)
        · exact .inr ((lists _).mpr ⟨start, started, met, spread, rfl⟩)
    · exact auth_event_ids_elsewhere here
  refine ⟨roomId, eventIds, rfl, fun start started => ?_, fun short => ?_⟩
  · by_cases here : start = eventId
    · subst here
      rcases apart with nothing | unmentioned
      · intro found reading
        rw [read] at reading
        cases reading
        exact .inl nothing
      · exact absurd (mem_append_left _ (mem_map_of_mem started)) unmentioned
    · rw [Placed, insert_new_elsewhere here]
      exact placed start started
  · rw [lists short]
    refine exists_congr fun start => and_congr_right fun started => exists_congr fun authEvent => and_congr_left fun _ => ?_
    exact (spreads_agree (same start started) authEvent).symm

theorem insert_all_current {service : Service} (current : AllCurrent services service)
    (timely : Timely services service (.insert eventId pdu)) : AllCurrent services (service.insert eventId pdu) := by
  by_cases stored : service.timeline.contains eventId
  · rw [Service.insert, insert_stored stored]
    exact current
  · have apart := timely.imp_right fun either => either.resolve_left stored
    constructor
    · intro key authChain cached
      refine insert_current stored (current.keyed key authChain cached) (apart.imp_right fun unmentioned => ?_)
      exact unmentioned.1 (key, authChain) (mem_toList_iff_getElem?_eq_some.mpr cached)
    · intro short authChain cached
      refine insert_current stored (current.legacy short authChain cached) (apart.imp_right fun unmentioned => ?_)
      exact unmentioned.2 (short, authChain) (mem_toList_iff_getElem?_eq_some.mpr cached)

theorem clear_current (service : Service) : AllCurrent services service.clearCache :=
  ⟨fun key authChain cached => by simp [Service.clearCache] at cached, fun short authChain cached => by simp [Service.clearCache] at cached⟩

theorem step_current {service next : Service} {act : Act} (current : AllCurrent services service)
    (timely : Timely services service act)
    (stepped : step services service act = some next) : AllCurrent services next := by
  cases act with
  | insert eventId pdu =>
    cases stepped
    exact insert_all_current current timely
  | query roomId startingEvents schedule =>
    rw [step] at stepped
    cases supported : services.roomCreateEventIdAsRoomId roomId with
    | none =>
      rw [getAuthChain, supported] at stepped
      cases stepped
      exact current
    | some rule =>
      obtain ⟨shorts, after, answered, keeps, _⟩ := auth_chain_lists schedule supported current timely
      rw [answered] at stepped
      cases stepped
      exact keeps.current
  | evict key =>
    cases stepped
    exact ⟨fun other authChain cached => current.keyed other authChain (erase_source cached), current.legacy⟩
  | evictLegacy short =>
    cases stepped
    exact ⟨current.keyed, fun other authChain cached => current.legacy other authChain (erase_source cached)⟩
  | clearCache =>
    cases stepped
    exact clear_current service

theorem cached_auth_chains_transparent (services : Services) (timeline : BTreeMap EventId Pdu) (acts : List Act)
    (roomId : RoomId) (startingEvents : List EventId) (schedule other : EventId → Nat → Nat)
    (timely : AllMeet (step services) (Timely services) (uncached timeline)
    (acts ++ [.query roomId startingEvents schedule]))
    (service : Service) (ran : runs (step services) (uncached timeline) acts = some service) :
    (getAuthChain services schedule roomId startingEvents service).map Prod.fst =
    (getAuthChain services other roomId startingEvents service.clearCache).map Prod.fst ∧
      getAuthChain services schedule roomId startingEvents service ≠ .error .unfinished := by
  have start : AllCurrent services (uncached timeline) := clear_current (uncached timeline)
  obtain ⟨before, placed⟩ := all_meet_last timely ran
  have current : AllCurrent services service :=
    runs_meeting_invariant (fun _ _ _ holds met stepped => step_current holds met stepped) start before ran
  cases supported : services.roomCreateEventIdAsRoomId roomId with
  | none =>
    rw [getAuthChain, getAuthChain, supported]
    exact ⟨rfl, by simp⟩
  | some rule =>
    obtain ⟨shorts, after, answered, _, lists⟩ := auth_chain_lists schedule supported current placed
    have placedPlain : ∀ eventId ∈ startingEvents, Placed service.clearCache.timeline roomId eventId := placed
    obtain ⟨plain, afterPlain, computed, _, listsPlain⟩ := auth_chain_lists other supported (clear_current service) placedPlain
    have same : sortedDedup shorts = sortedDedup plain := sorted_dedup_same fun short => (lists short).trans (listsPlain short).symm
    rw [answered, computed]
    exact ⟨congrArg Except.ok same, by simp⟩

def letters : List Char → Nat
  | [] => 0
  | letter :: rest => letters rest * 4294967297 + (letter.toNat + 1)

theorem letters_cons {a b c d : Nat} (small : a < 2 ^ 32) (otherSmall : b < 2 ^ 32)
    (same : c * 4294967297 + (a + 1) = d * 4294967297 + (b + 1)) : a = b ∧ c = d := by
  omega

theorem letters_injective : Function.Injective letters := by
  intro left right same
  induction left generalizing right with
  | nil =>
    cases right with
    | nil => rfl
    | cons head tail =>
      rw [letters, letters] at same
      omega
  | cons head tail ih =>
    cases right with
    | nil =>
      rw [letters, letters] at same
      omega
    | cons other rest =>
      obtain ⟨heads, tails⟩ := letters_cons head.val.toNat_lt other.val.toNat_lt same
      rw [ih tails, Char.toNat_inj.mp heads]

def exampleServices : Services where
  shorteventid eventId := letters eventId.toList
  injective _ _ same := String.toList_inj.mp (letters_injective same)
  roomCreateEventIdAsRoomId _ := some false
  asEventId _ := none

def firstCome : EventId → Nat → Nat := fun _ _ => 0

def inOrder : List Act :=
  [.insert "$create" ⟨[], "!r"⟩, .insert "$power" ⟨["$create"], "!r"⟩, .insert "$member" ⟨["$create", "$power"], "!r"⟩,
    .query "!r" ["$member"] firstCome,
    .insert "$topic" ⟨["$create", "$power", "$member"], "!r"⟩]

theorem ordered_chain_transparent : ∃ service, runs (step exampleServices) (uncached ∅) inOrder = some service ∧
      (getAuthChain exampleServices firstCome "!r" ["$member", "$topic"] service).map Prod.fst =
        (getAuthChain exampleServices firstCome "!r" ["$member", "$topic"] service.clearCache).map Prod.fst := by
  have timely : AllMeet (step exampleServices) (Timely exampleServices) (uncached ∅)
    (inOrder ++ [.query "!r" ["$member", "$topic"] firstCome]) := by
    decide +kernel
  have runs : (runs (step exampleServices) (uncached ∅) inOrder).isSome := by decide +kernel
  obtain ⟨service, ran⟩ := isSome_iff_exists.mp runs
  exact ⟨service, ran, (cached_auth_chains_transparent exampleServices ∅ inOrder "!r"
    ["$member", "$topic"] firstCome firstCome timely service ran).1⟩

-- The power levels are cited before they arrive. The member event's chain is cached
-- without what they refer to and stays so once they are stored.
def powerLate : List Act := [.insert "$create" ⟨[], "!r"⟩, .insert "$member" ⟨["$power"], "!r"⟩,
    .query "!r" ["$member"] firstCome, .insert "$power" ⟨["$create"], "!r"⟩]

theorem late_reference_lost : (runs (step exampleServices) (uncached ∅) powerLate).map (fun service =>
        ((getAuthChain exampleServices firstCome "!r" ["$member"] service).map Prod.fst,
          (getAuthChain exampleServices firstCome "!r" ["$member"] service.clearCache).map Prod.fst)) =
      some (.ok (sortedDedup (["$power"].map exampleServices.shorteventid)), .ok (sortedDedup (["$power", "$create"].map exampleServices.shorteventid))) ∧
      sortedDedup (["$power"].map exampleServices.shorteventid) ≠ sortedDedup (["$power", "$create"].map exampleServices.shorteventid) := by
  decide +kernel

def createAsRoom : Services :=
  { exampleServices with roomCreateEventIdAsRoomId := fun _ => some true, asEventId := fun _ => some "$create" }

def topicTimeline : BTreeMap EventId Pdu :=
  extend ∅ [("$create", ⟨[], "!create"⟩), ("$power", ⟨[], "!create"⟩), ("$member", ⟨["$power"], "!create"⟩),
  ("$topic", ⟨["$power", "$member"], "!create"⟩), ("$late", ⟨["$create", "$member"], "!create"⟩)]

theorem reached_within {timeline : BTreeMap EventId Pdu} {names : List EventId} {eventId ancestor : EventId}
    (member : eventId ∈ names)
    (closed : ∀ name ∈ names, ∀ pdu ∈ timeline[name]?, ∀ cited ∈ pdu.authEvents, cited ∈ names)
    (path : Relation.ReflTransGen (Cites timeline) eventId ancestor) : ancestor ∈ names := by
  induction path with
  | refl => exact member
  | tail _ cites ih =>
    obtain ⟨pdu, read, names⟩ := cites
    exact closed _ ih pdu read _ names

theorem shared_ancestors_listed :
    getEventAuthChainIds createAsRoom firstCome topicTimeline "!create" "$topic" = some ["$power", "$member"] ∧
    ∃ ids, getEventAuthChainIds createAsRoom firstCome topicTimeline "!create" "$topic" = some ids ∧
      ∀ authEvent, authEvent ∈ ids ↔ Relation.TransGen (Cites topicTimeline) "$topic" authEvent := by
  have within : ∀ ancestor, Relation.ReflTransGen (Cites topicTimeline) "$topic" ancestor →
    ancestor ∈ ["$topic", "$power", "$member"] :=
    fun _ => reached_within (by decide) (by decide +kernel)
  have placed : ∀ name ∈ ["$topic", "$power", "$member"], ∃ pdu ∈ topicTimeline[name]?, pdu.roomId = "!create" := by
    decide +kernel
  obtain ⟨ids, ended, _, _, exact⟩ :=
    auth_chain_exact_iff createAsRoom firstCome topicTimeline "!create" "$topic" fun ancestor path =>
    placed ancestor (within ancestor path)
  refine ⟨by decide +kernel, ids, ended, exact.mpr fun create isSeen path => ?_⟩
  cases List.mem_singleton.mp isSeen
  exact absurd (within "$create" path.to_reflTransGen) (by decide)

theorem named_create_unlisted : Relation.TransGen (Cites topicTimeline) "$late" "$create" ∧
      getEventAuthChainIds createAsRoom firstCome topicTimeline "!create" "$late" = some ["$member", "$power"] :=
  ⟨Relation.TransGen.single ⟨⟨["$create", "$member"], "!create"⟩, by decide +kernel, by decide⟩, by decide +kernel⟩

end GaussMatrix.Rooms.AuthChain

import GaussMatrix.Rooms.StateAppend

namespace GaussMatrix.Rooms.Compressor

open Collections BigEndian Handlers Diffs Runs Std
open Database (Bytes)
open StateRes (EventId StateKey)

section

-- The callers compress a state map, which has one event for each of its keys.
structure ProperState where
  events : CompressedState
  proper : Proper events

inductive StateAct (Content : Type) where
  | saveState (roomId : String) (state : ProperState)
  | setEventState (eventId : EventId) (roomId : String) (state : ProperState)
  | appendToState (newPdu : Pdu Content)
  | setRoomState (roomId : String) (short : Short)
  | load (short : Short)
  | forget (short : Short)
  | drawCount

structure History where
  session : StateSession
  saved : List (Short × CompressedState)
  failed : List SaveError

def History.start : History := ⟨⟨⟨0, ∅, ∅, ∅, ∅, ∅, ∅, ∅, ∅⟩, ∅, []⟩, [], []⟩

def History.roomState (history : History) (roomId : String) : CompressedState :=
  (history.session.tables.roomidShortstatehash[roomId]?.bind fun short => history.saved.lookup short).getD ∅

def stateWith {Content : Type} (tables : StateTables) (state : CompressedState) (newPdu : Pdu Content) :
    CompressedState :=
  match newPdu.stateKey with
  | none => state
  | some stateKey =>
    match tables.statekeyShortstatekey[(newPdu.kind, stateKey)]?, tables.eventidShorteventid[newPdu.eventId]? with
    | some shortstatekey, some shorteventid => appended state shortstatekey (compressStateEvent shortstatekey shorteventid)
    | _, _ => state

variable {Content : Type} (digest : Bytes → Bytes) (fuel : Nat)

def perform (session : StateSession) : StateAct Content → Except SaveError Short × StateSession
  | .saveState roomId state =>
    let (outcome, after) := run (saveState digest fuel roomId state.events) session
    (outcome.map HashSetCompressStateEvent.shortstatehash, after)
  | .setEventState eventId roomId state => run (setEventState digest fuel eventId roomId state.events) session
  | .appendToState newPdu => run (appendToState fuel newPdu) session
  | .setRoomState roomId short => (.ok short, session.put (.roomidShortstatehash roomId short))
  | .load short =>
    let (outcome, after) := run (loadShortstatehashInfo fuel short) session
    (outcome.map fun _ => short, after)
  | .forget short => (.ok short, { session with stateinfoCache := session.stateinfoCache.erase short })
  | .drawCount => run nextCount session

section

variable (history : History)

def History.stateSaved (after : StateSession) : StateAct Content → Option CompressedState
  | .saveState _ state => some state.events
  | .setEventState _ _ state => some state.events
  | .appendToState newPdu => some (stateWith after.tables (history.roomState newPdu.roomId) newPdu)
  | _ => none

def History.record (after : StateSession) : Except SaveError Short → Option CompressedState → History
  | .ok short, some state => ⟨after, (short, state) :: history.saved, history.failed⟩
  | .error error, some _ => ⟨after, history.saved, error :: history.failed⟩
  | _, none => ⟨after, history.saved, history.failed⟩

def History.enabled : StateAct Content → Bool
  | .setRoomState _ short => (history.saved.lookup short).isSome
  | _ => true

def History.step (act : StateAct Content) : Option History :=
  if history.enabled act then
    let (outcome, after) := perform digest fuel history.session act
    some (history.record after outcome (history.stateSaved after act))
  else none

-- No state grows beyond what the comparison of the layers can count with.
def SmallSave : StateAct Content → Prop
  | .saveState _ state => state.events.size ≤ mostEvents
  | .setEventState _ _ state => state.events.size ≤ mostEvents
  | .appendToState newPdu => (history.roomState newPdu.roomId).size < mostEvents
  | _ => True

end

instance decidableSmallSave (history : History) : (act : StateAct Content) → Decidable (SmallSave history act)
  | .saveState _ state => inferInstanceAs (Decidable (state.events.size ≤ mostEvents))
  | .setEventState _ _ state => inferInstanceAs (Decidable (state.events.size ≤ mostEvents))
  | .appendToState newPdu => inferInstanceAs (Decidable ((history.roomState newPdu.roomId).size < mostEvents))
  | .setRoomState _ _ | .load _ | .forget _ | .drawCount => isTrue trivial

def StateAct.hashedState : StateAct Content → Option CompressedState
  | .saveState _ state => some state.events
  | .setEventState _ _ state => some state.events
  | _ => none

def hashedStates (acts : List (StateAct Content)) : Set CompressedState :=
  { state | ∃ act ∈ acts, act.hashedState = some state }

end

variable {Content : Type} {digest : Bytes → Bytes} {known : Set CompressedState} {fuel : Nat} {history : History}
  {after : StateSession} {outcome : Except SaveError Short} {state : CompressedState}

-- The counter may be used up, and no event but a state event may be first in a room.
def Expected (error : SaveError) : Prop := error = exhausted ∨
    error = .panic "first event in room must be a state event"

structure History.Faithful (digest : Bytes → Bytes) (known : Set CompressedState) (history : History) : Prop where
  sound : history.session.tables.Sound digest known
  filed : Filed history.session.tables history.session.stateinfoCache
  modest : Modest history.session.tables
  saved : ∀ short state, (short, state) ∈ history.saved → Holds history.session.tables short state
  failed : ∀ error ∈ history.failed, Expected error
  rooms : ∀ (roomId : String) (short : Short), history.session.tables.roomidShortstatehash[roomId]? = some short →
    (history.saved.lookup short).isSome

theorem start_faithful : History.start.Faithful digest known := by
  have nothing : ∀ {K V : Type} [Ord K] [TransOrd K] [LawfulEqOrd K] (key : K) (value : V) {Goal : Prop},
    (∅ : BTreeMap K V)[key]? = some value → Goal := by
    intro K V _ _ _ key value Goal read
    cases read
  refine ⟨⟨by decide, fun _ _ => nothing _ _, fun _ _ => nothing _ _, fun _ _ => nothing _ _, fun _ _ => nothing _ _, fun _ _ => nothing _ _⟩,
    fun _ _ => nothing _ _, fun short state holds => ?_, fun _ _ member => absurd member List.not_mem_nil, List.forall_mem_nil _,
    fun _ _ => nothing _ _⟩
  obtain ⟨value, read⟩ := holds_written holds
  exact nothing short value read

variable {short : Short}

theorem lookup_member {saved : List (Short × CompressedState)} (found : saved.lookup short = some state) :
    (short, state) ∈ saved := by
  obtain ⟨before, rest, rfl, _⟩ := List.lookup_eq_some_iff.mp found
  exact List.mem_append_right before List.mem_cons_self

theorem room_state_previous (faithful : history.Faithful digest known) (roomId : String) :
    PreviousState history.session.tables history.session.tables.roomidShortstatehash[roomId]?
    (history.roomState roomId) := by
  rw [History.roomState]
  cases previous : history.session.tables.roomidShortstatehash[roomId]? with
  | none => rfl
  | some short =>
    obtain ⟨state, found⟩ := Option.isSome_iff_exists.mp (faithful.rooms roomId short previous)
    change Holds history.session.tables short ((history.saved.lookup short).getD ∅)
    rw [found]
    exact faithful.saved short state (lookup_member found)

theorem save_modest (faithful : history.Faithful digest known) (kept : Kept digest known history.session after outcome)
    (holds : ∀ short, outcome = .ok short → Holds after.tables short state) (small : state.size ≤ mostEvents) :
    Modest after.tables := by
  intro short other isHeld
  obtain ⟨value, read⟩ := holds_written isHeld
  rcases kept.adds short value read with before | isNew
  · obtain ⟨earlier, isEarlier⟩ := faithful.sound.stored short value before
    rw [holds_unique isHeld (holds_kept kept.keeps isEarlier)]
    exact faithful.modest short earlier isEarlier
  · rw [holds_unique isHeld (holds short isNew)]
    exact small

structure Performed (digest : Bytes → Bytes) (known : Set CompressedState) (history : History) (after : StateSession)
    (outcome : Except SaveError Short) (saved : Option CompressedState) : Prop where
  kept : Kept digest known history.session after outcome
  modest : Modest after.tables
  holds : ∀ short, outcome = .ok short → ∀ state, saved = some state → Holds after.tables short state
  failed : ∀ error, outcome = .error error → saved.isSome → Expected error

theorem record_faithful (faithful : history.Faithful digest known) {saved : Option CompressedState}
    (performed : Performed digest known history after outcome saved) :
    (history.record after outcome saved).Faithful digest known := by
  have kept := performed.kept
  have before : ∀ short state, (short, state) ∈ history.saved → Holds after.tables short state :=
    fun short state member => holds_kept kept.keeps (faithful.saved short state member)
  have rooms : ∀ (roomId : String) (short : Short), after.tables.roomidShortstatehash[roomId]? = some short →
    (history.saved.lookup short).isSome := by
    intro roomId short read
    rw [kept.rooms] at read
    exact faithful.rooms roomId short read
  cases saved with
  | none => cases outcome <;> exact ⟨kept.sound, kept.filed, performed.modest, before, faithful.failed, rooms⟩
  | some state =>
    cases outcome with
    | error error =>
      refine ⟨kept.sound, kept.filed, performed.modest, before, fun other member => ?_, rooms⟩
      rcases List.mem_cons.mp member with rfl | old
      · exact performed.failed other rfl rfl
      · exact faithful.failed other old
    | ok short =>
      refine ⟨kept.sound, kept.filed, performed.modest, fun other otherState member => ?_, faithful.failed, fun roomId other read => ?_⟩
      · rcases List.mem_cons.mp member with isNew | old
        · cases isNew
          exact performed.holds short rfl state rfl
        · exact before other otherState old
      · change (List.lookup other ((short, state) :: history.saved)).isSome
        rw [List.lookup_cons]
        split
        · rfl
        · exact rooms roomId other read

theorem save_performed (collisionFree : CollisionFree digest known) (faithful : history.Faithful digest known)
    (isKnown : state ∈ known) (small : state.size ≤ mostEvents) {prepared : StateSession}
    (ran : SaveRan digest known history.session prepared after state outcome) :
    Performed digest known history after outcome (some state) := by
  obtain ⟨kept, holds, failed⟩ :=
    save_ran_kept collisionFree isKnown faithful.sound faithful.filed faithful.modest small ran
  refine ⟨kept, save_modest faithful kept holds small, fun short isOk other same => ?_, fun error isError _ =>
    .inl (failed error isError)⟩
  cases same
  exact holds short isOk

theorem append_performed (faithful : history.Faithful digest known) (enough : 4 ≤ fuel) {newPdu : Pdu Content}
    (small : (history.roomState newPdu.roomId).size < mostEvents) :
    ∃ outcome after, run (appendToState fuel newPdu) history.session = (outcome, after) ∧
      Performed digest known history after outcome (some (stateWith after.tables (history.roomState newPdu.roomId) newPdu)) := by
  obtain ⟨outcome, after, ran, kept, saved, failed⟩ := append_to_state_run faithful.sound faithful.filed enough newPdu
  have previous := room_state_previous faithful newPdu.roomId
  have holds : ∀ short, outcome = .ok short →
    Holds after.tables short (stateWith after.tables (history.roomState newPdu.roomId) newPdu) := by
    intro short isOk
    obtain ⟨plain, named⟩ := saved short isOk
    cases isState : newPdu.stateKey with
    | none =>
      rw [plain isState] at previous
      simp only [stateWith, isState]
      exact holds_kept kept.keeps previous
    | some stateKey =>
      obtain ⟨shorteventid, shortstatekey, isEvent, isKey, held⟩ := named stateKey isState
      simp only [stateWith, isState, isKey, isEvent]
      exact held _ previous
  have grown : (stateWith after.tables (history.roomState newPdu.roomId) newPdu).size ≤ mostEvents := by
    rw [stateWith]
    split
    · exact small.le
    · split
      · exact (appended_size _ _ _).trans small
      · exact small.le
  refine ⟨outcome, after, ran, kept, save_modest faithful kept holds grown, fun short isOk other same => ?_,
    fun error isError _ => ?_⟩
  · cases same
    exact holds short isOk
  · rcases failed error isError with used | first | large
    · exact .inl used
    · exact .inr first
    · refine absurd ⟨faithful.modest, fun state isPrevious => ?_⟩ large
      rw [previous_state_unique isPrevious previous]
      exact small

theorem plain_performed (faithful : history.Faithful digest known)
    (kept : Kept digest known history.session after (.error exhausted))
    (outcome : Except SaveError Short) : Performed digest known history after outcome none := by
  have back : KeepsDiffs after.tables history.session.tables :=
    fun short value read => (kept.adds short value read).resolve_right fun isOk => nomatch isOk
  exact ⟨{ kept with adds := fun short value read => .inl (back short value read) },
    modest_of_same_diffs back faithful.modest,
    (fun _ _ _ absent => nomatch absent), fun _ _ absent => nomatch absent⟩

theorem load_kept (sound : history.session.tables.Sound digest known)
    (filed : Filed history.session.tables history.session.stateinfoCache) (enough : 4 ≤ fuel) : Kept digest known
    history.session (run (loadShortstatehashInfo fuel short) history.session).2 (.error exhausted) := by
  cases read : history.session.tables.shortstatehashStatediff[short]? with
  | some value =>
    obtain ⟨state, stack, found, _⟩ := sound.stored short value read
    obtain ⟨cache, loaded, filedAfter⟩ := load_stack filed found (found.depth.trans enough)
    rw [loaded]
    exact cached_kept sound filedAfter _
  | none =>
    obtain ⟨more, rfl⟩ := Nat.exists_eq_succ_of_ne_zero (Nat.ne_zero_of_lt enough)
    rw [load_absent filed read]
    exact prepared_kept sound filed (prepared_nothing _) _

theorem forget_filed {tables : StateTables} {cache : BTreeMap Short ShortStateInfoVec} (filed : Filed tables cache) :
    Filed tables (cache.erase short) := by
  intro other stack read
  rw [ExtTreeMap.getElem?_erase] at read
  split at read
  · cases read
  · exact filed other stack read

variable {act : StateAct Content}

theorem perform_performed (collisionFree : CollisionFree digest known) (enough : 4 ≤ fuel)
    (faithful : history.Faithful digest known) (small : SmallSave history act) (isKnown :
    ∀ state, act.hashedState = some state → state ∈ known) (plain : ∀ roomId short, act ≠ .setRoomState roomId short) :
    ∃ outcome after, perform digest fuel history.session act = (outcome, after) ∧
    Performed digest known history after outcome (history.stateSaved after act) := by
  cases act with
  | saveState roomId state =>
    obtain ⟨outcome, after, ran, saved⟩ := save_state_run faithful.sound faithful.filed state.proper enough
    refine ⟨_, after, ?_, save_performed collisionFree faithful (isKnown _ rfl) small saved⟩
    rw [perform, ran]
  | setEventState eventId roomId state =>
    obtain ⟨outcome, after, ran, saved⟩ := set_event_state_run faithful.sound faithful.filed state.proper enough
    exact ⟨outcome, after, ran, save_performed collisionFree faithful (isKnown _ rfl) small saved⟩
  | appendToState newPdu => exact append_performed faithful enough small
  | setRoomState roomId short => exact absurd rfl (plain roomId short)
  | load short => exact ⟨_, _, rfl, plain_performed faithful (load_kept faithful.sound faithful.filed enough) _⟩
  | forget short =>
    exact ⟨_, _, rfl, plain_performed faithful (cached_kept faithful.sound (forget_filed faithful.filed) _) _⟩
  | drawCount =>
    rcases next_count_run with drawn | ended
    · exact ⟨_, _, drawn.2, plain_performed faithful
        (prepared_kept faithful.sound faithful.filed (put_prepared _ (count_allowed drawn.1) trivial) _) _⟩
    · exact ⟨_, _, ended.2, plain_performed faithful (prepared_kept faithful.sound faithful.filed (prepared_nothing _) _) _⟩

theorem set_room_state_faithful (faithful : history.Faithful digest known) {roomId : String}
    (found : (history.saved.lookup short).isSome) : History.Faithful digest known
    ⟨history.session.put (.roomidShortstatehash roomId short), history.saved, history.failed⟩ := by
  obtain ⟨state, isSaved⟩ := Option.isSome_iff_exists.mp found
  have allowed : Allowed digest known history.session.tables (.roomidShortstatehash roomId short) :=
    ⟨state, faithful.saved short state (lookup_member isSaved)⟩
  have keeps := allowed_keeps_diffs allowed
  have back : KeepsDiffs (history.session.tables.apply (.roomidShortstatehash roomId short)) history.session.tables :=
    fun _ _ read => read
  refine ⟨apply_sound faithful.sound allowed, filed_kept keeps faithful.filed,
    modest_of_same_diffs back faithful.modest,
    fun other otherState member => holds_kept keeps (faithful.saved other otherState member), faithful.failed, fun otherRoom other read => ?_⟩
  rcases read_inserted read with written | before
  · rw [written.2]
    exact found
  · exact faithful.rooms otherRoom other before

theorem step_faithful (collisionFree : CollisionFree digest known) (enough : 4 ≤ fuel) {next : History}
    (faithful : history.Faithful digest known) (small : SmallSave history act)
    (isKnown : ∀ state, act.hashedState = some state → state ∈ known)
    (stepped : history.step digest fuel act = some next) : next.Faithful digest known := by
  rw [History.step] at stepped
  split at stepped
  case isFalse => cases stepped
  case isTrue enabled =>
    by_cases setting : ∃ roomId short, act = .setRoomState roomId short
    · obtain ⟨roomId, short, rfl⟩ := setting
      cases stepped
      exact set_room_state_faithful faithful enabled
    · obtain ⟨outcome, after, performed, isPerformed⟩ := perform_performed collisionFree enough faithful small isKnown
        fun roomId short same => setting ⟨roomId, short, same⟩
      rw [performed] at stepped
      cases stepped
      exact record_faithful faithful isPerformed

theorem run_faithful (enough : 4 ≤ fuel) {acts : List (StateAct Content)}
    (collisionFree : CollisionFree digest (hashedStates acts)) (small : AllMeet (History.step digest fuel) SmallSave
    History.start acts) (ran : runs (History.step digest fuel) History.start acts = some history) :
    history.Faithful digest (hashedStates acts) := by
  have isKnown : ∀ act ∈ acts, ∀ state, act.hashedState = some state → state ∈ hashedStates acts :=
    fun act member state hashed => ⟨act, member, hashed⟩
  refine runs_meeting_invariant ?_ start_faithful (all_meet_members small isKnown) ran
  rintro before act next faithful met stepped
  exact step_faithful collisionFree enough faithful met.1 met.2 stepped

theorem saved_states_survive (enough : 4 ≤ fuel) {acts : List (StateAct Content)}
    (collisionFree : CollisionFree digest (hashedStates acts)) (small : AllMeet (History.step digest fuel) SmallSave
    History.start acts) (ran : runs (History.step digest fuel) History.start acts = some history) :
    (∀ short state, (short, state) ∈ history.saved → ∃ info below after,
      run (loadShortstatehashInfo fuel short) history.session = (.ok (info :: below), after) ∧ info.fullState = state) ∧
    (∀ (short : Short) (value : Bytes), history.session.tables.shortstatehashStatediff[short]? = some value →
    ∃ info below after,
      run (loadShortstatehashInfo fuel short) history.session = (.ok (info :: below), after) ∧ (info :: below).length ≤ 4 ∧
      getStatediff value = ⟨below.head?.map ShortStateInfo.shortstatehash, info.added, info.removed⟩ ∧
      (∀ event ∈ info.added, event ∉ stateOf below) ∧ ∀ event ∈ info.removed, event ∈ stateOf below) ∧
    ∀ error ∈ history.failed, Expected error := by
  have faithful := run_faithful enough collisionFree small ran
  have loads : ∀ short stack, IsStack history.session.tables short stack → ∃ info below after, stack = info :: below ∧
      run (loadShortstatehashInfo fuel short) history.session = (.ok (info :: below), after) := by
    intro short stack found
    obtain ⟨cache, loaded, _⟩ := load_stack faithful.filed found (found.depth.trans enough)
    cases stack with
    | nil => cases found.top
    | cons info below => exact ⟨info, below, _, rfl, loaded⟩
  refine ⟨fun short state member => ?_, fun short value read => ?_, faithful.failed⟩
  · obtain ⟨stack, found, top⟩ := faithful.saved short state member
    obtain ⟨info, below, after, rfl, loaded⟩ := loads short stack found
    exact ⟨info, below, after, loaded, top⟩
  · obtain ⟨state, stack, found, _⟩ := faithful.sound.stored short value read
    obtain ⟨info, below, after, rfl, loaded⟩ := loads short stack found
    have stored := found.stacked.1
    have isValue : value = _ := Option.some.inj (read.symm.trans (Option.some.inj found.top ▸ stored.value))
    refine ⟨info, below, after, loaded, found.depth, ?_, stored.layer.1.1, stored.layer.1.2⟩
    rw [isValue]
    exact stored_value_read stored found.stacked.2

def createState : ProperState :=
  ⟨appended ∅ 1 (compressStateEvent 1 1), appended_proper empty_proper (by decide) (by decide)⟩

def topicPdu : Pdu Unit where
  eventId := "$topic"
  kind := "m.room.topic"
  content := ()
  roomId := "!room"
  sender := "@alice:a"
  stateKey := some ""
  prevEvents := []
  authEvents := []
  originServerTs := 0

theorem appended_topic_survives : ∃ history,
    runs (History.step id 4) History.start [.saveState "!room" createState, .setRoomState "!room" 1,
    .appendToState topicPdu] = some history ∧
      history.saved.length = 2 ∧ ∀ short state, (short, state) ∈ history.saved → ∃ info below after,
        run (loadShortstatehashInfo 4 short) history.session = (.ok (info :: below), after) ∧ info.fullState = state := by
  have ends : ((runs (History.step id 4) History.start
      [.saveState "!room" createState, .setRoomState "!room" 1, .appendToState topicPdu]).map fun history => history.saved.length) = some 2 := by
    decide +kernel
  obtain ⟨history, ran, length⟩ := Option.map_eq_some_iff.mp ends
  exact ⟨history, ran, length, (saved_states_survive (by decide) (Set.injOn_id _) (by decide +kernel) ran).1⟩

def crowdEvent (index : Nat) : CompressedStateEvent := compressStateEvent (index + 2 : Nat) 1

def crowd (many : Nat) : CompressedState := Std.ExtTreeSet.ofList ((List.range many).map crowdEvent)

variable {many : Nat}

theorem crowd_member (event : CompressedStateEvent) :
    event ∈ crowd many ↔ ∃ index < many, crowdEvent index = event := by
  rw [crowd, ExtTreeSet.mem_ofList, List.contains_iff_mem, List.mem_map]
  simp only [List.mem_range]

theorem compress_key_unique {key other shorteventid otherEvent : Short} (small : key < 2 ^ 64)
    (otherSmall : other < 2 ^ 64) (same : (compressStateEvent key shorteventid).bytes.take 8 =
    (compressStateEvent other otherEvent).bytes.take 8) : key = other := by
  have starts := (starts_with_iff _ _).mp (compress_starts_with key shorteventid)
  refine starts_with_unique small otherSmall ?_ (compress_starts_with other otherEvent)
  rw [starts_with_iff, ← same]
  exact starts

theorem crowd_event_unique {index other : Nat} (fits : many + 2 ≤ 2 ^ 64) (below : index < many)
    (otherBelow : other < many)
    (same : (crowdEvent index).bytes.take 8 = (crowdEvent other).bytes.take 8) : index = other := by
  have small : index + 2 < 2 ^ 64 := by omega
  have otherSmall : other + 2 < 2 ^ 64 := by omega
  have keys : index + 2 = other + 2 := compress_key_unique small otherSmall same
  omega

theorem crowd_proper (fits : many + 2 ≤ 2 ^ 64) : Proper (crowd many) := by
  refine ⟨fun event member => ?_, fun event member other otherMember same => ?_⟩
  · obtain ⟨index, below, rfl⟩ := (crowd_member event).mp member
    have small : index + 2 < 2 ^ 64 := by omega
    refine Bool.eq_false_iff.mpr fun zero => ?_
    cases starts_with_unique (by decide) small zero (compress_starts_with _ 1)
  · obtain ⟨index, below, rfl⟩ := (crowd_member event).mp member
    obtain ⟨otherIndex, otherBelow, rfl⟩ := (crowd_member other).mp otherMember
    rw [crowd_event_unique fits below otherBelow same]

theorem crowd_size (fits : many + 2 ≤ 2 ^ 64) : (crowd many).size = many := by
  rw [crowd, ExtTreeSet.size_ofList, List.length_map, List.length_range]
  rw [List.pairwise_map]
  refine List.Pairwise.imp_of_mem ?_ List.pairwise_lt_range
  intro index other member otherMember below same
  have equal : crowdEvent index = crowdEvent other := LawfulEqCmp.compare_eq_iff_eq.mp same
  rw [crowd_event_unique fits (List.mem_range.mp member) (List.mem_range.mp otherMember) (by rw [equal])] at below
  exact Nat.lt_irrefl other below

theorem crowd_apart (fits : many + 2 ≤ 2 ^ 64) {event : CompressedStateEvent} (member : event ∈ crowd many) :
    event ∉ createState.events := by
  obtain ⟨index, below, rfl⟩ := (crowd_member event).mp member
  intro inState
  rcases (appended_member _ _ _ _).mp inState with same | absent
  · have small : index + 2 < 2 ^ 64 := by omega
    have keys : index + 2 = 1 := compress_key_unique small (by decide) (congrArg (fun event => event.bytes.take 8) same)
    omega
  · exact ExtTreeSet.not_mem_empty absent.1

def createInfo : ShortStateInfo := ⟨1, createState.events, createState.events, ∅⟩

def settledSession : StateSession :=
  (((History.start.session.put (.count 1)).put (.statehashShortstatehash (calculateHash id createState.events) 1)).put
    (.shortstatehashStatediff 1 (StateDiff.value ⟨none, createState.events, ∅⟩))).put (.roomidShortstatehash "!room" 1)

def hashedSession (state : CompressedState) : StateSession :=
  { (settledSession.put (.count 2)).put (.statehashShortstatehash (calculateHash id state) 2) with
    stateinfoCache := (∅ : BTreeMap Short ShortStateInfoVec).insert 1 [createInfo] }

theorem crowd_overflows (large : 2 ^ 32 ≤ (state.filter fun event => !createState.events.contains event).size) :
    ∃ message, stateDiffOver [createInfo] 2 (stateDifference [createInfo] state).1
    (stateDifference [createInfo] state).2 = .error (.arithmetic message) := by
  change 2 ^ 32 ≤ (stateDifference [createInfo] state).1.size at large
  generalize stateDifference [createInfo] state = difference at large
  have square : ¬ (difference.1.size + difference.2.size) * (difference.1.size + difference.2.size) < 2 ^ 64 := by
    have most : 2 ^ 32 * 2 ^ 32 ≤ (difference.1.size + difference.2.size) * (difference.1.size + difference.2.size) :=
      Nat.mul_le_mul (Nat.le_add_right_of_le large) (Nat.le_add_right_of_le large)
    omega
  have parent : checked (createInfo.added.size + createInfo.removed.size) = .ok 1 := rfl
  by_cases sum : difference.1.size + difference.2.size < 2 ^ 64
  · refine ⟨"operation overflowed or result invalid", ?_⟩
    simp only [stateDiffOver, checked_ok sum, bind, Except.bind, List.length_cons, List.length_nil, parent]
    simp only [checked, if_neg square]
    rfl
  · refine ⟨"operation overflowed or result invalid", ?_⟩
    simp only [stateDiffOver, checked, if_neg sum]
    rfl

theorem crowd_save_fails (large : 2 ^ 32 ≤ (state.filter fun event => !createState.events.contains event).size)
    (different : calculateHash id state ≠ calculateHash id createState.events) :
    ∃ message, run (saveState id 4 "!room" state) settledSession =
    (.error (.arithmetic message), hashedSession state) := by
  obtain ⟨message, overflows⟩ := crowd_overflows large
  have absent : settledSession.tables.statehashShortstatehash[calculateHash id state]? = none :=
    (insert_elsewhere different).trans ExtTreeMap.getElem?_empty
  have created : run (getOrCreateShortstatehash (calculateHash id state)) settledSession =
      (.ok (2, false), (settledSession.put (.count 2)).put (.statehashShortstatehash (calculateHash id state) 2)) := by
    rw [getOrCreateShortstatehash, run_bind_ok (run_get settledSession), absent]
    rfl
  have loaded : run (loadParents 4 (some 1))
    ((settledSession.put (.count 2)).put (.statehashShortstatehash (calculateHash id state) 2)) =
      (.ok [createInfo], hashedSession state) := rfl
  refine ⟨message, ?_⟩
  rw [saveState, run_bind_ok (run_get settledSession), run_bind_ok created]
  simp only
  rw [if_neg (by decide +kernel), show settledSession.tables.roomidShortstatehash["!room"]? =
    some 1 by decide +kernel, run_bind_ok (run_try_ok loaded)]
  simp only [Bool.false_eq_true, if_false]
  exact run_bind_error (save_from_diff_error overflows)

theorem crowd_save_repeated (state : CompressedState) :
    ∃ added removed, run (saveState id 4 "!room" state)
    (hashedSession state) = (.ok ⟨2, added, removed⟩, hashedSession state) := by
  have found : (hashedSession state).tables.statehashShortstatehash[calculateHash id state]? = some 2 :=
    ExtTreeMap.getElem?_insert_self
  have previous : (hashedSession state).tables.roomidShortstatehash["!room"]? = some 1 := by
    change settledSession.tables.roomidShortstatehash["!room"]? = some 1
    decide +kernel
  have loaded : run (loadParents 4 (some 1)) (hashedSession state) = (.ok [createInfo], hashedSession state) := rfl
  refine ⟨(stateDifference [createInfo] state).1, (stateDifference [createInfo] state).2, ?_⟩
  rw [saveState, run_bind_ok (run_get _), run_bind_ok (hash_found_run found), previous]
  simp only
  rfl

theorem crowded_state_lost :
    ∃ (acts : List (StateAct Unit)) (history : History) (short : Short) (state : CompressedState),
    runs (History.step id 4) History.start acts = some history ∧ (short, state) ∈ history.saved ∧
      ∃ message, (run (loadShortstatehashInfo 4 short) history.session).1 = .error (.database message) := by
  obtain ⟨many, isMany⟩ : ∃ many : Nat, many = 2 ^ 32 := ⟨_, rfl⟩
  have fits : many + 2 ≤ 2 ^ 64 := by omega
  let state : ProperState := ⟨crowd many, crowd_proper fits⟩
  have apart : ((crowd many).filter fun event => !createState.events.contains event) = crowd many := by
    have disjoint : Disjoint (members (crowd many)) (members createState.events) := Set.disjoint_left.mpr fun event => crowd_apart fits
    apply members_injective
    rw [members_without]
    exact disjoint.sdiff_eq_left
  have large : 2 ^ 32 ≤ (state.events.filter fun event => !createState.events.contains event).size := by
    rw [apart, crowd_size fits, isMany]
  have different : calculateHash id state.events ≠ calculateHash id createState.events := by
    intro same
    have equal : state.events = createState.events := calculate_hash_injective (Set.injOn_id _) (Set.mem_univ _) (Set.mem_univ _) same
    have first : crowdEvent 0 ∈ crowd many := (crowd_member _).mpr ⟨0, by omega, rfl⟩
    exact crowd_apart fits first (equal ▸ first)
  obtain ⟨message, fails⟩ := crowd_save_fails large different
  obtain ⟨added, removed, repeated⟩ := crowd_save_repeated state.events
  have settled : runs (History.step id 4) History.start
    ([.saveState "!room" createState, .setRoomState "!room" 1] : List (StateAct Unit)) =
      some ⟨settledSession, [(1, createState.events)], []⟩ := rfl
  have failed : History.step id 4 ⟨settledSession, [(1, createState.events)], []⟩
    (.saveState "!room" state : StateAct Unit) =
      some ⟨hashedSession state.events, [(1, createState.events)], [.arithmetic message]⟩ := by
    simp only [History.step, perform, fails]
    rfl
  have returned : History.step id 4 ⟨hashedSession state.events, [(1, createState.events)], [.arithmetic message]⟩
    (.saveState "!room" state : StateAct Unit) =
      some ⟨hashedSession state.events, [(2, state.events), (1, createState.events)], [.arithmetic message]⟩ := by
    simp only [History.step, perform, repeated]
    rfl
  have lost : runs (History.step id 4) ⟨settledSession, [(1, createState.events)], []⟩
    [.saveState "!room" state, .saveState "!room" state] = some _ :=
    runs_cons.mpr ⟨_, failed, runs_cons.mpr ⟨_, returned, rfl⟩⟩
  exact ⟨_, _, 2, state.events, runs_append.mpr ⟨_, settled, lost⟩, List.mem_cons_self, _, rfl⟩

end GaussMatrix.Rooms.Compressor

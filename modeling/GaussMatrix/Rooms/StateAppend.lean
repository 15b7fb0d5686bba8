import GaussMatrix.Rooms.StateStorage

namespace GaussMatrix.Rooms.Compressor

open BigEndian Collections Diffs Handlers Runs Std ExtTreeSet
open Database (Bytes)
open StateRes (EventId StateKey)

variable {new : CompressedStateEvent} {short shorteventid : Short} {value : Bytes} {other : CompressedState}
  {prepared : StateSession}

section

variable {digest : Bytes → Bytes} {known : Set CompressedState} {session : StateSession} {fuel : Nat}

def appended (state : CompressedState) (shortstatekey : Short) (new : CompressedStateEvent) : CompressedState :=
  (state.filter fun event => !event.startsWith shortstatekey).insert new

theorem appended_member (state : CompressedState) (shortstatekey : Short) (new event : CompressedStateEvent) :
    event ∈ appended state shortstatekey new ↔ event = new ∨ event ∈ state ∧
    event.startsWith shortstatekey = false := by
  rw [appended, insert_member]
  simp [mem_filter]

variable {tables : StateTables} {after : StateSession} {stack : ShortStateInfoVec} {previous : Option Short}
  {state : CompressedState} {shortstatekey : Short}

theorem appended_proper (proper : Proper state) (positive : 0 < shortstatekey) (small : shortstatekey < 2 ^ 64) :
    Proper (appended state shortstatekey (compressStateEvent shortstatekey shorteventid)) := by
  have starts := compress_starts_with shortstatekey shorteventid
  have apart : ∀ event : CompressedStateEvent, event.startsWith shortstatekey = false →
    event.bytes.take 8 ≠ (compressStateEvent shortstatekey shorteventid).bytes.take 8 := by
    intro event differs same
    rw [(starts_with_iff _ _).mp starts, ← starts_with_iff, differs] at same
    cases same
  refine ⟨fun event member => ?_, fun event member other otherMember same => ?_⟩
  · rw [appended_member] at member
    rcases member with rfl | old
    · refine Bool.eq_false_iff.mpr fun zero => ?_
      exact positive.ne (starts_with_unique (by decide) small zero starts)
    · exact proper.named event old.1
  · rw [appended_member] at member otherMember
    rcases member with rfl | old <;> rcases otherMember with rfl | otherOld
    · rfl
    · exact absurd same.symm (apart other otherOld.2)
    · exact absurd same (apart event old.2)
    · exact proper.single event old.1 other otherOld.1 same

theorem replaced_event_member (proper : Proper (stateOf stack)) (shortstatekey : Short) (event : CompressedStateEvent) :
    replacedEvent stack shortstatekey = some event ↔ event ∈ stateOf stack ∧ event.startsWith shortstatekey = true := by
  cases stack with
  | nil => exact iff_of_false (fun found => nomatch found) fun found => not_mem_empty found.1
  | cons info below =>
    change info.fullState.toList.find? _ = some event ↔ event ∈ info.fullState ∧ _
    constructor
    · intro found
      exact ⟨mem_toList.mp (List.mem_of_find?_eq_some found),
        List.find?_some (p := fun event : CompressedStateEvent => event.startsWith shortstatekey) found⟩
    · rintro ⟨member, starts⟩
      cases found : info.fullState.toList.find? (·.startsWith shortstatekey) with
      | none => exact absurd starts (List.find?_eq_none.mp found event (mem_toList.mpr member))
      | some other =>
        have otherStarts := List.find?_some (p := fun event : CompressedStateEvent => event.startsWith shortstatekey) found
        rw [starts_with_iff] at starts otherStarts
        have same := proper.single other (mem_toList.mp (List.mem_of_find?_eq_some found)) event member (otherStarts.trans starts.symm)
        rw [same]

theorem append_diff (proper : Proper (stateOf stack)) (starts : new.startsWith shortstatekey = true)
    (changed : some new ≠ replacedEvent stack shortstatekey) : IsDiff (stateOf stack)
    (appended (stateOf stack) shortstatekey new) {new} (ofList (replacedEvent stack shortstatekey).toList) := by
  have replaced := replaced_event_member proper shortstatekey
  have removed : ∀ event, event ∈ members (ofList (replacedEvent stack shortstatekey).toList) ↔ event ∈ stateOf stack ∧
    event.startsWith shortstatekey = true := by
    intro event
    rw [← replaced]
    simp [members]
  have added : ∀ event, event ∈ members {new} ↔ event = new := by
    intro event
    change event ∈ ({new} : CompressedState) ↔ event = new
    rw [singleton_eq_insert, insert_member]
    exact or_iff_left not_mem_empty
  refine ⟨⟨fun event isNew inState => ?_, fun event isRemoved => ((removed event).mp isRemoved).1⟩, ?_⟩
  · obtain rfl := (added event).mp isNew
    exact changed ((replaced event).mpr ⟨inState, starts⟩).symm
  · ext event
    have member := appended_member (stateOf stack) shortstatekey new event
    simp only [after, Set.mem_sdiff, Set.mem_union, removed, added]
    change event ∈ appended _ _ _ ↔ (event ∈ stateOf stack ∨ event = new) ∧ _
    rw [member]
    by_cases isNew : event = new
    · subst isNew
      have absent : event ∉ stateOf stack := fun inState => changed ((replaced event).mpr ⟨inState, starts⟩).symm
      simp [absent]
    · cases held : event.startsWith shortstatekey <;> simp [isNew]

theorem appended_unchanged (proper : Proper (stateOf stack))
    (unchanged : some new = replacedEvent stack shortstatekey) :
    appended (stateOf stack) shortstatekey new = stateOf stack := by
  obtain ⟨inState, starts⟩ := (replaced_event_member proper shortstatekey new).mp unchanged.symm
  refine ext_mem fun event => ?_
  rw [appended_member]
  constructor
  · rintro (rfl | old)
    · exact inState
    · exact old.1
  · intro member
    cases held : event.startsWith shortstatekey with
    | false => exact .inr ⟨member, rfl⟩
    | true =>
      rw [starts_with_iff] at starts held
      exact .inl (proper.single event member new inState (held.trans starts.symm))

structure Kept (digest : Bytes → Bytes) (known : Set CompressedState) (session after : StateSession)
    (outcome : Except SaveError Short) : Prop where
  sound : after.tables.Sound digest known
  filed : Filed after.tables after.stateinfoCache
  keeps : KeepsDiffs session.tables after.tables
  rooms : after.tables.roomidShortstatehash = session.tables.roomidShortstatehash
  adds : ∀ (short : Short) (value : Bytes), after.tables.shortstatehashStatediff[short]? = some value →
    session.tables.shortstatehashStatediff[short]? = some value ∨ outcome = .ok short

theorem prepared_kept {entries : List TableWrite} (sound : session.tables.Sound digest known)
    (filed : Filed session.tables session.stateinfoCache)
    (prepared : Prepared digest known session after entries) (outcome : Except SaveError Short) :
    Kept digest known session after outcome := by
  obtain ⟨soundAfter, filedAfter⟩ := prepared.sound sound filed
  have same := prepared.states
  refine ⟨soundAfter, filedAfter, fun short value read => ?_, same.rooms, fun short value read => .inl ?_⟩
  · rw [same.diffs]
    exact read
  · rw [same.diffs] at read
    exact read

theorem empty_proper : Proper ∅ :=
  ⟨fun _ member => absurd member not_mem_empty, fun _ member => absurd member not_mem_empty⟩

theorem stacked_proper (stacked : Stacked tables stack) : Proper (stateOf stack) := by
  cases stack with
  | nil => exact empty_proper
  | cons info below => exact stacked.1.proper

theorem appended_size (state : CompressedState) (shortstatekey : Short) (new : CompressedStateEvent) :
    (appended state shortstatekey new).size ≤ state.size + 1 := by
  have subset : members (appended state shortstatekey new) ⊆ members (state.insert new) := by
    intro event member
    rcases (appended_member state shortstatekey new event).mp member with isNew | old
    · exact (insert_member state new event).mpr (.inl isNew)
    · exact (insert_member state new event).mpr (.inr old.1)
  exact (size_le_of_subset subset).trans size_insert_le

theorem put_diff_kept {outcome : Except SaveError Short} (sound : session.tables.Sound digest known)
    (filed : Filed session.tables session.stateinfoCache)
    (fresh : session.tables.shortstatehashStatediff[short]? = none) (drawn : short ≤ session.tables.count)
    (holds : Holds (session.tables.apply (.shortstatehashStatediff short value)) short state)
    (returned : outcome = .ok short) :
    Kept digest known session (session.put (.shortstatehashStatediff short value)) outcome := by
  have allowed : Allowed digest known session.tables (.shortstatehashStatediff short value) :=
    ⟨fresh, drawn, state, holds⟩
  have keeps := allowed_keeps_diffs allowed
  refine ⟨apply_sound sound allowed, filed_kept keeps filed, keeps, rfl, fun other otherValue read => ?_⟩
  rcases read_inserted read with written | before
  · exact .inr (written.1 ▸ returned)
  · exact .inl before

theorem Kept.trans {middle : StateSession} {outcome firstOutcome : Except SaveError Short}
    (first : Kept digest known session middle firstOutcome) (failed : firstOutcome.isOk = false)
    (second : Kept digest known middle after outcome) : Kept digest known session after outcome where
  sound := second.sound
  filed := second.filed
  keeps := fun short value read => second.keeps short value (first.keeps short value read)
  rooms := second.rooms.trans first.rooms
  adds := by
    intro short value read
    rcases second.adds short value read with before | new
    · rcases first.adds short value before with earlier | new
      · exact .inl earlier
      · subst new
        cases failed
    · exact .inr new

structure SameNames (tables other : StateTables) : Prop where
  events : other.eventidShorteventid = tables.eventidShorteventid
  keys : other.statekeyShortstatekey = tables.statekeyShortstatekey

theorem append_new_event_run (sound : session.tables.Sound digest known)
    (filed : Filed session.tables session.stateinfoCache) (stacked : Stacked session.tables stack) (depth :
    stack.length ≤ 4) (held : PreviousState session.tables previous (stateOf stack)) (positive : 0 < shortstatekey)
    (small : shortstatekey < 2 ^ 64) :
    ∃ outcome after, run (appendNewEvent previous stack shortstatekey (compressStateEvent shortstatekey shorteventid))
    session = (outcome, after) ∧
      Kept digest known session after outcome ∧ SameNames session.tables after.tables ∧
      (∀ short, outcome = .ok short → Holds after.tables short
      (appended (stateOf stack) shortstatekey (compressStateEvent shortstatekey shorteventid))) ∧ ∀ error,
      outcome = .error error → error = exhausted ∨ ¬ (Modest session.tables ∧ (stateOf stack).size < mostEvents) := by
  let new := compressStateEvent shortstatekey shorteventid
  have proper := stacked_proper stacked
  have nothing := fun outcome => prepared_kept sound filed (prepared_nothing session) outcome
  rw [appendNewEvent]
  by_cases unchanged : some new = replacedEvent stack shortstatekey
  · rw [if_pos unchanged]
    cases previous with
    | none =>
      have inState := ((replaced_event_member proper shortstatekey new).mp unchanged.symm).1
      rw [held] at inState
      exact absurd inState not_mem_empty
    | some short =>
      refine ⟨.ok short, session, rfl, nothing _, ⟨rfl, rfl⟩, fun other same => ?_, fun error failed => nomatch failed⟩
      cases same
      rw [appended_unchanged proper unchanged]
      exact held
  · rw [if_neg unchanged]
    rcases next_count_run with drawn | ended
    · obtain ⟨room, drawn⟩ := drawn
      let counted := session.put (.count (session.tables.count + 1))
      have prepared : Prepared digest known session counted _ := put_prepared _ (count_allowed room) trivial
      have countedKept := prepared_kept sound filed prepared (.error exhausted)
      have leads := append_diff proper (compress_starts_with shortstatekey shorteventid) unchanged
      rw [run_bind_ok drawn]
      cases settled : stateDiffOver stack 2 {new} (ofList (replacedEvent stack shortstatekey).toList) with
      | ok diff =>
        have fresh : counted.tables.shortstatehashStatediff[session.tables.count + 1]? = none := count_fresh sound
        have holds := new_layer_holds (stacked_kept countedKept.keeps stacked) leads settled (appended_proper proper positive small) fresh
          ⟨Nat.succ_pos _, room⟩
        have kept := put_diff_kept countedKept.sound countedKept.filed fresh le_rfl holds rfl
        refine ⟨.ok (session.tables.count + 1), counted.put (.shortstatehashStatediff (session.tables.count + 1) diff.value), ?_,
          countedKept.trans rfl kept, ⟨rfl, rfl⟩, fun short same => ?_, fun error failed => nomatch failed⟩
        · rw [run_bind_ok (save_from_diff_ok settled)]
          rfl
        · cases same
          exact holds
      | error error =>
        refine ⟨.error error, counted, run_bind_error (save_from_diff_error settled), prepared_kept sound filed prepared _, ⟨rfl, rfl⟩,
          (fun short same => nomatch same), fun other _ => .inr fun modest => ?_⟩
        have grown := appended_size (stateOf stack) shortstatekey new
        obtain ⟨diff, isOk⟩ := state_diff_over_ok (stacked_layered stacked) leads
          (stacked_modest modest.1 stacked depth) (grown.trans modest.2) (by decide : 2 ≤ 2 * mostEvents)
        cases settled.symm.trans isOk
    · refine ⟨.error exhausted, session, run_bind_error ended.2, nothing _, ⟨rfl, rfl⟩, (fun short same => nomatch same), fun error failed => ?_⟩
      cases failed
      exact .inl rfl

theorem previous_state_unique (isState : PreviousState tables previous state)
    (isOther : PreviousState tables previous other) : state = other := by
  cases previous with
  | none => exact isState.trans isOther.symm
  | some short => exact holds_unique isState isOther

theorem previous_state_kept {other : StateTables} (kept : KeepsDiffs tables other)
    (isState : PreviousState tables previous state) : PreviousState other previous state := by
  cases previous with
  | none => exact isState
  | some short => exact holds_kept kept isState

theorem cached_kept (sound : session.tables.Sound digest known) {cache : BTreeMap Short ShortStateInfoVec}
    (filed : Filed session.tables cache)
    (outcome : Except SaveError Short) : Kept digest known session { session with stateinfoCache := cache } outcome :=
  ⟨sound, filed, fun _ _ read => read, rfl, fun _ _ read => .inl read⟩

theorem modest_of_same_diffs {other : StateTables} (same : KeepsDiffs other tables) (modest : Modest tables) :
    Modest other :=
  fun short state holds => modest short state (holds_kept same holds)

theorem append_state_event_run (sound : session.tables.Sound digest known)
    (filed : Filed session.tables session.stateinfoCache) (held : ∀ short, previous = some short →
    ∃ state, Holds session.tables short state) (enough : 4 ≤ fuel) {eventId : EventId}
    (named : session.tables.eventidShorteventid[eventId]? = some shorteventid) {key : StateKey} :
    ∃ outcome after, run (appendStateEvent fuel previous eventId key) session = (outcome, after) ∧
    Kept digest known session after outcome ∧
      (∀ short, outcome = .ok short → after.tables.eventidShorteventid[eventId]? = some shorteventid ∧
        ∃ shortstatekey, after.tables.statekeyShortstatekey[key]? = some shortstatekey ∧ ∀ state, PreviousState session.tables previous state →
            Holds after.tables short (appended state shortstatekey (compressStateEvent shortstatekey shorteventid))) ∧
      ∀ error, outcome = .error error → error = exhausted ∨
      ¬ (Modest session.tables ∧ ∀ state, PreviousState session.tables previous state → state.size < mostEvents) := by
  obtain ⟨stack, cache, loaded, filedLoaded, stacked, depth, isPrevious⟩ := load_parents_run filed held enough
  let loadedSession : StateSession := { session with stateinfoCache := cache }
  have loadedKept := cached_kept sound filedLoaded (.error exhausted)
  obtain ⟨keyed, keyedSession, entries, keyedRun, prepared, sameEvents, keyedEnds⟩ :=
    shortstatekey_run digest known loadedSession
  have keyedKept := loadedKept.trans rfl (prepared_kept loadedKept.sound loadedKept.filed prepared (.error exhausted))
  rw [appendStateEvent, run_bind_ok loaded]
  rcases keyedEnds with created | ended
  · obtain ⟨shortstatekey, rfl, isKey⟩ := created
    obtain ⟨positive, drawn⟩ := keyedKept.sound.keyed key shortstatekey isKey
    have small : shortstatekey < 2 ^ 64 := Nat.lt_of_le_of_lt drawn keyedKept.sound.counted
    have isEvent : keyedSession.tables.eventidShorteventid[eventId]? = some shorteventid := by
      rw [sameEvents]
      exact named
    have compressed : run (compressNewEvent shortstatekey eventId) keyedSession =
      (.ok (compressStateEvent shortstatekey shorteventid), keyedSession) := by
      rw [compressNewEvent, getOrCreateShorteventid, run_bind, run_bind_ok (run_get keyedSession), isEvent]
      rfl
    obtain ⟨outcome, after, ran, kept, names, saved, failed⟩ := append_new_event_run keyedKept.sound keyedKept.filed
      (stacked_kept keyedKept.keeps stacked) depth (previous_state_kept keyedKept.keeps isPrevious) positive small
    refine ⟨outcome, after, ?_, keyedKept.trans rfl kept, fun short same => ?_, fun error same => ?_⟩
    · rw [run_bind_ok keyedRun, run_bind_ok compressed]
      exact ran
    · rw [names.events, names.keys]
      refine ⟨isEvent, shortstatekey, isKey, fun state isState => ?_⟩
      rw [previous_state_unique isState isPrevious]
      exact saved short same
    · refine (failed error same).imp_right fun large modest => large ⟨?_, modest.2 _ isPrevious⟩
      refine modest_of_same_diffs (fun short value read => ?_) modest.1
      refine (keyedKept.adds short value read).resolve_right fun isOk => ?_
      cases isOk
  · obtain ⟨rfl, -⟩ := ended
    refine ⟨.error exhausted, keyedSession, run_bind_error keyedRun, keyedKept, fun short same => ?_, fun error same => ?_⟩
    · cases same
    · cases same
      exact .inl rfl

def filedBefore (session : StateSession) (shorteventid : Short) : Option Short → StateSession
  | some short => session.put (.shorteventidShortstatehash shorteventid short)
  | none => session

theorem filed_before_kept (sound : session.tables.Sound digest known)
    (filed : Filed session.tables session.stateinfoCache) (shorteventid : Short) (previous : Option Short) (outcome :
    Except SaveError Short) : Kept digest known session (filedBefore session shorteventid previous) outcome := by
  cases previous with
  | none => exact prepared_kept sound filed (prepared_nothing session) outcome
  | some short => exact prepared_kept sound filed (put_prepared (.shorteventidShortstatehash shorteventid short) trivial trivial) outcome

theorem filed_before_names : SameNames session.tables (filedBefore session shorteventid previous).tables := by
  cases previous <;> exact ⟨rfl, rfl⟩

variable {Content : Type}

theorem append_to_state_split (fuel : Nat) {newPdu : Pdu Content}
    (named : run (getOrCreateShorteventid newPdu.eventId) session = (.ok shorteventid, prepared)) :
    run (appendToState fuel newPdu) session = run (match newPdu.stateKey with
        | none => expectPrevious "first event in room must be a state event" prepared.tables.roomidShortstatehash[newPdu.roomId]?
        | some stateKey => appendStateEvent fuel prepared.tables.roomidShortstatehash[newPdu.roomId]? newPdu.eventId (newPdu.kind, stateKey))
      (filedBefore prepared shorteventid prepared.tables.roomidShortstatehash[newPdu.roomId]?) := by
  rw [appendToState, run_bind_ok named, run_bind_ok (run_get prepared)]
  cases prepared.tables.roomidShortstatehash[newPdu.roomId]? with
  | none => rfl
  | some short => rfl

theorem append_to_state_run (sound : session.tables.Sound digest known)
    (filed : Filed session.tables session.stateinfoCache) (enough : 4 ≤ fuel) (newPdu : Pdu Content) :
    ∃ outcome after, run (appendToState fuel newPdu) session = (outcome, after) ∧
    Kept digest known session after outcome ∧ (∀ short, outcome = .ok short →
        (newPdu.stateKey = none → session.tables.roomidShortstatehash[newPdu.roomId]? = some short) ∧
        ∀ stateKey, newPdu.stateKey = some stateKey →
        ∃ shorteventid shortstatekey, after.tables.eventidShorteventid[newPdu.eventId]? = some shorteventid ∧
          after.tables.statekeyShortstatekey[(newPdu.kind, stateKey)]? = some shortstatekey ∧
          ∀ state, PreviousState session.tables session.tables.roomidShortstatehash[newPdu.roomId]? state →
            Holds after.tables short (appended state shortstatekey (compressStateEvent shortstatekey shorteventid))) ∧
      ∀ error, outcome = .error error → error = exhausted ∨ error = .panic "first event in room must be a state event" ∨
      ¬ (Modest session.tables ∧
          ∀ state, PreviousState session.tables session.tables.roomidShortstatehash[newPdu.roomId]? state → state.size < mostEvents) := by
  obtain ⟨named, prepared, early, namedRun, isPrepared, _, ends⟩ := shorteventid_run digest known session newPdu.eventId
  have preparedKept := prepared_kept sound filed isPrepared (.error exhausted)
  rcases ends with created | ended
  · obtain ⟨shorteventid, rfl, isEvent⟩ := created
    let previous := session.tables.roomidShortstatehash[newPdu.roomId]?
    let before := filedBefore prepared shorteventid previous
    have beforeKept := preparedKept.trans rfl
      (filed_before_kept preparedKept.sound preparedKept.filed shorteventid previous (.error exhausted))
    have split := append_to_state_split fuel namedRun
    rw [preparedKept.rooms] at split
    cases isState : newPdu.stateKey with
    | none =>
      simp only [isState] at split
      cases isPrevious : session.tables.roomidShortstatehash[newPdu.roomId]? with
      | none =>
        rw [isPrevious] at split
        refine ⟨_, _, split, ?_, (fun short same => nomatch same), fun error same => .inr (.inl (Except.error.inj same).symm)⟩
        exact preparedKept.trans rfl (filed_before_kept preparedKept.sound preparedKept.filed shorteventid none _)
      | some short =>
        rw [isPrevious] at split
        refine ⟨_, _, split, ?_, fun other same => ?_, fun error same => nomatch same⟩
        · exact preparedKept.trans rfl (filed_before_kept preparedKept.sound preparedKept.filed shorteventid (some short) _)
        · cases same
          exact ⟨fun _ => rfl, fun stateKey absent => nomatch absent⟩
    | some stateKey =>
      simp only [isState] at split
      have held : ∀ short, previous = some short → ∃ state, Holds before.tables short state := by
        intro short isPrevious
        obtain ⟨state, holds⟩ := sound.rooms newPdu.roomId short isPrevious
        exact ⟨state, holds_kept beforeKept.keeps holds⟩
      have isEventBefore : before.tables.eventidShorteventid[newPdu.eventId]? = some shorteventid := by
        rw [filed_before_names.events]
        exact isEvent
      obtain ⟨outcome, after, ran, kept, saved, failed⟩ := append_state_event_run beforeKept.sound beforeKept.filed held enough isEventBefore
      refine ⟨outcome, after, split.trans ran, beforeKept.trans rfl kept, fun short same =>
        ⟨(fun absent => nomatch absent), fun other isKey => ?_⟩, fun error same => ?_⟩
      · cases isKey
        obtain ⟨eventRead, shortstatekey, keyRead, holds⟩ := saved short same
        exact ⟨shorteventid, shortstatekey, eventRead, keyRead, fun state isPrevious =>
          holds state (previous_state_kept beforeKept.keeps isPrevious)⟩
      · have back : KeepsDiffs before.tables session.tables :=
          fun short value read => (beforeKept.adds short value read).resolve_right fun isOk => nomatch isOk
        refine (failed error same).imp_right fun large => .inr fun modest =>
          large ⟨modest_of_same_diffs back modest.1, fun state isPrevious => ?_⟩
        exact modest.2 state (previous_state_kept back isPrevious)
  · obtain ⟨rfl, _⟩ := ended
    refine ⟨.error exhausted, prepared, ?_, preparedKept, (fun short same => nomatch same), fun error same => ?_⟩
    · rw [appendToState, run_bind_error namedRun]
    · cases same
      exact .inl rfl

end

variable {digest : Bytes → Bytes} {known : Set CompressedState} {tables : StateTables} {session after : StateSession}
  {state : CompressedState} {entries : List TableWrite} {outcome : Except SaveError Short}

theorem separated_injective {events others : List CompressedStateEvent}
    (same : (events.flatMap fun event => 255 :: event.bytes) = others.flatMap fun event => 255 :: event.bytes) :
    events = others := by
  induction events generalizing others with
  | nil =>
    cases others with
    | nil => rfl
    | cons other rest => cases same
  | cons event events ih =>
    cases others with
    | nil => cases same
    | cons other rest =>
      obtain ⟨first, later⟩ := List.append_inj same (by rw [List.length_cons, List.length_cons, event.size, other.size])
      have isOther : event = other := by
        cases event
        cases other
        cases first
        rfl
      rw [isOther, ih later]

theorem delimited_injective {events others : List CompressedStateEvent}
    (same : delimited (events.map CompressedStateEvent.bytes) = delimited (others.map CompressedStateEvent.bytes)) :
    events = others := by
  cases events with
  | nil =>
    cases others with
    | nil => rfl
    | cons other rest =>
      have length := congrArg List.length same
      simp [delimited, other.size] at length
      omega
  | cons event events =>
    cases others with
    | nil =>
      have length := congrArg List.length same
      simp [delimited, event.size] at length
    | cons other rest =>
      apply separated_injective
      rw [List.map_cons, List.map_cons, delimited, delimited, List.flatMap_map, List.flatMap_map] at same
      rw [List.flatMap_cons, List.flatMap_cons, List.cons_append, List.cons_append, same]

def hashedBytes (state : CompressedState) : Bytes := delimited (state.toList.map CompressedStateEvent.bytes)

def CollisionFree (digest : Bytes → Bytes) (known : Set CompressedState) : Prop :=
  Set.InjOn digest (Set.image hashedBytes known)

theorem calculate_hash_injective (collisionFree : CollisionFree digest known) (isKnown : state ∈ known)
    (otherKnown : other ∈ known) (same : calculateHash digest state = calculateHash digest other) : state = other := by
  have bytes : hashedBytes state = hashedBytes other :=
    collisionFree (Set.mem_image_of_mem _ isKnown) (Set.mem_image_of_mem _ otherKnown) same
  have listed := delimited_injective bytes
  refine ext_mem fun event => ?_
  rw [← mem_toList, listed, mem_toList]

theorem hashed_holds (collisionFree : CollisionFree digest known) (isKnown : state ∈ known)
    (sound : tables.Sound digest known)
    (found : tables.statehashShortstatehash[calculateHash digest state]? = some short) : Holds tables short state := by
  obtain ⟨other, otherKnown, same, holds⟩ := sound.hashed _ short found
  rw [calculate_hash_injective collisionFree isKnown otherKnown same]
  exact holds

theorem saved_tables (isKnown : state ∈ known) (sound : tables.Sound digest known) (room : tables.count + 1 < 2 ^ 64)
    (holds : Holds (tables.after [.count (tables.count + 1), .shortstatehashStatediff (tables.count + 1) value]) (tables.count + 1) state) :
    let saved := tables.after [.count (tables.count + 1), .statehashShortstatehash (calculateHash digest state) (tables.count + 1),
      .shortstatehashStatediff (tables.count + 1) value]
    saved.Sound digest known ∧ KeepsDiffs tables saved ∧ Holds saved (tables.count + 1) state := by
  intro saved
  let written := tables.after [.count (tables.count + 1), .shortstatehashStatediff (tables.count + 1) value]
  have allowed : AllowedAll digest known tables [.count (tables.count + 1), .shortstatehashStatediff (tables.count + 1) value] :=
    ⟨⟨Nat.le_succ _, room⟩, ⟨count_fresh sound, le_rfl, state, holds⟩, trivial⟩
  obtain ⟨writtenSound, keeps⟩ := after_sound sound allowed
  have hashAllowed : Allowed digest known written
    (.statehashShortstatehash (calculateHash digest state) (tables.count + 1)) := ⟨state, isKnown, rfl, holds⟩
  exact ⟨apply_sound writtenSound hashAllowed, keeps, holds_kept (allowed_keeps_diffs hashAllowed) holds⟩

theorem save_ends_kept (collisionFree : CollisionFree digest known) (isKnown : state ∈ known)
    (sound : tables.Sound digest known) (modest : Modest tables) (small : state.size ≤ mostEvents)
    (ends : SaveEnds digest tables state entries outcome) :
    (tables.after entries).Sound digest known ∧ KeepsDiffs tables (tables.after entries) ∧
    (tables.after entries).roomidShortstatehash = tables.roomidShortstatehash ∧
      (∀ (short : Short) (value : Bytes), (tables.after entries).shortstatehashStatediff[short]? = some value →
        tables.shortstatehashStatediff[short]? = some value ∨ outcome = .ok short) ∧
      (∀ short, outcome = .ok short → Holds (tables.after entries) short state) ∧ ∀ error, outcome = .error error → error = exhausted := by
  have nothing : KeepsDiffs tables tables := fun _ _ read => read
  cases ends with
  | existed short found =>
    refine ⟨sound, nothing, rfl, fun _ _ read => .inl read, fun other same => ?_, fun error failed => nomatch failed⟩
    cases same
    exact hashed_holds collisionFree isKnown sound found
  | exhausted full =>
    exact ⟨sound, nothing, rfl, fun _ _ read => .inl read, (fun short same => nomatch same), fun error failed =>
      (Except.error.inj failed).symm⟩
  | overflowed error absent large room => exact absurd ⟨modest, small⟩ large
  | saved value absent room holds =>
    obtain ⟨savedSound, keeps, savedHolds⟩ := saved_tables isKnown sound room holds
    refine ⟨savedSound, keeps, rfl, fun short other read => ?_, fun short same => ?_, fun error failed => nomatch failed⟩
    · rcases read_inserted read with written | before
      · exact .inr (written.1 ▸ rfl)
      · exact .inl before
    · cases same
      exact savedHolds

theorem filing_allowed (filing : ∀ entry ∈ entries, ∃ shorteventid short,
    entry = .shorteventidShortstatehash shorteventid short) :
    AllowedAll digest known tables entries ∧ ∀ entry ∈ entries, Minor entry := by
  induction entries generalizing tables with
  | nil => exact ⟨trivial, fun entry member => nomatch member⟩
  | cons entry entries ih =>
    obtain ⟨shorteventid, short, rfl⟩ := filing entry List.mem_cons_self
    have rest : ∀ tables, AllowedAll digest known tables entries ∧ ∀ entry ∈ entries, Minor entry :=
      fun tables => ih fun other member => filing other (List.mem_cons_of_mem _ member)
    refine ⟨⟨trivial, (rest _).1⟩, fun other member => ?_⟩
    rcases List.mem_cons.mp member with rfl | later
    · trivial
    · exact (rest tables).2 other later

theorem save_ran_kept (collisionFree : CollisionFree digest known) (isKnown : state ∈ known)
    (sound : session.tables.Sound digest known) (filed : Filed session.tables session.stateinfoCache)
    (modest : Modest session.tables) (small : state.size ≤ mostEvents)
    (ran : SaveRan digest known session prepared after state outcome) :
    Kept digest known session after outcome ∧ (∀ short, outcome = .ok short → Holds after.tables short state) ∧
    ∀ error, outcome = .error error → error = exhausted := by
  obtain ⟨early, core, late, isPrepared, wrote, filedAfter, ends, filing, _⟩ := ran
  have preparedKept := prepared_kept sound filed isPrepared (.error exhausted)
  have back : KeepsDiffs prepared.tables session.tables :=
    fun short value read => (preparedKept.adds short value read).resolve_right fun isOk => nomatch isOk
  obtain ⟨coreSound, coreKeeps, coreRooms, coreAdds, saved, failed⟩ :=
    save_ends_kept collisionFree isKnown preparedKept.sound (modest_of_same_diffs back modest) small ends
  obtain ⟨lateAllowed, lateMinor⟩ : AllowedAll digest known (prepared.tables.after core) late ∧ _ :=
    filing_allowed filing
  obtain ⟨lateSound, lateKeeps⟩ := after_sound coreSound lateAllowed
  have same : SameStates (prepared.tables.after core) _ := minor_same_states lateMinor
  have tables : after.tables = (prepared.tables.after core).after late := by
    rw [wrote.tables]
    exact List.foldl_append ..
  have lateKept : Kept digest known prepared after outcome := by
    refine ⟨?_, filedAfter, ?_, ?_, ?_⟩
    · rw [tables]
      exact lateSound
    · rw [tables]
      exact fun short value read => lateKeeps short value (coreKeeps short value read)
    · rw [tables]
      exact same.rooms.trans coreRooms
    · rw [tables, same.diffs]
      exact coreAdds
  refine ⟨preparedKept.trans rfl lateKept, fun short isOk => ?_, failed⟩
  rw [tables]
  exact holds_kept lateKeeps (saved short isOk)

end GaussMatrix.Rooms.Compressor

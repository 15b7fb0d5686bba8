import GaussMatrix.Rooms.StateHistory

namespace GaussMatrix.Rooms.Compressor

open BigEndian Collections Diffs Handlers List Option Runs Std.ExtTreeMap
open Database (Bytes)
open StateRes (EventId StateKey)

section

variable {Content : Type} (digest : Bytes → Bytes) (fuel : Nat)

def History.writesOf (history : History) (act : StateAct Content) : List TableWrite :=
  (perform digest fuel history.session act).2.log.drop history.session.log.length

def History.restart (history : History) (act : StateAct Content) (writes : Nat) : History :=
  ⟨⟨history.session.tables.after ((history.writesOf digest fuel act).take writes), ∅, []⟩, history.saved,
    history.failed⟩

inductive ServerAct (Content : Type) where
  | done (act : StateAct Content)
  | stop (act : StateAct Content) (writes : Nat)

def ServerAct.hashedState : ServerAct Content → Option CompressedState
  | .done act => act.hashedState
  | .stop act _ => act.hashedState

def History.serve (history : History) : ServerAct Content → Option History
  | .done act => history.step digest fuel act
  | .stop act writes => if act.hashedState.isSome then some (history.restart digest fuel act writes) else none

def eventNumbers (tables : StateTables) : StateAct Content → Nat
  | .setEventState eventId _ _ => if tables.eventidShorteventid[eventId]?.isSome then 0 else 1
  | _ => 0

def CleanStop (tables : StateTables) (act : StateAct Content) (writes : Nat) : Prop :=
  (∃ state, act.hashedState = some state ∧ tables.statehashShortstatehash[calculateHash digest state]?.isSome) ∨
    2 ^ 64 ≤ tables.count + eventNumbers tables act + 1 ∨ writes ≠ 3 * eventNumbers tables act + 2

def CleanServe (history : History) : ServerAct Content → Prop
  | .done act => SmallSave history act
  | .stop act writes => SmallSave history act ∧ CleanStop digest history.session.tables act writes

end

variable {Content : Type} {digest : Bytes → Bytes} {known : Set CompressedState} {fuel : Nat} {history : History}
  {session : StateSession} {state : CompressedState} {act : StateAct Content}

def preparedBy (session : StateSession) : StateAct Content → StateSession
  | .setEventState eventId _ _ => (run (getOrCreateShorteventid eventId) session).2
  | _ => session

theorem prepared_counts (session : StateSession) (act : StateAct Content) :
    (preparedBy session act).tables.count = session.tables.count + eventNumbers session.tables act ∧
        (preparedBy session act).log.length = session.log.length + 3 * eventNumbers session.tables act ∨
      2 ^ 64 ≤ session.tables.count + 1 ∧ (preparedBy session act).tables.count = session.tables.count := by
  cases act with
  | setEventState eventId roomId state =>
    rw [preparedBy, eventNumbers, getOrCreateShorteventid, run_bind_ok (run_get session)]
    cases found : session.tables.eventidShorteventid[eventId]? with
    | some short => exact .inl ⟨rfl, rfl⟩
    | none =>
      simp only [createShort]
      rcases next_count_run with drawn | ended
      · rw [run_bind_ok drawn.2]
        refine .inl ⟨rfl, ?_⟩
        change (((session.log ++ [_]) ++ [_]) ++ [_]).length = session.log.length + 3
        simp
      · rw [run_bind_error ended.2]
        exact .inr ⟨ended.1, rfl⟩
  | _ => exact .inl ⟨rfl, rfl⟩

theorem save_ran (faithful : history.Faithful digest known) (enough : 4 ≤ fuel) (saves : act.hashedState = some state) :
    ∃ outcome after, perform digest fuel history.session act = (outcome, after) ∧
    SaveRan digest known history.session (preparedBy history.session act) after state outcome := by
  cases act with
  | saveState roomId proper =>
    cases saves
    obtain ⟨outcome, after, ran, saved⟩ := save_state_run faithful.sound faithful.filed proper.proper enough
    refine ⟨_, after, ?_, saved⟩
    rw [perform, ran]
  | setEventState eventId roomId proper =>
    cases saves
    exact set_event_state_run faithful.sound faithful.filed proper.proper enough
  | appendToState | setRoomState | load | forget | drawCount => cases saves

variable {tables : StateTables} {after : StateSession} {entries : List TableWrite}
  {outcome : Except SaveError Short} {writes : Nat}

theorem wrote_writes (wrote : Wrote session after entries) : after.log.drop session.log.length = entries := by
  rw [wrote.log, drop_left]

theorem wrote_then (wrote : Wrote session after entries) (later : List TableWrite) :
    session.tables.after (entries ++ later) = after.tables.after later := by
  rw [wrote.tables]
  exact foldl_append ..

theorem empty_filed : Filed tables ∅ := by
  intro short stack read
  cases read

theorem modest_of_same_states {other : StateTables} (same : SameStates tables other) (modest : Modest tables) :
    Modest other := by
  refine modest_of_same_diffs (fun short value read => ?_) modest
  rw [same.diffs] at read
  exact read

theorem forgets_faithful (faithful : history.Faithful digest known)
    (kept : Kept digest known history.session after outcome) (modest : Modest after.tables) :
    History.Faithful digest known ⟨⟨after.tables, ∅, []⟩, history.saved, history.failed⟩ where
  sound := kept.sound
  filed := empty_filed
  modest := modest
  saved := fun short state member => holds_kept kept.keeps (faithful.saved short state member)
  failed := faithful.failed
  rooms := by
    intro roomId short read
    rw [kept.rooms] at read
    exact faithful.rooms roomId short read

theorem allowed_all_take (allowed : AllowedAll digest known tables entries) :
    AllowedAll digest known tables (entries.take writes) := by
  rw [← take_append_drop writes entries] at allowed
  exact (allowed_all_append.mp allowed).1

theorem minor_stop_faithful (faithful : history.Faithful digest known)
    (allowed : AllowedAll digest known history.session.tables entries) (minor : ∀ entry ∈ entries, Minor entry) :
    History.Faithful digest known ⟨⟨history.session.tables.after entries, ∅, []⟩, history.saved, history.failed⟩ := by
  let stopped : StateSession :=
    ⟨history.session.tables.after entries, history.session.stateinfoCache, history.session.log ++ entries⟩
  have prepared : Prepared digest known history.session stopped entries := ⟨⟨rfl, rfl⟩, rfl, allowed, minor⟩
  have performed := plain_performed faithful (prepared_kept faithful.sound faithful.filed prepared _) (.error exhausted)
  exact forgets_faithful faithful performed.kept performed.modest

theorem late_stop_faithful (collisionFree : CollisionFree digest known) (faithful : history.Faithful digest known)
    (isKnown : state ∈ known)
    (small : state.size ≤ mostEvents) {prepared : StateSession} {early core late : List TableWrite}
    (isPrepared : Prepared digest known history.session prepared early) (ends : SaveEnds digest prepared.tables state core outcome)
    (filing : ∀ entry ∈ late, ∃ shorteventid short, entry = .shorteventidShortstatehash shorteventid short) (whole : outcome.isOk = false → late = []) :
    History.Faithful digest known ⟨⟨history.session.tables.after (early ++ (core ++ late)), ∅, []⟩, history.saved, history.failed⟩ := by
  let stopped : StateSession := ⟨prepared.tables.after (core ++ late), ∅, prepared.log ++ (core ++ late)⟩
  have filed : Filed stopped.tables stopped.stateinfoCache := empty_filed
  have ran : SaveRan digest known history.session prepared stopped state outcome :=
    ⟨early, core, late, isPrepared, ⟨rfl, rfl⟩, filed, ends, filing, whole⟩
  have performed := save_performed collisionFree faithful isKnown small ran
  rw [wrote_then isPrepared.toWrote]
  exact forgets_faithful faithful performed.kept performed.modest

theorem clean_stop_elsewhere {prepared : List TableWrite}
    (isPrepared : Prepared digest known session (preparedBy session act) prepared)
    (saves : act.hashedState = some state) (clean : CleanStop digest session.tables act writes)
    (absent : (preparedBy session act).tables.statehashShortstatehash[calculateHash digest state]? = none)
    (room : (preparedBy session act).tables.count + 1 < 2 ^ 64) : writes ≠ prepared.length + 2 := by
  have length := congrArg List.length isPrepared.log
  rw [length_append] at length
  rw [isPrepared.states.hashes] at absent
  have counts := prepared_counts session act
  rcases clean with found | full | elsewhere
  · obtain ⟨other, isOther, found⟩ := found
    obtain rfl := some.inj (saves.symm.trans isOther)
    rw [absent] at found
    cases found
  · omega
  · omega

theorem stop_faithful (collisionFree : CollisionFree digest known) (enough : 4 ≤ fuel)
    (faithful : history.Faithful digest known)
    (saves : act.hashedState = some state) (isKnown : state ∈ known) (small : state.size ≤ mostEvents)
    (clean : CleanStop digest history.session.tables act writes) :
    (history.restart digest fuel act writes).Faithful digest known := by
  obtain ⟨outcome, after, performed, early, core, late, prepared, wrote, _, ends, filing, whole⟩ :=
    save_ran faithful enough saves
  have all := prepared.toWrote.trans wrote
  rw [History.restart, History.writesOf, performed, wrote_writes all]
  by_cases first : writes ≤ early.length
  · rw [take_append_of_le_length first]
    exact minor_stop_faithful faithful (allowed_all_take prepared.allowed) fun entry member => prepared.minor entry (mem_of_mem_take member)
  · by_cases past : early.length + core.length ≤ writes
    · rw [take_append, take_of_length_le (by omega), take_append, take_of_length_le (by omega)]
      refine late_stop_faithful collisionFree faithful isKnown small prepared ends
        (fun entry member => filing entry (mem_of_mem_take member)) fun failed => ?_
      rw [whole failed, List.take_nil]
    · cases ends with
      | existed | exhausted => exact absurd (Nat.le_of_not_le first) past
      | overflowed error absent large room =>
        exact absurd ⟨modest_of_same_states prepared.states faithful.modest, small⟩ large
      | saved value absent room holds =>
        have elsewhere := clean_stop_elsewhere prepared saves clean absent room
        rw [length_cons, length_cons, length_singleton] at past
        obtain rfl : writes = early.length + 1 := by omega
        rw [take_length_add_append]
        have counted := prepared.trans (put_prepared _ (count_allowed room) trivial)
        exact minor_stop_faithful faithful counted.allowed counted.minor

theorem hashed_only_lost (sound : session.tables.Sound digest known) (enough : 4 ≤ fuel) (roomId : String) (proper : ProperState) :
    let hashed := session.tables.after
      [.count (session.tables.count + 1), .statehashShortstatehash (calculateHash digest proper.events) (session.tables.count + 1)]
    ∃ short after error, perform digest fuel ⟨hashed, ∅, []⟩ (.saveState roomId proper : StateAct Content) = (.ok short, after) ∧
      run (loadShortstatehashInfo fuel short) after = (.error error, after) := by
  intro hashed
  let stopped : StateSession := ⟨hashed, ∅, []⟩
  have filed : Filed stopped.tables stopped.stateinfoCache := empty_filed
  have keeps : KeepsDiffs session.tables hashed := fun _ _ read => read
  have held : ∀ short, stopped.tables.roomidShortstatehash[roomId]? = some short → ∃ state, Holds stopped.tables short state := by
    intro short read
    obtain ⟨state, holds⟩ := sound.rooms roomId short read
    exact ⟨state, holds_kept keeps holds⟩
  have found : stopped.tables.statehashShortstatehash[calculateHash digest proper.events]? = some (session.tables.count + 1) := getElem?_insert_self
  have absent : stopped.tables.shortstatehashStatediff[session.tables.count + 1]? = none := count_fresh sound
  obtain ⟨result, cache, ran, isShort, filedAfter⟩ := save_state_found filed held found enough
  obtain ⟨more, rfl⟩ := Nat.exists_eq_succ_of_ne_zero (Nat.ne_zero_of_lt enough)
  let loaded : StateSession := { stopped with stateinfoCache := cache }
  have absentAfter : loaded.tables.shortstatehashStatediff[session.tables.count + 1]? = none := absent
  refine ⟨session.tables.count + 1, loaded, _, ?_, load_absent filedAfter absentAfter⟩
  rw [perform, ran, ← isShort]
  rfl

theorem unclean_stop_lost (enough : 4 ≤ fuel) (faithful : history.Faithful digest known) {proper : ProperState}
    (saves : act.hashedState = some proper.events) (small : proper.events.size ≤ mostEvents)
    (unclean : ¬ CleanStop digest history.session.tables act writes) {roomId : String} :
    ∃ short after error, perform digest fuel (history.restart digest fuel act writes).session
    (.saveState roomId proper : StateAct Content) = (.ok short, after) ∧
      run (loadShortstatehashInfo fuel short) after = (.error error, after) := by
  obtain ⟨outcome, after, performed, early, core, late, prepared, wrote, _, ends, _⟩ := save_ran faithful enough saves
  obtain ⟨notFound, notFull, here⟩ := not_or.mp unclean |>.imp_right not_or.mp
  have length := congrArg List.length prepared.log
  rw [length_append] at length
  have counts := prepared_counts history.session act
  have same := prepared.states
  rw [History.restart, History.writesOf, performed, wrote_writes (prepared.toWrote.trans wrote)]
  cases ends with
  | existed short found =>
    rw [same.hashes] at found
    exact absurd ⟨proper.events, saves, isSome_of_eq_some found⟩ notFound
  | exhausted full => omega
  | overflowed error absent large room => exact absurd ⟨modest_of_same_states same faithful.modest, small⟩ large
  | saved value absent room holds =>
    obtain rfl : writes = early.length + 2 := by omega
    rw [take_length_add_append, wrote_then prepared.toWrote]
    exact hashed_only_lost (prepared.sound faithful.sound faithful.filed).1 enough roomId proper

theorem small_hashed (small : SmallSave history act) (saves : act.hashedState = some state) :
    state.size ≤ mostEvents := by
  cases act with
  | saveState | setEventState =>
    cases saves
    exact small
  | appendToState | setRoomState | load | forget | drawCount => cases saves

theorem hashed_proper (saves : act.hashedState = some state) : ∃ proper : ProperState, proper.events = state := by
  cases act with
  | saveState roomId proper => exact ⟨proper, some.inj saves⟩
  | setEventState eventId roomId proper => exact ⟨proper, some.inj saves⟩
  | appendToState | setRoomState | load | forget | drawCount => cases saves

theorem serve_faithful (collisionFree : CollisionFree digest known) (enough : 4 ≤ fuel) {next : History}
    {act : ServerAct Content} (faithful : history.Faithful digest known) (clean : CleanServe digest history act)
    (isKnown : ∀ state, act.hashedState = some state → state ∈ known)
    (served : history.serve digest fuel act = some next) : next.Faithful digest known := by
  cases act with
  | done act => exact step_faithful collisionFree enough faithful clean isKnown served
  | stop act writes =>
    obtain ⟨small, clean⟩ := clean
    rw [History.serve] at served
    cases saves : act.hashedState with
    | none =>
      rw [saves] at served
      cases served
    | some state =>
      rw [saves] at served
      cases served
      exact stop_faithful collisionFree enough faithful saves (isKnown state saves) (small_hashed small saves) clean

theorem serve_run_faithful (collisionFree : CollisionFree digest known) (enough : 4 ≤ fuel) {last : History}
    {acts : List (ServerAct Content)} (isKnown : ∀ act ∈ acts, ∀ state, act.hashedState = some state → state ∈ known)
    (faithful : history.Faithful digest known) (clean : AllMeet (History.serve digest fuel)
    (CleanServe digest) history acts) (ran : runs (History.serve digest fuel) history acts = some last) :
    last.Faithful digest known := by
  refine runs_meeting_invariant ?_ faithful (all_meet_members clean isKnown) ran
  intro before act next faithful met served
  exact serve_faithful collisionFree enough faithful met.1 met.2 served

def SavesAgain (digest : Bytes → Bytes) (fuel : Nat) (session : StateSession) (again : StateAct Content)
    (state : CompressedState) : Prop :=
  (perform digest fuel session again).1 = .error exhausted ∨
    ∃ short after info below loaded, perform digest fuel session again = (.ok short, after) ∧
    run (loadShortstatehashInfo fuel short) after = (.ok (info :: below), loaded) ∧ info.fullState = state

theorem faithful_saves_again (collisionFree : CollisionFree digest known) (enough : 4 ≤ fuel)
    (faithful : history.Faithful digest known)
    (saves : act.hashedState = some state) (isKnown : state ∈ known) (small : state.size ≤ mostEvents) :
    SavesAgain digest fuel history.session act state := by
  obtain ⟨outcome, after, performed, ran⟩ := save_ran faithful enough saves
  obtain ⟨kept, holds, failed⟩ :=
    save_ran_kept collisionFree isKnown faithful.sound faithful.filed faithful.modest small ran
  cases outcome with
  | error error =>
    refine .inl ?_
    rw [performed, failed error rfl]
  | ok short =>
    obtain ⟨stack, found, top⟩ := holds short rfl
    obtain ⟨cache, loaded, _⟩ := load_stack kept.filed found (found.depth.trans enough)
    cases stack with
    | nil => cases found.top
    | cons info below => exact .inr ⟨short, after, info, below, _, performed, loaded, top⟩

def topicState : ProperState :=
  ⟨appended createState.events 2 (compressStateEvent 2 2), appended_proper createState.proper (by decide) (by decide)⟩

variable {Content : Type} {digest : Bytes → Bytes} {known : Set CompressedState} {fuel : Nat} {history : History}

theorem stopped_save_repeats_iff (collisionFree : CollisionFree digest known) (enough : 4 ≤ fuel)
    {earlier : List (ServerAct Content)}
    (earlierKnown : ∀ act ∈ earlier, ∀ state, act.hashedState = some state → state ∈ known)
    (earlierClean : AllMeet (History.serve digest fuel) (CleanServe digest) History.start earlier)
    (ran : runs (History.serve digest fuel) History.start earlier = some history) {act : StateAct Content}
    {state : CompressedState}
    (saves : act.hashedState = some state) (isKnown : state ∈ known) (small : state.size ≤ mostEvents) (writes : Nat) :
    (∀ (later : List (ServerAct Content)) (next : History) (again : StateAct Content),
    (∀ act ∈ later, ∀ state, act.hashedState = some state → state ∈ known) →
      AllMeet (History.serve digest fuel) (CleanServe digest) (history.restart digest fuel act writes) later →
      runs (History.serve digest fuel) (history.restart digest fuel act writes) later = some next →
      again.hashedState = some state → SavesAgain digest fuel next.session again state) ↔
    CleanStop digest history.session.tables act writes := by
  have faithful := serve_run_faithful collisionFree enough earlierKnown start_faithful earlierClean ran
  constructor
  · intro repeats
    by_contra unclean
    obtain ⟨proper, rfl⟩ := hashed_proper saves
    obtain ⟨short, after, error, performed, lost⟩ := unclean_stop_lost enough faithful saves small unclean
    rcases repeats [] _ (.saveState "" proper) (fun _ member => absurd member not_mem_nil) trivial rfl rfl with failed | returned
    · rw [performed] at failed
      cases failed
    · obtain ⟨_, _, info, below, loaded, again, isLoaded, _⟩ := returned
      cases performed.symm.trans again
      cases lost.symm.trans isLoaded
  · intro clean later next again laterKnown laterClean laterRan savesAgain
    have restarted := stop_faithful collisionFree enough faithful saves isKnown small clean
    have nextFaithful := serve_run_faithful collisionFree enough laterKnown restarted laterClean laterRan
    exact faithful_saves_again collisionFree enough nextFaithful savesAgain isKnown small

theorem numbered_stop_repeats : ∃ history, runs (History.serve id 4) History.start
      ([.done (.saveState "!room" createState), .done (.setRoomState "!room" 1)] : List (ServerAct Unit)) = some history ∧
    CleanStop id history.session.tables (.setEventState "$message" "!room" topicState : StateAct Unit) 4 ∧
    SavesAgain id 4 (history.restart id 4 (.setEventState "$message" "!room" topicState : StateAct Unit) 4).session
      (.saveState "!room" topicState : StateAct Unit) topicState.events := by
  have collisionFree : CollisionFree id Set.univ := Set.injOn_id _
  have isKnown : ∀ acts : List (ServerAct Unit), ∀ act ∈ acts, ∀ state, act.hashedState = some state →
    state ∈ Set.univ :=
    fun _ _ _ state _ => Set.mem_univ state
  have clean : ∀ tables, CleanStop id tables (.setEventState "$message" "!room" topicState : StateAct Unit) 4 := by
    intro tables
    refine Or.inr (Or.inr ?_)
    rw [eventNumbers]
    split <;> decide
  have small : AllMeet (History.serve id 4) (CleanServe id) History.start
    ([.done (.saveState "!room" createState), .done (.setRoomState "!room" 1)] : List (ServerAct Unit)) :=
    ⟨show createState.events.size ≤ mostEvents by decide +kernel, fun _ _ => ⟨trivial, fun _ _ => trivial⟩⟩
  obtain ⟨history, ran⟩ : ∃ history, runs (History.serve id 4) History.start
      ([.done (.saveState "!room" createState), .done (.setRoomState "!room" 1)] : List (ServerAct Unit)) = some history := ⟨_, rfl⟩
  refine ⟨history, ran, clean _, ?_⟩
  exact (stopped_save_repeats_iff collisionFree (by decide) (isKnown _) small ran rfl (Set.mem_univ _)
    (by decide +kernel) 4).mpr (clean _) [] _ _ (isKnown []) trivial rfl rfl

theorem hash_without_difference_served :
    ∃ after error, perform id 4 (History.start.restart id 4 (.saveState "!room" createState : StateAct Unit) 2).session
        (.saveState "!room" createState : StateAct Unit) = (.ok 1, after) ∧
      (run (loadShortstatehashInfo 4 1) after).1 = .error error := by
  exact ⟨_, _, rfl, rfl⟩

end GaussMatrix.Rooms.Compressor

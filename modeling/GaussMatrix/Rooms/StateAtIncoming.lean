import GaussMatrix.Library.Outcome
import GaussMatrix.Rooms.Pdu

namespace GaussMatrix.Rooms

open Collections List Outcome StateRes Std

abbrev ShortState := BTreeMap Nat EventId

-- What the handler reads of the stored events and states. The short ids of slots
-- are created on demand, so every slot has one.
structure StateStore (Content Hash : Type) where
  pduShortstatehash : EventId → Except Error Hash
  getPdu : EventId → Except Error (Pdu Content)
  stateFullIds : Hash → List (Nat × EventId)
  shortstatekey : StateKey → Nat
  statekeyFromShort : Nat → Option StateKey
  authChain : List EventId → Except Error (BTreeSet EventId)

section

variable {Content Hash : Type}

section

variable (db : StateStore Content Hash)

def leafOf (prevEvent : Pdu Content) : List (Nat × EventId) :=
  match prevEvent.stateKey with
  | none => []
  | some stateKey => [(db.shortstatekey (prevEvent.kind, stateKey), prevEvent.eventId)]

def stateAtIncomingDegreeOne (prevEventId : EventId) : Except Error (Option ShortState) :=
  match db.pduShortstatehash prevEventId with
  | .error _ => .ok none
  | .ok sstatehash =>
    match db.getPdu prevEventId with
    | .error e => .error ⟨.database, "Could not find prev_event, but we know the state: " ++ e.message⟩
    | .ok prevEvent => .ok (some (extend (extend ∅ (db.stateFullIds sstatehash)) (leafOf db prevEvent)))

def slotRows (rows : List (Nat × EventId)) : List (StateKey × EventId) :=
  rows.filterMap fun row => (db.statekeyFromShort row.1).map fun slot => (slot, row.2)

def stateAtIncomingFork (sstatehash : Hash) (prevEvent : Pdu Content) (completed : List (Nat × EventId)) :
    Except Error (StateMap × BTreeSet EventId) :=
  match db.authChain ((db.stateFullIds sstatehash ++ leafOf db prevEvent).map Prod.snd) with
  | .error e => .error e
  | .ok authChain =>
    .ok (extend ∅ (slotRows db completed), authChain)

end

-- The orders the runtime chooses: of the prev-event lookups, of the hash map's
-- rows and of the lookups inside each fork.
structure Schedule (Content Hash : Type) [Ord Hash] where
  arrived : List EventId
  rows : BTreeMap Hash (Pdu Content) → List (Hash × Pdu Content)
  completed : Hash → Pdu Content → List (Nat × EventId)

variable [Ord Hash] [TransOrd Hash]

structure Schedule.Valid (schedule : Schedule Content Hash) (db : StateStore Content Hash)
    (prevEvents : List EventId) : Prop where
  arrived : schedule.arrived.Perm prevEvents
  rows : ∀ hashes, (schedule.rows hashes).Perm hashes.toList
  completed : ∀ sstatehash prevEvent, (schedule.completed sstatehash prevEvent).Perm
    (db.stateFullIds sstatehash ++ leafOf db prevEvent)

variable (db : StateStore Content Hash)

def extremityRow (prevEventId : EventId) : Except Error (Hash × Pdu Content) :=
  match db.pduShortstatehash prevEventId with
  | .error e => .error e
  | .ok sstatehash =>
    match db.getPdu prevEventId with
    | .error e => .error e
    | .ok prevEvent => .ok (sstatehash, prevEvent)

def forksAtIncoming (schedule : Schedule Content Hash) : Option (Except Error (List (StateMap × BTreeSet EventId))) :=
  match schedule.arrived.mapM (extremityRow db) with
  | .error _ => none
  | .ok extremities =>
    some ((schedule.rows (extend ∅ extremities)).mapM fun row =>
      stateAtIncomingFork db row.1 row.2 (schedule.completed row.1 row.2))

def stateAtIncomingResolved (stateResolution : List StateMap → List (BTreeSet EventId) → Except Error StateMap)
    (schedule : Schedule Content Hash) : Except Error (Option ShortState) :=
  match forksAtIncoming db schedule with
  | none => .ok none
  | some (.error e) => .error e
  | some (.ok forks) =>
    match stateResolution (forks.map Prod.fst) (forks.map Prod.snd) with
    | .error _ => .ok none
    | .ok newState => .ok (some (extend ∅ (newState.toList.map fun entry => (db.shortstatekey entry.1, entry.2))))

end

variable {rows completed : List (Nat × EventId)} {slot : StateKey} {id : EventId}

section

variable {Content Hash : Type} (db : StateStore Content Hash)

def stateBefore (sstatehash : Hash) : StateMap := extend ∅ (slotRows db (db.stateFullIds sstatehash))

def stateAfter (sstatehash : Hash) (prevEvent : Pdu Content) : StateMap :=
  match prevEvent.stateKey with
  | none => stateBefore db sstatehash
  | some stateKey => (stateBefore db sstatehash).insert (prevEvent.kind, stateKey) prevEvent.eventId

def Replaces (sstatehash : Hash) (prevEvent : Pdu Content) : Prop :=
  ∃ stateKey old, prevEvent.stateKey = some stateKey ∧
    (stateBefore db sstatehash)[(prevEvent.kind, stateKey)]? = some old ∧ old ≠ prevEvent.eventId

structure ShortKeys : Prop where
  unique : ∀ short slot, db.statekeyFromShort short = some slot → short = db.shortstatekey slot
  distinct : ∀ sstatehash, ((db.stateFullIds sstatehash).map Prod.fst).Nodup

def OwnSlotKnown (prevEvent : Pdu Content) : Prop := ∀ stateKey, prevEvent.stateKey = some stateKey →
    db.statekeyFromShort (db.shortstatekey (prevEvent.kind, stateKey)) = some (prevEvent.kind, stateKey)

variable {db}

theorem slot_row : (slot, id) ∈ slotRows db rows ↔ ∃ short, (short, id) ∈ rows ∧
    db.statekeyFromShort short = some slot := by
  simp only [slotRows, mem_filterMap, Option.map_eq_some_iff]
  constructor
  · intro found
    obtain ⟨row, member, other, known, same⟩ := found
    cases same
    exact ⟨row.1, member, known⟩
  · intro found
    obtain ⟨short, member, known⟩ := found
    exact ⟨(short, id), member, slot, known, rfl⟩

theorem slot_rows_append (rows more : List (Nat × EventId)) :
    slotRows db (rows ++ more) = slotRows db rows ++ slotRows db more := List.filterMap_append

theorem slot_rows_perm {more : List (Nat × EventId)} (perm : rows.Perm more) :
    (slotRows db rows).Perm (slotRows db more) := perm.filterMap _

theorem slot_rows_read (read : (extend ∅ (slotRows db rows))[slot]? = some id) : (slot, id) ∈ slotRows db rows :=
  (extend_source read).resolve_right (by simp)

theorem state_before_read (keys : ShortKeys db) {sstatehash : Hash} :
    (stateBefore db sstatehash)[slot]? = some id ↔ (slot, id) ∈ slotRows db (db.stateFullIds sstatehash) := by
  constructor
  · intro read
    exact slot_rows_read read
  · intro member
    obtain ⟨value, listed, read⟩ := extend_present ∅ ⟨(slot, id), member, rfl⟩
    obtain ⟨short, first, known⟩ := slot_row.mp listed
    obtain ⟨other, second, again⟩ := slot_row.mp member
    have sameShort : short = other := (keys.unique short slot known).trans (keys.unique other slot again).symm
    have same := inj_on_of_nodup_map (keys.distinct sstatehash) first second sameShort
    cases same
    exact read

variable (keys : ShortKeys db) (sstatehash : Hash) (prevEvent : Pdu Content)

theorem state_after_other (other : ∀ stateKey, prevEvent.stateKey = some stateKey → slot ≠ (prevEvent.kind, stateKey)) :
    (stateAfter db sstatehash prevEvent)[slot]? = (stateBefore db sstatehash)[slot]? := by
  cases own : prevEvent.stateKey with
  | none => rw [stateAfter, own]
  | some stateKey =>
    rw [stateAfter, own]
    exact insert_elsewhere (other stateKey own)

variable (known : OwnSlotKnown db prevEvent)

include known

theorem leaf_slot_rows {stateKey : String} (own : prevEvent.stateKey = some stateKey) :
    slotRows db (leafOf db prevEvent) = [((prevEvent.kind, stateKey), prevEvent.eventId)] := by
  simp [leafOf, own, slotRows, known stateKey own]

theorem leaf_other (other : ∀ stateKey, prevEvent.stateKey = some stateKey → slot ≠ (prevEvent.kind, stateKey)) :
    (slot, id) ∉ slotRows db (leafOf db prevEvent) := by
  intro member
  cases own : prevEvent.stateKey with
  | none => simp [leafOf, own, slotRows] at member
  | some stateKey =>
    rw [leaf_slot_rows prevEvent known own, mem_singleton] at member
    exact other stateKey own (congrArg Prod.fst member)

include keys

theorem fork_state_other (perm : completed.Perm (db.stateFullIds sstatehash ++ leafOf db prevEvent))
    (other : ∀ stateKey, prevEvent.stateKey = some stateKey → slot ≠ (prevEvent.kind, stateKey)) :
    (extend ∅ (slotRows db completed))[slot]? = (stateBefore db sstatehash)[slot]? := by
  have source : ∀ id, (slot, id) ∈ slotRows db completed ↔ (stateBefore db sstatehash)[slot]? = some id := by
    intro id
    rw [(slot_rows_perm perm).mem_iff, slot_rows_append, mem_append, state_before_read keys]
    exact or_iff_left (leaf_other prevEvent known other)
  refine Option.ext fun id => ⟨fun read => (source id).mp (slot_rows_read read), fun held => ?_⟩
  obtain ⟨found, listed, read⟩ := extend_present ∅ ⟨(slot, id), (source id).mpr held, rfl⟩
  have same := (source found).mp listed
  rw [held] at same
  cases same
  exact read

theorem fork_state_cases (perm : completed.Perm (db.stateFullIds sstatehash ++ leafOf db prevEvent)) :
    extend ∅ (slotRows db completed) = stateAfter db sstatehash prevEvent ∨
      (Replaces db sstatehash prevEvent ∧ extend ∅ (slotRows db completed) = stateBefore db sstatehash) := by
  cases own : prevEvent.stateKey with
  | none =>
    refine .inl (ExtTreeMap.ext_getElem? fun slot => ?_)
    have other : ∀ stateKey, prevEvent.stateKey = some stateKey → slot ≠ (prevEvent.kind, stateKey) := by simp [own]
    rw [fork_state_other keys sstatehash prevEvent known perm other, state_after_other sstatehash prevEvent other]
  | some stateKey =>
    have elsewhere : ∀ slot, slot ≠ (prevEvent.kind, stateKey) → ∀ key, prevEvent.stateKey = some key → slot ≠ (prevEvent.kind, key) := by
      intro slot different key isKey
      rw [own] at isKey
      cases isKey
      exact different
    have rows : (slotRows db completed).Perm (slotRows db (db.stateFullIds sstatehash) ++
      [((prevEvent.kind, stateKey), prevEvent.eventId)]) := by
      rw [← leaf_slot_rows prevEvent known own, ← slot_rows_append]
      exact slot_rows_perm perm
    obtain ⟨held, listed, read⟩ := extend_present ∅
      ⟨_, rows.mem_iff.mpr (mem_append_right _ (mem_singleton_self _)), rfl⟩
    by_cases ownHeld : held = prevEvent.eventId
    · refine .inl (ExtTreeMap.ext_getElem? fun slot => ?_)
      by_cases here : slot = (prevEvent.kind, stateKey)
      · rw [here, read, ownHeld, stateAfter, own, ExtTreeMap.getElem?_insert_self]
      · rw [fork_state_other keys sstatehash prevEvent known perm (elsewhere slot here),
          state_after_other sstatehash prevEvent (elsewhere slot here)]
    · rw [rows.mem_iff, mem_append, ← state_before_read keys] at listed
      have old := listed.resolve_right (by simp [ownHeld])
      refine .inr ⟨⟨stateKey, held, own, old, ownHeld⟩, ExtTreeMap.ext_getElem? fun slot => ?_⟩
      by_cases here : slot = (prevEvent.kind, stateKey)
      · rw [here, read, old]
      · exact fork_state_other keys sstatehash prevEvent known perm (elsewhere slot here)

omit keys in
theorem fork_state_in_order : extend ∅ (slotRows db (db.stateFullIds sstatehash ++ leafOf db prevEvent)) =
    stateAfter db sstatehash prevEvent := by
  rw [slot_rows_append, extend, foldl_append]
  change extend (stateBefore db sstatehash) (slotRows db (leafOf db prevEvent)) = _
  cases own : prevEvent.stateKey with
  | none => simp [leafOf, own, slotRows, extend, stateAfter]
  | some stateKey => simp [leaf_slot_rows prevEvent known own, extend, stateAfter, own]

def laggingOrder (db : StateStore Content Hash) (sstatehash : Hash) (prevEvent : Pdu Content) : List (Nat × EventId) :=
  match leafOf db prevEvent with
  | [] => db.stateFullIds sstatehash
  | leaf :: _ => (db.stateFullIds sstatehash).filter (fun row => row.1 ≠ leaf.1) ++ [leaf] ++
      (db.stateFullIds sstatehash).filter fun row => row.1 = leaf.1

omit keys known in
theorem lagging_order_perm :
    (laggingOrder db sstatehash prevEvent).Perm (db.stateFullIds sstatehash ++ leafOf db prevEvent) := by
  cases own : prevEvent.stateKey with
  | none => simp [laggingOrder, leafOf, own]
  | some stateKey =>
    simp only [laggingOrder, leafOf, own]
    have parts : ((db.stateFullIds sstatehash).filter (fun row => row.1 ≠ db.shortstatekey (prevEvent.kind, stateKey)) ++
        (db.stateFullIds sstatehash).filter fun row => row.1 = db.shortstatekey (prevEvent.kind, stateKey)).Perm
        (db.stateFullIds sstatehash) := by
      have split := filter_append_perm (fun row : Nat × EventId =>
        decide (row.1 ≠ db.shortstatekey (prevEvent.kind, stateKey))) (db.stateFullIds sstatehash)
      simpa using split
    rw [append_assoc]
    exact (perm_append_comm.append_left _).trans ((append_assoc _ _ _).symm ▸ parts.append_right _)

theorem fork_state_lagging (replaces : Replaces db sstatehash prevEvent) :
    extend ∅ (slotRows db (laggingOrder db sstatehash prevEvent)) = stateBefore db sstatehash := by
  obtain ⟨stateKey, old, own, held, different⟩ := replaces
  let late := (db.stateFullIds sstatehash).filter fun row => row.1 = db.shortstatekey (prevEvent.kind, stateKey)
  have oldLate : ((prevEvent.kind, stateKey), old) ∈ slotRows db late := by
    obtain ⟨short, listed, isSlot⟩ := slot_row.mp ((state_before_read keys).mp held)
    exact slot_row.mpr ⟨short, mem_filter.mpr ⟨listed, by simp [keys.unique short _ isSlot]⟩, isSlot⟩
  have lastWins :
    (extend ∅ (slotRows db (laggingOrder db sstatehash prevEvent)))[(prevEvent.kind, stateKey)]? = some old := by
    have split : laggingOrder db sstatehash prevEvent = (db.stateFullIds sstatehash).filter
        (fun row => row.1 ≠ db.shortstatekey (prevEvent.kind, stateKey)) ++ leafOf db prevEvent ++ late := by
      simp [laggingOrder, leafOf, own, late]
    rw [split, slot_rows_append, extend, foldl_append]
    obtain ⟨value, listed, read⟩ := extend_present _ ⟨_, oldLate, rfl⟩
    obtain ⟨short, inLate, isSlot⟩ := slot_row.mp listed
    have full := (state_before_read keys).mpr (slot_row.mpr ⟨short, (mem_filter.mp inLate).1, isSlot⟩)
    rw [held] at full
    cases full
    exact read
  rcases fork_state_cases keys sstatehash prevEvent known (lagging_order_perm sstatehash prevEvent) with after | before
  · rw [after, stateAfter, own, ExtTreeMap.getElem?_insert_self] at lastWins
    exact absurd (Option.some.inj lastWins).symm different
  · exact before.2

end

section

variable {Content Hash : Type} [Ord Hash] [TransOrd Hash] [LawfulEqOrd Hash] (db : StateStore Content Hash)

structure PrevsStored (prevEvents : List EventId) (hash : EventId → Hash) (event : EventId → Pdu Content) : Prop where
  hashed : ∀ prev ∈ prevEvents, db.pduShortstatehash prev = .ok (hash prev)
  read : ∀ prev ∈ prevEvents, db.getPdu prev = .ok (event prev)
  slotted : ∀ prev ∈ prevEvents, OwnSlotKnown db (event prev)
  chained : ∀ ids, ∃ chain, db.authChain ids = .ok chain

def ForksExact (prevEvents : List EventId) (hash : EventId → Hash) (event : EventId → Pdu Content)
    (schedule : Schedule Content Hash) : Prop :=
  ∃ forks, forksAtIncoming db schedule = some (.ok forks) ∧ ∀ state, state ∈ forks.map Prod.fst ↔
    ∃ prev ∈ prevEvents, stateAfter db (hash prev) (event prev) = state

structure BranchesKept (prevEvents : List EventId) (hash : EventId → Hash) (event : EventId → Pdu Content) : Prop where
  filed : ∀ prev ∈ prevEvents, ∃ kept ∈ prevEvents, ∀ sharing ∈ prevEvents, hash sharing = hash kept →
    stateAfter db (hash sharing) (event sharing) = stateAfter db (hash prev) (event prev) ∧
    ¬ Replaces db (hash sharing) (event sharing)
  replaced : ∀ prev ∈ prevEvents, Replaces db (hash prev) (event prev) →
    ∃ other ∈ prevEvents, stateAfter db (hash other) (event other) = stateBefore db (hash prev)

variable {db} {sstatehash : Hash} {prevEvent : Pdu Content}

section

variable (keys : ShortKeys db) (prevEvents : List EventId) (hash : EventId → Hash) (event : EventId → Pdu Content)
  (schedule : Schedule Content Hash) (valid : schedule.Valid db prevEvents)

include valid

variable {prevEvents hash event schedule} in
theorem filed_event (filed : (extend ∅ (schedule.arrived.map fun prev => (hash prev, event prev)))[sstatehash]? =
    some prevEvent) : ∃ prev ∈ prevEvents, hash prev = sstatehash ∧ event prev = prevEvent := by
  have source := (extend_source filed).resolve_right (by simp)
  obtain ⟨prev, member, same⟩ := mem_map.mp source
  cases same
  exact ⟨prev, valid.arrived.mem_iff.mp member, rfl, rfl⟩

variable (stored : PrevsStored db prevEvents hash event)

include stored

theorem forks_at_incoming_states : ∃ forks, forksAtIncoming db schedule = some (.ok forks) ∧
    ∀ state, state ∈ forks.map Prod.fst ↔ ∃ sstatehash prevEvent,
    (extend ∅ (schedule.arrived.map fun prev => (hash prev, event prev)))[sstatehash]? = some prevEvent ∧
      extend ∅ (slotRows db (schedule.completed sstatehash prevEvent)) = state := by
  have rows : schedule.arrived.mapM (extremityRow db) = .ok
    (schedule.arrived.map fun prev => (hash prev, event prev)) := by
    apply map_all_done
    intro prev member
    have inside := valid.arrived.mem_iff.mp member
    rw [extremityRow, stored.hashed prev inside]
    rw [stored.read prev inside]
  choose chain chained using stored.chained
  have each : ∀ row ∈ schedule.rows (extend ∅ (schedule.arrived.map fun prev => (hash prev, event prev))),
    stateAtIncomingFork db row.1 row.2 (schedule.completed row.1 row.2) =
        .ok (extend ∅ (slotRows db (schedule.completed row.1 row.2)), chain ((db.stateFullIds row.1 ++ leafOf db row.2).map Prod.snd)) := by
    intro row _
    rw [stateAtIncomingFork, chained]
  have forks := map_all_done each
  refine ⟨_, by rw [forksAtIncoming, rows]; simp only; rw [forks], fun state => ?_⟩
  simp only [mem_map, map_map, Function.comp_apply, (valid.rows _).mem_iff, Prod.exists,
    ExtTreeMap.mem_toList_iff_getElem?_eq_some]

include keys

theorem forks_exact_of_kept (kept : BranchesKept db prevEvents hash event) :
    ForksExact db prevEvents hash event schedule := by
  obtain ⟨forks, returned, states⟩ := forks_at_incoming_states prevEvents hash event schedule valid stored
  refine ⟨forks, returned, fun state => ?_⟩
  rw [states state]
  constructor
  · intro found
    obtain ⟨sstatehash, prevEvent, filed, isState⟩ := found
    obtain ⟨prev, member, rfl, rfl⟩ := filed_event valid filed
    rcases fork_state_cases keys _ _ (stored.slotted prev member) (valid.completed (hash prev) (event prev)) with after | before
    · exact ⟨prev, member, after.symm.trans isState⟩
    · obtain ⟨other, inPrevs, same⟩ := kept.replaced prev member before.1
      exact ⟨other, inPrevs, same.trans (before.2.symm.trans isState)⟩
  · intro found
    obtain ⟨prev, member, isState⟩ := found
    obtain ⟨place, placeMember, unshared⟩ := kept.filed prev member
    have arrivedPlace : place ∈ schedule.arrived := valid.arrived.mem_iff.mpr placeMember
    have listed : ∃ row ∈ schedule.arrived.map fun prev => (hash prev, event prev), row.1 = hash place :=
      ⟨_, mem_map_of_mem arrivedPlace, rfl⟩
    obtain ⟨prevEvent, _, filed⟩ := extend_present ∅ listed
    obtain ⟨sharing, sharingMember, sameHash, sameEvent⟩ := filed_event valid filed
    obtain ⟨sameAfter, fresh⟩ := unshared sharing sharingMember sameHash
    have known := stored.slotted sharing sharingMember
    rw [sameEvent] at known
    rw [sameHash, sameEvent] at sameAfter fresh
    refine ⟨hash place, prevEvent, filed, ?_⟩
    rcases fork_state_cases keys _ _ known (valid.completed (hash place) prevEvent) with after | before
    · rw [after, sameAfter, isState]
    · exact absurd before.1 fresh

end

omit [Ord Hash] [TransOrd Hash] [LawfulEqOrd Hash] in
theorem replaces_changes (replaces : Replaces db sstatehash prevEvent) :
    stateBefore db sstatehash ≠ stateAfter db sstatehash prevEvent := by
  obtain ⟨stateKey, old, own, held, different⟩ := replaces
  intro same
  rw [same, stateAfter, own, ExtTreeMap.getElem?_insert_self] at held
  exact different (Option.some.inj held).symm

section

variable (db) (prevEvents : List EventId) (hash : EventId → Hash) (event : EventId → Pdu Content)
  (late : EventId → Bool) (lags : Hash → Pdu Content → Bool)

def biased : Schedule Content Hash where
  arrived := prevEvents.filter (fun prev => !late prev) ++ prevEvents.filter late
  rows := fun hashes => hashes.toList
  completed := fun sstatehash prevEvent =>
    if lags sstatehash prevEvent then laggingOrder db sstatehash prevEvent else db.stateFullIds sstatehash ++ leafOf db prevEvent

omit [LawfulEqOrd Hash] in
theorem biased_valid : (biased db prevEvents late lags).Valid db prevEvents where
  arrived := by
    have split := filter_append_perm (fun prev => !late prev) prevEvents
    simpa [biased] using split
  rows := fun hashes => List.Perm.refl _
  completed := by
    intro sstatehash prevEvent
    cases lagging : lags sstatehash prevEvent with
    | true => simpa [biased, lagging] using lagging_order_perm sstatehash prevEvent
    | false => simp [biased, lagging]

theorem biased_filed {prev : EventId} (member : prev ∈ prevEvents) (isLate : late prev = true) :
    ∃ last ∈ prevEvents, late last = true ∧ hash last = hash prev ∧
      (extend ∅ ((biased db prevEvents late lags).arrived.map fun prev => (hash prev, event prev)))[hash prev]? = some (event last) := by
  have inLate : prev ∈ prevEvents.filter late := mem_filter.mpr ⟨member, isLate⟩
  rw [biased, map_append, extend, foldl_append]
  obtain ⟨value, listed, read⟩ := extend_present (extend ∅ ((prevEvents.filter fun prev => !late prev).map fun prev =>
    (hash prev, event prev))) ⟨_, mem_map_of_mem inLate, rfl⟩
  obtain ⟨last, lastLate, same⟩ := mem_map.mp listed
  obtain ⟨sameHash, rfl⟩ := Prod.mk.injEq .. ▸ same
  exact ⟨last, (mem_filter.mp lastLate).1, (mem_filter.mp lastLate).2, sameHash, read⟩

end

section

variable (keys : ShortKeys db) (prevEvents : List EventId) (hash : EventId → Hash) (event : EventId → Pdu Content)
  (stored : PrevsStored db prevEvents hash event) (always :
  ∀ schedule : Schedule Content Hash, schedule.Valid db prevEvents → ForksExact db prevEvents hash event schedule)

include stored always

theorem exact_states (late : EventId → Bool) (lags : Hash → Pdu Content → Bool) {state : StateMap} :
    (∃ sstatehash prevEvent,
    (extend ∅ ((biased db prevEvents late lags).arrived.map fun prev => (hash prev, event prev)))[sstatehash]? =
        some prevEvent ∧ extend ∅ (slotRows db ((biased db prevEvents late lags).completed sstatehash prevEvent)) = state) ↔
      ∃ prev ∈ prevEvents, stateAfter db (hash prev) (event prev) = state := by
  have valid := biased_valid db prevEvents late lags
  obtain ⟨forks, returned, states⟩ := forks_at_incoming_states prevEvents hash event _ valid stored
  obtain ⟨others, again, wanted⟩ := always _ valid
  cases returned.symm.trans again
  rw [← states state, wanted state]

include keys

theorem exact_replaced (prev : EventId) (member : prev ∈ prevEvents) (replaces : Replaces db (hash prev) (event prev)) :
    ∃ other ∈ prevEvents, stateAfter db (hash other) (event other) = stateBefore db (hash prev) := by
  obtain ⟨last, lastMember, isLast, lastHash, filed⟩ :=
    biased_filed db prevEvents hash event (fun g => decide (g = prev)) (fun _ _ => true) member (by simp)
  cases of_decide_eq_true isLast
  refine (exact_states prevEvents hash event stored always _ _).mp ⟨hash prev, event prev, filed, ?_⟩
  exact fork_state_lagging keys (hash prev) (event prev) (stored.slotted prev member) replaces

theorem exact_filed (prev : EventId) (member : prev ∈ prevEvents) :
    ∃ kept ∈ prevEvents, ∀ sharing ∈ prevEvents, hash sharing = hash kept →
    stateAfter db (hash sharing) (event sharing) = stateAfter db (hash prev) (event prev) ∧
    ¬ Replaces db (hash sharing) (event sharing) := by
  classical
  by_contra shared
  let spoils : EventId → Prop := fun g =>
    ¬ (stateAfter db (hash g) (event g) = stateAfter db (hash prev) (event prev) ∧ ¬ Replaces db (hash g) (event g))
  let lags : Hash → Pdu Content → Bool := fun h p => decide (stateAfter db h p = stateAfter db (hash prev) (event prev))
  have spoiled : ∀ kept ∈ prevEvents, ∃ g ∈ prevEvents, hash g = hash kept ∧ spoils g := by
    intro kept keptMember
    by_contra none
    refine shared ⟨kept, keptMember, fun sharing sharingMember sameHash => ?_⟩
    by_contra bad
    exact none ⟨sharing, sharingMember, sameHash, bad⟩
  have produced := (exact_states prevEvents hash event stored always (fun g => decide (spoils g)) lags).mpr
    ⟨prev, member, rfl⟩
  obtain ⟨sstatehash, prevEvent, filed, isState⟩ := produced
  obtain ⟨kept, keptMember, rfl, _⟩ := filed_event (biased_valid db prevEvents _ lags) filed
  obtain ⟨g, gMember, sameHash, bad⟩ := spoiled kept keptMember
  obtain ⟨last, lastMember, lastBad, lastHash, lastFiled⟩ :=
    biased_filed db prevEvents hash event (fun g => decide (spoils g)) lags gMember (decide_eq_true bad)
  rw [sameHash, filed] at lastFiled
  cases lastFiled
  have spoiler : spoils last := of_decide_eq_true lastBad
  rw [← sameHash, ← lastHash] at isState
  by_cases sameAfter : stateAfter db (hash last) (event last) = stateAfter db (hash prev) (event prev)
  · have replaces : Replaces db (hash last) (event last) := by
      by_contra fresh
      exact spoiler ⟨sameAfter, fresh⟩
    have lagging : lags (hash last) (event last) = true := decide_eq_true sameAfter
    simp only [biased] at isState
    rw [if_pos lagging, fork_state_lagging keys _ _ (stored.slotted last lastMember) replaces, ← sameAfter] at isState
    exact replaces_changes replaces isState
  · have inOrder : ¬ lags (hash last) (event last) = true := fun lagging => sameAfter (of_decide_eq_true lagging)
    simp only [biased] at isState
    rw [if_neg inOrder, fork_state_in_order _ _ (stored.slotted last lastMember)] at isState
    exact sameAfter isState

end

theorem forks_exact_iff (keys : ShortKeys db) (prevEvents : List EventId) (hash : EventId → Hash)
    (event : EventId → Pdu Content) (stored : PrevsStored db prevEvents hash event) :
    (∀ schedule : Schedule Content Hash, schedule.Valid db prevEvents → ForksExact db prevEvents hash event schedule) ↔
    BranchesKept db prevEvents hash event := by
  constructor
  · intro always
    exact ⟨exact_filed keys prevEvents hash event stored always, exact_replaced keys prevEvents hash event stored always⟩
  · intro kept schedule valid
    exact forks_exact_of_kept keys prevEvents hash event schedule valid stored kept

end

-- Two state events, $a and $b, branch off one state; the topic $a sets is new,
-- the name $b sets replaces $n. The message $m comes after another topic.
def forkEvent : EventId → Pdu ParsedContent
  | "$a" => roomEvent "$a" "m.room.topic" "@alice" (some "") ["$n"] [] 2
  | "$b" => roomEvent "$b" "m.room.name" "@bob" (some "") ["$n"] [] 2
  | id => roomEvent id "m.room.message" "@carol" none ["$t"] [] 3

def forkHash (id : EventId) : Nat := if id = "$m" then 8 else 7

def forkSlots : List (Nat × StateKey) := [(1, createKey), (2, ("m.room.name", "")), (3, ("m.room.topic", ""))]

def forkStore : StateStore ParsedContent Nat where
  pduShortstatehash := fun id => if id ∈ ["$a", "$b", "$m"] then .ok (forkHash id) else .error ⟨.notFound, id⟩
  getPdu := fun id => if id ∈ ["$a", "$b", "$m"] then .ok (forkEvent id) else .error ⟨.notFound, id⟩
  stateFullIds := fun sstatehash => if sstatehash = 8 then [(1, "$c"), (2, "$n"), (3, "$t")] else [(1, "$c"), (2, "$n")]
  shortstatekey := fun slot => ((forkSlots.find? fun entry => entry.2 = slot).map Prod.fst).getD 0
  statekeyFromShort := fun short => (forkSlots.find? fun entry => entry.1 = short).map Prod.snd
  authChain := fun ids => .ok (ExtTreeSet.ofList ids)

theorem fork_store_keys : ShortKeys forkStore where
  unique := by
    intro short slot found
    obtain ⟨entry, listed, isSlot⟩ := Option.map_eq_some_iff.mp found
    have isShort := find?_some listed
    have member := mem_of_find?_eq_some listed
    have places : ∀ entry ∈ forkSlots, forkStore.shortstatekey entry.2 = entry.1 := by decide +kernel
    rw [← isSlot, places entry member]
    exact (of_decide_eq_true isShort).symm
  distinct := by
    intro sstatehash
    by_cases last : sstatehash = 8 <;> simp [forkStore, last]

theorem fork_store_prevs {prevEvents : List EventId} (within : ∀ prev ∈ prevEvents, prev ∈ ["$a", "$b", "$m"]) :
    PrevsStored forkStore prevEvents forkHash forkEvent where
  hashed := fun prev member => if_pos (within prev member)
  read := fun prev member => if_pos (within prev member)
  slotted := by
    intro prev member stateKey own
    have known : ∀ prev ∈ ["$a", "$b", "$m"], ∀ stateKey ∈ (forkEvent prev).stateKey,
        forkStore.statekeyFromShort (forkStore.shortstatekey ((forkEvent prev).kind, stateKey)) = some ((forkEvent prev).kind, stateKey) := by
      decide +kernel
    exact known prev (within prev member) stateKey own
  chained := fun ids => ⟨_, rfl⟩

def forkOrder (prevEvents : List EventId) (lags : Bool) : Schedule ParsedContent Nat :=
  biased forkStore prevEvents (fun _ => true) fun _ _ => lags

def forkRows (schedule : Schedule ParsedContent Nat) : List (List (StateKey × EventId)) :=
  match forksAtIncoming forkStore schedule with
  | some (.ok forks) => forks.map fun fork => fork.1.toList
  | _ => []

theorem sibling_branch_lost : (forkOrder ["$a", "$b"] false).Valid forkStore ["$a", "$b"] ∧
    forkRows (forkOrder ["$a", "$b"] false) = [[(createKey, "$c"), (("m.room.name", ""), "$b")]] ∧
    (stateAfter forkStore (forkHash "$a") (forkEvent "$a")).toList =
    [(createKey, "$c"), (("m.room.name", ""), "$n"), (("m.room.topic", ""), "$a")] ∧
    ¬ ForksExact forkStore ["$a", "$b"] forkHash forkEvent (forkOrder ["$a", "$b"] false) ∧
    (forkOrder ["$b", "$m"] true).Valid forkStore ["$b", "$m"] ∧
    forkRows (forkOrder ["$b", "$m"] true) = [[(createKey, "$c"), (("m.room.name", ""), "$n")],
    [(createKey, "$c"), (("m.room.name", ""), "$n"), (("m.room.topic", ""), "$t")]] ∧ (stateAfter forkStore
    (forkHash "$b") (forkEvent "$b")).toList = [(createKey, "$c"), (("m.room.name", ""), "$b")] := by
  have rows : forkRows (forkOrder ["$a", "$b"] false) = [[(createKey, "$c"), (("m.room.name", ""), "$b")]] := by
    decide +kernel
  refine ⟨biased_valid _ _ _ _,
    rows, by decide +kernel, fun exact => ?_, biased_valid _ _ _ _, by decide +kernel, by decide +kernel⟩
  obtain ⟨forks, returned, states⟩ := exact
  have branch := (states _).mpr ⟨"$a", by simp, rfl⟩
  have listed : (stateAfter forkStore (forkHash "$a") (forkEvent "$a")).toList ∈ forkRows
    (forkOrder ["$a", "$b"] false) := by
    obtain ⟨fork, member, same⟩ := mem_map.mp branch
    rw [forkRows, returned, ← same]
    exact mem_map_of_mem member
  rw [rows] at listed
  exact absurd listed (by decide +kernel)

theorem separate_branches_kept :
    ForksExact forkStore ["$a", "$m"] forkHash forkEvent (forkOrder ["$a", "$m"] true) := by
  have fresh : ∀ prev ∈ ["$a", "$m"], ¬ Replaces forkStore (forkHash prev) (forkEvent prev) := by
    intro prev member replaces
    obtain ⟨stateKey, old, own, held, _⟩ := replaces
    have unset : ∀ prev ∈ ["$a", "$m"], ∀ stateKey ∈ (forkEvent prev).stateKey,
        (stateBefore forkStore (forkHash prev))[((forkEvent prev).kind, stateKey)]? = none := by decide +kernel
    rw [unset prev member stateKey own] at held
    cases held
  have apart : ∀ prev ∈ ["$a", "$m"], ∀ other ∈ ["$a", "$m"], forkHash other = forkHash prev → other = prev := by decide
  refine (forks_exact_iff fork_store_keys ["$a", "$m"] forkHash forkEvent (fork_store_prevs (by decide))).mpr ⟨?_, ?_⟩ _
    (biased_valid _ _ _ _)
  · intro prev member
    refine ⟨prev, member, fun sharing sharingMember sameHash => ⟨?_, fresh sharing sharingMember⟩⟩
    rw [apart prev member sharing sharingMember sameHash]
  · intro prev member replaces
    exact absurd replaces (fresh prev member)

end GaussMatrix.Rooms

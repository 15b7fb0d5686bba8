import GaussMatrix.Library.Handler
import GaussMatrix.Library.Outcome
import GaussMatrix.Library.Runs
import GaussMatrix.Rooms.Pdu
import GaussMatrix.Rooms.StateDiff

namespace GaussMatrix.Rooms.Compressor

open BigEndian Collections Diffs Handlers List Outcome Runs Std ExtTreeSet
open Database (Bytes)
open StateRes (EventId StateKey)

structure StateTables where
  count : Nat
  eventidShorteventid : BTreeMap EventId Short
  shorteventidEventid : BTreeMap Short EventId
  statekeyShortstatekey : BTreeMap StateKey Short
  shortstatekeyStatekey : BTreeMap Short StateKey
  statehashShortstatehash : BTreeMap Bytes Short
  shortstatehashStatediff : BTreeMap Short Bytes
  shorteventidShortstatehash : BTreeMap Short Short
  roomidShortstatehash : BTreeMap String Short

inductive TableWrite where
  | count (count : Nat)
  | eventidShorteventid (eventId : EventId) (short : Short)
  | shorteventidEventid (short : Short) (eventId : EventId)
  | statekeyShortstatekey (key : StateKey) (short : Short)
  | shortstatekeyStatekey (short : Short) (key : StateKey)
  | statehashShortstatehash (stateHash : Bytes) (short : Short)
  | shortstatehashStatediff (short : Short) (value : Bytes)
  | shorteventidShortstatehash (shorteventid short : Short)
  | roomidShortstatehash (roomId : String) (short : Short)

def StateTables.apply (tables : StateTables) : TableWrite → StateTables
  | .count count => { tables with count := count }
  | .eventidShorteventid eventId short =>
    { tables with eventidShorteventid := tables.eventidShorteventid.insert eventId short }
  | .shorteventidEventid short eventId =>
    { tables with shorteventidEventid := tables.shorteventidEventid.insert short eventId }
  | .statekeyShortstatekey key short =>
    { tables with statekeyShortstatekey := tables.statekeyShortstatekey.insert key short }
  | .shortstatekeyStatekey short key =>
    { tables with shortstatekeyStatekey := tables.shortstatekeyStatekey.insert short key }
  | .statehashShortstatehash stateHash short =>
    { tables with statehashShortstatehash := tables.statehashShortstatehash.insert stateHash short }
  | .shortstatehashStatediff short value =>
    { tables with shortstatehashStatediff := tables.shortstatehashStatediff.insert short value }
  | .shorteventidShortstatehash shorteventid short =>
    { tables with shorteventidShortstatehash := tables.shorteventidShortstatehash.insert shorteventid short }
  | .roomidShortstatehash roomId short =>
    { tables with roomidShortstatehash := tables.roomidShortstatehash.insert roomId short }

def StateTables.after (tables : StateTables) (writes : List TableWrite) : StateTables :=
  writes.foldl StateTables.apply tables

theorem saved_statediff_returned (tables : StateTables) (shortstatehash : Short) (diff : StateDiff) (writable : diff.Writable) :
    (tables.apply (.shortstatehashStatediff shortstatehash diff.value)).shortstatehashStatediff[shortstatehash]?.map getStatediff = some diff := by
  rw [StateTables.apply, ExtTreeMap.getElem?_insert_self, Option.map_some, statediff_round_trips diff writable]

theorem removed_event_returned :
    let diff : StateDiff :=
      ⟨some 5, ExtTreeSet.ofList [compressStateEvent 1 2], ExtTreeSet.ofList [compressStateEvent 3 4]⟩
    (StateTables.apply ⟨0, ∅, ∅, ∅, ∅, ∅, ∅, ∅, ∅⟩
      (.shortstatehashStatediff 6 diff.value)).shortstatehashStatediff[6]?.map getStatediff = some diff := by
  refine saved_statediff_returned _ 6 _ ⟨fun event member => ?_, fun parent same => by cases same; decide⟩
  rw [mem_ofList, List.contains_iff_mem, List.mem_singleton] at member
  rw [member]
  decide

structure ShortStateInfo where
  shortstatehash : Short
  fullState : CompressedState
  added : CompressedState
  removed : CompressedState

-- The Vec of the source has the top layer last, the list has it first.
abbrev ShortStateInfoVec := List ShortStateInfo

-- Unended stands for a recursion that has used up its fuel.
inductive SaveError where
  | database (message : String)
  | arithmetic (message : String)
  | panic (message : String)
  | unended

structure StateSession where
  tables : StateTables
  stateinfoCache : BTreeMap Short ShortStateInfoVec
  log : List TableWrite

abbrev Saving := ExceptT SaveError (StateM StateSession)

def StateSession.put (session : StateSession) (entry : TableWrite) : StateSession :=
  { session with tables := session.tables.apply entry, log := session.log ++ [entry] }

def write (entry : TableWrite) : Saving Unit := modify fun session => session.put entry

def nextCount : Saving Nat := do
  let session ← get
  if session.tables.count + 1 < 2 ^ 64 then
    write (.count (session.tables.count + 1))
    return session.tables.count + 1
  else throw (.panic "failed to obtain next sequence number")

def createShort (forth back : Short → TableWrite) : Saving Short := do
  let short ← nextCount
  write (forth short)
  write (back short)
  return short

def getOrCreateShorteventid (eventId : EventId) : Saving Short := do
  let session ← get
  match session.tables.eventidShorteventid[eventId]? with
  | some short => return short
  | none => createShort (fun short => .eventidShorteventid eventId short) fun short =>
    .shorteventidEventid short eventId

def getOrCreateShortstatekey (key : StateKey) : Saving Short := do
  let session ← get
  match session.tables.statekeyShortstatekey[key]? with
  | some short => return short
  | none => createShort (fun short => .statekeyShortstatekey key short) fun short => .shortstatekeyStatekey short key

def getOrCreateShortstatehash (stateHash : Bytes) : Saving (Short × Bool) := do
  let session ← get
  match session.tables.statehashShortstatehash[stateHash]? with
  | some short => return (short, true)
  | none =>
    let short ← nextCount
    write (.statehashShortstatehash stateHash short)
    return (short, false)

def fullStateOver (top added removed : CompressedState) : CompressedState :=
  removed.toList.foldl (fun state event => state.erase event)
    (added.toList.foldl (fun state event => state.insert event) top)

def newShortstatehashInfo (load : Short → Saving ShortStateInfoVec) (shortstatehash : Short) :
    Saving ShortStateInfoVec := do
  let session ← get
  match session.tables.shortstatehashStatediff[shortstatehash]? with
  | none => throw (.database s!"Failed to find StateDiff from short {shortstatehash}")
  | some value =>
    let diff := getStatediff value
    match diff.parent with
    | none => return [⟨shortstatehash, diff.added, diff.added, diff.removed⟩]
    | some parent =>
      let stack ← load parent
      match stack with
      | [] => throw (.panic "at least one frame")
      | top :: _ => return ⟨shortstatehash, fullStateOver top.fullState diff.added diff.removed, diff.added, diff.removed⟩ :: stack

def loadShortstatehashInfo : Nat → Short → Saving ShortStateInfoVec
  | 0, _ => throw .unended
  | fuel + 1, shortstatehash => do
    let session ← get
    match session.stateinfoCache[shortstatehash]? with
    | some stack => return stack
    | none =>
      let stack ← newShortstatehashInfo (loadShortstatehashInfo fuel) shortstatehash
      modify fun session => { session with stateinfoCache := session.stateinfoCache.insert shortstatehash stack }
      return stack

def checked (value : Nat) : Except SaveError Nat :=
  if value < 2 ^ 64 then .ok value else .error (.arithmetic "operation overflowed or result invalid")

section

variable (diff : CompressedState × CompressedState) (event : CompressedStateEvent)

-- An event removed that the parent has added is forgotten, and so is an event
-- added that the parent has removed.
def takeBack : CompressedState × CompressedState :=
  if diff.1.contains event then (diff.1.erase event, diff.2) else (diff.1, diff.2.insert event)

def giveBack : CompressedState × CompressedState :=
  if diff.2.contains event then (diff.1, diff.2.erase event) else (diff.1.insert event, diff.2)

end

def mergeInto (parent : ShortStateInfo) (statediffnew statediffremoved : CompressedState) :
    CompressedState × CompressedState :=
  statediffnew.toList.foldl giveBack (statediffremoved.toList.foldl takeBack (parent.added, parent.removed))

def stateDiffOver : ShortStateInfoVec → Nat → CompressedState → CompressedState → Except SaveError StateDiff
  | [], _, statediffnew, statediffremoved => do
    let _diffsum ← checked (statediffnew.size + statediffremoved.size)
    return ⟨none, statediffnew, statediffremoved⟩
  | parent :: parentStates, diffToSibling, statediffnew, statediffremoved => do
    let diffsum ← checked (statediffnew.size + statediffremoved.size)
    let merged := mergeInto parent statediffnew statediffremoved
    if (parent :: parentStates).length > 3 then stateDiffOver parentStates diffsum merged.1 merged.2
    else
      let parentDiff ← checked (parent.added.size + parent.removed.size)
      let square ← checked (diffsum * diffsum)
      let double ← checked (2 * diffToSibling)
      let limit ← checked (double * parentDiff)
      if square ≥ limit then stateDiffOver parentStates diffsum merged.1 merged.2
      else return ⟨some parent.shortstatehash, statediffnew, statediffremoved⟩

def saveStateFromDiff (shortstatehash : Short) (statediffnew statediffremoved : CompressedState) (diffToSibling : Nat)
    (parentStates : ShortStateInfoVec) : Saving Unit := do
  let diff ← liftM (stateDiffOver parentStates diffToSibling statediffnew statediffremoved)
  write (.shortstatehashStatediff shortstatehash diff.value)

def stateDifference (statesParents : ShortStateInfoVec) (state : CompressedState) : CompressedState × CompressedState :=
  match statesParents with
  | [] => (state, ∅)
  | parent :: _ => (state.filter fun event => !parent.fullState.contains event, parent.fullState.filter fun event => !state.contains event)

def delimited : List Bytes → Bytes
  | [] => []
  | input :: inputs => input ++ inputs.flatMap fun other => 255 :: other

variable (digest : Bytes → Bytes) (fuel : Nat)

def calculateHash (state : CompressedState) : Bytes := digest (delimited (state.toList.map CompressedStateEvent.bytes))

structure HashSetCompressStateEvent where
  shortstatehash : Short
  added : CompressedState
  removed : CompressedState

def loadParents : Option Short → Saving ShortStateInfoVec
  | some previous => loadShortstatehashInfo fuel previous
  | none => return []

def saveState (roomId : String) (state : CompressedState) : Saving HashSetCompressStateEvent := do
  let session ← get
  let previous := session.tables.roomidShortstatehash[roomId]?
  let (short, alreadyExisted) ← getOrCreateShortstatehash (calculateHash digest state)
  if some short = previous then return ⟨short, ∅, ∅⟩
  else
    let statesParents ← tryCatch (loadParents fuel previous) fun _ => return []
    let difference := stateDifference statesParents state
    if alreadyExisted then return ⟨short, difference.1, difference.2⟩
    else
      saveStateFromDiff short difference.1 difference.2 2 statesParents
      return ⟨short, difference.1, difference.2⟩

def setEventState (eventId : EventId) (roomId : String) (state : CompressedState) : Saving Short := do
  let shorteventid ← getOrCreateShorteventid eventId
  let session ← get
  let previous := session.tables.roomidShortstatehash[roomId]?
  let (short, alreadyExisted) ← getOrCreateShortstatehash (calculateHash digest state)
  if alreadyExisted then
    write (.shorteventidShortstatehash shorteventid short)
    return short
  else
    let statesParents ← loadParents fuel previous
    let difference := stateDifference statesParents state
    saveStateFromDiff short difference.1 difference.2 1000000 statesParents
    write (.shorteventidShortstatehash shorteventid short)
    return short

def compressNewEvent (shortstatekey : Short) (eventId : EventId) : Saving CompressedStateEvent := do
  let shorteventid ← getOrCreateShorteventid eventId
  return compressStateEvent shortstatekey shorteventid

def expectPrevious (message : String) : Option Short → Saving Short
  | some previous => return previous
  | none => throw (.panic message)

def replacedEvent (statesParents : ShortStateInfoVec) (shortstatekey : Short) : Option CompressedStateEvent :=
  statesParents.head?.bind fun info => info.fullState.toList.find? (·.startsWith shortstatekey)

def appendNewEvent (previous : Option Short) (statesParents : ShortStateInfoVec) (shortstatekey : Short)
    (new : CompressedStateEvent) : Saving Short := do
  let replaces := replacedEvent statesParents shortstatekey
  if some new = replaces then expectPrevious "must exist" previous
  else
    let shortstatehash ← nextCount
    saveStateFromDiff shortstatehash {new} (ExtTreeSet.ofList replaces.toList) 2 statesParents
    return shortstatehash

def appendStateEvent (previous : Option Short) (eventId : EventId) (key : StateKey) : Saving Short := do
  let statesParents ← loadParents fuel previous
  let shortstatekey ← getOrCreateShortstatekey key
  let new ← compressNewEvent shortstatekey eventId
  appendNewEvent previous statesParents shortstatekey new

variable {Content : Type}

def appendToState (newPdu : Pdu Content) : Saving Short := do
  let shorteventid ← getOrCreateShorteventid newPdu.eventId
  let session ← get
  let previous := session.tables.roomidShortstatehash[newPdu.roomId]?
  match previous with
  | some short => write (.shorteventidShortstatehash shorteventid short)
  | none => pure ()
  match newPdu.stateKey with
  | none => expectPrevious "first event in room must be a state event" previous
  | some stateKey => appendStateEvent fuel previous newPdu.eventId (newPdu.kind, stateKey)

section

variable (state : CompressedState) (event other : CompressedStateEvent)

theorem insert_member : other ∈ state.insert event ↔ other = event ∨ other ∈ state := by
  rw [mem_insert, LawfulEqCmp.compare_eq_iff_eq, eq_comm]

end

theorem take_back_all (events : List CompressedStateEvent) (distinct : events.Nodup)
    (diff : CompressedState × CompressedState) (other : CompressedStateEvent) :
    (other ∈ (events.foldl takeBack diff).1 ↔ other ∈ diff.1 ∧ other ∉ events) ∧
    (other ∈ (events.foldl takeBack diff).2 ↔ other ∈ diff.2 ∨ other ∈ events ∧ other ∉ diff.1) := by
  induction events generalizing diff with
  | nil => simp
  | cons event events ih =>
    obtain ⟨fresh, restDistinct⟩ := nodup_cons.mp distinct
    obtain ⟨added, removed⟩ := ih restDistinct (takeBack diff event)
    rw [foldl_cons, added, removed, takeBack]
    by_cases held : event ∈ diff.1
    · grind
    · grind

theorem give_back_all (events : List CompressedStateEvent) (distinct : events.Nodup)
    (diff : CompressedState × CompressedState) (other : CompressedStateEvent) :
    (other ∈ (events.foldl giveBack diff).1 ↔ other ∈ diff.1 ∨ other ∈ events ∧ other ∉ diff.2) ∧
    (other ∈ (events.foldl giveBack diff).2 ↔ other ∈ diff.2 ∧ other ∉ events) := by
  have mirrored : events.foldl giveBack diff.swap.swap = (events.foldl takeBack diff.swap).swap := by
    refine foldl_hom Prod.swap fun diff event => ?_
    by_cases held : diff.1.contains event <;> simp [giveBack, takeBack, held]
  rw [← diff.swap_swap, mirrored]
  exact (take_back_all events distinct diff.swap other).symm

def stateOf (stack : ShortStateInfoVec) : CompressedState := stack.head?.elim ∅ ShortStateInfo.fullState

def IsDiff (base state added removed : CompressedState) : Prop :=
  Exact (members base) (members added) (members removed) ∧ members state = after (members base) (members added)
    (members removed)

def Layer (below : ShortStateInfoVec) (info : ShortStateInfo) : Prop :=
  IsDiff (stateOf below) info.fullState info.added info.removed

def Layered : ShortStateInfoVec → Prop
  | [] => True
  | info :: below => Layer below info ∧ Layered below

variable {statediffnew statediffremoved : CompressedState}

theorem merge_into_diff {base state : CompressedState} {parent : ShortStateInfo}
    (first : IsDiff base parent.fullState parent.added parent.removed)
    (second : IsDiff parent.fullState state statediffnew statediffremoved) : IsDiff base state
    (mergeInto parent statediffnew statediffremoved).1 (mergeInto parent statediffnew statediffremoved).2 := by
  obtain ⟨exact, reached⟩ := first
  obtain ⟨nextExact, nextReached⟩ := second
  rw [reached] at nextExact nextReached
  have apart := exact_apart nextExact
  have given := fun event => give_back_all statediffnew.toList (set_nodup _)
    (statediffremoved.toList.foldl takeBack (parent.added, parent.removed)) event
  have taken := fun event => take_back_all statediffremoved.toList (set_nodup _) (parent.added, parent.removed) event
  have added : members (mergeInto parent statediffnew statediffremoved).1 =
      (members parent.added \ members statediffremoved) ∪ (members statediffnew \ members parent.removed) := by
    ext event
    have new := apart event
    have member := (given event).1
    rw [(taken event).1, (taken event).2] at member
    simp only [mem_toList] at member
    simp only [members, Set.mem_ofPred_eq, Set.mem_union, Set.mem_sdiff, mergeInto, member] at new ⊢
    by_cases isNew : event ∈ statediffnew
    · simp [isNew, new isNew]
    · simp [isNew]
  have removed : members (mergeInto parent statediffnew statediffremoved).2 =
      (members parent.removed \ members statediffnew) ∪ (members statediffremoved \ members parent.added) := by
    ext event
    have new := apart event
    have member := (given event).2
    rw [(taken event).2] at member
    simp only [mem_toList] at member
    simp only [members, Set.mem_ofPred_eq, Set.mem_union, Set.mem_sdiff, mergeInto, member] at new ⊢
    by_cases isNew : event ∈ statediffnew
    · simp [isNew, new isNew]
    · simp [isNew]
  rw [IsDiff, added, removed, after_merge exact nextExact]
  exact ⟨exact_merge exact nextExact, nextReached⟩

theorem state_difference_diff (stack : ShortStateInfoVec) (state : CompressedState) :
    IsDiff (stateOf stack) state (stateDifference stack state).1 (stateDifference stack state).2 := by
  have between := exact_between (members (stateOf stack)) (members state)
  have differ : members (stateDifference stack state).1 = members state \ members (stateOf stack) ∧
      members (stateDifference stack state).2 = members (stateOf stack) \ members state := by
    cases stack with
    | nil =>
      change members state = members state \ members ∅ ∧ members ∅ = members ∅ \ members state
      rw [members_empty, Set.sdiff_empty, Set.empty_sdiff]
      exact ⟨rfl, rfl⟩
    | cons parent parents => exact ⟨members_without state parent.fullState, members_without parent.fullState state⟩
  rw [IsDiff, differ.1, differ.2]
  exact ⟨between.1, between.2.symm⟩

variable {stack : ShortStateInfoVec} {diffToSibling : Nat}

theorem state_diff_over_diff {state : CompressedState} {diff : StateDiff} (layered : Layered stack)
    (leads : IsDiff (stateOf stack) state statediffnew statediffremoved)
    (settled : stateDiffOver stack diffToSibling statediffnew statediffremoved = .ok diff) :
    ∃ kept, kept <:+ stack ∧ kept.length ≤ 3 ∧ diff.parent = kept.head?.map ShortStateInfo.shortstatehash ∧
    IsDiff (stateOf kept) state diff.added diff.removed := by
  induction stack generalizing diffToSibling statediffnew statediffremoved with
  | nil =>
    obtain ⟨_, _, isDiff⟩ := bind_ok settled
    cases isDiff
    exact ⟨[], suffix_rfl, Nat.zero_le 3, rfl, leads⟩
  | cons parent parents ih =>
    obtain ⟨layer, below⟩ := layered
    have merged := merge_into_diff layer leads
    have lower : ∀ {sibling}, stateDiffOver parents sibling (mergeInto parent statediffnew statediffremoved).1
      (mergeInto parent statediffnew statediffremoved).2 = .ok diff →
        ∃ kept, kept <:+ parent :: parents ∧ kept.length ≤ 3 ∧ diff.parent = kept.head?.map ShortStateInfo.shortstatehash ∧
          IsDiff (stateOf kept) state diff.added diff.removed := by
      intro sibling deeper
      obtain ⟨kept, suffix, found⟩ := ih below merged deeper
      exact ⟨kept, suffix.trans (suffix_cons parent parents), found⟩
    obtain ⟨diffsum, _, afterSum⟩ := bind_ok settled
    by_cases deep : (parent :: parents).length > 3
    · rw [if_pos deep] at afterSum
      exact lower afterSum
    · rw [if_neg deep] at afterSum
      obtain ⟨parentDiff, _, afterParent⟩ := bind_ok afterSum
      obtain ⟨square, _, afterSquare⟩ := bind_ok afterParent
      obtain ⟨double, _, afterDouble⟩ := bind_ok afterSquare
      obtain ⟨limit, _, compared⟩ := bind_ok afterDouble
      split at compared
      · exact lower compared
      · cases compared
        exact ⟨parent :: parents, suffix_rfl, Nat.le_of_not_gt deep, rfl, leads⟩

-- With this many events in a state no product of the comparison exceeds a word.
def mostEvents : Nat := 2 ^ 30

theorem checked_ok {value : Nat} (fits : value < 2 ^ 64) : checked value = .ok value := if_pos fits

theorem diff_sizes {base state added removed : CompressedState} (leads : IsDiff base state added removed) :
    added.size ≤ state.size ∧ removed.size ≤ base.size := by
  refine ⟨size_le_of_subset ?_, size_le_of_subset leads.1.held⟩
  rw [leads.2]
  exact added_subset_after leads.1

theorem state_of_small (small : ∀ info ∈ stack, info.fullState.size ≤ mostEvents) :
    (stateOf stack).size ≤ mostEvents := by
  cases stack with
  | nil => exact Nat.zero_le _
  | cons info below => exact small info mem_cons_self

theorem state_diff_over_ok {state : CompressedState} (layered : Layered stack)
    (leads : IsDiff (stateOf stack) state statediffnew statediffremoved) (small : ∀ info ∈ stack, info.fullState.size ≤
    mostEvents) (stateSmall : state.size ≤ mostEvents) (sibling : diffToSibling ≤ 2 * mostEvents) :
    ∃ diff, stateDiffOver stack diffToSibling statediffnew statediffremoved = .ok diff := by
  have most : mostEvents = 2 ^ 30 := rfl
  induction stack generalizing diffToSibling statediffnew statediffremoved with
  | nil =>
    obtain ⟨newSize, goneSize⟩ := diff_sizes leads
    have empty : (stateOf []).size = 0 := rfl
    rw [stateDiffOver, checked_ok (by omega)]
    exact ⟨_, rfl⟩
  | cons parent parents ih =>
    obtain ⟨layer, below⟩ := layered
    obtain ⟨newSize, goneSize⟩ := diff_sizes leads
    obtain ⟨parentNew, parentGone⟩ := diff_sizes layer
    have belowSmall : ∀ info ∈ parents, info.fullState.size ≤ mostEvents := fun info member => small info (mem_cons_of_mem parent member)
    have parentSmall := small parent mem_cons_self
    have baseSmall := state_of_small belowSmall
    have topSmall := state_of_small small
    let diffsum := statediffnew.size + statediffremoved.size
    let parentDiff := parent.added.size + parent.removed.size
    have sumSmall : diffsum ≤ 2 ^ 31 := by simp only [diffsum]; omega
    have parentDiffSmall : parentDiff ≤ 2 ^ 31 := by simp only [parentDiff]; omega
    have square : diffsum * diffsum ≤ 2 ^ 31 * 2 ^ 31 := Nat.mul_le_mul sumSmall sumSmall
    have double : 2 * diffToSibling ≤ 2 ^ 32 := by omega
    have limit : 2 * diffToSibling * parentDiff ≤ 2 ^ 32 * 2 ^ 31 := Nat.mul_le_mul double parentDiffSmall
    have lower : ∃ diff, stateDiffOver parents diffsum (mergeInto parent statediffnew statediffremoved).1
        (mergeInto parent statediffnew statediffremoved).2 = .ok diff := ih below (merge_into_diff layer leads) belowSmall (by omega)
    have sumChecked : checked (statediffnew.size + statediffremoved.size) = .ok diffsum := checked_ok (by omega)
    have parentChecked : checked (parent.added.size + parent.removed.size) = .ok parentDiff := checked_ok (by omega)
    have squareChecked : checked (diffsum * diffsum) = .ok (diffsum * diffsum) := checked_ok (by omega)
    have doubleChecked : checked (2 * diffToSibling) = .ok (2 * diffToSibling) := checked_ok (by omega)
    have limitChecked : checked (2 * diffToSibling * parentDiff) = .ok (2 * diffToSibling * parentDiff) := checked_ok (by omega)
    simp only [stateDiffOver, sumChecked, parentChecked, squareChecked, doubleChecked, limitChecked, bind, Except.bind, pure, Except.pure]
    split
    · exact lower
    · split
      · exact lower
      · exact ⟨_, rfl⟩

end GaussMatrix.Rooms.Compressor

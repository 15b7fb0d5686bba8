import GaussMatrix.Rooms.StateCompressor

namespace GaussMatrix.Rooms.Compressor

open BigEndian Collections Diffs Handlers List Option Runs Std Std.ExtTreeMap
open Database (Bytes)
open StateRes (EventId StateKey)

section

structure Proper (state : CompressedState) : Prop where
  named : Named state
  single : ∀ event ∈ state, ∀ other ∈ state, event.bytes.take 8 = other.bytes.take 8 → event = other

structure Stored (tables : StateTables) (below : ShortStateInfoVec) (info : ShortStateInfo) : Prop where
  layer : Layer below info
  proper : Proper info.fullState
  value : tables.shortstatehashStatediff[info.shortstatehash]? = some
    (StateDiff.value ⟨below.head?.map ShortStateInfo.shortstatehash, info.added, info.removed⟩)
  numbered : 0 < info.shortstatehash ∧ info.shortstatehash < 2 ^ 64

def Stacked (tables : StateTables) : ShortStateInfoVec → Prop
  | [] => True
  | info :: below => Stored tables below info ∧ Stacked tables below

structure IsStack (tables : StateTables) (short : Short) (stack : ShortStateInfoVec) : Prop where
  top : stack.head?.map ShortStateInfo.shortstatehash = some short
  stacked : Stacked tables stack
  depth : stack.length ≤ 4

def Filed (tables : StateTables) (cache : BTreeMap Short ShortStateInfoVec) : Prop :=
  ∀ (short : Short) (stack : ShortStateInfoVec), cache[short]? = some stack → IsStack tables short stack

variable {tables : StateTables} {stack below : ShortStateInfoVec} {info : ShortStateInfo} {short : Short}

theorem stacked_layered (stacked : Stacked tables stack) : Layered stack := by
  induction stack with
  | nil => trivial
  | cons info below ih => exact ⟨stacked.1.layer, ih stacked.2⟩

theorem stacked_suffix (stacked : Stacked tables stack) (suffix : below <:+ stack) : Stacked tables below := by
  induction stack with
  | nil =>
    obtain rfl := suffix_nil.mp suffix
    exact stacked
  | cons info rest ih =>
    rcases suffix_cons_iff.mp suffix with rfl | shorter
    · exact stacked
    · exact ih stacked.2 shorter

theorem stored_value_read (stored : Stored tables below info) (stacked : Stacked tables below) :
    getStatediff (StateDiff.value ⟨below.head?.map ShortStateInfo.shortstatehash, info.added, info.removed⟩) =
      ⟨below.head?.map ShortStateInfo.shortstatehash, info.added, info.removed⟩ := by
  apply statediff_round_trips
  refine ⟨fun event member => ?_, fun parent isParent => ?_⟩
  · have inState : event ∈ members info.fullState := by
      rw [stored.layer.2]
      exact added_subset_after stored.layer.1 member
    exact stored.proper.named event inState
  · cases below with
    | nil => cases isParent
    | cons next rest =>
      cases isParent
      exact stacked.1.numbered

theorem layer_full_state (layer : Layer below info) :
    info.fullState = fullStateOver (stateOf below) info.added info.removed := by
  apply members_injective
  rw [fullStateOver, members_after]
  exact layer.2

theorem bottom_full_state (layer : Layer [] info) : info.fullState = info.added := by
  have nothing : members info.removed = ∅ := Set.eq_empty_of_forall_notMem fun event member =>
    ExtTreeSet.not_mem_empty (layer.1.held event member)
  apply members_injective
  rw [layer.2, nothing]
  change (members ∅ ∪ members info.added) \ ∅ = members info.added
  rw [members_empty, Set.sdiff_empty, Set.empty_union]

theorem stack_unique {other : ShortStateInfoVec} (stacked : Stacked tables stack) (otherStacked : Stacked tables other)
    (same : stack.head?.map ShortStateInfo.shortstatehash = other.head?.map ShortStateInfo.shortstatehash) :
    stack = other := by
  induction stack generalizing other with
  | nil =>
    cases other with
    | nil => rfl
    | cons info below => cases same
  | cons info below ih =>
    cases other with
    | nil => cases same
    | cons otherInfo otherBelow =>
      have short : info.shortstatehash = otherInfo.shortstatehash := some.inj same
      have value := stacked.1.value
      rw [short, otherStacked.1.value] at value
      have diff := congrArg getStatediff (some.inj value)
      rw [stored_value_read stacked.1 stacked.2, stored_value_read otherStacked.1 otherStacked.2, StateDiff.mk.injEq] at diff
      obtain rfl := ih stacked.2 otherStacked.2 diff.1.symm
      have full := layer_full_state stacked.1.layer
      rw [← diff.2.1, ← diff.2.2, ← layer_full_state otherStacked.1.layer] at full
      cases info
      cases otherInfo
      simp_all

end

variable {cache : BTreeMap Short ShortStateInfoVec} {load : Short → Saving ShortStateInfoVec}

section

variable {session : StateSession} {stack : ShortStateInfoVec} {short : Short}

theorem filed_insert (filed : Filed session.tables cache) (found : IsStack session.tables short stack) :
    Filed session.tables (cache.insert short stack) := by
  intro other otherStack read
  by_cases same : other = short
  · subst same
    rw [getElem?_insert_self] at read
    exact some.inj read ▸ found
  · rw [insert_elsewhere same] at read
    exact filed other otherStack read

theorem new_info_bottom {info : ShortStateInfo} (stacked : Stacked session.tables [info]) :
    run (newShortstatehashInfo load info.shortstatehash) session = (.ok [info], session) := by
  have diff := stored_value_read stacked.1 stacked.2
  have full := bottom_full_state stacked.1.layer
  rw [newShortstatehashInfo, run_bind_ok (run_get session)]
  simp only [stacked.1.value, diff]
  exact congrArg (fun state =>
    (Except.ok [(⟨info.shortstatehash, state, info.added, info.removed⟩ : ShortStateInfo)], session)) full.symm

theorem new_info_upper {info next : ShortStateInfo} {rest : ShortStateInfoVec} {after : StateSession}
    (stacked : Stacked session.tables (info :: next :: rest))
    (loaded : run (load next.shortstatehash) session = (.ok (next :: rest), after)) :
    run (newShortstatehashInfo load info.shortstatehash) session = (.ok (info :: next :: rest), after) := by
  have diff := stored_value_read stacked.1 stacked.2
  have full := layer_full_state stacked.1.layer
  rw [newShortstatehashInfo, run_bind_ok (run_get session)]
  simp only [stacked.1.value, diff]
  simp only [head?_cons, map_some]
  rw [run_bind_ok loaded]
  exact congrArg (fun state =>
    (Except.ok (⟨info.shortstatehash, state, info.added, info.removed⟩ :: next :: rest), after)) full.symm

theorem load_stack (filed : Filed session.tables session.stateinfoCache) (found : IsStack session.tables short stack)
    {fuel : Nat} (enough : stack.length ≤ fuel) : ∃ cache, run (loadShortstatehashInfo fuel short) session =
    (.ok stack, { session with stateinfoCache := cache }) ∧ Filed session.tables cache := by
  induction stack generalizing short fuel with
  | nil => cases found.top
  | cons info below ih =>
    obtain rfl := some.inj found.top
    obtain ⟨more, rfl⟩ := Nat.exists_eq_succ_of_ne_zero (Nat.ne_zero_of_lt enough)
    cases cached : session.stateinfoCache[info.shortstatehash]? with
    | some other =>
      have isStack := filed _ other cached
      obtain rfl := stack_unique isStack.stacked found.stacked (isStack.top.trans found.top.symm)
      refine ⟨session.stateinfoCache, ?_, filed⟩
      rw [loadShortstatehashInfo, run_bind_ok (run_get session)]
      simp only [cached]
      rfl
    | none =>
      have computed : ∃ cache, run (newShortstatehashInfo (loadShortstatehashInfo more) info.shortstatehash) session =
          (.ok (info :: below), { session with stateinfoCache := cache }) ∧ Filed session.tables cache := by
        cases below with
        | nil => exact ⟨session.stateinfoCache, new_info_bottom found.stacked, filed⟩
        | cons next rest =>
          have parent : IsStack session.tables next.shortstatehash (next :: rest) := ⟨rfl, found.stacked.2, Nat.le_of_succ_le found.depth⟩
          obtain ⟨cache, loaded, filedAfter⟩ := ih parent (Nat.le_of_succ_le_succ enough)
          exact ⟨cache, new_info_upper found.stacked loaded, filedAfter⟩
      obtain ⟨cache, ran, filedAfter⟩ := computed
      refine ⟨cache.insert info.shortstatehash (info :: below), ?_, filed_insert filedAfter found⟩
      rw [loadShortstatehashInfo, run_bind_ok (run_get session)]
      simp only [cached]
      rw [run_bind_ok ran]
      rfl

theorem is_stack_written {tables : StateTables} (found : IsStack tables short stack) :
    ∃ value, tables.shortstatehashStatediff[short]? = some value := by
  cases stack with
  | nil => cases found.top
  | cons info below =>
    obtain rfl := some.inj found.top
    exact ⟨_, found.stacked.1.value⟩

theorem load_absent (filed : Filed session.tables session.stateinfoCache) (absent : session.tables.shortstatehashStatediff[short]? = none) {fuel : Nat} :
    run (loadShortstatehashInfo (fuel + 1) short) session = (.error (.database s!"Failed to find StateDiff from short {short}"), session) := by
  have uncached : session.stateinfoCache[short]? = none := by
    cases cached : session.stateinfoCache[short]? with
    | none => rfl
    | some stack =>
      obtain ⟨value, written⟩ := is_stack_written (filed short stack cached)
      cases absent.symm.trans written
  have failed : run (newShortstatehashInfo (loadShortstatehashInfo fuel) short) session =
    (.error (.database s!"Failed to find StateDiff from short {short}"), session) := by
    rw [newShortstatehashInfo, run_bind_ok (run_get session), absent]
    rfl
  rw [loadShortstatehashInfo, run_bind_ok (run_get session), uncached]
  exact run_bind_error failed

-- The digest is only asked to tell apart the states that are known to be hashed.
variable (digest : Bytes → Bytes) (known : Set CompressedState)

def Holds (tables : StateTables) (short : Short) (state : CompressedState) : Prop :=
  ∃ stack, IsStack tables short stack ∧ stateOf stack = state

theorem holds_written {tables : StateTables} {state : CompressedState} (holds : Holds tables short state) :
    ∃ value, tables.shortstatehashStatediff[short]? = some value := by
  obtain ⟨stack, found, _⟩ := holds
  exact is_stack_written found

structure StateTables.Sound (tables : StateTables) : Prop where
  counted : tables.count < 2 ^ 64
  keyed : ∀ (key : StateKey) (short : Short), tables.statekeyShortstatekey[key]? = some short → 0 < short ∧
    short ≤ tables.count
  drawn : ∀ (short : Short) (value : Bytes), tables.shortstatehashStatediff[short]? = some value → short ≤ tables.count
  stored : ∀ (short : Short) (value : Bytes), tables.shortstatehashStatediff[short]? = some value →
    ∃ state, Holds tables short state
  hashed : ∀ (stateHash : Bytes) (short : Short), tables.statehashShortstatehash[stateHash]? = some short →
    ∃ state ∈ known, stateHash = calculateHash digest state ∧ Holds tables short state
  rooms : ∀ (roomId : String) (short : Short), tables.roomidShortstatehash[roomId]? = some short →
    ∃ state, Holds tables short state

variable {digest known} {tables other : StateTables}

def KeepsDiffs (tables other : StateTables) : Prop :=
  ∀ (short : Short) (value : Bytes), tables.shortstatehashStatediff[short]? = some value →
    other.shortstatehashStatediff[short]? = some value

variable {entry : TableWrite} {short : Short} {stack : ShortStateInfoVec} {state : CompressedState}

section

variable (kept : KeepsDiffs tables other)

include kept

theorem stacked_kept (stacked : Stacked tables stack) : Stacked other stack := by
  induction stack with
  | nil => trivial
  | cons info below ih => exact ⟨{ stacked.1 with value := kept _ _ stacked.1.value }, ih stacked.2⟩

theorem is_stack_kept (found : IsStack tables short stack) : IsStack other short stack :=
  { found with stacked := stacked_kept kept found.stacked }

theorem holds_kept (holds : Holds tables short state) : Holds other short state := by
  obtain ⟨stack, found, top⟩ := holds
  exact ⟨stack, is_stack_kept kept found, top⟩

theorem filed_kept (filed : Filed tables cache) : Filed other cache :=
  fun short stack read => is_stack_kept kept (filed short stack read)

end

theorem holds_unique {otherState : CompressedState} (holds : Holds tables short state)
    (otherHolds : Holds tables short otherState) : state = otherState := by
  obtain ⟨stack, found, rfl⟩ := holds
  obtain ⟨otherStack, otherFound, rfl⟩ := otherHolds
  rw [stack_unique found.stacked otherFound.stacked (found.top.trans otherFound.top.symm)]

theorem fresh_keeps_diffs (fresh : tables.shortstatehashStatediff[short]? = none) (value : Bytes) :
    KeepsDiffs tables (tables.apply (.shortstatehashStatediff short value)) := by
  intro other otherValue read
  have different : other ≠ short := by
    rintro rfl
    rw [fresh] at read
    cases read
  exact (insert_elsewhere different).trans read

def Allowed (digest : Bytes → Bytes) (known : Set CompressedState) (tables : StateTables) : TableWrite → Prop
  | .count count => tables.count ≤ count ∧ count < 2 ^ 64
  | .statekeyShortstatekey _ short => 0 < short ∧ short ≤ tables.count
  | .statehashShortstatehash stateHash short =>
    ∃ state ∈ known, stateHash = calculateHash digest state ∧ Holds tables short state
  | .shortstatehashStatediff short value =>
    tables.shortstatehashStatediff[short]? = none ∧ short ≤ tables.count ∧
    ∃ state, Holds (tables.apply (.shortstatehashStatediff short value)) short state
  | .roomidShortstatehash _ short => ∃ state, Holds tables short state
  | _ => True

theorem allowed_keeps_diffs (allowed : Allowed digest known tables entry) : KeepsDiffs tables (tables.apply entry) := by
  intro short value read
  cases entry with
  | shortstatehashStatediff written writtenValue => exact fresh_keeps_diffs allowed.1 writtenValue short value read
  | _ => exact read

theorem read_inserted {K V : Type} [Ord K] [TransOrd K] [LawfulEqOrd K] {map : BTreeMap K V} {key other : K}
    {value held : V}
    (read : (map.insert key value)[other]? = some held) : other = key ∧ held = value ∨ map[other]? = some held := by
  by_cases same : other = key
  · subst same
    rw [getElem?_insert_self] at read
    exact .inl ⟨rfl, (some.inj read).symm⟩
  · rw [insert_elsewhere same] at read
    exact .inr read

theorem apply_sound (sound : tables.Sound digest known) (allowed : Allowed digest known tables entry) :
    (tables.apply entry).Sound digest known := by
  have kept := allowed_keeps_diffs allowed
  have stored : ∀ (short : Short) (value : Bytes), tables.shortstatehashStatediff[short]? = some value →
    ∃ state, Holds (tables.apply entry) short state := by
    intro short value read
    obtain ⟨state, holds⟩ := sound.stored short value read
    exact ⟨state, holds_kept kept holds⟩
  have hashed : ∀ (stateHash : Bytes) (short : Short), tables.statehashShortstatehash[stateHash]? = some short →
      ∃ state ∈ known, stateHash = calculateHash digest state ∧ Holds (tables.apply entry) short state := by
    intro stateHash short read
    obtain ⟨state, isKnown, same, holds⟩ := sound.hashed stateHash short read
    exact ⟨state, isKnown, same, holds_kept kept holds⟩
  have rooms : ∀ (roomId : String) (short : Short), tables.roomidShortstatehash[roomId]? = some short →
    ∃ state, Holds (tables.apply entry) short state := by
    intro roomId short read
    obtain ⟨state, holds⟩ := sound.rooms roomId short read
    exact ⟨state, holds_kept kept holds⟩
  cases entry with
  | count count =>
    refine ⟨allowed.2, fun key short read => ?_, fun short value read => ?_, stored, hashed, rooms⟩
    · obtain ⟨positive, below⟩ := sound.keyed key short read
      exact ⟨positive, below.trans allowed.1⟩
    · exact (sound.drawn short value read).trans allowed.1
  | statekeyShortstatekey key short =>
    refine ⟨sound.counted, fun otherKey otherShort read => ?_, sound.drawn, stored, hashed, rooms⟩
    rcases read_inserted read with written | before
    · exact written.2 ▸ allowed
    · exact sound.keyed otherKey otherShort before
  | statehashShortstatehash stateHash short =>
    refine ⟨sound.counted, sound.keyed, sound.drawn, stored, fun otherHash otherShort read => ?_, rooms⟩
    rcases read_inserted read with written | before
    · obtain ⟨state, isKnown, same, holds⟩ := allowed
      rw [written.1, written.2]
      exact ⟨state, isKnown, same, holds_kept kept holds⟩
    · exact hashed otherHash otherShort before
  | shortstatehashStatediff short value =>
    refine ⟨sound.counted, sound.keyed, fun otherShort otherValue read => ?_, fun otherShort otherValue read => ?_, hashed, rooms⟩
    · rcases read_inserted read with written | before
      · exact written.1 ▸ allowed.2.1
      · exact sound.drawn otherShort otherValue before
    · rcases read_inserted read with written | before
      · exact written.1 ▸ allowed.2.2
      · exact stored otherShort otherValue before
  | roomidShortstatehash roomId short =>
    refine ⟨sound.counted, sound.keyed, sound.drawn, stored, hashed, fun otherRoom otherShort read => ?_⟩
    rcases read_inserted read with written | before
    · obtain ⟨state, holds⟩ := allowed
      rw [written.2]
      exact ⟨state, holds_kept kept holds⟩
    · exact rooms otherRoom otherShort before
  | _ => exact ⟨sound.counted, sound.keyed, sound.drawn, stored, hashed, rooms⟩

def AllowedAll (digest : Bytes → Bytes) (known : Set CompressedState) : StateTables → List TableWrite → Prop
  | _, [] => True
  | tables, entry :: entries => Allowed digest known tables entry ∧ AllowedAll digest known (tables.apply entry) entries

theorem after_sound {entries : List TableWrite} (sound : tables.Sound digest known)
    (allowed : AllowedAll digest known tables entries) :
    (tables.after entries).Sound digest known ∧ KeepsDiffs tables (tables.after entries) := by
  induction entries generalizing tables with
  | nil => exact ⟨sound, fun _ _ read => read⟩
  | cons entry entries ih =>
    obtain ⟨first, rest⟩ := allowed
    obtain ⟨soundAfter, kept⟩ := ih (apply_sound sound first) rest
    exact ⟨soundAfter, fun short value read => kept short value (allowed_keeps_diffs first short value read)⟩

end

variable {digest : Bytes → Bytes} {known : Set CompressedState} {session middle after : StateSession}
  {entries later : List TableWrite} {tables : StateTables}

def Minor : TableWrite → Prop
  | .statehashShortstatehash _ _ => False
  | .shortstatehashStatediff _ _ => False
  | .roomidShortstatehash _ _ => False
  | _ => True

structure SameStates (tables other : StateTables) : Prop where
  hashes : other.statehashShortstatehash = tables.statehashShortstatehash
  diffs : other.shortstatehashStatediff = tables.shortstatehashStatediff
  rooms : other.roomidShortstatehash = tables.roomidShortstatehash

theorem minor_same_states (minor : ∀ entry ∈ entries, Minor entry) : SameStates tables (tables.after entries) := by
  induction entries generalizing tables with
  | nil => exact ⟨rfl, rfl, rfl⟩
  | cons entry entries ih =>
    have rest : SameStates (tables.apply entry) _ := ih fun other member => minor other (mem_cons_of_mem entry member)
    have first := minor entry mem_cons_self
    cases entry with
    | statehashShortstatehash | shortstatehashStatediff | roomidShortstatehash => exact first.elim
    | _ => exact ⟨rest.hashes, rest.diffs, rest.rooms⟩

theorem minor_keeps_diffs (entry : TableWrite) (minor : Minor entry) : KeepsDiffs tables (tables.apply entry) := by
  have same : SameStates tables (tables.after [entry]) :=
    minor_same_states fun other member => by rw [mem_singleton.mp member]; exact minor
  intro short value read
  rw [← same.diffs] at read
  exact read

theorem allowed_all_append :
    AllowedAll digest known tables (entries ++ later) ↔ AllowedAll digest known tables entries ∧
    AllowedAll digest known (tables.after entries) later := by
  induction entries generalizing tables with
  | nil => exact (and_iff_right trivial).symm
  | cons entry entries ih =>
    rw [cons_append, AllowedAll, AllowedAll, ih, and_assoc]
    rfl

structure Wrote (session after : StateSession) (entries : List TableWrite) : Prop where
  tables : after.tables = session.tables.after entries
  log : after.log = session.log ++ entries

theorem wrote_nothing : Wrote session session [] := ⟨rfl, (List.append_nil _).symm⟩

theorem wrote_put {entry : TableWrite} : Wrote session (session.put entry) [entry] := ⟨rfl, rfl⟩

theorem Wrote.trans (first : Wrote session middle entries) (second : Wrote middle after later) :
    Wrote session after (entries ++ later) := by
  refine ⟨?_, ?_⟩
  · rw [second.tables, first.tables]
    exact (foldl_append ..).symm
  · rw [second.log, first.log, append_assoc]

structure Prepared (digest : Bytes → Bytes) (known : Set CompressedState) (session after : StateSession)
    (entries : List TableWrite) : Prop extends Wrote session after entries where
  cache : after.stateinfoCache = session.stateinfoCache
  allowed : AllowedAll digest known session.tables entries
  minor : ∀ entry ∈ entries, Minor entry

theorem prepared_nothing (session : StateSession) : Prepared digest known session session [] :=
  { wrote_nothing with cache := rfl, allowed := trivial, minor := fun _ member => nomatch member }

theorem Prepared.trans (first : Prepared digest known session middle entries)
    (second : Prepared digest known middle after later) : Prepared digest known session after (entries ++ later) where
  toWrote := first.toWrote.trans second.toWrote
  cache := second.cache.trans first.cache
  allowed := by
    have allowed := second.allowed
    rw [first.tables] at allowed
    exact allowed_all_append.mpr ⟨first.allowed, allowed⟩
  minor := by
    intro entry member
    rcases mem_append.mp member with early | late
    · exact first.minor entry early
    · exact second.minor entry late

theorem Prepared.states (prepared : Prepared digest known session after entries) :
    SameStates session.tables after.tables := by
  rw [prepared.tables]
  exact minor_same_states prepared.minor

theorem Prepared.sound (prepared : Prepared digest known session after entries)
    (sound : session.tables.Sound digest known) (filed : Filed session.tables session.stateinfoCache) :
    after.tables.Sound digest known ∧ Filed after.tables after.stateinfoCache := by
  obtain ⟨soundAfter, kept⟩ := after_sound sound prepared.allowed
  rw [← prepared.tables] at soundAfter kept
  rw [prepared.cache]
  exact ⟨soundAfter, filed_kept kept filed⟩

theorem put_prepared (entry : TableWrite) (allowed : Allowed digest known session.tables entry) (minor : Minor entry) :
    Prepared digest known session (session.put entry) [entry] :=
  { wrote_put with
    cache := rfl
    allowed := ⟨allowed, trivial⟩
    minor := fun other member => by rw [List.mem_singleton.mp member]; exact minor }

def exhausted : SaveError := .panic "failed to obtain next sequence number"

theorem next_count_run : session.tables.count + 1 < 2 ^ 64 ∧
    run nextCount session = (.ok (session.tables.count + 1), session.put (.count (session.tables.count + 1))) ∨
      2 ^ 64 ≤ session.tables.count + 1 ∧ run nextCount session = (.error exhausted, session) := by
  rw [nextCount, run_bind_ok (run_get session)]
  split
  case isTrue room => exact .inl ⟨room, rfl⟩
  case isFalse full => exact Or.inr ⟨Nat.le_of_not_lt full, rfl⟩

theorem count_allowed (room : session.tables.count + 1 < 2 ^ 64) :
    Allowed digest known session.tables (.count (session.tables.count + 1)) := ⟨Nat.le_succ _, room⟩

section

variable (digest known session)

theorem create_short_run {Kept : Type} (forth back : Short → TableWrite)
    (allowed : ∀ tables : StateTables, 0 < tables.count → Allowed digest known tables (forth tables.count))
    (backAllowed : ∀ tables short, Allowed digest known tables (back short))
    (minor : ∀ short, Minor (forth short) ∧ Minor (back short))
    (kept : StateTables → Kept) (found : StateTables → Option Short) (written : ∀ tables short,
      kept (((tables.apply (.count short)).apply (forth short)).apply (back short)) = kept tables ∧
        found (((tables.apply (.count short)).apply (forth short)).apply (back short)) = some short) :
    ∃ outcome after entries, run (createShort forth back) session = (outcome, after) ∧
    Prepared digest known session after entries ∧ kept after.tables = kept session.tables ∧
      ((∃ short, outcome = .ok short ∧ found after.tables = some short) ∨ outcome = .error exhausted ∧ 2 ^ 64 ≤ after.tables.count + 1) := by
  rcases next_count_run with drawn | ended
  · obtain ⟨room, drawn⟩ := drawn
    let counted := session.put (.count (session.tables.count + 1))
    have first : Prepared digest known session counted _ := put_prepared _ (count_allowed room) trivial
    have second : Prepared digest known counted (counted.put (forth counted.tables.count)) _ :=
      put_prepared _ (allowed counted.tables (Nat.succ_pos _)) (minor _).1
    have third : Prepared digest known (counted.put (forth counted.tables.count)) _ _ :=
      put_prepared (back counted.tables.count) (backAllowed _ _) (minor _).2
    have stored := written session.tables counted.tables.count
    refine ⟨_, _, _, ?_, (first.trans second).trans third, stored.1, .inl ⟨counted.tables.count, rfl, stored.2⟩⟩
    rw [createShort, run_bind_ok drawn]
    rfl
  · refine ⟨_, _, _, ?_, prepared_nothing session, rfl, .inr ⟨rfl, ended.1⟩⟩
    rw [createShort, run_bind_error ended.2]

theorem shorteventid_run (eventId : EventId) :
    ∃ outcome after entries, run (getOrCreateShorteventid eventId) session = (outcome, after) ∧
    Prepared digest known session after entries ∧
      after.tables.statekeyShortstatekey = session.tables.statekeyShortstatekey ∧
      ((∃ short, outcome = .ok short ∧ after.tables.eventidShorteventid[eventId]? = some short) ∨
      outcome = .error exhausted ∧ 2 ^ 64 ≤ after.tables.count + 1) := by
  rw [getOrCreateShorteventid, run_bind_ok (run_get session)]
  cases found : session.tables.eventidShorteventid[eventId]? with
  | some short => exact ⟨.ok short, session, [], rfl, prepared_nothing session, rfl, .inl ⟨short, rfl, found⟩⟩
  | none =>
    exact create_short_run digest known session (.eventidShorteventid eventId) (.shorteventidEventid · eventId)
      (fun _ _ => trivial) (fun _ _ => trivial)
      (fun _ => ⟨trivial, trivial⟩) StateTables.statekeyShortstatekey (fun tables => tables.eventidShorteventid[eventId]?) fun _ _ =>
        ⟨rfl, getElem?_insert_self⟩

theorem shortstatekey_run {key : StateKey} :
    ∃ outcome after entries, run (getOrCreateShortstatekey key) session = (outcome, after) ∧
    Prepared digest known session after entries ∧
      after.tables.eventidShorteventid = session.tables.eventidShorteventid ∧
      ((∃ short, outcome = .ok short ∧ after.tables.statekeyShortstatekey[key]? = some short) ∨
      outcome = .error exhausted ∧ 2 ^ 64 ≤ after.tables.count + 1) := by
  rw [getOrCreateShortstatekey, run_bind_ok (run_get session)]
  cases found : session.tables.statekeyShortstatekey[key]? with
  | some short => exact ⟨.ok short, session, [], rfl, prepared_nothing session, rfl, .inl ⟨short, rfl, found⟩⟩
  | none =>
    exact create_short_run digest known session (.statekeyShortstatekey key) (.shortstatekeyStatekey · key)
      (fun _ positive => ⟨positive, le_rfl⟩)
      (fun _ _ => trivial) (fun _ => ⟨trivial, trivial⟩) StateTables.eventidShorteventid
        (fun tables => tables.statekeyShortstatekey[key]?) fun _ _ =>
        ⟨rfl, getElem?_insert_self⟩

end

variable {state : CompressedState} {fuel : Nat}

def Modest (tables : StateTables) : Prop := ∀ short state, Holds tables short state → state.size ≤ mostEvents

variable {tables : StateTables} {stateHash : Bytes} {statediffremoved statediffnew : CompressedState}
  {diffToSibling : Nat} {diff : StateDiff} {short : Short} {stack : ShortStateInfoVec}

theorem stacked_modest (modest : Modest tables) (stacked : Stacked tables stack) (depth : stack.length ≤ 4) :
    ∀ info ∈ stack, info.fullState.size ≤ mostEvents := by
  induction stack with
  | nil => exact fun info member => nomatch member
  | cons top below ih =>
    intro info member
    rcases mem_cons.mp member with rfl | inBelow
    · exact modest info.shortstatehash info.fullState ⟨info :: below, ⟨rfl, stacked, depth⟩, rfl⟩
    · exact ih stacked.2 (Nat.le_of_succ_le depth) info inBelow

def PreviousState (tables : StateTables) : Option Short → CompressedState → Prop
  | some short, state => Holds tables short state
  | none, state => state = ∅

theorem load_parents_run (filed : Filed session.tables session.stateinfoCache) {previous : Option Short}
    (held : ∀ short, previous = some short → ∃ state, Holds session.tables short state) (enough : 4 ≤ fuel) :
    ∃ stack cache, run (loadParents fuel previous) session = (.ok stack, { session with stateinfoCache := cache }) ∧
    Filed session.tables cache ∧
      Stacked session.tables stack ∧ stack.length ≤ 4 ∧ PreviousState session.tables previous (stateOf stack) := by
  cases previous with
  | none => exact ⟨[], session.stateinfoCache, rfl, filed, trivial, Nat.zero_le 4, rfl⟩
  | some short =>
    obtain ⟨_, stack, found, _⟩ := held short rfl
    obtain ⟨cache, loaded, filedAfter⟩ := load_stack filed found (found.depth.trans enough)
    exact ⟨stack, cache, loaded, filedAfter, found.stacked, found.depth, stack, found, rfl⟩

theorem new_layer_holds (stacked : Stacked tables stack)
    (leads : IsDiff (stateOf stack) state statediffnew statediffremoved)
    (settled : stateDiffOver stack diffToSibling statediffnew statediffremoved = .ok diff) (proper : Proper state)
    (fresh : tables.shortstatehashStatediff[short]? = none) (numbered : 0 < short ∧ short < 2 ^ 64) :
    Holds (tables.apply (.shortstatehashStatediff short diff.value)) short state := by
  obtain ⟨kept, suffix, depth, parent, keptLeads⟩ := state_diff_over_diff (stacked_layered stacked) leads settled
  refine ⟨⟨short, state, diff.added, diff.removed⟩ :: kept,
    ⟨rfl, ⟨⟨keptLeads, proper, ?_, numbered⟩, ?_⟩, Nat.succ_le_succ depth⟩, rfl⟩
  · rw [← parent]
    exact getElem?_insert_self
  · exact stacked_kept (fresh_keeps_diffs fresh diff.value) (stacked_suffix stacked suffix)

inductive SaveEnds (digest : Bytes → Bytes) (tables : StateTables) (state : CompressedState) :
    List TableWrite → Except SaveError Short → Prop where
  | existed (short : Short) (found : tables.statehashShortstatehash[calculateHash digest state]? = some short) :
      SaveEnds digest tables state [] (.ok short)
  | exhausted (full : 2 ^ 64 ≤ tables.count + 1) : SaveEnds digest tables state [] (.error exhausted)
  | overflowed (error : SaveError) (absent : tables.statehashShortstatehash[calculateHash digest state]? = none)
      (large : ¬ (Modest tables ∧ state.size ≤ mostEvents)) (room : tables.count + 1 < 2 ^ 64) :
      SaveEnds digest tables state [.count (tables.count + 1), .statehashShortstatehash (calculateHash digest state)
      (tables.count + 1)] (.error error)
  | saved (value : Bytes) (absent : tables.statehashShortstatehash[calculateHash digest state]? = none) (room : tables.count + 1 < 2 ^ 64)
      (holds : Holds (tables.after [.count (tables.count + 1), .shortstatehashStatediff (tables.count + 1) value]) (tables.count + 1) state) :
      SaveEnds digest tables state [.count (tables.count + 1), .statehashShortstatehash (calculateHash digest state) (tables.count + 1),
         .shortstatehashStatediff (tables.count + 1) value]
        (.ok (tables.count + 1))

theorem save_from_diff_ok (settled : stateDiffOver stack diffToSibling statediffnew statediffremoved = .ok diff) :
    run (saveStateFromDiff short statediffnew statediffremoved diffToSibling stack) session =
    (.ok (), session.put (.shortstatehashStatediff short diff.value)) := by
  rw [saveStateFromDiff, settled]
  rfl

theorem save_from_diff_error {error : SaveError}
    (settled : stateDiffOver stack diffToSibling statediffnew statediffremoved = .error error) : run
    (saveStateFromDiff short statediffnew statediffremoved diffToSibling stack) session = (.error error, session) := by
  rw [saveStateFromDiff, settled]
  rfl

theorem count_fresh (sound : tables.Sound digest known) : tables.shortstatehashStatediff[tables.count + 1]? = none := by
  cases read : tables.shortstatehashStatediff[tables.count + 1]? with
  | none => rfl
  | some value => exact absurd (sound.drawn _ value read) (Nat.not_succ_le_self _)

theorem save_new_run (sound : session.tables.Sound digest known) (filed : Filed session.tables session.stateinfoCache)
    (proper : Proper state) (absent : session.tables.statehashShortstatehash[calculateHash digest state]? = none)
    (room : session.tables.count + 1 < 2 ^ 64) {roomId : String}
    (enough : 4 ≤ fuel) (sibling : diffToSibling ≤ 2 * mostEvents) :
    let hashed := (session.put (.count (session.tables.count + 1))).put (.statehashShortstatehash (calculateHash digest state) (session.tables.count + 1))
    ∃ stack loaded outcome after entries, run (loadParents fuel session.tables.roomidShortstatehash[roomId]?) hashed = (.ok stack, loaded) ∧
      run (saveStateFromDiff (session.tables.count + 1)
        (stateDifference stack state).1 (stateDifference stack state).2 diffToSibling stack) loaded = (outcome, after) ∧
      Wrote session after entries ∧ Filed after.tables after.stateinfoCache ∧
      SaveEnds digest session.tables state entries (outcome.map fun _ => session.tables.count + 1) := by
  intro hashed
  let counted := session.tables.apply (.count (session.tables.count + 1))
  have keeps : KeepsDiffs session.tables hashed.tables := fun _ _ read => read
  have keepsBack : KeepsDiffs hashed.tables session.tables := fun _ _ read => read
  have rooms : ∀ short, session.tables.roomidShortstatehash[roomId]? = some short →
    ∃ state, Holds hashed.tables short state := by
    intro short read
    obtain ⟨held, holds⟩ := sound.rooms roomId short read
    exact ⟨held, holds_kept keeps holds⟩
  obtain ⟨stack, cache, loaded, filedAfter, stackedAfter, depth, _⟩ :=
    load_parents_run (filed_kept keeps filed) rooms enough
  have stacked := stacked_kept keepsBack stackedAfter
  have leads := state_difference_diff stack state
  have fresh := count_fresh sound
  let loadedSession : StateSession := { hashed with stateinfoCache := cache }
  refine ⟨stack, loadedSession, ?_⟩
  cases settled : stateDiffOver stack diffToSibling (stateDifference stack state).1 (stateDifference stack state).2 with
  | ok diff =>
    have keepsCounted : KeepsDiffs session.tables counted := fun _ _ read => read
    have holds := new_layer_holds (stacked_kept keepsCounted stacked) leads settled proper fresh ⟨Nat.succ_pos _, room⟩
    have freshHashed : hashed.tables.shortstatehashStatediff[session.tables.count + 1]? = none := fresh
    refine ⟨.ok (), loadedSession.put (.shortstatehashStatediff (session.tables.count + 1) diff.value), _, loaded, save_from_diff_ok settled,
      ⟨rfl, ?_⟩, filed_kept (fresh_keeps_diffs freshHashed diff.value) filedAfter, .saved diff.value absent room holds⟩
    simp [StateSession.put, loadedSession, hashed]
  | error error =>
    refine ⟨.error error, loadedSession, _, loaded, save_from_diff_error settled, ⟨rfl, ?_⟩, filedAfter, .overflowed error absent ?_ room⟩
    · simp [StateSession.put, loadedSession, hashed]
    · intro small
      obtain ⟨diff, isOk⟩ := state_diff_over_ok (stacked_layered stacked) leads (stacked_modest small.1 stacked depth) small.2 sibling
      cases settled.symm.trans isOk

def SaveRan (digest : Bytes → Bytes) (known : Set CompressedState) (session prepared after : StateSession)
    (state : CompressedState) (outcome : Except SaveError Short) : Prop :=
  ∃ early core late, Prepared digest known session prepared early ∧ Wrote prepared after (core ++ late) ∧
    Filed after.tables after.stateinfoCache ∧
    SaveEnds digest prepared.tables state core outcome ∧
      (∀ entry ∈ late, ∃ shorteventid short, entry = .shorteventidShortstatehash shorteventid short) ∧
    (outcome.isOk = false → late = [])

theorem hash_found_run (found : session.tables.statehashShortstatehash[stateHash]? = some short) :
    run (getOrCreateShortstatehash stateHash) session = (.ok (short, true), session) := by
  rw [getOrCreateShortstatehash, run_bind_ok (run_get session)]
  simp only [found]
  rfl

theorem hash_created_run (absent : session.tables.statehashShortstatehash[stateHash]? = none) :
    session.tables.count + 1 < 2 ^ 64 ∧ run (getOrCreateShortstatehash stateHash) session =
    (.ok (session.tables.count + 1, false),
          (session.put (.count (session.tables.count + 1))).put (.statehashShortstatehash stateHash (session.tables.count + 1))) ∨
      2 ^ 64 ≤ session.tables.count + 1 ∧ run (getOrCreateShortstatehash stateHash) session = (.error exhausted, session) := by
  rw [getOrCreateShortstatehash, run_bind_ok (run_get session)]
  simp only [absent]
  rcases next_count_run with drawn | ended
  · refine .inl ⟨drawn.1, ?_⟩
    rw [run_bind_ok drawn.2]
    rfl
  · exact .inr ⟨ended.1, run_bind_error ended.2⟩

theorem save_ran_core {outcome : Except SaveError Short} (wrote : Wrote session after entries)
    (filed : Filed after.tables after.stateinfoCache) (ends : SaveEnds digest session.tables state entries outcome) :
    SaveRan digest known session session after state outcome := by
  refine ⟨[], entries, [], prepared_nothing session, ?_, filed, ends, forall_mem_nil _, fun _ => rfl⟩
  rw [append_nil]
  exact wrote

theorem holds_drawn (sound : session.tables.Sound digest known) (holds : Holds session.tables short state) :
    short ≤ session.tables.count := by
  obtain ⟨value, written⟩ := holds_written holds
  exact sound.drawn short value written

variable {roomId : String}

theorem save_state_found (filed : Filed session.tables session.stateinfoCache)
    (held : ∀ short, session.tables.roomidShortstatehash[roomId]? = some short →
    ∃ state, Holds session.tables short state)
    (found : session.tables.statehashShortstatehash[calculateHash digest state]? = some short) (enough : 4 ≤ fuel) :
    ∃ result cache, run (saveState digest fuel roomId state) session =
    (.ok result, { session with stateinfoCache := cache }) ∧
      result.shortstatehash = short ∧ Filed session.tables cache := by
  rw [saveState, run_bind_ok (run_get session), run_bind_ok (hash_found_run found)]
  simp only
  split
  · exact ⟨⟨short, ∅, ∅⟩, session.stateinfoCache, rfl, rfl, filed⟩
  · obtain ⟨stack, cache, loaded, filedAfter, _⟩ := load_parents_run filed held enough
    rw [run_bind_ok (run_try_ok loaded)]
    exact ⟨⟨short, (stateDifference stack state).1, (stateDifference stack state).2⟩, cache, rfl, rfl, filedAfter⟩

theorem save_state_run (sound : session.tables.Sound digest known) (filed : Filed session.tables session.stateinfoCache)
    (proper : Proper state) (enough : 4 ≤ fuel) :
    ∃ outcome after, run (saveState digest fuel roomId state) session = (outcome, after) ∧
      SaveRan digest known session session after state (outcome.map HashSetCompressStateEvent.shortstatehash) := by
  cases found : session.tables.statehashShortstatehash[calculateHash digest state]? with
  | some short =>
    obtain ⟨result, cache, ran, isShort, filedAfter⟩ := save_state_found filed (sound.rooms roomId) found enough
    refine ⟨.ok result, _, ran, save_ran_core ⟨rfl, (append_nil _).symm⟩ filedAfter ?_⟩
    rw [Except.map, isShort]
    exact .existed short found
  | none =>
    rw [saveState, run_bind_ok (run_get session)]
    rcases hash_created_run found with created | ended
    · obtain ⟨room, created⟩ := created
      rw [run_bind_ok created]
      have sibling : 2 ≤ 2 * mostEvents := by decide
      obtain ⟨stack, loadedSession, outcome, after, entries, loaded, saved, wrote, filedAfter, ends⟩ :=
        save_new_run sound filed proper found room enough sibling
      have different : some (session.tables.count + 1) ≠ session.tables.roomidShortstatehash[roomId]? := by
        intro same
        obtain ⟨_, holds⟩ := sound.rooms roomId _ same.symm
        exact absurd (holds_drawn sound holds) (Nat.not_succ_le_self _)
      simp only [if_neg different]
      rw [run_bind_ok (run_try_ok loaded)]
      cases outcome with
      | ok _ =>
        refine ⟨.ok ⟨session.tables.count + 1, (stateDifference stack state).1, (stateDifference stack state).2⟩, after,
          ?_, save_ran_core wrote filedAfter ends⟩
        simp only [Bool.false_eq_true, if_false]
        rw [run_bind_ok saved]
        rfl
      | error error =>
        refine ⟨.error error, after, ?_, save_ran_core wrote filedAfter ends⟩
        exact run_bind_error saved
    · exact ⟨.error exhausted, session, run_bind_error ended.2, save_ran_core wrote_nothing filed (.exhausted ended.1)⟩

theorem set_event_state_run (sound : session.tables.Sound digest known)
    (filed : Filed session.tables session.stateinfoCache) (proper : Proper state)
    (enough : 4 ≤ fuel) {eventId : EventId} :
    ∃ outcome after, run (setEventState digest fuel eventId roomId state) session = (outcome, after) ∧
      SaveRan digest known session (run (getOrCreateShorteventid eventId) session).2 after state outcome := by
  obtain ⟨named, prepared, early, namedRun, isPrepared, _, ends⟩ := shorteventid_run digest known session eventId
  obtain ⟨soundPrepared, filedPrepared⟩ := isPrepared.sound sound filed
  rw [namedRun]
  rcases ends with created | ended
  · obtain ⟨shorteventid, rfl, _⟩ := created
    rw [setEventState, run_bind_ok namedRun, run_bind_ok (run_get prepared)]
    cases found : prepared.tables.statehashShortstatehash[calculateHash digest state]? with
    | some short =>
      rw [run_bind_ok (hash_found_run found)]
      refine ⟨.ok short, prepared.put (.shorteventidShortstatehash shorteventid short), rfl, early, [], _, isPrepared,
        wrote_put, filed_kept (minor_keeps_diffs (.shorteventidShortstatehash shorteventid short) trivial)
          filedPrepared, .existed short found, fun entry member => ?_, fun failed => nomatch failed⟩
      exact ⟨shorteventid, short, mem_singleton.mp member⟩
    | none =>
      rcases hash_created_run found with created | ended
      · obtain ⟨room, created⟩ := created
        have sibling : 1000000 ≤ 2 * mostEvents := by decide
        obtain ⟨stack, loadedSession, outcome, after, entries, loaded, saved, wrote, filedAfter, ends⟩ :=
          save_new_run soundPrepared filedPrepared proper found room enough sibling
        rw [run_bind_ok created]
        simp only [Bool.false_eq_true, if_false]
        rw [run_bind_ok loaded]
        cases outcome with
        | ok _ =>
          refine ⟨.ok (prepared.tables.count + 1), after.put (.shorteventidShortstatehash shorteventid (prepared.tables.count + 1)), ?_,
            early, entries, _, isPrepared, wrote.trans wrote_put,
              filed_kept (minor_keeps_diffs (.shorteventidShortstatehash _ _) trivial) filedAfter, ends,
            fun entry member => ?_, fun failed => nomatch failed⟩
          · rw [run_bind_ok saved]
            rfl
          · exact ⟨shorteventid, prepared.tables.count + 1, mem_singleton.mp member⟩
        | error error =>
          refine ⟨.error error, after, run_bind_error saved, early, entries, [], isPrepared, ?_, filedAfter, ends, forall_mem_nil _, fun _ => rfl⟩
          rw [append_nil]
          exact wrote
      · exact ⟨.error exhausted, prepared, run_bind_error ended.2, early, [], [], isPrepared, wrote_nothing, filedPrepared, .exhausted ended.1,
          forall_mem_nil _, fun _ => rfl⟩
  · obtain ⟨rfl, full⟩ := ended
    refine ⟨.error exhausted, prepared, ?_, early, [], [], isPrepared, wrote_nothing, filedPrepared, .exhausted full,
      forall_mem_nil _, fun _ => rfl⟩
    rw [setEventState, run_bind_error namedRun]

end GaussMatrix.Rooms.Compressor

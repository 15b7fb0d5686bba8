import GaussMatrix.Database.Keys
import GaussMatrix.Library.BigEndian
import GaussMatrix.Library.Diffs

namespace GaussMatrix.Rooms.Compressor

open BigEndian Collections List Std ExtTreeSet
open Database (Bytes)

abbrev Short := Nat

structure CompressedStateEvent where
  bytes : Bytes
  size : bytes.length = 16
deriving DecidableEq

instance : Ord CompressedStateEvent := ⟨compareOn CompressedStateEvent.bytes⟩

instance : TransOrd CompressedStateEvent := inferInstanceAs (TransCmp (compareOn CompressedStateEvent.bytes))

instance : LawfulEqOrd CompressedStateEvent where
  eq_of_compare := by
    intro event other same
    have bytes : event.bytes = other.bytes := LawfulEqCmp.eq_of_compare same
    cases event
    cases other
    cases bytes
    rfl

abbrev CompressedState := BTreeSet CompressedStateEvent

def compressStateEvent (shortstatekey shorteventid : Short) : CompressedStateEvent :=
  ⟨toBytes 8 shortstatekey ++ toBytes 8 shorteventid, by rw [List.length_append, to_bytes_length, to_bytes_length]⟩

def CompressedStateEvent.startsWith (event : CompressedStateEvent) (shortstatekey : Short) : Bool :=
  (toBytes 8 shortstatekey).isPrefixOf event.bytes

structure StateDiff where
  parent : Option Short
  added : CompressedState
  removed : CompressedState

def joined (state : CompressedState) : Bytes := state.toList.flatMap CompressedStateEvent.bytes

def StateDiff.value (diff : StateDiff) : Bytes := toBytes 8 (diff.parent.getD 0) ++ joined diff.added ++
    if diff.removed.isEmpty then [] else toBytes 8 0 ++ joined diff.removed

def readEvents : Nat → Bool → Bytes → CompressedState → CompressedState → CompressedState × CompressedState
  | 0, _, _, added, removed => (added, removed)
  | turns + 1, addMode, value, added, removed =>
    if fits : 16 ≤ value.length then
      let event : CompressedStateEvent := ⟨value.take 16, by rw [List.length_take, Nat.min_eq_left fits]⟩
      if addMode && event.startsWith 0 then readEvents turns false (value.drop 8) added removed
      else if addMode then readEvents turns true (value.drop 16) (added.insert event) removed
      else readEvents turns false (value.drop 16) added (removed.insert event)
    else (added, removed)

def getStatediff (value : Bytes) : StateDiff :=
  let parent := ofBytes (value.take 8)
  let (added, removed) := readEvents value.length true (value.drop 8) ∅ ∅
  ⟨if parent ≠ 0 then some parent else none, added, removed⟩

variable (events : List CompressedStateEvent) (diff : StateDiff) (event : CompressedStateEvent) (shortstatekey : Short)
  (turns : Nat) (rest : Bytes)

theorem take_event : (event.bytes ++ rest).take 16 = event.bytes := List.take_left' event.size

theorem drop_event : (event.bytes ++ rest).drop 16 = rest := List.drop_left' event.size

theorem event_fits : 16 ≤ (event.bytes ++ rest).length := by
  rw [length_append, event.size]
  omega

theorem read_added {event : CompressedStateEvent} (named : event.startsWith 0 = false) (rest : Bytes)
    (added removed : CompressedState) : readEvents (turns + 1) true (event.bytes ++ rest) added removed =
    readEvents turns true rest (added.insert event) removed := by
  simp only [readEvents, event_fits, take_event, drop_event, named, dite_true, Bool.and_false, Bool.false_eq_true,
    if_true, if_false]

theorem read_removed (event : CompressedStateEvent) (rest : Bytes) (added removed : CompressedState) :
    readEvents (turns + 1) false (event.bytes ++ rest) added removed = readEvents turns false rest added
    (removed.insert event) := by
  simp only [readEvents, event_fits, take_event, drop_event, dite_true, Bool.false_and, Bool.false_eq_true, if_false]

theorem read_marker (more : 8 ≤ rest.length) (added removed : CompressedState) :
    readEvents (turns + 1) true (toBytes 8 0 ++ rest) added removed = readEvents turns false rest added removed := by
  have word := to_bytes_length 8 0
  have fits : 16 ≤ (toBytes 8 0 ++ rest).length := by
    rw [length_append, word]
    omega
  have marked : ((toBytes 8 0).isPrefixOf ((toBytes 8 0 ++ rest).take 16)) = true := by
    rw [ isPrefixOf_iff_prefix, take_append, word]
    exact prefix_append _ _
  simp only [readEvents, CompressedStateEvent.startsWith, fits, marked, drop_left' word, dite_true,
    Bool.and_self, if_true]

theorem read_added_all (named : ∀ event ∈ events, event.startsWith 0 = false) (turns : Nat) (rest : Bytes)
    (added removed : CompressedState) :
    readEvents (turns + events.length) true (events.flatMap CompressedStateEvent.bytes ++ rest) added removed =
      readEvents turns true rest (events.foldl (fun set => set.insert) added) removed := by
  induction events generalizing added with
  | nil => rfl
  | cons event events ih =>
    rw [flatMap_cons, append_assoc, length_cons, ← Nat.add_assoc, read_added _ (named event mem_cons_self),
      ih fun other member => named other (mem_cons_of_mem event member)]
    rfl

theorem read_removed_all (added removed : CompressedState) :
    readEvents (turns + events.length) false (events.flatMap CompressedStateEvent.bytes) added removed =
      (added, events.foldl (fun set => set.insert) removed) := by
  induction events generalizing removed with
  | nil => cases turns <;> rfl
  | cons event events ih =>
    rw [flatMap_cons, length_cons, ← Nat.add_assoc, read_removed, ih]
    rfl

theorem joined_length (state : CompressedState) : (joined state).length = 16 * state.size := by
  rw [joined, length_flatMap, ← length_toList, map_congr_left fun event _ => event.size, map_const', sum_replicate,
    smul_eq_mul, Nat.mul_comm]

-- No short state key is zero, so the marker is not taken for an event.
def Named (state : CompressedState) : Prop := ∀ event ∈ state, event.startsWith 0 = false

structure StateDiff.Writable (diff : StateDiff) : Prop where
  named : Named diff.added
  parent : ∀ parent, diff.parent = some parent → 0 < parent ∧ parent < 2 ^ 64

theorem read_value_events (named : Named diff.added) {turns : Nat}
    (enough : diff.added.size + 1 + diff.removed.size ≤ turns) : readEvents turns true (joined diff.added ++
    if diff.removed.isEmpty then [] else toBytes 8 0 ++ joined diff.removed) ∅ ∅ = (diff.added, diff.removed) := by
  obtain ⟨extra, rfl⟩ := Nat.exists_eq_add_of_le' enough
  have turnsLeft : extra + (diff.added.size + 1 + diff.removed.size) = (extra + diff.removed.size) + 1 +
    diff.added.toList.length := by
    rw [length_toList]
    omega
  rw [turnsLeft, joined, read_added_all _ fun event member => named event (mem_toList.mp member), Diffs.insert_all_list]
  split
  case isTrue empty =>
    rw [isEmpty_iff.mp empty]
    rfl
  case isFalse nonempty =>
    have positive : diff.removed.size ≠ 0 := fun none => nonempty (isEmpty_eq_size_beq_zero.trans (beq_iff_eq.mpr none))
    rw [read_marker _ _ (by rw [joined_length]; omega), joined, ← length_toList, read_removed_all, Diffs.insert_all_list]

theorem statediff_round_trips (writable : diff.Writable) : getStatediff diff.value = diff := by
  have word := to_bytes_length 8 (diff.parent.getD 0)
  have behind : diff.value.drop 8 = joined diff.added ++ if diff.removed.isEmpty then [] else toBytes 8 0 ++
    joined diff.removed := by
    rw [StateDiff.value, append_assoc, drop_left' word]
  have first : ofBytes (diff.value.take 8) = diff.parent.getD 0 := by
    rw [StateDiff.value, append_assoc, take_left' word]
    apply of_to_bytes_of_lt
    cases parent : diff.parent with
    | none => decide
    | some short => exact (writable.parent short parent).2
  have long : diff.added.size + 1 + diff.removed.size ≤ diff.value.length := by
    rw [StateDiff.value, length_append, length_append, word, joined_length]
    split
    case isTrue empty =>
      rw [isEmpty_iff.mp empty, size_empty]
      omega
    case isFalse nonempty =>
      rw [length_append, joined_length]
      omega
  simp only [getStatediff, behind, first, read_value_events diff writable.named long]
  cases parent : diff.parent with
  | none =>
    cases diff
    cases parent
    rfl
  | some short =>
    have positive : short ≠ 0 := (writable.parent short parent).1.ne'
    cases diff
    cases parent
    simp [positive]

theorem starts_with_iff : event.startsWith shortstatekey = true ↔ event.bytes.take 8 = toBytes 8 shortstatekey := by
  rw [CompressedStateEvent.startsWith, isPrefixOf_iff_prefix, prefix_iff_eq_take, to_bytes_length, eq_comm]

theorem compress_starts_with (shorteventid : Short) :
    (compressStateEvent shortstatekey shorteventid).startsWith shortstatekey = true := by
  rw [starts_with_iff]
  exact take_left' (to_bytes_length 8 shortstatekey)

theorem starts_with_unique {event : CompressedStateEvent} {key other : Short} (small : key < 2 ^ 64)
    (otherSmall : other < 2 ^ 64)
    (starts : event.startsWith key = true) (otherStarts : event.startsWith other = true) : key = other := by
  have value : ofBytes (toBytes 8 key) = key := of_to_bytes_of_lt small
  have otherValue : ofBytes (toBytes 8 other) = other := of_to_bytes_of_lt otherSmall
  rw [starts_with_iff] at starts otherStarts
  rw [← value, ← otherValue, ← starts, ← otherStarts]

end GaussMatrix.Rooms.Compressor

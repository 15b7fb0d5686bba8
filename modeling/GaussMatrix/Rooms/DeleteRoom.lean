import GaussMatrix.Database.Keys
import GaussMatrix.Rooms.PduCount

namespace GaussMatrix.Rooms.DeleteRoom

open BigEndian Collections Database List Std Std.ExtTreeMap
open Timeline (Id RawId.ofId ShortRoomId)

def tokenId (id : Id) (word : String) : Bytes := toBytes 8 id.shortroomid ++ (bytes word ++ SEP :: RawId.ofId id)

structure Tables where
  tokenids : BTreeMap Bytes Unit
  threadidUserids : BTreeMap Bytes Bytes
  indexed : ∀ key, key ∈ tokenids → ∃ id word, key = tokenId id word
  rooted : ∀ key, key ∈ threadidUserids → ∃ id, key = RawId.ofId id

def indexWord (id : Id) (tables : Tables) (word : String) : Tables :=
  { tables with
    tokenids := tables.tokenids.insert (tokenId id word) ()
    indexed := fun key member => by
      rcases ExtTreeMap.mem_insert.mp member with same | before
      · exact ⟨id, word, (LawfulEqOrd.eq_of_compare same).symm⟩
      · exact tables.indexed key before }

def indexPdu (tables : Tables) (id : Id) (words : List String) : Tables := words.foldl (indexWord id) tables

def updateParticipants (tables : Tables) (root : Id) (participants : List String) : Tables :=
  { tables with
    threadidUserids := tables.threadidUserids.insert (RawId.ofId root) (serializeKey (participants.map bytes))
    rooted := fun key member => by
      rcases ExtTreeMap.mem_insert.mp member with same | before
      · exact ⟨root, (LawfulEqOrd.eq_of_compare same).symm⟩
      · exact tables.rooted key before }

section

variable {Room : Type} [Identifier Room]

def deleteAllSearchTokenidsForRoom (tables : Tables) (room : Room) : Tables :=
  { tables with
    tokenids := removeScanned tables.tokenids (serializeKey [bytes room, interfix])
    indexed := fun key member => tables.indexed key ((remove_scanned_member _).mp member).1 }

def deleteAllRoomsThreads (tables : Tables) (room : Room) : Tables :=
  { tables with
    threadidUserids := removeScanned tables.threadidUserids (serializeKey [bytes room, interfix])
    rooted := fun key member => tables.rooted key ((remove_scanned_member _).mp member).1 }

-- The other steps of delete_room do not touch these tables.
def deleteRoom (tables : Tables) (room : Room) : Tables :=
  deleteAllSearchTokenidsForRoom (deleteAllRoomsThreads tables room) room

end

def Belongs (short : ShortRoomId) (key : Bytes) : Prop := toBytes 8 short <+: key

instance (short : ShortRoomId) (key : Bytes) : Decidable (Belongs short key) := inferInstanceAs (Decidable (_ <+: _))

structure Erased (short : ShortRoomId) (before after : Tables) : Prop where
  tokensGone : ∀ key ∈ after.tokenids, ¬ Belongs short key
  threadsGone : ∀ key ∈ after.threadidUserids, ¬ Belongs short key
  tokensKept : ∀ key, ¬ Belongs short key → after.tokenids[key]? = before.tokenids[key]?
  threadsKept : ∀ key, ¬ Belongs short key → after.threadidUserids[key]? = before.threadidUserids[key]?

def Aligned {Room V : Type} [Identifier Room] (room : Room) (short : ShortRoomId) (rows : BTreeMap Bytes V) : Prop :=
  ∀ key ∈ rows, Belongs short key ↔ serializeKey [bytes room, interfix] <+: key

section

variable {Room : Type} [Identifier Room] {V : Type}

theorem scan_erases_iff (room : Room) (short : ShortRoomId) (rows : BTreeMap Bytes V) :
    ((∀ key ∈ removeScanned rows (serializeKey [bytes room, interfix]), ¬ Belongs short key) ∧
      ∀ key, ¬ Belongs short key → (removeScanned rows (serializeKey [bytes room, interfix]))[key]? = rows[key]?) ↔
      Aligned room short rows := by
  constructor
  · rintro ⟨gone, kept⟩ key held
    constructor
    · intro belongs
      by_contra outside
      exact gone key ((remove_scanned_member _).mpr ⟨held, outside⟩) belongs
    · intro inside
      by_contra foreign
      have same := kept key foreign
      rw [remove_scanned_lookup, if_pos inside] at same
      exact absurd (mem_iff_isSome_getElem?.mp held) (by rw [← same]; exact Bool.false_ne_true)
  · intro aligned
    refine ⟨fun key member belongs => ?_, fun key foreign => ?_⟩
    · obtain ⟨held, outside⟩ := (remove_scanned_member _).mp member
      exact outside ((aligned key held).mp belongs)
    · rw [remove_scanned_lookup]
      split
      case isTrue inside => exact (getElem?_eq_none fun held => foreign ((aligned key held).mpr inside)).symm
      case isFalse => rfl

theorem delete_room_erased {tables : Tables} {room : Room} {short : ShortRoomId} :
    Erased short tables (deleteRoom tables room) ↔ Aligned room short tables.tokenids ∧
    Aligned room short tables.threadidUserids := by
  rw [← scan_erases_iff, ← scan_erases_iff]
  refine ⟨fun erased => ⟨⟨erased.tokensGone, erased.tokensKept⟩, erased.threadsGone, erased.threadsKept⟩,
    fun both => ?_⟩
  exact ⟨both.1.1, both.2.1, both.1.2, both.2.2⟩

def Low (key : Bytes) : Prop := ∃ short, short < 33 * 2 ^ 56 ∧ toBytes 8 short <+: key

def RoomMark (room : Room) : Prop := (bytes room).head? = some 33

variable {room : Room}

theorem low_unscanned (mark : RoomMark room) {key : Bytes} (low : Low key) :
    ¬ serializeKey [bytes room, interfix] <+: key := by
  intro inside
  obtain ⟨short, small, starts⟩ := low
  obtain ⟨rest, first⟩ := to_bytes_first 7 short
  obtain ⟨more, text⟩ := head?_eq_some_iff.mp mark
  rw [serialize_pair, text, cons_append] at inside
  rw [first] at starts
  obtain ⟨tail, rfl⟩ := inside
  have same : UInt8.ofNat (short / 256 ^ 7) = 33 := (cons_prefix_cons.mp starts).1
  have value := congrArg UInt8.toNat same
  rw [UInt8.toNat_ofNat'] at value
  have quotient : short / 256 ^ 7 < 33 := Nat.div_lt_of_lt_mul (by omega)
  have thirtyThree : (33 : UInt8).toNat = 33 := rfl
  omega

theorem low_scan_removes_nothing (mark : RoomMark room) {rows : BTreeMap Bytes V} (low : ∀ key ∈ rows, Low key) :
    removeScanned rows (serializeKey [bytes room, interfix]) = rows := by
  refine ext_getElem? fun key => ?_
  rw [remove_scanned_lookup]
  split
  case isTrue inside => exact (getElem?_eq_none fun held => low_unscanned mark (low key held) inside).symm
  case isFalse => rfl

theorem low_room_untouched {tables : Tables} (mark : RoomMark room) (tokens : ∀ key ∈ tables.tokenids, Low key)
    (threads : ∀ key ∈ tables.threadidUserids, Low key) : deleteRoom tables room = tables := by
  obtain ⟨tokenids, threadidUserids, _, _⟩ := tables
  rw [deleteRoom, deleteAllSearchTokenidsForRoom, deleteAllRoomsThreads, Tables.mk.injEq]
  exact ⟨low_scan_removes_nothing mark tokens, low_scan_removes_nothing mark threads⟩

end

theorem delete_room_erases_iff {Room : Type} [Identifier Room] (tables : Tables) (room : Room) (short : ShortRoomId) :
    (Erased short tables (deleteRoom tables room) ↔ Aligned room short tables.tokenids ∧
    Aligned room short tables.threadidUserids) ∧
      (RoomMark room → (∀ key ∈ tables.tokenids, Low key) → (∀ key ∈ tables.threadidUserids, Low key) → deleteRoom tables room = tables ∧
          (Erased short tables (deleteRoom tables room) ↔ (∀ key ∈ tables.tokenids, ¬ Belongs short key) ∧
          ∀ key ∈ tables.threadidUserids, ¬ Belongs short key)) := by
  refine ⟨delete_room_erased, fun mark tokens threads => ?_⟩
  have untouched := low_room_untouched mark tokens threads
  refine ⟨untouched, ?_⟩
  rw [untouched]
  exact ⟨fun erased => ⟨erased.tokensGone, erased.threadsGone⟩, fun gone =>
    ⟨gone.1, gone.2, fun _ _ => rfl, fun _ _ => rfl⟩⟩

def emptyTables : Tables where
  tokenids := ∅
  threadidUserids := ∅
  indexed := fun _ member => absurd member ExtTreeMap.not_mem_empty
  rooted := fun _ member => absurd member ExtTreeMap.not_mem_empty

def oneMessage : Tables :=
  updateParticipants (indexPdu emptyTables ⟨1, .normal 5⟩ ["hello", "world"]) ⟨1, .normal 4⟩ ["@a:x", "@b:x"]

theorem low_of_keys {rows : BTreeMap Bytes V} (low : ∀ key ∈ rows.keys, toBytes 8 1 <+: key) : ∀ key ∈ rows, Low key :=
  fun key member => ⟨1, by decide, low key (ExtTreeMap.mem_keys.mpr member)⟩

theorem one_message_untouched : deleteRoom oneMessage "!r:x" = oneMessage :=
  ((delete_room_erases_iff oneMessage "!r:x" 1).2 rfl (low_of_keys (by decide +kernel))
    (low_of_keys (by decide +kernel))).1

theorem deleted_room_keeps_rows :
    tokenId ⟨1, .normal 5⟩ "hello" ∈ (deleteRoom oneMessage "!r:x").tokenids ∧
    RawId.ofId ⟨1, .normal 4⟩ ∈ (deleteRoom oneMessage "!r:x").threadidUserids ∧
      Belongs 1 (tokenId ⟨1, .normal 5⟩ "hello") ∧ Belongs 1 (RawId.ofId ⟨1, .normal 4⟩) ∧
      ¬ Erased 1 oneMessage (deleteRoom oneMessage "!r:x") := by
  have token : tokenId ⟨1, .normal 5⟩ "hello" ∈ (deleteRoom oneMessage "!r:x").tokenids := by decide +kernel
  refine ⟨token, by decide +kernel, by decide +kernel, by decide +kernel, fun erased => ?_⟩
  exact erased.tokensGone _ token (by decide +kernel)

end GaussMatrix.Rooms.DeleteRoom

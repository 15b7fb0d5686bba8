import GaussMatrix.Database.Serde
import GaussMatrix.Library.NestedMap
import GaussMatrix.Store.Backend

namespace GaussMatrix.Users.KeyBackups

open Collections Database List NestedMap SortedScan Std
open Store (DomainTree prefixScan prefix_scan_row prefix_scan_filter prefix_scan_nodup)

section

variable {User Room : Type} [Identifier User] [Identifier Room]

structure SessionId (User Room : Type) where
  user : User
  version : String
  room : Room
  session : String
deriving DecidableEq

def SessionId.key (id : SessionId User Room) : Bytes :=
  serializeKey [bytes id.user, bytes id.version, bytes id.room, bytes id.session]

-- deserialize_key into (Ignore, Ignore, &RoomId, &str).
def deserializeRoomSession (Room : Type) [Identifier Room] (buf : Bytes) : Option (Room × String) :=
  (Deserializer.nextElement { buf := buf, pos := 0, record := 0, seq := 4 }).bind fun first =>
    first.recordNext.2.nextElement.bind fun second =>
      second.recordNext.2.nextElement.bind fun third =>
        (parse third.recordNext.1).bind fun room =>
          third.recordNext.2.nextElement.bind fun fourth => (parse fourth.recordNext.1).map fun session => (room, session)

theorem serialize_triple (a b c : Bytes) : serializeKey [a, b, c] = a ++ SEP :: (b ++ SEP :: c) := by
  simp [serializeKey, Serializer.serializeElement, Serializer.recordStart]

theorem serialize_quad (a b c d : Bytes) : serializeKey [a, b, c, d] = a ++ SEP :: (b ++ SEP :: (c ++ SEP :: d)) := by
  simp [serializeKey, Serializer.serializeElement, Serializer.recordStart]

theorem next_record {d : Deserializer} {front record : Bytes} (rest : Bytes) (plain : SEP ∉ record)
    (whole : d.buf = front ++ SEP :: (record ++ rest))
    (placed : d.pos = front.length) (started : 0 < d.record) (ends : rest.head?.all (· == SEP)) :
    ∃ next : Deserializer, d.nextElement = some next ∧ next.recordNext.1 = record ∧
    next.recordNext.2.buf = (front ++ SEP :: record) ++ rest ∧
      next.recordNext.2.pos = (front ++ SEP :: record).length ∧ 0 < next.recordNext.2.record := by
  have begins := next_element_later whole placed started
  have behind : d.buf = (front ++ [SEP]) ++ (record ++ rest) := by
    rw [whole, append_assoc]
    rfl
  have placedBehind : d.pos + 1 = (front ++ [SEP]).length := by
    rw [placed, length_append, length_singleton]
  have read := record_next_plain (d := ⟨d.buf, d.pos + 1, d.record + 1, d.seq⟩) plain behind placedBehind ends
  refine ⟨_, begins, ?_, ?_, ?_, ?_⟩
  · rw [read]
  · rw [read]
    simp [whole]
  · rw [read]
    simp [placed, length_append]
    omega
  · rw [read]
    exact Nat.succ_pos _

theorem session_decodes (id : SessionId User Room) :
    deserializeRoomSession Room id.key = some (id.room, id.session) := by
  rw [SessionId.key, serialize_quad]
  let tail : Bytes := bytes id.room ++ SEP :: bytes id.session
  let rest : Bytes := SEP :: (bytes id.version ++ SEP :: tail)
  have first : Deserializer.nextElement ⟨bytes id.user ++ rest, 0, 0, 4⟩ = some ⟨bytes id.user ++ rest, 0, 1, 4⟩ := by
    simp [Deserializer.nextElement, Deserializer.recordStart]
  have whole : bytes id.user ++ rest = [] ++ (bytes id.user ++ rest) := rfl
  have user := record_next_plain (d := ⟨bytes id.user ++ rest, 0, 1, 4⟩) (Identifier.unseparated id.user) whole rfl rfl
  obtain ⟨second, begins, -, buf, pos, later⟩ :=
    next_record (d := ⟨bytes id.user ++ rest, 0 + (bytes id.user).length, 1, 4⟩) (SEP :: tail)
      (Identifier.unseparated id.version) rfl (Nat.zero_add _) Nat.one_pos rfl
  obtain ⟨third, beginsThird, isRoom, buf, pos, later⟩ :=
    next_record (SEP :: bytes id.session) (Identifier.unseparated id.room) buf pos later rfl
  rw [← append_nil (bytes id.session)] at buf
  obtain ⟨fourth, beginsFourth, isSession, -⟩ := next_record [] (Identifier.unseparated id.session) buf pos later rfl
  rw [deserializeRoomSession, first, Option.bind_some, user, begins, Option.bind_some, beginsThird, Option.bind_some,
    isRoom, Identifier.parse_bytes, Option.bind_some,
    beginsFourth, Option.bind_some, isSession, Identifier.parse_bytes, Option.map_some]

theorem key_injective {id other : SessionId User Room} (same : id.key = other.key) : id = other := by
  rw [SessionId.key, SessionId.key, serialize_quad, serialize_quad] at same
  obtain ⟨users, same⟩ := separated_injective (Identifier.unseparated id.user) (Identifier.unseparated other.user) same
  obtain ⟨versions, same⟩ := separated_injective (Identifier.unseparated id.version)
    (Identifier.unseparated other.version) same
  obtain ⟨rooms, sessions⟩ := separated_injective (Identifier.unseparated id.room)
    (Identifier.unseparated other.room) same
  obtain ⟨user, version, room, session⟩ := id
  rw [SessionId.mk.injEq]
  exact ⟨bytes_injective users, bytes_injective versions, bytes_injective rooms, bytes_injective sessions⟩

theorem field_extends {Id : Type} [Identifier Id] (a b : Id) (rest otherRest : Bytes) :
    bytes a ++ SEP :: rest <+: bytes b ++ SEP :: otherRest ↔ b = a ∧ rest <+: otherRest := by
  rw [separated_extends (Identifier.unseparated a) (Identifier.unseparated b)]
  exact and_congr_left fun _ => ⟨fun same => (bytes_injective same).symm, fun same => same ▸ rfl⟩

variable (id : SessionId User Room) (user : User) (version : String) (room : Room) (session : String)

theorem version_block : serializeKey [bytes user, bytes version, interfix] <+: id.key ↔ id.user = user ∧
    id.version = version := by
  rw [SessionId.key, serialize_quad, serialize_triple, field_extends, field_extends, interfix,
    and_iff_left List.nil_prefix]

theorem version_extends : serializeKey [bytes user, bytes version] <+: id.key ↔ id.user = user ∧
    bytes version <+: bytes id.version := by
  rw [SessionId.key, serialize_quad, serialize_pair, field_extends, extends_separated (Identifier.unseparated version)]

theorem session_extends : serializeKey [bytes user, bytes version, bytes room, bytes session] <+: id.key ↔
      id.user = user ∧ id.version = version ∧ id.room = room ∧ bytes session <+: bytes id.session := by
  rw [SessionId.key, serialize_quad, serialize_quad, field_extends, field_extends, field_extends]

end

structure Data (User Room : Type) [Identifier User] [Identifier Room] where
  backupidAlgorithm : DomainTree String
  backupidEtag : DomainTree Nat
  backupkeyidBackup : DomainTree String
  keyed : ∀ key, key ∈ backupkeyidBackup → ∃ id : SessionId User Room, key = id.key

section

variable {User Room : Type} [Identifier User] [Identifier Room]

def getSession (data : Data User Room) (id : SessionId User Room) : Option String := data.backupkeyidBackup[id.key]?

variable (data : Data User Room) (user : User) (version : String) (id : SessionId User Room) (room : Room)

theorem inserted_keyed (keyData : String) (key : Bytes) (member : key ∈ data.backupkeyidBackup.insert id.key keyData) :
    ∃ id : SessionId User Room, key = id.key := by
  rcases ExtTreeMap.mem_insert.mp member with same | before
  · exact ⟨id, (LawfulEqOrd.eq_of_compare same).symm⟩
  · exact data.keyed key before

def putSession (data : Data User Room) (id : SessionId User Room) (keyData : String) : Data User Room :=
  { data with
    backupkeyidBackup := data.backupkeyidBackup.insert id.key keyData
    keyed := inserted_keyed data id keyData }

def addKey (data : Data User Room) (id : SessionId User Room) (keyData : String) (count : Nat) :
    Except String (Data User Room) :=
  let key := serializeKey [bytes id.user, bytes id.version]
  if data.backupidAlgorithm.contains key then
    .ok (putSession { data with backupidEtag := data.backupidEtag.insert key count } id keyData)
  else .error "Tried to update nonexistent backup."

def removePrefix (data : Data User Room) (elements : List Bytes) : Data User Room :=
  { data with
    backupkeyidBackup := removeScanned data.backupkeyidBackup (serializeKey elements)
    keyed := fun key member => data.keyed key ((remove_scanned_member _).mp member).1 }

def deleteBackup (data : Data User Room) (user : User) (version : String) : Data User Room :=
  let key := serializeKey [bytes user, bytes version]
  removePrefix
    { data with backupidAlgorithm := data.backupidAlgorithm.erase key, backupidEtag := data.backupidEtag.erase key }
    [bytes user, bytes version, interfix]

def deleteAllKeys (data : Data User Room) (user : User) (version : String) : Data User Room :=
  removePrefix data [bytes user, bytes version, interfix]

def deleteRoomKeys (data : Data User Room) (user : User) (version : String) (room : Room) : Data User Room :=
  removePrefix data [bytes user, bytes version, bytes room, interfix]

def deleteRoomKey (data : Data User Room) (user : User) (version : String) (room : Room) (session : String) :
    Data User Room :=
  removePrefix data [bytes user, bytes version, bytes room, bytes session]

def countKeys (data : Data User Room) (user : User) (version : String) : Nat :=
  (keysRawPrefix data.backupkeyidBackup (serializeKey [bytes user, bytes version])).length

theorem remove_prefix_session (elements : List Bytes) (id : SessionId User Room) :
    getSession (removePrefix data elements) id = if serializeKey elements <+: id.key then none
    else getSession data id :=
  remove_scanned_lookup data.backupkeyidBackup

theorem delete_room_key_session (session : String) (id : SessionId User Room) [DecidableEq User] [DecidableEq Room] :
    getSession (deleteRoomKey data user version room session) id =
      if id.user = user ∧ id.version = version ∧ id.room = room ∧ bytes session <+: bytes id.session then none else getSession data id := by
  rw [deleteRoomKey, remove_prefix_session]
  exact if_congr (session_extends id user version room session) rfl rfl

theorem bulk_deletions_exact [DecidableEq User] [DecidableEq Room] :
    getSession (deleteBackup data user version) id = getSession (deleteAllKeys data user version) id ∧
    getSession (deleteAllKeys data user version) id =
    (if id.user = user ∧ id.version = version then none else getSession data id) ∧
    getSession (deleteRoomKeys data user version room) id = if id.user = user ∧ id.version = version ∧
    id.room = room then none else getSession data id := by
  refine ⟨rfl, (remove_prefix_session ..).trans (if_congr (version_block ..) rfl rfl),
    (remove_prefix_session ..).trans (if_congr ?_ rfl rfl)⟩
  rw [SessionId.key, serialize_quad, serialize_quad, field_extends, field_extends, field_extends, interfix,
    and_iff_left nil_prefix]

variable [Ord Room] [TransOrd Room] [LawfulEqOrd Room]

def versionEntries (data : Data User Room) (user : User) (version : String) : List ((Room × String) × String) :=
  (prefixScan data.backupkeyidBackup (serializeKey [bytes user, bytes version, interfix])).filterMap fun row =>
    (deserializeRoomSession Room row.1).map fun id => (id, row.2)

def getAll (data : Data User Room) (user : User) (version : String) : Nested Room String String :=
  fill (versionEntries data user version)

omit [Ord Room] [TransOrd Room] [LawfulEqOrd Room] in
theorem version_entries_member {data : Data User Room} {user : User} {version : String} (pair : Room × String)
    (keyData : String) : (pair, keyData) ∈ versionEntries data user version ↔
    getSession data ⟨user, version, pair.1, pair.2⟩ = some keyData := by
  rw [versionEntries, mem_filterMap]
  constructor
  · rintro ⟨⟨key, value⟩, scanned, decoded⟩
    obtain ⟨held, inside⟩ := (prefix_scan_row _ _ _).mp scanned
    obtain ⟨id, rfl⟩ := data.keyed key (mem_iff_read.mpr ⟨_, held⟩)
    obtain ⟨rfl, rfl⟩ := (version_block id user version).mp inside
    rw [session_decodes, Option.map_some] at decoded
    cases decoded
    exact held
  · intro held
    refine ⟨((⟨user, version, pair.1, pair.2⟩ : SessionId User Room).key, keyData), (prefix_scan_row _ _ _).mpr ⟨held, ?_⟩, ?_⟩
    · exact (version_block _ user version).mpr ⟨rfl, rfl⟩
    · rw [session_decodes]
      rfl

theorem get_all_session (data : Data User Room) {user : User} {version : String} {pair : Room × String} :
    read (getAll data user version) pair = getSession data ⟨user, version, pair.1, pair.2⟩ :=
  read_fill version_entries_member

theorem get_all_size (data : Data User Room) (user : User) (version : String) :
    size (getAll data user version) =
    (keysRawPrefix data.backupkeyidBackup (serializeKey [bytes user, bytes version, interfix])).length := by
  have keyOf : Function.Injective fun pair : Room × String =>
    (⟨user, version, pair.1, pair.2⟩ : SessionId User Room).key := by
    intro pair other same
    have ids := key_injective same
    rw [SessionId.mk.injEq] at ids
    exact Prod.ext ids.2.2.1 ids.2.2.2
  have distinct := scanned_nodup data.backupkeyidBackup (serializeKey [bytes user, bytes version, interfix])
  have perm := (perm_ext_iff_of_nodup ((pairs_nodup (getAll data user version)).map keyOf) distinct).mpr fun key => ?_
  · rw [size_pairs, ← perm.length_eq, length_map]
  · rw [scanned_key, mem_map]
    constructor
    · rintro ⟨pair, listed, rfl⟩
      obtain ⟨value, held⟩ := (pairs_member pair).mp listed
      rw [get_all_session] at held
      exact ⟨ExtTreeMap.mem_iff_isSome_getElem?.mpr (by rw [← getSession, held]; rfl), (version_block _ user version).mpr ⟨rfl, rfl⟩⟩
    · rintro ⟨held, inside⟩
      obtain ⟨id, rfl⟩ := data.keyed key held
      obtain ⟨rfl, rfl⟩ := (version_block id user version).mp inside
      obtain ⟨value, present⟩ := mem_iff_read.mp held
      exact ⟨(id.room, id.session), (pairs_member _).mpr ⟨value, (get_all_session data).trans present⟩, rfl⟩

end

section

variable {User Room : Type} [Identifier User] [Identifier Room]

def Stored (data : Data User Room) (id : SessionId User Room) : Prop := ∃ keyData, getSession data id = some keyData

def VersionApart (data : Data User Room) (user : User) (version : String) : Prop :=
  ∀ id, Stored data id → id.user = user → bytes version <+: bytes id.version → id.version = version

def SessionApart (data : Data User Room) (user : User) (version : String) (room : Room) (session : String) : Prop :=
  ∀ id, Stored data id → id.user = user → id.version = version → id.room = room → bytes session <+: bytes id.session →
    id.session = session

variable {data : Data User Room}

theorem stored_iff {id : SessionId User Room} : Stored data id ↔ id.key ∈ data.backupkeyidBackup := by
  rw [mem_iff_read]
  rfl

theorem shorter_scan_finds_more (rows : DomainTree String) {pfx longer : Bytes} (inside : pfx <+: longer) :
    (keysRawPrefix rows longer).Sublist (keysRawPrefix rows pfx) := by
  rw [keys_raw_prefix_filter, keys_raw_prefix_filter]
  refine monotone_filter_right _ fun key found => ?_
  exact decide_eq_true (inside.trans (of_decide_eq_true found))

theorem count_keys_apart (data : Data User Room) (user : User) (version : String) :
    countKeys data user version = (keysRawPrefix data.backupkeyidBackup
    (serializeKey [bytes user, bytes version, interfix])).length ↔ VersionApart data user version := by
  have inside : serializeKey [bytes user, bytes version] <+: serializeKey [bytes user, bytes version, interfix] := by
    rw [serialize_pair, serialize_triple, interfix, ← cons_append, ← append_assoc]
    exact prefix_append _ _
  have sublist := shorter_scan_finds_more data.backupkeyidBackup inside
  constructor
  · intro lengths id stored sameUser extends'
    have found := (scanned_key _ _ _).mpr ⟨stored_iff.mp stored, (version_extends id user version).mpr ⟨sameUser, extends'⟩⟩
    rw [← sublist.eq_of_length lengths.symm, scanned_key] at found
    exact ((version_block id user version).mp found.2).2
  · intro apart
    refine Nat.le_antisymm ?_ sublist.length_le
    refine (subperm_of_subset (scanned_nodup _ _) fun key found => ?_).length_le
    · obtain ⟨held, reaches⟩ := (scanned_key _ _ _).mp found
      obtain ⟨id, rfl⟩ := data.keyed key held
      obtain ⟨sameUser, extends'⟩ := (version_extends id user version).mp reaches
      have sameVersion := apart id (stored_iff.mpr held) sameUser extends'
      exact (scanned_key _ _ _).mpr ⟨held, (version_block id user version).mpr ⟨sameUser, sameVersion⟩⟩

theorem delete_room_key_apart [DecidableEq User] [DecidableEq Room] {user : User} {version : String} (room : Room)
    (session : String) : (∀ id, getSession (deleteRoomKey data user version room session) id = if id =
    ⟨user, version, room, session⟩ then none else getSession data id) ↔
      SessionApart data user version room session := by
  constructor
  · intro frame id stored sameUser sameVersion sameRoom extends'
    by_contra different
    have kept := frame id
    rw [delete_room_key_session, if_pos ⟨sameUser, sameVersion, sameRoom, extends'⟩, if_neg fun same =>
      different (congrArg SessionId.session same)] at kept
    obtain ⟨keyData, held⟩ := stored
    cases kept.trans held
  · intro apart id
    rw [delete_room_key_session]
    by_cases same : id = ⟨user, version, room, session⟩
    · rw [if_pos same, if_pos]
      subst same
      exact ⟨rfl, rfl, rfl, prefix_rfl⟩
    · rw [if_neg same]
      split
      case isTrue reached =>
        obtain ⟨sameUser, sameVersion, sameRoom, extends'⟩ := reached
        cases held : getSession data id with
        | none => rfl
        | some keyData =>
          have sameSession := apart id ⟨keyData, held⟩ sameUser sameVersion sameRoom extends'
          obtain ⟨_, _, _, _⟩ := id
          cases sameUser
          cases sameVersion
          cases sameRoom
          cases sameSession
          exact absurd rfl same
      case isFalse => rfl

end

theorem addressed_keys_exact {User Room : Type} [Identifier User] [Identifier Room] [DecidableEq User]
    [DecidableEq Room] [Ord Room] [TransOrd Room]
    [LawfulEqOrd Room] (data : Data User Room) (user : User) (version : String) :
    (countKeys data user version = size (getAll data user version) ↔ VersionApart data user version) ∧ ∀ room session,
        (∀ id, getSession (deleteRoomKey data user version room session) id = if id =
        ⟨user, version, room, session⟩ then none else getSession data id) ↔
          SessionApart data user version room session := by
  refine ⟨?_, delete_room_key_apart⟩
  rw [get_all_size]
  exact count_keys_apart data user version

def emptyData : Data String String where
  backupidAlgorithm := ∅
  backupidEtag := ∅
  backupkeyidBackup := ∅
  keyed := fun _ member => absurd member ExtTreeMap.not_mem_empty

def sampleData : Data String String :=
  putSession (putSession (putSession emptyData ⟨"@u:x", "1", "!r:x", "abc"⟩ "a") ⟨"@u:x", "1", "!r:x", "abcd"⟩ "b")
    ⟨"@u:x", "12", "!r:x", "abc"⟩ "c"

theorem twelve_apart : VersionApart sampleData "@u:x" "12" :=
  (addressed_keys_exact sampleData "@u:x" "12").1.mp (by decide +kernel)

theorem longer_names_reached : countKeys sampleData "@u:x" "1" = 3 ∧ size (getAll sampleData "@u:x" "1") = 2 ∧
    getSession sampleData ⟨"@u:x", "1", "!r:x", "abcd"⟩ = some "b" ∧
      getSession (deleteRoomKey sampleData "@u:x" "1" "!r:x" "abc") ⟨"@u:x", "1", "!r:x", "abcd"⟩ = none := by
  decide +kernel

end GaussMatrix.Users.KeyBackups

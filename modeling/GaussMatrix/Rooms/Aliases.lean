import GaussMatrix.Database.Keys
import GaussMatrix.Library.BigEndian
import GaussMatrix.Library.Runs
import GaussMatrix.Store.Backend

namespace GaussMatrix.Rooms.Aliases

open BigEndian Collections Database List Runs SortedScan Std ExtTreeMap
open Store (prefixScan prefix_scan_row)

structure Alias where
  localpart : String
  server : String
deriving DecidableEq

structure Config where
  serverName : String
  serverUser : String
  adminAlias : Alias

variable {count : Nat} {roomAlias listed : Alias} {localpart : String} {number : Nat} {user : String}

section

variable {Room : Type} [Identifier Room]

def aliasKey (room : Room) (count : Nat) : Database.Bytes := serializeKey [bytes room, toBytes 8 count]

structure Tables (Room : Type) [Identifier Room] where
  aliasUserid : BTreeMap String String
  aliasRoomid : BTreeMap String Room
  aliasidAlias : BTreeMap Database.Bytes Alias
  count : Nat
  keyed : ∀ key, key ∈ aliasidAlias → ∃ (room : Room) (number : Nat), key = aliasKey room number ∧ number ≤ count
  fits : count < 2 ^ 64

def roomBlock (room : Room) : Database.Bytes := serializeKey [bytes room, interfix]

def localAliasesForRoom (tables : Tables Room) (room : Room) : List Alias :=
  (prefixScan tables.aliasidAlias (roomBlock room)).map Prod.snd

def checkAliasLocal (config : Config) (roomAlias : Alias) : Except String Unit :=
  if roomAlias.server = config.serverName then .ok () else .error "Alias is from another server."

def resolveLocalAlias (config : Config) (tables : Tables Room) (roomAlias : Alias) : Except String Room :=
  (checkAliasLocal config roomAlias).bind fun _ =>
    match tables.aliasRoomid[roomAlias.localpart]? with
    | some room => .ok room
    | none => .error "Not found in database"

theorem inserted_keyed (tables : Tables Room) (room : Room) (later : tables.count < count) (roomAlias : Alias)
    (key : Database.Bytes) (member : key ∈ tables.aliasidAlias.insert (aliasKey room count) roomAlias) :
    ∃ (room : Room) (number : Nat), key = aliasKey room number ∧ number ≤ count := by
  rcases mem_insert.mp member with same | before
  · exact ⟨room, count, (LawfulEqOrd.eq_of_compare same).symm, Nat.le_refl count⟩
  · obtain ⟨other, number, isKey, below⟩ := tables.keyed key before
    exact ⟨other, number, isKey, below.trans (Nat.le_of_lt later)⟩

-- The count is what next_count gives: a number that was never given before.
def putAlias (tables : Tables Room) (roomAlias : Alias) (room : Room) (user : String) (count : Nat)
    (later : tables.count < count) (fits : count < 2 ^ 64) : Tables Room where
  aliasUserid := tables.aliasUserid.insert roomAlias.localpart user
  aliasRoomid := tables.aliasRoomid.insert roomAlias.localpart room
  aliasidAlias := tables.aliasidAlias.insert (aliasKey room count) roomAlias
  count := count
  keyed := inserted_keyed tables room later roomAlias
  fits := fits

def setAliasBy (config : Config) (tables : Tables Room) (roomAlias : Alias) (room : Room) (user : String) (count : Nat)
    (later : tables.count < count) (fits : count < 2 ^ 64) : Except String (Tables Room) :=
  (checkAliasLocal config roomAlias).bind fun _ =>
    if roomAlias = config.adminAlias ∧ user ≠ config.serverUser then .error "Only the server user can set this alias"
    else .ok (putAlias tables roomAlias room user count later fits)

section

variable (tables : Tables Room)

def dropAlias (localpart : String) (room : Room) : Tables Room :=
  { tables with
    aliasUserid := tables.aliasUserid.erase localpart
    aliasRoomid := tables.aliasRoomid.erase localpart
    aliasidAlias := removeScanned tables.aliasidAlias (roomBlock room)
    keyed := fun key member => tables.keyed key ((remove_scanned_member _).mp member).1 }

def removeAlias (roomAlias : Alias) : Except String (Tables Room) :=
  match tables.aliasRoomid[roomAlias.localpart]? with
  | some room => .ok (dropAlias tables roomAlias.localpart room)
  | none => .error "Alias does not exist or is invalid."

def removeLogged (roomAlias : Alias) : Tables Room :=
  match removeAlias tables roomAlias with
  | .ok after => after
  | .error _ => tables

def deleteRoomAliases (room : Room) : Tables Room := (localAliasesForRoom tables room).foldl removeLogged tables

end

inductive Act (Room : Type) where
  | setAliasBy (roomAlias : Alias) (room : Room) (user : String) (count : Nat)
  | removeAlias (roomAlias : Alias)
  | deleteRoom (room : Room)

def step (config : Config) (tables : Tables Room) : Act Room → Option (Tables Room)
  | .setAliasBy roomAlias room user count =>
    if fresh : tables.count < count ∧ count < 2 ^ 64 then
      match setAliasBy config tables roomAlias room user count fresh.1 fresh.2 with
      | .ok after => some after
      | .error _ => some tables
    else none
  | .removeAlias roomAlias => some (removeLogged tables roomAlias)
  | .deleteRoom room => some (deleteRoomAliases tables room)

variable (tables : Tables Room)

theorem block_key {room other : Room} : roomBlock room <+: aliasKey other number ↔ other = room := by
  rw [roomBlock, aliasKey, serialize_pair, serialize_pair, separated_extends (Identifier.unseparated room)
    (Identifier.unseparated other), interfix, and_iff_left nil_prefix]
  exact ⟨fun same => (bytes_injective same).symm, fun same => same ▸ rfl⟩

variable {room other : Room}

theorem alias_key_injective {another : Nat} (fits : number < 2 ^ 64) (otherFits : another < 2 ^ 64)
    (same : aliasKey room number = aliasKey other another) : room = other ∧ number = another := by
  rw [aliasKey, aliasKey, serialize_pair, serialize_pair] at same
  obtain ⟨rooms, numbers⟩ := separated_injective (Identifier.unseparated room) (Identifier.unseparated other) same
  refine ⟨bytes_injective rooms, ?_⟩
  rw [← of_to_bytes_of_lt (show number < 256 ^ 8 from fits), numbers,
    of_to_bytes_of_lt (show another < 256 ^ 8 from otherFits)]

theorem listed_iff (room : Room) (roomAlias : Alias) :
    roomAlias ∈ localAliasesForRoom tables room ↔ ∃ number, number ≤ tables.count ∧
    tables.aliasidAlias[aliasKey room number]? = some roomAlias := by
  rw [localAliasesForRoom, mem_map]
  constructor
  · rintro ⟨⟨key, value⟩, scanned, rfl⟩
    obtain ⟨held, inside⟩ := (prefix_scan_row _ _ _).mp scanned
    obtain ⟨other, number, rfl, below⟩ := tables.keyed key (mem_iff_read.mpr ⟨_, held⟩)
    rw [block_key] at inside
    exact ⟨number, below, inside ▸ held⟩
  · rintro ⟨number, below, held⟩
    exact ⟨(aliasKey room number, roomAlias), (prefix_scan_row _ _ _).mpr ⟨held, block_key.mpr rfl⟩, rfl⟩

theorem put_lists (later : tables.count < count) (fits : count < 2 ^ 64) :
    listed ∈ localAliasesForRoom (putAlias tables roomAlias room user count later fits) other ↔
      other = room ∧ listed = roomAlias ∨ listed ∈ localAliasesForRoom tables other := by
  rw [listed_iff, listed_iff]
  constructor
  · rintro ⟨number, below, held⟩
    by_cases same : aliasKey other number = aliasKey room count
    · rw [same] at held
      cases getElem?_insert_self.symm.trans held
      exact .inl ⟨(alias_key_injective (below.trans_lt fits) fits same).1, rfl⟩
    · have before : tables.aliasidAlias[aliasKey other number]? = some listed := (insert_elsewhere same).symm.trans held
      obtain ⟨another, earlier, isKey, given⟩ := tables.keyed _ (mem_iff_read.mpr ⟨_, before⟩)
      obtain ⟨-, rfl⟩ := alias_key_injective (below.trans_lt fits) (given.trans_lt tables.fits) isKey
      exact .inr ⟨number, given, before⟩
  · rintro (⟨rfl, rfl⟩ | ⟨number, below, held⟩)
    · exact ⟨count, Nat.le_refl count, getElem?_insert_self⟩
    · refine ⟨number, below.trans (Nat.le_of_lt later), (insert_elsewhere fun same => ?_).trans held⟩
      have numbers := (alias_key_injective (below.trans_lt tables.fits) fits same).2
      omega

theorem drop_lists : listed ∈ localAliasesForRoom (dropAlias tables localpart room) other ↔ other ≠ room ∧
    listed ∈ localAliasesForRoom tables other := by
  rw [listed_iff, listed_iff]
  constructor
  · rintro ⟨number, below, held⟩
    rw [dropAlias, remove_scanned_lookup] at held
    split at held
    case isTrue => cases held
    case isFalse outside => exact ⟨fun same => outside (block_key.mpr same), number, below, held⟩
  · rintro ⟨different, number, below, held⟩
    refine ⟨number, below, ?_⟩
    rw [dropAlias, remove_scanned_lookup, if_neg fun inside => different (block_key.mp inside)]
    exact held

theorem put_names (roomAlias : Alias) (room : Room) (user : String) (count : Nat) (later : tables.count < count)
    (fits : count < 2 ^ 64) (localpart : String) :
    (putAlias tables roomAlias room user count later fits).aliasRoomid[localpart]? = if localpart =
    roomAlias.localpart then some room else tables.aliasRoomid[localpart]? := by
  by_cases same : localpart = roomAlias.localpart
  · rw [if_pos same, same]
    exact getElem?_insert_self
  · rw [if_neg same]
    exact insert_elsewhere same

theorem drop_names (dropped : String) (room : Room) (localpart : String) :
    (dropAlias tables dropped room).aliasRoomid[localpart]? = if localpart = dropped then none
    else tables.aliasRoomid[localpart]? := by
  rw [dropAlias, getElem?_erase]
  refine if_congr ?_ rfl rfl
  rw [LawfulEqCmp.compare_eq_iff_eq, eq_comm]

section

variable (config : Config) (tables : Tables Room)

def Resolves (roomAlias : Alias) (room : Room) : Prop := resolveLocalAlias config tables roomAlias = .ok room

def Consistent : Prop := ∀ room roomAlias, roomAlias ∈ localAliasesForRoom tables room ↔
    Resolves config tables roomAlias room

theorem resolves_iff : Resolves config tables roomAlias room ↔ roomAlias.server = config.serverName ∧
    tables.aliasRoomid[roomAlias.localpart]? = some room := by
  rw [Resolves, resolveLocalAlias, checkAliasLocal]
  by_cases isLocal : roomAlias.server = config.serverName
  · rw [if_pos isLocal, and_iff_right isLocal]
    cases held : tables.aliasRoomid[roomAlias.localpart]? with
    | none => exact iff_of_false (fun impossible => by cases impossible) fun impossible => by cases impossible
    | some other => exact ⟨fun same => congrArg some (Except.ok.inj same), fun same => congrArg Except.ok (Option.some.inj same)⟩
  · rw [if_neg isLocal]
    exact iff_of_false (fun impossible => by cases impossible) fun both => isLocal both.1

def Clean : Act Room → Prop
  | .setAliasBy roomAlias room user _ =>
    roomAlias.server = config.serverName → (roomAlias = config.adminAlias → user = config.serverUser) →
    ∀ other ∈ tables.aliasRoomid[roomAlias.localpart]?, other = room
  | .removeAlias roomAlias =>
    ∀ room ∈ tables.aliasRoomid[roomAlias.localpart]?, ∀ localpart, tables.aliasRoomid[localpart]? = some room →
    localpart = roomAlias.localpart
  | .deleteRoom _ => True

end

instance [DecidableEq Room] (config : Config) (tables : Tables Room) : DecidablePred (Clean config tables) := fun act =>
  match act with
  | .setAliasBy roomAlias room user _ =>
    inferInstanceAs (Decidable (roomAlias.server = config.serverName → (roomAlias = config.adminAlias → user = config.serverUser) →
      ∀ other ∈ tables.aliasRoomid[roomAlias.localpart]?, other = room))
  | .removeAlias roomAlias =>
    decidable_of_iff (∀ room ∈ tables.aliasRoomid[roomAlias.localpart]?, ∀ row ∈ tables.aliasRoomid.toList,
      row.2 = room → row.1 = roomAlias.localpart) (forall₂_congr fun _ _ =>
        ⟨fun rows localpart named => rows (localpart, _) (mem_toList_iff_getElem?_eq_some.mpr named) rfl,
          fun alone row member isRoom => alone row.1 (isRoom ▸ mem_toList_iff_getElem?_eq_some.mp member)⟩)
  | .deleteRoom _ => isTrue trivial

variable {config : Config} {tables : Tables Room}

theorem put_consistent_iff (consistent : Consistent config tables) (isLocal : roomAlias.server = config.serverName)
    (room : Room) (user : String) (count : Nat) (later : tables.count < count) (fits : count < 2 ^ 64) :
    Consistent config (putAlias tables roomAlias room user count later fits) ↔
    ∀ other ∈ tables.aliasRoomid[roomAlias.localpart]?, other = room := by
  constructor
  · intro after other named
    have listed := (consistent other roomAlias).mpr ((resolves_iff _ _).mpr ⟨isLocal, named⟩)
    have resolves := (after other roomAlias).mp ((put_lists _ _ _).mpr (.inr listed))
    rw [resolves_iff, put_names, if_pos rfl] at resolves
    exact (Option.some.inj resolves.2).symm
  · intro clean other listed
    rw [put_lists, consistent, resolves_iff, resolves_iff, put_names]
    by_cases same : listed.localpart = roomAlias.localpart
    · rw [if_pos same, same]
      constructor
      · rintro (⟨rfl, rfl⟩ | ⟨isLocalToo, named⟩)
        · exact ⟨isLocal, rfl⟩
        · exact ⟨isLocalToo, congrArg some (clean other named).symm⟩
      · rintro ⟨isLocalToo, isRoom⟩
        refine .inl ⟨(Option.some.inj isRoom).symm, ?_⟩
        cases listed
        cases roomAlias
        rw [Alias.mk.injEq]
        exact ⟨same, isLocalToo.trans isLocal.symm⟩
    · rw [if_neg same]
      exact or_iff_right fun isAlias => same (congrArg Alias.localpart isAlias.2)

theorem drop_consistent_iff (consistent : Consistent config tables)
    (held : tables.aliasRoomid[localpart]? = some room) : Consistent config (dropAlias tables localpart room) ↔
    ∀ other, tables.aliasRoomid[other]? = some room → other = localpart := by
  constructor
  · intro after other named
    by_contra different
    have resolves : Resolves config (dropAlias tables localpart room) ⟨other, config.serverName⟩ room := by
      rw [resolves_iff, drop_names, if_neg different]
      exact ⟨rfl, named⟩
    exact ((drop_lists _).mp ((after room _).mpr resolves)).1 rfl
  · intro alone other listed
    rw [drop_lists, consistent, resolves_iff, resolves_iff, drop_names]
    by_cases same : listed.localpart = localpart
    · rw [if_pos same, same, held]
      refine iff_of_false (fun both => both.1 (Option.some.inj both.2.2).symm) fun impossible => ?_
      cases impossible.2
    · rw [if_neg same]
      refine and_iff_right_of_imp fun named isRoom => same ?_
      exact alone listed.localpart (isRoom ▸ named.2)

theorem remove_logged_cases (tables : Tables Room) (roomAlias : Alias) :
    (tables.aliasRoomid[roomAlias.localpart]? = none ∧ removeLogged tables roomAlias = tables) ∨
      ∃ room, tables.aliasRoomid[roomAlias.localpart]? = some room ∧
      removeLogged tables roomAlias = dropAlias tables roomAlias.localpart room := by
  cases held : tables.aliasRoomid[roomAlias.localpart]? with
  | none => exact .inl ⟨rfl, by rw [removeLogged, removeAlias, held]⟩
  | some room => exact .inr ⟨room, rfl, by rw [removeLogged, removeAlias, held]⟩

structure Removed (room : Room) (aliases : List Alias) (before after : Tables Room) : Prop where
  names : ∀ localpart, after.aliasRoomid[localpart]? = if localpart ∈ aliases.map Alias.localpart then none
    else before.aliasRoomid[localpart]?
  others : ∀ other listed, other ≠ room →
    (listed ∈ localAliasesForRoom after other ↔ listed ∈ localAliasesForRoom before other)
  own : ∀ listed ∈ localAliasesForRoom after room, listed ∈ localAliasesForRoom before room ∧
    ∀ roomAlias ∈ aliases, before.aliasRoomid[roomAlias.localpart]? = none

omit [Identifier Room] in
theorem removed_first {first : Alias} {rest : List Alias} {held : Option Room}
    (gone : localpart = first.localpart → held = none) : (if localpart ∈ rest.map Alias.localpart then none else held) =
    if localpart ∈ (first :: rest).map Alias.localpart then none else held := by
  simp only [map_cons]
  by_cases later : localpart ∈ rest.map Alias.localpart
  · rw [if_pos later, if_pos (mem_cons_of_mem _ later)]
  · by_cases same : localpart = first.localpart
    · rw [if_neg later, gone same, ite_self]
    · rw [if_neg later, if_neg fun member => (mem_cons.mp member).elim same later]

theorem remove_all {aliases : List Alias} (tables : Tables Room)
    (owned : ∀ roomAlias ∈ aliases, ∀ other ∈ tables.aliasRoomid[roomAlias.localpart]?, other = room) :
    Removed room aliases tables (aliases.foldl removeLogged tables) := by
  induction aliases generalizing tables with
  | nil => exact ⟨fun _ => rfl, fun _ _ _ => Iff.rfl, fun _ listed => ⟨listed, fun _ impossible => absurd impossible not_mem_nil⟩⟩
  | cons first rest ih =>
    rw [foldl_cons]
    rcases remove_logged_cases tables first with ⟨unnamed, same⟩ | ⟨other, named, dropped⟩
    · rw [same]
      have removed := ih tables fun roomAlias member => owned roomAlias (mem_cons_of_mem first member)
      refine ⟨fun localpart => (removed.names localpart).trans (removed_first fun isFirst => isFirst ▸ unnamed),
        removed.others, fun listed member => ?_⟩
      obtain ⟨before, others⟩ := removed.own listed member
      exact ⟨before, forall_mem_cons.mpr ⟨unnamed, others⟩⟩
    · obtain rfl := owned first mem_cons_self other named
      have fewer : ∀ roomAlias ∈ rest, ∀ room ∈ (dropAlias tables first.localpart other).aliasRoomid[roomAlias.localpart]?, room = other := by
        intro roomAlias member room held
        rw [drop_names] at held
        split at held
        case isTrue => cases held
        case isFalse => exact owned roomAlias (mem_cons_of_mem first member) room held
      have removed := ih (dropAlias tables first.localpart other) fewer
      rw [dropped]
      refine ⟨fun localpart => ?_, fun room listed different => ?_, fun listed member => ?_⟩
      · rw [removed.names, drop_names]
        by_cases isFirst : localpart = first.localpart
        · rw [if_pos isFirst, ite_self, if_pos (mem_map.mpr ⟨first, mem_cons_self, isFirst.symm⟩)]
        · rw [if_neg isFirst]
          exact removed_first fun same => absurd same isFirst
      · rw [removed.others room listed different, drop_lists, and_iff_right different]
      · exact absurd rfl ((drop_lists _).mp (removed.own listed member).1).1

theorem delete_room_removed (consistent : Consistent config tables) (room : Room) :
    Removed room (localAliasesForRoom tables room) tables (deleteRoomAliases tables room) := by
  refine remove_all tables fun roomAlias listed other named => ?_
  have resolves := (resolves_iff _ _).mp ((consistent room roomAlias).mp listed)
  exact Option.some.inj (named.symm.trans resolves.2)

theorem delete_room_resolves (consistent : Consistent config tables) :
    Resolves config (deleteRoomAliases tables room) roomAlias other ↔ other ≠ room ∧
    Resolves config tables roomAlias other := by
  have removed := delete_room_removed consistent room
  rw [resolves_iff, resolves_iff, removed.names]
  constructor
  · rintro ⟨isLocal, named⟩
    split at named
    case isTrue => cases named
    case isFalse kept =>
      refine ⟨fun isRoom => kept (mem_map.mpr ⟨roomAlias, (consistent room roomAlias).mpr ?_, rfl⟩), isLocal, named⟩
      exact (resolves_iff _ _).mpr ⟨isLocal, isRoom ▸ named⟩
  · rintro ⟨different, isLocal, named⟩
    refine ⟨isLocal, ?_⟩
    rw [if_neg]
    · exact named
    · intro member
      obtain ⟨listed, inRoom, same⟩ := mem_map.mp member
      have resolves := (resolves_iff _ _).mp ((consistent room listed).mp inRoom)
      rw [same] at resolves
      exact different (Option.some.inj (named.symm.trans resolves.2))

theorem delete_room_consistent (consistent : Consistent config tables) (room : Room) :
    Consistent config (deleteRoomAliases tables room) := by
  intro other listed
  have removed := delete_room_removed consistent room
  rw [delete_room_resolves consistent, ← consistent other listed]
  by_cases same : other = room
  · subst same
    refine iff_of_false (fun member => ?_) fun both => both.1 rfl
    obtain ⟨before, none⟩ := removed.own listed member
    have resolves := (resolves_iff _ _).mp ((consistent other listed).mp before)
    cases (none listed before).symm.trans resolves.2
  · rw [removed.others other listed same, and_iff_right same]

theorem set_cases (later : tables.count < count) (fits : count < 2 ^ 64) :
    (roomAlias.server = config.serverName ∧ (roomAlias = config.adminAlias → user = config.serverUser) ∧
        setAliasBy config tables roomAlias room user count later fits = .ok (putAlias tables roomAlias room user count later fits)) ∨
      ¬ (roomAlias.server = config.serverName ∧ (roomAlias = config.adminAlias → user = config.serverUser)) ∧
        ∃ message, setAliasBy config tables roomAlias room user count later fits = .error message := by
  rw [setAliasBy, checkAliasLocal]
  by_cases isLocal : roomAlias.server = config.serverName
  · rw [if_pos isLocal]
    by_cases forbidden : roomAlias = config.adminAlias ∧ user ≠ config.serverUser
    · exact .inr ⟨fun both => forbidden.2 (both.2 forbidden.1), "Only the server user can set this alias", if_pos forbidden⟩
    · refine .inl ⟨isLocal, fun isAdmin => ?_, if_neg forbidden⟩
      by_contra other
      exact forbidden ⟨isAdmin, other⟩
  · rw [if_neg isLocal]
    exact .inr ⟨fun both => isLocal both.1, _, rfl⟩

theorem step_consistent_iff (consistent : Consistent config tables) {act : Act Room} {next : Tables Room}
    (stepped : step config tables act = some next) : Consistent config next ↔ Clean config tables act := by
  cases act with
  | setAliasBy roomAlias room user count =>
    rw [step] at stepped
    split at stepped
    case isTrue fresh =>
      rcases set_cases fresh.1 fresh.2 with ⟨isLocal, allowed, set⟩ | ⟨refused, message, failed⟩
      · rw [set] at stepped
        cases stepped
        rw [put_consistent_iff consistent isLocal]
        exact ⟨fun clean _ _ => clean, fun clean => clean isLocal allowed⟩
      · rw [failed] at stepped
        cases stepped
        exact iff_of_true consistent fun isLocal allowed => absurd ⟨isLocal, allowed⟩ refused
    case isFalse => cases stepped
  | removeAlias roomAlias =>
    cases stepped
    rcases remove_logged_cases tables roomAlias with ⟨unnamed, same⟩ | ⟨room, named, dropped⟩
    · rw [same]
      refine iff_of_true consistent fun room named => ?_
      cases unnamed.symm.trans named
    · rw [dropped, drop_consistent_iff consistent named]
      refine ⟨fun alone other otherNamed => ?_, fun clean => clean room named⟩
      cases named.symm.trans otherNamed
      exact alone
  | deleteRoom room =>
    cases stepped
    exact iff_of_true (delete_room_consistent consistent room) trivial

end

theorem alias_tables_consistent_iff {Room : Type} [Identifier Room] (config : Config) (start last : Tables Room)
    (acts : List (Act Room)) (consistent : Consistent config start) (ran : runs (step config) start acts = some last) :
    ((∀ before after middle, acts = before ++ after → runs (step config) start before = some middle →
    Consistent config middle) ↔
        AllMeet (step config) (Clean config) start acts) ∧
      (AllMeet (step config) (Clean config) start acts → ∀ before room after middle, acts = before ++ .deleteRoom room :: after →
        runs (step config) start before = some middle → ∀ roomAlias other, other ≠ room → Resolves config middle roomAlias other →
          Resolves config (deleteRoomAliases middle room) roomAlias other) := by
  have kept {before after : List (Act Room)} {middle : Tables Room}
    (met : AllMeet (step config) (Clean config) start (before ++ after))
      (reached : runs (step config) start before = some middle) : Consistent config middle :=
    runs_meeting_invariant (fun _ _ _ consistent clean stepped => (step_consistent_iff consistent stepped).mpr clean)
      consistent (all_meet_before met) reached
  refine ⟨⟨fun all => all_meet_of_each fun before act after middle split reached => ?_, ?_⟩, ?_⟩
  · rw [split] at ran
    obtain ⟨_, first, later⟩ := runs_append.mp ran
    cases reached.symm.trans first
    obtain ⟨next, stepped, _⟩ := runs_cons.mp later
    have consistentNext := all (before ++ [act]) after next (by rw [split, append_assoc]; rfl)
      (runs_append.mpr ⟨middle, reached, runs_cons.mpr ⟨next, stepped, rfl⟩⟩)
    exact (step_consistent_iff (all before (act :: after) middle split reached) stepped).mp consistentNext
  · rintro met before after middle rfl reached
    exact kept met reached
  · rintro met before room after middle rfl reached roomAlias other different resolves
    exact (delete_room_resolves (kept met reached)).mpr ⟨different, resolves⟩

def emptyTables : Tables String where
  aliasUserid := ∅
  aliasRoomid := ∅
  aliasidAlias := ∅
  count := 0
  keyed := fun _ member => absurd member not_mem_empty
  fits := by decide

theorem empty_consistent {config : Config} : Consistent config emptyTables := by
  intro room roomAlias
  rw [listed_iff, resolves_iff]
  refine iff_of_false (fun listed => ?_) fun named => ?_
  · obtain ⟨_, _, held⟩ := listed
    cases getElem?_empty.symm.trans held
  · cases getElem?_empty.symm.trans named.2

def exampleConfig : Config := ⟨"x", "@server:x", ⟨"admins", "x"⟩⟩

def orderlyActs : List (Act String) :=
  [.setAliasBy ⟨"a", "x"⟩ "!1:x" "@u:x" 1, .setAliasBy ⟨"b", "x"⟩ "!1:x" "@u:x" 3,
    .setAliasBy ⟨"c", "x"⟩ "!2:x" "@u:x" 4, .setAliasBy ⟨"admins", "x"⟩ "!3:x" "@u:x" 5,
    .removeAlias ⟨"c", "x"⟩, .setAliasBy ⟨"c", "x"⟩ "!1:x" "@u:x" 6, .setAliasBy ⟨"d", "x"⟩ "!2:x" "@u:x" 7, .deleteRoom "!1:x"]

theorem orderly_runs : (runs (step exampleConfig) emptyTables orderlyActs).isSome = true := by decide +kernel

theorem orderly_consistent :
    Consistent exampleConfig ((runs (step exampleConfig) emptyTables orderlyActs).get orderly_runs) := by
  obtain ⟨all, _⟩ := alias_tables_consistent_iff exampleConfig emptyTables _ orderlyActs empty_consistent
    (Option.some_get orderly_runs).symm
  exact all.mpr (by decide +kernel) orderlyActs [] _ (append_nil _).symm (Option.some_get orderly_runs).symm

-- An alias is moved and its old room deleted; and one of a room's two aliases is removed.
theorem moved_alias_lost : (runs (step exampleConfig) emptyTables
    [.setAliasBy ⟨"a", "x"⟩ "!1:x" "@u:x" 1, .setAliasBy ⟨"a", "x"⟩ "!2:x" "@u:x" 2]).map (fun tables =>
        (localAliasesForRoom tables "!1:x", resolveLocalAlias exampleConfig tables ⟨"a", "x"⟩,
        resolveLocalAlias exampleConfig (deleteRoomAliases tables "!1:x") ⟨"a", "x"⟩)) =
      some ([⟨"a", "x"⟩], .ok "!2:x", .error "Not found in database") ∧
    (runs (step exampleConfig) emptyTables [.setAliasBy ⟨"a", "x"⟩ "!1:x" "@u:x" 1,
    .setAliasBy ⟨"b", "x"⟩ "!1:x" "@u:x" 2, .removeAlias ⟨"a", "x"⟩]).map (fun tables =>
        (localAliasesForRoom tables "!1:x", resolveLocalAlias exampleConfig tables ⟨"b", "x"⟩)) = some ([], .ok "!1:x") := by
  decide +kernel

end GaussMatrix.Rooms.Aliases

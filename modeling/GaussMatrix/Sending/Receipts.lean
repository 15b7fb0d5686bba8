import GaussMatrix.Store.Backend

namespace GaussMatrix.Sending

open Collections List Option Std Std.ExtTreeMap Store

abbrev UserId := Bytes

abbrev RoomId := Bytes

structure ReceiptData where
  eventId : Bytes
  ts : Option Nat
  thread : Bytes

abbrev ReceiptMap := BTreeMap UserId ReceiptData

variable {row : RoomId × ReceiptMap}

section

def placeRank (user : UserId) (ranks : List ReceiptMap) (entry : ReceiptData × Nat) : List ReceiptMap :=
  (if ranks.length ≤ entry.2 then ranks ++ [∅] else ranks).modify entry.2 fun map => map.insert user entry.1

def rankUser (ranks : List ReceiptMap) (entry : UserId × List ReceiptData) : List ReceiptMap :=
  entry.2.zipIdx.foldl (placeRank entry.1) ranks

def rankReceipts (byUser : BTreeMap UserId (List ReceiptData)) : List ReceiptMap := byUser.toList.foldl rankUser []

def receiptAt (ranks : List ReceiptMap) (rank : Nat) (user : UserId) : Option ReceiptData :=
  ranks[rank]?.bind fun map => map[user]?

variable {ranks : List ReceiptMap} {user other : UserId} {data : ReceiptData} {rank at' : Nat}

theorem receipt_at_opened (ranks : List ReceiptMap) (rank : Nat) (user : UserId) :
    receiptAt (ranks ++ [∅]) rank user = receiptAt ranks rank user := by
  rw [receiptAt, receiptAt, getElem?_append]
  split
  case isTrue => rfl
  case isFalse beyond =>
    rw [getElem?_eq_none (Nat.le_of_not_lt beyond), getElem?_singleton]
    split
    case isTrue => exact getElem?_empty
    case isFalse => rfl

theorem receipt_at_modified (inside : rank < ranks.length) :
    receiptAt (ranks.modify rank fun map => map.insert user data) at' other = if at' = rank ∧
    other = user then some data else receiptAt ranks at' other := by
  by_cases here : at' = rank
  · subst here
    obtain ⟨map, held⟩ : ∃ map, ranks[at']? = some map := ⟨_, getElem?_eq_getElem inside⟩
    rw [receiptAt, receiptAt, getElem?_modify_eq, held]
    by_cases own : other = user
    · rw [if_pos ⟨rfl, own⟩, own]
      exact getElem?_insert_self
    · rw [if_neg fun both => own both.2]
      exact insert_elsewhere own
  · rw [receiptAt, receiptAt, getElem?_modify_ne _ _ (Ne.symm here), if_neg fun both => here both.1]

theorem place_rank_at (open' : rank ≤ ranks.length) :
    receiptAt (placeRank user ranks (data, rank)) at' other = if at' = rank ∧
    other = user then some data else receiptAt ranks at' other := by
  rw [placeRank]
  split
  case isTrue =>
    rw [receipt_at_modified (by rw [length_append, length_singleton]; omega), receipt_at_opened]
  case isFalse inside => exact receipt_at_modified (by simpa using inside)

theorem place_rank_length (open' : rank ≤ ranks.length) :
    (placeRank user ranks (data, rank)).length = max ranks.length (rank + 1) := by
  rw [placeRank, length_modify]
  split
  case isTrue full =>
    dsimp only at full
    rw [length_append, length_singleton]
    omega
  case isFalse inside =>
    omega

theorem place_all_at {datas : List ReceiptData} (open' : rank ≤ ranks.length) :
    receiptAt ((datas.zipIdx rank).foldl (placeRank user) ranks) at' other =
      if other = user ∧ rank ≤ at' ∧ at' < rank + datas.length then datas[at' - rank]? else receiptAt ranks at' other := by
  induction datas generalizing ranks rank with
  | nil =>
    rw [if_neg (by simp)]
    rfl
  | cons data rest ih =>
    rw [zipIdx_cons, foldl_cons, ih (by rw [place_rank_length open']; exact Nat.le_max_right _ _), place_rank_at open', length_cons]
    by_cases own : other = user
    · subst own
      simp only [true_and, and_true]
      rcases Nat.lt_trichotomy at' rank with below | rfl | above
      · rw [if_neg (by omega), if_neg (by omega), if_neg (by omega)]
      · rw [if_neg (by omega), if_pos rfl, if_pos (by omega), Nat.sub_self]
        rfl
      · obtain ⟨gap, rfl⟩ := Nat.exists_eq_add_of_lt above
        have offset : rank + gap + 1 - rank = gap + 1 := by omega
        have shorter : rank + gap + 1 - (rank + 1) = gap := by omega
        rw [offset, shorter, getElem?_cons_succ, if_neg (by omega : ¬ rank + gap + 1 = rank)]
        refine if_congr ⟨fun bounds => ?_, fun bounds => ?_⟩ rfl rfl
        · omega
        · omega
    · rw [if_neg fun both => own both.1, if_neg fun both => own both.2, if_neg fun both => own both.1]

theorem rank_user_at {entry : UserId × List ReceiptData} (fresh : ∀ rank, receiptAt ranks rank entry.1 = none)
    (rank : Nat) (other : UserId) : receiptAt (rankUser ranks entry) rank other = if other = entry.1 then entry.2[rank]?
    else receiptAt ranks rank other := by
  rw [rankUser, place_all_at (Nat.zero_le _)]
  simp only [Nat.zero_le, Nat.zero_add, Nat.sub_zero, true_and]
  by_cases own : other = entry.1
  · rw [if_pos own]
    by_cases inside : rank < entry.2.length
    · rw [if_pos ⟨own, inside⟩]
    · rw [if_neg fun both => inside both.2, own, fresh, getElem?_eq_none (Nat.le_of_not_lt inside)]
  · rw [if_neg own, if_neg fun both => own both.1]

theorem rank_users_at (ranks : List ReceiptMap) (entries : List (UserId × List ReceiptData))
    (distinct : (entries.map Prod.fst).Nodup)
    (fresh : ∀ user ∈ entries.map Prod.fst, ∀ rank, receiptAt ranks rank user = none) (rank : Nat) :
    (∀ entry ∈ entries, receiptAt (entries.foldl rankUser ranks) rank entry.1 = entry.2[rank]?) ∧
      ∀ user, user ∉ entries.map Prod.fst → receiptAt (entries.foldl rankUser ranks) rank user = receiptAt ranks rank user := by
  induction entries generalizing ranks with
  | nil => exact ⟨fun entry member => absurd member not_mem_nil, fun user _ => rfl⟩
  | cons first rest ih =>
    obtain ⟨apart, distinctRest⟩ := nodup_cons.mp distinct
    have placed := rank_user_at (fresh first.1 mem_cons_self)
    have freshRest : ∀ user ∈ rest.map Prod.fst, ∀ rank, receiptAt (rankUser ranks first) rank user = none := by
      intro user member rank
      rw [placed, if_neg (ne_of_mem_of_not_mem member apart)]
      exact fresh user (mem_cons_of_mem _ member) rank
    obtain ⟨inside, outside⟩ := ih _ distinctRest freshRest
    refine ⟨fun entry member => ?_, fun user absent => ?_⟩
    · rcases mem_cons.mp member with rfl | inRest
      · exact (outside entry.1 apart).trans ((placed rank entry.1).trans (if_pos rfl))
      · exact inside entry inRest
    · rw [map_cons, mem_cons, not_or] at absent
      exact (outside user absent.2).trans ((placed rank user).trans (if_neg absent.1))

theorem rank_receipts_at {byUser : BTreeMap UserId (List ReceiptData)} :
    receiptAt (rankReceipts byUser) rank user = byUser[user]?.bind fun datas => datas[rank]? := by
  have distinct : (byUser.toList.map Prod.fst).Nodup := by
    rw [List.Nodup, pairwise_map]
    exact distinct_keys_toList.imp fun different same => different (by rw [same]; exact ReflCmp.compare_self)
  obtain ⟨inside, outside⟩ := rank_users_at [] byUser.toList distinct (fun user _ rank => rfl) rank
  cases held : byUser[user]? with
  | some datas => exact inside (user, datas) (mem_toList_iff_getElem?_eq_some.mpr held)
  | none =>
    refine outside user fun member => ?_
    obtain ⟨entry, listed, rfl⟩ := mem_map.mp member
    have read := mem_toList_iff_getElem?_eq_some.mp listed
    rw [held] at read
    cases read

def Full (ranks : List ReceiptMap) : Prop := ∀ rank < ranks.length, ∃ user data, receiptAt ranks rank user = some data

theorem place_rank_full (full : Full ranks) (open' : rank ≤ ranks.length) :
    Full (placeRank user ranks (data, rank)) := by
  intro at' inside
  rw [place_rank_length open'] at inside
  by_cases here : at' = rank
  · exact ⟨user, data, (place_rank_at open').trans (if_pos ⟨here, rfl⟩)⟩
  · obtain ⟨other, held, read⟩ := full at' (by omega)
    exact ⟨other, held, (place_rank_at open').trans ((if_neg fun both => here both.1).trans read)⟩

theorem place_all_full (datas : List ReceiptData) (full : Full ranks) (open' : rank ≤ ranks.length) :
    Full ((datas.zipIdx rank).foldl (placeRank user) ranks) := by
  induction datas generalizing ranks rank with
  | nil => exact full
  | cons data rest ih =>
    refine ih (place_rank_full full open') ?_
    rw [place_rank_length open']
    exact Nat.le_max_right _ _

theorem rank_receipts_full (byUser : BTreeMap UserId (List ReceiptData)) : Full (rankReceipts byUser) := by
  have each : ∀ (entries : List (UserId × List ReceiptData)) (ranks : List ReceiptMap), Full ranks →
    Full (entries.foldl rankUser ranks) := by
    intro entries
    induction entries with
    | nil => exact fun ranks full => full
    | cons first rest ih => exact fun ranks full => ih _ (place_all_full first.2 full (Nat.zero_le _))
  exact each _ [] fun rank inside => absurd inside (Nat.not_lt_zero rank)

variable (byRoom : List (RoomId × List ReceiptMap))

def maxRank : Nat := (byRoom.map fun entry => entry.2.length).max?.getD 0

def rankRows (rank : Nat) : List (RoomId × ReceiptMap) :=
  byRoom.filterMap fun entry => entry.2[rank]?.map fun map => (entry.1, map)

def pivotRank (rank : Nat) : Option (BTreeMap RoomId ReceiptMap) :=
  let receipts : BTreeMap RoomId ReceiptMap := extend ∅ (rankRows byRoom rank)
  if receipts.isEmpty then none else some receipts

def pivotRanks : List (BTreeMap RoomId ReceiptMap) := (List.range (maxRank byRoom)).filterMap (pivotRank byRoom)

variable {byRoom} {rank : Nat}

theorem rank_rows_entry : row ∈ rankRows byRoom rank ↔ ∃ maps, (row.1, maps) ∈ byRoom ∧ maps[rank]? = some row.2 := by
  rw [rankRows, mem_filterMap]
  constructor
  · intro ⟨entry, member, read⟩
    obtain ⟨map, held, rfl⟩ := map_eq_some_iff.mp read
    exact ⟨entry.2, member, held⟩
  · intro ⟨maps, member, held⟩
    exact ⟨(row.1, maps), member, by rw [held]; rfl⟩

theorem max_rank_entry (inside : rank < maxRank byRoom) : ∃ entry ∈ byRoom, rank < entry.2.length := by
  rw [maxRank] at inside
  cases most : (byRoom.map fun entry => entry.2.length).max? with
  | none =>
    rw [most] at inside
    exact absurd inside (Nat.not_lt_zero rank)
  | some length =>
    rw [most] at inside
    obtain ⟨entry, member, same⟩ := mem_map.mp (max?_mem most)
    exact ⟨entry, member, same ▸ inside⟩

theorem entry_max_rank {entry : RoomId × List ReceiptMap} (member : entry ∈ byRoom) :
    entry.2.length ≤ maxRank byRoom := by
  have listed : entry.2.length ∈ byRoom.map fun entry => entry.2.length := mem_map_of_mem member
  exact le_max?_getD_of_mem listed

end

variable (serverRooms : List RoomId) (byUser : RoomId → BTreeMap UserId (List ReceiptData))

def rankedRooms : List (RoomId × List ReceiptMap) :=
  serverRooms.filterMap fun room => if (rankReceipts (byUser room)).isEmpty then none
    else some (room, rankReceipts (byUser room))

variable {serverRooms byUser} {room : RoomId} {rank : Nat}

theorem ranked_rooms_entry {maps : List ReceiptMap} : (room, maps) ∈ rankedRooms serverRooms byUser ↔
    room ∈ serverRooms ∧ maps = rankReceipts (byUser room) ∧ maps ≠ [] := by
  rw [rankedRooms, mem_filterMap]
  constructor
  · intro ⟨other, member, read⟩
    split at read
    case isTrue => cases read
    case isFalse nonempty =>
      cases read
      exact ⟨member, rfl, fun empty => nonempty (List.isEmpty_iff.mpr empty)⟩
  · intro ⟨member, same, nonempty⟩
    subst same
    exact ⟨room, member, if_neg fun empty => nonempty (List.isEmpty_iff.mp empty)⟩

theorem rank_rows_room : row ∈ rankRows (rankedRooms serverRooms byUser) rank ↔ row.1 ∈ serverRooms ∧
    (rankReceipts (byUser row.1))[rank]? = some row.2 := by
  rw [rank_rows_entry]
  constructor
  · intro ⟨maps, member, held⟩
    obtain ⟨listed, rfl, -⟩ := ranked_rooms_entry.mp member
    exact ⟨listed, held⟩
  · intro ⟨listed, held⟩
    refine ⟨_, ranked_rooms_entry.mpr ⟨listed, rfl, fun empty => ?_⟩, held⟩
    rw [empty] at held
    cases held

theorem rank_map_room : (extend ∅ (rankRows (rankedRooms serverRooms byUser) rank) :
    BTreeMap RoomId ReceiptMap)[room]? = if room ∈ serverRooms then (rankReceipts (byUser room))[rank]? else none := by
  by_cases present : ∃ row ∈ rankRows (rankedRooms serverRooms byUser) rank, row.1 = room
  · rw [extend_consistent ∅ _ (fun room => (rankReceipts (byUser room))[rank]?) (fun row member => (rank_rows_room.mp member).2) present]
    obtain ⟨row, member, rfl⟩ := present
    rw [if_pos (rank_rows_room.mp member).1]
  · rw [extend_outside _ _ _ fun row member same => present ⟨row, member, same⟩]
    split
    case isTrue listed =>
      cases held : (rankReceipts (byUser room))[rank]? with
      | none => exact getElem?_empty
      | some map => exact absurd ⟨(room, map), rank_rows_room.mpr ⟨listed, held⟩, rfl⟩ present
    case isFalse => exact getElem?_empty

theorem max_rank_room : rank < maxRank (rankedRooms serverRooms byUser) ↔
    ∃ room ∈ serverRooms, rank < (rankReceipts (byUser room)).length := by
  constructor
  · intro inside
    obtain ⟨⟨room, maps⟩, member, longer⟩ := max_rank_entry inside
    obtain ⟨listed, rfl, -⟩ := ranked_rooms_entry.mp member
    exact ⟨room, listed, longer⟩
  · intro ⟨room, listed, longer⟩
    refine Nat.lt_of_lt_of_le longer (entry_max_rank (ranked_rooms_entry.mpr ⟨listed, rfl, fun empty => ?_⟩))
    rw [empty] at longer
    exact absurd longer (Nat.not_lt_zero rank)

theorem pivot_rank_some (inside : rank < maxRank (rankedRooms serverRooms byUser)) :
    pivotRank (rankedRooms serverRooms byUser) rank = some
    (extend ∅ (rankRows (rankedRooms serverRooms byUser) rank)) := by
  obtain ⟨room, listed, longer⟩ := max_rank_room.mp inside
  refine if_neg fun empty => ?_
  have lookup : (extend ∅ (rankRows (rankedRooms serverRooms byUser) rank) : BTreeMap RoomId ReceiptMap)[room]? = _ :=
    rank_map_room
  rw [if_pos listed, getElem?_eq_getElem longer, ExtTreeMap.isEmpty_iff.mp empty, getElem?_empty] at lookup
  cases lookup

theorem pivot_ranks_map : pivotRanks (rankedRooms serverRooms byUser) =
    (List.range (maxRank (rankedRooms serverRooms byUser))).map fun rank =>
    extend ∅ (rankRows (rankedRooms serverRooms byUser) rank) := by
  rw [pivotRanks, ← filterMap_eq_map]
  exact filterMap_congr fun rank member => pivot_rank_some (mem_range.mp member)

theorem pivot_ranks_receipt {receipts : BTreeMap RoomId ReceiptMap}
    (held : (pivotRanks (rankedRooms serverRooms byUser))[rank]? = some receipts) (room : RoomId) (user : UserId) :
    (receipts[room]?.bind fun map => map[user]?) = if room ∈ serverRooms then (byUser room)[user]?.bind fun datas =>
    datas[rank]? else none := by
  rw [pivot_ranks_map, getElem?_map] at held
  obtain ⟨at', ranged, rfl⟩ := map_eq_some_iff.mp held
  obtain ⟨inside, same⟩ := List.getElem?_eq_some_iff.mp ranged
  rw [getElem_range] at same
  subst same
  rw [rank_map_room]
  split
  case isTrue => exact rank_receipts_at
  case isFalse => rfl

theorem pivot_ranks_long {user : UserId} {data : ReceiptData} (listed : room ∈ serverRooms)
    (held : ((byUser room)[user]?.bind fun datas => datas[rank]?) = some data) :
    rank < (pivotRanks (rankedRooms serverRooms byUser)).length := by
  rw [pivot_ranks_map, length_map, length_range, max_rank_room]
  refine ⟨room, listed, ?_⟩
  rw [← rank_receipts_at, receiptAt] at held
  obtain ⟨map, read, -⟩ := bind_eq_some_iff.mp held
  exact (List.getElem?_eq_some_iff.mp read).1

theorem pivot_ranks_full (inside : rank < (pivotRanks (rankedRooms serverRooms byUser)).length) :
    ∃ room ∈ serverRooms, ∃ (user : UserId) (data : ReceiptData),
    ((byUser room)[user]?.bind fun datas => datas[rank]?) = some data := by
  rw [pivot_ranks_map, length_map, length_range, max_rank_room] at inside
  obtain ⟨room, listed, longer⟩ := inside
  obtain ⟨user, data, read⟩ := rank_receipts_full (byUser room) rank longer
  exact ⟨room, listed, user, data, rank_receipts_at.symm.trans read⟩

end GaussMatrix.Sending

import GaussMatrix.Library.Ranges
import GaussMatrix.Rooms.PduCount

namespace GaussMatrix.Rooms.Timeline

open BigEndian Collections List Ranges SortedScan Std.ExtTreeMap

structure Table (Pdu : Type) where
  pduidPdu : BTreeMap Bytes Pdu
  keyed : ∀ (key : Bytes) (pdu : Pdu), pduidPdu[key]? = some pdu → ∃ id : Id, id.shortroomid < 2 ^ 64 ∧ id.count.Given ∧
    RawId.ofId id = key

inductive TimelineError where
  | notFound (message : String)
deriving DecidableEq

variable {right : Count} {keep : Bytes → Bool} {left : Count}

section

variable {Pdu Item : Type}

-- One further, so that the base event is not sent.
def pduCountToId (shortroomid : ShortRoomId) (count : Count) (dir : Direction) : Bytes :=
  RawId.ofId ⟨shortroomid, count.saturatingInc dir⟩

def prevTimelineCount (table : Table Pdu) (before : Id) : Except TimelineError Count :=
  let before := pduCountToId before.shortroomid before.count .backward
  let pduIds := (backward table.pduidPdu before).takeWhile fun row => RawId.shortroomid row.1 = RawId.shortroomid before
  match (pduIds.map fun row => RawId.pduCount row.1).head? with
  | some count => .ok count
  | none => .error (.notFound "No earlier PDU's found in room")

def nextTimelineCount (table : Table Pdu) (after : Id) : Except TimelineError Count :=
  let after := pduCountToId after.shortroomid after.count .forward
  let pduIds := (forward table.pduidPdu after).takeWhile fun row => RawId.shortroomid row.1 = RawId.shortroomid after
  match (pduIds.map fun row => RawId.pduCount row.1).head? with
  | some count => .ok count
  | none => .error (.notFound "No more PDU's found in room")

-- What each_slice makes of a stored event for the user who asks is a parameter.
variable (eachSlice : Pdu → Item)

def pdus (table : Table Pdu) (shortroomid : ShortRoomId) (start : Option Count) : List (Count × Item) :=
  let current := pduCountToId shortroomid (start.getD Count.min) .forward
  ((forward table.pduidPdu current).takeWhile fun row => decide (RawId.shortroomid current <+: row.1)).map fun row =>
    (RawId.pduCount row.1, eachSlice row.2)

def pdusRev (table : Table Pdu) (shortroomid : ShortRoomId) (limit : Option Count) : List (Count × Item) :=
  let current := pduCountToId shortroomid (limit.getD Count.max) .backward
  ((backward table.pduidPdu current).takeWhile fun row => decide (RawId.shortroomid current <+: row.1)).map fun row =>
    (RawId.pduCount row.1, eachSlice row.2)

variable {table : Table Pdu} {room : ShortRoomId}

theorem raw_room {count : Count} : RawId.shortroomid (RawId.ofId ⟨room, count⟩) = toBytes 8 room :=
  List.take_left' (to_bytes_length 8 room)

theorem raw_inside {count : Count} : toBytes 8 room <+: RawId.ofId ⟨room, count⟩ := List.prefix_append _ _

theorem room_begins {other : ShortRoomId} (bound : room < 2 ^ 64) (otherBound : other < 2 ^ 64) {count : Count} :
    toBytes 8 room <+: RawId.ofId ⟨other, count⟩ ↔ other = room := by
  constructor
  · intro inside
    have same := prefix_iff_eq_take.mp inside
    have words := congrArg ofBytes (same.trans raw_room)
    rw [of_to_bytes_of_lt bound, of_to_bytes_of_lt otherBound] at words
    exact words.symm
  · rintro rfl
    exact raw_inside

theorem room_eq_iff {start : Count} {key : Bytes} :
    RawId.shortroomid key = RawId.shortroomid (RawId.ofId ⟨room, start⟩) ↔ toBytes 8 room <+: key := by
  rw [raw_room, prefix_iff_eq_take, to_bytes_length]
  exact eq_comm

def Stored (table : Table Pdu) (room : ShortRoomId) (count : Count) : Prop :=
  count.Given ∧ ∃ pdu, table.pduidPdu[RawId.ofId ⟨room, count⟩]? = some pdu

theorem row_iff (bound : room < 2 ^ 64) (row : Bytes × Pdu) :
    (table.pduidPdu[row.1]? = some row.2 ∧ toBytes 8 room <+: row.1) ↔
      ∃ count : Count, count.Given ∧ row.1 = RawId.ofId ⟨room, count⟩ ∧ table.pduidPdu[row.1]? = some row.2 := by
  constructor
  · intro found
    obtain ⟨held, inside⟩ := found
    obtain ⟨⟨other, count⟩, otherBound, given, key⟩ := table.keyed row.1 row.2 held
    rw [← key] at inside
    cases (room_begins bound otherBound).mp inside
    exact ⟨count, given, key.symm, held⟩
  · intro found
    obtain ⟨count, _, key, held⟩ := found
    exact ⟨held, key ▸ raw_inside⟩

theorem signed_rank (given : left.Given) (otherGiven : right.Given) : rank left < rank right ↔ left < right := by
  have first := given_rank given
  have second := given_rank otherGiven
  have nonzero := (given_signed given).1
  have otherNonzero := (given_signed otherGiven).1
  change _ ↔ left.intoSigned < right.intoSigned
  split at first <;> split at second <;> omega

theorem raw_lt_iff (given : left.Given) (otherGiven : right.Given) :
    compare (RawId.ofId ⟨room, left⟩) (RawId.ofId ⟨room, right⟩) = .lt ↔ left < right := by
  rw [raw_compare (given_fits given) (given_fits otherGiven), Nat.compare_eq_lt]
  exact signed_rank given otherGiven

section

variable (table : Table Pdu) (room : ShortRoomId)

def roomRows (keep : Bytes → Bool) : List (Bytes × Pdu) :=
  table.pduidPdu.toList.filter fun row => decide (toBytes 8 room <+: row.1) && keep row.1

def ahead (start : Count) : List (Bytes × Pdu) :=
  roomRows table room fun key => compare key (RawId.ofId ⟨room, start⟩) != .lt

def behind (start : Count) : List (Bytes × Pdu) :=
  (roomRows table room fun key => compare key (RawId.ofId ⟨room, start⟩) != .gt).reverse

end

theorem room_rows_member (bound : room < 2 ^ 64) {row : Bytes × Pdu} : row ∈ roomRows table room keep ↔
      ∃ count : Count, count.Given ∧ row.1 = RawId.ofId ⟨room, count⟩ ∧ table.pduidPdu[row.1]? = some row.2 ∧
      keep (RawId.ofId ⟨room, count⟩) := by
  rw [roomRows, mem_filter, mem_toList_iff_getElem?_eq_some, Bool.and_eq_true, decide_eq_true_iff,
    ← and_assoc, row_iff bound]
  constructor
  · intro found
    obtain ⟨⟨count, given, key, held⟩, kept⟩ := found
    exact ⟨count, given, key, held, key ▸ kept⟩
  · intro found
    obtain ⟨count, given, key, held, kept⟩ := found
    exact ⟨⟨count, given, key, held⟩, key ▸ kept⟩

theorem not_below_iff {start count : Count} (fits : Fits start) (given : count.Given) :
    (compare (RawId.ofId ⟨room, count⟩) (RawId.ofId ⟨room, start⟩) != .lt) = true ↔ rank start ≤ rank count := by
  rw [bne_iff_ne, raw_compare (given_fits given) fits, ne_eq, Nat.compare_eq_lt, not_lt]

theorem not_above_iff {start count : Count} (fits : Fits start) (given : count.Given) :
    (compare (RawId.ofId ⟨room, count⟩) (RawId.ofId ⟨room, start⟩) != .gt) = true ↔ rank count ≤ rank start := by
  rw [bne_iff_ne, raw_compare (given_fits given) fits, ne_eq, Nat.compare_eq_gt, not_lt]

section

variable (table : Table Pdu) (room : ShortRoomId) (start : Count)

theorem walk_ahead : ((forward table.pduidPdu (RawId.ofId ⟨room, start⟩)).takeWhile fun row =>
    decide (toBytes 8 room <+: row.1)) = ahead table room start :=
  forward_block raw_inside

theorem walk_behind : ((backward table.pduidPdu (RawId.ofId ⟨room, start⟩)).takeWhile fun row =>
    decide (toBytes 8 room <+: row.1)) = behind table room start :=
  backward_block raw_inside

end

theorem room_rows_sorted (bound : room < 2 ^ 64) :
    (roomRows table room keep).Pairwise fun a b => RawId.pduCount a.1 < RawId.pduCount b.1 := by
  refine List.Pairwise.imp_of_mem (fun {a b} first second less => ?_) (ordered_keys_toList.filter _)
  obtain ⟨count, given, key, _⟩ := (room_rows_member bound).mp first
  obtain ⟨other, otherGiven, otherKey, _⟩ := (room_rows_member bound).mp second
  rw [key, otherKey, raw_lt_iff given otherGiven] at less
  rw [key, otherKey, pdu_count_given given, pdu_count_given otherGiven]
  exact less

variable {query count : Count}

theorem as_i64_one : asI64 1 = 1 := as_i64_small (by decide)

theorem forward_rank (token : query.FromToken) (given : count.Given) :
    rank (query.saturatingInc .forward) ≤ rank count ↔
      query < count ∨ (query.intoSigned = -1 ∨ query.intoSigned = 0) ∧ count.intoSigned < 0 := by
  obtain ⟨signed, low, high, rfl⟩ := token
  have place := given_rank given
  have range := given_signed given
  change _ ↔ (Count.fromSigned signed).intoSigned < count.intoSigned ∨ _
  simp only [i64Min, i64Max] at low high range
  by_cases backfilled : signed ≤ 0
  · have stepped : max i64Min (min (signed + 1) i64Max) = signed + 1 := by
      simp only [i64Min, i64Max]
      omega
    rw [Count.fromSigned, if_pos backfilled, Count.saturatingInc, Count.saturatingAdd, Count.intoSigned, as_i64_one, stepped, rank, asU64]
    split at place <;> omega
  · have stepped : min (signed.toNat + 1) u64Max = signed.toNat + 1 := by
      simp only [u64Max]
      omega
    have unsigned : asI64 signed.toNat = signed := by
      rw [as_i64_small] <;> omega
    rw [Count.fromSigned, if_neg backfilled, Count.saturatingInc, Count.saturatingAdd, Count.intoSigned, unsigned,
      stepped, rank, if_neg (Nat.succ_ne_zero _)]
    split at place <;> omega

theorem backward_rank (token : query.FromToken) (given : count.Given) :
    rank count ≤ rank (query.saturatingInc .backward) ↔
      count < query ∧ query.intoSigned ≠ 1 ∨ query.intoSigned = i64Min ∧ count.intoSigned = i64Min := by
  obtain ⟨signed, low, high, rfl⟩ := token
  have place := given_rank given
  have range := given_signed given
  change _ ↔ count.intoSigned < (Count.fromSigned signed).intoSigned ∧ _ ∨ _
  simp only [i64Min, i64Max] at low high range ⊢
  by_cases backfilled : signed ≤ 0
  · have stepped : max i64Min (min (signed - 1) i64Max) = if signed = -9223372036854775808 then signed else signed - 1 := by
      simp only [i64Min, i64Max]
      omega
    rw [Count.fromSigned, if_pos backfilled, Count.saturatingInc, Count.saturatingSub, Count.intoSigned, as_i64_one, stepped, rank, asU64]
    split at place <;> split <;> omega
  · have unsigned : asI64 signed.toNat = signed := by
      rw [as_i64_small] <;> omega
    rw [Count.fromSigned, if_neg backfilled, Count.saturatingInc, Count.saturatingSub, Count.intoSigned, unsigned, rank]
    split at place <;> split <;> omega

theorem forward_fits (token : query.FromToken) : Fits (query.saturatingInc .forward) := by
  obtain ⟨signed, _, _, rfl⟩ := token
  by_cases backfilled : signed ≤ 0
  · rw [Count.fromSigned, if_pos backfilled]
    trivial
  · rw [Count.fromSigned, if_neg backfilled]
    have small : min (signed.toNat + 1) u64Max ≤ 18446744073709551615 := Nat.min_le_right _ _
    change min (signed.toNat + 1) u64Max < 2 ^ 64
    omega

theorem backward_fits (token : query.FromToken) : Fits (query.saturatingInc .backward) := by
  obtain ⟨signed, _, high, rfl⟩ := token
  by_cases backfilled : signed ≤ 0
  · rw [Count.fromSigned, if_pos backfilled]
    trivial
  · rw [Count.fromSigned, if_neg backfilled]
    change signed.toNat - 1 < 2 ^ 64
    simp only [i64Max] at high
    omega

variable (table room query)

def Lists (related : Count → Prop) (items : List (Count × Item)) : Prop :=
  ∀ count item, (count, item) ∈ items ↔ related count ∧ count.Given ∧
    ∃ pdu, table.pduidPdu[RawId.ofId ⟨room, count⟩]? = some pdu ∧ eachSlice pdu = item

def NextRight : Prop :=
  match nextTimelineCount table ⟨room, query⟩ with
  | .ok count =>
    Stored table room count ∧ query < count ∧ ∀ other, Stored table room other → query < other → ¬ other < count
  | .error _ => ∀ other, Stored table room other → ¬ query < other

def PrevRight : Prop :=
  match prevTimelineCount table ⟨room, query⟩ with
  | .ok count =>
    Stored table room count ∧ count < query ∧ ∀ other, Stored table room other → other < query → ¬ count < other
  | .error _ => ∀ other, Stored table room other → ¬ other < query

def PdusRight : Prop := Lists eachSlice table room (query < ·) (pdus eachSlice table room (some query)) ∧
    (pdus eachSlice table room (some query)).Pairwise fun a b => a.1 < b.1

def PdusRevRight : Prop := Lists eachSlice table room (· < query) (pdusRev eachSlice table room (some query)) ∧
    (pdusRev eachSlice table room (some query)).Pairwise fun a b => b.1 < a.1

variable {eachSlice table room query}

theorem pdus_ahead : pdus eachSlice table room (some query) = (ahead table room (query.saturatingInc .forward)).map
    fun row => (RawId.pduCount row.1, eachSlice row.2) := by
  rw [← walk_ahead, pdus, pduCountToId, raw_room]
  rfl

theorem pdus_rev_behind :
    pdusRev eachSlice table room (some query) = (behind table room (query.saturatingInc .backward)).map fun row =>
    (RawId.pduCount row.1, eachSlice row.2) := by
  rw [← walk_behind, pdusRev, pduCountToId, raw_room]
  rfl

variable {related : Count → Prop} {count : Count} {items : List (Count × Item)}

theorem rows_list (bound : room < 2 ^ 64)
    (kept : ∀ count : Count, count.Given → (keep (RawId.ofId ⟨room, count⟩) ↔ related count)) : Lists eachSlice table
    room related ((roomRows table room keep).map fun row => (RawId.pduCount row.1, eachSlice row.2)) := by
  intro count item
  rw [mem_map]
  constructor
  · intro found
    obtain ⟨row, member, same⟩ := found
    obtain ⟨other, given, key, held, reached⟩ := (room_rows_member bound).mp member
    rw [key, pdu_count_given given] at same
    cases same
    exact ⟨(kept count given).mp reached, given, row.2, key ▸ held, rfl⟩
  · intro found
    obtain ⟨holds, given, pdu, held, rfl⟩ := found
    refine ⟨(RawId.ofId ⟨room, count⟩, pdu), (room_rows_member bound).mpr ⟨count, given, rfl, held, (kept count given).mpr holds⟩, ?_⟩
    rw [pdu_count_given given]

theorem lists_congr {other : Count → Prop} (same : ∀ count, Stored table room count → (related count ↔ other count))
    (lists : Lists eachSlice table room related items) : Lists eachSlice table room other items := by
  intro count item
  rw [lists count item]
  refine and_congr_left fun stored => ?_
  obtain ⟨given, pdu, held, _⟩ := stored
  exact same count ⟨given, pdu, held⟩

theorem lists_stored (lists : Lists eachSlice table room related items) (stored : Stored table room count) :
    (∃ item, (count, item) ∈ items) ↔ related count := by
  obtain ⟨given, pdu, held⟩ := stored
  constructor
  · intro listed
    obtain ⟨item, member⟩ := listed
    exact ((lists count item).mp member).1
  · exact fun holds => ⟨eachSlice pdu, (lists count _).mpr ⟨holds, given, pdu, held, rfl⟩⟩

def Passed (query count : Count) : Prop := query < count ∨ (query.intoSigned = -1 ∨ query.intoSigned = 0) ∧
    count.intoSigned < 0

def PassedBack (query count : Count) : Prop :=
  count < query ∧ query.intoSigned ≠ 1 ∨ query.intoSigned = i64Min ∧ count.intoSigned = i64Min

theorem pdus_lists (bound : room < 2 ^ 64) (token : query.FromToken) :
    Lists eachSlice table room (Passed query) (pdus eachSlice table room (some query)) := by
  have kept : ∀ count : Count, count.Given → ((compare (RawId.ofId ⟨room, count⟩)
    (RawId.ofId ⟨room, query.saturatingInc .forward⟩) != .lt) = true ↔ Passed query count) :=
    fun count given => (not_below_iff (forward_fits token) given).trans (forward_rank token given)
  rw [pdus_ahead, ahead]
  exact rows_list bound kept

theorem pdus_rev_lists (bound : room < 2 ^ 64) (token : query.FromToken) :
    Lists eachSlice table room (PassedBack query) (pdusRev eachSlice table room (some query)) := by
  have kept : ∀ count : Count, count.Given → ((compare (RawId.ofId ⟨room, count⟩)
    (RawId.ofId ⟨room, query.saturatingInc .backward⟩) != .gt) = true ↔ PassedBack query count) :=
    fun count given => (not_above_iff (backward_fits token) given).trans (backward_rank token given)
  have rows : Lists eachSlice table room (PassedBack query) ((roomRows table room fun key =>
      compare key (RawId.ofId ⟨room, query.saturatingInc .backward⟩) != .gt).map fun row =>
        (RawId.pduCount row.1, eachSlice row.2)) := rows_list bound kept
  intro count item
  rw [pdus_rev_behind, behind, map_reverse, mem_reverse]
  exact rows count item

theorem pdus_sorted (bound : room < 2 ^ 64) :
    (pdus eachSlice table room (some query)).Pairwise fun a b => a.1 < b.1 := by
  rw [pdus_ahead, pairwise_map, ahead]
  exact room_rows_sorted bound

theorem pdus_rev_sorted (bound : room < 2 ^ 64) :
    (pdusRev eachSlice table room (some query)).Pairwise fun a b => b.1 < a.1 := by
  rw [pdus_rev_behind, pairwise_map, behind, pairwise_reverse]
  exact room_rows_sorted bound

theorem same_room (count : Count) :
    (fun row : Bytes × Pdu => decide (RawId.shortroomid row.1 = RawId.shortroomid (RawId.ofId ⟨room, count⟩))) =
      fun row => decide (toBytes 8 room <+: row.1) := by
  funext row
  exact decide_eq_decide.mpr room_eq_iff

theorem next_head : nextTimelineCount table ⟨room, query⟩ = match (pdus id table room (some query)).head? with
    | some item => .ok item.1
    | none => .error (.notFound "No more PDU's found in room") := by
  rw [nextTimelineCount, pduCountToId, same_room, walk_ahead, pdus_ahead, head?_map, head?_map]
  cases (ahead table room (query.saturatingInc .forward)).head? <;> rfl

theorem prev_head : prevTimelineCount table ⟨room, query⟩ = match (pdusRev id table room (some query)).head? with
    | some item => .ok item.1
    | none => .error (.notFound "No earlier PDU's found in room") := by
  rw [prevTimelineCount, pduCountToId, same_room, walk_behind, pdus_rev_behind, head?_map, head?_map]
  cases (behind table room (query.saturatingInc .backward)).head? <;> rfl

theorem count_lt_irrefl (count : Count) : ¬ count < count := Int.lt_irrefl _

theorem count_lt_asymm (less : left < right) : ¬ right < left := Int.lt_asymm less

theorem head_first (before : Count → Count → Prop) (irrefl : ∀ count, ¬ before count count)
    (asymm : ∀ {left right}, before left right → ¬ before right left)
    (lists : Lists eachSlice table room related items) (sorted : items.Pairwise fun a b => before a.1 b.1) :
    match items.head? with
    | some item => Stored table room item.1 ∧ related item.1 ∧ ∀ other, Stored table room other → related other → ¬ before other item.1
    | none => ∀ other, Stored table room other → ¬ related other := by
  cases items with
  | nil =>
    intro other stored holds
    obtain ⟨item, member⟩ := (lists_stored lists stored).mpr holds
    cases member
  | cons head tail =>
    obtain ⟨holds, given, pdu, held, _⟩ := (lists head.1 head.2).mp mem_cons_self
    refine ⟨⟨given, pdu, held⟩, holds, fun other stored otherHolds less => ?_⟩
    obtain ⟨item, member⟩ := (lists_stored lists stored).mpr otherHolds
    rcases mem_cons.mp member with rfl | later
    · exact irrefl _ less
    · exact asymm less ((pairwise_cons.mp sorted).1 _ later)

theorem next_right (right : PdusRight id table room query) : NextRight table room query := by
  have first := head_first (· < ·) count_lt_irrefl count_lt_asymm right.1 right.2
  rw [NextRight, next_head]
  cases head : (pdus id table room (some query)).head? <;> rw [head] at first <;> exact first

theorem prev_right (right : PdusRevRight id table room query) : PrevRight table room query := by
  have first := head_first (fun left right => right < left) count_lt_irrefl count_lt_asymm right.1 right.2
  rw [PrevRight, prev_head]
  cases head : (pdusRev id table room (some query)).head? <;> rw [head] at first <;> exact first

def Clear (table : Table Pdu) (room : ShortRoomId) (query : Count) : Prop :=
  (query.intoSigned = -1 ∨ query.intoSigned = 0 ∨ query.intoSigned = 1 → ∀ count, Stored table room count →
    0 < count.intoSigned) ∧
    (query.intoSigned = i64Min → ∀ count, Stored table room count → count.intoSigned ≠ i64Min)

theorem passed_iff (clear : Clear table room query) (stored : Stored table room count) :
    Passed query count ↔ query < count := by
  refine or_iff_left fun crossing => ?_
  have positive := clear.1 (crossing.1.imp_right .inl) count stored
  exact Int.lt_asymm positive crossing.2

theorem passed_back_iff (clear : Clear table room query) (stored : Stored table room count) :
    PassedBack query count ↔ count < query := by
  constructor
  · intro passed
    rcases passed with before | least
    · exact before.1
    · exact absurd least.2 (clear.2 least.1 count stored)
  · intro before
    refine .inl ⟨before, fun one => ?_⟩
    have positive := clear.1 (.inr (.inr one)) count stored
    have below : count.intoSigned < query.intoSigned := before
    omega

variable {each : Pdu → Item}

theorem pdus_right (bound : room < 2 ^ 64) (token : query.FromToken) (clear : Clear table room query) :
    PdusRight each table room query :=
  ⟨lists_congr (fun _ => passed_iff clear) (pdus_lists bound token), pdus_sorted bound⟩

theorem pdus_rev_right (bound : room < 2 ^ 64) (token : query.FromToken) (clear : Clear table room query) :
    PdusRevRight each table room query :=
  ⟨lists_congr (fun _ => passed_back_iff clear) (pdus_rev_lists bound token), pdus_rev_sorted bound⟩

theorem timeline_neighbours_iff (eachSlice : Pdu → Item) (table : Table Pdu) (room : ShortRoomId)
    (bound : room < 2 ^ 64) (query : Count) (token : query.FromToken) :
    (NextRight table room query ∧ PrevRight table room query ∧ PdusRight eachSlice table room query ∧
    PdusRevRight eachSlice table room query) ↔ Clear table room query := by
  constructor
  · intro right
    obtain ⟨_, _, ⟨up, _⟩, down, _⟩ := right
    have upward : ∀ count, Stored table room count → (Passed query count ↔ query < count) := fun count stored =>
      (lists_stored (pdus_lists bound token) stored).symm.trans (lists_stored up stored)
    have downward : ∀ count, Stored table room count → (PassedBack query count ↔ count < query) := fun count stored =>
      (lists_stored (pdus_rev_lists bound token) stored).symm.trans (lists_stored down stored)
    refine ⟨fun near count stored => ?_, fun least count stored same => ?_⟩
    · have nonzero := (given_signed stored.1).1
      by_contra negative
      have below : count.intoSigned < 0 := by omega
      rcases near with before | zero | one
      · have after : query.intoSigned < count.intoSigned := (upward count stored).mp (Or.inr ⟨Or.inl before, below⟩)
        omega
      · have after : query.intoSigned < count.intoSigned := (upward count stored).mp (Or.inr ⟨Or.inr zero, below⟩)
        omega
      · have side : count < query := by
          change count.intoSigned < query.intoSigned
          omega
        rcases (downward count stored).mpr side with passed | least
        · exact passed.2 one
        · have bottom := least.1.symm.trans one
          simp [i64Min] at bottom
    · have before : count.intoSigned < query.intoSigned := (downward count stored).mp (Or.inr ⟨least, same⟩)
      omega
  · intro clear
    exact ⟨next_right (pdus_right bound token clear), prev_right (pdus_rev_right bound token clear),
      pdus_right bound token clear, pdus_rev_right bound token clear⟩

end

instance (count : Count) : Decidable count.Given := match count with
  | .normal _ => inferInstanceAs (Decidable (_ ∧ _))
  | .backfilled _ => inferInstanceAs (Decidable (_ ∧ _))

def Table.ofEvents {Pdu : Type} (events : List (Id × Pdu))
    (valid : ∀ event ∈ events, event.1.shortroomid < 2 ^ 64 ∧ event.1.count.Given) : Table Pdu where
  pduidPdu := extend ∅ (events.map fun event => (RawId.ofId event.1, event.2))
  keyed key pdu held := by
    rcases extend_source held with row | absent
    · obtain ⟨event, member, same⟩ := List.mem_map.mp row
      cases same
      exact ⟨event.1, (valid event member).1, (valid event member).2, rfl⟩
    · simp at absent

def joined : Table String :=
  Table.ofEvents [(⟨7, .backfilled (-2)⟩, "$older"), (⟨7, .backfilled (-1)⟩, "$old"), (⟨7, .normal 1⟩, "$join"),
    (⟨7, .normal 2⟩, "$hello"), (⟨8, .normal 3⟩, "$other")]
    (by decide +kernel)

theorem hello_neighbours : NextRight joined 7 (.normal 2) ∧ PrevRight joined 7 (.normal 2) ∧
    PdusRight id joined 7 (.normal 2) ∧ PdusRevRight id joined 7 (.normal 2) := by
  have away : (Count.normal 2).intoSigned = 2 := by decide +kernel
  refine (timeline_neighbours_iff id joined 7 (by decide) (.normal 2) ⟨2, by decide, by decide, by decide⟩).mpr ?_
  exact ⟨fun near => by omega, fun least => by simp [away, i64Min] at least⟩

-- After the newest backfilled event the walk begins again at the oldest, and before the
-- first normal one it finds nothing.
theorem backfill_boundary_crossed : nextTimelineCount joined ⟨7, .backfilled (-1)⟩ = .ok (.backfilled (-2)) ∧
      prevTimelineCount joined ⟨7, .normal 1⟩ = .error (.notFound "No earlier PDU's found in room") ∧
      ((pdus id joined 7 (some (.backfilled (-1)))).map Prod.snd) = ["$older", "$old", "$join", "$hello"] ∧
      ¬ NextRight joined 7 (.backfilled (-1)) ∧ ¬ PrevRight joined 7 (.normal 1) := by
  have next : nextTimelineCount joined ⟨7, .backfilled (-1)⟩ = .ok (.backfilled (-2)) := by decide +kernel
  have prev : prevTimelineCount joined ⟨7, .normal 1⟩ = .error (.notFound "No earlier PDU's found in room") := by
    decide +kernel
  refine ⟨next, prev, by decide +kernel, fun right => ?_, fun right => ?_⟩
  · rw [NextRight, next] at right
    exact absurd right.2.1 (by decide)
  · rw [PrevRight, prev] at right
    refine right (.backfilled (-1)) ⟨by decide, "$old", by decide +kernel⟩ (by decide +kernel)

end GaussMatrix.Rooms.Timeline

import GaussMatrix.Library.BigEndian
import GaussMatrix.Library.SortedScan

namespace GaussMatrix.Rooms.Timeline

open BigEndian List SortedScan

abbrev Bytes := List UInt8
abbrev ShortRoomId := Nat

inductive Direction where
  | forward
  | backward

-- A u64 and an i64; the ranges are stated where they matter.
inductive Count where
  | normal (i : Nat)
  | backfilled (i : Int)
deriving DecidableEq

def u64Max : Nat := 18446744073709551615
def i64Max : Int := 9223372036854775807
def i64Min : Int := -9223372036854775808

@[irreducible] def asI64 (i : Nat) : Int := Int.bmod i (2 ^ 64)
@[irreducible] def asU64 (i : Int) : Nat := (i % 2 ^ 64).toNat

namespace Count

def fromSigned (signed : Int) : Count := if signed ≤ 0 then .backfilled signed else .normal signed.toNat

def fromUnsigned (unsigned : Nat) : Count := fromSigned (asI64 unsigned)

def intoSigned : Count → Int
  | .normal i => asI64 i
  | .backfilled i => i

def saturatingAdd (add : Nat) : Count → Count
  | .normal i => .normal (min (i + add) u64Max)
  | .backfilled i => .backfilled (max i64Min (min (i + asI64 add) i64Max))

def saturatingSub (sub : Nat) : Count → Count
  | .normal i => .normal (i - sub)
  | .backfilled i => .backfilled (max i64Min (min (i - asI64 sub) i64Max))

def saturatingInc : Direction → Count → Count
  | .forward => saturatingAdd 1
  | .backward => saturatingSub 1

def min : Count := .backfilled i64Min
def max : Count := .normal i64Max.toNat

instance : LT Count := ⟨fun left right => left.intoSigned < right.intoSigned⟩

instance (left right : Count) : Decidable (left < right) := inferInstanceAs (Decidable (_ < _))

-- What from_str makes of a pagination token: any i64.
def FromToken (count : Count) : Prop := ∃ signed, i64Min ≤ signed ∧ signed ≤ i64Max ∧ fromSigned signed = count

def Given : Count → Prop
  | .normal i => 1 ≤ i ∧ (i : Int) ≤ i64Max
  | .backfilled i => i64Min ≤ i ∧ i < 0

end Count

structure Id where
  shortroomid : ShortRoomId
  count : Count

def RawId.normalLen : Nat := 16

def RawId.ofId (id : Id) : Bytes := toBytes 8 id.shortroomid ++ match id.count with
    | .normal count => toBytes 8 count
    | .backfilled count => toBytes 8 0 ++ toBytes 8 (asU64 count)

def RawId.shortroomid (raw : Bytes) : Bytes := raw.take 8

def RawId.count (raw : Bytes) : Bytes := if raw.length = RawId.normalLen then (raw.drop 8).take 8
    else (raw.drop 16).take 8

def RawId.pduCount (raw : Bytes) : Count := Count.fromUnsigned (ofBytes (RawId.count raw))

-- The place of a count among the keys of a room: normal zero first, then the
-- backfilled ones by their unsigned value, then the other normal ones.
def rank : Count → Nat
  | .normal i => if i = 0 then 0 else 2 ^ 64 + i
  | .backfilled i => 1 + asU64 i

def Fits : Count → Prop
  | .normal i => i < 2 ^ 64
  | .backfilled _ => True

theorem as_u64_lt (i : Int) : asU64 i < 2 ^ 64 := by
  rw [asU64]
  omega

theorem word_compare {n m : Nat} (fits : n < 2 ^ 64) (otherFits : m < 2 ^ 64) (left right : Bytes) :
    compare (toBytes 8 n ++ left) (toBytes 8 m ++ right) = (compare n m).then (compare left right) :=
  to_bytes_compare 8 n m left right fits otherFits

theorem words_compare {n m : Nat} (fits : n < 2 ^ 64) (otherFits : m < 2 ^ 64) :
    compare (toBytes 8 n) (toBytes 8 m) = compare n m := by
  have words := word_compare fits otherFits [] []
  rw [append_nil, append_nil] at words
  rw [words]
  exact Ordering.then_eq

theorem normal_backfilled_compare {i : Nat} (fits : i < 2 ^ 64) (j : Int) :
    compare (toBytes 8 i) (toBytes 8 0 ++ toBytes 8 (asU64 j)) = compare (rank (.normal i)) (rank (.backfilled j)) := by
  have words := word_compare fits (by decide : 0 < 2 ^ 64) [] (toBytes 8 (asU64 j))
  have small := as_u64_lt j
  rw [append_nil] at words
  rw [words, rank, rank]
  by_cases zero : i = 0
  · have order : compare 0 (1 + asU64 j) = .lt := Nat.compare_eq_lt.mpr (by omega)
    rw [if_pos zero, zero, order]
    rfl
  · have order : compare (2 ^ 64 + i) (1 + asU64 j) = .gt := Nat.compare_eq_gt.mpr (by omega)
    have positive : compare i 0 = .gt := Nat.compare_eq_gt.mpr (by omega)
    rw [if_neg zero, order, positive]
    rfl

theorem normals_compare {i j : Nat} : compare i j = compare (rank (.normal i)) (rank (.normal j)) := by
  rw [rank, rank]
  rcases Nat.lt_trichotomy i j with less | rfl | more
  · rw [Nat.compare_eq_lt.mpr less]
    refine (Nat.compare_eq_lt.mpr ?_).symm
    split <;> split <;> omega
  · rw [Nat.compare_eq_eq.mpr rfl, Nat.compare_eq_eq.mpr rfl]
  · rw [Nat.compare_eq_gt.mpr more]
    refine (Nat.compare_eq_gt.mpr ?_).symm
    split <;> split <;> omega

theorem backfilled_compare {i j : Nat} : compare i j = compare (1 + i) (1 + j) := by
  rcases Nat.lt_trichotomy i j with less | rfl | more
  · rw [Nat.compare_eq_lt.mpr less, Nat.compare_eq_lt.mpr (by omega)]
  · rw [Nat.compare_eq_eq.mpr rfl, Nat.compare_eq_eq.mpr rfl]
  · rw [Nat.compare_eq_gt.mpr more, Nat.compare_eq_gt.mpr (by omega)]

theorem raw_compare {room : ShortRoomId} {left right : Count} (fits : Fits left) (otherFits : Fits right) :
    compare (RawId.ofId ⟨room, left⟩) (RawId.ofId ⟨room, right⟩) = compare (rank left) (rank right) := by
  rw [RawId.ofId, RawId.ofId, compare_append]
  cases left with
  | normal i =>
    cases right with
    | normal j => exact (words_compare fits otherFits).trans normals_compare
    | backfilled j => exact normal_backfilled_compare fits j
  | backfilled i =>
    cases right with
    | normal j =>
      have flipped := congrArg Ordering.swap (normal_backfilled_compare otherFits i)
      have keys : compare (toBytes 8 0 ++ toBytes 8 (asU64 i))
        (toBytes 8 j) = (compare (toBytes 8 j) (toBytes 8 0 ++ toBytes 8 (asU64 i))).swap := Std.OrientedCmp.eq_swap
      have ranks : compare (rank (.backfilled i))
        (rank (.normal j)) = (compare (rank (.normal j)) (rank (.backfilled i))).swap := Std.OrientedCmp.eq_swap
      exact (keys.trans flipped).trans ranks.symm
    | backfilled j =>
      rw [compare_append, words_compare (as_u64_lt i) (as_u64_lt j)]
      exact backfilled_compare

theorem as_i64_small {i : Nat} (small : (i : Int) ≤ 9223372036854775807) : asI64 i = i := by
  have wrapped := @Int.bmod_eq_of_le_mul_two (i : Int) (2 ^ 64) (by push_cast; omega) (by push_cast; omega)
  unfold asI64
  exact wrapped

theorem as_i64_u64 {i : Int} (low : -9223372036854775808 ≤ i) (high : i ≤ 9223372036854775807) :
    asI64 (asU64 i) = i := by
  have back : ((i % 2 ^ 64).toNat : Int) = i % 2 ^ 64 := Int.toNat_of_nonneg (by omega)
  have wrapped := @Int.bmod_eq_of_le_mul_two i (2 ^ 64) (by push_cast; omega) (by push_cast; omega)
  unfold asI64 asU64
  rw [back]
  exact (Int.emod_bmod i (2 ^ 64)).trans wrapped

variable {count : Count}

theorem given_fits (given : count.Given) : Fits count := by
  cases count with
  | normal i =>
    simp only [Count.Given, i64Max] at given
    change i < 2 ^ 64
    omega
  | backfilled i => trivial

theorem given_rank (given : count.Given) :
    (rank count : Int) = if count.intoSigned < 0 then 2 ^ 64 + 1 + count.intoSigned else 2 ^ 64 + count.intoSigned := by
  cases count with
  | normal i =>
    simp only [Count.Given, i64Max] at given
    have signed := as_i64_small given.2
    rw [rank, Count.intoSigned, signed, if_neg (by omega), if_neg (by omega)]
    push_cast
    ring
  | backfilled i =>
    simp only [Count.Given, i64Min] at given
    rw [rank, Count.intoSigned, if_pos given.2, asU64]
    omega

theorem given_signed (given : count.Given) : count.intoSigned ≠ 0 ∧ i64Min ≤ count.intoSigned ∧
    count.intoSigned ≤ i64Max ∧ Count.fromSigned count.intoSigned = count := by
  cases count with
  | normal i =>
    simp only [Count.Given, i64Max] at given
    have signed := as_i64_small given.2
    rw [Count.intoSigned, signed, i64Min, i64Max, Count.fromSigned, if_neg (by omega), Int.toNat_natCast]
    exact ⟨by omega, by omega, given.2, rfl⟩
  | backfilled i =>
    simp only [Count.Given, i64Min] at given
    rw [Count.intoSigned, i64Min, i64Max, Count.fromSigned, if_pos (by omega)]
    exact ⟨by omega, given.1, by omega, rfl⟩

theorem pdu_count_given {room : ShortRoomId} (given : count.Given) :
    RawId.pduCount (RawId.ofId ⟨room, count⟩) = count := by
  have signed := (given_signed given).2.2.2
  cases count with
  | normal i =>
    have whole : (toBytes 8 room ++ toBytes 8 i).length = RawId.normalLen := by
      rw [length_append, to_bytes_length, to_bytes_length]
      rfl
    have read : ofBytes (toBytes 8 i) = i := of_to_bytes_of_lt (given_fits given)
    rw [RawId.pduCount, RawId.count, RawId.ofId, if_pos whole, drop_left' (to_bytes_length 8 room),
      take_of_length_le (to_bytes_length 8 i).le, read]
    exact signed
  | backfilled i =>
    have other : (toBytes 8 room ++ (toBytes 8 0 ++ toBytes 8 (asU64 i))).length ≠ RawId.normalLen := by
      rw [length_append, length_append, to_bytes_length, to_bytes_length, to_bytes_length]
      decide
    have head : (toBytes 8 room ++ toBytes 8 0).length = 16 := by rw [length_append, to_bytes_length, to_bytes_length]
    have read : ofBytes (toBytes 8 (asU64 i)) = asU64 i := of_to_bytes_of_lt (as_u64_lt i)
    have back : asI64 (asU64 i) = i := as_i64_u64 given.1 (by have := given.2; omega)
    rw [RawId.pduCount, RawId.count, RawId.ofId, if_neg other, ← append_assoc, drop_left' head,
      take_of_length_le (to_bytes_length 8 _).le, read, Count.fromUnsigned, back]
    exact signed

def Id.ofRaw (raw : Bytes) : Id := ⟨ofBytes (RawId.shortroomid raw), RawId.pduCount raw⟩

theorem id_of_raw {id : Id} (room : id.shortroomid < 2 ^ 64) (given : id.count.Given) :
    Id.ofRaw (RawId.ofId id) = id := by
  have short : ofBytes (RawId.shortroomid (RawId.ofId id)) = id.shortroomid := by
    rw [RawId.shortroomid, RawId.ofId, List.take_left' (to_bytes_length 8 _)]
    exact of_to_bytes_of_lt room
  rw [Id.ofRaw, short, pdu_count_given given]

theorem given_compare {left right : Count} (given : left.Given) (otherGiven : right.Given) :
    compare (rank left) (rank right) = compare left.intoSigned right.intoSigned := by
  have place := given_rank given
  have otherPlace := given_rank otherGiven
  have nonzero := (given_signed given).1
  have otherNonzero := (given_signed otherGiven).1
  have order : (rank left < rank right ↔ left.intoSigned < right.intoSigned) ∧
    (rank left = rank right ↔ left.intoSigned = right.intoSigned) := by
    split at place <;> split at otherPlace <;> omega
  cases signed : compare left.intoSigned right.intoSigned with
  | lt => exact Nat.compare_eq_lt.mpr (order.1.mpr (compare_lt_iff_lt.mp signed))
  | eq => exact Nat.compare_eq_eq.mpr (order.2.mpr (compare_eq_iff_eq.mp signed))
  | gt =>
    have greater := compare_gt_iff_gt.mp signed
    exact Nat.compare_eq_gt.mpr (by omega)

theorem raw_ids_faithful (id other : Id) (room : id.shortroomid < 2 ^ 64) (otherRoom : other.shortroomid < 2 ^ 64)
    (given : id.count.Given) (otherGiven : other.count.Given) :
    Id.ofRaw (RawId.ofId id) = id ∧ (RawId.ofId id = RawId.ofId other → id = other) ∧
      (id.shortroomid = other.shortroomid → compare (RawId.ofId id)
      (RawId.ofId other) = compare id.count.intoSigned other.count.intoSigned) := by
  refine ⟨id_of_raw room given, fun same => ?_, fun sameRoom => ?_⟩
  · rw [← id_of_raw room given, same, id_of_raw otherRoom otherGiven]
  · obtain ⟨shortroomid, count⟩ := id
    cases sameRoom
    rw [← given_compare given otherGiven]
    exact raw_compare (given_fits given) (given_fits otherGiven)

theorem backfilled_before_normal :
    Id.ofRaw (RawId.ofId ⟨7, .backfilled (-1)⟩) = ⟨7, .backfilled (-1)⟩ ∧ compare (RawId.ofId ⟨7, .backfilled (-1)⟩)
    (RawId.ofId ⟨7, .normal 1⟩) = .lt := by
  obtain ⟨back, _, order⟩ := raw_ids_faithful ⟨7, .backfilled (-1)⟩ ⟨7, .normal 1⟩ (by decide)
    (by decide) ⟨by decide, by decide⟩ ⟨by decide, by decide⟩
  exact ⟨back, (order rfl).trans (by decide +kernel)⟩

end GaussMatrix.Rooms.Timeline

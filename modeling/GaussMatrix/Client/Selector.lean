import GaussMatrix.Library.Collections

namespace GaussMatrix.Client.Selector

open Collections List Std

abbrev UInt := Fin (2 ^ 53)

structure WindowRoom where
  roomId : String
  lists : List String
  lastCount : Nat
deriving DecidableEq

def FULL_RANGE : UInt × UInt := (0, Fin.last _)

-- Of the connection only the roomsince of each of its rooms is read.
variable (conn : BTreeMap String Nat) (rooms : List WindowRoom) (id : String) (ranges : List (UInt × UInt))
  (room : WindowRoom)

def isChanged : Bool := conn[room.roomId]?.any fun since => since == 0 || decide (room.lastCount > since)

def listed : List WindowRoom := rooms.filter (·.lists.contains id)

def cut (range : UInt × UInt) : List WindowRoom :=
  ((rooms.zipIdx.dropWhile (·.2 < range.1.val)).take (min (range.2.val + 1) (2 ^ 64 - 1) - range.1.val)).map Prod.fst

def select : List WindowRoom :=
  (ranges ++ if ranges.isEmpty then [FULL_RANGE] else []).flatMap (cut ((listed rooms id).filter (isChanged conn)))

def Within (position : Nat) : Prop := ranges = [] ∨ ∃ range ∈ ranges, range.1.val ≤ position ∧ position ≤ range.2.val

theorem drop_while_index (start first : Nat) :
    (rooms.zipIdx first).dropWhile (·.2 < start) = (rooms.zipIdx first).drop (start - first) := by
  induction rooms generalizing first with
  | nil => simp
  | cons room rest ih =>
    rw [zipIdx_cons, dropWhile_cons]
    by_cases before : first < start
    · rw [if_pos (decide_eq_true before), ih, show start - first = start - (first + 1) + 1 by omega, drop_succ_cons]
    · rw [if_neg (by simpa using before), Nat.sub_eq_zero_of_le (Nat.le_of_not_lt before), drop_zero]

theorem cut_iff (range : UInt × UInt) : room ∈ cut rooms range ↔ ∃ position, rooms[position]? = some room ∧
    range.1.val ≤ position ∧ position ≤ range.2.val := by
  have small := range.2.isLt
  rw [cut, drop_while_index, map_take, map_drop, zipIdx_map_fst, mem_iff_getElem?]
  simp only [getElem?_take, getElem?_drop, ite_eq_iff]
  constructor
  · rintro ⟨index, ⟨inside, found⟩ | ⟨-, impossible⟩⟩
    · exact ⟨_, found, by omega, by omega⟩
    · cases impossible
  · rintro ⟨position, found, above, below⟩
    refine ⟨position - range.1.val, .inl ⟨by omega, ?_⟩⟩
    rwa [Nat.sub_zero, Nat.add_sub_cancel' above]

variable {conn rooms id ranges room}

-- The position of a room among the changed ones.
def rank (conn : BTreeMap String Nat) (rooms : List WindowRoom) (position : Nat) : Nat :=
  (rooms.take position).countP (isChanged conn)

theorem changed_at (rank' : Nat) : (rooms.filter (isChanged conn))[rank']? = some room ↔
    isChanged conn room ∧ ∃ position, rooms[position]? = some room ∧ rank conn rooms position = rank' := by
  induction rooms generalizing rank' with
  | nil => simp
  | cons head rest ih =>
    have later : ∀ position, rank conn (head :: rest)
      (position + 1) = rank conn rest position + if isChanged conn head then 1 else 0 := fun position => by
      rw [rank, take_succ_cons, countP_cons, rank]
    by_cases changed : isChanged conn head
    · rw [filter_cons_of_pos changed]
      cases rank' with
      | zero =>
        rw [getElem?_cons_zero, Option.some.injEq]
        refine ⟨fun same => ⟨same ▸ changed, 0, congrArg some same, rfl⟩, ?_⟩
        rintro ⟨_, position, found, first⟩
        cases position with
        | zero => exact Option.some.inj found
        | succ position =>
          rw [later, if_pos changed] at first
          cases first
      | succ rank' =>
        rw [getElem?_cons_succ, ih]
        refine and_congr_right fun _ => ⟨?_, ?_⟩
        · rintro ⟨position, found, same⟩
          exact ⟨position + 1, found, by rw [later, if_pos changed, same]⟩
        · rintro ⟨position, found, same⟩
          cases position with
          | zero => cases same
          | succ position =>
            rw [later, if_pos changed] at same
            exact ⟨position, found, Nat.succ.inj same⟩
    · rw [filter_cons_of_neg changed, ih]
      refine and_congr_right fun shown => ⟨?_, ?_⟩
      · rintro ⟨position, found, same⟩
        exact ⟨position + 1, found, by rw [later, if_neg changed, Nat.add_zero, same]⟩
      · rintro ⟨position, found, same⟩
        cases position with
        | zero => exact absurd (Option.some.inj found ▸ shown) changed
        | succ position =>
          rw [later, if_neg changed, Nat.add_zero] at same
          exact ⟨position, found, same⟩

theorem select_iff (fits : rooms.length ≤ 2 ^ 53) : room ∈ select conn rooms id ranges ↔
    isChanged conn room ∧ ∃ position, (listed rooms id)[position]? = some room ∧
    Within ranges (rank conn (listed rooms id) position) := by
  have ranked : (∃ position, ((listed rooms id).filter (isChanged conn))[position]? = some room ∧
    Within ranges position) ↔
      isChanged conn room ∧ ∃ position, (listed rooms id)[position]? = some room ∧ Within ranges (rank conn (listed rooms id) position) := by
    simp only [changed_at]
    constructor
    · rintro ⟨_, ⟨changed, position, found, rfl⟩, within⟩
      exact ⟨changed, position, found, within⟩
    · rintro ⟨changed, position, found, within⟩
      exact ⟨_, ⟨changed, position, found, rfl⟩, within⟩
  rw [← ranked]
  by_cases none : ranges = []
  · subst none
    rw [select, isEmpty_nil, if_pos rfl, nil_append, flatMap_singleton, cut_iff]
    refine exists_congr fun position => and_congr_right fun found => iff_of_true ⟨Nat.zero_le _, Nat.le_of_lt_succ ?_⟩ (.inl rfl)
    exact (List.getElem?_eq_some_iff.mp found).1.trans_le ((filter_sublist.trans filter_sublist).length_le.trans fits)
  · rw [select, if_neg (mt List.isEmpty_iff.mp none), append_nil, mem_flatMap]
    simp only [cut_iff, Within, none, false_or]
    constructor
    · rintro ⟨range, given, position, found, inside⟩
      exact ⟨position, found, range, given, inside⟩
    · rintro ⟨position, found, range, given, inside⟩
      exact ⟨range, given, position, found, inside⟩

-- Positions are counted without the unchanged rooms: each changed room has to be inside the ranges by that count just
-- when it is by its place in the list.
theorem window_follows_ranges (fits : rooms.length ≤ 2 ^ 53) (distinct : rooms.Nodup) :
    (∀ room, room ∈ select conn rooms id ranges ↔ isChanged conn room ∧
    ∃ position, (listed rooms id)[position]? = some room ∧ Within ranges position) ↔
      ∀ position, ∀ room ∈ (listed rooms id)[position]?, isChanged conn room →
        (Within ranges position ↔ Within ranges (rank conn (listed rooms id) position)) := by
  simp only [select_iff fits]
  have alone : ∀ (position other : Nat) (room : WindowRoom), (listed rooms id)[position]? = some room →
    (listed rooms id)[other]? = some room → other = position := by
    intro position other room found again
    obtain ⟨inside, _⟩ := List.getElem?_eq_some_iff.mp found
    exact ((getElem?_inj inside (distinct.filter _)).mp (found.trans again.symm)).symm
  constructor
  · intro same position room found changed
    have both := and_congr_right_iff.mp (same room) changed
    constructor
    · intro within
      obtain ⟨other, again, ranked⟩ := both.mpr ⟨position, found, within⟩
      exact alone position other room found again ▸ ranked
    · intro ranked
      obtain ⟨other, again, within⟩ := both.mp ⟨position, found, ranked⟩
      exact alone position other room found again ▸ within
  · intro met room
    refine and_congr_right fun changed => exists_congr fun position => and_congr_right fun found => ?_
    exact (met position room found changed).symm

def sent (since : Nat) : BTreeMap String Nat := (ExtTreeMap.empty.insert "a" since).insert "b" 0

def older : WindowRoom := ⟨"b", ["l"], 2⟩

-- The unchanged room before it moves the other one to a position that is inside as well.
theorem older_shown : older ∈ select (sent 5) [⟨"a", ["l"], 5⟩, older] "l" [(0, 9)] := by
  refine ((window_follows_ranges (by decide) (by decide)).mpr ?_ older).mpr
    ⟨by decide +kernel, 1, by decide +kernel, .inr ⟨(0, 9), by decide⟩⟩
  intro position room found changed
  have small : position < 2 := (List.getElem?_eq_some_iff.mp found).1.trans_le (by decide +kernel)
  have fewer : rank (sent 5) (listed [⟨"a", ["l"], 5⟩, older] "l") position ≤ position :=
    countP_le_length.trans (length_take_le _ _)
  have inside : ∀ at' < 2, Within [(0, 9)] at' :=
    fun at' below => .inr ⟨(0, 9), by simp, Nat.zero_le _, below.le.trans (by decide)⟩
  exact iff_of_true (inside _ small) (inside _ (fewer.trans_lt small))

theorem older_hidden : select (sent 5) [⟨"a", ["l"], 5⟩, older] "l" [(1, 1)] = [] ∧ isChanged (sent 5) older ∧
    (listed [⟨"a", ["l"], 5⟩, older] "l")[1]? = some older ∧ Within [(1, 1)] 1 :=
  ⟨by decide +kernel, by decide +kernel, by decide +kernel, Or.inr ⟨(1, 1), by decide⟩⟩

end GaussMatrix.Client.Selector

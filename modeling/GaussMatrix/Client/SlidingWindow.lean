import GaussMatrix.Library.Diffs

namespace GaussMatrix.Client

open Collections Diffs List Std ExtTreeSet

structure SlidingWindow where
  rooms : List String
  ranges : List (Nat × Nat)

namespace SlidingWindow

def new (rooms : List String) : SlidingWindow := ⟨rooms, []⟩

def addRange (count : Nat) (indices : BTreeSet Nat) (range : Nat × Nat) : BTreeSet Nat :=
  if range.1 ≥ count then indices
  else (range' range.1 (min range.2 (count - 1) + 1 - range.1)).foldl (fun set index => set.insert index) indices

variable (window : SlidingWindow)

def visibleIndices : BTreeSet Nat := window.ranges.foldl (addRange window.rooms.length) ∅

def visible : List String := window.visibleIndices.toList.filterMap (window.rooms[·]?)

def request (ranges : List (Nat × Nat)) : SlidingWindow × List String :=
  let next := { window with ranges }
  (next, (next.visibleIndices.toList.filter (· ∉ window.visibleIndices)).filterMap (window.rooms[·]?))

def reorder (rooms : List String) : SlidingWindow × List String :=
  let next := { window with rooms }
  (next, next.visible.filter (· ∉ window.visible))

inductive Act where
  | request (ranges : List (Nat × Nat))
  | reorder (rooms : { rooms : List String // rooms.Nodup })

def step : Act → SlidingWindow × List String
  | .request ranges => window.request ranges
  | .reorder rooms => window.reorder rooms

-- The window reached and the deltas returned on the way.
def run (acts : List Act) : SlidingWindow × List (List String) :=
  acts.foldl (fun reached act => ((reached.1.step act).1, reached.2 ++ [(reached.1.step act).2])) (window, [])

theorem add_range_iff (count : Nat) (indices : BTreeSet Nat) (range : Nat × Nat) (index : Nat) :
    index ∈ addRange count indices range ↔ index ∈ indices ∨ index < count ∧ range.1 ≤ index ∧ index ≤ range.2 := by
  rw [addRange]
  split
  case isTrue outside => exact ⟨.inl, fun either => either.resolve_right (by omega)⟩
  case isFalse =>
    rw [insert_all_member, mem_range'_1]
    refine or_congr_right ?_
    omega

theorem visible_index_iff (index : Nat) : index ∈ window.visibleIndices ↔ index < window.rooms.length ∧
    ∃ range ∈ window.ranges, range.1 ≤ index ∧ index ≤ range.2 := by
  have folded : ∀ (ranges : List (Nat × Nat)) (set : BTreeSet Nat),
    index ∈ ranges.foldl (addRange window.rooms.length) set ↔
      index ∈ set ∨ index < window.rooms.length ∧ ∃ range ∈ ranges, range.1 ≤ index ∧ index ≤ range.2 := by
    intro ranges
    induction ranges with
    | nil => simp
    | cons range rest ih =>
      intro set
      rw [foldl_cons, ih, add_range_iff, exists_mem_cons_iff, or_assoc, and_or_left]
  rw [visibleIndices, folded, or_iff_right not_mem_empty]

theorem indices_sublist : window.visibleIndices.toList <+ range window.rooms.length := by
  have ordered : window.visibleIndices.toList.Pairwise (· < ·) := ordered_toList.imp compare_lt_iff_lt.mp
  refine sublist_of_subperm_of_pairwise (subperm_of_subset (ordered.imp Nat.ne_of_lt) fun index member => ?_)
    (ordered.imp Nat.le_of_lt) (pairwise_lt_range.imp Nat.le_of_lt)
  rw [mem_toList, visible_index_iff] at member
  exact mem_range.mpr member.1

theorem visible_sublist : window.visible <+ window.rooms := by
  have all : ∀ rooms : List String, (range rooms.length).filterMap (rooms[·]?) = rooms := by
    intro rooms
    induction rooms with
    | nil => rfl
    | cons room rest ih => simp [range_succ_eq_map, filterMap_map, ih]
  have shown := (indices_sublist window).filterMap (window.rooms[·]?)
  rwa [all] at shown

theorem visible_iff (room : String) : room ∈ window.visible ↔ ∃ index, window.rooms[index]? = some room ∧
    ∃ range ∈ window.ranges, range.1 ≤ index ∧ index ≤ range.2 := by
  rw [visible, mem_filterMap]
  refine exists_congr fun index => ?_
  rw [mem_toList, visible_index_iff, and_comm]
  refine and_congr_right fun read => and_iff_right ?_
  exact (List.getElem?_eq_some_iff.mp read).1

variable (distinct : window.rooms.Nodup)

include distinct

theorem shown_iff {index : Nat} {room : String} (read : window.rooms[index]? = some room) :
    room ∈ window.visible ↔ index ∈ window.visibleIndices := by
  rw [visible, mem_filterMap]
  constructor
  · intro shown
    obtain ⟨other, member, same⟩ := shown
    rw [(getElem?_inj (List.getElem?_eq_some_iff.mp read).1 distinct).mp (read.trans same.symm)]
    exact mem_toList.mp member
  · intro inside
    exact ⟨index, mem_toList.mpr inside, read⟩

theorem step_delta {act : Act} : (window.step act).2 = (window.step act).1.visible.filter (· ∉ window.visible) ∧
    (window.step act).1.rooms.Nodup := by
  cases act with
  | reorder rooms => exact ⟨rfl, rooms.property⟩
  | request ranges =>
    refine ⟨?_, distinct⟩
    simp only [step, request]
    rw [visible.eq_def ⟨window.rooms, ranges⟩, filterMap_filter, filter_filterMap]
    refine filterMap_congr fun index _ => ?_
    cases read : window.rooms[index]? with
    | none => simp
    | some room => by_cases inside : index ∈ window.visibleIndices <;> simp [Option.filter, shown_iff window distinct read, inside]

theorem run_reveals (acts : List Act) : (window.run acts).1.rooms.Nodup ∧
    ∀ room ∈ (window.run acts).1.visible, room ∈ window.visible ∨ ∃ delta ∈ (window.run acts).2, room ∈ delta := by
  induction acts using reverseRecOn with
  | nil => exact ⟨distinct, fun room shown => .inl shown⟩
  | append_singleton acts act ih =>
    obtain ⟨delta, kept⟩ := step_delta _ ih.1
    simp only [run, foldl_append, foldl_cons, foldl_nil]
    rw [← run]
    refine ⟨kept, fun room shown => ?_⟩
    by_cases before : room ∈ (window.run acts).1.visible
    · rcases ih.2 room before with first | ⟨earlier, member, revealed⟩
      · exact .inl first
      · exact .inr ⟨earlier, mem_append_left _ member, revealed⟩
    · refine .inr ⟨_, mem_append_right _ mem_cons_self, ?_⟩
      rw [delta, mem_filter, decide_eq_true_iff]
      exact ⟨shown, before⟩

omit distinct

theorem deltas_complete (rooms : { rooms : List String // rooms.Nodup }) (acts : List Act) :
    let reached := (new rooms).run acts
    (∀ ranges, (reached.1.request ranges).1 = ⟨reached.1.rooms, ranges⟩) ∧ (∀ others, (reached.1.reorder others).1 = ⟨others, reached.1.ranges⟩) ∧
      (∀ act, (reached.1.step act).2 = (reached.1.step act).1.visible.filter (· ∉ reached.1.visible)) ∧
      reached.1.visible <+ reached.1.rooms ∧ reached.1.visible.Nodup ∧ (∀ room, room ∈ reached.1.visible ↔
          ∃ index, reached.1.rooms[index]? = some room ∧ ∃ range ∈ reached.1.ranges, range.1 ≤ index ∧ index ≤ range.2) ∧
          ∀ room ∈ reached.1.visible, ∃ delta ∈ reached.2, room ∈ delta := by
  intro reached
  obtain ⟨distinct, revealed⟩ := run_reveals (new rooms) rooms.property acts
  have shown := visible_sublist reached.1
  refine ⟨fun _ => rfl, fun _ => rfl, fun act => (step_delta reached.1 distinct).1, shown, distinct.sublist shown,
    visible_iff reached.1, fun room inside => ?_⟩
  refine (revealed room inside).resolve_left fun first => ?_
  simp [visible_iff, new] at first

def threeRooms : { rooms : List String // rooms.Nodup } := ⟨["a", "b", "c"], by decide⟩

def grown : List Act := [.request [(0, 0)], .request [(0, 1)], .reorder ⟨["c", "a", "b"], by decide⟩]

theorem grown_deltas_complete : ((new threeRooms).run grown).2 = [["a"], ["b"], ["c"]] ∧
    ((new threeRooms).run grown).1.visible = ["c", "a"] ∧
    ∀ room ∈ ((new threeRooms).run grown).1.visible, ∃ delta ∈ ((new threeRooms).run grown).2, room ∈ delta :=
  ⟨by decide +kernel, by decide +kernel, (deltas_complete threeRooms grown).2.2.2.2.2.2⟩

end SlidingWindow

end GaussMatrix.Client

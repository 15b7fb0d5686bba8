import GaussMatrix.Library.Collections

namespace GaussMatrix.NestedMap

open Collections List Option Std Std.ExtTreeMap

variable {A B V : Type} [Ord A] [TransOrd A] [Ord B] [TransOrd B]

abbrev Nested (A B V : Type) [Ord A] [Ord B] := BTreeMap A (BTreeMap B V)

section

variable (map : Nested A B V)

def put (row : (A × B) × V) : Nested A B V := map.insert row.1.1 ((map[row.1.1]?.getD ∅).insert row.1.2 row.2)

def read (pair : A × B) : Option V := map[pair.1]?.bind fun inner => inner[pair.2]?

def pairs : List (A × B) := map.toList.flatMap fun row => row.2.keys.map fun key => (row.1, key)

def size : Nat := (map.toList.map fun row => row.2.size).sum

theorem size_pairs : size map = (pairs map).length := by
  rw [pairs, length_flatMap, size]
  simp only [length_map, length_keys]

end

theorem read_put {map : Nested A B V} {row : (A × B) × V} : read (put map row) row.1 = some row.2 := by
  rw [read, put, getElem?_insert_self, bind_some, getElem?_insert_self]

variable [LawfulEqOrd A] [LawfulEqOrd B] {rows : List ((A × B) × V)}

theorem pairs_member {map : Nested A B V} (pair : A × B) : pair ∈ pairs map ↔ ∃ value, read map pair = some value := by
  obtain ⟨a, b⟩ := pair
  rw [pairs, mem_flatMap]
  constructor
  · rintro ⟨⟨key, inner⟩, row, member⟩
    obtain ⟨other, listed, same⟩ := mem_map.mp member
    cases same
    have outer := mem_toList_iff_getElem?_eq_some.mp row
    obtain ⟨value, held⟩ := mem_iff_read.mp (mem_keys.mp listed)
    exact ⟨value, bind_eq_some_iff.mpr ⟨inner, outer, held⟩⟩
  · rintro ⟨value, held⟩
    obtain ⟨inner, outer, held⟩ := bind_eq_some_iff.mp held
    refine ⟨(a, inner), mem_toList_iff_getElem?_eq_some.mpr outer, mem_map.mpr ⟨b, ?_, rfl⟩⟩
    exact mem_keys.mpr (mem_iff_read.mpr ⟨_, held⟩)

omit [LawfulEqOrd B] in
theorem pairs_nodup (map : Nested A B V) : (pairs map).Nodup := by
  rw [pairs, nodup_flatMap]
  refine ⟨fun row _ => ?_, ordered_keys_toList.imp fun {row other} less => ?_⟩
  · exact (nodup_keys).map fun key other same => (Prod.mk.inj same).2
  · intro pair inRow inOther
    obtain ⟨_, _, rfl⟩ := mem_map.mp inRow
    obtain ⟨_, _, same⟩ := mem_map.mp inOther
    have equal : compare row.1 other.1 = .eq := (Prod.mk.inj same).1 ▸ ReflCmp.compare_self
    cases less.symm.trans equal

variable {pair : A × B}

theorem read_put_elsewhere {map : Nested A B V} {row : (A × B) × V} (other : pair ≠ row.1) :
    read (put map row) pair = read map pair := by
  obtain ⟨⟨a, b⟩, value⟩ := row
  obtain ⟨outer, inner⟩ := pair
  by_cases same : outer = a
  · subst same
    have apart : inner ≠ b := fun same => other (same ▸ rfl)
    rw [read, put, getElem?_insert_self, bind_some, insert_elsewhere apart, read]
    cases map[outer]? with
    | none => exact getElem?_empty
    | some held => rfl
  · rw [read, put, insert_elsewhere same, read]

def fill (rows : List ((A × B) × V)) : Nested A B V := rows.foldl put ∅

theorem fill_source {value : V} (held : read (fill rows) pair = some value) : (pair, value) ∈ rows := by
  induction rows using reverseRecOn with
  | nil =>
    cases held
  | append_singleton rows row ih =>
    rw [fill, foldl_append, foldl_cons, foldl_nil] at held
    by_cases same : pair = row.1
    · rw [same, read_put] at held
      cases held
      exact mem_append_right rows (same ▸ mem_singleton_self row)
    · rw [read_put_elsewhere same] at held
      exact mem_append_left [row] (ih held)

theorem fill_present {value : V} (member : (pair, value) ∈ rows) : ∃ last, read (fill rows) pair = some last := by
  induction rows using reverseRecOn with
  | nil => cases member
  | append_singleton rows row ih =>
    rw [fill, foldl_append, foldl_cons, foldl_nil]
    by_cases same : pair = row.1
    · rw [same]
      exact ⟨row.2, read_put⟩
    · rw [read_put_elsewhere same]
      refine ih ((mem_append.mp member).resolve_right fun last => same ?_)
      rw [← mem_singleton.mp last]

theorem read_fill {value : A × B → Option V} (rowsOf : ∀ pair held, (pair, held) ∈ rows ↔ value pair = some held) :
    read (fill rows) pair = value pair := by
  refine Option.ext fun held => ⟨fun source => (rowsOf pair held).mp (fill_source source), fun isValue => ?_⟩
  obtain ⟨last, present⟩ := fill_present ((rowsOf pair held).mpr isValue)
  have same := (rowsOf pair last).mp (fill_source present)
  rw [present, ← same, isValue]

end GaussMatrix.NestedMap

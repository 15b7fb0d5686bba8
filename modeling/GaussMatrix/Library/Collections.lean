import Mathlib

set_option autoImplicit false
-- The order instances are shared by the whole section, also by lemmas that need only some of them.
set_option linter.unusedSectionVars false

namespace GaussMatrix.Collections

open List Std ExtTreeMap ExtTreeSet

-- Ordered maps and sets are observed through lookup, membership and ascending
-- traversal only. The extensional trees of Std give exactly that: two maps with
-- the same lookups are equal, whatever order their entries arrived in.
abbrev BTreeMap (K V : Type) [Ord K] := ExtTreeMap K V
abbrev BTreeSet (K : Type) [Ord K] := ExtTreeSet K

section

variable {K V : Type} [Ord K] [TransOrd K] [LawfulEqOrd K] (map : BTreeMap K V) (keys : List K)
  (rows : List (K × V)) (key : K)

theorem mem_iff_read {map : BTreeMap K V} {key : K} : key ∈ map ↔ ∃ value, map[key]? = some value :=
  mem_iff_isSome_getElem?.trans Option.isSome_iff_exists

variable {map key} in
theorem insert_elsewhere {other : K} {value : V} (different : other ≠ key) :
    (map.insert key value)[other]? = map[other]? := by
  rw [ExtTreeMap.getElem?_insert, if_neg]
  intro same
  exact different (LawfulEqOrd.eq_of_compare same).symm

theorem insert_if_new_held {other : K} {value : V} {held : V} (read : map[other]? = some held) :
    (map.insertIfNew key value)[other]? = some held := by
  have present : other ∈ map := by simp [mem_iff_isSome_getElem?, read]
  rw [getElem?_insertIfNew, if_neg, read]
  intro new
  rw [LawfulEqOrd.eq_of_compare new.1] at new
  exact new.2 present

theorem insert_if_new_source {other : K} {value held : V} (read : (map.insertIfNew key value)[other]? = some held) :
    map[other]? = some held ∨ (other = key ∧ held = value) := by
  rw [getElem?_insertIfNew] at read
  by_cases new : compare key other = .eq ∧ ¬ key ∈ map
  · rw [if_pos new] at read
    exact .inr ⟨(LawfulEqOrd.eq_of_compare new.1).symm, (Option.some.inj read).symm⟩
  · rw [if_neg new] at read
    exact .inl read

theorem erase_source {map : BTreeMap K V} {key other : K} {value : V} (read : (map.erase key)[other]? = some value) :
    map[other]? = some value := by
  rw [getElem?_erase] at read
  split at read
  case isTrue => cases read
  case isFalse => exact read

theorem erase_apart {map : BTreeMap K V} {key other : K} {value : V} (read : (map.erase key)[other]? = some value) :
    other ≠ key := by
  rintro rfl
  rw [getElem?_erase_self] at read
  cases read

def eraseAll (map : BTreeMap K V) (keys : List K) : BTreeMap K V :=
  keys.foldl (fun current key => current.erase key) map

theorem erase_all_lookup [DecidableEq K] : (eraseAll map keys)[key]? = if key ∈ keys then none else map[key]? := by
  induction keys generalizing map with
  | nil => rfl
  | cons first rest ih =>
    have step : (eraseAll map (first :: rest))[key]? = if key ∈ rest then none else (map.erase first)[key]? := ih (map.erase first)
    rw [step]
    by_cases later : key ∈ rest
    · rw [if_pos later, if_pos (mem_cons_of_mem first later)]
    · by_cases same : key = first
      · rw [if_neg later, same, getElem?_erase_self, if_pos mem_cons_self]
      · rw [if_neg later, if_neg fun member => (mem_cons.mp member).elim same later, getElem?_erase, if_neg]
        exact fun equal => same (LawfulEqCmp.compare_eq_iff_eq.mp equal).symm

theorem contains_iff_some : map.contains key = true ↔ ∃ value, map[key]? = some value := by
  rw [contains_eq_isSome_getElem?, Option.isSome_iff_exists]

def extend (map : BTreeMap K V) (rows : List (K × V)) : BTreeMap K V :=
  rows.foldl (fun current row => current.insert row.1 row.2) map

theorem extend_outside (outside : ∀ row ∈ rows, row.1 ≠ key) : (extend map rows)[key]? = map[key]? := by
  induction rows generalizing map with
  | nil => rfl
  | cons row tail ih =>
    have step := ih (map.insert row.1 row.2) (fun other member => outside other (by simp [member]))
    have head : key ≠ row.1 := Ne.symm (outside row (by simp))
    exact step.trans (insert_elsewhere head)

-- When every pair agrees with one partial function, the order of the pairs and
-- their repetitions cannot be seen in the result.
theorem extend_consistent (read : K → Option V) (consistent : ∀ row ∈ rows, read row.1 = some row.2) {key : K}
    (member : ∃ row ∈ rows, row.1 = key) : (extend map rows)[key]? = read key := by
  induction rows generalizing map with
  | nil => simp at member
  | cons row tail ih =>
    have tailConsistent : ∀ other ∈ tail, read other.1 = some other.2 := fun other inTail => consistent other (by simp [inTail])
    by_cases later : ∃ other ∈ tail, other.1 = key
    · exact ih (map.insert row.1 row.2) tailConsistent later
    · have here : row.1 = key := by
        obtain ⟨other, inRows, same⟩ := member
        rcases mem_cons.mp inRows with atHead | inTail
        · rw [← atHead, same]
        · exact absurd ⟨other, inTail, same⟩ later
      have rest : (extend (map.insert row.1 row.2) tail)[key]? = (map.insert row.1 row.2)[key]? := by
        apply extend_outside
        intro other inTail same
        exact later ⟨other, inTail, same⟩
      change (extend (map.insert row.1 row.2) tail)[key]? = read key
      rw [rest, ← here, getElem?_insert_self, consistent row (by simp)]

variable {map rows key} in
theorem extend_source {value : V} (read : (extend map rows)[key]? = some value) :
    (key, value) ∈ rows ∨ map[key]? = some value := by
  induction rows generalizing map with
  | nil => exact .inr read
  | cons row tail ih =>
    rcases ih read with later | here
    · exact .inl (by simp [later])
    · by_cases same : key = row.1
      · subst same
        rw [getElem?_insert_self] at here
        cases here
        exact .inl (by simp)
      · rw [insert_elsewhere same] at here
        exact .inr here

variable {rows key} in
theorem extend_present (present : ∃ row ∈ rows, row.1 = key) :
    ∃ value, (key, value) ∈ rows ∧ (extend map rows)[key]? = some value := by
  induction rows generalizing map with
  | nil => simp at present
  | cons row tail ih =>
    by_cases later : ∃ other ∈ tail, other.1 = key
    · obtain ⟨value, member, read⟩ := ih (map.insert row.1 row.2) later
      exact ⟨value, by simp [member], read⟩
    · have here : row.1 = key := by
        obtain ⟨other, inRows, same⟩ := present
        rcases mem_cons.mp inRows with atHead | inTail
        · rw [← atHead, same]
        · exact absurd ⟨other, inTail, same⟩ later
      have rest := extend_outside (map.insert row.1 row.2) tail key fun other inTail same => later ⟨other, inTail, same⟩
      refine ⟨row.2, by simp [← here], rest.trans ?_⟩
      rw [← here, getElem?_insert_self]

theorem extend_map {other : BTreeMap K V} {key : K} : (extend map other.toList)[key]? = other[key]?.or map[key]? := by
  cases found : other[key]? with
  | none =>
    apply extend_outside
    intro row member same
    have read : other[row.1]? = some row.2 := mem_toList_iff_getElem?_eq_some.mp member
    rw [same, found] at read
    cases read
  | some value =>
    rw [Option.some_or, ← found]
    apply extend_consistent map other.toList (fun k => other[k]?)
    · exact fun row member => mem_toList_iff_getElem?_eq_some.mp member
    · exact ⟨(key, value), mem_toList_iff_getElem?_eq_some.mpr found, rfl⟩

def restrict (keys : List K) (map : BTreeMap K V) : BTreeMap K V :=
  extend ∅ (keys.filterMap fun key => map[key]?.map fun value => (key, value))

theorem restrict_row {map : BTreeMap K V} {row : K × V} :
    row ∈ (keys.filterMap fun key => map[key]?.map fun value => (key, value)) ↔
      row.1 ∈ keys ∧ map[row.1]? = some row.2 := by
  simp only [mem_filterMap, Option.map_eq_some_iff]
  constructor
  · intro ⟨key, member, value, read, same⟩
    subst same
    exact ⟨member, read⟩
  · intro ⟨member, read⟩
    exact ⟨row.1, member, row.2, read, rfl⟩

theorem restrict_get (map : BTreeMap K V) (key : K) (value : V) :
    (restrict keys map)[key]? = some value ↔ key ∈ keys ∧ map[key]? = some value := by
  have consistent : ∀ row ∈ (keys.filterMap fun key => map[key]?.map fun value => (key, value)),
    map[row.1]? = some row.2 := fun row member => ((restrict_row keys).mp member).2
  by_cases hit : ∃ row ∈ (keys.filterMap fun key => map[key]?.map fun value => (key, value)), row.1 = key
  · rw [restrict, extend_consistent ∅ _ (fun k => map[k]?) consistent hit]
    obtain ⟨row, member, rfl⟩ := hit
    have inKeys := ((restrict_row keys).mp member).1
    exact ⟨fun read => ⟨inKeys, read⟩, fun both => both.2⟩
  · have outside : ∀ row ∈ (keys.filterMap fun key => map[key]?.map fun value => (key, value)), row.1 ≠ key :=
      fun row member same => hit ⟨row, member, same⟩
    rw [restrict, extend_outside ∅ _ key outside]
    constructor
    · intro read
      simp at read
    · intro ⟨member, read⟩
      exact absurd ⟨(key, value), (restrict_row keys).mpr ⟨member, read⟩, rfl⟩ hit

theorem restrict_congr {others : List K} {map : BTreeMap K V} (same : ∀ key, key ∈ keys ↔ key ∈ others) :
    restrict keys map = restrict others map := by
  refine ext_getElem? fun key => Option.ext fun value => ?_
  rw [restrict_get, restrict_get, same key]

variable [DecidableEq K]

section

variable (set : BTreeSet K)

def popFirst : Option K := set.toList.head?

theorem pop_first_min : popFirst set = set.min? := min?_eq_head?_toList.symm

theorem singleton_iff {key : K} : set.size = 1 ∧ popFirst set = some key ↔ ∀ other, other ∈ set ↔ other = key := by
  rw [pop_first_min]
  refine ⟨fun ⟨single, least⟩ other => ?_, fun only => ?_⟩
  · have member := (ExtTreeSet.min?_eq_some_iff_mem_and_forall.mp least).1
    obtain ⟨item, listed⟩ := length_eq_one_iff.mp (ExtTreeSet.length_toList.trans single)
    have keyListed : key = item := by simpa [listed] using ExtTreeSet.mem_toList.mpr member
    rw [← ExtTreeSet.mem_toList, listed, mem_singleton, keyListed]
  · have built : set = (∅ : BTreeSet K).insert key := by
      refine ExtTreeSet.ext_mem fun other => ?_
      rw [only other, ExtTreeSet.mem_insert, LawfulEqOrd.compare_eq_iff_eq, @eq_comm _ other]
      simp
    refine ⟨by simp [built, ExtTreeSet.size_insert], ?_⟩
    refine ExtTreeSet.min?_eq_some_iff_mem_and_forall.mpr ⟨(only key).mpr rfl, fun other member => ?_⟩
    simp [(only other).mp member]

theorem two_members (nonempty : set ≠ ∅) : set.size ≠ 1 ↔ ∃ a b, a ≠ b ∧ a ∈ set ∧ b ∈ set := by
  obtain ⟨least, found⟩ := Option.isSome_iff_exists.mp (isSome_min?_iff_ne_empty.mpr nonempty)
  have member := (ExtTreeSet.min?_eq_some_iff_mem_and_forall.mp found).1
  refine ⟨fun several => ?_, fun ⟨a, b, different, first, second⟩ single => ?_⟩
  · by_contra none
    refine several ((singleton_iff set).mpr fun other => ⟨fun inside => ?_, fun same => same ▸ member⟩).1
    by_contra different
    exact none ⟨other, least, different, inside, member⟩
  · have only := (singleton_iff set).mp ⟨single, (pop_first_min set).trans found⟩
    exact different (((only a).mp first).trans ((only b).mp second).symm)

theorem set_nodup : set.toList.Nodup := distinct_toList.imp fun {a b} different same => different (by simp [same])

end

def unionAll (sets : List (BTreeSet K)) : BTreeSet K := ofList (sets.flatMap fun set => set.toList)

def interAll (first : BTreeSet K) (rest : List (BTreeSet K)) : BTreeSet K :=
  rest.foldl (fun common set => common ∩ set) first

theorem union_all_member (sets : List (BTreeSet K)) (key : K) : key ∈ unionAll sets ↔ ∃ set ∈ sets, key ∈ set := by
  simp [unionAll, ExtTreeSet.mem_ofList]

theorem inter_all_member (first : BTreeSet K) (rest : List (BTreeSet K)) (key : K) :
    key ∈ interAll first rest ↔ ∀ set ∈ first :: rest, key ∈ set := by
  induction rest generalizing first with
  | nil => simp [interAll]
  | cons set tail ih =>
    have step := ih (first ∩ set)
    simp only [forall_mem_cons, ExtTreeSet.mem_inter_iff] at step ⊢
    rw [← and_assoc]
    exact step

end

theorem sorted_agree {A : Type} {le other : A → A → Prop} (refl : ∀ a, le a a ∧ other a a)
    (antisymm : ∀ a b, le a b → le b a → a = b) (otherAntisymm : ∀ a b, other a b → other b a → a = b) {xs ys : List A}
    (perm : xs.Perm ys) (first : xs.Pairwise le) (second : ys.Pairwise other) :
    xs = ys ↔ ∀ a ∈ xs, ∀ b ∈ xs, (le a b ↔ other a b) := by
  constructor
  · intro same a left b right
    subst same
    have together : ∀ a ∈ xs, ∀ b ∈ xs, (le a b ∧ other a b) ∨ (le b a ∧ other b a) := by
      have symmetric : Symm fun a b => (le a b ∧ other a b) ∨ (le b a ∧ other b a) := ⟨fun _ _ either => either.symm⟩
      have either : xs.Pairwise fun a b => (le a b ∧ other a b) ∨ (le b a ∧ other b a) := (first.and second).imp fun both => .inl both
      intro a left b right
      exact List.Pairwise.forall_of_forall (fun (c : A) _ => .inl (refl c)) either left right
    rcases together a left b right with forward | backward
    · exact ⟨fun _ => forward.2, fun _ => forward.1⟩
    · refine ⟨fun below => ?_, fun below => ?_⟩
      · rw [antisymm a b below backward.1]
        exact (refl b).2
      · rw [otherAntisymm a b below backward.2]
        exact (refl b).1
  · intro agree
    have sorted : xs.Pairwise other := first.imp_of_mem fun left right below => (agree _ left _ right).mp below
    exact perm.eq_of_pairwise (fun a b _ _ => otherAntisymm a b) sorted second

end GaussMatrix.Collections

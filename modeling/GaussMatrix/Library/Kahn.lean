import GaussMatrix.Library.Collections
import GaussMatrix.Library.GreedyOrder

set_option autoImplicit false
set_option linter.unusedSectionVars false

namespace GaussMatrix.Kahn

open Collections GreedyOrder List Std

section

variable {Key : Type} [DecidableEq Key]

def maxOf (cmp : Key → Key → Ordering) (first : Key) (rest : List Key) : Key :=
  rest.foldl (fun best key => if cmp best key = .lt then key else best) first

-- A binary heap hands out a greatest key; the layout of the others is not seen.
def popMax (cmp : Key → Key → Ordering) : List Key → Option (Key × List Key)
  | [] => none
  | first :: rest =>
    let top := maxOf cmp first rest
    some (top, (first :: rest).erase top)

variable (cmp : Key → Key → Ordering) (first : Key) (heap rest : List Key)

theorem max_of_member : maxOf cmp first rest ∈ first :: rest := by
  induction rest generalizing first with
  | nil => exact mem_singleton.mpr rfl
  | cons key tail ih =>
    have step := ih (if cmp first key = .lt then key else first)
    change maxOf cmp (if cmp first key = .lt then key else first) tail ∈ first :: key :: tail
    rcases mem_cons.mp step with head | later
    · rw [head]
      split <;> simp
    · simp [later]

variable {cmp heap rest} in
theorem pop_max_perm {top : Key} (popped : popMax cmp heap = some (top, rest)) : heap.Perm (top :: rest) := by
  cases heap with
  | nil => cases popped
  | cons first others =>
    cases popped
    exact perm_cons_erase (max_of_member cmp first others)

theorem pop_max_none (empty : popMax cmp heap = none) : heap = [] := by
  cases heap with
  | nil => rfl
  | cons first others => cases empty

theorem max_of_greatest [TransCmp cmp] : ∀ key ∈ first :: rest, (cmp key (maxOf cmp first rest)).isLE = true := by
  induction rest generalizing first with
  | nil =>
    intro key member
    rw [mem_singleton.mp member]
    exact ReflCmp.isLE_rfl
  | cons next tail ih =>
    let best := if cmp first next = .lt then next else first
    have above : ∀ key ∈ best :: tail, (cmp key (maxOf cmp best tail)).isLE = true := ih best
    have firstBelow : (cmp first best).isLE = true := by
      by_cases less : cmp first next = .lt
      · simp [best, less]
      · simp only [best, if_neg less]
        exact ReflCmp.isLE_rfl
    have nextBelow : (cmp next best).isLE = true := by
      by_cases less : cmp first next = .lt
      · simp only [best, if_pos less]
        exact ReflCmp.isLE_rfl
      · simp only [best, if_neg less]
        by_contra greater
        exact less (OrientedCmp.lt_of_not_isLE greater)
    change ∀ key ∈ first :: next :: tail, (cmp key (maxOf cmp best tail)).isLE = true
    have top := above best (by simp)
    intro key member
    rcases mem_cons.mp member with same | later
    · exact same ▸ TransCmp.isLE_trans firstBelow top
    · rcases mem_cons.mp later with same | inTail
      · exact same ▸ TransCmp.isLE_trans nextBelow top
      · exact above key (by simp [inTail])

theorem pop_max_greatest [TransCmp cmp] [LawfulEqCmp cmp] {heap rest : List Key} {top : Key}
    (popped : popMax cmp heap = some (top, rest)) {key : Key}
    (member : key ∈ heap) : key = top ∨ cmp key top = .lt := by
  cases heap with
  | nil => cases popped
  | cons first others =>
    cases popped
    have below := max_of_greatest cmp first others key member
    cases order : cmp key (maxOf cmp first others) with
    | lt => exact .inr rfl
    | eq => exact .inl (LawfulEqCmp.eq_of_compare order)
    | gt =>
      rw [order] at below
      cases below

end

variable {Id Key : Type} [Ord Id] [Std.TransOrd Id] [Std.LawfulEqOrd Id] [DecidableEq Id] [DecidableEq Key]

structure Frontier (Id Key : Type) [Ord Id] where
  remaining : BTreeMap Id Nat
  ready : List Key

def release (keyOf : BTreeMap Id Key) (frontier : Frontier Id Key) (child : Id) : Frontier Id Key :=
  match frontier.remaining[child]? with
  | none => frontier
  | some count =>
    let remaining := frontier.remaining.insert child (count - 1)
    if count - 1 = 0 then
      match keyOf[child]? with
      | none => { frontier with remaining := remaining }
      | some key => { remaining := remaining, ready := key :: frontier.ready }
    else { frontier with remaining := remaining }

def releaseAll (keyOf : BTreeMap Id Key) (children : List Id) (frontier : Frontier Id Key) : Frontier Id Key :=
  children.foldl (release keyOf) frontier

def kahn (cmp : Key → Key → Ordering) (idOf : Key → Id) (keyOf : BTreeMap Id Key) (dependents : BTreeMap Id (List Id)) :
    Nat → Frontier Id Key → Option (List Id)
  | 0, _ => none
  | fuel + 1, frontier =>
    match popMax cmp frontier.ready with
    | none => some []
    | some (top, rest) =>
      let next := releaseAll keyOf (dependents[idOf top]?.getD []) { frontier with ready := rest }
      (kahn cmp idOf keyOf dependents fuel next).map fun ordered => idOf top :: ordered

def freed (keyOf : BTreeMap Id Key) (remaining : BTreeMap Id Nat) (child : Id) : Option Key :=
  if remaining[child]?.map (fun count => count - 1) = some 0 then keyOf[child]? else none

variable (cmp : Key → Key → Ordering) (deps : Id → BTreeSet Id) (keyOf : BTreeMap Id Key) (emitted : List Id)
  (idOf : Key → Id) (children : List Id) (frontier : Frontier Id Key)

theorem freed_key {remaining : BTreeMap Id Nat} {child : Id} {key : Key}
    (free : freed keyOf remaining child = some key) : keyOf[child]? = some key := by
  rw [freed] at free
  split at free
  · exact free
  · cases free

theorem release_ready (child : Id) :
    (release keyOf frontier child).ready = (freed keyOf frontier.remaining child).toList ++ frontier.ready := by
  cases count : frontier.remaining[child]? with
  | none => simp [release, freed, count]
  | some n =>
    by_cases zero : n - 1 = 0
    · cases key : keyOf[child]? <;> simp [release, freed, count, zero, key]
    · simp [release, freed, count, zero]

theorem release_remaining (child id : Id) : (release keyOf frontier child).remaining[id]? =
      if id = child then frontier.remaining[id]?.map (fun count => count - 1) else frontier.remaining[id]? := by
  cases count : frontier.remaining[child]? with
  | none =>
    by_cases same : id = child
    · subst same
      simp [release, count]
    · simp [release, count, same]
  | some n =>
    have written : (release keyOf frontier child).remaining = frontier.remaining.insert child (n - 1) := by
      by_cases zero : n - 1 = 0
      · cases key : keyOf[child]? <;> simp [release, count, zero, key]
      · simp [release, count, zero]
    rw [written]
    by_cases same : id = child
    · subst same
      rw [ExtTreeMap.getElem?_insert_self, if_pos rfl, count, Option.map_some]
    · rw [insert_elsewhere same, if_neg same]

theorem release_all_remaining (id : Id) (distinct : children.Nodup) :
    (releaseAll keyOf children frontier).remaining[id]? =
      if id ∈ children then frontier.remaining[id]?.map (fun count => count - 1) else frontier.remaining[id]? := by
  induction children generalizing frontier with
  | nil => simp [releaseAll]
  | cons child tail ih =>
    obtain ⟨fresh, rest⟩ := nodup_cons.mp distinct
    change (releaseAll keyOf tail (release keyOf frontier child)).remaining[id]? = _
    rw [ih (release keyOf frontier child) rest, release_remaining]
    by_cases same : id = child
    · subst same
      simp [fresh]
    · simp [same]

theorem release_all_ready (distinct : children.Nodup) : (releaseAll keyOf children frontier).ready =
      (children.filterMap (freed keyOf frontier.remaining)).reverse ++ frontier.ready := by
  induction children generalizing frontier with
  | nil => rfl
  | cons child tail ih =>
    obtain ⟨fresh, rest⟩ := nodup_cons.mp distinct
    have untouched : ∀ other ∈ tail, freed keyOf (release keyOf frontier child).remaining other = freed keyOf frontier.remaining other := by
      intro other member
      have different : other ≠ child := fun same => fresh (same ▸ member)
      rw [freed, release_remaining, if_neg different, freed]
    change (releaseAll keyOf tail (release keyOf frontier child)).ready = _
    rw [ih (release keyOf frontier child) rest, release_ready, filterMap_congr untouched, filterMap_cons]
    cases freed keyOf frontier.remaining child <;> simp

theorem kahn_more (keyOf : BTreeMap Id Key) (dependents : BTreeMap Id (List Id)) (fuel more : Nat)
    (frontier : Frontier Id Key) (ordered : List Id)
    (enough : fuel ≤ more) (ended : kahn cmp idOf keyOf dependents fuel frontier = some ordered) :
    kahn cmp idOf keyOf dependents more frontier = some ordered := by
  induction fuel generalizing more frontier ordered with
  | zero => cases ended
  | succ fuel ih =>
    cases more with
    | zero => omega
    | succ more =>
      cases popped : popMax cmp frontier.ready with
      | none => simpa only [kahn, popped] using ended
      | some pair =>
        simp only [kahn, popped, Option.map_eq_some_iff] at ended ⊢
        obtain ⟨tail, rest, same⟩ := ended
        exact ⟨tail, ih more _ tail (by omega) rest, same⟩

theorem release_all_queued (good : Key → Prop) (keys : ∀ (id : Id) key, keyOf[id]? = some key → good key)
    (children : List Id) (frontier : Frontier Id Key) (queued : ∀ key ∈ frontier.ready, good key) :
    ∀ key ∈ (releaseAll keyOf children frontier).ready, good key := by
  induction children generalizing frontier with
  | nil => exact queued
  | cons child tail ih =>
    apply ih (release keyOf frontier child)
    intro key member
    rw [release_ready, mem_append, Option.mem_toList] at member
    rcases member with fresh | old
    · exact keys child key (freed_key keyOf fresh)
    · exact queued key old

theorem kahn_emitted (keyOf : BTreeMap Id Key) (dependents : BTreeMap Id (List Id)) (good : Id → Prop)
    (keys : ∀ (id : Id) key, keyOf[id]? = some key → good (idOf key)) (fuel : Nat) (frontier : Frontier Id Key)
    (ordered : List Id) (queued : ∀ key ∈ frontier.ready, good (idOf key))
    (ended : kahn cmp idOf keyOf dependents fuel frontier = some ordered) : ∀ id ∈ ordered, good id := by
  induction fuel generalizing frontier ordered with
  | zero => cases ended
  | succ fuel ih =>
    cases popped : popMax cmp frontier.ready with
    | none =>
      simp only [kahn, popped] at ended
      cases ended
      simp
    | some pair =>
      obtain ⟨top, rest⟩ := pair
      have layout := pop_max_perm popped
      simp only [kahn, popped, Option.map_eq_some_iff] at ended
      obtain ⟨tail, later, same⟩ := ended
      subst same
      have restGood : ∀ key ∈ rest, good (idOf key) := fun key member => queued key (layout.mem_iff.mpr (mem_cons_of_mem top member))
      have released := release_all_queued keyOf (fun key => good (idOf key)) keys (dependents[idOf top]?.getD [])
        { frontier with ready := rest } restGood
      exact forall_mem_cons.mpr ⟨queued top (layout.mem_iff.mpr mem_cons_self), ih _ tail released later⟩

structure Sound (idOf : Key → Id) (nodes : List Id) (deps : Id → BTreeSet Id) (keyOf : BTreeMap Id Key)
    (dependents : BTreeMap Id (List Id)) : Prop where
  keyed : ∀ id ∈ nodes, ∃ key, keyOf[id]? = some key
  named : ∀ (id : Id) key, keyOf[id]? = some key → idOf key = id
  children : ∀ id child : Id, child ∈ dependents[id]?.getD [] ↔ child ∈ nodes ∧ id ∈ deps child
  once : ∀ id : Id, (dependents[id]?.getD []).Nodup

def openCount (deps : Id → BTreeSet Id) (emitted : List Id) (id : Id) : Nat :=
  ((deps id).toList.filter fun dep => dep ∉ emitted).length

structure Progress (idOf : Key → Id) (nodes : List Id) (deps : Id → BTreeSet Id) (keyOf : BTreeMap Id Key)
    (emitted : List Id) (frontier : Frontier Id Key) : Prop where
  distinct : emitted.Nodup
  inside : ∀ id ∈ emitted, id ∈ nodes
  closed : ∀ id ∈ emitted, ∀ dep ∈ deps id, dep ∈ emitted
  counts : ∀ id ∈ nodes, frontier.remaining[id]? = some (openCount deps emitted id)
  readyDistinct : frontier.ready.Nodup
  queued : ∀ key, key ∈ frontier.ready ↔ ∃ id ∈ nodes, keyOf[id]? = some key ∧ id ∉ emitted ∧
    ∀ dep ∈ deps id, dep ∈ emitted

theorem open_count_zero {id : Id} : openCount deps emitted id = 0 ↔ ∀ dep ∈ deps id, dep ∈ emitted := by
  simp [openCount, filter_eq_nil_iff]

theorem open_count_cons {head : Id} (id : Id) (fresh : head ∉ emitted) :
    openCount deps (head :: emitted) id = if head ∈ deps id then openCount deps emitted id - 1
    else openCount deps emitted id := by
  have split : (deps id).toList.filter (fun dep => dep ∉ head :: emitted) =
    ((deps id).toList.filter fun dep => dep ∉ emitted).erase head := by
    have listed : ((deps id).toList.filter fun dep => dep ∉ emitted).Nodup := (set_nodup (deps id)).filter _
    rw [listed.erase_eq_filter, filter_filter]
    apply filter_congr
    intro dep _
    by_cases same : dep = head <;> simp [same]
  rw [openCount, split]
  by_cases member : head ∈ deps id
  · rw [if_pos member, length_erase_of_mem (by simp [member, fresh]), openCount]
  · rw [if_neg member, erase_of_not_mem (by simp [member]), openCount]

variable (cmp : Key → Key → Ordering) (idOf : Key → Id) (nodes : List Id) (deps : Id → BTreeSet Id)
  (keyOf : BTreeMap Id Key) (dependents : BTreeMap Id (List Id))

variable {idOf nodes deps keyOf dependents} in
theorem progress_top {emitted : List Id} (frontier : Frontier Id Key) {top : Key}
    (sound : Sound idOf nodes deps keyOf dependents)
    (progress : Progress idOf nodes deps keyOf emitted frontier) (member : top ∈ frontier.ready) :
    idOf top ∈ nodes ∧ keyOf[idOf top]? = some top ∧ idOf top ∉ emitted ∧ ∀ dep ∈ deps (idOf top), dep ∈ emitted := by
  obtain ⟨id, node, key, fresh, met⟩ := (progress.queued top).mp member
  rw [sound.named id top key]
  exact ⟨node, key, fresh, met⟩

theorem progress_freed (emitted : List Id) (frontier : Frontier Id Key) (head child : Id) (key : Key)
    (sound : Sound idOf nodes deps keyOf dependents) (progress : Progress idOf nodes deps keyOf emitted frontier)
    (fresh : head ∉ emitted) (member : child ∈ dependents[head]?.getD []) :
    freed keyOf frontier.remaining child = some key ↔ keyOf[child]? = some key ∧
    ∀ dep ∈ deps child, dep ∈ head :: emitted := by
  obtain ⟨node, depends⟩ := (sound.children head child).mp member
  have count := open_count_cons deps emitted child fresh
  rw [if_pos depends] at count
  rw [freed, progress.counts child node, Option.map_some, ← count]
  by_cases met : openCount deps (head :: emitted) child = 0
  · rw [if_pos (congrArg some met)]
    exact ⟨fun read => ⟨read, (open_count_zero deps (head :: emitted)).mp met⟩, fun both => both.1⟩
  · rw [if_neg (fun same => met (Option.some.inj same))]
    refine ⟨(fun impossible => nomatch impossible), fun both => ?_⟩
    exact absurd ((open_count_zero deps (head :: emitted)).mpr both.2) met

section

variable {idOf nodes deps keyOf dependents} {emitted : List Id} {frontier : Frontier Id Key} {top : Key}
  {rest : List Key}

theorem step_waiting (sound : Sound idOf nodes deps keyOf dependents)
    (progress : Progress idOf nodes deps keyOf emitted frontier)
    (member : top ∈ frontier.ready) {id : Id} (depends : idOf top ∈ deps id) : id ∉ idOf top :: emitted := by
  obtain ⟨_, _, fresh, met⟩ := progress_top frontier sound progress member
  intro inside
  rcases mem_cons.mp inside with same | old
  · exact fresh (met (idOf top) (same ▸ depends))
  · exact fresh (progress.closed id old (idOf top) depends)

theorem step_rest (progress : Progress idOf nodes deps keyOf emitted frontier)
    (layout : frontier.ready.Perm (top :: rest)) {key : Key} : key ∈ rest ↔ key ∈ frontier.ready ∧ key ≠ top := by
  have topOnce := (nodup_cons.mp (layout.nodup_iff.mp progress.readyDistinct)).1
  rw [layout.mem_iff, mem_cons]
  constructor
  · intro member
    exact ⟨.inr member, fun same => topOnce (same ▸ member)⟩
  · intro kept
    exact kept.1.resolve_left kept.2

variable (sound : Sound idOf nodes deps keyOf dependents) (progress : Progress idOf nodes deps keyOf emitted frontier)

include sound progress

theorem step_counts (fresh : idOf top ∉ emitted) (id : Id) (member : id ∈ nodes) :
    (releaseAll keyOf (dependents[idOf top]?.getD []) { frontier with ready := rest }).remaining[id]? = some
    (openCount deps (idOf top :: emitted) id) := by
  rw [release_all_remaining keyOf _ _ id (sound.once (idOf top)), open_count_cons deps emitted id fresh]
  by_cases depends : idOf top ∈ deps id
  · rw [if_pos ((sound.children (idOf top) id).mpr ⟨member, depends⟩), if_pos depends, progress.counts id member, Option.map_some]
  · rw [if_neg fun inside => depends ((sound.children (idOf top) id).mp inside).2, if_neg depends, progress.counts id member]

theorem step_ready_distinct (layout : frontier.ready.Perm (top :: rest)) (fresh : idOf top ∉ emitted) :
    (releaseAll keyOf (dependents[idOf top]?.getD []) { frontier with ready := rest }).ready.Nodup := by
  have once := sound.once (idOf top)
  have restDistinct := (nodup_cons.mp (layout.nodup_iff.mp progress.readyDistinct)).2
  rw [release_all_ready keyOf _ _ once, nodup_append]
  refine ⟨nodup_reverse.mpr (once.filterMap ?_), restDistinct, ?_⟩
  · intro first second key atFirst atSecond
    rw [← sound.named first key (freed_key _ atFirst), sound.named second key (freed_key _ atSecond)]
  · intro key new other old same
    subst same
    rw [mem_reverse, mem_filterMap] at new
    obtain ⟨id, inChildren, free⟩ := new
    obtain ⟨before, _, read, _, all⟩ := (progress.queued key).mp ((step_rest progress layout).mp old).1
    have idSame : before = id := by
      rw [← sound.named before key read, sound.named id key (freed_key _ free)]
    exact fresh (all (idOf top) (idSame ▸ ((sound.children (idOf top) id).mp inChildren).2))

theorem step_queued (layout : frontier.ready.Perm (top :: rest)) (key : Key) :
    key ∈ (releaseAll keyOf (dependents[idOf top]?.getD []) { frontier with ready := rest }).ready ↔
      ∃ id ∈ nodes, keyOf[id]? = some key ∧ id ∉ idOf top :: emitted ∧ ∀ dep ∈ deps id, dep ∈ idOf top :: emitted := by
  have isTop : top ∈ frontier.ready := layout.mem_iff.mpr mem_cons_self
  obtain ⟨_, topKey, fresh, _⟩ := progress_top frontier sound progress isTop
  have child := sound.children (idOf top)
  have freedIff := fun id key => progress_freed idOf nodes deps keyOf dependents emitted frontier
    (idOf top) id key sound progress fresh
  rw [release_all_ready keyOf _ _ (sound.once (idOf top)), mem_append, mem_reverse, mem_filterMap,
    step_rest progress layout, progress.queued]
  constructor
  · intro either
    rcases either with ⟨id, inChildren, free⟩ | ⟨⟨id, member, read, absent, all⟩, different⟩
    · obtain ⟨read, all⟩ := (freedIff id key inChildren).mp free
      obtain ⟨member, depends⟩ := (child id).mp inChildren
      exact ⟨id, member, read, step_waiting sound progress isTop depends, all⟩
    · refine ⟨id, member, read, ?_, fun dep depends => mem_cons_of_mem _ (all dep depends)⟩
      rw [mem_cons, not_or]
      refine ⟨fun same => different ?_, absent⟩
      rw [same, topKey] at read
      exact (Option.some.inj read).symm
  · intro waiting
    obtain ⟨id, member, read, absent, all⟩ := waiting
    rw [mem_cons, not_or] at absent
    by_cases depends : idOf top ∈ deps id
    · have inChildren := (child id).mpr ⟨member, depends⟩
      exact .inl ⟨id, inChildren, (freedIff id key inChildren).mpr ⟨read, all⟩⟩
    · refine .inr ⟨⟨id, member, read, absent.2, fun dep inside => ?_⟩, fun same => absent.1 ?_⟩
      · exact (mem_cons.mp (all dep inside)).resolve_left fun same => depends (same ▸ inside)
      · rw [← same, sound.named id key read]

end

theorem progress_step {emitted : List Id} {frontier : Frontier Id Key} {top : Key} {rest : List Key}
    (sound : Sound idOf nodes deps keyOf dependents) (progress : Progress idOf nodes deps keyOf emitted frontier)
    (layout : frontier.ready.Perm (top :: rest)) :
    Progress idOf nodes deps keyOf (idOf top :: emitted)
    (releaseAll keyOf (dependents[idOf top]?.getD []) { frontier with ready := rest }) := by
  obtain ⟨node, _, fresh, met⟩ := progress_top frontier sound progress (layout.mem_iff.mpr mem_cons_self)
  refine ⟨nodup_cons.mpr ⟨fresh, progress.distinct⟩, ?_, ?_, step_counts sound progress fresh,
    step_ready_distinct sound progress layout fresh, step_queued sound progress layout⟩
  · intro id member
    rcases mem_cons.mp member with same | old
    · exact same ▸ node
    · exact progress.inside id old
  · intro id member dep depends
    rcases mem_cons.mp member with same | old
    · exact mem_cons_of_mem _ (met dep (same ▸ depends))
    · exact mem_cons_of_mem _ (progress.closed id old dep depends)

def KeyBefore (id other : Id) : Prop := ∃ key otherKey, keyOf[id]? = some key ∧ keyOf[other]? = some otherKey ∧
    cmp otherKey key = .lt

theorem progress_ready {emitted : List Id} {frontier : Frontier Id Key} (sound : Sound idOf nodes deps keyOf dependents)
    (progress : Progress idOf nodes deps keyOf emitted frontier) (id : Id) :
    Ready (· ∈ nodes) (fun id dep => dep ∈ deps id) emitted id ↔ ∃ key ∈ frontier.ready, keyOf[id]? = some key := by
  constructor
  · intro ready
    obtain ⟨key, read⟩ := sound.keyed id ready.1
    exact ⟨key, (progress.queued key).mpr ⟨id, ready.1, read, ready.2⟩, read⟩
  · intro held
    obtain ⟨key, member, read⟩ := held
    obtain ⟨node, _, fresh, met⟩ := progress_top frontier sound progress member
    rw [sound.named id key read] at node fresh met
    exact ⟨node, fresh, met⟩

theorem kahn_greedy [TransCmp cmp] [LawfulEqCmp cmp] (sound : Sound idOf nodes deps keyOf dependents) (fuel : Nat)
    (emitted : List Id) (frontier : Frontier Id Key) (progress : Progress idOf nodes deps keyOf emitted frontier)
    (enough : nodes.length < emitted.length + fuel) : ∃ ordered, kahn cmp idOf keyOf dependents fuel frontier =
    some ordered ∧ Greedy (· ∈ nodes) (fun id dep => dep ∈ deps id) (KeyBefore cmp keyOf) emitted ordered := by
  induction fuel generalizing emitted frontier with
  | zero =>
    have bound := (progress.distinct.subperm progress.inside).length_le
    omega
  | succ fuel ih =>
    have ready := progress_ready idOf nodes deps keyOf dependents sound progress
    cases popped : popMax cmp frontier.ready with
    | none =>
      refine ⟨[], by simp only [kahn, popped], fun id waits => ?_⟩
      obtain ⟨key, member, _⟩ := (ready id).mp waits
      rw [pop_max_none cmp frontier.ready popped] at member
      cases member
    | some pair =>
      obtain ⟨top, rest⟩ := pair
      have layout := pop_max_perm popped
      have next := progress_step idOf nodes deps keyOf dependents sound progress layout
      obtain ⟨tail, ended, later⟩ := ih _ _ next (by simp only [length_cons]; omega)
      refine ⟨idOf top :: tail, by simp only [kahn, popped, ended, Option.map_some], ?_⟩
      have isTop : top ∈ frontier.ready := layout.mem_iff.mpr mem_cons_self
      have topKey := (progress_top frontier sound progress isTop).2.1
      refine ⟨(ready _).mpr ⟨top, isTop, topKey⟩, fun other waits => ?_, later⟩
      obtain ⟨key, member, read⟩ := (ready other).mp waits
      rcases pop_max_greatest cmp popped member with rfl | less
      · exact .inl (sound.named other key read).symm
      · exact .inr ⟨top, key, topKey, read, less⟩

end GaussMatrix.Kahn

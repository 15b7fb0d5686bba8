import GaussMatrix.Library.BigEndian
import GaussMatrix.Library.Ranges

namespace GaussMatrix.Shard

open Collections List Ranges Std

abbrev ShardId := String
abbrev Bytes := List UInt8

structure Reassignment where
  room : String
  fromShard : ShardId
  toShard : ShardId

def virtualNodes : Nat := 128

def fnvOffset : UInt64 := 0xCBF29CE484222325
def fnvPrime : UInt64 := 0x00000100000001B3

def finalize (z : UInt64) : UInt64 :=
  let z := (z ^^^ (z >>> 30)) * 0xBF58476D1CE4E5B9
  let z := (z ^^^ (z >>> 27)) * 0x94D049BB133111EB
  z ^^^ (z >>> 31)

def hash (data : Bytes) : UInt64 :=
  finalize (data.foldl (fun state byte => (state ^^^ byte.toUInt64) * fnvPrime) fnvOffset)

-- The fields of the source are private: every point belongs to a shard of the set.
structure ShardRing where
  ring : BTreeMap UInt64 ShardId
  shards : BTreeSet ShardId
  owned : ∀ (point : UInt64) (shard : ShardId), ring[point]? = some shard → shard ∈ shards

theorem ring_ext {left right : ShardRing} (ring : left.ring = right.ring) (shards : left.shards = right.shards) :
    left = right := by
  cases left
  cases right
  cases ring
  cases shards
  rfl

def ShardRing.new : ShardRing where
  ring := ∅
  shards := ∅
  owned point shard held := by simp at held

section

variable (hashed : Bytes → UInt64)

def virtualNodeHash (shard : ShardId) (vnode : Nat) : UInt64 :=
  hashed (shard.toUTF8.data.toList ++ 35 :: BigEndian.toBytes 4 vnode)

def nodesOf (shard : ShardId) : List (UInt64 × ShardId) :=
  (List.range virtualNodes).map fun vnode => (virtualNodeHash hashed shard vnode, shard)

def ShardRing.addShard (ring : ShardRing) (shard : ShardId) : ShardRing :=
  if shard ∈ ring.shards then ring
  else
    { ring := extend ring.ring (nodesOf hashed shard)
      shards := ring.shards.insert shard
      owned := by
        intro point owner held
        rw [ExtTreeSet.mem_insert]
        rcases extend_source held with added | before
        · obtain ⟨vnode, _, same⟩ := List.mem_map.mp added
          cases same
          exact Or.inl ReflCmp.compare_self
        · exact Or.inr (ring.owned point owner before) }

theorem retain_iff (map : BTreeMap UInt64 ShardId) (shard : ShardId) (point : UInt64) (owner : ShardId) :
    (map.filter fun _ owner => owner != shard)[point]? = some owner ↔ map[point]? = some owner ∧ owner ≠ shard := by
  simp

def ShardRing.removeShard (ring : ShardRing) (shard : ShardId) : ShardRing := if shard ∈ ring.shards then
    { ring := ring.ring.filter fun _ owner => owner != shard
      shards := ring.shards.erase shard
      owned := by
        intro point owner held
        obtain ⟨before, different⟩ := (retain_iff ring.ring shard point owner).mp held
        rw [ExtTreeSet.mem_erase]
        exact ⟨fun same => different (LawfulEqOrd.eq_of_compare same).symm, ring.owned point owner before⟩ }
  else ring

def ShardRing.shardFor (ring : ShardRing) (roomId : String) : Option ShardId :=
  (successor ring.ring (hashed roomId.toUTF8.data.toList)).map Prod.snd

def ShardRing.reassignments (ring target : ShardRing) (rooms : List String) : List Reassignment :=
  rooms.filterMap fun room =>
    (ring.shardFor hashed room).bind fun fromShard =>
      (target.shardFor hashed room).bind fun toShard =>
        if fromShard ≠ toShard then some ⟨room, fromShard, toShard⟩ else none

inductive Change where
  | addShard (shard : ShardId)
  | removeShard (shard : ShardId)

def Change.shard : Change → ShardId
  | .addShard shard => shard
  | .removeShard shard => shard

def ShardRing.change (ring : ShardRing) : Change → ShardRing
  | .addShard shard => ring.addShard hashed shard
  | .removeShard shard => ring.removeShard shard

def history (changes : List Change) : ShardRing := changes.foldl (ShardRing.change hashed) ShardRing.new

variable {hashed} {ring : ShardRing} {shard : ShardId}

theorem shard_for_iff {owner : ShardId} {room : String} :
    ring.shardFor hashed room = some owner ↔ ∃ point, successor ring.ring (hashed room.toUTF8.data.toList) = some
    (point, owner) := by
  rw [ShardRing.shardFor, Option.map_eq_some_iff]
  constructor
  · rintro ⟨row, next, rfl⟩
    exact ⟨row.1, next⟩
  · rintro ⟨point, next⟩
    exact ⟨_, next, rfl⟩

variable {owner : ShardId} (point : UInt64) {room : String}

theorem shard_for_within {wider : ShardRing} (placed : ring.shardFor hashed room = some owner)
    (within : ∀ point ∈ ring.ring, point ∈ wider.ring) : ∃ other, wider.shardFor hashed room = some other := by
  obtain ⟨point, next⟩ := shard_for_iff.mp placed
  have member : point ∈ ring.ring := mem_iff_read.mpr ⟨_, successor_held next⟩
  obtain ⟨row, found⟩ := successor_exists (within point member)
  exact ⟨row.2, shard_for_iff.mpr ⟨row.1, found⟩⟩

theorem extend_within {map : BTreeMap UInt64 ShardId} {rows : List (UInt64 × ShardId)} {point : UInt64}
    (member : point ∈ map) : point ∈ extend map rows := by
  rw [ExtTreeMap.mem_iff_isSome_getElem?]
  by_cases added : ∃ row ∈ rows, row.1 = point
  · obtain ⟨owner, _, read⟩ := extend_present map added
    rw [read]
    rfl
  · rw [extend_outside map rows point fun row listed same => added ⟨row, listed, same⟩]
    exact ExtTreeMap.mem_iff_isSome_getElem?.mp member

theorem add_within (member : point ∈ ring.ring) : point ∈ (ring.addShard hashed shard).ring := by
  rw [ShardRing.addShard]
  split
  case isTrue => exact member
  case isFalse => exact extend_within member

theorem add_source {point : UInt64} (held : (ring.addShard hashed shard).ring[point]? = some owner)
    (other : owner ≠ shard) : ring.ring[point]? = some owner := by
  rw [ShardRing.addShard] at held
  split at held
  case isTrue => exact held
  case isFalse =>
    rcases extend_source held with added | before
    · obtain ⟨vnode, _, same⟩ := mem_map.mp added
      cases same
      exact absurd rfl other
    · exact before

theorem remove_iff : (ring.removeShard shard).ring[point]? = some owner ↔ ring.ring[point]? = some owner ∧
    owner ≠ shard := by
  rw [ShardRing.removeShard]
  split
  case isTrue => exact retain_iff ring.ring shard point owner
  case isFalse absent =>
    refine (and_iff_left_of_imp fun held same => ?_).symm
    exact absent (same ▸ ring.owned point owner held)

theorem remove_within (member : point ∈ (ring.removeShard shard).ring) : point ∈ ring.ring := by
  rw [mem_iff_read] at member ⊢
  obtain ⟨owner, held⟩ := member
  exact ⟨owner, ((remove_iff point).mp held).1⟩

theorem add_keeps (after : (ring.addShard hashed shard).shardFor hashed room = some owner) (other : owner ≠ shard) :
    ring.shardFor hashed room = some owner := by
  obtain ⟨point, next⟩ := shard_for_iff.mp after
  exact shard_for_iff.mpr ⟨point, successor_kept next (add_source (successor_held next) other) add_within⟩

theorem remove_keeps (before : ring.shardFor hashed room = some owner) (other : owner ≠ shard) :
    (ring.removeShard shard).shardFor hashed room = some owner := by
  obtain ⟨point, next⟩ := shard_for_iff.mp before
  exact shard_for_iff.mpr ⟨point,
    successor_kept next ((remove_iff point).mpr ⟨successor_held next, other⟩) remove_within⟩

theorem reassignment_member {target : ShardRing} {rooms : List String} (move : Reassignment) :
    move ∈ ring.reassignments hashed target rooms ↔
      move.room ∈ rooms ∧ ring.shardFor hashed move.room = some move.fromShard ∧
      target.shardFor hashed move.room = some move.toShard ∧ move.fromShard ≠ move.toShard := by
  rw [ShardRing.reassignments, mem_filterMap]
  simp only [Option.bind_eq_some_iff, Option.ite_none_right_eq_some, Option.some.injEq]
  constructor
  · rintro ⟨room, member, fromShard, before, toShard, after, different, rfl⟩
    exact ⟨member, before, after, different⟩
  · intro listed
    obtain ⟨member, before, after, different⟩ := listed
    exact ⟨move.room, member, move.fromShard, before, move.toShard, after, different, rfl⟩

theorem reassigned_rooms (ring target : ShardRing) (rooms : List String) :
    (ring.reassignments hashed target rooms).map Reassignment.room = rooms.filter fun room =>
        (ring.shardFor hashed room).isSome ∧ (target.shardFor hashed room).isSome ∧ ring.shardFor hashed room ≠ target.shardFor hashed room := by
  induction rooms with
  | nil => rfl
  | cons room rest ih =>
    rw [ShardRing.reassignments] at ih ⊢
    rw [filterMap_cons, filter_cons]
    cases before : ring.shardFor hashed room with
    | none => simpa using ih
    | some fromShard =>
      cases after : target.shardFor hashed room with
      | none => simpa using ih
      | some toShard =>
        by_cases same : fromShard = toShard
        · simpa [same] using ih
        · simpa [same] using ih

theorem resharding_moves_minimum (hashed : Bytes → UInt64) (ring : ShardRing) (shard : ShardId) :
    (∀ room, (ring.addShard hashed shard).shardFor hashed room ≠ ring.shardFor hashed room →
    (ring.addShard hashed shard).shardFor hashed room = some shard) ∧
      (∀ room, (ring.removeShard shard).shardFor hashed room ≠ ring.shardFor hashed room →
      ring.shardFor hashed room = some shard) ∧ (∀ room, (ring.removeShard shard).shardFor hashed room ≠ some shard) ∧
      ∀ target rooms, (∀ move, move ∈ ring.reassignments hashed target rooms ↔
          move.room ∈ rooms ∧ ring.shardFor hashed move.room = some move.fromShard ∧
          target.shardFor hashed move.room = some move.toShard ∧ move.fromShard ≠ move.toShard) ∧
        (ring.reassignments hashed target rooms).map Reassignment.room = rooms.filter fun room =>
            (ring.shardFor hashed room).isSome ∧ (target.shardFor hashed room).isSome ∧
            ring.shardFor hashed room ≠ target.shardFor hashed room := by
  refine ⟨fun room moved => ?_, fun room moved => ?_, fun room left => ?_, fun target rooms => ?_⟩
  · cases after : (ring.addShard hashed shard).shardFor hashed room with
    | none =>
      cases before : ring.shardFor hashed room with
      | none => exact absurd (after.trans before.symm) moved
      | some owner =>
        obtain ⟨other, found⟩ := shard_for_within before add_within
        cases after.symm.trans found
    | some owner =>
      by_cases same : owner = shard
      · rw [same]
      · exact absurd (after.trans (add_keeps after same).symm) moved
  · cases before : ring.shardFor hashed room with
    | none =>
      cases after : (ring.removeShard shard).shardFor hashed room with
      | none => exact absurd (after.trans before.symm) moved
      | some owner =>
        obtain ⟨other, found⟩ := shard_for_within after remove_within
        cases before.symm.trans found
    | some owner =>
      by_cases same : owner = shard
      · rw [same]
      · exact absurd ((remove_keeps before same).trans before.symm) moved
  · obtain ⟨point, next⟩ := shard_for_iff.mp left
    exact ((remove_iff point).mp (successor_held next)).2 rfl
  · exact ⟨reassignment_member, reassigned_rooms ring target rooms⟩

theorem drained_ring_lists_nothing : (ShardRing.new.addShard hash "a").shardFor hash "!r" = some "a" ∧
    ShardRing.new.shardFor hash "!r" = none ∧
      (ShardRing.new.addShard hash "a").reassignments hash ShardRing.new ["!r"] = [] := by
  decide +kernel

end

variable (hashed : Bytes → UInt64)

def PointsApart (shards : List ShardId) : Prop := ∀ shard ∈ shards, ∀ other ∈ shards, shard ≠ other →
    ∀ vnode < virtualNodes, ∀ otherVnode < virtualNodes, virtualNodeHash hashed shard vnode ≠ virtualNodeHash hashed other otherVnode

def Exact (ring : ShardRing) : Prop := ∀ (point : UInt64) (shard : ShardId),
    ring.ring[point]? = some shard ↔ shard ∈ ring.shards ∧ ∃ vnode < virtualNodes, virtualNodeHash hashed shard vnode = point

variable {hashed}

theorem nodes_of_member (shard : ShardId) (row : UInt64 × ShardId) :
    row ∈ nodesOf hashed shard ↔ row.2 = shard ∧
    ∃ vnode < virtualNodes, virtualNodeHash hashed shard vnode = row.1 := by
  rw [nodesOf, mem_map]
  constructor
  · rintro ⟨vnode, member, rfl⟩
    exact ⟨rfl, vnode, mem_range.mp member, rfl⟩
  · rintro ⟨same, vnode, bound, point⟩
    exact ⟨vnode, mem_range.mpr bound, Prod.ext point same.symm⟩

theorem exact_same {left right : ShardRing} (exactLeft : Exact hashed left) (exactRight : Exact hashed right)
    (shards : left.shards = right.shards) : left = right := by
  refine ring_ext (ExtTreeMap.ext_getElem? fun point => Option.ext fun shard => ?_) shards
  rw [exactLeft point shard, exactRight point shard, shards]

variable {ring : ShardRing} {among : List ShardId}

theorem add_exact (was : Exact hashed ring) {shard : ShardId} (apart : PointsApart hashed among)
    (inside : ∀ other ∈ ring.shards, other ∈ among)
    (here : shard ∈ among) : Exact hashed (ring.addShard hashed shard) := by
  rw [ShardRing.addShard]
  split
  case isTrue => exact was
  case isFalse absent =>
    intro point owner
    have member : owner ∈ ring.shards.insert shard ↔ owner = shard ∨ owner ∈ ring.shards := by
      rw [ExtTreeSet.mem_insert, LawfulEqOrd.compare_eq_iff_eq, eq_comm]
    constructor
    · intro held
      rcases extend_source held with added | before
      · obtain ⟨same, node⟩ := (nodes_of_member shard (point, owner)).mp added
        cases same
        exact ⟨member.mpr (.inl rfl), node⟩
      · obtain ⟨present, node⟩ := (was point owner).mp before
        exact ⟨member.mpr (.inr present), node⟩
    · rintro ⟨present, vnode, bound, rfl⟩
      rcases member.mp present with rfl | present
      · have listed := (nodes_of_member owner (virtualNodeHash hashed owner vnode, owner)).mpr ⟨rfl, vnode, bound, rfl⟩
        obtain ⟨value, row, read⟩ := extend_present ring.ring ⟨_, listed, rfl⟩
        exact read.trans (congrArg some ((nodes_of_member owner _).mp row).1)
      · have different : shard ≠ owner := fun same => absent (same ▸ present)
        have before := (was (virtualNodeHash hashed owner vnode) owner).mpr ⟨present, vnode, bound, rfl⟩
        refine (extend_outside _ _ _ fun row listed => ?_).trans before
        obtain ⟨_, other, otherBound, point⟩ := (nodes_of_member shard row).mp listed
        rw [← point]
        exact apart shard here owner (inside owner present) different other otherBound vnode bound

theorem remove_shards {shard owner : ShardId} :
    owner ∈ (ring.removeShard shard).shards ↔ owner ∈ ring.shards ∧ owner ≠ shard := by
  rw [ShardRing.removeShard]
  split
  case isTrue =>
    rw [ExtTreeSet.mem_erase, and_comm, ne_eq, ne_eq, LawfulEqOrd.compare_eq_iff_eq, eq_comm]
  case isFalse absent =>
    refine (and_iff_left_of_imp fun present same => ?_).symm
    rw [same] at present
    exact absent present

theorem add_shards {shard owner : ShardId} : owner ∈ (ring.addShard hashed shard).shards ↔ owner = shard ∨
    owner ∈ ring.shards := by
  rw [ShardRing.addShard]
  split
  case isTrue present =>
    refine (or_iff_right_of_imp fun same => ?_).symm
    rw [same]
    exact present
  case isFalse =>
    rw [ExtTreeSet.mem_insert, LawfulEqOrd.compare_eq_iff_eq, eq_comm]

theorem remove_exact (was : Exact hashed ring) {shard : ShardId} : Exact hashed (ring.removeShard shard) := by
  intro point owner
  rw [remove_iff, remove_shards, was point owner, and_right_comm]

theorem change_exact (was : Exact hashed ring) (apart : PointsApart hashed among)
    (inside : ∀ other ∈ ring.shards, other ∈ among) {change : Change} (here : change.shard ∈ among) :
    Exact hashed (ring.change hashed change) ∧ ∀ other ∈ (ring.change hashed change).shards, other ∈ among := by
  cases change with
  | addShard shard =>
    refine ⟨add_exact was apart inside here, fun other present => ?_⟩
    rcases add_shards.mp present with rfl | before
    · exact here
    · exact inside other before
  | removeShard shard => exact ⟨remove_exact was, fun other present => inside other (remove_shards.mp present).1⟩

theorem history_exact (apart : PointsApart hashed among) {changes : List Change}
    (here : ∀ change ∈ changes, change.shard ∈ among) :
    Exact hashed (history hashed changes) ∧ ∀ other ∈ (history hashed changes).shards, other ∈ among := by
  induction changes using reverseRecOn with
  | nil => exact ⟨fun point shard => by simp [history, ShardRing.new], fun other present => by simp [history, ShardRing.new] at present⟩
  | append_singleton before change ih =>
    obtain ⟨was, inside⟩ := ih fun other member => here other (mem_append_left _ member)
    rw [history, foldl_append]
    exact change_exact was apart inside (here change (by simp))

-- The last change of a shard decides whether it is there.
theorem history_shards (changes : List Change) (shard : ShardId) :
    shard ∈ (history hashed changes).shards ↔ changes.reverse.find? (·.shard = shard) = some (.addShard shard) := by
  induction changes using reverseRecOn with
  | nil => simp [history, ShardRing.new]
  | append_singleton before change ih =>
    rw [history, foldl_append, foldl_cons, foldl_nil, ← history, reverse_append, reverse_singleton, singleton_append, find?_cons]
    cases change with
    | addShard other =>
      rw [ShardRing.change, add_shards, ih]
      by_cases own : other = shard
      · simp [Change.shard, own]
      · simp [Change.shard, own, Ne.symm own]
    | removeShard other =>
      rw [ShardRing.change, remove_shards, ih]
      by_cases own : other = shard
      · simp [Change.shard, own]
      · simp [Change.shard, own, Ne.symm own]

theorem placement_history_independent (hashed : Bytes → UInt64) (changes others : List Change)
    (apart : PointsApart hashed ((changes ++ others).map Change.shard)) :
    ((history hashed changes).shards = (history hashed others).shards → history hashed changes = history hashed others ∧
        ∀ room, (history hashed changes).shardFor hashed room = (history hashed others).shardFor hashed room) ∧
      (∀ shard ∈ (changes ++ others).map Change.shard, shard ∉ (history hashed changes).shards →
        ((history hashed changes).addShard hashed shard).removeShard shard = history hashed changes) ∧
      ∀ shard, shard ∈ (history hashed changes).shards ↔ changes.reverse.find? (·.shard = shard) = some (.addShard shard) := by
  have inChanges := history_exact apart fun change member => mem_map_of_mem (mem_append_left _ member)
  have inOthers := history_exact apart fun change member => mem_map_of_mem (mem_append_right _ member)
  refine ⟨?_, ?_, history_shards changes⟩
  · intro shards
    have same := exact_same inChanges.1 inOthers.1 shards
    exact ⟨same, fun room => by rw [same]⟩
  · intro shard here absent
    have added := add_exact inChanges.1 apart inChanges.2 here
    refine exact_same (remove_exact added) inChanges.1 (ExtTreeSet.ext_mem fun owner => ?_)
    rw [remove_shards, add_shards]
    constructor
    · exact fun either => either.1.resolve_left either.2
    · exact fun present => ⟨Or.inr present, fun same : owner = shard => absent (same ▸ present)⟩

theorem two_shards_apart {left right : ShardId}
    (disjoint : ((List.range virtualNodes).map (virtualNodeHash hashed right)).all fun point =>
      !(ExtTreeSet.ofList ((List.range virtualNodes).map (virtualNodeHash hashed left)) : BTreeSet UInt64).contains point)
    {shards : List ShardId} (among : ∀ shard ∈ shards, shard = left ∨ shard = right) : PointsApart hashed shards := by
  have apart : ∀ vnode < virtualNodes, ∀ other < virtualNodes,
    virtualNodeHash hashed left vnode ≠ virtualNodeHash hashed right other := by
    intro vnode bound other otherBound same
    have absent := all_eq_true.mp disjoint _ (mem_map_of_mem (mem_range.mpr otherBound))
    rw [Bool.not_eq_true', ← Bool.not_eq_true, ExtTreeSet.contains_ofList, contains_iff_mem, ← same] at absent
    exact absent (mem_map_of_mem (mem_range.mpr bound))
  intro shard member other otherMember different vnode bound otherVnode otherBound
  rcases among shard member with rfl | rfl <;> rcases among other otherMember with rfl | rfl
  · exact absurd rfl different
  · exact apart vnode bound otherVnode otherBound
  · exact (apart otherVnode otherBound vnode bound).symm
  · exact absurd rfl different

theorem rebuilt_ring_same : history hash [.addShard "a", .addShard "b"] = history hash
    [.addShard "b", .removeShard "b", .addShard "b", .addShard "a"] ∧
      ((history hash [.addShard "a"]).addShard hash "b").removeShard "b" = history hash [.addShard "a"] := by
  have apart : ∀ {shards : List ShardId}, (∀ shard ∈ shards, shard = "a" ∨ shard = "b") → PointsApart hash shards :=
    fun among => two_shards_apart (by decide +kernel) among
  have rebuilt := (placement_history_independent hash [.addShard "a", .addShard "b"]
    [.addShard "b", .removeShard "b", .addShard "b", .addShard "a"]
    (apart (by decide))).1 (ExtTreeSet.ext_mem
      fun shard => by simp [history, ShardRing.change, add_shards, remove_shards, or_comm, ShardRing.new])
  have restored := (placement_history_independent hash [.addShard "a"] [.addShard "b"] (apart (by decide))).2.1
    "b" (by decide)
    (by simp [history, ShardRing.change, add_shards, ShardRing.new])
  exact ⟨rebuilt.1, restored⟩

end GaussMatrix.Shard

import GaussMatrix.Database.Keys

namespace GaussMatrix.Rooms

open Collections Database List SortedScan

section

variable {User Room Stripped Sync : Type} [Identifier User] [Identifier Room]

structure StateCache (Stripped Sync : Type) where
  userroomidJoinedcount : BTreeMap Bytes Nat
  roomuseridJoinedcount : BTreeMap Bytes Nat
  userroomidInvitestate : BTreeMap Bytes (List Stripped)
  roomuseridInvitecount : BTreeMap Bytes Nat
  userroomidKnockedstate : BTreeMap Bytes (List Stripped)
  roomuseridKnockedcount : BTreeMap Bytes Nat
  userroomidLeftstate : BTreeMap Bytes (List Sync)
  roomuseridLeftcount : BTreeMap Bytes Nat

def StateCache.empty : StateCache Stripped Sync := ⟨∅, ∅, ∅, ∅, ∅, ∅, ∅, ∅⟩

def userroomId (user : User) (room : Room) : Bytes := serializeKey [bytes user, bytes room]
def roomuserId (user : User) (room : Room) : Bytes := serializeKey [bytes room, bytes user]

section

variable (cache : StateCache Stripped Sync) (user : User) (room : Room)

def markAsJoined (count : Nat) : StateCache Stripped Sync where
  userroomidJoinedcount := cache.userroomidJoinedcount.insert (userroomId user room) count
  roomuseridJoinedcount := cache.roomuseridJoinedcount.insert (roomuserId user room) count
  userroomidInvitestate := cache.userroomidInvitestate.erase (userroomId user room)
  roomuseridInvitecount := cache.roomuseridInvitecount.erase (roomuserId user room)
  userroomidKnockedstate := cache.userroomidKnockedstate.erase (userroomId user room)
  roomuseridKnockedcount := cache.roomuseridKnockedcount.erase (roomuserId user room)
  userroomidLeftstate := cache.userroomidLeftstate.erase (userroomId user room)
  roomuseridLeftcount := cache.roomuseridLeftcount.erase (roomuserId user room)

def markAsLeft (count : Nat) : StateCache Stripped Sync where
  userroomidJoinedcount := cache.userroomidJoinedcount.erase (userroomId user room)
  roomuseridJoinedcount := cache.roomuseridJoinedcount.erase (roomuserId user room)
  userroomidInvitestate := cache.userroomidInvitestate.erase (userroomId user room)
  roomuseridInvitecount := cache.roomuseridInvitecount.erase (roomuserId user room)
  userroomidKnockedstate := cache.userroomidKnockedstate.erase (userroomId user room)
  roomuseridKnockedcount := cache.roomuseridKnockedcount.erase (roomuserId user room)
  userroomidLeftstate := cache.userroomidLeftstate.insert (userroomId user room) []
  roomuseridLeftcount := cache.roomuseridLeftcount.insert (roomuserId user room) count

def markAsKnocked (count : Nat) (knockedState : Option (List Stripped)) : StateCache Stripped Sync where
  userroomidJoinedcount := cache.userroomidJoinedcount.erase (userroomId user room)
  roomuseridJoinedcount := cache.roomuseridJoinedcount.erase (roomuserId user room)
  userroomidInvitestate := cache.userroomidInvitestate.erase (userroomId user room)
  roomuseridInvitecount := cache.roomuseridInvitecount.erase (roomuserId user room)
  userroomidKnockedstate := cache.userroomidKnockedstate.insert (userroomId user room) (knockedState.getD [])
  roomuseridKnockedcount := cache.roomuseridKnockedcount.insert (roomuserId user room) count
  userroomidLeftstate := cache.userroomidLeftstate.erase (userroomId user room)
  roomuseridLeftcount := cache.roomuseridLeftcount.erase (roomuserId user room)

def markAsInvited (count : Nat) (lastState : Option (List Stripped)) : StateCache Stripped Sync where
  userroomidJoinedcount := cache.userroomidJoinedcount.erase (userroomId user room)
  roomuseridJoinedcount := cache.roomuseridJoinedcount.erase (roomuserId user room)
  userroomidInvitestate := cache.userroomidInvitestate.insert (userroomId user room) (lastState.getD [])
  roomuseridInvitecount := cache.roomuseridInvitecount.insert (roomuserId user room) count
  userroomidKnockedstate := cache.userroomidKnockedstate.erase (userroomId user room)
  roomuseridKnockedcount := cache.roomuseridKnockedcount.erase (roomuserId user room)
  userroomidLeftstate := cache.userroomidLeftstate.erase (userroomId user room)
  roomuseridLeftcount := cache.roomuseridLeftcount.erase (roomuserId user room)

def forget : StateCache Stripped Sync :=
  { cache with
    userroomidLeftstate := cache.userroomidLeftstate.erase (userroomId user room)
    roomuseridLeftcount := cache.roomuseridLeftcount.erase (roomuserId user room) }

variable (Room : Type)

def listRooms [Identifier Room] {V : Type} (map : BTreeMap Bytes V) (user : User) : List Room :=
  (keysRawPrefix map (bytes user)).filterMap (deserializeIgnoreId Room)

def roomsJoined [Identifier Room] (cache : StateCache Stripped Sync) (user : User) : List Room :=
  listRooms Room cache.userroomidJoinedcount user

def roomsInvited [Identifier Room] (cache : StateCache Stripped Sync) (user : User) : List Room :=
  listRooms Room cache.userroomidInvitestate user

def roomsKnocked [Identifier Room] (cache : StateCache Stripped Sync) (user : User) : List Room :=
  listRooms Room cache.userroomidKnockedstate user

def roomsLeft [Identifier Room] (cache : StateCache Stripped Sync) (user : User) : List Room :=
  listRooms Room cache.userroomidLeftstate user

end

def idCmp {Id : Type} [Identifier Id] (a b : Id) : Ordering := compare (bytes a) (bytes b)

def getSharedRooms (Room : Type) [Identifier Room] (cache : StateCache Stripped Sync)
    (userA userB : User) : List Room :=
  intersectionSorted idCmp (roomsJoined Room cache userA) (roomsJoined Room cache userB)

end

section

inductive Membership where
  | joined
  | invited
  | knocked
  | left
deriving DecidableEq

inductive CacheOp (User Room Stripped : Type) where
  | markAsJoined (user : User) (room : Room) (count : Nat)
  | markAsInvited (user : User) (room : Room) (count : Nat) (lastState : Option (List Stripped))
  | markAsKnocked (user : User) (room : Room) (count : Nat) (knockedState : Option (List Stripped))
  | markAsLeft (user : User) (room : Room) (count : Nat)
  | forget (user : User) (room : Room)

variable {User Room Stripped Sync : Type}

def CacheOp.user : CacheOp User Room Stripped → User
  | markAsJoined user _ _ => user
  | markAsInvited user _ _ _ => user
  | markAsKnocked user _ _ _ => user
  | markAsLeft user _ _ => user
  | forget user _ => user

def CacheOp.room : CacheOp User Room Stripped → Room
  | markAsJoined _ room _ => room
  | markAsInvited _ room _ _ => room
  | markAsKnocked _ room _ _ => room
  | markAsLeft _ room _ => room
  | forget _ room => room

def CacheOp.effect : CacheOp User Room Stripped → Option Membership → Option Membership
  | markAsJoined _ _ _, _ => some .joined
  | markAsInvited _ _ _ _, _ => some .invited
  | markAsKnocked _ _ _ _, _ => some .knocked
  | markAsLeft _ _ _, _ => some .left
  | forget _ _, status => if status = some .left then none else status

def statusStep [DecidableEq User] [DecidableEq Room] (status : User → Room → Option Membership)
    (op : CacheOp User Room Stripped) (user : User) (room : Room) : Option Membership :=
  if op.user = user ∧ op.room = room then op.effect (status user room) else status user room

def statusAfter [DecidableEq User] [DecidableEq Room] (ops : List (CacheOp User Room Stripped)) :
    User → Room → Option Membership := ops.foldl statusStep fun _ _ => none

variable [Identifier User] [Identifier Room]

def applyOp (cache : StateCache Stripped Sync) : CacheOp User Room Stripped → StateCache Stripped Sync
  | .markAsJoined user room count => Rooms.markAsJoined cache user room count
  | .markAsInvited user room count lastState => Rooms.markAsInvited cache user room count lastState
  | .markAsKnocked user room count knockedState => Rooms.markAsKnocked cache user room count knockedState
  | .markAsLeft user room count => Rooms.markAsLeft cache user room count
  | .forget user room => Rooms.forget cache user room

def runOps (Sync : Type) (ops : List (CacheOp User Room Stripped)) : StateCache Stripped Sync :=
  ops.foldl applyOp StateCache.empty

def roomsListed (Room : Type) [Identifier Room] (cache : StateCache Stripped Sync) : Membership → User → List Room
  | .joined => roomsJoined Room cache
  | .invited => roomsInvited Room cache
  | .knocked => roomsKnocked Room cache
  | .left => roomsLeft Room cache

def tableKeys (cache : StateCache Stripped Sync) : Membership → List Bytes
  | .joined => cache.userroomidJoinedcount.keys
  | .invited => cache.userroomidInvitestate.keys
  | .knocked => cache.userroomidKnockedstate.keys
  | .left => cache.userroomidLeftstate.keys

end

theorem insert_keys {V : Type} (map : BTreeMap Bytes V) (key other : Bytes) (value : V) :
    other ∈ (map.insert key value).keys ↔ other = key ∨ other ∈ map.keys := by
  rw [Std.ExtTreeMap.mem_keys, Std.ExtTreeMap.mem_keys, Std.ExtTreeMap.mem_insert,
    Std.LawfulEqOrd.compare_eq_iff_eq, eq_comm]

theorem erase_keys {V : Type} (map : BTreeMap Bytes V) (key other : Bytes) :
    other ∈ (map.erase key).keys ↔ other ≠ key ∧ other ∈ map.keys := by
  rw [Std.ExtTreeMap.mem_keys, Std.ExtTreeMap.mem_keys, Std.ExtTreeMap.mem_erase, ne_eq,
    Std.LawfulEqOrd.compare_eq_iff_eq, eq_comm]

section

variable {User Room Stripped Sync : Type} [Identifier User] [Identifier Room]

def Tracks (cache : StateCache Stripped Sync) (status : User → Room → Option Membership) : Prop :=
  ∀ kind key, key ∈ tableKeys cache kind ↔ ∃ user room, key = userroomId user room ∧ status user room = some kind

theorem userroom_injective {user other : User} {room place : Room}
    (same : userroomId user room = userroomId other place) : user = other ∧ room = place := pair_injective same

variable {cache : StateCache Stripped Sync} {status : User → Room → Option Membership}

theorem tracks_pair (tracks : Tracks cache status) (user : User) (room : Room) (kind : Membership) :
    userroomId user room ∈ tableKeys cache kind ↔ status user room = some kind := by
  rw [tracks kind]
  constructor
  · intro held
    obtain ⟨other, place, same, status⟩ := held
    obtain ⟨rfl, rfl⟩ := userroom_injective same
    exact status
  · intro status
    exact ⟨user, room, rfl, status⟩

variable [DecidableEq User] [DecidableEq Room]

theorem status_step_held (status : User → Room → Option Membership) (op : CacheOp User Room Stripped)
    (kind : Membership)
    (key : Bytes) : (∃ user room, key = userroomId user room ∧ statusStep status op user room = some kind) ↔
      if key = userroomId op.user op.room then op.effect (status op.user op.room) = some kind
      else ∃ user room, key = userroomId user room ∧ status user room = some kind := by
  by_cases here : key = userroomId op.user op.room
  · rw [if_pos here]
    constructor
    · intro held
      obtain ⟨user, room, same, after⟩ := held
      obtain ⟨rfl, rfl⟩ := userroom_injective (here.symm.trans same)
      simpa [statusStep] using after
    · intro after
      exact ⟨op.user, op.room, here, by simpa [statusStep] using after⟩
  · rw [if_neg here]
    have elsewhere : ∀ user room, key = userroomId user room → ¬ (op.user = user ∧ op.room = room) := by
      intro user room same both
      exact here (by rw [both.1, both.2, same])
    constructor
    · intro held
      obtain ⟨user, room, same, after⟩ := held
      rw [statusStep, if_neg (elsewhere user room same)] at after
      exact ⟨user, room, same, after⟩
    · intro held
      obtain ⟨user, room, same, before⟩ := held
      exact ⟨user, room, same, by rw [statusStep, if_neg (elsewhere user room same), before]⟩

omit [Identifier User] [Identifier Room] [DecidableEq User] [DecidableEq Room] in
theorem forget_effect (user : User) (room : Room) (status : Option Membership) (kind : Membership) :
    (CacheOp.forget user room : CacheOp User Room Stripped).effect status = some kind ↔ status = some kind ∧
    kind ≠ .left := by
  rw [CacheOp.effect]
  by_cases left : status = some .left
  · rw [if_pos left, left]
    cases kind <;> simp
  · rw [if_neg left]
    constructor
    · intro same
      exact ⟨same, fun isLeft => left (isLeft ▸ same)⟩
    · intro both
      exact both.1

theorem tracks_step (tracks : Tracks cache status) {op : CacheOp User Room Stripped} :
    Tracks (applyOp cache op) (statusStep status op) := by
  intro kind key
  rw [status_step_held]
  by_cases here : key = userroomId op.user op.room
  · subst here
    rw [if_pos rfl]
    have held := tracks_pair tracks op.user op.room
    cases op with
    | forget user room =>
      rw [forget_effect]
      simp only [CacheOp.user, CacheOp.room] at held ⊢
      rw [← held kind]
      cases kind <;> simp [tableKeys, applyOp, Rooms.forget]
    | _ => cases kind <;> simp [tableKeys, applyOp, Rooms.markAsJoined, Rooms.markAsInvited, Rooms.markAsKnocked, Rooms.markAsLeft,
        CacheOp.user, CacheOp.room, CacheOp.effect]
  · rw [if_neg here, ← tracks kind key]
    cases op <;> cases kind <;> simp only [CacheOp.user, CacheOp.room] at here <;>
      simp only [tableKeys, applyOp, Rooms.markAsJoined, Rooms.markAsInvited, Rooms.markAsKnocked, Rooms.markAsLeft, Rooms.forget,
        insert_keys, erase_keys, here, ne_eq, not_false_eq_true, true_and, false_or]

theorem run_tracks (ops : List (CacheOp User Room Stripped)) : Tracks (runOps Sync ops) (statusAfter ops) := by
  suffices general : ∀ (cache : StateCache Stripped Sync) (status : User → Room → Option Membership),
    Tracks cache status →
      Tracks (ops.foldl applyOp cache) (ops.foldl statusStep status) by
    apply general
    intro kind key
    cases kind <;> simp [tableKeys, StateCache.empty]
  induction ops with
  | nil => exact fun cache status tracks => tracks
  | cons op tail ih => exact fun cache status tracks => ih _ _ (tracks_step tracks)

end

section

variable {User Room Stripped Sync : Type} [Identifier User] [Identifier Room]

instance : Std.TransCmp (idCmp : Room → Room → Ordering) := inferInstanceAs (Std.TransCmp (compareOn bytes))

instance : Std.LawfulEqCmp (idCmp : Room → Room → Ordering) where
  eq_of_compare := fun same => bytes_injective (Std.LawfulEqOrd.eq_of_compare same)

section

variable (cache : StateCache Stripped Sync) (kind : Membership)

theorem rooms_listed_keys (user : User) : roomsListed Room cache kind user =
      ((tableKeys cache kind).filter fun key => decide (bytes user <+: key)).filterMap (deserializeIgnoreId Room) := by
  cases kind <;> simp only [roomsListed, roomsJoined, roomsInvited, roomsKnocked, roomsLeft, listRooms,
    keys_raw_prefix_filter, tableKeys]

theorem table_keys_ascending : (tableKeys cache kind).Pairwise fun a b => compare a b = .lt := by
  cases kind <;> exact Std.ExtTreeMap.ordered_keys

end

section

variable (cache : StateCache Stripped Sync) (status : User → Room → Option Membership) (tracks : Tracks cache status)
  (kind : Membership) (user : User)

include tracks

theorem rooms_listed_member {room : Room} : room ∈ roomsListed Room cache kind user ↔
    ∃ other, bytes user <+: bytes other ∧ status other room = some kind := by
  rw [rooms_listed_keys, mem_filterMap]
  constructor
  · intro listed
    obtain ⟨key, inTable, decoded⟩ := listed
    obtain ⟨held, inside⟩ := mem_filter.mp inTable
    obtain ⟨other, place, rfl, here⟩ := (tracks kind key).mp held
    rw [userroomId, pair_decodes] at decoded
    cases decoded
    exact ⟨other, (pair_extends user other room).mp (of_decide_eq_true inside), here⟩
  · intro listed
    obtain ⟨other, inside, here⟩ := listed
    have held := (tracks kind _).mpr ⟨other, room, rfl, here⟩
    have extended := (pair_extends user other room).mpr inside
    exact ⟨userroomId other room, mem_filter.mpr ⟨held, decide_eq_true extended⟩, pair_decodes other room⟩

variable (alone : ∀ other room, status other room = some kind → bytes user <+: bytes other → other = user)

include alone

theorem rooms_listed_exact (room : Room) : room ∈ roomsListed Room cache kind user ↔ status user room = some kind := by
  rw [rooms_listed_member cache status tracks kind user]
  constructor
  · intro listed
    obtain ⟨other, inside, here⟩ := listed
    rw [← alone other room here inside]
    exact here
  · intro here
    exact ⟨user, prefix_rfl, here⟩

theorem rooms_listed_ascending : (roomsListed Room cache kind user).Pairwise fun a b => idCmp a b = .lt := by
  rw [rooms_listed_keys, pairwise_filterMap]
  refine ((table_keys_ascending cache kind).filter _).imp_of_mem ?_
  intro first second firstIn secondIn less a firstDecoded b secondDecoded
  have shape : ∀ key ∈ (tableKeys cache kind).filter (fun key => decide (bytes user <+: key)), ∀ room : Room,
      deserializeIgnoreId Room key = some room → key = bytes user ++ SEP :: bytes room := by
    intro key member room decoded
    obtain ⟨held, inside⟩ := mem_filter.mp member
    obtain ⟨other, place, rfl, here⟩ := (tracks kind key).mp held
    rw [userroomId, pair_decodes] at decoded
    cases decoded
    rw [alone other room here ((pair_extends user other room).mp (of_decide_eq_true inside)), userroomId, serialize_pair]
  rw [shape first firstIn a firstDecoded, shape second secondIn b secondDecoded, compare_append, compare_cons,
    compare_self] at less
  exact less

end

theorem ascending_ext {as bs : List Room} (left : as.Pairwise fun a b => idCmp a b = .lt)
    (right : bs.Pairwise fun a b => idCmp a b = .lt) (same : ∀ room, room ∈ as ↔ room ∈ bs) : as = bs := by
  have distinct : ∀ rooms : List Room, (rooms.Pairwise fun a b => idCmp a b = .lt) → rooms.Nodup :=
    fun rooms ascending => ascending.imp fun {a b} less => ordered_apart idCmp less
  have perm : as.Perm bs := (perm_ext_iff_of_nodup (distinct as left) (distinct bs right)).mpr same
  refine perm.eq_of_pairwise ?_ left right
  intro a b _ _ below above
  have self := Std.TransCmp.lt_trans below above
  exact absurd rfl (ordered_apart idCmp self)

end

section

variable {User Room Stripped Sync : Type} [DecidableEq User] [DecidableEq Room]
  {ops : List (CacheOp User Room Stripped)} {user : User} {room : Room}

theorem status_after_addressed {kind : Membership} (held : statusAfter ops user room = some kind) :
    ∃ op ∈ ops, op.user = user ∧ op.room = room := by
  suffices general : ∀ status : User → Room → Option Membership, ops.foldl statusStep status user room = some kind →
      (∃ op ∈ ops, op.user = user ∧ op.room = room) ∨ status user room = some kind by
    exact (general (fun _ _ => none) held).resolve_right (by simp)
  clear held
  induction ops with
  | nil => exact fun status here => .inr here
  | cons op tail ih =>
    intro status here
    rcases ih (statusStep status op) here with later | before
    · obtain ⟨other, member, own⟩ := later
      exact .inl ⟨other, by simp [member], own⟩
    · by_cases own : op.user = user ∧ op.room = room
      · exact .inl ⟨op, by simp, own⟩
      · rw [statusStep, if_neg own] at before
        exact .inr before

variable {other : User}

theorem status_after_others (ops : List (CacheOp User Room Stripped)) (apart : user ≠ other) (room : Room) :
    statusAfter ops user room = statusAfter (ops.filter fun op => op.user ≠ other) user room := by
  suffices general : ∀ first second : User → Room → Option Membership, first user room = second user room →
      ops.foldl statusStep first user room = (ops.filter fun op => op.user ≠ other).foldl statusStep second user room from
    general _ _ rfl
  induction ops with
  | nil => exact fun first second same => same
  | cons op tail ih =>
    intro first second same
    by_cases foreign : op.user = other
    · rw [filter_cons_of_neg (by simpa using foreign)]
      refine ih _ _ ?_
      rw [statusStep, if_neg (fun both => apart (both.1.symm.trans foreign)), same]
    · rw [filter_cons_of_pos (by simpa using foreign)]
      refine ih _ _ ?_
      rw [statusStep, statusStep, same]

variable [Identifier User] [Identifier Room]

structure Isolated (Sync : Type) (users : User → Prop) (user other : User)
    (ops : List (CacheOp User Room Stripped)) : Prop where
  independent : ∀ rest : List (CacheOp User Room Stripped), (∀ op ∈ rest, users op.user) →
    (rest.filter fun op => op.user ≠ other) = (ops.filter fun op => op.user ≠ other) →
    ∀ kind, roomsListed Room (runOps Sync rest) kind user = roomsListed Room (runOps Sync ops) kind user
  joined : (roomsJoined Room (runOps Sync ops) user).Nodup ∧ ∀ room, room ∈ roomsJoined Room (runOps Sync ops) user ↔
    statusAfter ops user room = some .joined
  shared : ∀ room, room ∈ getSharedRooms Room (runOps Sync ops) user other ↔ statusAfter ops user room = some .joined ∧
    statusAfter ops other room = some .joined

theorem isolated_of_alone {users : User → Prop} (apart : user ≠ other)
    (alone : ∀ third, users third → (bytes user <+: bytes third → third = user) ∧ (bytes other <+: bytes third →
    third = other)) (known : ∀ op ∈ ops, users op.user) : Isolated Sync users user other ops := by
  have aloneIn : ∀ rest : List (CacheOp User Room Stripped), (∀ op ∈ rest, users op.user) →
    ∀ kind third room, statusAfter rest third room = some kind →
        (bytes user <+: bytes third → third = user) ∧ (bytes other <+: bytes third → third = other) := by
    intro rest knownRest kind third room held
    obtain ⟨op, member, own⟩ := status_after_addressed held
    exact alone third (own.1 ▸ knownRest op member)
  have ascending := fun rest knownRest kind => rooms_listed_ascending (runOps Sync rest) (statusAfter rest)
    (run_tracks rest) kind user
    (fun third room held => (aloneIn rest knownRest kind third room held).1)
  have accurate := fun rest knownRest kind => rooms_listed_exact (runOps Sync rest) (statusAfter rest)
    (run_tracks rest) kind user
    (fun third room held => (aloneIn rest knownRest kind third room held).1)
  have otherAscending := rooms_listed_ascending (runOps Sync ops) (statusAfter ops) (run_tracks ops) .joined other
    (fun third room held => (aloneIn ops known .joined third room held).2)
  have otherExact := rooms_listed_exact (runOps Sync ops) (statusAfter ops)
    (run_tracks ops) .joined other (fun third room held => (aloneIn ops known .joined third room held).2)
  refine ⟨fun rest knownRest same kind => ?_, ⟨?_, accurate ops known .joined⟩, fun room => ?_⟩
  · refine ascending_ext (ascending rest knownRest kind) (ascending ops known kind) fun room => ?_
    rw [accurate rest knownRest kind, accurate ops known kind, status_after_others rest apart, same, ← status_after_others ops apart]
  · exact (ascending ops known .joined).imp fun {a b} less => ordered_apart idCmp less
  · have both := intersection_sorted_member idCmp _ _ (ascending ops known .joined) otherAscending room
    exact both.trans (and_congr (accurate ops known .joined room) (otherExact room))

theorem joined_listed {third : User} (inside : bytes user <+: bytes third)
    (held : statusAfter ops third room = some .joined) : room ∈ roomsJoined Room (runOps Sync ops) user :=
  (rooms_listed_member (runOps Sync ops) (statusAfter ops) (run_tracks ops) .joined user).mpr ⟨third, inside, held⟩

theorem only_room_shared (only : ∀ op ∈ ops, op.room = room) (first : room ∈ roomsJoined Room (runOps Sync ops) user)
    (second : room ∈ roomsJoined Room (runOps Sync ops) other) :
    room ∈ getSharedRooms Room (runOps Sync ops) user other := by
  have starts : ∀ anyone : User, room ∈ roomsJoined Room (runOps Sync ops) anyone →
    ∃ rest, roomsJoined Room (runOps Sync ops) anyone = room :: rest := by
    intro anyone listed
    cases rooms : roomsJoined Room (runOps Sync ops) anyone with
    | nil =>
      rw [rooms] at listed
      cases listed
    | cons head rest =>
      have headListed : head ∈ roomsListed Room (runOps Sync ops) .joined anyone := by
        rw [roomsListed, rooms]
        exact mem_cons_self
      obtain ⟨third, _, held⟩ := (rooms_listed_member _ _ (run_tracks ops) .joined anyone).mp headListed
      obtain ⟨op, member, _, place⟩ := status_after_addressed held
      exact ⟨rest, by rw [← place, only op member]⟩
  obtain ⟨firstRest, firstRooms⟩ := starts user first
  obtain ⟨secondRest, secondRooms⟩ := starts other second
  have self : idCmp room room = .eq := Std.ReflCmp.compare_self
  rw [getSharedRooms, firstRooms, secondRooms, intersectionSorted, intersectHead, self]
  exact mem_cons_self

theorem listings_isolated_iff [Nonempty Room] (users : User → Prop) (user other : User) (apart : user ≠ other)
    (userKnown : users user) :
    (∀ ops : List (CacheOp User Room Stripped), (∀ op ∈ ops, users op.user) → Isolated Sync users user other ops) ↔
      ∀ third, users third → (bytes user <+: bytes third → third = user) ∧ (bytes other <+: bytes third → third = other) := by
  refine ⟨fun isolated third known => ?_, fun alone ops knownOps => isolated_of_alone apart alone knownOps⟩
  obtain ⟨room⟩ := ‹Nonempty Room›
  refine ⟨fun inside => ?_, fun inside => ?_⟩
  · have ownJoin := isolated [.markAsJoined third room 0] (by simpa [CacheOp.user] using known)
    have held : statusAfter ([.markAsJoined third room 0] : List (CacheOp User Room Stripped)) third room = some .joined := by
      simp [statusAfter, statusStep, CacheOp.user, CacheOp.room, CacheOp.effect]
    have taken := (ownJoin.joined.2 room).mp (joined_listed inside held)
    obtain ⟨op, member, own, _⟩ := status_after_addressed taken
    rw [mem_singleton.mp member] at own
    exact own
  · let ops : List (CacheOp User Room Stripped) := [.markAsJoined user room 0, .markAsJoined third room 0]
    have bothJoin := isolated ops (by simp [ops, CacheOp.user, userKnown, known])
    have held : statusAfter ops third room = some .joined := by
      simp [ops, statusAfter, statusStep, CacheOp.user, CacheOp.room, CacheOp.effect]
    have userHeld : statusAfter ops user room = some .joined := by
      simp [ops, statusAfter, statusStep, CacheOp.user, CacheOp.room, CacheOp.effect]
    have taken := (bothJoin.shared room).mp (only_room_shared (by simp [ops, CacheOp.room])
      (joined_listed prefix_rfl userHeld) (joined_listed inside held))
    obtain ⟨op, member, own, _⟩ := status_after_addressed taken.2
    simp only [ops, mem_cons, not_mem_nil, or_false] at member
    rcases member with isUser | isThird
    · rw [isUser] at own
      exact absurd own apart
    · rw [isThird] at own
      exact own

end

def strangerJoins : List (CacheOp String String String) := [.markAsJoined "@a:example.com" "!r:example.org" 1]

theorem stranger_room_listed : roomsJoined String (runOps String strangerJoins) "@a:example.co" = ["!r:example.org"] ∧
    roomsJoined String (runOps String ([] : List (CacheOp String String String))) "@a:example.co" = [] ∧
    getSharedRooms String (runOps String strangerJoins) "@a:example.co" "@a:example.com" = ["!r:example.org"] ∧
    statusAfter strangerJoins "@a:example.co" "!r:example.org" = none := by
  decide +kernel

def roommates (user : String) : Prop := user = "@a:example.com" ∨ user = "@b:example.com"

theorem unrelated_users_isolated : Isolated String roommates "@b:example.com" "@a:example.com" strangerJoins := by
  have alone : ∀ third, roommates third → (bytes "@b:example.com" <+: bytes third → third = "@b:example.com") ∧
      (bytes "@a:example.com" <+: bytes third → third = "@a:example.com") := by
    intro third known
    rcases known with same | same <;> subst same <;> decide +kernel
  exact (listings_isolated_iff roommates "@b:example.com" "@a:example.com" (by decide) (Or.inr rfl)).mpr alone
    strangerJoins (by simp [strangerJoins, CacheOp.user, roommates])

end GaussMatrix.Rooms

import GaussMatrix.Fed.Queue

namespace GaussMatrix.Fed

open Collections List Option Runs Std Store ExtTreeMap

def Backoff.Sized (backoff : Backoff) : Prop := backoff.attempt < 2 ^ 32 ∧ backoff.availableAt < 2 ^ 64

def encodeHealth (state : Backoff) : Bytes := BigEndian.toBytes 4 state.attempt ++ BigEndian.toBytes 8 state.availableAt

def decodeHealth (bytes : Bytes) : Option Backoff :=
  if bytes.length < 12 then none else some ⟨BigEndian.ofBytes (bytes.take 4), BigEndian.ofBytes ((bytes.drop 4).take 8)⟩

def restoreHealth (tree : DomainTree Bytes) : Health :=
  extend ∅ ((prefixScan tree []).filterMap fun row => (decodeHealth row.2).map (row.1, ·))

-- Each call that has left the lock owes the store a put, or a delete where there is no value.
structure HealthState where
  health : Health
  stored : DomainTree Bytes
  writes : List (Destination × Option Bytes)

namespace HealthState

inductive Act where
  | markSuccess (destination : Destination)
  | markFailure (destination : Destination) (now : Nat)
  | write (call : Nat) (failed : Bool)

def step (state : HealthState) : Act → Option HealthState
  | .markSuccess destination =>
    some { state with health := markSuccess state.health destination, writes := state.writes ++ [(destination, none)] }
  | .markFailure destination now =>
    let health := markFailure state.health destination now
    some { state with health, writes := state.writes ++ (health[destination]?.map fun backoff => (destination, some (encodeHealth backoff))).toList }
  | .write call failed => (state.writes[call]?).map fun write =>
    { state with stored := if failed then state.stored else state.stored.alter write.1 fun _ => write.2, writes := state.writes.eraseIdx call }

def InOrder (state : HealthState) : Act → Prop
  | .write call failed =>
    failed = false ∧ ∀ write ∈ state.writes[call]?, ∀ earlier ∈ state.writes.take call, earlier.1 ≠ write.1
  | _ => True

instance (state : HealthState) (act : Act) : Decidable (state.InOrder act) :=
  match act with
  | .write call failed =>
    inferInstanceAs (Decidable (failed = false ∧ ∀ write ∈ state.writes[call]?, ∀ earlier ∈ state.writes.take call, earlier.1 ≠ write.1))
  | .markSuccess _ | .markFailure .. => .isTrue trivial

def owed (state : HealthState) (destination : Destination) : Option Bytes :=
  ((state.writes.filter (·.1 = destination)).getLast?.map Prod.snd).getD state.stored[destination]?

structure Tracks (state : HealthState) : Prop where
  owed : ∀ destination, state.owed destination = state.health[destination]?.map encodeHealth
  sized : ∀ destination : Destination, ∀ backoff ∈ state.health[destination]?, backoff.Sized

end HealthState

theorem decode_encode (backoff : Backoff) (sized : backoff.Sized) :
    decodeHealth (encodeHealth backoff) = some backoff := by
  have attempt := BigEndian.to_bytes_length 4 backoff.attempt
  have available := BigEndian.to_bytes_length 8 backoff.availableAt
  rw [decodeHealth, encodeHealth, if_neg (by rw [length_append]; omega), take_left' attempt, drop_left' attempt,
    take_of_length_le (Nat.le_of_eq available),
    BigEndian.of_to_bytes_of_lt sized.1, BigEndian.of_to_bytes_of_lt sized.2]

variable {state next last : HealthState}

theorem update_owed {health : Health} {destination : Destination} {record : Option Bytes}
    (here : health[destination]?.map encodeHealth = record)
    (elsewhere : ∀ other ≠ destination, health[other]? = state.health[other]?)
    (sized : ∀ backoff ∈ health[destination]?, backoff.Sized) (tracks : state.Tracks) :
    HealthState.Tracks ⟨health, state.stored, state.writes ++ [(destination, record)]⟩ := by
  refine ⟨fun other => ?_, fun other => ?_⟩
  · by_cases same : destination = other
    · subst same
      simp [HealthState.owed, here]
    · rw [elsewhere other (Ne.symm same), ← tracks.owed other]
      simp [HealthState.owed, same]
  · by_cases same : destination = other
    · exact same ▸ sized
    · rw [elsewhere other (Ne.symm same)]
      exact tracks.sized other

theorem step_tracks {act : HealthState.Act} (tracks : state.Tracks) (ordered : state.InOrder act)
    (stepped : state.step act = some next) : next.Tracks := by
  cases act with
  | markSuccess destination =>
    cases stepped
    refine update_owed ?_ (fun other differs => ?_) ?_ tracks
    · rw [markSuccess, getElem?_erase_self, map_none]
    · rw [markSuccess, getElem?_erase, if_neg fun equal => differs (LawfulEqOrd.eq_of_compare equal).symm]
    · rw [markSuccess, getElem?_erase_self]
      simp
  | markFailure destination now =>
    have inserted : (markFailure state.health destination now)[destination]? = some _ := getElem?_insert_self
    rw [HealthState.step, inserted] at stepped
    cases stepped
    refine update_owed ?_ (fun other differs => ?_) ?_ tracks
    · rw [inserted, map_some]
    · rw [markFailure, ExtTreeMap.getElem?_insert, if_neg fun equal => differs (LawfulEqOrd.eq_of_compare equal).symm]
    · rw [inserted]
      rintro backoff ⟨⟩
      refine ⟨?_, ?_⟩ <;> dsimp only <;> omega
  | write call failed =>
    obtain ⟨write, pending, rfl⟩ := map_eq_some_iff.mp stepped
    obtain ⟨rfl, first⟩ := ordered
    refine ⟨fun destination => ?_, tracks.sized⟩
    rw [← tracks.owed destination, HealthState.owed, HealthState.owed]
    obtain ⟨inside, rfl⟩ := List.getElem?_eq_some_iff.mp pending
    have split : state.writes = state.writes.take call ++ state.writes[call] :: state.writes.drop (call + 1) := by simp
    have before : ∀ earlier ∈ state.writes.take call, earlier.1 ≠ state.writes[call].1 := first _ pending
    rw [eraseIdx_eq_take_drop_succ]
    generalize state.writes.take call = taken, state.writes.drop (call + 1) = dropped, state.writes[call] = write at split before
    rw [split]
    by_cases same : write.1 = destination
    · subst same
      have none : taken.filter (·.1 = write.1) = [] := by simpa using before
      simp [none, getLast?_cons]
    · have elsewhere : compare write.1 destination ≠ .eq := fun equal => same (LawfulEqOrd.eq_of_compare equal)
      simp [same, getElem?_alter, elsewhere]

theorem health_restored {start : HealthState} {acts : List HealthState.Act} (tracks : start.Tracks)
    (ordered : AllMeet HealthState.step HealthState.InOrder start acts) (ran : runs HealthState.step start acts = some last) (finished : last.writes = []) :
    (∀ destination : Destination, last.stored[destination]? = last.health[destination]?.map encodeHealth) ∧ restoreHealth last.stored = last.health := by
  obtain ⟨owed, sized⟩ := runs_meeting_invariant
    (fun _ act _ held met stepped => step_tracks held met stepped) tracks ordered ran
  have stored : ∀ destination : Destination, last.stored[destination]? =
    last.health[destination]?.map encodeHealth := by
    intro destination
    rw [← owed, HealthState.owed, finished]
    rfl
  refine ⟨stored, ext_getElem? fun destination => ?_⟩
  have read : ∀ row ∈ (prefixScan last.stored []).filterMap (fun row => (decodeHealth row.2).map (row.1, ·)),
    last.health[row.1]? = some row.2 := by
    intro row member
    obtain ⟨scanned, inScan, mapped⟩ := mem_filterMap.mp member
    obtain ⟨backoff, decoded, rfl⟩ := map_eq_some_iff.mp mapped
    have value := ((prefix_scan_row _ _ _).mp inScan).1
    rw [stored, map_eq_some_iff] at value
    obtain ⟨held, found, encoded⟩ := value
    rw [← encoded, decode_encode held (sized _ held found)] at decoded
    rw [found, decoded]
  cases found : last.health[destination]? with
  | some backoff =>
    rw [restoreHealth, extend_consistent ∅ _ (last.health[·]?) read, found]
    refine ⟨(destination, backoff), mem_filterMap.mpr ⟨(destination, encodeHealth backoff), ?_, ?_⟩, rfl⟩
    · exact (prefix_scan_row _ _ _).mpr ⟨by rw [stored, found, map_some], nil_prefix⟩
    · rw [decode_encode backoff (sized _ backoff found), map_some]
  | none =>
    rw [restoreHealth, extend_outside, getElem?_empty]
    intro row member same
    have held := read row member
    rw [same, found] at held
    cases held

def freshHealth : HealthState := ⟨∅, ∅, []⟩

-- The calls for one destination overlap, another goes between, and each destination's writes keep their order.
def overlappingCalls : List HealthState.Act :=
  [.markFailure [97] 5, .markFailure [98] 6, .markFailure [97] 7, .write 1 false, .markSuccess [98], .write 0 false,
    .write 1 false, .write 0 false]

theorem overlapping_restored : (runs HealthState.step freshHealth overlappingCalls).map
    (fun last => (last.health[([97] : Destination)]?, last.health[([98] : Destination)]?)) =
      some (some ⟨2, 2007⟩, none) ∧ ∃ last, runs HealthState.step freshHealth overlappingCalls = some last ∧
      restoreHealth last.stored = last.health := by
  have ordered : AllMeet HealthState.step HealthState.InOrder freshHealth overlappingCalls := by decide +kernel
  have known : (runs HealthState.step freshHealth overlappingCalls).map (fun last => last.writes) = some [] := by
    decide +kernel
  obtain ⟨last, ran, finished⟩ := map_eq_some_iff.mp known
  exact ⟨by decide +kernel, last, ran, (health_restored ⟨by simp [HealthState.owed, freshHealth], by simp [freshHealth]⟩ ordered ran finished).2⟩

-- The failure updates memory first and writes last.
theorem overtaken_write_stays :
    (runs HealthState.step freshHealth [.markFailure [97] 5, .markSuccess [97], .write 1 false, .write 0 false]).map
      (fun last => (last.writes, last.health[([97] : Destination)]?,
      (restoreHealth last.stored)[([97] : Destination)]?)) = some ([], none, some ⟨1, 1005⟩) := by
  decide +kernel

end GaussMatrix.Fed

import GaussMatrix.Library.Handler
import GaussMatrix.Library.Runs

namespace GaussMatrix.Utils

open Handlers List Option Runs

inductive CounterError where
  | arithmetic (message : String)
  | commit (message : String)

def checkedAdd (a b : Nat) : Except CounterError Nat :=
  if a + b < 2 ^ 64 then .ok (a + b) else .error (.arithmetic "operation overflowed or result invalid")

structure CounterState where
  dispatched : Nat
  pending : List Nat
deriving DecidableEq

def CounterState.new (dispatched : Nat) : CounterState := ⟨dispatched, []⟩

def CounterState.retired (state : CounterState) : Nat :=
  (state.pending.head?.map fun val => val - 1).getD state.dispatched

abbrev Counting := ExceptT CounterError (StateM CounterState)

def dispatch (commit : Nat → Except CounterError Unit) : Counting (Nat × Nat) := do
  let state ← get
  let retired := state.retired
  let dispatched ← liftM (checkedAdd state.dispatched 1)
  liftM (commit dispatched)
  modify fun state => ⟨dispatched, state.pending ++ [dispatched]⟩
  pure (retired, dispatched)

def CounterState.pendingIndex (state : CounterState) (id : Nat) : Option Nat :=
  if id ∈ state.pending then some (state.pending.idxOf id) else none

-- None is the panic on an id that is not pending. The release callback is called
-- with the second component, if at all.
def CounterState.retire (state : CounterState) (id : Nat) : Option (CounterState × Option Nat) :=
  (state.pendingIndex id).map fun index =>
    let pending := state.pending.eraseIdx index
    let release := if pending.isEmpty then state.dispatched else id
    (⟨state.dispatched, pending⟩, if index ≠ 0 then none else some release)

-- A commit that fails may have written the count before it did.
inductive Commit where
  | stored
  | failed (written : Bool)

def Commit.result : Commit → Except CounterError Unit
  | .stored => .ok ()
  | .failed _ => .error (.commit "failed")

def Commit.store (commit : Commit) (stored count : Nat) : Nat :=
  match commit with
  | .stored => count
  | .failed written => if written then count else stored

structure Counter where
  state : CounterState
  stored : Nat
  retires : Nat
  permits : List Nat
  handed : List Nat
deriving DecidableEq

def Counter.start (stored : Nat) (handed : List Nat) : Counter := ⟨.new stored, stored, stored, [], handed⟩

def Counter.current (counter : Counter) : Nat := counter.state.retired

inductive CounterAct where
  | next (commit : Commit)
  | drop (id : Nat)
  | restart

def Counter.next (counter : Counter) (commit : Commit) : Counter :=
  match run (dispatch fun _ => commit.result) counter.state with
  | (.ok (_, id), state) =>
    { counter with
      state := state, stored := commit.store counter.stored id, permits := counter.permits ++ [id], handed := counter.handed ++ [id] }
  | (.error (.commit _), state) =>
    { counter with state := state, stored := commit.store counter.stored (counter.state.dispatched + 1) }
  | (.error (.arithmetic _), state) => { counter with state := state }

def Counter.drop (counter : Counter) (id : Nat) : Option Counter := (counter.state.retire id).map fun retired =>
    { counter with state := retired.1, retires := retired.2.getD counter.retires, permits := counter.permits.erase id }

def Counter.step (counter : Counter) : CounterAct → Option Counter
  | .next commit => some (counter.next commit)
  | .drop id => if id ∈ counter.permits then counter.drop id else none
  | .restart => some (.start counter.stored counter.handed)

structure Counter.Sound (counter : Counter) : Prop where
  sorted : counter.state.pending.Pairwise (· < ·)
  positive : ∀ id ∈ counter.state.pending, 0 < id
  held : counter.permits = counter.state.pending
  issued : ∀ id ∈ counter.permits, id ∈ counter.handed
  increasing : counter.handed.Pairwise (· < ·)
  below : ∀ id ∈ counter.handed, id ≤ counter.state.dispatched
  durable : counter.state.dispatched ≤ counter.stored
  announced : counter.retires ≤ counter.current
  quiet : counter.state.pending = [] → counter.retires = counter.state.dispatched

variable {error : CounterError} {id : Nat}

section

variable (commit : Nat → Except CounterError Unit) (state : CounterState)

theorem dispatch_full (full : ¬ state.dispatched + 1 < 2 ^ 64) :
    run (dispatch commit) state = (.error (.arithmetic "operation overflowed or result invalid"), state) := by
  have overflow : checkedAdd state.dispatched 1 = .error (.arithmetic "operation overflowed or result invalid") :=
    if_neg full
  rw [dispatch, run_bind_ok (run_get state), run_lift_error overflow]

theorem dispatch_uncommitted (room : state.dispatched + 1 < 2 ^ 64)
    (failed : commit (state.dispatched + 1) = .error error) : run (dispatch commit) state = (.error error, state) := by
  have added : checkedAdd state.dispatched 1 = .ok (state.dispatched + 1) := if_pos room
  rw [dispatch, run_bind_ok (run_get state), run_lift_ok added, run_lift_error failed]

theorem dispatch_committed (room : state.dispatched + 1 < 2 ^ 64) (done : commit (state.dispatched + 1) = .ok ()) :
    run (dispatch commit) state =
      (.ok (state.retired, state.dispatched + 1), ⟨state.dispatched + 1, state.pending ++ [state.dispatched + 1]⟩) := by
  have added : checkedAdd state.dispatched 1 = .ok (state.dispatched + 1) := if_pos room
  rw [dispatch, run_bind_ok (run_get state), run_lift_ok added, run_lift_ok done]
  rfl

variable {counter : Counter}

theorem next_full (full : ¬ counter.state.dispatched + 1 < 2 ^ 64) (commit : Commit) :
    counter.next commit = counter := by
  rw [Counter.next, dispatch_full _ _ full]

theorem next_failed (room : counter.state.dispatched + 1 < 2 ^ 64) (written : Bool) : counter.next (.failed written) =
      { counter with stored := Commit.store (.failed written) counter.stored (counter.state.dispatched + 1) } := by
  rw [Counter.next, dispatch_uncommitted _ _ room rfl]

theorem next_stored (room : counter.state.dispatched + 1 < 2 ^ 64) : counter.next .stored =
      { state := ⟨counter.state.dispatched + 1, counter.state.pending ++ [counter.state.dispatched + 1]⟩
        stored := counter.state.dispatched + 1
        retires := counter.retires
        permits := counter.permits ++ [counter.state.dispatched + 1]
        handed := counter.handed ++ [counter.state.dispatched + 1] } := by
  rw [Counter.next, dispatch_committed _ _ room rfl]
  rfl

theorem drop_pending (member : id ∈ counter.state.pending) : counter.drop id = some
      { counter with
        state := ⟨counter.state.dispatched, counter.state.pending.erase id⟩
        retires := if counter.state.pending.idxOf id ≠ 0 then counter.retires
          else if (counter.state.pending.erase id).isEmpty then counter.state.dispatched else id
        permits := counter.permits.erase id } := by
  have index : counter.state.pendingIndex id = some (counter.state.pending.idxOf id) := if_pos member
  have erased := erase_eq_eraseIdx_of_idxOf (rfl : counter.state.pending.idxOf id = _)
  rw [Counter.drop, CounterState.retire, index, map_some, map_some, ← erased]
  by_cases first : counter.state.pending.idxOf id = 0 <;> simp [first]

theorem current_cons {first : Nat} {rest : List Nat} (pending : counter.state.pending = first :: rest) :
    counter.current = first - 1 := by
  simp [Counter.current, CounterState.retired, pending]

theorem current_quiet (pending : counter.state.pending = []) : counter.current = counter.state.dispatched := by
  simp [Counter.current, CounterState.retired, pending]

variable {next : Counter} (sound : counter.Sound)

include sound in
theorem pending_below (id : Nat) (member : id ∈ counter.state.pending) : id ≤ counter.state.dispatched :=
  sound.below id (sound.issued id (sound.held.symm ▸ member))

include sound in
theorem current_below : counter.current ≤ counter.state.dispatched := by
  cases pending : counter.state.pending with
  | nil => exact Nat.le_of_eq (current_quiet pending)
  | cons first rest =>
    have bound := pending_below sound first (by simp [pending])
    rw [current_cons pending]
    omega

theorem start_sound (stored : Nat) (handed : List Nat) (increasing : handed.Pairwise (· < ·))
    (below : ∀ id ∈ handed, id ≤ stored) : (Counter.start stored handed).Sound where
  sorted := List.Pairwise.nil
  positive := forall_mem_nil _
  held := rfl
  issued := forall_mem_nil _
  increasing := increasing
  below := below
  durable := Nat.le_refl stored
  announced := Nat.le_refl stored
  quiet := fun _ => rfl

include sound in
theorem next_stored_sound (room : counter.state.dispatched + 1 < 2 ^ 64) :
    (counter.next .stored).Sound ∧ (counter.next .stored).current = counter.current := by
  rw [next_stored room]
  have current : CounterState.retired ⟨counter.state.dispatched + 1, counter.state.pending ++
    [counter.state.dispatched + 1]⟩ = counter.current := by
    cases pending : counter.state.pending with
    | nil => simp [CounterState.retired, current_quiet pending]
    | cons first rest => simp [CounterState.retired, current_cons pending]
  have above : ∀ id ∈ counter.state.pending, ∀ new ∈ [counter.state.dispatched + 1], id < new := by
    intro id member new isNew
    rw [mem_singleton.mp isNew]
    exact Nat.lt_succ_of_le (pending_below sound id member)
  have aboveHanded : ∀ id ∈ counter.handed, ∀ new ∈ [counter.state.dispatched + 1], id < new := by
    intro id member new isNew
    rw [mem_singleton.mp isNew]
    exact Nat.lt_succ_of_le (sound.below id member)
  refine ⟨⟨pairwise_append.mpr ⟨sound.sorted, pairwise_singleton _ _, above⟩, ?_, ?_, ?_,
    pairwise_append.mpr ⟨sound.increasing, pairwise_singleton _ _, aboveHanded⟩, ?_, le_rfl, ?_, ?_⟩, current⟩
  · intro id member
    rcases mem_append.mp member with old | new
    · exact sound.positive id old
    · rw [mem_singleton.mp new]
      exact Nat.succ_pos _
  · rw [sound.held]
  · intro id member
    exact mem_append.mpr ((mem_append.mp member).imp_left (sound.issued id))
  · intro id member
    rcases mem_append.mp member with old | new
    · exact Nat.le_succ_of_le (sound.below id old)
    · exact Nat.le_of_eq (mem_singleton.mp new)
  · exact Nat.le_trans sound.announced (Nat.le_of_eq current.symm)
  · intro empty
    simp at empty

include sound in
theorem next_failed_sound (room : counter.state.dispatched + 1 < 2 ^ 64) (written : Bool) :
    (counter.next (.failed written)).Sound ∧ (counter.next (.failed written)).state = counter.state := by
  rw [next_failed room]
  have durable : counter.state.dispatched ≤ Commit.store (.failed written) counter.stored
    (counter.state.dispatched + 1) := by
    cases written with
    | true => exact Nat.le_succ _
    | false => exact sound.durable
  exact ⟨⟨sound.sorted, sound.positive, sound.held, sound.issued, sound.increasing, sound.below, durable,
    sound.announced, sound.quiet⟩, rfl⟩

include sound in
theorem next_sound {commit : Commit} : (counter.next commit).Sound ∧
    counter.current ≤ (counter.next commit).current := by
  by_cases room : counter.state.dispatched + 1 < 2 ^ 64
  · cases commit with
    | stored =>
      have stepped := next_stored_sound sound room
      exact ⟨stepped.1, Nat.le_of_eq stepped.2.symm⟩
    | failed written =>
      have stepped := next_failed_sound sound room written
      exact ⟨stepped.1, Nat.le_of_eq (by rw [Counter.current, Counter.current, stepped.2])⟩
  · rw [next_full room]
    exact ⟨sound, le_rfl⟩

include sound in
theorem retire_heads (held : id ∈ counter.state.pending) :
    counter.current ≤ CounterState.retired ⟨counter.state.dispatched, counter.state.pending.erase id⟩ ∧
      (if counter.state.pending.idxOf id ≠ 0 then counter.retires
        else if (counter.state.pending.erase id).isEmpty then counter.state.dispatched else id) ≤
        CounterState.retired ⟨counter.state.dispatched, counter.state.pending.erase id⟩ ∧
      (counter.state.pending.erase id = [] → counter.state.pending.idxOf id = 0) := by
  have announced := sound.announced
  have ascending := sound.sorted
  cases pending : counter.state.pending with
  | nil => simp [pending] at held
  | cons first rest =>
    have current := current_cons pending
    have bound := pending_below sound first (by simp [pending])
    rw [pending, pairwise_cons] at ascending
    by_cases head : first = id
    · subst head
      rw [erase_cons_head, idxOf_cons_self, if_neg (not_not_intro rfl)]
      refine ⟨?_, ?_, fun _ => rfl⟩
      all_goals
        cases rest with
        | nil =>
          simp only [CounterState.retired, head?_nil, map_none, getD_none, isEmpty_nil, if_true]
          omega
        | cons second tail =>
          have later := ascending.1 second mem_cons_self
          simp only [CounterState.retired, head?_cons, map_some, getD_some, isEmpty_cons, Bool.false_eq_true, if_false]
          omega
    · have place : (first :: rest).idxOf id ≠ 0 := by simp [head]
      rw [erase_cons_tail (by simpa using head), if_pos place]
      simp only [CounterState.retired, head?_cons, map_some, getD_some]
      exact ⟨by omega, by omega, fun empty => nomatch empty⟩

include sound in
theorem drop_sound (held : id ∈ counter.permits) (dropped : counter.drop id = some next) :
    next.Sound ∧ counter.current ≤ next.current := by
  rw [sound.held] at held
  rw [drop_pending held] at dropped
  cases dropped
  obtain ⟨current, announced, emptied⟩ := retire_heads sound held
  refine ⟨⟨sound.sorted.erase id, ?_, ?_, ?_, sound.increasing, sound.below, sound.durable, announced, ?_⟩, current⟩
  · intro other member
    exact sound.positive other (mem_of_mem_erase member)
  · rw [sound.held]
  · intro other member
    exact sound.issued other (mem_of_mem_erase member)
  · intro empty
    have isEmpty : (counter.state.pending.erase id).isEmpty = true := List.isEmpty_iff.mpr empty
    rw [if_neg (not_not_intro (emptied empty)), if_pos isEmpty]

include sound in
theorem restart_sound : (Counter.start counter.stored counter.handed).Sound ∧
    counter.current ≤ (Counter.start counter.stored counter.handed).current :=
  ⟨start_sound _ _ sound.increasing fun id member => Nat.le_trans (sound.below id member) sound.durable,
    Nat.le_trans (current_below sound) sound.durable⟩

include sound in
theorem counter_step_sound {act : CounterAct} (stepped : counter.step act = some next) :
    next.Sound ∧ counter.current ≤ next.current := by
  cases act with
  | next commit =>
    cases stepped
    exact next_sound sound
  | drop id =>
    obtain ⟨held, dropped⟩ := ite_none_right_eq_some.mp stepped
    exact drop_sound sound held dropped
  | restart =>
    cases stepped
    exact restart_sound sound

include sound in
theorem retired_not_held (reached : id ≤ counter.current) : id ∉ counter.permits := by
  rw [sound.held]
  intro member
  have positive := sound.positive id member
  have ascending := sound.sorted
  cases pending : counter.state.pending with
  | nil => simp [pending] at member
  | cons first rest =>
    rw [current_cons pending] at reached
    rw [pending] at member ascending
    rcases mem_cons.mp member with head | later
    · omega
    · have less := (pairwise_cons.mp ascending).1 id later
      omega

end

theorem uncommitted_unchanged {commit : Nat → Except CounterError Unit} {state : CounterState}
    (failed : (run (dispatch commit) state).1 = .error error) : (run (dispatch commit) state).2 = state := by
  by_cases room : state.dispatched + 1 < 2 ^ 64
  · cases committed : commit (state.dispatched + 1) with
    | error cause => rw [dispatch_uncommitted commit state room committed]
    | ok done =>
      rw [dispatch_committed commit state room committed] at failed
      cases failed
  · rw [dispatch_full commit state room]

theorem reached_sound {stored : Nat} {acts : List CounterAct} {counter : Counter}
    (ran : runs Counter.step (.start stored []) acts = some counter) : counter.Sound :=
  runs_invariant (fun _ _ _ sound stepped => (counter_step_sound sound stepped).1)
    (start_sound stored [] List.Pairwise.nil (forall_mem_nil _)) ran

theorem counter_safe (stored : Nat) (before after : List CounterAct) (middle last : Counter)
    (ran : runs Counter.step (.start stored []) before = some middle)
    (later : runs Counter.step middle after = some last) : last.handed.Pairwise (· < ·) ∧
    middle.current ≤ last.current ∧ (∀ id ∈ last.handed, id ≤ last.current → id ∉ last.permits) ∧
      (∀ commit error, (run (dispatch commit) last.state).1 = .error error → (run (dispatch commit) last.state).2 = last.state) ∧
      ∀ id ∈ last.permits, ∃ next, last.step (.drop id) = some next := by
  have soundMiddle := reached_sound ran
  have soundLast := runs_invariant (fun _ _ _ sound stepped => (counter_step_sound sound stepped).1) soundMiddle later
  let rising : Counter → Counter → Prop := fun old new => old.current ≤ new.current
  have : Std.Refl rising := ⟨fun _ => Nat.le_refl _⟩
  have : IsTrans Counter rising := ⟨fun _ _ _ first second => Nat.le_trans first second⟩
  have rises : rising middle last :=
    runs_related (fun _ act _ sound stepped => counter_step_sound sound stepped) soundMiddle later
  refine ⟨soundLast.increasing, rises, fun id _ reached => retired_not_held soundLast reached,
    fun commit error failed => uncommitted_unchanged failed, fun id held => ?_⟩
  have pending : id ∈ last.state.pending := soundLast.held ▸ held
  exact ⟨_, (if_pos held).trans (drop_pending pending)⟩

def busyCounter : Counter := ⟨⟨7, [7]⟩, 8, 6, [7], [6, 7]⟩

def resumedCounter : Counter := ⟨⟨9, [9]⟩, 9, 8, [9], [6, 7, 9]⟩

theorem resumed_counter_safe : resumedCounter.handed.Pairwise (· < ·) ∧ busyCounter.current ≤ resumedCounter.current ∧
      (∀ id ∈ resumedCounter.handed, id ≤ resumedCounter.current → id ∉ resumedCounter.permits) := by
  have ran : runs Counter.step (.start 5 []) [.next .stored, .next .stored, .next (.failed true), .drop 6] =
    some busyCounter := by
    decide +kernel
  have later : runs Counter.step busyCounter [.restart, .next .stored] = some resumedCounter := by decide +kernel
  have safe := counter_safe 5 _ _ _ _ ran later
  exact ⟨safe.1, safe.2.1, safe.2.2.1⟩

theorem release_reaches_current_iff (stored : Nat) (acts : List CounterAct) (counter next : Counter) (id : Nat)
    (ran : runs Counter.step (.start stored []) acts = some counter) (dropped : counter.step (.drop id) = some next)
    (advances : counter.current < next.current) :
    (next.retires = next.current ↔ ∀ first ∈ (counter.state.pending.erase id).head?, first = id + 1) ∧
    ((∀ count ≤ next.current, count ≤ next.retires) ↔ next.retires = next.current) := by
  have sound := reached_sound ran
  have announced := (counter_step_sound sound dropped).1.announced
  refine ⟨?_, fun all => Nat.le_antisymm announced (all _ (Nat.le_refl _)), fun same count reached => same ▸ reached⟩
  obtain ⟨held, dropped⟩ := ite_none_right_eq_some.mp dropped
  have ascending := sound.sorted
  rw [sound.held] at held
  rw [drop_pending held] at dropped
  cases dropped
  rw [Counter.current, Counter.current] at advances
  rw [Counter.current]
  cases pending : counter.state.pending with
  | nil => simp [pending] at held
  | cons first rest =>
    rw [pending] at ascending advances
    by_cases head : first = id
    · subst head
      cases rest with
      | nil => simp [CounterState.retired]
      | cons second tail =>
        have later := (pairwise_cons.mp ascending).1 second mem_cons_self
        simp only [CounterState.retired, erase_cons_head, idxOf_cons_self, head?_cons, map_some, getD_some, isEmpty_cons, ne_eq, not_true_eq_false,
          Bool.false_eq_true, if_false, mem_some_iff, forall_eq']
        omega
    · rw [erase_cons_tail (by simpa using head)] at advances
      simp [CounterState.retired, pending] at advances

theorem two_in_order_released :
    (Counter.start 0 []).retires = 0 ∧ ∀ next, (⟨⟨2, [1, 2]⟩, 2, 0, [1, 2], [1, 2]⟩ : Counter).step (.drop 1) =
    some next → next.retires = next.current := by
  refine ⟨rfl, fun next dropped => ?_⟩
  have ran : runs Counter.step (.start 0 []) [.next .stored, .next .stored] =
    some ⟨⟨2, [1, 2]⟩, 2, 0, [1, 2], [1, 2]⟩ := by decide +kernel
  have reached := release_reaches_current_iff 0 _ _ next 1 ran dropped
  cases dropped
  exact (reached (by decide)).1.mpr (by decide)

theorem middle_drop_unreleased :
    (runs Counter.step (.start 0 []) [.next .stored, .next .stored, .next .stored, .drop 2, .drop 1]).map
    (fun counter => (counter.retires, counter.current)) = some (1, 2) := by
  decide +kernel

end GaussMatrix.Utils

import Mathlib

namespace GaussMatrix.OrderedBuffer

open List Option

inductive Stage where
  | waiting
  | running
  | finished
deriving DecidableEq

-- A stream of futures, numbered in the order the stream yields them: those below
-- taken have been yielded, those from taken to pushed are in flight.
structure Buffer where
  taken : Nat
  pushed : Nat
  stage : Nat → Stage

inductive Move where
  | push
  | start (item : Nat)
  | skip (item : Nat)
  | finish (item : Nat)
  | take

def Buffer.empty : Buffer := ⟨0, 0, fun _ => .waiting⟩

def Buffer.setStage (buffer : Buffer) (item : Nat) (stage : Stage) : Buffer :=
  { buffer with stage := Function.update buffer.stage item stage }

section

variable (width total : Nat) (works : Nat → Bool)

def move (buffer : Buffer) : Move → Option Buffer
  | .push =>
    if buffer.pushed < total ∧ buffer.pushed < buffer.taken + width then some
    { buffer with pushed := buffer.pushed + 1 } else none
  | .start item =>
    if item < buffer.pushed ∧ buffer.stage item = .waiting ∧ works item = true then some (buffer.setStage item .running) else none
  | .skip item =>
    if item < buffer.pushed ∧ buffer.stage item = .waiting ∧ works item = false then some (buffer.setStage item .finished) else none
  | .finish item => if buffer.stage item = .running then some (buffer.setStage item .finished) else none
  | .take =>
    if buffer.taken < buffer.pushed ∧ buffer.stage buffer.taken = .finished then some { buffer with taken := buffer.taken + 1 } else none

def play (buffer : Buffer) (moves : List Move) : Option Buffer := moves.foldlM (move width total works) buffer

theorem play_append (buffer : Buffer) (before after : List Move) : play width total works buffer (before ++ after) =
      (play width total works buffer before).bind fun reached => play width total works reached after := by
  rw [play, foldlM_append]
  rfl

theorem play_append_some {buffer reached : Buffer} {before : List Move} {after : List Move}
    (played : play width total works buffer before = some reached) :
    play width total works buffer (before ++ after) = play width total works reached after := by
  rw [play_append, played, bind_some]

structure Ordered (buffer : Buffer) : Prop where
  yielded : ∀ item < buffer.taken, buffer.stage item = .finished
  bounded : buffer.pushed ≤ buffer.taken + width
  inside : buffer.pushed ≤ total

variable {width total works} {buffer after : Buffer} {next : Move}

theorem move_cases (moved : move width total works buffer next = some after) :
    (buffer.pushed < total ∧ buffer.pushed < buffer.taken + width ∧
    after = { buffer with pushed := buffer.pushed + 1 }) ∨
      (∃ item stage, item < buffer.pushed ∧ buffer.stage item = .waiting ∧ after = buffer.setStage item stage) ∨
      (∃ item, buffer.stage item = .running ∧ after = buffer.setStage item .finished) ∨
      (buffer.stage buffer.taken = .finished ∧ after = { buffer with taken := buffer.taken + 1 }) := by
  cases next with
  | push =>
    obtain ⟨room, same⟩ := ite_none_right_eq_some.mp moved
    exact .inl ⟨room.1, room.2, (some.inj same).symm⟩
  | start item =>
    obtain ⟨idle, same⟩ := ite_none_right_eq_some.mp moved
    exact .inr (.inl ⟨item, .running, idle.1, idle.2.1, (some.inj same).symm⟩)
  | skip item =>
    obtain ⟨idle, same⟩ := ite_none_right_eq_some.mp moved
    exact .inr (.inl ⟨item, .finished, idle.1, idle.2.1, (some.inj same).symm⟩)
  | finish item =>
    obtain ⟨busy, same⟩ := ite_none_right_eq_some.mp moved
    exact .inr (.inr (.inl ⟨item, busy, (some.inj same).symm⟩))
  | take =>
    obtain ⟨ready, same⟩ := ite_none_right_eq_some.mp moved
    exact .inr (.inr (.inr ⟨ready.2, (some.inj same).symm⟩))

theorem set_stage_ordered (ordered : Ordered width total buffer) {item : Nat} {stage : Stage}
    (notDone : buffer.stage item ≠ .finished) : Ordered width total (buffer.setStage item stage) := { ordered with
  yielded := by
    intro other below
    have done := ordered.yielded other below
    have different : other ≠ item := by
      intro same
      exact notDone (same ▸ done)
    simpa only [Buffer.setStage, Function.update_of_ne different] using done }

theorem move_ordered (ordered : Ordered width total buffer) (moved : move width total works buffer next = some after) :
    Ordered width total after := by
  rcases move_cases moved with ⟨more, room, same⟩ | ⟨item, stage, _, idle, same⟩ | ⟨item, busy, same⟩ | ⟨done, same⟩
  · subst same
    exact ⟨ordered.yielded, room, more⟩
  · subst same
    exact set_stage_ordered ordered (by simp [idle])
  · subst same
    exact set_stage_ordered ordered (by simp [busy])
  · subst same
    refine ⟨?_, Nat.le_trans ordered.bounded (by simp only []; omega), ordered.inside⟩
    intro item below
    rcases Nat.lt_succ_iff_lt_or_eq.mp below with earlier | last
    · exact ordered.yielded item earlier
    · exact last ▸ done

theorem play_ordered (moves : List Move) (buffer reached : Buffer) (ordered : Ordered width total buffer)
    (played : play width total works buffer moves = some reached) : Ordered width total reached := by
  induction moves generalizing buffer with
  | nil =>
    cases played
    exact ordered
  | cons next rest ih =>
    obtain ⟨middle, moved, later⟩ := bind_eq_some_iff.mp played
    exact ih middle (move_ordered ordered moved) later

theorem empty_ordered : Ordered width total Buffer.empty :=
  ⟨fun _ below => absurd below (Nat.not_lt_zero _), Nat.zero_le _, Nat.zero_le _⟩

end

variable (width total : Nat) (works : Nat → Bool)

def NeedsFinished (needs : Nat → Nat → Prop) : Prop :=
  ∀ before item reached started, play width total works .empty before = some reached →
    move width total works reached (.start item) = some started →
    ∀ needed < total, works needed = true → needs item needed → reached.stage needed = .finished

theorem started_in_flight {buffer started : Buffer} {item : Nat}
    (moved : move width total works buffer (.start item) = some started) :
    item < buffer.pushed ∧ works item = true := by
  obtain ⟨idle, _⟩ := ite_none_right_eq_some.mp moved
  exact ⟨idle.1, idle.2.2⟩

theorem far_needs_finished {needs : Nat → Nat → Prop}
    (far : ∀ item < total, ∀ needed < total, works item = true → works needed = true → needs item needed →
    needed + width ≤ item) : NeedsFinished width total works needs := by
  intro before item reached started played moved needed inside neededWorks isNeeded
  have ordered := play_ordered before .empty reached empty_ordered played
  obtain ⟨inFlight, itemWorks⟩ := started_in_flight width total works moved
  have room := ordered.bounded
  have below := ordered.inside
  have apart := far item (by omega) needed inside itemWorks neededWorks isNeeded
  exact ordered.yielded needed (by omega)

def handled (item : Nat) : List Move := if works item then [.push, .start item, .finish item, .take]
    else [.push, .skip item, .take]

def Reached (count : Nat) (buffer : Buffer) : Prop :=
  buffer.taken = count ∧ buffer.pushed = count ∧ ∀ item, count ≤ item → buffer.stage item = .waiting

theorem handled_next {buffer : Buffer} {count : Nat} (reached : Reached count buffer) (room : 0 < width)
    (inside : count < total) :
    ∃ next, play width total works buffer (handled works count) = some next ∧ Reached (count + 1) next := by
  obtain ⟨takenAt, pushedAt, idle⟩ := reached
  let final : Buffer := ⟨count + 1, count + 1, Function.update buffer.stage count .finished⟩
  have rest : ∀ item, count + 1 ≤ item → final.stage item = .waiting := by
    intro item above
    rw [show final.stage item = buffer.stage item from Function.update_of_ne (by omega) _ _]
    exact idle item (by omega)
  refine ⟨final, ?_, rfl, rfl, rest⟩
  have waiting := idle count (Nat.le_refl count)
  cases work : works count with
  | true => simp [play, handled, work, move, Buffer.setStage, takenAt, pushedAt, inside, room, waiting, final]
  | false => simp [play, handled, work, move, Buffer.setStage, takenAt, pushedAt, inside, room, waiting, final]

theorem handled_below (room : 0 < width) (count : Nat) (inside : count ≤ total) :
    ∃ moves buffer, play width total works .empty moves = some buffer ∧ Reached count buffer := by
  induction count with
  | zero => exact ⟨[], .empty, rfl, rfl, rfl, fun _ _ => rfl⟩
  | succ count ih =>
    obtain ⟨moves, buffer, played, reached⟩ := ih (by omega)
    obtain ⟨next, more, reachedNext⟩ := handled_next width total works reached room (by omega)
    exact ⟨moves ++ handled works count, next, (play_append_some width total works played).trans more, reachedNext⟩

theorem push_more (buffer : Buffer) (count : Nat) (room : buffer.pushed + count ≤ buffer.taken + width)
    (inside : buffer.pushed + count ≤ total) : play width total works buffer (List.replicate count .push) = some
    { buffer with pushed := buffer.pushed + count } := by
  induction count generalizing buffer with
  | zero => rfl
  | succ count ih =>
    have pushes : move width total works buffer .push = some { buffer with pushed := buffer.pushed + 1 } := if_pos ⟨by omega, by omega⟩
    have rest := ih { buffer with pushed := buffer.pushed + 1 } (by simp only []; omega) (by simp only []; omega)
    have added : buffer.pushed + 1 + count = buffer.pushed + (count + 1) := by omega
    rw [replicate_succ, play, foldlM_cons, pushes]
    exact rest.trans (by rw [added])

theorem near_starts_early {item needed : Nat} (insideItem : item < total) (itemWorks : works item = true)
    (insideNeeded : needed < total) (near : item < needed + width) (room : 0 < width) :
    ∃ before reached started, play width total works .empty before = some reached ∧
      move width total works reached (.start item) = some started ∧ reached.stage needed = .waiting := by
  obtain ⟨moves, buffer, played, takenAt, pushedAt, idle⟩ :=
    handled_below width total works room (min item needed) (by omega)
  have pushes := push_more width total works buffer (item + 1 - min item needed) (by omega) (by omega)
  have waiting : buffer.stage item = .waiting := idle item (by omega)
  let full : Buffer := { buffer with pushed := buffer.pushed + (item + 1 - min item needed) }
  have inFlight : item < full.pushed := by
    change item < buffer.pushed + (item + 1 - min item needed)
    omega
  exact ⟨moves ++ List.replicate (item + 1 - min item needed) .push, full, full.setStage item .running,
    (play_append_some width total works played).trans pushes, if_pos ⟨inFlight, waiting, itemWorks⟩, idle needed (by omega)⟩

theorem needs_finished_iff (room : 0 < width) (needs : Nat → Nat → Prop) : NeedsFinished width total works needs ↔
      ∀ item < total, ∀ needed < total, works item = true → works needed = true → needs item needed → needed + width ≤ item := by
  constructor
  · intro finished item insideItem needed insideNeeded itemWorks neededWorks isNeeded
    by_contra near
    obtain ⟨before, reached, started, played, moved, waiting⟩ :=
      near_starts_early width total works insideItem itemWorks insideNeeded (by omega) room
    have done := finished before item reached started played moved needed insideNeeded neededWorks isNeeded
    rw [waiting] at done
    cases done
  · exact far_needs_finished width total works

end GaussMatrix.OrderedBuffer

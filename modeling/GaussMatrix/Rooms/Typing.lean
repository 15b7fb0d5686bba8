import GaussMatrix.Library.Collections
import GaussMatrix.Library.Runs

namespace GaussMatrix.Rooms.Typing

open Collections List Runs Std ExtTreeMap

-- A run of typings_maintain between its two lock sections.
structure Maintain where
  currentTimestamp : Nat
  removable : List String
deriving DecidableEq

structure Room where
  typing : BTreeMap String Nat
  maintaining : List Maintain

inductive Act where
  | typingAdd (user : String) (timeout : Nat)
  | collect (currentTimestamp : Nat)
  | remove (run : Maintain)

def step (room : Room) : Act → Option Room
  | .typingAdd user timeout => some { room with typing := room.typing.insert user timeout }
  | .collect currentTimestamp =>
    let removable := (room.typing.toList.filter fun row => row.2 < currentTimestamp).map Prod.fst
    some { room with maintaining := if removable.isEmpty then room.maintaining else ⟨currentTimestamp, removable⟩ :: room.maintaining }
  | .remove run =>
    if run ∈ room.maintaining then some ⟨eraseAll room.typing run.removable, room.maintaining.erase run⟩ else none

-- No user a run has collected is renewed before it removes them, unless to a time that has passed as well.
def Unrenewed (room : Room) : Act → Prop
  | .typingAdd user timeout => ∀ run ∈ room.maintaining, user ∈ run.removable → timeout < run.currentTimestamp
  | _ => True

def Expired (room : Room) : Prop := ∀ run ∈ room.maintaining, ∀ user ∈ run.removable, ∀ timeout,
    room.typing[user]? = some timeout → timeout < run.currentTimestamp

theorem step_expired (room : Room) (act : Act) (next : Room) (expired : Expired room) (unrenewed : Unrenewed room act)
    (stepped : step room act = some next) : Expired next := by
  intro run member user collected timeout stored
  cases act with
  | typingAdd added renewed =>
    cases stepped
    by_cases same : user = added
    · subst same
      cases getElem?_insert_self.symm.trans stored
      exact unrenewed run member collected
    · exact expired run member user collected timeout ((insert_elsewhere same).symm.trans stored)
  | collect now =>
    cases stepped
    split at member
    case isTrue => exact expired run member user collected timeout stored
    case isFalse =>
      rcases mem_cons.mp member with rfl | earlier
      · obtain ⟨row, listed, rfl⟩ := mem_map.mp collected
        obtain ⟨held, old⟩ := mem_filter.mp listed
        cases (mem_toList_iff_getElem?_eq_some.mp held).symm.trans stored
        exact of_decide_eq_true old
      · exact expired run earlier user collected timeout stored
  | remove ended =>
    obtain ⟨_, same⟩ := Option.ite_none_right_eq_some.mp stepped
    cases same
    rw [erase_all_lookup] at stored
    split at stored
    case isTrue => cases stored
    case isFalse => exact expired run (mem_of_mem_erase member) user collected timeout stored

theorem typing_cut_expired {typing : BTreeMap String Nat} {acts : List Act} {room next : Room} {run : Maintain}
    {user : String} {timeout : Nat} (unrenewed : AllMeet step Unrenewed ⟨typing, []⟩ acts)
    (ran : runs step ⟨typing, []⟩ acts = some room) (stepped : step room (.remove run) = some next) (stored :
    room.typing[user]? = some timeout) (removed : next.typing[user]? = none) : timeout < run.currentTimestamp := by
  have expired : Expired room :=
    runs_meeting_invariant step_expired (fun _ member => absurd member not_mem_nil) unrenewed ran
  obtain ⟨running, same⟩ := Option.ite_none_right_eq_some.mp stepped
  cases same
  rw [erase_all_lookup] at removed
  split at removed
  case isTrue collected => exact expired run running user collected timeout stored
  case isFalse => cases removed.symm.trans stored

def aliceCollected : List Act := [.typingAdd "@alice" 10, .collect 20]

theorem expired_alice_cut : 10 < (Maintain.mk 20 ["@alice"]).currentTimestamp :=
  @typing_cut_expired ∅ aliceCollected _ _ _ "@alice" _ ⟨fun _ member => absurd member not_mem_nil, fun _ _ =>
    ⟨trivial, fun _ _ => trivial⟩⟩ rfl rfl rfl rfl

-- Renewed to 50 while a run that took its timestamp at 20 waits for the write lock, the user is removed all the same.
theorem renewed_alice_cut : ∃ room next, runs step ⟨∅, []⟩ (aliceCollected ++ [.typingAdd "@alice" 50]) = some room ∧
    step room (.remove ⟨20, ["@alice"]⟩) = some next ∧ room.typing["@alice"]? = some 50 ∧
    next.typing["@alice"]? = none := ⟨_, _, rfl, rfl, rfl, rfl⟩

end GaussMatrix.Rooms.Typing

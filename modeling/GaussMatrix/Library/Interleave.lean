import GaussMatrix.Library.Runs

namespace GaussMatrix.Interleave

open List Option Runs

structure System (Shared Call : Type) where
  shared : Shared
  calls : List Call

-- A call is made, or one of the calls does its next operation. The input is what the operation reads outside the shared
-- state.
inductive Act (Request Input : Type) where
  | call (request : Request)
  | advance (id : Nat) (input : Input)

variable {Shared Request Call Input : Type}

def step (opens : Request → Option Call) (advance : Input → Shared → Call → Option (Shared × Call))
    (system : System Shared Call) : Act Request Input → Option (System Shared Call)
  | .call request => (opens request).map fun opened => { system with calls := system.calls ++ [opened] }
  | .advance id input =>
    (system.calls[id]?).bind fun call => (advance input system.shared call).map fun moved =>
    ⟨moved.1, system.calls.set id moved.2⟩

def Meets (fits : Shared → Call → Prop) (clear : Shared → Call → Call → Prop) (system : System Shared Call) :
    Act Request Input → Prop
  | .call _ => True
  | .advance id _ => ∀ call ∈ system.calls[id]?, fits system.shared call ∧ ∀ other ∈ system.calls.eraseIdx id, clear system.shared call other

instance (fits : Shared → Call → Prop) (clear : Shared → Call → Call → Prop) [∀ shared, DecidablePred (fits shared)]
    [∀ shared call, DecidablePred (clear shared call)] (system : System Shared Call) (act : Act Request Input) :
    Decidable (Meets fits clear system act) :=
  match act with
  | .call _ => isTrue trivial
  | .advance id _ =>
    inferInstanceAs (Decidable (∀ call ∈ system.calls[id]?, fits system.shared call ∧
      ∀ other ∈ system.calls.eraseIdx id, clear system.shared call other))

variable {opens : Request → Option Call} {advance : Input → Shared → Call → Option (Shared × Call)}
  {system next : System Shared Call} {request : Request}

theorem step_call (stepped : step opens advance system (.call request) = some next) :
    ∃ opened, opens request = some opened ∧ next = { system with calls := system.calls ++ [opened] } := by
  obtain ⟨opened, fresh, rfl⟩ := map_eq_some_iff.mp stepped
  exact ⟨opened, fresh, rfl⟩

variable {id : Nat} {input : Input}

theorem step_advance (stepped : step opens advance system (.advance id input) = some next) :
    ∃ call shared moved, system.calls[id]? = some call ∧ advance input system.shared call = some (shared, moved) ∧
    next = ⟨shared, system.calls.set id moved⟩ := by
  obtain ⟨call, held, mapped⟩ := bind_eq_some_iff.mp stepped
  obtain ⟨⟨shared, moved⟩, advanced, rfl⟩ := map_eq_some_iff.mp mapped
  exact ⟨call, shared, moved, held, advanced, rfl⟩

variable {calls : List Call} {found : Call}

theorem set_moved {other : Nat} {moved : Call} (held : (calls.set id moved)[other]? = some found) :
    (other = id ∧ found = moved) ∨ (other ≠ id ∧ calls[other]? = some found) := by
  rw [getElem?_set] at held
  split at held
  case isTrue same =>
    split at held
    case isTrue => exact .inl ⟨same.symm, (some.inj held).symm⟩
    case isFalse => cases held
  case isFalse different => exact .inr ⟨fun same => different same.symm, held⟩

variable {shared : Shared} {opened : Call} {act : Act Request Input}

section

variable {invariant : Shared → Prop} {own : Shared → Call → Prop} {apart : Call → Call → Prop}
  {fits : Shared → Call → Prop} {clear : Shared → Call → Call → Prop}

structure Proper (invariant : Shared → Prop) (own : Shared → Call → Prop) (apart : Call → Call → Prop)
    (system : System Shared Call) : Prop where
  sound : invariant system.shared
  owned : ∀ (id : Nat) call, system.calls[id]? = some call → own system.shared call
  separate : ∀ (id other : Nat) call another, id ≠ other → system.calls[id]? = some call →
    system.calls[other]? = some another → apart call another

structure Noninterfering (opens : Request → Option Call) (advance : Input → Shared → Call → Option (Shared × Call))
    (invariant : Shared → Prop) (own : Shared → Call → Prop) (apart : Call → Call → Prop) (fits : Shared → Call → Prop)
    (clear : Shared → Call → Call → Prop) : Prop where
  symm : ∀ call other, apart call other → apart other call
  opened : ∀ shared request call, opens request = some call → own shared call ∧ ∀ other, apart call other
  moves : ∀ input shared call after moved, advance input shared call = some (after, moved) → invariant shared →
    own shared call → fits shared call → invariant after ∧ own after moved
  others : ∀ input shared call after moved other, advance input shared call = some (after, moved) → invariant shared →
    own shared call → fits shared call →
    own shared other → apart call other → clear shared call other → own after other ∧ apart moved other

theorem start_proper (sound : invariant shared) : Proper invariant own apart (⟨shared, []⟩ : System Shared Call) where
  sound := sound
  owned := fun id call held => by simp at held
  separate := fun id other call another different held => by simp at held

theorem appended_call (held : (calls ++ [opened])[id]? = some found) :
    (id = calls.length ∧ found = opened) ∨ calls[id]? = some found := by
  rw [getElem?_append] at held
  split at held
  case isTrue => exact .inr held
  case isFalse beyond =>
    rw [getElem?_singleton] at held
    split at held
    case isTrue => exact .inl ⟨by omega, (some.inj held).symm⟩
    case isFalse => cases held

variable (rule : Noninterfering opens advance invariant own apart fits clear)

include rule

theorem call_proper (proper : Proper invariant own apart system)
    (fresh : opens request = some opened) :
    Proper invariant own apart { system with calls := system.calls ++ [opened] } where
  sound := proper.sound
  owned := fun id call held => by
    rcases appended_call held with ⟨-, rfl⟩ | before
    · exact (rule.opened _ _ _ fresh).1
    · exact proper.owned id call before
  separate := fun id other call another different held heldOther => by
    rcases appended_call held with ⟨last, rfl⟩ | before
    · exact (rule.opened system.shared _ _ fresh).2 another
    · rcases appended_call heldOther with ⟨-, rfl⟩ | beforeOther
      · exact rule.symm _ _ ((rule.opened system.shared _ _ fresh).2 call)
      · exact proper.separate id other call another different before beforeOther

theorem advance_proper (proper : Proper invariant own apart system)
    {call moved : Call} (held : system.calls[id]? = some call)
    (advanced : advance input system.shared call = some (shared, moved)) (met : Meets fits clear system
    (.advance id input : Act Request Input)) : Proper invariant own apart ⟨shared, system.calls.set id moved⟩ := by
  obtain ⟨fitting, cleared⟩ := met call held
  have sound := proper.sound
  have owned := proper.owned id call held
  have after := rule.moves input system.shared call shared moved advanced sound owned fitting
  have others : ∀ (other : Nat) another, other ≠ id → system.calls[other]? = some another → own shared another ∧
    apart moved another := by
    intro other another different heldOther
    refine rule.others input system.shared call shared moved another advanced sound owned fitting
      (proper.owned other another heldOther) ?_ (cleared another ?_)
    · exact proper.separate id other call another (fun same => different same.symm) held heldOther
    · exact mem_eraseIdx_iff_getElem?.mpr ⟨other, different, heldOther⟩
  refine ⟨after.1, fun other another heldOther => ?_, fun first second one two different heldFirst heldSecond => ?_⟩
  · rcases set_moved heldOther with ⟨-, rfl⟩ | ⟨different, before⟩
    · exact after.2
    · exact (others other another different before).1
  · rcases set_moved heldFirst with ⟨rfl, rfl⟩ | ⟨firstDifferent, beforeFirst⟩
    · rcases set_moved heldSecond with ⟨same, -⟩ | ⟨secondDifferent, beforeSecond⟩
      · exact absurd same.symm different
      · exact (others second two secondDifferent beforeSecond).2
    · rcases set_moved heldSecond with ⟨rfl, rfl⟩ | ⟨-, beforeSecond⟩
      · exact rule.symm _ _ (others first one firstDifferent beforeFirst).2
      · exact proper.separate first second one two different beforeFirst beforeSecond

theorem step_proper (proper : Proper invariant own apart system)
    (met : Meets fits clear system act) (stepped : step opens advance system act = some next) :
    Proper invariant own apart next := by
  cases act with
  | call request =>
    obtain ⟨opened, fresh, rfl⟩ := step_call stepped
    exact call_proper rule proper fresh
  | advance id input =>
    obtain ⟨call, shared, moved, held, advanced, rfl⟩ := step_advance stepped
    exact advance_proper rule proper held advanced met

theorem runs_proper (sound : invariant shared) {acts : List (Act Request Input)}
    (met : AllMeet (step opens advance) (Meets fits clear) ⟨shared, []⟩ acts)
    (ran : runs (step opens advance) ⟨shared, []⟩ acts = some next) : Proper invariant own apart next :=
  runs_meeting_invariant (fun _ _ _ => step_proper rule) (start_proper sound) met ran

end

variable {Item : Type} {live held : Shared → Item → Prop} {carries : Call → Item → Prop} {fits : Shared → Call → Prop}
  {clear : Shared → Call → Call → Prop}

def Covered (live held : Shared → Item → Prop) (carries : Call → Item → Prop) (system : System Shared Call) : Prop :=
  ∀ item, live system.shared item → held system.shared item ∨ ∃ call ∈ system.calls, carries call item

def TakesOver (advance : Input → Shared → Call → Option (Shared × Call)) (live held : Shared → Item → Prop)
    (carries : Call → Item → Prop) (fits : Shared → Call → Prop) : Prop :=
  ∀ input shared call after moved, advance input shared call = some (after, moved) → fits shared call →
    ∀ item, live after item →
    held after item ∨ carries moved item ∨ (live shared item ∧ ¬ held shared item ∧ ¬ carries call item)

theorem step_covered (rule : TakesOver advance live held carries fits) (covered : Covered live held carries system)
    (met : Meets fits clear system act) (stepped : step opens advance system act = some next) :
    Covered live held carries next := by
  intro item present
  cases act with
  | call request =>
    obtain ⟨opened, -, rfl⟩ := step_call stepped
    rcases covered item present with kept | ⟨call, member, carried⟩
    · exact .inl kept
    · exact .inr ⟨call, mem_append_left _ member, carried⟩
  | advance id input =>
    obtain ⟨call, shared, moved, heldCall, advanced, rfl⟩ := step_advance stepped
    have inside : id < system.calls.length := (List.getElem?_eq_some_iff.mp heldCall).1
    rcases rule input system.shared call shared moved advanced
      (met call heldCall).1 item present with kept | taken | ⟨before, notHeld, notOwn⟩
    · exact .inl kept
    · exact .inr ⟨moved, mem_set inside moved, taken⟩
    · rcases covered item before with kept | ⟨other, member, carried⟩
      · exact absurd kept notHeld
      · obtain ⟨at', heldOther⟩ := mem_iff_getElem?.mp member
        have different : id ≠ at' := by
          rintro rfl
          rw [heldCall] at heldOther
          cases heldOther
          exact notOwn carried
        refine .inr ⟨other, mem_iff_getElem?.mpr ⟨at', ?_⟩, carried⟩
        rw [getElem?_set_ne different]
        exact heldOther

end GaussMatrix.Interleave

import Mathlib

namespace GaussMatrix.Walk

variable {S A : Type} (gate : S → A → Bool) (act : S → A → S)

def walkStep (state : S) (item : A) : S := if gate state item then act state item else state

def walk (items : List A) (base : S) : S := items.foldl (walkStep gate act) base

def Offered (items : List A) (base state : S) (item : A) : Prop :=
  ∃ before after, items = before ++ item :: after ∧ state = walk gate act before base

def Accepted (items : List A) (base state : S) (item : A) : Prop :=
  Offered gate act items base state item ∧ gate state item = true

include gate act

section

variable (head : A) (tail : List A) (base state : S) (item : A)

theorem offered_tail (offered : Offered gate act tail (walkStep gate act base head) state item) :
    Offered gate act (head :: tail) base state item := by
  obtain ⟨before, after, split, reached⟩ := offered
  exact ⟨head :: before, after, by rw [split]; rfl, reached⟩

theorem accepted_tail (accepted : Accepted gate act tail (walkStep gate act base head) state item) :
    Accepted gate act (head :: tail) base state item :=
  ⟨offered_tail gate act head tail base state item accepted.1, accepted.2⟩

end

theorem walk_invariant (inv : S → Prop) (items : List A) (base : S) (start : inv base)
    (step : ∀ state item, Accepted gate act items base state item → inv state → inv (act state item)) :
    inv (walk gate act items base) := by
  induction items generalizing base with
  | nil => exact start
  | cons head tail ih =>
    apply ih (walkStep gate act base head)
    · by_cases pass : gate base head = true
      · rw [walkStep, if_pos pass]
        exact step base head ⟨⟨[], tail, rfl, rfl⟩, pass⟩ start
      · rw [walkStep, if_neg pass]
        exact start
    · intro state item accepted
      exact step state item (accepted_tail gate act head tail base state item accepted)

theorem walk_broken {kept : S → Prop} {items : List A} {base : S} (start : kept base)
    (lost : ¬ kept (walk gate act items base)) :
    ∃ state item, Accepted gate act items base state item ∧ kept state ∧ ¬ kept (act state item) := by
  by_contra none
  apply lost
  apply walk_invariant gate act kept items base start
  intro state item accepted holds
  by_contra broken
  exact none ⟨state, item, accepted, holds, broken⟩

end GaussMatrix.Walk

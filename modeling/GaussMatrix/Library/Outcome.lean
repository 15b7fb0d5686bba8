import Mathlib

namespace GaussMatrix.Outcome

variable {Error A B : Type} {items : List A} {first : Except Error A} {change : A → Except Error B}
  {results : List B} {result : B}

theorem bind_ok {next : A → Except Error B} (done : (first >>= next) = .ok result) :
    ∃ value, first = .ok value ∧ next value = .ok result := by
  cases first with
  | error error => cases done
  | ok value => exact ⟨value, rfl, done⟩

theorem map_ok {change : A → B} (done : first.map change = .ok result) :
    ∃ value, first = .ok value ∧ change value = result := by
  cases first with
  | error error => cases done
  | ok value => exact ⟨value, rfl, Except.ok.inj done⟩

theorem ite_ok {refused : Prop} [Decidable refused] {error : Error} {rest : Except Error A} {result : A}
    (done : (if refused then .error error else rest) = .ok result) : ¬ refused ∧ rest = .ok result := by
  split at done
  case isTrue => cases done
  case isFalse passed => exact ⟨passed, done⟩

theorem for_ok {check : A → Except Error Unit} (done : items.forM check = .ok ()) :
    ∀ item ∈ items, check item = .ok () := by
  induction items with
  | nil => exact fun item member => nomatch member
  | cons head tail ih =>
    obtain ⟨_, passed, rest⟩ := bind_ok done
    intro item member
    rcases List.mem_cons.mp member with rfl | later
    · exact passed
    · exact ih rest item later

theorem map_all_ok (done : items.mapM change = .ok results) :
    List.Forall₂ (fun item result => change item = .ok result) items results := by
  induction items generalizing results with
  | nil =>
    cases done
    exact .nil
  | cons head tail ih =>
    rw [List.mapM_cons] at done
    obtain ⟨value, changed, rest⟩ := bind_ok done
    obtain ⟨values, mapped, assembled⟩ := bind_ok rest
    cases assembled
    exact .cons changed (ih mapped)

theorem map_all_member (done : items.mapM change = .ok results) (item : A) (member : item ∈ items) :
    ∃ result ∈ results, change item = .ok result := by
  have each := map_all_ok done
  clear done
  induction each with
  | nil => exact absurd member List.not_mem_nil
  | cons changed _ ih =>
    rcases List.mem_cons.mp member with rfl | later
    · exact ⟨_, List.mem_cons_self, changed⟩
    · obtain ⟨result, listed, found⟩ := ih later
      exact ⟨result, List.mem_cons_of_mem _ listed, found⟩

theorem map_all_done {value : A → B} (done : ∀ item ∈ items, change item = .ok (value item)) :
    items.mapM change = .ok (items.map value) := by
  induction items with
  | nil => rfl
  | cons head tail ih =>
    rw [List.mapM_cons, done head List.mem_cons_self, ih fun item member => done item (List.mem_cons_of_mem head member)]
    rfl

end GaussMatrix.Outcome

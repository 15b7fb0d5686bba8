import Mathlib

namespace GaussMatrix.Worklist

open List

variable {A : Type}

def takeAt (choice : Nat) : List A → Option (A × List A)
  | [] => none
  | head :: tail =>
    let place := choice % (tail.length + 1)
    some ((head :: tail).getD place head, (head :: tail).eraseIdx place)

variable {choice : Nat} {todo : List A} {item : A}

theorem take_at_perm {rest : List A} (taken : takeAt choice todo = some (item, rest)) : todo.Perm (item :: rest) := by
  cases todo with
  | nil => cases taken
  | cons head tail =>
    have within : choice % (tail.length + 1) < (head :: tail).length := Nat.mod_lt _ (Nat.succ_pos _)
    cases taken
    rw [getD_eq_getElem _ _ within]
    exact (getElem_cons_eraseIdx_perm within).symm

theorem take_at_none (done : takeAt choice todo = none) : todo = [] := by
  cases todo with
  | nil => rfl
  | cons head tail => cases done

theorem exists_weight {below : A → A → Prop} (founded : WellFounded below) {children : A → List A}
    (descends : ∀ a, ∀ b ∈ children a, below b a) :
    ∃ weight : A → Nat, ∀ a, ((children a).map weight).sum < weight a := by
  let weight : A → Nat := founded.fix fun a rest =>
    ((children a).attach.map fun b => rest b.1 (descends a b.1 b.2)).sum + 1
  refine ⟨weight, fun a => ?_⟩
  have unfolded : weight a = ((children a).attach.map fun b => weight b.1).sum + 1 := founded.fix_eq _ a
  have listed : ((children a).attach.map fun b => weight b.1) = (children a).map weight := by simp
  rw [unfolded, listed]
  exact Nat.lt_succ_self _

variable [DecidableEq A]

def pushNew (items : List A) (item : A) : List A := if items.contains item then items else items ++ [item]

theorem push_new_member {items : List A} {other : A} : other ∈ pushNew items item ↔ other ∈ items ∨ other = item := by
  rw [pushNew]
  split
  case isTrue held => exact ⟨.inl, fun either => either.elim id fun same => same ▸ contains_iff_mem.mp held⟩
  case isFalse => rw [mem_append, mem_singleton]

variable {items : List A}

theorem push_new_kept : items ⊆ pushNew items item := fun _ held => push_new_member.mpr (.inl held)

theorem push_new_pushed : item ∈ pushNew items item := push_new_member.mpr (.inr rfl)

theorem push_all_member {added : List A} {other : A} :
    other ∈ added.foldl pushNew items ↔ other ∈ items ∨ other ∈ added := by
  induction added generalizing items with
  | nil => simp
  | cons head tail ih => rw [foldl_cons, ih, push_new_member, mem_cons, or_assoc]

theorem push_all_held {added : List A} (held : ∀ item ∈ added, item ∈ items) : added.foldl pushNew items = items := by
  induction added with
  | nil => rfl
  | cons head tail ih =>
    have first : pushNew items head = items := if_pos (contains_iff_mem.mpr (held head mem_cons_self))
    rw [foldl_cons, first]
    exact ih fun item member => held item (mem_cons_of_mem head member)

end GaussMatrix.Worklist

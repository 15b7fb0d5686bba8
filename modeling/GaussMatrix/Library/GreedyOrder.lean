import GaussMatrix.Library.Chase

namespace GaussMatrix.GreedyOrder

open List

variable {Id : Type} (node : Id → Prop) (needs before : Id → Id → Prop)

def Ready (emitted : List Id) (id : Id) : Prop := node id ∧ id ∉ emitted ∧ ∀ dep, needs id dep → dep ∈ emitted

def Greedy : List Id → List Id → Prop
  | emitted, [] => ∀ id, ¬ Ready node needs emitted id
  | emitted, id :: rest =>
    Ready node needs emitted id ∧ (∀ other, Ready node needs emitted other → other = id ∨ before id other) ∧
    Greedy (id :: emitted) rest

variable {node needs before} {emitted ordered : List Id}

theorem greedy_unique (asymmetric : ∀ id other, before id other → ¬ before other id) {another : List Id}
    (greedy : Greedy node needs before emitted ordered)
    (greedyToo : Greedy node needs before emitted another) : ordered = another := by
  induction ordered generalizing emitted another with
  | nil =>
    cases another with
    | nil => rfl
    | cons id rest => exact absurd greedyToo.1 (greedy id)
  | cons id rest ih =>
    cases another with
    | nil => exact absurd greedy.1 (greedyToo id)
    | cons other others =>
      obtain ⟨ready, first, later⟩ := greedy
      obtain ⟨readyToo, firstToo, laterToo⟩ := greedyToo
      have same : other = id := by
        rcases first other readyToo with same | ahead
        · exact same
        · exact (firstToo id ready).elim Eq.symm fun behind => absurd behind (asymmetric id other ahead)
      subst same
      rw [ih later laterToo]

theorem greedy_congr {nodeToo : Id → Prop} {needsToo beforeToo : Id → Id → Prop}
    (sameNodes : ∀ id, node id ↔ nodeToo id) (sameNeeds : ∀ id dep, node id → (needs id dep ↔ needsToo id dep))
    (weaker : ∀ id other, node id → node other → before id other → beforeToo id other)
    (greedy : Greedy node needs before emitted ordered) : Greedy nodeToo needsToo beforeToo emitted ordered := by
  have ready : ∀ emitted id, Ready nodeToo needsToo emitted id ↔ Ready node needs emitted id := by
    intro emitted id
    rw [Ready, Ready, ← sameNodes id]
    refine and_congr_right fun inside => and_congr_right fun _ => forall_congr' fun dep => ?_
    rw [sameNeeds id dep inside]
  induction ordered generalizing emitted with
  | nil => exact fun id waits => greedy id ((ready emitted id).mp waits)
  | cons id rest ih =>
    obtain ⟨own, first, later⟩ := greedy
    refine ⟨(ready emitted id).mpr own, fun other waits => ?_, ih later⟩
    have waitsToo := (ready emitted other).mp waits
    exact (first other waitsToo).imp_right (weaker id other own.1 waitsToo.1)

theorem greedy_turn (greedy : Greedy node needs before emitted ordered) {earlier later : List Id} {id : Id}
    (split : ordered = earlier ++ id :: later) : Ready node needs (earlier.reverse ++ emitted) id ∧
    ∀ other, Ready node needs (earlier.reverse ++ emitted) other → other = id ∨ before id other := by
  induction earlier generalizing emitted ordered with
  | nil =>
    subst split
    exact ⟨greedy.1, greedy.2.1⟩
  | cons first rest ih =>
    subst split
    rw [reverse_cons, append_assoc]
    exact ih greedy.2.2 rfl

theorem greedy_distinct (greedy : Greedy node needs before emitted ordered) :
    ordered.Nodup ∧ ∀ id ∈ ordered, id ∉ emitted := by
  induction ordered generalizing emitted with
  | nil => exact ⟨nodup_nil, fun id member => absurd member not_mem_nil⟩
  | cons id rest ih =>
    obtain ⟨ready, _, later⟩ := greedy
    obtain ⟨distinct, fresh⟩ := ih later
    refine ⟨nodup_cons.mpr ⟨fun member => fresh id member mem_cons_self, distinct⟩, fun other member => ?_⟩
    rcases mem_cons.mp member with rfl | inRest
    · exact ready.2.1
    · exact fun old => fresh other inRest (mem_cons_of_mem id old)

def Need (node : Id → Prop) (needs : Id → Id → Prop) (dep id : Id) : Prop := node id ∧ needs id dep

theorem greedy_founded (greedy : Greedy node needs before emitted ordered)
    (founded : ∀ id ∈ emitted, Acc (Need node needs) id) : ∀ id ∈ ordered, node id ∧ Acc (Need node needs) id := by
  induction ordered generalizing emitted with
  | nil => exact fun id member => absurd member not_mem_nil
  | cons id rest ih =>
    obtain ⟨⟨inside, _, met⟩, _, later⟩ := greedy
    have own : Acc (Need node needs) id := ⟨id, fun dep need => founded dep (met dep need.2)⟩
    intro other member
    rcases mem_cons.mp member with rfl | inRest
    · exact ⟨inside, own⟩
    · exact ih later (forall_mem_cons.mpr ⟨own, founded⟩) other inRest

theorem greedy_exhausts (closed : ∀ id dep, node id → needs id dep → node dep)
    (greedy : Greedy node needs before emitted ordered) {id : Id} (inside : node id)
    (founded : Acc (Need node needs) id) : id ∈ ordered ∨ id ∈ emitted := by
  induction ordered generalizing emitted with
  | nil =>
    refine .inr ?_
    induction founded with
    | intro id _ ih =>
      by_contra waiting
      exact greedy id ⟨inside, waiting, fun dep need => ih dep ⟨inside, need⟩ (closed id dep inside need)⟩
  | cons first rest ih =>
    rcases ih greedy.2.2 with inRest | done
    · exact .inl (mem_cons_of_mem first inRest)
    · rcases mem_cons.mp done with rfl | old
      · exact .inl mem_cons_self
      · exact .inr old

theorem greedy_member (closed : ∀ id dep, node id → needs id dep → node dep)
    (greedy : Greedy node needs before [] ordered) (id : Id) : id ∈ ordered ↔ node id ∧ Acc (Need node needs) id := by
  refine ⟨greedy_founded greedy (fun other member => absurd member not_mem_nil) id, fun rests => ?_⟩
  exact (greedy_exhausts closed greedy rests.1 rests.2).resolve_right not_mem_nil

end GaussMatrix.GreedyOrder

import GaussMatrix.Library.Worklist

namespace GaussMatrix.Flood

open List Relation Worklist

variable {A : Type} {seen : List A} {a : A}

section

variable (next : A → List A)

def Edge (seen : List A) (a b : A) : Prop := b ∈ next a ∧ b ∉ seen

def Spreads (seen : List A) : A → A → Prop := TransGen (Edge next seen)

variable {next}

theorem spreads_mono {fewer : List A} (within : fewer ⊆ seen) {b : A} (spread : Spreads next seen a b) :
    Spreads next fewer a b :=
  TransGen.mono (fun _ _ edge => ⟨edge.1, fun known => edge.2 (within known)⟩) a b spread

theorem spreads_agree {other : A → List A} (agree : ∀ y, y = a ∨ Spreads next seen a y → other y = next y) (b : A) :
    Spreads other seen a b ↔ Spreads next seen a b := by
  constructor
  · intro spread
    induction spread with
    | single edge => exact TransGen.single ⟨agree a (.inl rfl) ▸ edge.1, edge.2⟩
    | tail _ edge ih => exact TransGen.tail ih ⟨agree _ (.inr ih) ▸ edge.1, edge.2⟩
  · intro spread
    induction spread with
    | single edge => exact TransGen.single ⟨(agree a (.inl rfl)).symm ▸ edge.1, edge.2⟩
    | tail path edge ih => exact TransGen.tail ih ⟨(agree _ (.inr path)).symm ▸ edge.1, edge.2⟩

theorem spreads_nowhere {b : A} (empty : next a = []) : ¬ Spreads next seen a b := by
  intro spread
  obtain ⟨c, edge, _⟩ := TransGen.head'_iff.mp spread
  have named := edge.1
  rw [empty] at named
  cases named

end

variable [DecidableEq A]

def fresh (seen : List A) : List A → List A
  | [] => []
  | item :: rest => if item ∈ seen then fresh seen rest else item :: fresh (item :: seen) rest

variable {items : List A} {item : A}

theorem fresh_member : item ∈ fresh seen items ↔ item ∈ items ∧ item ∉ seen := by
  induction items generalizing seen with
  | nil => simp [fresh]
  | cons head tail ih =>
    rw [fresh]
    by_cases known : head ∈ seen
    · rw [if_pos known, ih, mem_cons]
      constructor
      · exact fun both => ⟨.inr both.1, both.2⟩
      · exact fun both => ⟨both.1.resolve_left fun same => both.2 (same ▸ known), both.2⟩
    · rw [if_neg known, mem_cons, ih, mem_cons, mem_cons, not_or]
      by_cases same : item = head
      · subst same
        simp [known]
      · simp [same]

theorem fresh_nodup (seen items : List A) : (fresh seen items).Nodup := by
  induction items generalizing seen with
  | nil => exact nodup_nil
  | cons head tail ih =>
    rw [fresh]
    split
    case isTrue => exact ih seen
    case isFalse =>
      refine nodup_cons.mpr ⟨fun again => ?_, ih (head :: seen)⟩
      exact (fresh_member.mp again).2 mem_cons_self

def flood (next : A → List A) (choose : Nat → Nat) : Nat → List A → List A → Option (List A)
  | _, [], _ => some []
  | 0, _ :: _, _ => none
  | fuel + 1, head :: tail, seen =>
    (takeAt (choose fuel) (head :: tail)).bind fun taken =>
      let new := fresh seen (next taken.1)
      (flood next choose fuel (taken.2 ++ new) (new ++ seen)).map (new ++ ·)

variable {next : A → List A} {rest : List A}

theorem spreads_expand {start x : A} (pending : start = item ∨ start ∈ rest) (spread : Spreads next seen start x) :
    x ∈ fresh seen (next item) ∨ ∃ a ∈ rest ++ fresh seen (next item),
    Spreads next (fresh seen (next item) ++ seen) a x := by
  have extend : ∀ {a y z}, a ∈ rest ++ fresh seen (next item) →
    ReflTransGen (Edge next (fresh seen (next item) ++ seen)) a y → Edge next seen y z →
      z ∈ fresh seen (next item) ∨ ∃ a ∈ rest ++ fresh seen (next item), Spreads next (fresh seen (next item) ++ seen) a z := by
    intro a y z member path edge
    by_cases new : z ∈ fresh seen (next item)
    · exact .inl new
    · refine .inr ⟨a, member, TransGen.tail' path ⟨edge.1, fun known => ?_⟩⟩
      exact (mem_append.mp known).elim new edge.2
  induction spread with
  | single edge =>
    rcases pending with rfl | member
    · exact .inl (fresh_member.mpr edge)
    · exact extend (mem_append_left _ member) ReflTransGen.refl edge
  | tail _ edge ih =>
    rcases ih with new | ⟨a, member, path⟩
    · exact extend (mem_append_right _ new) ReflTransGen.refl edge
    · exact extend member path.to_reflTransGen edge

theorem expand_spreads {x : A} (out : x ∈ fresh seen (next item) ∨
    ∃ a ∈ rest ++ fresh seen (next item), Spreads next (fresh seen (next item) ++ seen) a x) :
    ∃ a ∈ item :: rest, Spreads next seen a x := by
  rcases out with new | ⟨a, member, path⟩
  · exact ⟨item, mem_cons_self, TransGen.single (fresh_member.mp new)⟩
  · have shorter := spreads_mono (subset_append_right _ _) path
    rcases mem_append.mp member with pending | new
    · exact ⟨a, mem_cons_of_mem _ pending, shorter⟩
    · exact ⟨item, mem_cons_self, TransGen.head (fresh_member.mp new) shorter⟩

theorem flood_lists {choose : Nat → Nat} {fuel : Nat} {todo out : List A}
    (ended : flood next choose fuel todo seen = some out) :
    out.Nodup ∧ ∀ x, x ∈ out ↔ ∃ a ∈ todo, Spreads next seen a x := by
  induction fuel generalizing todo seen out with
  | zero =>
    cases todo with
    | nil =>
      cases ended
      simp
    | cons head tail => cases ended
  | succ fuel ih =>
    cases todo with
    | nil =>
      cases ended
      simp
    | cons head tail =>
      obtain ⟨taken, took, ended⟩ := Option.bind_eq_some_iff.mp ended
      obtain ⟨later, ran, rfl⟩ := Option.map_eq_some_iff.mp ended
      obtain ⟨distinct, member⟩ := ih ran
      have perm := take_at_perm took
      refine ⟨nodup_append.mpr ⟨fresh_nodup _ _, distinct, fun x new y old same => ?_⟩, fun x => ?_⟩
      · subst same
        obtain ⟨_, _, spread⟩ := (member x).mp old
        obtain ⟨_, _, edge⟩ := TransGen.tail'_iff.mp spread
        exact edge.2 (mem_append_left _ new)
      · rw [mem_append, member]
        constructor
        · intro output
          obtain ⟨a, isPending, spread⟩ := expand_spreads output
          exact ⟨a, perm.mem_iff.mpr isPending, spread⟩
        · intro reached
          obtain ⟨a, isPending, spread⟩ := reached
          exact spreads_expand (mem_cons.mp (perm.mem_iff.mp isPending)) spread

def unseen (whole : Finset A) (seen : List A) : Nat := (whole.filter (· ∉ seen)).card

theorem unseen_fresh {whole : Finset A} (seen : List A) (within : ∀ item ∈ items, item ∈ whole) :
    unseen whole (fresh seen items ++ seen) + (fresh seen items).length = unseen whole seen := by
  have listed : (fresh seen items).toFinset ⊆ whole.filter (· ∉ seen) := by
    intro item member
    have new := fresh_member.mp (mem_toFinset.mp member)
    exact Finset.mem_filter.mpr ⟨within item new.1, new.2⟩
  have left : whole.filter (· ∉ fresh seen items ++ seen) = whole.filter (· ∉ seen) \ (fresh seen items).toFinset := by
    ext item
    simp only [Finset.mem_filter, Finset.mem_sdiff, mem_append, mem_toFinset, not_or]
    tauto
  have counted := Finset.card_sdiff_add_card_eq_card listed
  rw [toFinset_card_of_nodup (fresh_nodup seen items)] at counted
  rw [unseen, unseen, left]
  exact counted

theorem flood_ends (choose : Nat → Nat) (whole : Finset A) (within : ∀ a, ∀ b ∈ next a, b ∈ whole) (fuel : Nat)
    (todo seen : List A)
    (enough : todo.length + unseen whole seen ≤ fuel) : ∃ out, flood next choose fuel todo seen = some out := by
  induction fuel generalizing todo seen with
  | zero =>
    cases todo with
    | nil => exact ⟨[], rfl⟩
    | cons head tail => simp at enough
  | succ fuel ih =>
    cases todo with
    | nil => exact ⟨[], rfl⟩
    | cons head tail =>
      rw [flood]
      cases took : takeAt (choose fuel) (head :: tail) with
      | none => cases take_at_none took
      | some taken =>
        have counted : (head :: tail).length = taken.2.length + 1 := (take_at_perm took).length_eq
        have used := unseen_fresh seen (within taken.1)
        obtain ⟨out, ran⟩ := ih (taken.2 ++ fresh seen (next taken.1)) (fresh seen (next taken.1) ++ seen) (by rw [length_append]; omega)
        exact ⟨fresh seen (next taken.1) ++ out, by simp [ran]⟩

end GaussMatrix.Flood

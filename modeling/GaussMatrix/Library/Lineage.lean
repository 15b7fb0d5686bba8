import GaussMatrix.Library.Chase

namespace GaussMatrix.Lineage

open Chase List Option Relation

variable {A B : Type} {a m : A}

section

variable (next : A → Option A)

def Reaches : A → A → Prop := ReflTransGen fun a b => next a = some b

def OnLine (top : Option A) (m : A) : Prop := ∃ start, top = some start ∧ Reaches next start m

def LineAncestor (top : Option A) (a m : A) : Prop := OnLine next top m ∧ Reaches next a m

theorem reaches_cons : Reaches next a m ↔ m = a ∨ ∃ b, next a = some b ∧ Reaches next b m := by
  rw [Reaches, ReflTransGen.cases_head_iff, eq_comm]

theorem reaches_linear {n : A} (first : Reaches next a m) (second : Reaches next a n) :
    Reaches next m n ∨ Reaches next n m := by
  refine ReflTransGen.total_of_right_unique ?_ first second
  intro b c d link other
  exact some.inj (link.symm.trans other)

theorem chase_line (fuel : Nat) (top : Option A) (trail : List A) (ended : chase next fuel top = some trail) (m : A) :
    m ∈ trail ↔ OnLine next top m := by
  induction fuel generalizing top trail with
  | zero =>
    cases top with
    | none => cases ended; simp [OnLine]
    | some a => cases ended
  | succ fuel ih =>
    cases top with
    | none => cases ended; simp [OnLine]
    | some a =>
      obtain ⟨rest, tail, same⟩ := map_eq_some_iff.mp ended
      subst same
      rw [mem_cons, ih (next a) rest tail]
      simp only [OnLine, Option.some.injEq, exists_eq_left']
      rw [reaches_cons]

theorem chase_descends (fuel : Nat) (top : Option A) (trail : List A) (ended : chase next fuel top = some trail) :
    trail.Pairwise (TransGen fun a b => next a = some b) := by
  induction fuel generalizing top trail with
  | zero =>
    cases top with
    | none => cases ended; exact .nil
    | some a => cases ended
  | succ fuel ih =>
    cases top with
    | none => cases ended; exact .nil
    | some a =>
      obtain ⟨rest, tail, same⟩ := map_eq_some_iff.mp ended
      subst same
      refine .cons (fun m member => ?_) (ih (next a) rest tail)
      obtain ⟨b, link, path⟩ := (chase_line next fuel (next a) rest tail m).mp member
      exact TransGen.head' link path

variable (founded : WellFounded fun b a => next a = some b)

include founded

theorem line_acyclic : ¬ TransGen (fun a b => next a = some b) a a := by
  intro cycle
  have back : TransGen (fun b a => next a = some b) a a := transGen_swap.mp cycle
  exact founded.transGen.irrefl.irrefl a back

theorem chase_nodup {fuel : Nat} {top : Option A} {trail : List A} (ended : chase next fuel top = some trail) :
    trail.Nodup := by
  refine (chase_descends next fuel top trail ended).imp fun {a b} path same => ?_
  exact line_acyclic next founded (same ▸ path)

variable [DecidableEq A]

theorem position_le_iff {fuel : Nat} {top : Option A} {trail : List A} (ended : chase next fuel top = some trail)
    {n : A} (left : m ∈ trail) (right : n ∈ trail) :
    trail.reverse.idxOf m ≤ trail.reverse.idxOf n ↔ Reaches next n m := by
  have ascends : trail.reverse.Pairwise fun a b => TransGen (fun a b => next a = some b) b a :=
    pairwise_reverse.mpr (chase_descends next fuel top trail ended)
  have leftBound := idxOf_lt_length_of_mem (mem_reverse.mpr left)
  have rightBound := idxOf_lt_length_of_mem (mem_reverse.mpr right)
  constructor
  · intro below
    rcases Nat.eq_or_lt_of_le below with same | less
    · rw [(idxOf_inj (mem_reverse.mpr left)).mp same]
      exact .refl
    · have path := pairwise_iff_getElem.mp ascends _ _ leftBound rightBound less
      rw [getElem_idxOf, getElem_idxOf] at path
      exact path.to_reflTransGen
  · intro path
    by_contra above
    have down := pairwise_iff_getElem.mp ascends _ _ rightBound leftBound (by omega)
    rw [getElem_idxOf, getElem_idxOf] at down
    exact line_acyclic next founded (down.trans_left path)

theorem position_zero_iff {fuel : Nat} {top : Option A} {trail : List A} (ended : chase next fuel top = some trail)
    (member : m ∈ trail) : trail.reverse.idxOf m = 0 ↔ next m = none := by
  obtain ⟨start, isTop, down⟩ := (chase_line next fuel top trail ended m).mp member
  constructor
  · intro first
    cases link : next m with
    | none => rfl
    | some b =>
      have below : Reaches next m b := .single link
      have inLine : b ∈ trail := (chase_line next fuel top trail ended b).mpr ⟨start, isTop, down.trans below⟩
      have back := (position_le_iff next founded ended member inLine).mp (by omega)
      have cycle : TransGen (fun a b => next a = some b) m m := .head' link back
      exact absurd cycle (line_acyclic next founded)
  · intro last
    have nonempty : 0 < trail.reverse.length := by
      rw [length_reverse]
      exact length_pos_of_mem member
    have inLine : trail.reverse[0] ∈ trail := mem_reverse.mp (getElem_mem nonempty)
    obtain ⟨_, again, other⟩ := (chase_line next fuel top trail ended _).mp inLine
    cases isTop.symm.trans again
    have up : Reaches next trail.reverse[0] m := by
      rcases reaches_linear next down other with later | earlier
      · rcases (reaches_cons next).mp later with same | further
        · rw [same]
          exact .refl
        · obtain ⟨b, link, _⟩ := further
          rw [last] at link
          cases link
      · exact earlier
    have least := (position_le_iff next founded ended member inLine).mpr up
    rw [(nodup_reverse.mpr (chase_nodup next founded ended)).idxOf_getElem 0 nonempty] at least
    omega

end

def level [DecidableEq A] (next : A → Option A) (trail : List A) (fuel : Nat) (a : A) : Option (Option Nat) :=
  seek next (fun b => (trail.reverse.idxOf? b).map some) none fuel (some a)

theorem seek_map (next : A → Option A) (found : A → Option Nat) (fallback : B) (f : Nat → B) (fuel : Nat)
    (cursor : Option A) : seek next (fun a => (found a).map f) fallback fuel cursor =
    (seek next (fun a => (found a).map some) none fuel cursor).map fun reached => reached.elim fallback f := by
  induction fuel generalizing cursor with
  | zero => cases cursor <;> rfl
  | succ fuel ih =>
    cases cursor with
    | none => rfl
    | some a =>
      cases hit : found a with
      | none => simpa only [seek, hit, map_none] using ih (next a)
      | some position => simp [seek, hit]

theorem level_cases [DecidableEq A] (next : A → Option A) (trail : List A) (fuel : Nat) (a : A) (reached : Option Nat)
    (ended : level next trail fuel a = some reached) : (reached = none ∧ ∀ n ∈ trail, ¬ Reaches next a n) ∨
      ∃ m ∈ trail, reached = some (trail.reverse.idxOf m) ∧ Reaches next a m ∧ ∀ n ∈ trail, Reaches next a n → Reaches next m n := by
  induction fuel generalizing a with
  | zero => cases ended
  | succ fuel ih =>
    by_cases member : a ∈ trail
    · obtain ⟨position, hit⟩ := isSome_iff_exists.mp (isSome_idxOf?.mpr (mem_reverse.mpr member))
      rw [level, seek, hit] at ended
      cases ended
      refine .inr ⟨a, member, ?_, .refl, fun _ _ path => path⟩
      rw [idxOf_eq_getD_idxOf?, hit, getD_some]
    · have miss : trail.reverse.idxOf? a = none := idxOf?_eq_none_iff.mpr fun listed => member (mem_reverse.mp listed)
      have away : ∀ n ∈ trail, Reaches next a n → ∃ b, next a = some b ∧ Reaches next b n := by
        intro n inTrail path
        rcases (reaches_cons next).mp path with same | further
        · exact absurd (same ▸ inTrail) member
        · exact further
      rw [level, seek, miss] at ended
      cases link : next a with
      | none =>
        rw [link] at ended
        cases fuel <;> cases ended <;> refine .inl ⟨rfl, fun n inTrail path => ?_⟩ <;>
        · obtain ⟨b, here, _⟩ := away n inTrail path
          rw [link] at here
          cases here
      | some b =>
        rw [link] at ended
        have step : ∀ n ∈ trail, Reaches next a n → Reaches next b n := by
          intro n inTrail path
          obtain ⟨c, here, rest⟩ := away n inTrail path
          cases link.symm.trans here
          exact rest
        rcases ih b ended with missed | found
        · exact .inl ⟨missed.1, fun n inTrail path => missed.2 n inTrail (step n inTrail path)⟩
        · obtain ⟨m, inTrail, same, path, nearest⟩ := found
          exact .inr ⟨m, inTrail, same, .head link path, fun n other reach => nearest n other (step n other reach)⟩

variable [DecidableEq A] (next : A → Option A) (founded : WellFounded fun b a => next a = some b) (fuel : Nat)
  (top : Option A) (trail : List A) (ended : chase next fuel top = some trail)

include ended

theorem level_none (missed : level next trail fuel a = some none) (m : A) : ¬ LineAncestor next top a m := by
  intro ancestor
  rcases level_cases next trail fuel a none missed with outside | ⟨_, _, impossible, _⟩
  · exact outside.2 m ((chase_line next fuel top trail ended m).mpr ancestor.1) ancestor.2
  · cases impossible

theorem level_some {position : Nat} (hit : level next trail fuel a = some (some position)) :
    ∃ m ∈ trail, position = trail.reverse.idxOf m ∧ ∀ n, LineAncestor next top a n ↔ Reaches next m n := by
  rcases level_cases next trail fuel a (some position) hit with ⟨impossible, _⟩ | ⟨m, inTrail, same, path, nearest⟩
  · cases impossible
  · refine ⟨m, inTrail, some.inj same, fun n => ⟨fun ancestor => ?_, fun down => ?_⟩⟩
    · exact nearest n ((chase_line next fuel top trail ended n).mpr ancestor.1) ancestor.2
    · obtain ⟨start, isTop, reach⟩ := (chase_line next fuel top trail ended m).mp inTrail
      exact ⟨⟨start, isTop, reach.trans down⟩, path.trans down⟩

include founded

theorem level_le_iff {b : A} {first second : Option Nat} (left : level next trail fuel a = some first)
    (right : level next trail fuel b = some second) :
    first.elim 0 (· + 1) ≤ second.elim 0 (· + 1) ↔ ∀ m, LineAncestor next top a m → LineAncestor next top b m := by
  cases first with
  | none => simp [level_none next fuel top trail ended left]
  | some i =>
    obtain ⟨m, inTrail, here, below⟩ := level_some next fuel top trail ended left
    cases second with
    | none =>
      have missing := level_none next fuel top trail ended right m
      simp only [elim_some, elim_none, Nat.le_zero, Nat.add_eq_zero_iff, one_ne_zero, and_false, false_iff]
      exact fun all => missing (all m ((below m).mpr .refl))
    | some j =>
      obtain ⟨n, otherTrail, there, beneath⟩ := level_some next fuel top trail ended right
      simp only [elim_some, Nat.add_le_add_iff_right, here, there, below, beneath]
      rw [position_le_iff next founded ended inTrail otherTrail]
      exact ⟨fun path k => path.trans, fun all => all m .refl⟩

theorem depth_le_iff {b : A} {first second : Option Nat} (left : level next trail fuel a = some first)
    (right : level next trail fuel b = some second) : first.getD 0 ≤ second.getD 0 ↔
    (∀ m, LineAncestor next top a m → LineAncestor next top b m) ∨ ∀ m, LineAncestor next top a m → next m = none := by
  rw [← level_le_iff next founded fuel top trail ended left right]
  cases first with
  | none => simp
  | some i =>
    obtain ⟨m, inTrail, here, below⟩ := level_some next fuel top trail ended left
    have root : (∀ n, LineAncestor next top a n → next n = none) ↔ i = 0 := by
      rw [here, position_zero_iff next founded ended inTrail]
      simp only [below]
      refine ⟨fun all => all m .refl, fun last n down => ?_⟩
      rcases (reaches_cons next).mp down with same | ⟨b, link, _⟩
      · rw [same, last]
      · rw [last] at link
        cases link
    rw [root]
    cases second with
    | none => simp
    | some j =>
      simp only [getD_some, elim_some]
      omega

end GaussMatrix.Lineage

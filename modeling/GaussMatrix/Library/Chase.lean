import Mathlib

namespace GaussMatrix.Chase

open Relation

variable {A B : Type}

-- `while let Some(a) = cursor { trail.push(a); cursor = next(a) }`. Fuel bounds
-- the iterations; none is a loop that has not ended within them.
def chase (next : A → Option A) : Nat → Option A → Option (List A)
  | _, none => some []
  | 0, some _ => none
  | fuel + 1, some a => (chase next fuel (next a)).map (fun trail => a :: trail)

def seek (next : A → Option A) (found : A → Option B) (fallback : B) : Nat → Option A → Option B
  | _, none => some fallback
  | 0, some _ => none
  | fuel + 1, some a =>
    match found a with
    | some b => some b
    | none => seek next found fallback fuel (next a)

variable (next : A → Option A) (edge : A → A → Prop) (run found : A → Option B) (nodes : List A) {fuel : Nat}
  (fallback : B) {trail : List A}

theorem chase_more (fuel more : Nat) (cursor : Option A) (trail : List A) (enough : fuel ≤ more)
    (ended : chase next fuel cursor = some trail) : chase next more cursor = some trail := by
  induction fuel generalizing more cursor trail with
  | zero =>
    cases cursor with
    | none => cases more <;> exact ended
    | some a => cases ended
  | succ fuel ih =>
    cases cursor with
    | none => cases more <;> exact ended
    | some a =>
      cases more with
      | zero => omega
      | succ more =>
        simp only [chase, Option.map_eq_some_iff] at ended ⊢
        obtain ⟨rest, tail, same⟩ := ended
        exact ⟨rest, ih more (next a) rest (by omega) tail, same⟩

theorem seek_more (fuel more : Nat) (cursor : Option A) (b : B) (enough : fuel ≤ more)
    (ended : seek next found fallback fuel cursor = some b) : seek next found fallback more cursor = some b := by
  induction fuel generalizing more cursor with
  | zero =>
    cases cursor with
    | none => cases more <;> exact ended
    | some a => cases ended
  | succ fuel ih =>
    cases cursor with
    | none => cases more <;> exact ended
    | some a =>
      cases more with
      | zero => omega
      | succ more =>
        cases hit : found a with
        | some here => simpa only [seek, hit] using ended
        | none =>
          simp only [seek, hit] at ended ⊢
          exact ih more (next a) (by omega) ended

variable {cursor : Option A}

theorem chase_cases {next : A → Option A} (ended : chase next fuel cursor = some trail) :
    (cursor = none ∧ trail = []) ∨ ∃ a rest less, cursor = some a ∧ trail = a :: rest ∧
    chase next less (next a) = some rest := by
  cases cursor with
  | none =>
    rw [chase] at ended
    exact .inl ⟨rfl, (Option.some.inj ended).symm⟩
  | some a =>
    cases fuel with
    | zero => cases ended
    | succ less =>
      obtain ⟨rest, tail, same⟩ := Option.map_eq_some_iff.mp ended
      exact .inr ⟨a, rest, less, rfl, same.symm, tail⟩

theorem seek_cases {next : A → Option A} {found : A → Option B} {fallback b : B}
    (ended : seek next found fallback fuel cursor = some b) : (cursor = none ∧ b = fallback) ∨ ∃ a, cursor = some a ∧
    (found a = some b ∨ found a = none ∧ ∃ less, less < fuel ∧ seek next found fallback less (next a) = some b) := by
  cases cursor with
  | none =>
    rw [seek] at ended
    exact .inl ⟨rfl, (Option.some.inj ended).symm⟩
  | some a =>
    cases fuel with
    | zero => cases ended
    | succ less =>
      refine .inr ⟨a, rfl, ?_⟩
      cases hit : found a with
      | some here =>
        rw [seek, hit] at ended
        exact .inl ended
      | none =>
        rw [seek, hit] at ended
        exact .inr ⟨rfl, less, Nat.lt_succ_self less, ended⟩

theorem chase_member {next : A → Option A} (ended : chase next fuel cursor = some trail) (a : A) :
    a ∈ trail ↔ ∃ start, cursor = some start ∧ ReflTransGen (fun c b => next b = some c) a start := by
  induction trail generalizing fuel cursor with
  | nil =>
    rcases chase_cases ended with ⟨rfl, _⟩ | ⟨_, _, _, _, impossible, _⟩
    · simp
    · cases impossible
  | cons head tail ih =>
    rcases chase_cases ended with ⟨_, impossible⟩ | ⟨start, rest, less, rfl, same, later⟩
    · cases impossible
    · cases same
      rw [List.mem_cons, ih later]
      constructor
      · rintro (rfl | ⟨second, link, way⟩)
        · exact ⟨a, rfl, .refl⟩
        · exact ⟨head, rfl, way.tail link⟩
      · rintro ⟨start, isHead, way⟩
        cases isHead
        rcases ReflTransGen.cases_tail way with same | ⟨second, before, link⟩
        · exact .inl same.symm
        · exact .inr ⟨second, link, before⟩

theorem chase_ends (founded : WellFounded fun b a => next a = some b) (cursor : Option A) :
    ∃ fuel trail, chase next fuel cursor = some trail := by
  cases cursor with
  | none => exact ⟨0, [], rfl⟩
  | some a =>
    induction a using founded.induction with
    | _ a ih =>
      cases link : next a with
      | none => exact ⟨1, [a], by simp [chase, link]⟩
      | some b =>
        obtain ⟨fuel, trail, ended⟩ := ih b link
        exact ⟨fuel + 1, a :: trail, by rw [chase, link, ended]; rfl⟩

theorem seek_ends (founded : WellFounded fun b a => next a = some b) (cursor : Option A) :
    ∃ fuel b, seek next found fallback fuel cursor = some b := by
  cases cursor with
  | none => exact ⟨0, fallback, rfl⟩
  | some a =>
    induction a using founded.induction with
    | _ a ih =>
      cases hit : found a with
      | some here => exact ⟨1, here, by simp [seek, hit]⟩
      | none =>
        cases link : next a with
        | none => exact ⟨1, fallback, by simp [seek, hit, link]⟩
        | some b =>
          obtain ⟨fuel, result, ended⟩ := ih b link
          exact ⟨fuel + 1, result, by rw [seek, hit, link]; exact ended⟩

theorem map_all_ended (items : List A) (results : List B) :
    items.mapM run = some results ↔ List.Forall₂ (fun item result => run item = some result) items results := by
  induction items generalizing results with
  | nil => cases results <;> simp
  | cons item tail ih =>
    rw [List.mapM_cons]
    cases results with
    | nil => cases run item <;> cases List.mapM run tail <;> simp
    | cons result rest =>
      rw [List.forall₂_cons, ← ih]
      cases run item <;> cases List.mapM run tail <;> simp

theorem map_all_member {items : List A} {results : List B} (ended : items.mapM run = some results) {result : B}
    (member : result ∈ results) : ∃ item ∈ items, run item = some result := by
  rw [map_all_ended] at ended
  induction ended with
  | nil => cases member
  | @cons item own tail _ found _ ih =>
    rcases List.mem_cons.mp member with rfl | later
    · exact ⟨item, List.mem_cons_self, found⟩
    · obtain ⟨other, inTail, foundOther⟩ := ih later
      exact ⟨other, List.mem_cons_of_mem item inTail, foundOther⟩

theorem common_fuel (ends : Nat → A → Prop) (more : ∀ fuel extra a, fuel ≤ extra → ends fuel a → ends extra a)
    (items : List A) (each : ∀ a ∈ items, ∃ fuel, ends fuel a) : ∃ fuel, ∀ a ∈ items, ends fuel a := by
  induction items with
  | nil => exact ⟨0, by simp⟩
  | cons item tail ih =>
    obtain ⟨first, head⟩ := each item (by simp)
    obtain ⟨second, rest⟩ := ih (fun a member => each a (by simp [member]))
    refine ⟨max first second, fun a member => ?_⟩
    rcases List.mem_cons.mp member with same | inTail
    · exact same ▸ more first _ item (le_max_left _ _) head
    · exact more second _ a (le_max_right _ _) (rest a inTail)

theorem acyclic_of_rank (rank : A → Nat) (lower : ∀ b a, edge b a → rank b < rank a) (a : A) : ¬ TransGen edge a a := by
  intro loop
  have climbs : TransGen (· < ·) (rank a) (rank a) := loop.lift rank lower
  rw [transGen_eq_self] at climbs
  exact lt_irrefl _ climbs

-- A relation whose edges all leave a finite set of nodes has no infinite
-- descent unless it has a cycle.
theorem founded_of_acyclic (leaves : ∀ b a, edge b a → a ∈ nodes) (acyclic : ∀ a, ¬ TransGen edge a a) :
    WellFounded edge := by
  let below : {a // a ∈ nodes} → {a // a ∈ nodes} → Prop := fun b a => TransGen edge b.1 a.1
  have irreflexive : Std.Irrefl below := ⟨fun a => acyclic a.1⟩
  have transitive : IsTrans _ below := ⟨fun a b c ab => ab.trans⟩
  have finite : Finite {a // a ∈ nodes} := (List.finite_toSet nodes).to_subtype
  have founded : WellFounded below := Finite.wellFounded_of_trans_of_irrefl below
  have inside : ∀ a : {a // a ∈ nodes}, Acc edge a.1 := by
    intro a
    induction a using founded.induction with
    | _ a ih =>
      constructor
      intro b link
      by_cases member : b ∈ nodes
      · exact ih ⟨b, member⟩ (.single link)
      · exact ⟨b, fun c next => absurd (leaves c b next) member⟩
  constructor
  intro a
  by_cases member : a ∈ nodes
  · exact inside ⟨a, member⟩
  · exact ⟨a, fun c next => absurd (leaves c a next) member⟩

theorem acc_iff_no_cycle (leaves : ∀ b a, edge b a → a ∈ nodes) (a : A) :
    Acc edge a ↔ ¬ ∃ c, ReflTransGen edge c a ∧ TransGen edge c c := by
  constructor
  · intro founded met
    obtain ⟨c, back, loop⟩ := met
    have foundedThere : Acc (TransGen edge) c := by
      rcases reflTransGen_iff_eq_or_transGen.mp back with same | way
      · exact same ▸ founded.transGen
      · exact founded.transGen.inv way
    induction foundedThere with
    | intro c _ ih => exact ih c loop (.trans loop.to_reflTransGen back) loop
  · intro none
    let near : A → A → Prop := fun c b => edge c b ∧ ReflTransGen edge b a
    have founded : WellFounded near := by
      refine founded_of_acyclic near nodes (fun c b link => leaves c b link.1) fun c loop => none ⟨c, ?_, loop.lift id fun _ _ link => link.1⟩
      obtain ⟨b, _, last⟩ := TransGen.tail'_iff.mp loop
      exact last.2
    have inside : ∀ b, ReflTransGen edge b a → Acc edge b := by
      intro b
      induction b using founded.induction with
      | _ b ih => exact fun back => ⟨b, fun c link => ih c ⟨link, back⟩ (.head link back)⟩
    exact inside a .refl

end GaussMatrix.Chase

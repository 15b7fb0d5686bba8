import Mathlib

namespace GaussMatrix.Runs

variable {State Act : Type} (step : State → Act → Option State)

def runs (state : State) (acts : List Act) : Option State := acts.foldlM step state

variable {step} {meets : State → Act → Prop} {holds : Act → Prop} {state last : State} {act : Act}
  {acts before : List Act}

theorem runs_cons : runs step state (act :: acts) = some last ↔ ∃ next, step state act = some next ∧
    runs step next acts = some last := Option.bind_eq_some_iff

theorem runs_append {after : List Act} : runs step state (before ++ after) = some last ↔
    ∃ middle, runs step state before = some middle ∧ runs step middle after = some last := by
  rw [runs, List.foldlM_append]
  exact Option.bind_eq_some_iff

theorem runs_related {invariant : State → Prop} {related : State → State → Prop} [Std.Refl related]
    [IsTrans State related]
    (preserved : ∀ state act next, invariant state → step state act = some next → invariant next ∧ related state next)
    {state last : State} {acts : List Act} (holds : invariant state) (ran : runs step state acts = some last) :
    related state last := by
  induction acts generalizing state with
  | nil =>
    cases ran
    exact Std.Refl.refl _
  | cons act rest ih =>
    obtain ⟨next, stepped, later⟩ := runs_cons.mp ran
    obtain ⟨holdsNext, first⟩ := preserved state act next holds stepped
    exact IsTrans.trans _ _ _ first (ih holdsNext later)

def AllMeet (step : State → Act → Option State) (meets : State → Act → Prop) : State → List Act → Prop
  | _, [] => True
  | state, act :: rest => meets state act ∧ ∀ next, step state act = some next → AllMeet step meets next rest

instance decidableAllMeet (step : State → Act → Option State) (meets : State → Act → Prop)
    [∀ state act, Decidable (meets state act)] :
    (state : State) → (acts : List Act) → Decidable (AllMeet step meets state acts)
  | _, [] => isTrue trivial
  | state, act :: rest =>
    match stepped : step state act with
    | none => decidable_of_iff (meets state act) ⟨fun met => ⟨met, fun _ same => nomatch stepped.symm.trans same⟩, fun met => met.1⟩
    | some next =>
      have := decidableAllMeet step meets next rest
      decidable_of_iff (meets state act ∧ AllMeet step meets next rest)
        ⟨fun met => ⟨met.1, fun _ same => Option.some.inj (stepped.symm.trans same) ▸ met.2⟩, fun met => ⟨met.1, met.2 next stepped⟩⟩

theorem all_meet_mono {more : State → Act → Prop} (mono : ∀ state act, meets state act → more state act)
    (met : AllMeet step meets state acts) : AllMeet step more state acts := by
  induction acts generalizing state with
  | nil => trivial
  | cons act rest ih => exact ⟨mono state act met.1, fun next stepped => ih (met.2 next stepped)⟩

theorem all_meet_of_members (state : State) (member : ∀ act ∈ acts, holds act) :
    AllMeet step (fun _ => holds) state acts := by
  induction acts generalizing state with
  | nil => trivial
  | cons act rest ih =>
    exact ⟨member act List.mem_cons_self, fun next _ => ih next fun other inRest =>
      member other (List.mem_cons_of_mem act inRest)⟩

theorem all_meet_both {other : State → Act → Prop} (met : AllMeet step meets state acts)
    (metOther : AllMeet step other state acts) :
    AllMeet step (fun state act => meets state act ∧ other state act) state acts := by
  induction acts generalizing state with
  | nil => trivial
  | cons act rest ih =>
    exact ⟨⟨met.1, metOther.1⟩, fun next stepped => ih (met.2 next stepped) (metOther.2 next stepped)⟩

theorem all_meet_members (met : AllMeet step meets state acts) (member : ∀ act ∈ acts, holds act) :
    AllMeet step (fun state act => meets state act ∧ holds act) state acts :=
  all_meet_both met (all_meet_of_members state member)

theorem all_meet_of_invariant {invariant : State → Prop} {meets : State → Act → Prop}
    (preserved : ∀ state act next, invariant state → step state act = some next → invariant next)
    (implied : ∀ state act, invariant state → meets state act)
    {state : State} (holds : invariant state) (acts : List Act) : AllMeet step meets state acts := by
  induction acts generalizing state with
  | nil => trivial
  | cons act rest ih => exact ⟨implied state act holds, fun next stepped => ih (preserved state act next holds stepped)⟩

theorem all_meet_before {after : List Act} (met : AllMeet step meets state (before ++ after)) :
    AllMeet step meets state before := by
  induction before generalizing state with
  | nil => trivial
  | cons act rest ih => exact ⟨met.1, fun next stepped => ih (met.2 next stepped)⟩

theorem all_meet_after {middle : State} {after : List Act} (met : AllMeet step meets state (before ++ after))
    (ran : runs step state before = some middle) : AllMeet step meets middle after := by
  induction before generalizing state with
  | nil =>
    cases ran
    exact met
  | cons act rest ih =>
    obtain ⟨next, stepped, later⟩ := runs_cons.mp ran
    exact ih (met.2 next stepped) later

theorem all_meet_of_each
    (each : ∀ before act after middle, acts = before ++ act :: after → runs step state before = some middle →
    meets middle act) : AllMeet step meets state acts := by
  induction acts generalizing state with
  | nil => trivial
  | cons act rest ih =>
    refine ⟨each [] act rest state rfl rfl, fun next stepped => ih fun before other after middle split ran => ?_⟩
    exact each (act :: before) other after middle (congrArg (act :: ·) split) (runs_cons.mpr ⟨next, stepped, ran⟩)

theorem all_meet_of_last {invariant good : State → Prop} {meets : State → Act → Prop}
    (preserved : ∀ state act next, invariant state → step state act = some next → invariant next)
    (back : ∀ state act next, invariant state → step state act = some next → good next → good state ∧ meets state act)
    {state last : State} {acts : List Act} (holds : invariant state) (ran : runs step state acts = some last)
    (ends : good last) : AllMeet step meets state acts ∧ good state := by
  induction acts generalizing state with
  | nil =>
    cases ran
    exact ⟨trivial, ends⟩
  | cons act rest ih =>
    obtain ⟨next, stepped, later⟩ := runs_cons.mp ran
    obtain ⟨met, goodNext⟩ := ih (preserved state act next holds stepped) later
    obtain ⟨goodState, now⟩ := back state act next holds stepped goodNext
    refine ⟨⟨now, fun other same => ?_⟩, goodState⟩
    cases stepped.symm.trans same
    exact met

theorem all_meet_last (met : AllMeet step meets state (acts ++ [act])) (ran : runs step state acts = some last) :
    AllMeet step meets state acts ∧ meets last act :=
  ⟨all_meet_before met, (all_meet_after met ran).1⟩

theorem runs_meeting_invariant {invariant : State → Prop} {meets : State → Act → Prop}
    (preserved : ∀ state act next, invariant state → meets state act → step state act = some next → invariant next)
    {state last : State} {acts : List Act} (holds : invariant state) (met : AllMeet step meets state acts)
    (ran : runs step state acts = some last) : invariant last := by
  induction acts generalizing state with
  | nil =>
    cases ran
    exact holds
  | cons act rest ih =>
    obtain ⟨next, stepped, later⟩ := runs_cons.mp ran
    exact ih (preserved state act next holds met.1 stepped) (met.2 next stepped) later

theorem runs_invariant {invariant : State → Prop}
    (preserved : ∀ state act next, invariant state → step state act = some next → invariant next) {state last : State}
    {acts : List Act} (holds : invariant state) (ran : runs step state acts = some last) : invariant last := by
  refine runs_meeting_invariant (fun state act next kept _ stepped => ?_) holds
    (all_meet_of_members state fun _ _ => trivial) ran
  exact preserved state act next kept stepped

end GaussMatrix.Runs

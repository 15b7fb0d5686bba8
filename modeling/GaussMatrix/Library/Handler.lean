import Mathlib

namespace GaussMatrix.Handlers

variable {State Error A B : Type}

-- A handler that fails keeps what it has written so far: nothing is rolled back.
def run (handler : ExceptT Error (StateM State) A) (state : State) : Except Error A × State := handler.run.run state

@[simp] theorem run_get (state : State) : run (get : ExceptT Error (StateM State) State) state = (.ok state, state) :=
  rfl

variable {change : State → State}

@[simp] theorem run_modify {state : State} :
    run (modify change : ExceptT Error (StateM State) Unit) state = (.ok (), change state) := rfl

theorem run_bind (first : ExceptT Error (StateM State) A) (next : A → ExceptT Error (StateM State) B) (state : State) :
    run (first >>= next) state =
      match run first state with
      | (.ok value, after) => run (next value) after
      | (.error error, after) => (.error error, after) := by
  rw [run, ExceptT.run_bind, StateT.run_bind, run]
  cases StateT.run first.run state with
  | mk outcome after =>
    cases outcome with
    | ok value => rfl
    | error error => rfl

variable {first : ExceptT Error (StateM State) A} {result : Except Error A} {after : State} {error : Error}
  {state : State} {value : A} {next : A → ExceptT Error (StateM State) B}

theorem run_bind_ok (done : run first state = (.ok value, after)) (next : A → ExceptT Error (StateM State) B) :
    run (first >>= next) state = run (next value) after := by
  rw [run_bind, done]

theorem run_bind_error (failed : run first state = (.error error, after)) :
    run (first >>= next) state = (.error error, after) := by
  rw [run_bind, failed]

theorem run_try_ok {handler : Error → ExceptT Error (StateM State) A}
    (done : run first state = (.ok value, after)) : run (tryCatch first handler) state = (.ok value, after) := by
  unfold run ExceptT.run StateT.run at *
  simp only [tryCatch, tryCatchThe, MonadExceptOf.tryCatch, ExceptT.tryCatch, ExceptT.mk, bind, StateT.bind]
  rw [done]
  rfl

theorem run_lift_ok (isValue : result = .ok value) (next : A → ExceptT Error (StateM State) B) (state : State) :
    run ((liftM result : ExceptT Error (StateM State) A) >>= next) state = run (next value) state := by
  rw [isValue]
  rfl

theorem run_lift_error (isError : result = .error error) :
    run ((liftM result : ExceptT Error (StateM State) A) >>= next) state = (.error error, state) := by
  rw [isError]
  rfl

theorem run_bind_returns {last : State} {result : B} (returned : run (first >>= next) state = (.ok result, last)) :
    ∃ value after, run first state = (.ok value, after) ∧ run (next value) after = (.ok result, last) := by
  rw [run_bind] at returned
  cases reached : run first state with
  | mk outcome after =>
    rw [reached] at returned
    cases outcome with
    | ok value => exact ⟨value, after, rfl, returned⟩
    | error error => cases returned

theorem run_lift_returns {last : State} {value : B}
    (returned : run ((liftM result : ExceptT Error (StateM State) A) >>= next) state = (.ok value, last)) :
    ∃ first, result = .ok first ∧ run (next first) state = (.ok value, last) := by
  cases result with
  | ok first => exact ⟨first, rfl, returned⟩
  | error error => cases returned

def Respects (relation : State → State → Prop) (handler : ExceptT Error (StateM State) A) : Prop :=
  ∀ state, relation state (run handler state).2

section

variable (relation : State → State → Prop)

theorem respects_modify (step : ∀ state, relation state (change state)) :
    Respects relation (modify change : ExceptT Error (StateM State) Unit) := step

variable [Std.Refl relation]

theorem respects_pure : Respects relation (pure value : ExceptT Error (StateM State) A) := Std.Refl.refl

theorem respects_get : Respects relation (get : ExceptT Error (StateM State) State) := Std.Refl.refl

theorem respects_lift : Respects relation (liftM result : ExceptT Error (StateM State) A) := Std.Refl.refl

omit [Std.Refl relation] in
theorem respects_bind [IsTrans State relation]
    (firstStep : Respects relation first) (nextStep : ∀ value, Respects relation (next value)) :
    Respects relation (first >>= next) := by
  intro state
  rw [run_bind]
  have step := firstStep state
  cases reached : run first state with
  | mk outcome after =>
    rw [reached] at step
    cases outcome with
    | ok value => exact IsTrans.trans _ _ _ step (nextStep value after)
    | error error => exact step

end

def keeps {C : Type} (read : State → C) (before after : State) : Prop := read after = read before

instance {C : Type} (read : State → C) : Std.Refl (keeps read) := ⟨fun _ => rfl⟩

instance {C : Type} (read : State → C) : IsTrans State (keeps read) := ⟨fun _ _ _ first second => second.trans first⟩

end GaussMatrix.Handlers

import Mathlib

namespace GaussMatrix.Footprint

variable {Key Value Error A B : Type}

abbrev Lookup (Key Value Error A : Type) := ReaderT (Key → Except Error Value) (Except Error) A

def outcome (key : Key) : Lookup Key Value Error (Except Error Value) := fun snapshot => .ok (snapshot key)

def rejectIf (condition : Bool) (error : Error) : Lookup Key Value Error Unit :=
  if condition then throw error else pure ()

def ReadsOnly (keys : Set Key) (lookup : Lookup Key Value Error A) : Prop :=
  ∀ snapshot other : Key → Except Error Value, (∀ key ∈ keys, (snapshot key).toOption = (other key).toOption) →
    (lookup.run snapshot).toOption = (lookup.run other).toOption

theorem bind_to_option (first : Except Error A) (next : A → Except Error B) :
    (first >>= next).toOption = first.toOption.bind fun value => (next value).toOption := by
  cases first <;> rfl

theorem to_option_ok (result : Except Error A) (value : A) : result.toOption = some value ↔ result = .ok value := by
  cases result with
  | error error => exact ⟨fun same => (nomatch same), fun same => (nomatch same)⟩
  | ok held =>
    exact ⟨fun same => congrArg Except.ok (Option.some.inj same), fun same => congrArg some (Except.ok.inj same)⟩

variable {keys : Set Key}

theorem reads_pure {value : A} : ReadsOnly keys (pure value : Lookup Key Value Error A) := fun _ _ _ => rfl

theorem reads_throw {error : Error} : ReadsOnly keys (throw error : Lookup Key Value Error A) := fun _ _ _ => rfl

variable {result : Except Error A}

theorem reads_lift : ReadsOnly keys (liftM result : Lookup Key Value Error A) := fun _ _ _ => rfl

variable {first : Lookup Key Value Error A} {next : A → Lookup Key Value Error B}

theorem reads_bind (firstReads : ReadsOnly keys first) (nextReads : ∀ value, ReadsOnly keys (next value)) :
    ReadsOnly keys (first >>= next) := by
  intro snapshot other agree
  rw [ReaderT.run_bind, ReaderT.run_bind, bind_to_option, bind_to_option, firstReads snapshot other agree]
  exact congrArg _ (funext fun value => nextReads value snapshot other agree)

theorem reads_lift_bind (nextReads : ∀ value, result = .ok value → ReadsOnly keys (next value)) :
    ReadsOnly keys ((liftM result : Lookup Key Value Error A) >>= next) := by
  cases result with
  | error error => exact fun _ _ _ => rfl
  | ok value => exact nextReads value rfl

theorem reads_outcome_bind {key : Key} (declared : key ∈ keys) {next : Except Error Value → Lookup Key Value Error A}
    (found : ∀ value, ReadsOnly keys (next (.ok value))) (missing : ∀ error reason snapshot other,
    ((next (.error error)).run snapshot).toOption = ((next (.error reason)).run other).toOption) :
    ReadsOnly keys (outcome key >>= next) := by
  intro snapshot other agree
  have same := agree key declared
  change ((next (snapshot key)).run snapshot).toOption = ((next (other key)).run other).toOption
  cases here : snapshot key with
  | ok value =>
    rw [here] at same
    cases there : other key with
    | ok copy =>
      rw [there] at same
      cases same
      exact found value snapshot other agree
    | error reason =>
      rw [there] at same
      cases same
  | error error =>
    rw [here] at same
    cases there : other key with
    | ok copy =>
      rw [there] at same
      cases same
    | error reason => exact missing error reason snapshot other

theorem reads_ite {condition : Prop} [Decidable condition] {second : Lookup Key Value Error A}
    (firstReads : condition → ReadsOnly keys first) (secondReads : ¬ condition → ReadsOnly keys second) :
    ReadsOnly keys (if condition then first else second) := by
  split
  case isTrue held => exact firstReads held
  case isFalse refused => exact secondReads refused

theorem reads_reject {condition : Bool} {error : Error} :
    ReadsOnly keys (rejectIf condition error : Lookup Key Value Error Unit) :=
  reads_ite (fun _ => reads_throw) (fun _ => reads_pure)

end GaussMatrix.Footprint

import GaussMatrix.Library.Runs

namespace GaussMatrix.Interning

open Function Runs

inductive Phase where
  | waiting
  | missed
  | numbered (short : Nat)
  | stored (short : Nat)
  | done (short : Nat)
deriving DecidableEq

-- Keys are given numbers from one counter and kept in a table each way, those of
-- one kind in a pair of tables of their own. An item is one request for a key.
structure Tables (Item Key Kind : Type) where
  count : Nat
  forward : Key → Option Nat
  reverse : Kind × Nat → Option Key
  phase : Item → Phase

inductive Act (Item : Type) where
  | read (item : Item)
  | draw (item : Item)
  | put (item : Item)
  | putBack (item : Item)

variable {Item Key Kind : Type} [DecidableEq Item] [DecidableEq Key] [DecidableEq Kind]

def Tables.set (tables : Tables Item Key Kind) (item : Item) (phase : Phase) : Tables Item Key Kind :=
  { tables with phase := update tables.phase item phase }

variable (key : Item → Key) (kind : Key → Kind)

def readPhase : Option Nat → Phase
  | some short => .done short
  | none => .missed

def step (tables : Tables Item Key Kind) : Act Item → Option (Tables Item Key Kind)
  | .read item =>
    if tables.phase item = .waiting then some (tables.set item (readPhase (tables.forward (key item)))) else none
  | .draw item =>
    if tables.phase item = .missed then some
    { tables.set item (.numbered (tables.count + 1)) with count := tables.count + 1 } else none
  | .put item =>
    match tables.phase item with
    | .numbered short =>
      some { tables.set item (.stored short) with forward := update tables.forward (key item) (some short) }
    | _ => none
  | .putBack item =>
    match tables.phase item with
    | .stored short =>
      some { tables.set item (.done short) with
             reverse := update tables.reverse (kind (key item), short) (some (key item)) }
    | _ => none

def Phase.Creating : Phase → Prop
  | .missed => True
  | .numbered _ => True
  | _ => False

def Calm (tables : Tables Item Key Kind) : Act Item → Prop
  | .read item => tables.forward (key item) = none → ∀ other, key other = key item → ¬ (tables.phase other).Creating
  | _ => True

instance (phase : Phase) : Decidable phase.Creating := by
  cases phase <;> unfold Phase.Creating <;> infer_instance

instance [Fintype Item] (tables : Tables Item Key Kind) (act : Act Item) : Decidable (Calm key tables act) := by
  cases act <;> unfold Calm <;> infer_instance

def Fits (tables : Tables Item Key Kind) (k : Key) : Phase → Prop
  | .waiting => True
  | .missed => tables.forward k = none
  | .numbered short => tables.forward k = none ∧ short ≤ tables.count ∧ ∀ other, tables.forward other ≠ some short
  | .stored short => tables.forward k = some short
  | .done short => tables.forward k = some short

structure Sound (tables : Tables Item Key Kind) : Prop where
  bounded : ∀ k short, tables.forward k = some short → short ≤ tables.count
  injective : ∀ k other short, tables.forward k = some short → tables.forward other = some short → k = other
  fits : ∀ item, Fits tables (key item) (tables.phase item)
  apart : ∀ item other short, tables.phase item = .numbered short → tables.phase other = .numbered short → item = other
  alone : ∀ item other, (tables.phase item).Creating → (tables.phase other).Creating →
    key item = key other → item = other
  back : ∀ place k, tables.reverse place = some k → kind k = place.1 ∧ tables.forward k = some place.2
  forth : ∀ k short, tables.forward k = some short → tables.reverse (kind k, short) = some k ∨ ∃ item, key item = k ∧
    tables.phase item = .stored short

variable {key kind} {tables next : Tables Item Key Kind} {item : Item} {phase : Phase}

omit [DecidableEq Key] [DecidableEq Kind] in
theorem set_phase {other : Item} : (tables.set item phase).phase other = if other = item then phase
    else tables.phase other := update_apply _ _ _ _

omit [DecidableEq Key] [DecidableEq Kind] in
theorem set_sound (sound : Sound key kind tables) (pending : ∀ short, tables.phase item ≠ .stored short)
    (fits : Fits tables (key item) phase)
    (fresh : ∀ short, phase = .numbered short → ∀ other, tables.phase other ≠ .numbered short)
    (alone : phase.Creating → ∀ other, other ≠ item → key other = key item → ¬ (tables.phase other).Creating) :
    Sound key kind (tables.set item phase) := { sound with
  fits := by
    intro other
    rw [set_phase]
    split
    · rename_i same
      exact same ▸ fits
    · exact sound.fits other
  apart := by
    intro first second short one two
    rw [set_phase] at one two
    split at one
    · split at two
      · rename_i isFirst isSecond
        exact isFirst.trans isSecond.symm
      · exact absurd two (fresh short one second)
    · split at two
      · exact absurd one (fresh short two first)
      · exact sound.apart first second short one two
  alone := by
    intro first second one two same
    rw [set_phase] at one two
    split at one
    · rename_i isFirst
      subst isFirst
      split at two
      · rename_i isSecond
        exact isSecond.symm
      · rename_i notSecond
        exact absurd two (alone one second notSecond same.symm)
    · rename_i notFirst
      split at two
      · rename_i isSecond
        subst isSecond
        exact absurd one (alone two first notFirst same)
      · exact sound.alone first second one two same
  forth := by
    intro k short stored
    refine (sound.forth k short stored).imp_right fun held => ?_
    obtain ⟨other, isKey, phase⟩ := held
    have different : other ≠ item := by
      intro same
      exact pending short (same ▸ phase)
    exact ⟨other, isKey, by rw [set_phase, if_neg different]; exact phase⟩ }

omit [DecidableEq Item] [DecidableEq Key] [DecidableEq Kind] in
theorem count_sound (sound : Sound key kind tables) : Sound key kind { tables with count := tables.count + 1 } :=
  { sound with
  bounded := fun k short stored => Nat.le_succ_of_le (sound.bounded k short stored)
  fits := by
    intro item
    have fits := sound.fits item
    cases phase : tables.phase item with
    | numbered short =>
      rw [phase] at fits
      exact ⟨fits.1, Nat.le_succ_of_le fits.2.1, fits.2.2⟩
    | _ =>
      rw [phase] at fits
      exact fits }

omit [DecidableEq Key] [DecidableEq Kind] in
theorem set_creating (settled : ¬ phase.Creating) {other : Item}
    (creating : ((tables.set item phase).phase other).Creating) : other ≠ item ∧ (tables.phase other).Creating := by
  rw [set_phase] at creating
  split at creating
  · exact absurd creating settled
  · rename_i different
    exact ⟨different, creating⟩

omit [DecidableEq Key] [DecidableEq Kind] in
theorem settled_apart (sound : Sound key kind tables) (settled : ¬ phase.Creating) (first second : Item) (short : Nat)
    (one : (tables.set item phase).phase first = .numbered short)
    (two : (tables.set item phase).phase second = .numbered short) : first = second := by
  rw [set_phase] at one two
  split at one
  · rw [one] at settled
    exact absurd trivial settled
  · split at two
    · rw [two] at settled
      exact absurd trivial settled
    · exact sound.apart first second short one two

omit [DecidableEq Key] [DecidableEq Kind] in
theorem settled_alone (sound : Sound key kind tables) (settled : ¬ phase.Creating) (first second : Item)
    (one : ((tables.set item phase).phase first).Creating) (two : ((tables.set item phase).phase second).Creating)
    (same : key first = key second) : first = second :=
  sound.alone first second (set_creating settled one).2 (set_creating settled two).2 same

omit [DecidableEq Item] [DecidableEq Kind] in
theorem put_source {place k : Key} {short number : Nat}
    (found : update tables.forward place (some short) k = some number) :
    (k = place ∧ number = short) ∨ (k ≠ place ∧ tables.forward k = some number) := by
  rw [update_apply] at found
  split at found
  case isTrue same => exact .inl ⟨same, (Option.some.inj found).symm⟩
  case isFalse different => exact .inr ⟨different, found⟩

omit [DecidableEq Item] [DecidableEq Kind] in
theorem put_keeps {place k : Key} {short number : Nat} (missing : tables.forward place = none)
    (stored : tables.forward k = some number) : update tables.forward place (some short) k = some number := by
  have different : k ≠ place := by
    intro same
    rw [same, missing] at stored
    cases stored
  rw [update_of_ne different]
  exact stored

omit [DecidableEq Item] [DecidableEq Kind] in
theorem put_fits (sound : Sound key kind tables) {short : Nat} (numbered : tables.phase item = .numbered short)
    (missing : tables.forward (key item) = none) {other : Item} (different : other ≠ item) :
    Fits { tables with forward := update tables.forward (key item) (some short) } (key other) (tables.phase other) := by
  have fits := sound.fits other
  have creating : (tables.phase item).Creating := by
    rw [numbered]
    trivial
  have apartKeys : (tables.phase other).Creating → key other ≠ key item :=
    fun otherCreating same => different (sound.alone other item otherCreating creating same)
  cases phase : tables.phase other with
  | waiting => trivial
  | missed =>
    rw [phase] at fits apartKeys
    exact (update_of_ne (apartKeys trivial) _ _).trans fits
  | numbered number =>
    have numbers : number ≠ short := fun same => different (sound.apart other item short (same ▸ phase) numbered)
    rw [phase] at fits apartKeys
    refine ⟨(update_of_ne (apartKeys trivial) _ _).trans fits.1, fits.2.1, fun k found => ?_⟩
    rcases put_source found with ⟨_, isShort⟩ | ⟨_, old⟩
    · exact numbers isShort
    · exact fits.2.2 k old
  | stored number =>
    rw [phase] at fits
    exact put_keeps missing fits
  | done number =>
    rw [phase] at fits
    exact put_keeps missing fits

omit [DecidableEq Kind] in
theorem put_sound (sound : Sound key kind tables) {short : Nat} (numbered : tables.phase item = .numbered short) :
    Sound key kind
    { tables.set item (.stored short) with forward := update tables.forward (key item) (some short) } := by
  have own := sound.fits item
  rw [numbered] at own
  obtain ⟨missing, drawn, unused⟩ := own
  have settled : ¬ (Phase.stored short).Creating := not_false
  constructor
  · intro k number found
    rcases put_source found with ⟨_, same⟩ | ⟨_, old⟩
    · exact same ▸ drawn
    · exact sound.bounded k number old
  · intro k other number first second
    rcases put_source first with ⟨isKey, isShort⟩ | ⟨_, old⟩
    · rcases put_source second with ⟨otherKey, _⟩ | ⟨_, otherOld⟩
      · exact isKey.trans otherKey.symm
      · exact absurd (isShort ▸ otherOld) (unused other)
    · rcases put_source second with ⟨_, isShort⟩ | ⟨_, otherOld⟩
      · exact absurd (isShort ▸ old) (unused k)
      · exact sound.injective k other number old otherOld
  · intro other
    rw [set_phase]
    split
    case isTrue same =>
      rw [same]
      exact update_self _ _ _
    case isFalse different => exact put_fits sound numbered missing different
  · exact settled_apart sound settled
  · exact settled_alone sound settled
  · intro place k found
    obtain ⟨isKind, old⟩ := sound.back place k found
    exact ⟨isKind, put_keeps missing old⟩
  · intro k number found
    rcases put_source found with ⟨isKey, isShort⟩ | ⟨_, old⟩
    · refine .inr ⟨item, isKey.symm, ?_⟩
      rw [isShort]
      exact set_phase.trans (if_pos rfl)
    · refine (sound.forth k number old).imp_right fun held => ?_
      obtain ⟨other, otherKey, phase⟩ := held
      have different : other ≠ item := by
        intro same
        rw [same, numbered] at phase
        cases phase
      exact ⟨other, otherKey, (set_phase.trans (if_neg different)).trans phase⟩

omit [DecidableEq Key] in
theorem put_back_sound (sound : Sound key kind tables) {short : Nat} (isStored : tables.phase item = .stored short) :
    Sound key kind { tables.set item (.done short) with
        reverse := update tables.reverse (kind (key item), short) (some (key item)) } := by
  have own := sound.fits item
  rw [isStored] at own
  have settled : ¬ (Phase.done short).Creating := not_false
  constructor
  · exact sound.bounded
  · exact sound.injective
  · intro other
    rw [set_phase]
    split
    · rename_i same
      rw [same]
      exact own
    · have fits := sound.fits other
      cases phase : tables.phase other with
      | _ =>
        rw [phase] at fits
        exact fits
  · exact settled_apart sound settled
  · exact settled_alone sound settled
  · intro place k found
    have read : update tables.reverse (kind (key item), short) (some (key item)) place = some k := found
    rw [update_apply] at read
    split at read
    · rename_i here
      rw [here, ← Option.some.inj read]
      exact ⟨rfl, own⟩
    · exact sound.back place k read
  · intro k number found
    change update tables.reverse (kind (key item), short) (some (key item)) (kind k, number) = some k ∨
      ∃ other, key other = k ∧ (tables.set item (.done short)).phase other = .stored number
    rw [update_apply]
    by_cases here : (kind k, number) = (kind (key item), short)
    · rw [if_pos here]
      have isShort : number = short := congrArg Prod.snd here
      exact .inl (congrArg some (sound.injective (key item) k number (isShort ▸ own) found))
    · rw [if_neg here]
      refine (sound.forth k number found).imp_right fun held => ?_
      obtain ⟨other, otherKey, phase⟩ := held
      have different : other ≠ item := by
        intro same
        rw [same, isStored] at phase
        cases phase
        exact here (by rw [← otherKey, same])
      exact ⟨other, otherKey, (set_phase.trans (if_neg different)).trans phase⟩

omit [DecidableEq Key] [DecidableEq Kind] in
theorem read_sound (sound : Sound key kind tables) (waiting : tables.phase item = .waiting)
    (calm : Calm key tables (.read item)) :
    Sound key kind (tables.set item (readPhase (tables.forward (key item)))) := by
  have pending : ∀ short, tables.phase item ≠ .stored short := by simp [waiting]
  cases found : tables.forward (key item) with
  | some short => exact set_sound sound pending found (by simp [readPhase]) fun creating => creating.elim
  | none => exact set_sound sound pending found (by simp [readPhase]) fun _ other _ => calm found other

omit [DecidableEq Key] [DecidableEq Kind] in
theorem draw_sound (sound : Sound key kind tables) (missed : tables.phase item = .missed) :
    Sound key kind { tables.set item (.numbered (tables.count + 1)) with count := tables.count + 1 } := by
  have fits := sound.fits item
  rw [missed] at fits
  have creating : (tables.phase item).Creating := by
    rw [missed]
    trivial
  have unused : ∀ other, tables.forward other ≠ some (tables.count + 1) := by
    intro other found
    have bound := sound.bounded other _ found
    omega
  have fresh : ∀ other, tables.phase other ≠ .numbered (tables.count + 1) := by
    intro other phase
    have otherFits := sound.fits other
    rw [phase] at otherFits
    have bound := otherFits.2.1
    omega
  refine set_sound (count_sound sound) (by simp [missed]) ⟨fits, le_rfl, unused⟩ ?_ ?_
  · intro short same other
    cases same
    exact fresh other
  · intro _ other different same otherCreating
    exact different (sound.alone other item otherCreating creating same)

theorem step_sound (sound : Sound key kind tables) {act : Act Item} (calm : Calm key tables act)
    (stepped : step key kind tables act = some next) : Sound key kind next := by
  cases act with
  | read item =>
    obtain ⟨waiting, same⟩ := Option.ite_none_right_eq_some.mp stepped
    cases same
    exact read_sound sound waiting calm
  | draw item =>
    obtain ⟨missed, same⟩ := Option.ite_none_right_eq_some.mp stepped
    cases same
    exact draw_sound sound missed
  | put item =>
    rw [step] at stepped
    split at stepped
    · rename_i numbered
      cases stepped
      exact put_sound sound numbered
    · cases stepped
  | putBack item =>
    rw [step] at stepped
    split at stepped
    · rename_i stored
      cases stepped
      exact put_back_sound sound stored
    · cases stepped

omit [DecidableEq Item] [DecidableEq Key] [DecidableEq Kind] in
theorem finished_inverse (sound : Sound key kind tables) (finished : ∀ item, ∃ short, tables.phase item = .done short)
    (k : Key) (short : Nat) : tables.forward k = some short ↔ tables.reverse (kind k, short) = some k := by
  constructor
  · intro found
    refine (sound.forth k short found).resolve_right fun held => ?_
    obtain ⟨item, _, phase⟩ := held
    obtain ⟨other, done⟩ := finished item
    rw [done] at phase
    cases phase
  · intro found
    exact (sound.back _ k found).2

omit [DecidableEq Item] [DecidableEq Key] [DecidableEq Kind] in
theorem done_same_iff (sound : Sound key kind tables) (first second : Item) (short other : Nat)
    (one : tables.phase first = .done short) (two : tables.phase second = .done other) :
    short = other ↔ key first = key second := by
  have fitsFirst := sound.fits first
  have fitsSecond := sound.fits second
  rw [one] at fitsFirst
  rw [two] at fitsSecond
  constructor
  · intro same
    exact sound.injective _ _ short fitsFirst (same ▸ fitsSecond)
  · intro same
    rw [Fits, same] at fitsFirst
    exact Option.some.inj (fitsFirst.symm.trans fitsSecond)

end GaussMatrix.Interning

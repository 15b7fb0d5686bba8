import GaussMatrix.Database.Keys
import GaussMatrix.Library.BigEndian
import GaussMatrix.Library.Interleave
import GaussMatrix.Store.Backend

namespace GaussMatrix.Users.OneTimeKeys

open BigEndian Collections Interleave List Option Runs Store

def otkRowKey (pool : Bytes) (count : Nat) (id : Bytes) : Bytes := pool ++ (toBytes 8 count ++ Database.SEP :: id)

def rowId (pool key : Bytes) : Bytes := key.drop (pool.length + 9)

def algorithm (id : Bytes) : Bytes := id.takeWhile (· != 58)

structure Pool where
  rows : DomainTree Bytes
  count : Nat
  stored : List Bytes

inductive Call where
  | uploading (id value : Bytes) (known : Bool) (json : Except String Unit)
  | absent (id value : Bytes)
  | numbered (id value : Bytes) (count : Nat)
  | uploaded (id value : Bytes) (count : Nat)
  | claiming (wanted : Bytes)
  | scanning (wanted : Bytes)
  | found (row : Bytes × Bytes)
  | taken (row : Bytes × Bytes)
  | ended (result : Except String Unit)
deriving DecidableEq

inductive Request where
  | addOneTimeKey (id value : Bytes) (known : Bool) (json : Except String Unit)
  | takeOneTimeKey (wanted : Bytes)

def opens : Request → Option Call
  | .addOneTimeKey id value known json => some (.uploading id value known json)
  | .takeOneTimeKey wanted => some (.claiming wanted)

def alreadyPresent (pool : Bytes) (rows : DomainTree Bytes) (id : Bytes) : Bool :=
  (prefixScan rows pool).any fun row => rowId pool row.1 == id

def oldest (pool : Bytes) (rows : DomainTree Bytes) (wanted : Bytes) : Option (Bytes × Bytes) :=
  (prefixScan rows pool).find? fun row => algorithm (rowId pool row.1) == wanted

def nextCount (state : Pool) : Option Pool :=
  if state.count + 1 < 2 ^ 64 then some { state with count := state.count + 1 } else none

def advance (pool : Bytes) (_ : Unit) (state : Pool) : Call → Option (Pool × Call)
  | .uploading id value known json =>
    if known then
      match json with
      | .error message => some (state, .ended (.error message))
      | .ok _ => some (state, if alreadyPresent pool state.rows id then .ended (.ok ()) else .absent id value)
    else some (state, .ended (.error "User does not exist or device has no metadata."))
  | .absent id value => (nextCount state).map fun after => (after, .numbered id value after.count)
  | .numbered id value count =>
    let key := otkRowKey pool count id
    some ({ state with rows := state.rows.insert key value, stored := key :: state.stored }, .uploaded id value count)
  | .claiming wanted => (nextCount state).map fun after => (after, .scanning wanted)
  | .scanning wanted =>
    match oldest pool state.rows wanted with
    | some row => some (state, .found row)
    | none => some (state, .ended (.error "No one-time-key found"))
  | .found row => some ({ state with rows := state.rows.erase row.1 }, .taken row)
  | .uploaded .. | .taken _ | .ended _ => none

def step (pool : Bytes) : System Pool Call → Act Request Unit → Option (System Pool Call) :=
  Interleave.step opens (advance pool)

def empty (count : Nat) : Pool := ⟨∅, count, []⟩

def start (count : Nat) : System Pool Call := ⟨empty count, []⟩

def holding : Call → Option Bytes
  | .found row => some row.1
  | _ => none

def Unheld (pool : Bytes) (state : Pool) (call other : Call) : Prop :=
  match call with
  | .scanning wanted => ∀ row ∈ oldest pool state.rows wanted, row.1 ∉ holding other
  | _ => True

instance (pool : Bytes) (state : Pool) (call other : Call) : Decidable (Unheld pool state call other) := match call with
  | .scanning wanted => inferInstanceAs (Decidable (∀ row ∈ oldest pool state.rows wanted, row.1 ∉ holding other))
  | .uploading .. | .absent .. | .numbered .. | .uploaded .. | .claiming _ | .found _ | .taken _ | .ended _ =>
    isTrue trivial

def Unused {L : Type} (label : Bytes → L) (pool : Bytes) (state : Pool) : Call → Prop
  | .numbered id _ count => ∀ key ∈ state.stored, label key ≠ label (otkRowKey pool count id)
  | _ => True

instance {L : Type} [DecidableEq L] (label : Bytes → L) (pool : Bytes) (state : Pool) :
    DecidablePred (Unused label pool state) := fun call =>
  match call with
  | .numbered id _ count =>
    inferInstanceAs (Decidable (∀ key ∈ state.stored, label key ≠ label (otkRowKey pool count id)))
  | .uploading .. | .absent .. | .scanning _ | .uploaded .. | .claiming _ | .found _ | .taken _ | .ended _ =>
    isTrue trivial

variable {wanted : Bytes} {row : Bytes × Bytes}

section

variable {pool : Bytes} {state after : Pool} {call moved : Call}

inductive Moves (pool : Bytes) (state : Pool) : Call → Pool → Call → Prop where
  | finish (call : Call) (result : Except String Unit) : Moves pool state call state (.ended result)
  | check (id value : Bytes) (known : Bool) (json : Except String Unit) : Moves pool state (.uploading id value known json) state (.absent id value)
  | number (id value : Bytes) (room : state.count + 1 < 2 ^ 64) :
      Moves pool state (.absent id value) { state with count := state.count + 1 } (.numbered id value (state.count + 1))
  | put (id value : Bytes) (count : Nat) :
      Moves pool state (.numbered id value count)
        { state with rows := state.rows.insert (otkRowKey pool count id) value, stored := otkRowKey pool count id :: state.stored } (.uploaded id value count)
  | claim (wanted : Bytes) (room : state.count + 1 < 2 ^ 64) : Moves pool state (.claiming wanted) { state with count := state.count + 1 } (.scanning wanted)
  | find (wanted : Bytes) (row : Bytes × Bytes) (held : state.rows[row.1]? = some row.2) (first : oldest pool state.rows wanted = some row) :
      Moves pool state (.scanning wanted) state (.found row)
  | delete (row : Bytes × Bytes) : Moves pool state (.found row) { state with rows := state.rows.erase row.1 } (.taken row)

theorem next_count_some (counted : nextCount state = some after) :
    state.count + 1 < 2 ^ 64 ∧ after = { state with count := state.count + 1 } := by
  rw [nextCount] at counted
  split at counted
  case isTrue room => exact ⟨room, (some.inj counted).symm⟩
  case isFalse => cases counted

theorem oldest_held (first : oldest pool state.rows wanted = some row) : state.rows[row.1]? = some row.2 :=
  ((prefix_scan_row state.rows pool row).mp (List.mem_of_find?_eq_some first)).1

theorem advance_moves (advanced : advance pool () state call = some (after, moved)) :
    Moves pool state call after moved := by
  cases call with
  | uploading id value known json =>
    cases known with
    | false =>
      cases advanced
      exact .finish _ _
    | true =>
      cases json with
      | error message =>
        cases advanced
        exact .finish _ _
      | ok accepted =>
        rw [advance, if_pos rfl] at advanced
        split at advanced
        · cases advanced
          exact .finish _ _
        · cases advanced
          exact .check id value _ _
  | absent id value =>
    obtain ⟨counted, numbered, same⟩ := map_eq_some_iff.mp advanced
    obtain ⟨room, rfl⟩ := next_count_some numbered
    cases same
    exact .number id value room
  | numbered id value count =>
    cases advanced
    exact .put id value count
  | claiming wanted =>
    obtain ⟨counted, numbered, same⟩ := map_eq_some_iff.mp advanced
    obtain ⟨room, rfl⟩ := next_count_some numbered
    cases same
    exact .claim wanted room
  | scanning wanted =>
    rw [advance] at advanced
    split at advanced
    next row first =>
      cases advanced
      exact .find wanted row (oldest_held first) first
    next =>
      cases advanced
      exact .finish _ _
  | found row =>
    cases advanced
    exact .delete row
  | uploaded id value count => cases advanced
  | taken row => cases advanced
  | ended result => cases advanced

end

section

variable {L : Type} {label : Bytes → L} {pool : Bytes} {state : Pool}

def claimed : Call → Option Bytes
  | .found row | .taken row => some row.1
  | _ => none

structure Labelled (label : Bytes → L) (state : Pool) : Prop where
  put : ∀ key value, state.rows[key]? = some value → key ∈ state.stored
  single : ∀ key value other otherValue, state.rows[key]? = some value → state.rows[other]? = some otherValue →
    label key = label other → key = other

def Claims (label : Bytes → L) (state : Pool) : Call → Prop
  | .found row =>
    row.1 ∈ state.stored ∧ ∀ key value, state.rows[key]? = some value → label key = label row.1 → key = row.1
  | .taken row => row.1 ∈ state.stored ∧ ∀ key value, state.rows[key]? = some value → label key ≠ label row.1
  | _ => True

def Apart (label : Bytes → L) (call other : Call) : Prop :=
  ∀ key ∈ claimed call, ∀ another ∈ claimed other, label key ≠ label another

theorem empty_labelled {count : Nat} : Labelled label (empty count) where
  put := fun key value held => by simp [empty] at held
  single := fun key value other otherValue held => by simp [empty] at held

theorem labelled_insert (labelled : Labelled label state) {key value : Bytes}
    (unused : ∀ other ∈ state.stored, label other ≠ label key) :
    Labelled label { state with rows := state.rows.insert key value, stored := key :: state.stored } := by
  have origin : ∀ other held, (state.rows.insert key value)[other]? = some held → other = key ∨
    ∃ before, state.rows[other]? = some before := by
    intro other held read
    by_cases same : other = key
    · exact .inl same
    · rw [insert_elsewhere same] at read
      exact .inr ⟨held, read⟩
  refine ⟨fun other held read => ?_, fun one oneValue two twoValue readOne readTwo equal => ?_⟩
  · rcases origin other held read with rfl | ⟨before, present⟩
    · exact mem_cons_self
    · exact mem_cons_of_mem key (labelled.put other before present)
  · rcases origin one oneValue readOne with rfl | ⟨beforeOne, presentOne⟩
    · rcases origin two twoValue readTwo with rfl | ⟨beforeTwo, presentTwo⟩
      · rfl
      · exact absurd equal.symm (unused two (labelled.put two beforeTwo presentTwo))
    · rcases origin two twoValue readTwo with rfl | ⟨beforeTwo, presentTwo⟩
      · exact absurd equal (unused one (labelled.put one beforeOne presentOne))
      · exact labelled.single one beforeOne two beforeTwo presentOne presentTwo equal

theorem labelled_erase (labelled : Labelled label state) {key : Bytes} :
    Labelled label { state with rows := state.rows.erase key } where
  put := fun other value held => labelled.put other value (erase_source held)
  single := fun one oneValue two twoValue readOne readTwo equal =>
    labelled.single one oneValue two twoValue (erase_source readOne) (erase_source readTwo) equal

variable {call : Call}

theorem claims_insert (claims : Claims label state call) {key value : Bytes}
    (unused : ∀ other ∈ state.stored, label other ≠ label key) :
    Claims label { state with rows := state.rows.insert key value, stored := key :: state.stored } call := by
  have old : ∀ row : Bytes × Bytes, row.1 ∈ state.stored →
    ∀ other held, (state.rows.insert key value)[other]? = some held →
      label other = label row.1 → state.rows[other]? = some held := by
    intro row put other held read equal
    have different : other ≠ key := fun same => unused row.1 put (same ▸ equal.symm)
    rwa [insert_elsewhere different] at read
  cases call with
  | found row =>
    exact ⟨mem_cons_of_mem key claims.1, fun other held read equal =>
      claims.2 other held (old row claims.1 other held read equal) equal⟩
  | taken row =>
    exact ⟨mem_cons_of_mem key claims.1, fun other held read equal =>
      claims.2 other held (old row claims.1 other held read equal) equal⟩
  | _ => trivial

theorem claims_erase (claims : Claims label state call) {key : Bytes} :
    Claims label { state with rows := state.rows.erase key } call := by
  cases call with
  | found row => exact ⟨claims.1, fun other held read => claims.2 other held (erase_source read)⟩
  | taken row => exact ⟨claims.1, fun other held read => claims.2 other held (erase_source read)⟩
  | _ => trivial

theorem unclaimed_apart {other : Call} (unclaimed : claimed call = none) : Apart label call other := by
  intro key held
  rw [unclaimed] at held
  cases held

theorem find_apart (held : state.rows[row.1]? = some row.2)
    (first : oldest pool state.rows wanted = some row) {other : Call} (claims : Claims label state other)
    (unheld : Unheld pool state (.scanning wanted) other) : Apart label (.found row) other := by
  intro key own another theirs equal
  cases own
  cases other with
  | found otherRow =>
    cases theirs
    have same : row.1 = otherRow.1 := claims.2 row.1 row.2 held equal
    exact unheld row first (congrArg some same.symm)
  | taken otherRow =>
    cases theirs
    exact claims.2 row.1 row.2 held equal
  | _ => cases theirs

theorem label_rule : Noninterfering opens (advance pool) (Labelled label) (Claims label) (Apart label)
    (Unused label pool) (Unheld pool) where
  symm := fun call other apart key held another theirs equal => apart another theirs key held equal.symm
  opened := fun state request call fresh => by
    cases request <;> cases fresh <;> exact ⟨trivial, fun other => unclaimed_apart rfl⟩
  moves := fun input state call after moved advanced labelled claims unused => by
    cases advance_moves advanced with
    | finish call result => exact ⟨labelled, trivial⟩
    | check id value known json => exact ⟨labelled, trivial⟩
    | number id value room => exact ⟨⟨labelled.put, labelled.single⟩, trivial⟩
    | put id value count => exact ⟨labelled_insert labelled unused, trivial⟩
    | claim wanted room => exact ⟨⟨labelled.put, labelled.single⟩, trivial⟩
    | find wanted row held first =>
      exact ⟨labelled, labelled.put _ _ held, fun key value read => labelled.single key value row.1 row.2 read held⟩
    | delete row =>
      refine ⟨labelled_erase labelled, claims.1, fun key value read equal => ?_⟩
      exact erase_apart read (claims.2 key value (erase_source read) equal)
  others := fun input state call after moved other advanced labelled claims unused claimsOther apart unheld => by
    cases advance_moves advanced with
    | finish call result => exact ⟨claimsOther, unclaimed_apart rfl⟩
    | check id value known json => exact ⟨claimsOther, unclaimed_apart rfl⟩
    | number id value room =>
      refine ⟨?_, unclaimed_apart rfl⟩
      cases other <;> exact claimsOther
    | put id value count => exact ⟨claims_insert claimsOther unused, unclaimed_apart rfl⟩
    | claim wanted room =>
      refine ⟨?_, unclaimed_apart rfl⟩
      cases other <;> exact claimsOther
    | find wanted row held first => exact ⟨claimsOther, find_apart held first claimsOther unheld⟩
    | delete row => exact ⟨claims_erase claimsOther, apart⟩

theorem row_key_injective {count other : Nat} {id otherId : Bytes} (fits : count < 2 ^ 64) (otherFits : other < 2 ^ 64)
    (same : otkRowKey pool count id = otkRowKey pool other otherId) : count = other := by
  have tails : toBytes 8 count ++ Database.SEP :: id = toBytes 8 other ++ Database.SEP :: otherId :=
    append_cancel_left same
  have numbers := (append_inj tails (by rw [to_bytes_length, to_bytes_length])).1
  have read : ofBytes (toBytes 8 count) = ofBytes (toBytes 8 other) := congrArg ofBytes numbers
  rwa [of_to_bytes_of_lt fits, of_to_bytes_of_lt otherFits] at read

structure Numbered (pool : Bytes) (state : Pool) : Prop where
  fits : state.count < 2 ^ 64
  given : ∀ key ∈ state.stored, ∃ count id, count ≤ state.count ∧ key = otkRowKey pool count id

def Numbers (pool : Bytes) (state : Pool) : Call → Prop
  | .numbered id _ count => count ≤ state.count ∧ otkRowKey pool count id ∉ state.stored
  | _ => True

def numberOf : Call → Option Nat
  | .numbered _ _ count => some count
  | _ => none

def Different (call other : Call) : Prop := ∀ count ∈ numberOf call, count ∉ numberOf other

theorem unnumbered_different {other : Call} (unnumbered : numberOf call = none) : Different call other := by
  intro count held
  rw [unnumbered] at held
  cases held

theorem counted_numbers (numbers : Numbers pool state call) :
    Numbers pool { state with count := state.count + 1 } call := by
  cases call with
  | numbered id value count => exact ⟨Nat.le_succ_of_le numbers.1, numbers.2⟩
  | _ => trivial

theorem counted_numbered (numbered : Numbered pool state) (room : state.count + 1 < 2 ^ 64) :
    Numbered pool { state with count := state.count + 1 } := by
  refine ⟨room, fun key member => ?_⟩
  obtain ⟨count, id, below, rfl⟩ := numbered.given key member
  exact ⟨count, id, Nat.le_succ_of_le below, rfl⟩

theorem new_number_unused (numbered : Numbered pool state) (room : state.count + 1 < 2 ^ 64) {id : Bytes} :
    otkRowKey pool (state.count + 1) id ∉ state.stored := by
  intro member
  obtain ⟨count, other, below, same⟩ := numbered.given _ member
  have equal := row_key_injective room (by omega) same
  omega

theorem number_rule : Noninterfering opens (advance pool) (Numbered pool) (Numbers pool) Different (fun _ _ => True)
    (fun _ _ _ => True) where
  symm := fun call other different count theirs own => different count own theirs
  opened := fun state request call fresh => by
    cases request <;> cases fresh <;> exact ⟨trivial, fun other => unnumbered_different rfl⟩
  moves := fun input state call after moved advanced numbered numbers _ => by
    cases advance_moves advanced with
    | finish call result => exact ⟨numbered, trivial⟩
    | check id value known json => exact ⟨numbered, trivial⟩
    | number id value room => exact ⟨counted_numbered numbered room, le_rfl, new_number_unused numbered room⟩
    | put id value count =>
      refine ⟨⟨numbered.fits, fun key member => ?_⟩, trivial⟩
      rcases mem_cons.mp member with rfl | before
      · exact ⟨count, id, numbers.1, rfl⟩
      · exact numbered.given key before
    | claim wanted room => exact ⟨counted_numbered numbered room, trivial⟩
    | find wanted row held first => exact ⟨numbered, trivial⟩
    | delete row => exact ⟨⟨numbered.fits, numbered.given⟩, trivial⟩
  others := fun input state call after moved other advanced numbered numbers _ numbersOther different _ => by
    cases advance_moves advanced with
    | finish call result => exact ⟨numbersOther, unnumbered_different rfl⟩
    | check id value known json => exact ⟨numbersOther, unnumbered_different rfl⟩
    | number id value room =>
      refine ⟨counted_numbers numbersOther, fun count own theirs => ?_⟩
      cases own
      cases other with
      | numbered otherId otherValue otherCount =>
        cases theirs
        exact Nat.not_succ_le_self _ numbersOther.1
      | _ => cases theirs
    | put id value count =>
      refine ⟨?_, unnumbered_different rfl⟩
      cases other with
      | numbered otherId otherValue otherCount =>
        refine ⟨numbersOther.1, fun member => ?_⟩
        rcases mem_cons.mp member with same | before
        · have equal := row_key_injective (Nat.lt_of_le_of_lt numbersOther.1 numbered.fits) (Nat.lt_of_le_of_lt numbers.1 numbered.fits) same
          exact different count rfl (congrArg some equal)
        · exact numbersOther.2 before
      | _ => trivial
    | claim wanted room => exact ⟨counted_numbers numbersOther, unnumbered_different rfl⟩
    | find wanted row held first => exact ⟨numbersOther, unnumbered_different rfl⟩
    | delete row =>
      refine ⟨?_, unnumbered_different rfl⟩
      cases other <;> exact numbersOther

variable {count : Nat} {acts : List (Act Request Unit)} {last : System Pool Call}

def Alone (pool : Bytes) : System Pool Call → Act Request Unit → Prop := Meets (fun _ _ => True) (Unheld pool)

def NewLabel {L : Type} (label : Bytes → L) (pool : Bytes) : System Pool Call → Act Request Unit → Prop :=
  Meets (Unused label pool) fun _ _ _ => True

instance (pool : Bytes) (system : System Pool Call) (act : Act Request Unit) : Decidable (Alone pool system act) :=
  inferInstanceAs (Decidable (Meets _ _ system act))

instance {L : Type} [DecidableEq L] (label : Bytes → L) (pool : Bytes) (system : System Pool Call)
    (act : Act Request Unit) : Decidable (NewLabel label pool system act) :=
  inferInstanceAs (Decidable (Meets _ _ system act))

theorem rows_new (fits : count < 2 ^ 64) : AllMeet (step pool) (NewLabel id pool) (start count) acts := by
  have preserved : ∀ system act next, Proper (Numbered pool) (Numbers pool) Different system →
    step pool system act = some next →
      Proper (Numbered pool) (Numbers pool) Different next := by
    intro system act next proper stepped
    refine step_proper number_rule proper ?_ stepped
    cases act with
    | call opened => trivial
    | advance id input => exact fun call held => ⟨trivial, fun other member => trivial⟩
  have implied : ∀ system act, Proper (Numbered pool) (Numbers pool) Different system →
    NewLabel id pool system act := by
    intro system act proper
    cases act with
    | call opened => trivial
    | advance at' input =>
      intro call held
      refine ⟨?_, fun other member => trivial⟩
      cases call with
      | numbered id value count =>
        intro key member same
        have absent := (proper.owned at' _ held).2
        rw [show key = otkRowKey pool count id from same] at member
        exact absent member
      | _ => trivial
  exact all_meet_of_invariant preserved implied (start_proper ⟨fits, fun key member => absurd member not_mem_nil⟩) acts

theorem labels_returned_once (ran : runs (step pool) (start count) acts = some last)
    (alone : AllMeet (step pool) (Alone pool) (start count) acts)
    (new : AllMeet (step pool) (NewLabel label pool) (start count) acts) {first second : Nat}
    (different : first ≠ second) {other : Bytes × Bytes} (taken : last.calls[first]? = some (.taken row))
    (takenOther : last.calls[second]? = some (.taken other)) : label row.1 ≠ label other.1 := by
  have both : AllMeet (step pool) (Meets (Unused label pool) (Unheld pool)) (start count) acts := by
    refine all_meet_mono (fun system act met => ?_) (all_meet_both alone new)
    cases act with
    | call opened => trivial
    | advance id input => exact fun call held => ⟨(met.2 call held).1, (met.1 call held).2⟩
  have proper := runs_proper label_rule empty_labelled both ran
  exact proper.separate first second _ _ different taken takenOther row.1 rfl other.1 rfl

end

theorem one_time_keys_used_once (pool : Bytes) (count : Nat) (fits : count < 2 ^ 64) (acts : List (Act Request Unit))
    (last : System Pool Call) (ran : runs (step pool) (start count) acts = some last)
    (alone : AllMeet (step pool) (Alone pool) (start count) acts) (first second : Nat) (different : first ≠ second)
    (row other : Bytes × Bytes) (taken : last.calls[first]? = some (.taken row))
    (takenOther : last.calls[second]? = some (.taken other)) :
    row.1 ≠ other.1 ∧ (AllMeet (step pool) (NewLabel (rowId pool) pool) (start count) acts →
    rowId pool row.1 ≠ rowId pool other.1) :=
  ⟨labels_returned_once ran alone (rows_new fits) different taken takenOther, fun new =>
    labels_returned_once ran alone new different taken takenOther⟩

def samplePool : Bytes := [117, 255, 100, 255]

def takesInTurn : List (Act Request Unit) :=
  [.call (.addOneTimeKey [97, 58, 49] [1] true (.ok ())), .call (.addOneTimeKey [97, 58, 50] [2] true (.ok ())),
    .advance 0 (), .advance 1 (), .advance 1 (), .advance 0 (),
    .advance 0 (), .advance 1 (), .call (.takeOneTimeKey [97]), .call (.takeOneTimeKey [97]), .advance 2 (),
      .advance 3 (), .advance 3 (), .advance 3 (), .advance 2 (), .advance 2 ()]

theorem takes_in_turn_run : (runs (step samplePool) (start 0) takesInTurn).isSome = true := by decide +kernel

theorem takes_in_turn_differ : otkRowKey samplePool 2 [97, 58, 49] ≠ otkRowKey samplePool 1 [97, 58, 50] ∧
      rowId samplePool (otkRowKey samplePool 2 [97, 58, 49]) ≠ rowId samplePool (otkRowKey samplePool 1 [97, 58, 50]) := by
  have once := one_time_keys_used_once samplePool 0 (by decide) takesInTurn _ (some_get takes_in_turn_run).symm
    (by decide +kernel) 2 3 (by decide)
    (otkRowKey samplePool 2 [97, 58, 49], [1]) (otkRowKey samplePool 1 [97, 58, 50], [2]) (by decide +kernel) (by decide +kernel)
  exact ⟨once.1, once.2 (by decide +kernel)⟩

def returned (pool : Bytes) (system : System Pool Call) : List (Bytes × Bytes) := system.calls.filterMap fun call =>
    match call with
    | .taken row => some (rowId pool row.1, row.2)
    | _ => none

def takesTogether : List (Act Request Unit) :=
  [.call (.addOneTimeKey [97, 58, 49] [1] true (.ok ())), .advance 0 (), .advance 0 (), .advance 0 (),
    .call (.takeOneTimeKey [97]), .call (.takeOneTimeKey [97]),
    .advance 1 (), .advance 2 (), .advance 1 (), .advance 2 (), .advance 1 (), .advance 2 ()]

theorem takes_together_share : (runs (step samplePool) (start 0) takesTogether).map (returned samplePool) = some
    [([97, 58, 49], [1]), ([97, 58, 49], [1])] := by
  decide +kernel

end GaussMatrix.Users.OneTimeKeys

import GaussMatrix.Fed.Delivery

namespace GaussMatrix.Fed

open Collections List Option Runs Std.ExtTreeMap Store

def returned : Call → List Queued
  | .draining .. => []
  | .sending _ returned => returned
  | .done returned => returned

theorem returned_collected {call : Call} : ∀ entry ∈ returned call, entry ∈ collected call := by
  intro entry member
  cases call with
  | draining path drain => cases member
  | sending batches returned => exact member
  | done returned => exact member

def nextDestination : Call → Option Destination
  | .draining _ drain => drain.due.head?
  | _ => none

def Alone (state : Scheduler) : Act → Prop
  | .queue .. => state.seq < 2 ^ 64
  | .scan id _ =>
    ∀ other < state.calls.length, other ≠ id → ∀ row ∈ scannedRows (callAt state other),
    ∀ destination ∈ nextDestination (callAt state id), ¬ queuePrefix destination <+: row.1
  | _ => True

instance (state : Scheduler) : DecidablePred (Alone state) := fun act =>
  match act with
  | .queue .. => inferInstanceAs (Decidable (state.seq < 2 ^ 64))
  | .scan id _ =>
    inferInstanceAs (Decidable (∀ other < state.calls.length, other ≠ id → ∀ row ∈ scannedRows (callAt state other),
      ∀ destination ∈ nextDestination (callAt state id), ¬ queuePrefix destination <+: row.1))
  | .put .. | .take _ | .drive .. | .delete .. | .dispatch .. => isTrue trivial

section

variable {outside : Outside} {state next : Scheduler}

structure Exclusive (state : Scheduler) : Prop where
  traced : Traced state
  once : ∀ id other, id ≠ other → ∀ entry ∈ collected (callAt state id), entry ∉ collected (callAt state other)
  gone : ∀ id, ∀ entry ∈ collected (callAt state id), ¬ Stored state entry
  present : ∀ id, ∀ row ∈ scannedRows (callAt state id), state.tree[row.1]? = some row.2
  nodup : ∀ id, (scannedRows (callAt state id)).Nodup
  apart : ∀ id other, id ≠ other → ∀ row ∈ scannedRows (callAt state id), row ∉ scannedRows (callAt state other)

theorem start_exclusive {seq : Nat} : Exclusive (start seq) where
  traced := start_traced
  once := fun _ _ _ _ member => by cases member
  gone := fun _ _ member => by cases member
  present := fun _ _ member => by cases member
  nodup := fun _ => nodup_nil
  apart := fun _ _ _ _ member => by cases member

theorem changes_apart {A : Type} {list : Call → List A} {id : Nat} {call : Call} (changes : Changes state next id call)
    (before : ∀ id other, id ≠ other → ∀ item ∈ list (callAt state id), item ∉ list (callAt state other))
    (here : ∀ other, other ≠ id → ∀ item ∈ list call, item ∉ list (callAt state other)) :
    ∀ one other, one ≠ other → ∀ item ∈ list (callAt next one), item ∉ list (callAt next other) := by
  intro one other different item member also
  by_cases isOne : one = id
  · subst isOne
    rw [changes_here changes] at member
    rw [changes_other changes different.symm] at also
    exact here other different.symm item member also
  · rw [changes_other changes isOne] at member
    by_cases isOther : other = id
    · subst isOther
      rw [changes_here changes] at also
      exact here one isOne item also member
    · rw [changes_other changes isOther] at also
      exact before one other different item member also

section

variable {id : Nat} {call : Call} (exclusive : Exclusive state) (traced : Traced next)
  (changes : Changes state next id call)
  (tree : next.tree = state.tree) (taken : ∀ entry ∈ collected call, entry ∈ collected (callAt state id))

include exclusive traced changes tree taken

theorem exclusive_of_call (present : ∀ row ∈ scannedRows call, state.tree[row.1]? = some row.2)
    (nodup : (scannedRows call).Nodup) (apart : ∀ other, other ≠ id →
    ∀ row ∈ scannedRows call, row ∉ scannedRows (callAt state other)) : Exclusive next := by
  refine ⟨traced, ?_, ?_, ?_, changes_all (fun call => (scannedRows call).Nodup) changes nodup exclusive.nodup,
    changes_apart changes exclusive.apart apart⟩
  · exact changes_apart changes exclusive.once fun other different entry member =>
      exclusive.once id other different.symm entry (taken entry member)
  · refine changes_all (fun call => ∀ entry ∈ collected call, ¬ Stored next entry) changes (fun entry member => ?_)
      fun other entry member => ?_
    · rw [Stored, tree]
      exact exclusive.gone id entry (taken entry member)
    · rw [Stored, tree]
      exact exclusive.gone other entry member
  · rw [tree]
    exact changes_all (fun call => ∀ row ∈ scannedRows call, state.tree[row.1]? = some row.2) changes present exclusive.present

theorem exclusive_of_idle (idle : scannedRows call = []) : Exclusive next := by
  refine exclusive_of_call exclusive traced changes tree taken ?_ ?_ ?_
  · rw [idle]
    exact nofun
  · rw [idle]
    exact nodup_nil
  · rw [idle]
    exact fun _ _ => nofun

end

theorem put_exclusive (exclusive : Exclusive state) {index : Nat} {entry : Queued} {written : Bool}
    (held : state.drawn[index]? = some entry) : Exclusive (put state index entry written) := by
  have traced := put_traced exclusive.traced held written
  cases written with
  | false => exact ⟨traced, exclusive.once, exclusive.gone, exclusive.present, exclusive.nodup, exclusive.apart⟩
  | true =>
    refine ⟨traced, exclusive.once, fun id entry member stored => ?_, fun id row member => ?_, exclusive.nodup, exclusive.apart⟩
    · obtain ⟨key, read⟩ := stored
      rcases put_source read with before | ⟨_, same⟩
      · exact exclusive.gone id entry member ⟨key, before⟩
      · exact drawn_apart exclusive.traced held (exclusive.traced.taken id entry member) (congrArg Queued.number same)
    · exact put_keeps exclusive.traced held (exclusive.present id row member)

theorem scan_exclusive (exclusive : Exclusive state) {id : Nat} {scanned : Bool} (traced : Traced next)
    (alone : Alone state (.scan id scanned))
    (stepped : step outside state (.scan id scanned) = some next) : Exclusive next := by
  obtain ⟨path, destination, rest, items, batches, held, rfl⟩ := step_scan stepped
  have here := call_at_held held
  cases scanned with
  | false => exact exclusive_of_idle exclusive traced (become_changes state held _) rfl (forall_mem_nil _) rfl
  | true =>
    refine exclusive_of_call exclusive traced (become_changes state held _) rfl ?_ ?_ ?_ ?_
    · intro entry member
      rw [if_pos rfl, collected_drain_rows] at member
      rw [here]
      exact member
    · intro row member
      rw [if_pos rfl, scanned_rows_drain_rows] at member
      exact ((prefix_scan_row _ _ row).mp member).1
    · rw [if_pos rfl, scanned_rows_drain_rows]
      exact prefix_scan_nodup _ _
    · intro other different row member also
      rw [if_pos rfl, scanned_rows_drain_rows] at member
      have inside : other < state.calls.length := by
        refine Nat.lt_of_not_le fun beyond => ?_
        rw [callAt, getElem?_eq_none beyond] at also
        cases also
      refine alone other inside different row also destination ?_ ((prefix_scan_row _ _ row).mp member).2
      rw [here]
      rfl

theorem delete_exclusive (exclusive : Exclusive state) {id : Nat} (traced : Traced next)
    (stepped : step outside state (.delete id true) = some next) : Exclusive next := by
  obtain ⟨path, destination, rest, row, rows, items, batches, held, after⟩ := step_delete stepped
  rw [if_pos rfl] at after
  subst after
  have here := call_at_held held
  have rowsHere : scannedRows (callAt state id) = row :: rows := by rw [here]; rfl
  have takenHere : collected (callAt state id) = allItems batches ++ items := by rw [here]; rfl
  have present := exclusive.present id
  have nodup := exclusive.nodup id
  have apart := exclusive.apart id
  rw [rowsHere] at present nodup apart
  have read := present row mem_cons_self
  have genuine := exclusive.traced.stored row read
  have changes := become_changes { state with tree := state.tree.erase row.1 } held
    (drainRows path destination rest rows (items ++ [row.2]) batches)
  have left : ∀ other : Row, state.tree[other.1]? = some other.2 → other ≠ row →
    (state.tree.erase row.1)[other.1]? = some other.2 := by
    intro other otherRead different
    refine (getElem?_erase.trans (if_neg fun equal => different ?_)).trans otherRead
    exact genuine_unique exclusive.traced (exclusive.traced.stored other otherRead) genuine (Std.LawfulEqOrd.eq_of_compare equal).symm
  have split : ∀ entry ∈ allItems batches ++ (items ++ [row.2]), entry ∈ collected (callAt state id) ∨
    entry = row.2 := by
    intro entry member
    rw [← append_assoc, ← takenHere] at member
    rcases mem_append.mp member with before | last
    · exact .inl before
    · exact .inr (mem_singleton.mp last)
  refine ⟨traced, ?_, ?_, ?_, ?_, ?_⟩
  · refine changes_apart changes exclusive.once fun other different entry member also => ?_
    rw [collected_drain_rows] at member
    rcases split entry member with before | same
    · exact exclusive.once id other different.symm entry before also
    · exact exclusive.gone other entry also ⟨row.1, by rw [read, same]⟩
  · refine changes_all (fun call => ∀ entry ∈ collected call, ¬ Stored { state with tree := state.tree.erase row.1 } entry) changes ?_ ?_
    · intro entry member stored
      obtain ⟨key, still⟩ := stored
      rw [collected_drain_rows] at member
      rcases split entry member with before | same
      · exact exclusive.gone id entry before ⟨key, erase_source still⟩
      · have found : state.tree[key]? = some entry := erase_source still
        have sameKey : key = row.1 := (exclusive.traced.stored (key, entry) found).2.trans (same ▸ genuine.2.symm)
        rw [sameKey] at still
        exact nomatch (getElem?_erase_self.symm.trans still)
    · intro other entry member stored
      obtain ⟨key, still⟩ := stored
      exact exclusive.gone other entry member ⟨key, erase_source still⟩
  · intro other otherRow member
    by_cases same : other = id
    · rw [same, changes_here changes, scanned_rows_drain_rows] at member
      refine left otherRow (present otherRow (mem_cons_of_mem row member)) fun equal => ?_
      exact (nodup_cons.mp nodup).1 (equal ▸ member)
    · rw [changes_other changes same] at member
      refine left otherRow (exclusive.present other otherRow member) fun equal => ?_
      exact apart other (Ne.symm same) row mem_cons_self (equal ▸ member)
  · refine changes_all (fun call => (scannedRows call).Nodup) changes ?_ exclusive.nodup
    rw [scanned_rows_drain_rows]
    exact (nodup_cons.mp nodup).2
  · refine changes_apart changes exclusive.apart fun other different otherRow member => ?_
    rw [scanned_rows_drain_rows] at member
    exact apart other different.symm otherRow (mem_cons_of_mem row member)

theorem step_exclusive {act : Act} (exclusive : Exclusive state) (alone : Alone state act)
    (stepped : step outside state act = some next) : Exclusive next := by
  have room : Unwrapped state act := by
    cases act with
    | queue destination item => exact alone
    | _ => trivial
  have traced := step_traced exclusive.traced room stepped
  cases act with
  | queue destination item =>
    cases stepped
    exact ⟨traced, exclusive.once, exclusive.gone, exclusive.present, exclusive.nodup, exclusive.apart⟩
  | put index written =>
    obtain ⟨entry, held, rfl⟩ := step_put stepped
    exact put_exclusive exclusive held
  | take destination =>
    cases stepped
    exact exclusive_of_idle exclusive traced (begin_changes state) rfl (forall_mem_nil _) rfl
  | drive now scanned =>
    cases stepped
    refine exclusive_of_idle exclusive traced (begin_changes state) rfl (fun entry member => ?_) scanned_rows_drain_due
    rw [collected_drain_due] at member
    cases member
  | scan id scanned => exact scan_exclusive exclusive traced alone stepped
  | delete id deleted =>
    cases deleted with
    | true => exact delete_exclusive exclusive traced stepped
    | false =>
      obtain ⟨path, destination, rest, row, rows, items, batches, held, rfl⟩ := step_delete stepped
      exact exclusive_of_idle exclusive traced (become_changes state held _) rfl (forall_mem_nil _) rfl
  | dispatch id now sent =>
    obtain ⟨destination, items, rest, returned, held, rfl⟩ := step_dispatch stepped
    refine exclusive_of_idle exclusive traced (become_changes _ held _) rfl (fun entry member => ?_) scanned_rows_send
    rw [collected_send] at member
    rw [call_at_held held]
    exact member

end

theorem drains_return_apart (outside : Outside) (seq : Nat) (acts : List Act) (last : Scheduler)
    (ran : runs (step outside) (start seq) acts = some last)
    (alone : AllMeet (step outside) Alone (start seq) acts) (id other : Nat) (different : id ≠ other) :
    ∀ entry ∈ returned (callAt last id), entry ∉ returned (callAt last other) := by
  have exclusive := runs_meeting_invariant (fun state act next holds meets stepped =>
    step_exclusive holds meets stepped) start_exclusive alone ran
  intro entry member also
  exact exclusive.once id other different entry (returned_collected entry member) (returned_collected entry also)

-- The row with the second number is put first.
def takeThenDrive : List Act :=
  [.queue [104] [1], .queue [104] [2], .put 1 true, .take [104], .scan 0 true, .delete 0 true,
    .put 0 true, .drive 0 true,
    .scan 1 true, .delete 1 true]

theorem take_then_drive_run : (runs (step anything) (start 1) takeThenDrive).isSome = true := by decide +kernel

theorem take_then_drive_apart :
    returned (callAt ((runs (step anything) (start 1) takeThenDrive).get take_then_drive_run) 0) = [⟨2, [104], [2]⟩] ∧
      returned (callAt ((runs (step anything) (start 1) takeThenDrive).get take_then_drive_run) 1) = [⟨1, [104], [1]⟩] ∧
      ∀ entry ∈ returned (callAt ((runs (step anything) (start 1) takeThenDrive).get take_then_drive_run) 0),
        entry ∉ returned (callAt ((runs (step anything) (start 1) takeThenDrive).get take_then_drive_run) 1) := by
  refine ⟨by decide +kernel, by decide +kernel, ?_⟩
  exact drains_return_apart anything 1 takeThenDrive _ (some_get take_then_drive_run).symm
    (by decide +kernel) 0 1 (by decide)

def bothScan : List Act := [.queue [104] [1], .put 0 true, .take [104], .drive 0 true, .scan 0 true, .scan 1 true,
    .delete 0 true, .delete 1 true]

theorem overlapping_drains_return_twice :
    ((runs (step anything) (start 1) bothScan).map fun last => (returned (callAt last 0), returned (callAt last 1))) =
      some ([⟨1, [104], [1]⟩], [⟨1, [104], [1]⟩]) := by
  decide +kernel

end GaussMatrix.Fed

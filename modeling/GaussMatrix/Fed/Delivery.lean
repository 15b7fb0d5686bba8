import GaussMatrix.Fed.Queue

namespace GaussMatrix.Fed

open Collections List Option Runs Std.ExtTreeMap Store

def Stored (state : Scheduler) (entry : Queued) : Prop := ∃ key : Bytes, state.tree[key]? = some entry

def Safe (state : Scheduler) : Prop := ∀ entry ∈ state.queued, Stored state entry ∨ entry ∈ state.delivered

def unsent : Call → List Queued
  | .draining _ drain => allItems drain.batches ++ drain.items
  | .sending batches _ => allItems batches
  | .done _ => []

variable {call : Call} {health : Health} {now : Nat} {act : Act} {seq index : Nat} {item : Bytes} {written : Bool}

section

variable {destination : Destination} {rest due : List Destination} {rows : List Row} {items returned : List Queued}
  {batches : List Batch}

theorem unsent_send : unsent (send batches returned) = allItems batches := by
  cases batches <;> rfl

theorem unsent_drain_due : unsent (drainDue .drive due batches) = allItems batches := by
  cases due with
  | nil => exact unsent_send
  | cons first later => exact append_nil _

theorem unsent_drain_rows :
    unsent (drainRows .drive destination rest rows items batches) = allItems batches ++ items := by
  cases rows with
  | nil => exact unsent_drain_due.trans all_items_push
  | cons row later => rfl

variable {outside : Outside} {state next : Scheduler}

def Deletes : Act → Prop
  | .delete _ deleted => deleted = true
  | _ => False

instance : DecidablePred Deletes := fun act =>
  match act with
  | .delete _ deleted => inferInstanceAs (Decidable (deleted = true))
  | .queue .. | .put .. | .take _ | .drive .. | .scan .. | .dispatch .. => isFalse id

structure Untouched (state : Scheduler) : Prop where
  traced : Traced state
  stored : ∀ entry ∈ state.queued, Stored state entry
  delivered : state.delivered = []
  held : ∀ id, collected (callAt state id) = [] ∧ unsent (callAt state id) = []
  scanned : ∀ id, ∀ row ∈ scannedRows (callAt state id), state.tree[row.1]? = some row.2

theorem start_untouched : Untouched (start seq) where
  traced := start_traced
  stored := nofun
  delivered := rfl
  held := fun id => ⟨rfl, rfl⟩
  scanned := fun id row member => by cases member

theorem drain_rows_empty {path : Path} (empty : allItems batches ++ items = []) :
    collected (drainRows path destination rest rows items batches) = [] ∧
    unsent (drainRows path destination rest rows items batches) = [] := by
  refine ⟨collected_drain_rows.trans empty, ?_⟩
  cases path with
  | drive => exact unsent_drain_rows.trans empty
  | take =>
    cases rows with
    | cons row later => exact empty
    | nil =>
      cases rest with
      | nil => rfl
      | cons first later => exact (append_nil _).trans (all_items_push.trans empty)

theorem untouched_of_call (untouched : Untouched state) (traced : Traced next) {id : Nat}
    (changes : Changes state next id call)
    (tree : next.tree = state.tree) (queued : next.queued = state.queued) (delivered : next.delivered = [])
    (empty : collected call = [] ∧ unsent call = [])
    (rows : ∀ row ∈ scannedRows call, state.tree[row.1]? = some row.2) : Untouched next := by
  refine ⟨traced, ?_, delivered,
    changes_all (fun call => collected call = [] ∧ unsent call = []) changes empty untouched.held, ?_⟩
  · intro entry member
    rw [queued] at member
    rw [Stored, tree]
    exact untouched.stored entry member
  · rw [tree]
    exact changes_all (fun call => ∀ row ∈ scannedRows call, state.tree[row.1]? = some row.2) changes rows untouched.scanned

theorem put_untouched (untouched : Untouched state) {entry : Queued} (held : state.drawn[index]? = some entry) :
    Untouched (put state index entry written) := by
  have traced := put_traced untouched.traced held written
  cases written with
  | false => exact ⟨traced, untouched.stored, untouched.delivered, untouched.held, untouched.scanned⟩
  | true =>
    refine ⟨traced, fun entry member => ?_, untouched.delivered, untouched.held, fun id row member =>
      put_keeps untouched.traced held (untouched.scanned id row member)⟩
    rcases mem_append.mp member with before | added
    · obtain ⟨key, read⟩ := untouched.stored entry before
      exact ⟨key, put_keeps untouched.traced held read⟩
    · rw [mem_singleton.mp added]
      exact ⟨_, put_stores⟩

theorem dispatch_within {sent : Bool} :
    ∀ entry ∈ (dispatch outside health destination items now sent).2, entry ∈ items := by
  intro entry member
  rw [dispatch] at member
  split at member
  · split at member
    · cases member
    · split at member
      · exact (mem_filter.mp member).1
      · cases member
  · cases member

theorem step_untouched (untouched : Untouched state) (room : Unwrapped state act) (spared : ¬ Deletes act)
    (stepped : step outside state act = some next) : Untouched next := by
  have traced := step_traced untouched.traced room stepped
  cases act with
  | queue destination item =>
    cases stepped
    exact ⟨traced, untouched.stored, untouched.delivered, untouched.held, untouched.scanned⟩
  | put index written =>
    obtain ⟨entry, held, rfl⟩ := step_put stepped
    exact put_untouched untouched held
  | take destination =>
    cases stepped
    exact untouched_of_call untouched traced (begin_changes state) rfl rfl untouched.delivered ⟨rfl, rfl⟩ (forall_mem_nil _)
  | drive now scanned =>
    cases stepped
    refine untouched_of_call untouched traced
      (begin_changes state) rfl rfl untouched.delivered ⟨collected_drain_due, unsent_drain_due⟩ fun row member => ?_
    rw [scanned_rows_drain_due] at member
    cases member
  | scan id scanned =>
    obtain ⟨path, destination, rest, items, batches, held, rfl⟩ := step_scan stepped
    have empty := (untouched.held id).1
    rw [call_at_held held] at empty
    cases scanned with
    | false => exact untouched_of_call untouched traced (become_changes state held _) rfl rfl untouched.delivered ⟨rfl, rfl⟩ (forall_mem_nil _)
    | true =>
      refine untouched_of_call untouched traced (become_changes state held _) rfl rfl untouched.delivered
        (drain_rows_empty empty) fun row member => ?_
      rw [if_pos rfl, scanned_rows_drain_rows] at member
      exact ((prefix_scan_row _ _ row).mp member).1
  | delete id deleted =>
    obtain ⟨path, destination, rest, row, rows, items, batches, held, rfl⟩ := step_delete stepped
    cases deleted with
    | false => exact untouched_of_call untouched traced (become_changes state held _) rfl rfl untouched.delivered ⟨rfl, rfl⟩ (forall_mem_nil _)
    | true => exact absurd rfl spared
  | dispatch id now sent =>
    obtain ⟨destination, items, rest, returned, held, rfl⟩ := step_dispatch stepped
    obtain ⟨noneCollected, noneUnsent⟩ := untouched.held id
    rw [call_at_held held] at noneCollected noneUnsent
    obtain ⟨noItems, noRest⟩ := append_eq_nil_iff.mp noneUnsent
    have nothing : (dispatch outside state.health destination items now sent).2 = [] := eq_nil_iff_forall_not_mem.mpr fun entry member => by
        have inside := dispatch_within entry member
        rw [show items = [] from noItems] at inside
        cases inside
    refine untouched_of_call untouched traced (become_changes _ held _) rfl rfl ?_ ⟨collected_send.trans noneCollected,
      unsent_send.trans noRest⟩ fun row member => ?_
    · rw [become, untouched.delivered, nothing]
      rfl
    · rw [scanned_rows_send] at member
      cases member

theorem first_delete_unsafe (untouched : Untouched state) {id : Nat}
    (stepped : step outside state (.delete id true) = some next) : ¬ Safe next := by
  obtain ⟨path, destination, rest, row, rows, items, batches, held, rfl⟩ := step_delete stepped
  have scanned := untouched.traced.scanned id row
  rw [call_at_held held] at scanned
  have genuine := scanned mem_cons_self
  intro safe
  rcases safe row.2 genuine.1 with ⟨key, read⟩ | sent
  · have before : state.tree[key]? = some row.2 := erase_source read
    have same : key = row.1 := (untouched.traced.stored (key, row.2) before).2.trans genuine.2.symm
    rw [same] at read
    exact nomatch (getElem?_erase_self.symm.trans read)
  · have early : row.2 ∈ state.delivered := sent
    rw [untouched.delivered] at early
    cases early

def Arrives (outside : Outside) (sent : Bool) : Call → Prop
  | .sending ((destination, items) :: _) _ =>
    outside.serverName destination = true ∧ (∀ entry ∈ items, outside.pduJson entry.item = true) ∧ sent = true
  | _ => True

instance (outside : Outside) (sent : Bool) : DecidablePred (Arrives outside sent) := fun call =>
  match call with
  | .sending ((destination, items) :: _) _ =>
    inferInstanceAs (Decidable (outside.serverName destination = true ∧ (∀ entry ∈ items, outside.pduJson entry.item = true) ∧ sent = true))
  | .sending [] _ | .draining .. | .done _ => isTrue trivial

def Careful (outside : Outside) (state : Scheduler) : Act → Prop
  | .queue .. => state.seq < 2 ^ 64
  | .take _ => False
  | .put .. | .drive .. => True
  | .scan id done | .delete id done => done = true ∨ unsent (callAt state id) = []
  | .dispatch id _ sent => Arrives outside sent (callAt state id)

instance (outside : Outside) (state : Scheduler) : DecidablePred (Careful outside state) := fun act =>
  match act with
  | .queue .. => inferInstanceAs (Decidable (state.seq < 2 ^ 64))
  | .take _ => isFalse id
  | .put .. | .drive .. => isTrue trivial
  | .scan id done | .delete id done => inferInstanceAs (Decidable (done = true ∨ unsent (callAt state id) = []))
  | .dispatch id _ sent => inferInstanceAs (Decidable (Arrives outside sent (callAt state id)))

structure Carried (state : Scheduler) : Prop where
  traced : Traced state
  driven : ∀ id drain, callAt state id ≠ .draining .take drain
  kept : ∀ entry ∈ state.queued, Stored state entry ∨ entry ∈ state.delivered ∨ ∃ id, entry ∈ unsent (callAt state id)

theorem start_carried : Carried (start seq) := ⟨start_traced, fun _ _ => nofun, nofun⟩

theorem drain_due_driven (due : List Destination) (drain : Drain) :
    drainDue .drive due batches ≠ .draining .take drain := by
  cases due with
  | cons first later => exact nofun
  | nil => cases batches <;> exact nofun

theorem drain_rows_driven (drain : Drain) :
    drainRows .drive destination rest rows items batches ≠ .draining .take drain := by
  cases rows with
  | nil => exact drain_due_driven rest drain
  | cons row later => exact nofun

theorem carried_of_call (carried : Carried state) (traced : Traced next) {id : Nat}
    (changes : Changes state next id call)
    (driven : ∀ drain, call ≠ .draining .take drain) (queued : next.queued = state.queued)
    (delivered : ∀ entry ∈ state.delivered, entry ∈ next.delivered)
    (stored : ∀ entry, Stored state entry → Stored next entry ∨ entry ∈ unsent call)
    (moved : ∀ entry ∈ unsent (callAt state id), entry ∈ unsent call ∨ entry ∈ next.delivered) : Carried next := by
  refine ⟨traced, changes_all (fun call => ∀ drain, call ≠ .draining .take drain) changes driven carried.driven,
    fun entry member => ?_⟩
  have here : ∀ {entry}, entry ∈ unsent call → ∃ id, entry ∈ unsent (callAt next id) :=
    fun inside => ⟨id, by rw [changes_here changes]; exact inside⟩
  rw [queued] at member
  rcases carried.kept entry member with before | sent | ⟨other, inside⟩
  · rcases stored entry before with still | moved
    · exact .inl still
    · exact .inr (.inr (here moved))
  · exact .inr (.inl (delivered entry sent))
  · by_cases same : other = id
    · rw [same] at inside
      rcases moved entry inside with kept | sent
      · exact .inr (.inr (here kept))
      · exact .inr (.inl sent)
    · exact .inr (.inr ⟨other, by rw [changes_other changes same]; exact inside⟩)

theorem put_carried (carried : Carried state) {entry : Queued} (held : state.drawn[index]? = some entry) :
    Carried (put state index entry written) := by
  have traced := put_traced carried.traced held written
  cases written with
  | false => exact ⟨traced, carried.driven, carried.kept⟩
  | true =>
    refine ⟨traced, carried.driven, fun entry member => ?_⟩
    rcases mem_append.mp member with before | added
    · rcases carried.kept entry before with ⟨key, read⟩ | elsewhere
      · exact .inl ⟨key, put_keeps carried.traced held read⟩
      · exact .inr elsewhere
    · rw [mem_singleton.mp added]
      exact .inl ⟨_, put_stores⟩

theorem dispatch_all (parses : outside.serverName destination = true)
    (pdus : ∀ entry ∈ items, outside.pduJson entry.item = true) :
    (dispatch outside health destination items now true).2 = items := by
  rw [dispatch, if_pos parses, filter_eq_self.mpr pdus]
  cases items <;> rfl

theorem delete_carried (carried : Carried state) {id : Nat} (traced : Traced next)
    (stepped : step outside state (.delete id true) = some next) : Carried next := by
  obtain ⟨path, destination, rest, row, rows, items, batches, held, rfl⟩ := step_delete stepped
  have driven := carried.driven id
  have scanned := carried.traced.scanned id row
  rw [call_at_held held] at driven scanned
  have genuine := scanned mem_cons_self
  cases path with
  | take => exact absurd rfl (driven _)
  | drive =>
    refine carried_of_call carried traced (become_changes { state with tree := state.tree.erase row.1 } held _) drain_rows_driven
      rfl (fun _ sent => sent) (fun entry stored => ?_) fun entry inside => .inl ?_
    · obtain ⟨key, read⟩ := stored
      by_cases same : key = row.1
      · -- the row was scanned before this deletion, but no other item was ever queued under its key
        have unique := genuine_unique carried.traced (carried.traced.stored (key, entry) read) genuine same
        rw [unsent_drain_rows, ← append_assoc, show entry = row.2 from congrArg Prod.snd unique]
        exact .inr (mem_append_right _ (mem_singleton.mpr rfl))
      · refine .inl ⟨key, (getElem?_erase.trans (if_neg fun equal => same ?_)).trans read⟩
        exact (Std.LawfulEqOrd.eq_of_compare equal).symm
    · rw [call_at_held held] at inside
      rw [unsent_drain_rows, ← append_assoc]
      exact mem_append_left _ inside

theorem step_carried (carried : Carried state) (careful : Careful outside state act)
    (stepped : step outside state act = some next) : Carried next := by
  have room : Unwrapped state act := by
    cases act with
    | queue destination item => exact careful
    | _ => trivial
  have traced := step_traced carried.traced room stepped
  have keeps : ∀ entry, Stored state entry → Stored state entry ∨ entry ∈ unsent (.done []) :=
    fun _ stored => .inl stored
  cases act with
  | queue destination item =>
    cases stepped
    exact ⟨traced, carried.driven, carried.kept⟩
  | put index written =>
    obtain ⟨entry, held, rfl⟩ := step_put stepped
    exact put_carried carried held
  | take destination => exact careful.elim
  | drive now scanned =>
    cases stepped
    refine carried_of_call carried traced (begin_changes state) (drain_due_driven _) rfl (fun _ sent => sent)
      (fun _ stored => .inl stored) fun entry inside => ?_
    rw [begun_before] at inside
    cases inside
  | scan id scanned =>
    obtain ⟨path, destination, rest, items, batches, held, rfl⟩ := step_scan stepped
    have driven := carried.driven id
    rw [call_at_held held] at driven
    cases scanned with
    | false =>
      have empty := careful.resolve_left Bool.false_ne_true
      refine carried_of_call carried traced (become_changes state held _) (fun _ => nofun) rfl (fun _ sent => sent) keeps fun entry inside => ?_
      rw [empty] at inside
      cases inside
    | true =>
      cases path with
      | take => exact absurd rfl (driven _)
      | drive =>
        refine carried_of_call carried traced (become_changes state held _) drain_rows_driven rfl (fun _ sent => sent)
          (fun _ stored => .inl stored) fun entry inside => .inl ?_
        rw [call_at_held held] at inside
        rw [if_pos rfl, unsent_drain_rows]
        exact inside
  | delete id deleted =>
    cases deleted with
    | true => exact delete_carried carried traced stepped
    | false =>
      obtain ⟨path, destination, rest, row, rows, items, batches, held, rfl⟩ := step_delete stepped
      have empty := careful.resolve_left Bool.false_ne_true
      refine carried_of_call carried traced (become_changes state held _) (fun _ => nofun) rfl (fun _ sent => sent) keeps fun entry inside => ?_
      rw [empty] at inside
      cases inside
  | dispatch id now sent =>
    obtain ⟨destination, items, rest, returned, held, rfl⟩ := step_dispatch stepped
    rw [Careful, call_at_held held] at careful
    obtain ⟨parses, pdus, rfl⟩ := careful
    refine carried_of_call carried traced (become_changes _ held _) (fun drain => ?_) rfl (fun _ => mem_append_left _)
      (fun _ stored => .inl stored) fun entry inside => ?_
    · cases rest <;> exact nofun
    · rw [call_at_held held] at inside
      rw [unsent_send]
      rcases mem_append.mp inside with here | later
      · refine .inr (mem_append_right _ ?_)
        rw [dispatch_all parses pdus]
        exact here
      · exact .inl later

end

theorem queued_items_kept (outside : Outside) (seq : Nat) (acts : List Act) (last : Scheduler)
    (ran : runs (step outside) (start seq) acts = some last) :
    (AllMeet (step outside) (fun state act => Unwrapped state act ∧ ¬ Deletes act) (start seq) acts →
        Safe last ∧ ∀ id next, step outside last (.delete id true) = some next → ¬ Safe next) ∧
      (AllMeet (step outside) (Careful outside) (start seq) acts →
        (∀ entry ∈ last.queued, Stored last entry ∨ entry ∈ last.delivered ∨ ∃ id, entry ∈ unsent (callAt last id)) ∧
        ((∀ id, unsent (callAt last id) = []) → Safe last)) := by
  constructor
  · intro met
    have untouched := runs_meeting_invariant (fun state act next holds meets stepped =>
      step_untouched holds meets.1 meets.2 stepped) start_untouched met ran
    exact ⟨fun entry member => Or.inl (untouched.stored entry member), fun id next stepped => first_delete_unsafe untouched stepped⟩
  · intro met
    have carried := runs_meeting_invariant (fun state act next holds meets stepped => step_carried holds meets stepped) start_carried met ran
    refine ⟨carried.kept, fun settled entry member => ?_⟩
    rcases carried.kept entry member with stored | sent | ⟨id, inside⟩
    · exact Or.inl stored
    · exact Or.inr sent
    · rw [settled id] at inside
      cases inside

def anything : Outside := ⟨fun _ => true, fun _ => true⟩

def queueAndDrain : List Act := [.queue [104] [123, 125], .put 0 true, .drive 0 true, .scan 0 true, .delete 0 true]

theorem sent_run : (runs (step anything) (start 1) (queueAndDrain ++ [.dispatch 0 0 true])).isSome = true := by
  decide +kernel

theorem sent_item_kept :
    ∃ last, runs (step anything) (start 1) (queueAndDrain ++ [.dispatch 0 0 true]) = some last ∧
    last.tree.isEmpty = true ∧ last.queued.length = 1 ∧ Safe last := by
  have ended := (some_get sent_run).symm
  have calls : ((runs (step anything) (start 1) (queueAndDrain ++ [.dispatch 0 0 true])).get sent_run).calls =
    [.done [⟨1, [104], [123, 125]⟩]] := by
    decide +kernel
  refine ⟨_, ended, by decide +kernel, by decide +kernel, ?_⟩
  refine ((queued_items_kept anything 1 _ _ ended).2 (by decide +kernel)).2 fun id => ?_
  rw [callAt, calls]
  cases id <;> rfl

def Lost (state : Scheduler) : Prop := ∃ entry ∈ state.queued, entry ∉ state.delivered ∧
    ∀ row ∈ state.tree.toList, row.2 ≠ entry

theorem lost_unsafe {state : Scheduler} (lost : Lost state) : ¬ Safe state := by
  intro safe
  obtain ⟨entry, member, undelivered, unstored⟩ := lost
  rcases safe entry member with ⟨key, read⟩ | sent
  · exact unstored (key, entry) (mem_toList_iff_getElem?_eq_some.mpr read) rfl
  · exact undelivered sent

def Loses (outside : Outside) (acts : List Act) : Prop :=
  ∃ last, runs (step outside) (start 1) acts = some last ∧ (∀ call ∈ last.calls, unsent call = []) ∧ ¬ Safe last

theorem loses_of_run {outside : Outside} {acts : List Act} (ran : (runs (step outside) (start 1) acts).isSome = true)
    (settled : ∀ call ∈ ((runs (step outside) (start 1) acts).get ran).calls, unsent call = [])
    (lost : Lost ((runs (step outside) (start 1) acts).get ran)) : Loses outside acts :=
  ⟨_, (Option.some_get ran).symm, settled, lost_unsafe lost⟩

-- The transaction fails; the name does not parse; the store fails the second of two deletions.
theorem drained_item_lost : Loses anything (queueAndDrain ++ [.dispatch 0 0 false]) ∧
    Loses ⟨fun _ => false, fun _ => true⟩ (queueAndDrain ++ [.dispatch 0 0 true]) ∧
      Loses anything (.queue [104] [123, 125] :: .put 0 true :: queueAndDrain ++ [.delete 0 false]) := by
  refine ⟨?_, ?_, ?_⟩
  · exact loses_of_run (by decide +kernel) (by decide +kernel) (by unfold Lost; decide +kernel)
  · exact loses_of_run (by decide +kernel) (by decide +kernel) (by unfold Lost; decide +kernel)
  · exact loses_of_run (by decide +kernel) (by decide +kernel) (by unfold Lost; decide +kernel)

end GaussMatrix.Fed

import GaussMatrix.Library.BigEndian
import GaussMatrix.Library.Runs
import GaussMatrix.Store.Backend

namespace GaussMatrix.Fed

open Collections List Store

abbrev Destination := Bytes

def queueKey (destination : Destination) (seq : Nat) : Bytes := destination ++ 0 :: BigEndian.toBytes 8 seq

def queuePrefix (destination : Destination) : Bytes := destination ++ [0]

theorem queue_key_number {destination other : Destination} {seq number : Nat}
    (same : queueKey destination seq = queueKey other number) (small : seq < 2 ^ 64)
    (otherSmall : number < 2 ^ 64) : seq = number := by
  have lengths : (0 :: BigEndian.toBytes 8 seq).length = (0 :: BigEndian.toBytes 8 number).length := by
    rw [length_cons, length_cons, BigEndian.to_bytes_length, BigEndian.to_bytes_length]
  obtain ⟨_, tails⟩ := append_inj' same lengths
  have bytes : BigEndian.toBytes 8 seq = BigEndian.toBytes 8 number := (cons.inj tails).2
  have read : BigEndian.ofBytes (BigEndian.toBytes 8 seq) = seq := BigEndian.of_to_bytes_of_lt small
  have otherRead : BigEndian.ofBytes (BigEndian.toBytes 8 number) = number := BigEndian.of_to_bytes_of_lt otherSmall
  rw [← read, bytes, otherRead]

structure Backoff where
  attempt : Nat
  availableAt : Nat
deriving DecidableEq

def backoffDelay (attempt : Nat) : Nat := min (1000 * 2 ^ min (attempt - 1) 16) 60000

abbrev Health := BTreeMap Destination Backoff

def markSuccess (health : Health) (destination : Destination) : Health := health.erase destination

def markFailure (health : Health) (destination : Destination) (now : Nat) : Health :=
  let attempt := min ((health[destination]?.getD ⟨0, 0⟩).attempt + 1) (2 ^ 32 - 1)
  health.insert destination ⟨attempt, min (now + backoffDelay attempt) (2 ^ 64 - 1)⟩

def inBackoff (health : Health) (now : Nat) (destination : Destination) : Bool :=
  match health[destination]? with
  | none => false
  | some state => decide (state.availableAt > now)

-- The store keeps an item's bytes; the number and the destination it was queued under tell equal items apart.
structure Queued where
  number : Nat
  destination : Destination
  item : Bytes
deriving DecidableEq

abbrev Row := Bytes × Queued

def keyDestination (key : Bytes) : Option Destination := if 0 ∈ key then some (key.takeWhile (· ≠ 0)) else none

def countRow (depths : BTreeMap Destination Nat) (row : Row) : BTreeMap Destination Nat :=
  match keyDestination row.1 with
  | none => depths
  | some destination => depths.insert destination (depths[destination]?.getD 0 + 1)

def allQueueDepths (tree : DomainTree Queued) : List (Destination × Nat) :=
  ((prefixScan tree []).foldl countRow ∅).toList

def dueDestinations (tree : DomainTree Queued) (backedOff : Destination → Bool) : List Destination :=
  ((allQueueDepths tree).filter fun entry => decide (entry.2 > 0) && !backedOff entry.1).map Prod.fst

abbrev Batch := Destination × List Queued

inductive Path where
  | take
  | drive
deriving DecidableEq

structure Drain where
  due : List Destination
  scanned : Option (List Row)
  items : List Queued
  batches : List Batch
deriving DecidableEq

inductive Call where
  | draining (path : Path) (drain : Drain)
  | sending (batches : List Batch) (returned : List Queued)
  | done (returned : List Queued)
deriving DecidableEq

def allItems (batches : List Batch) : List Queued := batches.flatMap Prod.snd

def send (batches : List Batch) (returned : List Queued) : Call :=
  match batches with
  | [] => .done returned
  | _ :: _ => .sending batches returned

def drained (path : Path) (batches : List Batch) : Call :=
  match path with
  | .take => .done (allItems batches)
  | .drive => send batches (allItems batches)

def drainDue (path : Path) (due : List Destination) (batches : List Batch) : Call :=
  match due with
  | [] => drained path batches
  | _ :: _ => .draining path ⟨due, none, [], batches⟩

def drainRows (path : Path) (destination : Destination) (rest : List Destination) (rows : List Row)
    (items : List Queued) (batches : List Batch) : Call :=
  match rows with
  | [] => drainDue path rest (if items.isEmpty then batches else batches ++ [(destination, items)])
  | _ :: _ => .draining path ⟨destination :: rest, some rows, items, batches⟩

-- drawn holds the items whose number is drawn and whose row is still to be put.
structure Scheduler where
  tree : DomainTree Queued
  seq : Nat
  drawn : List Queued
  health : Health
  calls : List Call
  queued : List Queued
  delivered : List Queued

-- What lies outside: which destinations parse as server names and which items as a PDU's JSON.
structure Outside where
  serverName : Destination → Bool
  pduJson : Bytes → Bool

def become (state : Scheduler) (id : Nat) (call : Call) : Scheduler := { state with calls := state.calls.set id call }

def queue (state : Scheduler) (destination : Destination) (item : Bytes) : Scheduler :=
  { state with seq := state.seq + 1, drawn := state.drawn ++ [⟨state.seq, destination, item⟩] }

-- The sequence number is used up even when the write fails; the failure is only logged.
def put (state : Scheduler) (index : Nat) (entry : Queued) (written : Bool) : Scheduler :=
  let left := { state with drawn := state.drawn.eraseIdx index }
  if written then
    { left with
      tree := state.tree.insert (queueKey entry.destination entry.number) entry
      queued := state.queued ++ [entry] }
  else left

def dispatch (outside : Outside) (health : Health) (destination : Destination) (items : List Queued) (now : Nat)
    (sent : Bool) : Health × List Queued :=
  let pdus := items.filter fun entry => outside.pduJson entry.item
  if outside.serverName destination then
    if pdus.isEmpty then (markSuccess health destination, [])
    else if sent then (markSuccess health destination, pdus)
    else (markFailure health destination now, [])
  else (health, [])

inductive Act where
  | queue (destination : Destination) (item : Bytes)
  | put (index : Nat) (written : Bool)
  | take (destination : Destination)
  | drive (now : Nat) (scanned : Bool)
  | scan (id : Nat) (scanned : Bool)
  | delete (id : Nat) (deleted : Bool)
  | dispatch (id now : Nat) (sent : Bool)

-- A failed drain returns nothing: the items it has deleted are gone with it.
def step (outside : Outside) (state : Scheduler) : Act → Option Scheduler
  | .queue destination item => some (queue state destination item)
  | .put index written => state.drawn[index]?.map fun entry => put state index entry written
  | .take destination => some { state with calls := state.calls ++ [.draining .take ⟨[destination], none, [], []⟩] }
  | .drive now scanned =>
    let due := if scanned then dueDestinations state.tree (inBackoff state.health now) else []
    some { state with calls := state.calls ++ [drainDue .drive due []] }
  | .scan id scanned =>
    match state.calls[id]? with
    | some (.draining path ⟨destination :: rest, none, items, batches⟩) =>
      let rows := prefixScan state.tree (queuePrefix destination)
      some (become state id (if scanned then drainRows path destination rest rows items batches else .done []))
    | _ => none
  | .delete id deleted =>
    match state.calls[id]? with
    | some (.draining path ⟨destination :: rest, some (row :: rows), items, batches⟩) =>
      if deleted then
        some (become { state with tree := state.tree.erase row.1 } id (drainRows path destination rest rows (items ++ [row.2]) batches))
      else some (become state id (.done []))
    | _ => none
  | .dispatch id now sent =>
    match state.calls[id]? with
    | some (.sending ((destination, items) :: rest) returned) =>
      let outcome := dispatch outside state.health destination items now sent
      some (become { state with health := outcome.1, delivered := state.delivered ++ outcome.2 } id (send rest returned))
    | _ => none

def start (seq : Nat) : Scheduler := ⟨∅, seq, [], ∅, [], [], []⟩

def scannedRows : Call → List Row
  | .draining _ drain => drain.scanned.getD []
  | _ => []

def collected : Call → List Queued
  | .draining _ drain => allItems drain.batches ++ drain.items
  | .sending _ returned => returned
  | .done returned => returned

variable {path : Path} {destination : Destination} {rest due : List Destination} {rows : List Row}
  {items returned : List Queued} {batches : List Batch}

@[simp] theorem scanned_rows_send : scannedRows (send batches returned) = [] := by
  cases batches <;> rfl

@[simp] theorem collected_send : collected (send batches returned) = returned := by
  cases batches <;> rfl

@[simp] theorem scanned_rows_drain_due : scannedRows (drainDue path due batches) = [] := by
  cases due with
  | nil =>
    cases path with
    | take => rfl
    | drive => exact scanned_rows_send
  | cons first later => rfl

@[simp] theorem collected_drain_due : collected (drainDue path due batches) = allItems batches := by
  cases due with
  | nil =>
    cases path with
    | take => rfl
    | drive => exact collected_send
  | cons first later => exact append_nil _

theorem all_items_push : allItems (if items.isEmpty then batches else batches ++ [(destination, items)]) =
    allItems batches ++ items := by
  cases items <;> simp [allItems]

@[simp] theorem scanned_rows_drain_rows : scannedRows (drainRows path destination rest rows items batches) = rows := by
  cases rows with
  | nil => exact scanned_rows_drain_due
  | cons row later => rfl

@[simp] theorem collected_drain_rows :
    collected (drainRows path destination rest rows items batches) = allItems batches ++ items := by
  cases rows with
  | nil => exact collected_drain_due.trans all_items_push
  | cons row later => rfl

variable {outside : Outside} {state next : Scheduler} {id : Nat} {call : Call}

def callAt (state : Scheduler) (id : Nat) : Call := state.calls[id]?.getD (.done [])

def Changes (state next : Scheduler) (id : Nat) (call : Call) : Prop :=
  ∀ other, callAt next other = if other = id then call else callAt state other

theorem changes_here (changes : Changes state next id call) : callAt next id = call := by
  rw [changes id, if_pos rfl]

theorem changes_other (changes : Changes state next id call) {other : Nat} (different : other ≠ id) :
    callAt next other = callAt state other := by
  rw [changes other, if_neg different]

theorem changes_all (holds : Call → Prop) (changes : Changes state next id call) (here : holds call)
    (before : ∀ other, holds (callAt state other)) (other : Nat) : holds (callAt next other) := by
  rw [changes other]
  split
  · exact here
  · exact before other

theorem become_changes (state : Scheduler) {old : Call} (held : state.calls[id]? = some old) (call : Call) :
    Changes state (become state id call) id call := by
  intro other
  have inside : id < state.calls.length := (List.getElem?_eq_some_iff.mp held).1
  rw [callAt, become, getElem?_set, if_pos inside]
  by_cases same : id = other
  · rw [if_pos same, if_pos same.symm]
    rfl
  · rw [if_neg same, if_neg (Ne.symm same)]
    rfl

theorem begin_changes (state : Scheduler) {call : Call} :
    Changes state { state with calls := state.calls ++ [call] } state.calls.length call := by
  intro other
  rw [callAt, getElem?_append]
  by_cases inside : other < state.calls.length
  · rw [if_pos inside, if_neg (Nat.ne_of_lt inside)]
    rfl
  · rw [if_neg inside]
    by_cases same : other = state.calls.length
    · rw [if_pos same, same, Nat.sub_self]
      rfl
    · rw [if_neg same, callAt, getElem?_eq_none (by simp; omega), getElem?_eq_none (by omega)]

theorem begun_before : callAt state state.calls.length = .done [] := by
  rw [callAt, getElem?_eq_none le_rfl]
  rfl

theorem step_scan {scanned : Bool} (stepped : step outside state (.scan id scanned) = some next) :
    ∃ path destination rest items batches, state.calls[id]? = some
    (.draining path ⟨destination :: rest, none, items, batches⟩) ∧ next = become state id
        (if scanned then drainRows path destination rest (prefixScan state.tree (queuePrefix destination)) items batches else .done []) := by
  rw [step] at stepped
  split at stepped
  next path destination rest items batches held =>
    exact ⟨path, destination, rest, items, batches, held, (Option.some.inj stepped).symm⟩
  next => cases stepped

theorem step_delete {deleted : Bool} (stepped : step outside state (.delete id deleted) = some next) :
    ∃ path destination rest row rows items batches,
      state.calls[id]? = some (.draining path ⟨destination :: rest, some (row :: rows), items, batches⟩) ∧
      next = if deleted then
          become { state with tree := state.tree.erase row.1 } id (drainRows path destination rest rows (items ++ [row.2]) batches)
        else become state id (.done []) := by
  rw [step] at stepped
  split at stepped
  next path destination rest row rows items batches held =>
      refine ⟨path, destination, rest, row, rows, items, batches, held, ?_⟩
      cases deleted <;> exact (Option.some.inj stepped).symm
  next => cases stepped

theorem step_dispatch {now : Nat} {sent : Bool} (stepped : step outside state (.dispatch id now sent) = some next) :
    ∃ destination items rest returned, state.calls[id]? = some (.sending ((destination, items) :: rest) returned) ∧
    next = become { state with
          health := (dispatch outside state.health destination items now sent).1
          delivered := state.delivered ++ (dispatch outside state.health destination items now sent).2 } id (send rest returned) := by
  rw [step] at stepped
  split at stepped
  next destination items rest returned held =>
    exact ⟨destination, items, rest, returned, held, (Option.some.inj stepped).symm⟩
  next => cases stepped

def Genuine (state : Scheduler) (row : Row) : Prop :=
  row.2 ∈ state.queued ∧ row.1 = queueKey row.2.destination row.2.number

structure Traced (state : Scheduler) : Prop where
  numbered : ∀ entry ∈ state.queued ++ state.drawn, entry.number < state.seq ∧ entry.number < 2 ^ 64
  unique : ((state.queued ++ state.drawn).map Queued.number).Nodup
  stored : ∀ row : Row, state.tree[row.1]? = some row.2 → Genuine state row
  scanned : ∀ id, ∀ row ∈ scannedRows (callAt state id), Genuine state row
  taken : ∀ id, ∀ entry ∈ collected (callAt state id), entry ∈ state.queued

def Unwrapped (state : Scheduler) : Act → Prop
  | .queue .. => state.seq < 2 ^ 64
  | _ => True

theorem genuine_unique (traced : Traced state) {row other : Row} (genuine : Genuine state row)
    (otherGenuine : Genuine state other) (same : row.1 = other.1) : row = other := by
  have member := mem_append_left state.drawn genuine.1
  have otherMember := mem_append_left state.drawn otherGenuine.1
  have keys : queueKey row.2.destination row.2.number = queueKey other.2.destination other.2.number := by
    rw [← genuine.2, same, otherGenuine.2]
  have numbers := queue_key_number keys (traced.numbered _ member).2 (traced.numbered _ otherMember).2
  exact Prod.ext same (inj_on_of_nodup_map traced.unique member otherMember numbers)

theorem start_traced {seq : Nat} : Traced (start seq) where
  numbered := nofun
  unique := nodup_nil
  stored := fun row read => by simp [start] at read
  scanned := fun id row member => by simp [callAt, start, scannedRows] at member
  taken := fun id entry member => by simp [callAt, start, collected] at member

theorem queue_traced (traced : Traced state) (destination : Destination) (item : Bytes) (room : state.seq < 2 ^ 64) :
    Traced (queue state destination item) := by
  have known : (queue state destination item).queued ++ (queue state destination item).drawn =
      (state.queued ++ state.drawn) ++ [⟨state.seq, destination, item⟩] := (append_assoc _ _ _).symm
  refine ⟨fun entry member => ?_, ?_, traced.stored, traced.scanned, traced.taken⟩
  · rw [known] at member
    rcases mem_append.mp member with before | fresh
    · obtain ⟨older, small⟩ := traced.numbered entry before
      exact ⟨Nat.lt_succ_of_lt older, small⟩
    · cases mem_singleton.mp fresh
      exact ⟨Nat.lt_succ_self _, room⟩
  · rw [known, map_append, map_singleton]
    refine traced.unique.append (nodup_singleton _) fun number member fresh => ?_
    obtain ⟨entry, before, rfl⟩ := mem_map.mp member
    exact Nat.ne_of_lt (traced.numbered entry before).1 (mem_singleton.mp fresh)

variable {index : Nat} {key : Bytes} {entry other : Queued} {written : Bool}

theorem step_put (stepped : step outside state (.put index written) = some next) :
    ∃ entry, state.drawn[index]? = some entry ∧ next = put state index entry written := by
  obtain ⟨entry, held, rfl⟩ := Option.map_eq_some_iff.mp stepped
  exact ⟨entry, held, rfl⟩

theorem put_known (held : state.drawn[index]? = some entry) :
    ((put state index entry true).queued ++ (put state index entry true).drawn).Perm (state.queued ++ state.drawn) := by
  obtain ⟨inside, rfl⟩ := List.getElem?_eq_some_iff.mp held
  have moved : (state.drawn[index] :: state.drawn.eraseIdx index).Perm state.drawn := getElem_cons_eraseIdx_perm inside
  have known : (put state index state.drawn[index] true).queued ++ (put state index state.drawn[index] true).drawn =
      state.queued ++ state.drawn[index] :: state.drawn.eraseIdx index := append_assoc _ _ _
  rw [known]
  exact moved.append_left state.queued

-- A number is drawn once, so nothing queued has the number of an item still to be put.
theorem drawn_apart (traced : Traced state) (held : state.drawn[index]? = some entry) (member : other ∈ state.queued) :
    other.number ≠ entry.number := by
  have apart := traced.unique
  rw [map_append] at apart
  have drawn : entry.number ∈ state.drawn.map Queued.number := mem_map_of_mem (mem_of_getElem? held)
  exact fun same => disjoint_of_nodup_append apart (mem_map_of_mem member) (same ▸ drawn)

theorem put_fresh (traced : Traced state) (held : state.drawn[index]? = some entry) :
    state.tree[queueKey entry.destination entry.number]? = none := by
  have small := (traced.numbered entry (mem_append_right _ (mem_of_getElem? held))).2
  cases read : state.tree[queueKey entry.destination entry.number]? with
  | none => rfl
  | some other =>
    obtain ⟨member, key⟩ := traced.stored (queueKey entry.destination entry.number, other) read
    have otherSmall := (traced.numbered other (mem_append_left _ member)).2
    exact absurd (queue_key_number key small otherSmall).symm (drawn_apart traced held member)

theorem put_keeps (traced : Traced state) (held : state.drawn[index]? = some entry)
    (read : state.tree[key]? = some other) : (put state index entry true).tree[key]? = some other := by
  refine (insert_elsewhere fun same => ?_).trans read
  rw [same, put_fresh traced held] at read
  cases read

theorem put_stores : (put state index entry true).tree[queueKey entry.destination entry.number]? = some entry :=
  Std.ExtTreeMap.getElem?_insert_self

theorem put_source (read : (put state index entry true).tree[key]? = some other) :
    state.tree[key]? = some other ∨ key = queueKey entry.destination entry.number ∧ other = entry := by
  by_cases here : key = queueKey entry.destination entry.number
  · rw [here, put_stores] at read
    exact .inr ⟨here, (Option.some.inj read).symm⟩
  · exact .inl ((insert_elsewhere here).symm.trans read)

theorem put_traced (traced : Traced state) (held : state.drawn[index]? = some entry) (written : Bool) :
    Traced (put state index entry written) := by
  cases written with
  | false =>
    have kept : (state.queued ++ state.drawn.eraseIdx index).Sublist (state.queued ++ state.drawn) :=
      (eraseIdx_sublist state.drawn index).append_left state.queued
    exact ⟨fun entry member => traced.numbered entry (kept.subset member), (kept.map _).nodup traced.unique, traced.stored,
      traced.scanned, traced.taken⟩
  | true =>
    have known := put_known held
    have kept : ∀ row, Genuine state row → Genuine (put state index entry true) row :=
      fun row genuine => ⟨mem_append_left _ genuine.1, genuine.2⟩
    refine ⟨fun entry member => traced.numbered entry (known.subset member), (known.map _).nodup_iff.mpr traced.unique,
      fun row read => ?_, fun id row member => kept row (traced.scanned id row member),
      fun id entry member => mem_append_left _ (traced.taken id entry member)⟩
    rcases put_source read with before | ⟨key, same⟩
    · exact kept row (traced.stored row before)
    · rw [Genuine, key, same]
      exact ⟨mem_append_right _ (mem_singleton.mpr rfl), rfl⟩

theorem traced_of_call (traced : Traced state) (changes : Changes state next id call) (seq : next.seq = state.seq)
    (drawn : next.drawn = state.drawn) (queued : next.queued = state.queued)
    (stored : ∀ (key : Bytes) (entry : Queued), next.tree[key]? = some entry → state.tree[key]? = some entry)
    (scanned : ∀ row ∈ scannedRows call, Genuine state row) (taken : ∀ entry ∈ collected call, entry ∈ state.queued) :
    Traced next := by
  have kept : ∀ row, Genuine state row → Genuine next row := by
    intro row genuine
    rw [Genuine, queued]
    exact genuine
  refine ⟨?_, ?_, fun row read => kept row (traced.stored row (stored _ _ read)), ?_, ?_⟩
  · rw [queued, drawn, seq]
    exact traced.numbered
  · rw [queued, drawn]
    exact traced.unique
  · exact changes_all (fun call => ∀ row ∈ scannedRows call, Genuine next row) changes (fun row member => kept row (scanned row member))
      fun other row member => kept row (traced.scanned other row member)
  · rw [queued]
    exact changes_all (fun call => ∀ entry ∈ collected call, entry ∈ state.queued) changes taken traced.taken

theorem call_at_held (held : state.calls[id]? = some call) : callAt state id = call := by
  rw [callAt, held]
  rfl

theorem step_traced {act : Act} (traced : Traced state) (room : Unwrapped state act)
    (stepped : step outside state act = some next) : Traced next := by
  cases act with
  | queue destination item =>
    cases stepped
    exact queue_traced traced destination item room
  | put index written =>
    obtain ⟨entry, held, rfl⟩ := step_put stepped
    exact put_traced traced held written
  | take destination =>
    cases stepped
    exact traced_of_call traced (begin_changes state) rfl rfl rfl (fun _ _ read => read) (forall_mem_nil _) (forall_mem_nil _)
  | drive now scanned =>
    cases stepped
    refine traced_of_call traced (begin_changes state) rfl rfl rfl (fun _ _ read => read) (fun row member => ?_) fun entry member => ?_
    · rw [scanned_rows_drain_due] at member
      cases member
    · rw [collected_drain_due] at member
      cases member
  | scan id scanned =>
    obtain ⟨path, destination, rest, items, batches, held, rfl⟩ := step_scan stepped
    have before := traced.taken id
    rw [call_at_held held] at before
    refine traced_of_call traced (become_changes state held _) rfl rfl rfl (fun _ _ read => read)
      (fun row member => ?_) fun entry member => ?_
    · cases scanned with
      | false => cases member
      | true =>
        rw [if_pos rfl, scanned_rows_drain_rows] at member
        exact traced.stored row ((prefix_scan_row _ _ row).mp member).1
    · cases scanned with
      | false => cases member
      | true =>
        rw [if_pos rfl, collected_drain_rows] at member
        exact before entry member
  | delete id deleted =>
    obtain ⟨path, destination, rest, row, rows, items, batches, held, rfl⟩ := step_delete stepped
    have before := traced.taken id
    have scannedBefore := traced.scanned id
    rw [call_at_held held] at before scannedBefore
    cases deleted with
    | false =>
      exact traced_of_call traced (become_changes state held _) rfl rfl rfl (fun _ _ read => read) (forall_mem_nil _) (forall_mem_nil _)
    | true =>
      refine traced_of_call traced (become_changes { state with tree := state.tree.erase row.1 } held _) rfl rfl rfl
        (fun _ _ => erase_source) (fun other member => ?_) fun entry member => ?_
      · rw [scanned_rows_drain_rows] at member
        exact scannedBefore other (mem_cons_of_mem row member)
      · rw [collected_drain_rows, ← append_assoc] at member
        rcases mem_append.mp member with earlier | here
        · exact before entry earlier
        · rw [mem_singleton.mp here]
          exact (scannedBefore row mem_cons_self).1
  | dispatch id now sent =>
    obtain ⟨destination, items, rest, returned, held, rfl⟩ := step_dispatch stepped
    have before := traced.taken id
    rw [call_at_held held] at before
    refine traced_of_call traced (become_changes _ held _) rfl rfl rfl (fun _ _ read => read) (fun row member => ?_) fun entry member => ?_
    · rw [scanned_rows_send] at member
      cases member
    · rw [collected_send] at member
      exact before entry member

end GaussMatrix.Fed

import GaussMatrix.Library.BigEndian
import GaussMatrix.Library.HashChain
import GaussMatrix.Library.Outcome
import GaussMatrix.Library.Runs
import GaussMatrix.Store.Backend

namespace GaussMatrix.Audit

open BigEndian Collections HashChain List Outcome Runs Std Store ExtTreeMap

abbrev Hash := { bytes : Bytes // bytes.length = 32 }

def genesis : Hash := ⟨List.replicate 32 0, rfl⟩

structure ChainHead where
  nextSeq : Nat
  hash : Hash
deriving DecidableEq

def emptyHead : ChainHead := ⟨0, genesis⟩

abbrev Entry := ChainHead × Bytes

section

variable (digest : Bytes → Hash) {tree : DomainTree Bytes}

def entryBytes (seq : Nat) (prev : Hash) (payload : Bytes) : Bytes := toBytes 8 seq ++ prev.1 ++ payload

def entryHash (seq : Nat) (prev : Hash) (payload : Bytes) : Hash := digest (entryBytes seq prev payload)

def saturatingSucc (seq : Nat) : Nat := min (seq + 1) (2 ^ 64 - 1)

def advance (head : ChainHead) (payload : Bytes) : ChainHead :=
  ⟨saturatingSucc head.nextSeq, entryHash digest head.nextSeq head.hash payload⟩

def decodeSeq (key : Bytes) : Except String Nat :=
  if key.length = 8 then .ok (ofBytes key) else .error "audit log key is not an 8-byte sequence"

def readRow (row : Bytes × Bytes) : Except String Entry := decodeSeq row.1 >>= fun seq =>
    if long : 32 ≤ row.2.length then .ok (⟨seq, ⟨row.2.take 32, length_take_of_le long⟩⟩, row.2.drop 32)
    else .error s!"audit log entry {seq} is too short"

def readRaw (tree : DomainTree Bytes) : Except String (List Entry) := (prefixScan tree []).mapM readRow

def readEntries (tree : DomainTree Bytes) : Except String (List (Nat × Bytes)) :=
  (readRaw tree).map fun raw => raw.map fun entry => (entry.1.nextSeq, entry.2)

def verifyChain (expected : ChainHead) : List Entry → Except String ChainHead
  | [] => .ok expected
  | entry :: rest =>
    let seq := entry.1.nextSeq
    if seq ≠ expected.nextSeq then .error s!"audit log sequence gap at {seq}"
    else if entry.1.hash ≠ expected.hash then .error s!"audit log broken link at seq {seq}"
    else verifyChain (advance digest entry.1 entry.2) rest

def headMismatch : String := "audit log head mismatch — tampering detected"

def compareHead (expected head : ChainHead) : Except String Unit :=
  if expected.hash ≠ head.hash ∨ expected.nextSeq ≠ head.nextSeq then .error headMismatch else .ok ()

def verify (tree : DomainTree Bytes) (head : ChainHead) : Except String Unit :=
  readRaw tree >>= fun raw => verifyChain digest emptyHead raw >>= fun expected => compareHead expected head

def recoverHead (tree : DomainTree Bytes) : Except String ChainHead :=
  (readRaw tree).map fun raw => raw.foldl (fun _ entry => advance digest entry.1 entry.2) emptyHead

def storedRow (entry : Entry) : Bytes × Bytes := (toBytes 8 entry.1.nextSeq, entry.1.hash.1 ++ entry.2)

theorem advance_fresh (head : ChainHead) (payload : Bytes) : advance digest head payload ≠ emptyHead := by
  intro same
  have counted : saturatingSucc head.nextSeq = 0 := congrArg ChainHead.nextSeq same
  unfold saturatingSucc at counted
  omega

theorem compare_head_result (expected head : ChainHead) :
    compareHead expected head = if expected = head then .ok () else .error headMismatch := by
  rw [compareHead]
  by_cases same : expected = head
  · rw [if_pos same, same]
    exact if_neg (by simp)
  · rw [if_neg same, if_pos]
    by_contra agree
    push Not at agree
    exact same (congrArg₂ ChainHead.mk agree.2 agree.1)

theorem compare_head_ok {expected head : ChainHead} : compareHead expected head = .ok () ↔ expected = head := by
  rw [compare_head_result]
  split
  case isTrue same => exact iff_of_true rfl same
  case isFalse different => exact iff_of_false nofun different

theorem verify_chain_iff (expected last : ChainHead) (raw : List Entry) :
    verifyChain digest expected raw = .ok last ↔ walk (advance digest) expected raw = some last := by
  induction raw generalizing expected with
  | nil => exact ⟨fun done => congrArg some (Except.ok.inj done), fun done => congrArg Except.ok (Option.some.inj done)⟩
  | cons entry rest ih =>
    obtain ⟨⟨seq, prev⟩, payload⟩ := entry
    obtain ⟨expectedSeq, expectedPrev⟩ := expected
    rw [verifyChain, walk]
    by_cases sameSeq : seq = expectedSeq
    · by_cases samePrev : prev = expectedPrev
      · rw [if_neg (not_not.mpr sameSeq), if_neg (not_not.mpr samePrev), if_pos (congrArg₂ ChainHead.mk sameSeq samePrev)]
        exact ih _
      · rw [if_neg (not_not.mpr sameSeq), if_pos samePrev, if_neg fun same => samePrev (congrArg ChainHead.hash same)]
        exact iff_of_false (by simp) (by simp)
    · simp only [ne_eq, sameSeq, not_false_eq_true, if_true]
      rw [if_neg fun same => sameSeq (congrArg ChainHead.nextSeq same)]
      exact iff_of_false (by simp) (by simp)

theorem read_row_stored {entry : Entry} (small : entry.1.nextSeq < 2 ^ 64) : readRow (storedRow entry) = .ok entry := by
  obtain ⟨⟨seq, prev⟩, payload⟩ := entry
  have decoded : decodeSeq (toBytes 8 seq) = .ok seq := by
    have read : ofBytes (toBytes 8 seq) = seq := of_to_bytes_of_lt small
    rw [decodeSeq, if_pos (to_bytes_length 8 seq), read]
  have long : 32 ≤ (prev.1 ++ payload).length := by
    rw [length_append, prev.2]
    omega
  have first : (prev.1 ++ payload).take 32 = prev.1 := take_left' prev.2
  have last : (prev.1 ++ payload).drop 32 = payload := drop_left' prev.2
  rw [readRow, storedRow]
  dsimp only
  rw [decoded]
  refine (dif_pos long).trans ?_
  simp only [first, last]

theorem stored_row_read {row : Bytes × Bytes} {entry : Entry} (read : readRow row = .ok entry) :
    storedRow entry = row := by
  obtain ⟨seq, decoded, rest⟩ := bind_ok read
  rw [decodeSeq] at decoded
  split at decoded
  case isFalse => cases decoded
  case isTrue eight =>
    have key := to_of_bytes row.1
    rw [eight] at key
    split at rest
    case isFalse => cases rest
    case isTrue long =>
      cases decoded
      cases rest
      exact Prod.ext key (take_append_drop 32 row.2)

theorem read_raw_stored {entries : List Entry} (listed : tree.toList = entries.map storedRow)
    (small : ∀ entry ∈ entries, entry.1.nextSeq < 2 ^ 64) : readRaw tree = .ok entries := by
  rw [readRaw, prefix_scan_all, listed, mapM_map]
  have done : entries.mapM (readRow ∘ storedRow) = .ok (entries.map id) :=
    map_all_done fun entry member => read_row_stored (small entry member)
  rw [List.map_id] at done
  exact done

theorem stored_raw_read {raw : List Entry} (read : readRaw tree = .ok raw) : tree.toList = raw.map storedRow := by
  rw [readRaw, prefix_scan_all] at read
  have each := map_all_ok read
  generalize tree.toList = rows at each
  clear read
  induction each with
  | nil => rfl
  | cons first _ ih => rw [map_cons, stored_row_read first, ih]

section

variable (payloads : List Bytes)

def chain : List Entry := entries (advance digest) emptyHead payloads

def chainTip : ChainHead := tip (advance digest) emptyHead payloads

def numbered : List (Nat × Bytes) := (List.range payloads.length).zip payloads

theorem chain_tip_seq : (chainTip digest payloads).nextSeq = min payloads.length (2 ^ 64 - 1) := by
  induction payloads using reverseRecOn with
  | nil => rfl
  | append_singleton payloads payload ih =>
    have step : (chainTip digest (payloads ++ [payload])).nextSeq = saturatingSucc (chainTip digest payloads).nextSeq :=
      congrArg ChainHead.nextSeq (tip_append (advance digest) emptyHead payloads)
    rw [step, ih, length_append, length_singleton]
    unfold saturatingSucc
    omega

theorem chain_seq : ∀ entry ∈ chain digest payloads, entry.1.nextSeq < payloads.length ∧ entry.1.nextSeq < 2 ^ 64 := by
  induction payloads using reverseRecOn with
  | nil => exact nofun
  | append_singleton payloads payload ih =>
    intro entry member
    rw [chain, entries_append] at member
    rw [length_append, length_singleton]
    rcases mem_append.mp member with before | last
    · have bounds := ih entry before
      omega
    · rw [mem_singleton.mp last]
      have seq := chain_tip_seq digest payloads
      rw [chainTip] at seq
      dsimp only
      omega

theorem chain_numbered (few : payloads.length ≤ 2 ^ 64) :
    (chain digest payloads).map (fun entry => (entry.1.nextSeq, entry.2)) = numbered payloads := by
  induction payloads using reverseRecOn with
  | nil => rfl
  | append_singleton payloads payload ih =>
    rw [length_append, length_singleton] at few
    have seq := chain_tip_seq digest payloads
    rw [chainTip, Nat.min_eq_left (by omega)] at seq
    rw [chain, entries_append, map_append, ← chain, ih (by omega), numbered, numbered, length_append, length_singleton,
      range_succ, zip_append (length_range)]
    exact congrArg (fun number => _ ++ [(number, payload)]) seq

end

structure Log where
  tree : DomainTree Bytes
  head : ChainHead
  appended : List Bytes

def start : Log := ⟨∅, emptyHead, []⟩

-- A failed write returns before the head is touched.
def append (log : Log) (payload : Bytes) (written : Bool) : Log := if written then
    { tree := log.tree.insert (toBytes 8 log.head.nextSeq) (log.head.hash.1 ++ payload)
      head := advance digest log.head payload
      appended := log.appended ++ [payload] }
  else log

inductive Act where
  | append (payload : Bytes) (written : Bool)
  | restart
  | edit (tree : DomainTree Bytes)

def step (log : Log) : Act → Option Log
  | .append payload written => some (append digest log payload written)
  | .restart =>
    match recoverHead digest log.tree with
    | .ok head => some { log with head := head }
    | .error _ => none
  | .edit tree => some { log with tree := tree }

structure Recorded (log : Log) : Prop where
  listed : log.tree.toList = (chain digest log.appended).map storedRow
  tip : log.head = chainTip digest log.appended

variable {digest} {log next : Log}

theorem chain_raw {payloads : List Bytes} (listed : tree.toList = (chain digest payloads).map storedRow) :
    readRaw tree = .ok (chain digest payloads) :=
  read_raw_stored listed fun entry member => (chain_seq digest payloads entry member).2

theorem recorded_raw (recorded : Recorded digest log) : readRaw log.tree = .ok (chain digest log.appended) :=
  chain_raw recorded.listed

theorem verify_chain_whole {payloads : List Bytes} :
    verifyChain digest emptyHead (chain digest payloads) = .ok (chainTip digest payloads) := by
  refine (verify_chain_iff digest _ _ _).mpr ((walk_iff _ _ _ _).mpr ?_)
  rw [chain, entries_items]
  exact ⟨rfl, rfl⟩

theorem recorded_verifies (recorded : Recorded digest log) : verify digest log.tree log.head = .ok () := by
  rw [verify, recorded_raw recorded]
  refine Eq.trans ?_ (compare_head_ok.mpr (Eq.refl log.head))
  rw [recorded.tip]
  exact congrArg (· >>= fun expected => compareHead expected (chainTip digest log.appended)) verify_chain_whole

theorem recorded_recovers (recorded : Recorded digest log) : recoverHead digest log.tree = .ok log.head := by
  rw [recoverHead, recorded_raw recorded, recorded.tip]
  exact congrArg Except.ok (replay_entries (advance digest) emptyHead log.appended)

theorem recorded_entries (recorded : Recorded digest log) (few : log.appended.length ≤ 2 ^ 64) :
    readEntries log.tree = .ok (numbered log.appended) := by
  rw [readEntries, recorded_raw recorded]
  exact congrArg Except.ok (chain_numbered digest log.appended few)

theorem chain_insert {payloads : List Bytes} (listed : tree.toList = (chain digest payloads).map storedRow)
    (payload : Bytes) (few : payloads.length < 2 ^ 64) :
    (tree.insert (toBytes 8 (chainTip digest payloads).nextSeq) ((chainTip digest payloads).hash.1 ++ payload)).toList =
      (chain digest (payloads ++ [payload])).map storedRow := by
  have seq : (chainTip digest payloads).nextSeq = payloads.length := by
    rw [chain_tip_seq]
    omega
  have beyond : ∀ key ∈ tree, compare key (toBytes 8 (chainTip digest payloads).nextSeq) = .lt := by
    intro key member
    have row := mem_toList_iff_getElem?_eq_some.mpr (ExtTreeMap.getElem?_eq_some_getElem member)
    rw [listed] at row
    obtain ⟨entry, inside, same⟩ := mem_map.mp row
    obtain ⟨before, small⟩ := chain_seq digest payloads entry inside
    have order := to_bytes_compare 8 entry.1.nextSeq (chainTip digest payloads).nextSeq [] [] small (seq ▸ few)
    rw [append_nil, append_nil, Nat.compare_eq_lt.mpr (seq ▸ before)] at order
    rw [← show toBytes 8 entry.1.nextSeq = key from congrArg Prod.fst same]
    exact order
  refine (Ranges.insert_last beyond).trans ?_
  rw [chain, entries_append, map_append, ← chain, listed]
  rfl

theorem chain_tip_append {payloads : List Bytes} {payload : Bytes} :
    chainTip digest (payloads ++ [payload]) = advance digest (chainTip digest payloads) payload :=
  tip_append (advance digest) emptyHead payloads

theorem append_recorded (recorded : Recorded digest log) (payload : Bytes) (few : log.appended.length < 2 ^ 64) :
    Recorded digest (append digest log payload true) := by
  have inserted := chain_insert recorded.listed payload few
  rw [← recorded.tip] at inserted
  exact ⟨inserted, (congrArg (advance digest · payload) recorded.tip).trans chain_tip_append.symm⟩

theorem step_recorded (act : Act) (honest : ∀ tree, act ≠ .edit tree)
    (recorded : log.appended.length ≤ 2 ^ 64 → Recorded digest log)
    (stepped : step digest log act = some next) : next.appended.length ≤ 2 ^ 64 → Recorded digest next := by
  intro few
  cases act with
  | append payload written =>
    cases stepped
    cases written with
    | false => exact recorded few
    | true =>
      rw [append, if_pos rfl, length_append, length_singleton] at few
      exact append_recorded (recorded (by omega)) payload (by omega)
  | restart =>
    rw [step] at stepped
    split at stepped
    next head recovered =>
        cases stepped
        have before := recorded few
        rw [recorded_recovers before] at recovered
        cases recovered
        exact before
    next => cases stepped
  | edit tree => exact absurd rfl (honest tree)

theorem step_tip (act : Act) (alive : act ≠ .restart) (kept : log.head = chainTip digest log.appended)
    (stepped : step digest log act = some next) : next.head = chainTip digest next.appended := by
  cases act with
  | append payload written =>
    cases stepped
    cases written with
    | false => exact kept
    | true => exact (congrArg (advance digest · payload) kept).trans chain_tip_append.symm
  | restart => exact absurd rfl alive
  | edit tree =>
    cases stepped
    exact kept

def hashed (digest : Bytes → Hash) (log : Log) : Set Bytes :=
  { bytes | ∃ entry : Entry, (entry ∈ chain digest log.appended ∨ ∃ raw, readRaw log.tree = .ok raw ∧ entry ∈ raw) ∧
      bytes = entryBytes entry.1.nextSeq entry.1.hash entry.2 }

theorem entry_bytes_injective {entry other : Entry} (small : entry.1.nextSeq < 2 ^ 64)
    (otherSmall : other.1.nextSeq < 2 ^ 64) (same : entryBytes entry.1.nextSeq entry.1.hash entry.2 =
    entryBytes other.1.nextSeq other.1.hash other.2) : entry = other := by
  obtain ⟨⟨seq, prev⟩, payload⟩ := entry
  obtain ⟨⟨otherSeq, otherPrev⟩, otherPayload⟩ := other
  have links : (toBytes 8 seq ++ prev.1).length = (toBytes 8 otherSeq ++ otherPrev.1).length := by
    rw [length_append, length_append, to_bytes_length, to_bytes_length, prev.2, otherPrev.2]
  obtain ⟨linked, payloads⟩ := append_inj same links
  obtain ⟨seqs, prevs⟩ := append_inj linked ((to_bytes_length 8 seq).trans (to_bytes_length 8 otherSeq).symm)
  have read : ofBytes (toBytes 8 seq) = seq := of_to_bytes_of_lt small
  have otherRead : ofBytes (toBytes 8 otherSeq) = otherSeq := of_to_bytes_of_lt otherSmall
  have numbers : seq = otherSeq := read.symm.trans ((congrArg ofBytes seqs).trans otherRead)
  exact congrArg₂ Prod.mk (congrArg₂ ChainHead.mk numbers (Subtype.ext prevs)) payloads

theorem verified_exact (kept : log.head = chainTip digest log.appended) (free : Set.InjOn digest (hashed digest log))
    (verified : verify digest log.tree log.head = .ok ()) :
    log.tree.toList = (chain digest log.appended).map storedRow := by
  obtain ⟨raw, read, rest⟩ := bind_ok verified
  obtain ⟨expected, walked, compared⟩ := bind_ok rest
  obtain ⟨chained, tipped⟩ := (walk_iff _ _ _ _).mp ((verify_chain_iff digest _ _ _).mp walked)
  have stored : raw = chain digest (raw.map Prod.snd) := chained
  have same : raw.map Prod.snd = log.appended := by
    refine tip_injective (advance digest) (advance_fresh digest) (fun entry member other otherMember equal => ?_)
      (tipped.trans ((compare_head_ok.mp compared).trans kept))
    have smallEntry := (chain_seq digest _ entry member).2
    have smallOther := (chain_seq digest _ other otherMember).2
    refine entry_bytes_injective smallEntry smallOther
      (free ⟨entry, .inr ⟨raw, read, ?_⟩, rfl⟩ ⟨other, .inl otherMember, rfl⟩ (congrArg ChainHead.hash equal))
    rw [stored]
    exact member
  rw [stored_raw_read read, stored, same]

end

theorem audit_log_integrity (digest : Bytes → Hash) (honest : List Act) (started : Log)
    (ran : runs (step digest) start honest = some started)
    (untampered : ∀ act ∈ honest, ∀ tree, act ≠ .edit tree) (few : started.appended.length ≤ 2 ^ 64) :
    (verify digest started.tree started.head = .ok () ∧ readEntries started.tree = .ok (numbered started.appended) ∧
    recoverHead digest started.tree = .ok started.head) ∧
      ∀ lifetime last, runs (step digest) started lifetime = some last → (∀ act ∈ lifetime, act ≠ .restart) →
      Set.InjOn digest (hashed digest last) →
        verify digest last.tree last.head = .ok () → last.tree.toList = (chain digest last.appended).map storedRow := by
  have empty : start.appended.length ≤ 2 ^ 64 → Recorded digest start := fun _ => ⟨rfl, rfl⟩
  have recorded : started.appended.length ≤ 2 ^ 64 → Recorded digest started :=
    runs_meeting_invariant (fun log act next holds spared stepped => step_recorded act spared holds stepped) empty
      (all_meet_of_members start untampered) ran
  have holds := recorded few
  refine ⟨⟨recorded_verifies holds, recorded_entries holds few, recorded_recovers holds⟩,
    fun lifetime last later alive free verified => ?_⟩
  have kept : last.head = chainTip digest last.appended :=
    runs_meeting_invariant (fun log act next holds alive stepped => step_tip act alive holds stepped) holds.tip
      (all_meet_of_members started alive) later
  exact verified_exact kept free verified

def firstBytes (bytes : Bytes) : Hash := ⟨(bytes ++ List.replicate 32 0).take 32, by simp⟩

def failedWriteBetween : List Act := [.append [7] true, .append [8] false, .restart, .append [9] true]

theorem failed_write_run : (runs (step firstBytes) start failedWriteBetween).isSome = true := by decide +kernel

theorem failed_write_intact : ∃ last, runs (step firstBytes) start failedWriteBetween = some last ∧
    last.appended = [[7], [9]] ∧ verify firstBytes last.tree last.head = .ok () ∧
      last.tree.toList = (chain firstBytes last.appended).map storedRow := by
  have ended := (Option.some_get failed_write_run).symm
  have appended : ((runs (step firstBytes) start failedWriteBetween).get failed_write_run).appended = [[7], [9]] := by
    decide +kernel
  obtain ⟨⟨verified, _⟩, exact⟩ :=
    audit_log_integrity firstBytes failedWriteBetween _ ended (by simp [failedWriteBetween]) (by rw [appended]; decide)
  refine ⟨_, ended, appended, verified, exact [] _ rfl (by simp) ?_ verified⟩
  have read : readRaw ((runs (step firstBytes) start failedWriteBetween).get failed_write_run).tree = .ok
    (chain firstBytes [[7], [9]]) := by decide +kernel
  have inside : ∀ bytes ∈ hashed firstBytes ((runs (step firstBytes) start failedWriteBetween).get failed_write_run),
      ∃ entry ∈ chain firstBytes [[7], [9]], bytes = entryBytes entry.1.nextSeq entry.1.hash entry.2 := by
    rintro bytes ⟨entry, either, same⟩
    rw [appended, read] at either
    rcases either with chained | ⟨raw, listed, member⟩
    · exact ⟨entry, chained, same⟩
    · cases listed
      exact ⟨entry, member, same⟩
  have apart : ∀ entry ∈ chain firstBytes [[7], [9]], ∀ other ∈ chain firstBytes [[7], [9]],
      firstBytes (entryBytes entry.1.nextSeq entry.1.hash entry.2) = firstBytes
        (entryBytes other.1.nextSeq other.1.hash other.2) → entry = other := by
    decide +kernel
  intro bytes first other second equal
  obtain ⟨entry, member, rfl⟩ := inside bytes first
  obtain ⟨entry', member', rfl⟩ := inside other second
  rw [apart entry member entry' member' equal]

theorem appends_run (digest : Bytes → Hash) (n : Nat) :
    ∃ last, runs (step digest) start (List.replicate n (.append [] true)) = some last ∧ last.appended.length = n := by
  induction n with
  | zero => exact ⟨start, rfl, rfl⟩
  | succ n ih =>
    obtain ⟨last, ran, length⟩ := ih
    refine ⟨append digest last [] true, ?_, ?_⟩
    · rw [replicate_succ']
      exact runs_append.mpr ⟨last, ran, rfl⟩
    · rw [append, if_pos rfl, length_append, length, length_singleton]

theorem chain_length (digest : Bytes → Hash) (payloads : List Bytes) :
    (chain digest payloads).length = payloads.length := by
  rw [← length_map Prod.snd, chain, entries_items]

theorem last_key_held {digest : Bytes → Hash} {full : Log} (recorded : Recorded digest full)
    (length : full.appended.length = 2 ^ 64) : toBytes 8 full.head.nextSeq ∈ full.tree := by
  have seq := chain_tip_seq digest full.appended
  rw [← recorded.tip, length] at seq
  have nonempty : full.appended ≠ [] := fun empty => by simp [empty] at length
  obtain ⟨payloads, last, split⟩ : ∃ payloads last, full.appended = payloads ++ [last] :=
    ⟨_, _, (dropLast_append_getLast nonempty).symm⟩
  have before := chain_tip_seq digest payloads
  have shorter : payloads.length = 2 ^ 64 - 1 := by
    rw [split, length_append, length_singleton] at length
    omega
  rw [shorter] at before
  have row : storedRow (chainTip digest payloads, last) ∈ full.tree.toList := by
    rw [recorded.listed, split, chain, entries_append]
    exact mem_map_of_mem (mem_append_right _ (mem_singleton.mpr rfl))
  have read : full.tree[toBytes 8 (chainTip digest payloads).nextSeq]? = some
    ((chainTip digest payloads).hash.1 ++ last) := mem_toList_iff_getElem?_eq_some.mp row
  rw [seq.trans before.symm]
  exact mem_iff_read.mpr ⟨_, read⟩

theorem full_log_loses {digest : Bytes → Hash} :
    ∃ last, runs (step digest) start (List.replicate (2 ^ 64 + 1) (.append [] true)) = some last ∧
    last.appended.length = 2 ^ 64 + 1 ∧
      readEntries last.tree ≠ .ok (numbered last.appended) := by
  obtain ⟨full, ran, length⟩ := appends_run digest (2 ^ 64)
  have recorded : full.appended.length ≤ 2 ^ 64 → Recorded digest full := by
    refine runs_meeting_invariant (fun log act next holds spared => step_recorded act spared holds) (fun _ => ⟨rfl, rfl⟩)
      (all_meet_of_members start fun act member tree => ?_) ran
    rw [eq_of_mem_replicate member]
    exact nofun
  have holds := recorded (Nat.le_of_eq length)
  refine ⟨append digest full [] true, ?_, ?_, fun read => ?_⟩
  · rw [replicate_succ']
    exact runs_append.mpr ⟨full, ran, rfl⟩
  · rw [append, if_pos rfl, length_append, length, length_singleton]
  · obtain ⟨raw, listed, entered⟩ := map_ok read
    have rows := congrArg List.length (stored_raw_read listed)
    have kept : (append digest full [] true).tree.size = full.tree.size := size_insert.trans (if_pos (last_key_held holds length))
    have before := congrArg List.length holds.listed
    have after := congrArg List.length entered
    rw [length_map, numbered, length_zip, length_range, Nat.min_self, append, if_pos rfl, length_append, length_singleton, length] at after
    rw [length_map, length_toList, kept, ← length_toList, before, length_map, chain_length, length] at rows
    omega

theorem full_log_overwrites : ∃ last, runs (step firstBytes) start (List.replicate (2 ^ 64 + 1) (.append [] true)) =
    some last ∧ last.appended.length = 2 ^ 64 + 1 ∧
      readEntries last.tree ≠ .ok (numbered last.appended) :=
  full_log_loses

end GaussMatrix.Audit

import GaussMatrix.Audit.Log

namespace GaussMatrix.Audit.Concurrent

open BigEndian Collections HashChain List Option Outcome Runs Store

inductive Check where
  | unread
  | walked (expected : ChainHead)
  | done (result : Except String Unit)
deriving DecidableEq

structure Service where
  tree : DomainTree Bytes
  head : ChainHead
  appending : Option (Bytes × Bool)
  checks : List Check
  logged : List Bytes

inductive Act where
  | lock (payload : Bytes)
  | put (written : Bool)
  | unlock
  | scan (read : Bool)
  | compare (id : Nat)
deriving DecidableEq

def scanCheck (digest : Bytes → Hash) (tree : DomainTree Bytes) : Check :=
  match readRaw tree >>= verifyChain digest emptyHead with
  | .ok expected => .walked expected
  | .error message => .done (.error message)

def step (digest : Bytes → Hash) (service : Service) : Act → Option Service
  | .lock payload =>
    match service.appending with
    | none => some { service with appending := some (payload, false) }
    | some _ => none
  | .put written =>
    match service.appending with
    | some (payload, false) =>
      if written then
        some { service with
          tree := service.tree.insert (toBytes 8 service.head.nextSeq) (service.head.hash.1 ++ payload)
          appending := some (payload, true)
          logged := service.logged ++ [payload] }
      else some { service with appending := none }
    | _ => none
  | .unlock =>
    match service.appending with
    | some (payload, true) => some { service with head := advance digest service.head payload, appending := none }
    | _ => none
  | .scan read =>
    some { service with checks := service.checks ++ [if read then scanCheck digest service.tree else .unread] }
  | .compare id =>
    match service.appending, service.checks[id]? with
    | none, some (.walked expected) => some { service with checks := service.checks.set id (.done (compareHead expected service.head)) }
    | _, _ => none

def start : Service := ⟨∅, emptyHead, none, [], []⟩

variable {payload : Bytes} {id : Nat} {act : Act} {acts : List Act}

section

variable {digest : Bytes → Hash} {service next : Service}

def Follows (digest : Bytes → Hash) (service : Service) : Prop :=
  match service.appending with
  | some (payload, true) => ∃ earlier, service.logged = earlier ++ [payload] ∧ service.head = chainTip digest earlier
  | _ => service.head = chainTip digest service.logged

structure Consistent (digest : Bytes → Hash) (service : Service) : Prop where
  listed : service.tree.toList = (chain digest service.logged).map storedRow
  follows : Follows digest service

theorem start_consistent : Consistent digest start := ⟨rfl, rfl⟩

theorem follows_idle (consistent : Consistent digest service) (idle : service.appending = none) :
    service.head = chainTip digest service.logged := by
  have follows := consistent.follows
  rw [Follows, idle] at follows
  exact follows

theorem step_lock (stepped : step digest service (.lock payload) = some next) :
    service.appending = none ∧ next = { service with appending := some (payload, false) } := by
  rw [step] at stepped
  split at stepped
  next idle => exact ⟨idle, (some.inj stepped).symm⟩
  next => cases stepped

theorem step_put {written : Bool} (stepped : step digest service (.put written) = some next) :
    ∃ payload, service.appending = some (payload, false) ∧ next = if written then
          { service with
            tree := service.tree.insert (toBytes 8 service.head.nextSeq) (service.head.hash.1 ++ payload)
            appending := some (payload, true)
            logged := service.logged ++ [payload] }
        else { service with appending := none } := by
  rw [step] at stepped
  split at stepped
  next payload held => cases written <;> exact ⟨payload, held, (some.inj stepped).symm⟩
  next => cases stepped

theorem step_unlock (stepped : step digest service .unlock = some next) :
    ∃ payload, service.appending = some (payload, true) ∧
    next = { service with head := advance digest service.head payload, appending := none } := by
  rw [step] at stepped
  split at stepped
  next payload held => exact ⟨payload, held, (some.inj stepped).symm⟩
  next => cases stepped

theorem step_compare (stepped : step digest service (.compare id) = some next) :
    ∃ expected, service.appending = none ∧ service.checks[id]? = some (.walked expected) ∧
      next = { service with checks := service.checks.set id (.done (compareHead expected service.head)) } := by
  rw [step] at stepped
  split at stepped
  next expected idle held => exact ⟨expected, idle, held, (some.inj stepped).symm⟩
  next => cases stepped

theorem put_consistent (consistent : Consistent digest service) (held : service.appending = some (payload, false))
    (few : service.logged.length < 2 ^ 64) : Consistent digest { service with
      tree := service.tree.insert (toBytes 8 service.head.nextSeq) (service.head.hash.1 ++ payload)
      appending := some (payload, true)
      logged := service.logged ++ [payload] } := by
  have follows := consistent.follows
  rw [Follows, held] at follows
  have inserted := chain_insert consistent.listed payload few
  rw [← follows] at inserted
  exact ⟨inserted, ⟨service.logged, rfl, follows⟩⟩

theorem step_consistent (consistent : service.logged.length ≤ 2 ^ 64 → Consistent digest service)
    (stepped : step digest service act = some next) : next.logged.length ≤ 2 ^ 64 → Consistent digest next := by
  intro few
  cases act with
  | lock payload =>
    obtain ⟨idle, rfl⟩ := step_lock stepped
    have before := consistent few
    have tipped := follows_idle before idle
    exact ⟨before.listed, tipped⟩
  | put written =>
    obtain ⟨payload, held, rfl⟩ := step_put stepped
    cases written with
    | false =>
      have before := consistent few
      have follows := before.follows
      rw [Follows, held] at follows
      exact ⟨before.listed, follows⟩
    | true =>
      rw [if_pos rfl, length_append, length_singleton] at few
      exact put_consistent (consistent (by omega)) held (by omega)
  | unlock =>
    obtain ⟨payload, held, rfl⟩ := step_unlock stepped
    have before := consistent few
    have follows := before.follows
    rw [Follows, held] at follows
    obtain ⟨earlier, logged, tipped⟩ := follows
    refine ⟨before.listed, ?_⟩
    rw [Follows]
    dsimp only
    rw [logged, chain_tip_append, tipped]
  | scan read =>
    cases stepped
    exact ⟨(consistent few).listed, (consistent few).follows⟩
  | compare id =>
    obtain ⟨expected, idle, held, rfl⟩ := step_compare stepped
    exact ⟨(consistent few).listed, (consistent few).follows⟩

theorem run_consistent (ran : runs (step digest) start acts = some service) (few : service.logged.length ≤ 2 ^ 64) :
    Consistent digest service := by
  have holds : service.logged.length ≤ 2 ^ 64 → Consistent digest service :=
    runs_invariant (fun _ act _ => step_consistent) (fun _ => start_consistent) ran
  exact holds few

theorem scan_walks (consistent : Consistent digest service) :
    scanCheck digest service.tree = .walked (chainTip digest service.logged) := by
  have walked : (readRaw service.tree >>= verifyChain digest emptyHead) = .ok (chainTip digest service.logged) := by
    rw [chain_raw consistent.listed]
    exact verify_chain_whole
  rw [scanCheck, walked]

theorem step_logged (stepped : step digest service act = some next) :
    (act ≠ .put true ∧ next.logged = service.logged) ∨ act = .put true ∧ ∃ payload, next.logged = service.logged ++
    [payload] := by
  cases act with
  | lock payload =>
    obtain ⟨idle, rfl⟩ := step_lock stepped
    exact .inl ⟨nofun, rfl⟩
  | put written =>
    obtain ⟨payload, held, rfl⟩ := step_put stepped
    cases written with
    | false => exact .inl ⟨nofun, rfl⟩
    | true => exact .inr ⟨rfl, payload, rfl⟩
  | unlock =>
    obtain ⟨payload, held, rfl⟩ := step_unlock stepped
    exact .inl ⟨nofun, rfl⟩
  | scan read =>
    cases stepped
    exact .inl ⟨nofun, rfl⟩
  | compare id =>
    obtain ⟨expected, idle, held, rfl⟩ := step_compare stepped
    exact .inl ⟨nofun, rfl⟩

theorem run_logged (ran : runs (step digest) service acts = some next) :
    ∃ added, next.logged = service.logged ++ added ∧ (added = [] ↔ Act.put true ∉ acts) := by
  induction acts generalizing service with
  | nil =>
    cases ran
    exact ⟨[], (append_nil _).symm, by simp⟩
  | cons act rest ih =>
    obtain ⟨middle, stepped, later⟩ := runs_cons.mp ran
    obtain ⟨added, logged, iff⟩ := ih later
    rcases step_logged stepped with ⟨other, same⟩ | ⟨rfl, payload, longer⟩
    · refine ⟨added, by rw [logged, same], ?_⟩
      rw [iff, mem_cons, not_or]
      exact ⟨fun absent => ⟨other.symm, absent⟩, And.right⟩
    · refine ⟨payload :: added, by rw [logged, longer, append_assoc]; rfl, ?_⟩
      exact ⟨nofun, absurd mem_cons_self⟩

theorem step_walked {expected : ChainHead}
    (waits : service.checks[id]? = some (.walked expected) ∨ ∃ result, service.checks[id]? = some (.done result))
    (stepped : step digest service act = some next) :
    next.checks[id]? = some (.walked expected) ∨ ∃ result, next.checks[id]? = some (.done result) := by
  cases act with
  | lock payload =>
    obtain ⟨idle, rfl⟩ := step_lock stepped
    exact waits
  | put written =>
    obtain ⟨payload, held, rfl⟩ := step_put stepped
    cases written <;> exact waits
  | unlock =>
    obtain ⟨payload, held, rfl⟩ := step_unlock stepped
    exact waits
  | scan read =>
    cases stepped
    have inside : id < service.checks.length := by
      rcases waits with held | ⟨result, held⟩
      · exact (List.getElem?_eq_some_iff.mp held).1
      · exact (List.getElem?_eq_some_iff.mp held).1
    rw [getElem?_append_left inside]
    exact waits
  | compare other =>
    obtain ⟨found, idle, held, rfl⟩ := step_compare stepped
    rw [getElem?_set]
    by_cases same : other = id
    · rw [if_pos same, if_pos (List.getElem?_eq_some_iff.mp held).1]
      exact .inr ⟨_, rfl⟩
    · rw [if_neg same]
      exact waits

theorem tips_agree (digest : Bytes → Hash) {payloads added : List Bytes} (few : (payloads ++ added).length < 2 ^ 64) :
    chainTip digest payloads = chainTip digest (payloads ++ added) ↔ added = [] := by
  constructor
  · intro same
    have seqs := congrArg ChainHead.nextSeq same
    rw [length_append] at few
    rw [chain_tip_seq, chain_tip_seq, length_append] at seqs
    exact eq_nil_of_length_eq_zero (by omega)
  · rintro rfl
    rw [append_nil]

-- None is a restart. It may come after any act, a store write included, and recovers the head from the store.
def live (digest : Bytes → Hash) (service : Service) : Option Act → Option Service
  | some act => step digest service act
  | none => (recoverHead digest service.tree).toOption.map fun head => ⟨service.tree, head, none, [], service.logged⟩

theorem consistent_recorded (consistent : Consistent digest service) :
    Recorded digest ⟨service.tree, chainTip digest service.logged, service.logged⟩ := ⟨consistent.listed, rfl⟩

theorem live_consistent {act : Option Act} (consistent : service.logged.length ≤ 2 ^ 64 → Consistent digest service)
    (lived : live digest service act = some next) : next.logged.length ≤ 2 ^ 64 → Consistent digest next := by
  intro few
  cases act with
  | some act => exact step_consistent consistent lived few
  | none =>
    obtain ⟨head, recovered, rfl⟩ := map_eq_some_iff.mp lived
    rw [recorded_recovers (consistent_recorded (consistent few))] at recovered
    cases recovered
    exact ⟨(consistent few).listed, rfl⟩

theorem restart_recovers {acts : List (Option Act)} (lived : runs (live digest) start acts = some service)
    (few : service.logged.length ≤ 2 ^ 64) : recoverHead digest service.tree = .ok (chainTip digest service.logged) ∧
    readEntries service.tree = .ok (numbered service.logged) := by
  have recorded :=
    consistent_recorded (runs_invariant (fun _ _ _ => live_consistent) (fun _ => start_consistent) lived few)
  exact ⟨recorded_recovers recorded, recorded_entries recorded few⟩

-- The first process ends before it has advanced its head.
theorem restart_before_unlock : ∃ service : Service, service.logged = [[7], [8]] ∧
    readEntries service.tree = .ok [(0, [7]), (1, [8])] := by
  have lived : runs (live firstBytes) start [some (.lock [7]), some (.put true), none, some (.lock [8]),
    some (.put true)] = some _ := rfl
  exact ⟨_, rfl, (restart_recovers lived (by decide)).2⟩

end

theorem verify_alarm_iff (digest : Bytes → Hash) (before : List Act) (scanned begun : Service)
    (ran : runs (step digest) start before = some scanned)
    (began : step digest scanned (.scan true) = some begun) (few : scanned.logged.length ≤ 2 ^ 64) :
    begun.checks[scanned.checks.length]? = some (.walked (chainTip digest scanned.logged)) ∧
      ∀ between waiting last, runs (step digest) begun between = some waiting →
      step digest waiting (.compare scanned.checks.length) = some last →
        last.logged.length < 2 ^ 64 → (last.checks[scanned.checks.length]? = some (.done (.ok ())) ↔ Act.put true ∉ between) ∧
          (last.checks[scanned.checks.length]? = some (.done (.error headMismatch)) ↔ Act.put true ∈ between) := by
  have consistent := run_consistent ran few
  cases began
  have walks : (scanned.checks ++ [scanCheck digest scanned.tree])[scanned.checks.length]? = some
    (.walked (chainTip digest scanned.logged)) := by
    rw [getElem?_append_right (Nat.le_refl _), Nat.sub_self, scan_walks consistent]
    rfl
  refine ⟨walks, fun between waiting last went ended small => ?_⟩
  obtain ⟨expected, idle, held, rfl⟩ := step_compare ended
  obtain ⟨added, logged, unchanged⟩ := run_logged went
  have whole : runs (step digest) start (before ++ .scan true :: between) = some waiting :=
    runs_append.mpr ⟨scanned, ran, runs_cons.mpr ⟨_, rfl, went⟩⟩
  have tipped := follows_idle (run_consistent whole (Nat.le_of_lt small)) idle
  have kept := runs_invariant (fun _ act _ waits stepped => step_walked waits stepped) (Or.inl walks) went
  have same : expected = chainTip digest scanned.logged := by
    rcases kept with still | ⟨result, finished⟩
    · cases held.symm.trans still
      rfl
    · cases held.symm.trans finished
  have result :
    (waiting.checks.set scanned.checks.length (.done (compareHead expected waiting.head)))[scanned.checks.length]? =
      some (.done (if added = [] then .ok () else .error headMismatch)) := by
    have agree := tips_agree digest (by rw [← logged]; exact small)
    rw [getElem?_set_self (List.getElem?_eq_some_iff.mp held).1, compare_head_result, same, tipped, logged]
    simp only [agree]
  dsimp only
  rw [result]
  by_cases quiet : added = []
  · have absent := unchanged.mp quiet
    rw [if_pos quiet]
    exact ⟨iff_of_true rfl absent, iff_of_false nofun absent⟩
  · have present : Act.put true ∈ between := by_contra fun absent => quiet (unchanged.mpr absent)
    rw [if_neg quiet]
    exact ⟨iff_of_false nofun (not_not.mpr present), iff_of_true rfl present⟩

def appendOne : List Act := [.lock [7], .put true, .unlock]

def failedAppendBetween : List Act := appendOne ++ .scan true :: ([.lock [8], .put false] ++ [.compare 0])

theorem failed_append_passes : ∃ last, runs (step firstBytes) start failedAppendBetween = some last ∧
    last.checks[0]? = some (.done (.ok ())) := by
  have whole : (runs (step firstBytes) start failedAppendBetween).isSome = true := by decide +kernel
  have length : ((runs (step firstBytes) start failedAppendBetween).map fun last => last.logged.length) = some 1 := by
    decide +kernel
  have early : ((runs (step firstBytes) start appendOne).map fun scanned =>
    (scanned.checks.length, scanned.logged.length)) = some (0, 1) := by decide +kernel
  obtain ⟨last, ran⟩ := isSome_iff_exists.mp whole
  obtain ⟨scanned, before, rest⟩ := runs_append.mp ran
  obtain ⟨begun, began, more⟩ := runs_cons.mp rest
  obtain ⟨waiting, went, final⟩ := runs_append.mp more
  obtain ⟨ended, compared, stop⟩ := runs_cons.mp final
  cases stop
  rw [ran, map_some, Option.some.injEq] at length
  rw [before, map_some, Option.some.injEq, Prod.mk.injEq] at early
  obtain ⟨_, rest⟩ := verify_alarm_iff firstBytes appendOne scanned begun before began (by rw [early.2]; decide)
  rw [early.1] at rest
  exact ⟨last, ran, (rest _ waiting last went compared (by rw [length]; decide)).1.mpr (by decide)⟩

theorem append_after_scan_alarms :
    ((runs (step firstBytes) start (appendOne ++ .scan true :: appendOne ++ [.compare 0])).map fun last =>
    last.checks) = some [.done (.error headMismatch)] := by
  decide +kernel

def count (tree : DomainTree Bytes) : Except String Nat := (readEntries tree).map List.length

structure Manifest where
  entryCount : Nat
  headHash : Hash

-- After its verify the export counts the entries at one moment and reads the hash at a later one, when the lock is
-- free.
def signAuditExport (counted hashed : Service) : Except String Manifest :=
  (count counted.tree).map fun entryCount => ⟨entryCount, hashed.head.hash⟩

theorem export_consistent_iff (digest : Bytes → Hash) (before between : List Act) (counted hashed : Service)
    (ran : runs (step digest) start before = some counted) (went : runs (step digest) counted between = some hashed)
    (idle : hashed.appending = none) (few : hashed.logged.length ≤ 2 ^ 64) :
    counted.logged <+: hashed.logged ∧
    signAuditExport counted hashed = .ok ⟨counted.logged.length, (chainTip digest hashed.logged).hash⟩ ∧
      (counted.logged.length = hashed.logged.length ↔ Act.put true ∉ between) := by
  obtain ⟨added, logged, unchanged⟩ := run_logged went
  have tipped := follows_idle (run_consistent (runs_append.mpr ⟨counted, ran, went⟩) few) idle
  rw [logged, length_append] at few
  have early : counted.logged.length ≤ 2 ^ 64 := by omega
  have counts : count counted.tree = .ok counted.logged.length := by
    rw [count, readEntries, chain_raw (run_consistent ran early).listed]
    refine congrArg Except.ok ((congrArg List.length (chain_numbered digest counted.logged early)).trans ?_)
    rw [numbered, length_zip, length_range, Nat.min_self]
  refine ⟨⟨added, logged.symm⟩, by rw [signAuditExport, counts, tipped]; rfl, ?_⟩
  rw [← unchanged, logged, length_append, left_eq_add, length_eq_zero_iff]

-- Between the two reads an append fails and a verify is made.
def quietActs : List Act := [.lock [8], .put false, .scan true, .compare 0]

theorem quiet_export_consistent : ((runs (step firstBytes) start appendOne).bind fun counted =>
    (runs (step firstBytes) counted quietActs).bind fun hashed =>
    (signAuditExport counted hashed).toOption) = some ⟨1, (chainTip firstBytes [[7]]).hash⟩ := by
  obtain ⟨counted, ran⟩ :=
    isSome_iff_exists.mp (by decide +kernel : (runs (step firstBytes) start appendOne).isSome = true)
  have known : ((runs (step firstBytes) start appendOne).bind fun counted =>
    (runs (step firstBytes) counted quietActs).map fun hashed =>
      (counted.logged, hashed.appending, hashed.logged)) = some ([[7]], none, [[7]]) := by decide +kernel
  rw [ran, Option.bind_some] at known ⊢
  obtain ⟨hashed, went, parts⟩ := map_eq_some_iff.mp known
  obtain ⟨first, idle, second⟩ : counted.logged = [[7]] ∧ hashed.appending = none ∧ hashed.logged = [[7]] := by
    simpa using parts
  have exported :=
    (export_consistent_iff firstBytes appendOne quietActs counted hashed ran went idle (by rw [second]; decide)).2.1
  rw [went, Option.bind_some, exported, first, second]
  rfl

-- The verify passes, one entry is counted, another append is made, and the hash covers both.
theorem append_between_mismatches :
    ((runs (step firstBytes) start (appendOne ++ [.scan true, .compare 0])).bind fun counted =>
    (runs (step firstBytes) counted appendOne).bind fun hashed =>
      (signAuditExport counted hashed).toOption.map fun manifest => (counted.checks, manifest.entryCount, hashed.logged,
        decide (manifest.headHash = (chainTip firstBytes (hashed.logged.take manifest.entryCount)).hash))) =
    some ([.done (.ok ())], 1, [[7], [7]], false) := by
  decide +kernel

end GaussMatrix.Audit.Concurrent

import GaussMatrix.Agent.RateLimit
import GaussMatrix.Library.Runs

namespace GaussMatrix.Agent.Concurrent

open Collections FixedWindow List Option Runs Std.ExtTreeMap Store

inductive Progress where
  | failed
  | unlimited
  | limited
  | counting (read : Option Window) (window : Window)
  | admitted
deriving DecidableEq

structure Service where
  tree : DomainTree Bytes
  calls : List (Call × Progress)

inductive Act where
  | read (call : Call) (done : Bool)
  | write (id : Nat) (done : Bool)

def afterRead (grants : Grants) (tree : DomainTree Bytes) (call : Call) : Progress :=
  match rateLimitFor grants call.triple with
  | none => .unlimited
  | some limit =>
    let stored := storedWindow tree call.triple
    let window := current limit.windowSecs.toNat stored call.now.toNat
    if limit.max.toNat ≤ window.2 then .limited else .counting stored (window.1, min (window.2 + 1) (2 ^ 32 - 1))

-- Single store reads and writes of any number of calls, each of which may fail. The clock is read before the store, so
-- the times of the calls come in any order.
def step (grants : Grants) (service : Service) : Act → Option Service
  | .read call done => some { service with calls := service.calls ++ [(call, if done then afterRead grants service.tree call else .failed)] }
  | .write id done =>
    match service.calls[id]? with
    | some (call, .counting _ window) =>
      if done then
        some ⟨service.tree.insert (rateLimitKey call.triple) (encodeWindow window), service.calls.set id (call, .admitted)⟩
      else some { service with calls := service.calls.set id (call, .failed) }
    | _ => none

def start (tree : DomainTree Bytes) : Service := ⟨tree, []⟩

def admits (triple : Triple) (entry : Call × Progress) : Bool := decide (entry.1.triple = triple ∧ entry.2 = .admitted)

def admitted (triple : Triple) (service : Service) : Nat := service.calls.countP (admits triple)

def windowRead : Progress → Option (Option Window)
  | .counting read _ => some read
  | _ => none

def Unchanged (triple : Triple) (service : Service) : Act → Prop
  | .write id true => ∀ entry ∈ service.calls[id]?, ∀ read ∈ windowRead entry.2, entry.1.triple = triple → storedWindow service.tree triple = read
  | _ => True

instance (triple : Triple) (service : Service) : DecidablePred (Unchanged triple service) := fun act =>
  match act with
  | .write id true =>
    inferInstanceAs (Decidable (∀ entry ∈ service.calls[id]?, ∀ read ∈ windowRead entry.2, entry.1.triple = triple →
      storedWindow service.tree triple = read))
  | .write _ false | .read .. => isTrue trivial

section

variable {grants : Grants} {service next : Service} {triple : Triple} {limit : RateLimit}

theorem step_write {id : Nat} {done : Bool} (stepped : step grants service (.write id done) = some next) :
    ∃ call read window, service.calls[id]? = some (call, .counting read window) ∧ next = if done then
          ⟨service.tree.insert (rateLimitKey call.triple) (encodeWindow window), service.calls.set id (call, .admitted)⟩
        else { service with calls := service.calls.set id (call, .failed) } := by
  rw [step] at stepped
  split at stepped
  next call read window held => cases done <;> exact ⟨call, read, window, held, (some.inj stepped).symm⟩
  next => cases stepped

theorem read_admitted {call : Call} {done : Bool} :
    admitted triple
    { service with calls := service.calls ++ [(call, if done then afterRead grants service.tree call else .failed)] } =
    admitted triple service := by
  have fresh : (if done then afterRead grants service.tree call else .failed) ≠ .admitted := by
    cases done with
    | false => simp
    | true =>
      rw [if_pos rfl, afterRead]
      split
      · simp
      · dsimp only
        split <;> simp
  rw [admitted, countP_append, countP_singleton, admits, decide_eq_false fun same => fresh same.2]
  rfl

theorem set_admitted {id : Nat} {call : Call} {read : Option Window} {window : Window}
    (held : service.calls[id]? = some (call, .counting read window))
    {progress : Progress} : (service.calls.set id (call, progress)).countP (admits triple) =
      admitted triple service + if call.triple = triple ∧ progress = .admitted then 1 else 0 := by
  obtain ⟨inside, at'⟩ := List.getElem?_eq_some_iff.mp held
  rw [countP_set inside, at', admitted]
  simp [admits]

variable {opened used : Nat}

def InWindow (triple : Triple) (limit : RateLimit) (opened : Nat) : Act → Prop
  | .read call _ => call.triple = triple → opened ≤ call.now.toNat ∧ call.now.toNat < opened + limit.windowSecs.toNat
  | .write .. => True

instance (triple : Triple) (limit : RateLimit) (opened : Nat) : DecidablePred (InWindow triple limit opened) :=
  fun act =>
  match act with
  | .read call _ =>
    inferInstanceAs (Decidable (call.triple = triple → opened ≤ call.now.toNat ∧
      call.now.toNat < opened + limit.windowSecs.toNat))
  | .write .. => isTrue trivial

structure Counted (triple : Triple) (limit : RateLimit) (opened used : Nat) (service : Service) : Prop where
  stored : ∀ time, opened ≤ time → time < opened + limit.windowSecs.toNat →
    (current limit.windowSecs.toNat (storedWindow service.tree triple) time).2 = used + admitted triple service ∧
      opened ≤ (current limit.windowSecs.toNat (storedWindow service.tree triple) time).1
  bounded : admitted triple service = 0 ∨ used + admitted triple service ≤ limit.max.toNat
  pending : ∀ call read window, (call, Progress.counting read window) ∈ service.calls → call.triple = triple →
    (opened ≤ call.now.toNat ∧ call.now.toNat < opened + limit.windowSecs.toNat) ∧
      (current limit.windowSecs.toNat read call.now.toNat).2 < limit.max.toNat ∧
      (current limit.windowSecs.toNat read call.now.toNat).1 < 2 ^ 64 ∧
      window = ((current limit.windowSecs.toNat read call.now.toNat).1, (current limit.windowSecs.toNat read call.now.toNat).2 + 1)

variable {tree : DomainTree Bytes} {id : Nat} {call : Call} {read : Option Window} {window : Window}

theorem start_counted (opens : (current limit.windowSecs.toNat (storedWindow tree triple) opened).1 = opened) :
    Counted triple limit opened (current limit.windowSecs.toNat (storedWindow tree triple) opened).2 (start tree) where
  stored := fun _ => current_within opens
  bounded := .inl rfl
  pending := fun _ _ _ member => absurd member not_mem_nil

theorem after_read_counting (limited : rateLimitFor grants call.triple = some limit) (counting : afterRead grants tree call = .counting read window) :
    (current limit.windowSecs.toNat read call.now.toNat).2 < limit.max.toNat ∧ (current limit.windowSecs.toNat read call.now.toNat).1 < 2 ^ 64 ∧
      window = ((current limit.windowSecs.toNat read call.now.toNat).1, (current limit.windowSecs.toNat read call.now.toNat).2 + 1) := by
  rw [afterRead, limited] at counting
  dsimp only at counting
  split at counting
  case isTrue => cases counting
  case isFalse room =>
    cases counting
    have most := limit.max.toNat_lt
    refine ⟨Nat.lt_of_not_le room, current_start_fits tree call.triple limit.windowSecs.toNat call.now, ?_⟩
    rw [Nat.min_eq_left (by omega)]

theorem read_counted (limited : rateLimitFor grants triple = some limit)
    (counted : Counted triple limit opened used service) {done : Bool} (within :
    InWindow triple limit opened (.read call done)) (stepped : step grants service (.read call done) = some next) :
    Counted triple limit opened used next := by
  cases stepped
  have same : admitted triple
    { service with calls := service.calls ++ [(call, if done then afterRead grants service.tree call else .failed)] } =
      admitted triple service := read_admitted
  refine ⟨?_, ?_, fun other read window member own => ?_⟩
  · rw [same]
    exact counted.stored
  · rw [same]
    exact counted.bounded
  · rcases mem_append.mp member with before | last
    · exact counted.pending other read window before own
    · obtain ⟨rfl, progress⟩ := Prod.mk.inj (mem_singleton.mp last)
      cases done with
      | false => cases progress
      | true => exact ⟨within own, after_read_counting (own ▸ limited) progress.symm⟩

section

variable (counted : Counted triple limit opened used service)
  (held : service.calls[id]? = some (call, .counting read window))

include counted held

theorem failed_write_counted :
    Counted triple limit opened used { service with calls := service.calls.set id (call, .failed) } := by
  have same : admitted triple { service with calls := service.calls.set id (call, .failed) } =
    admitted triple service := (set_admitted held).trans (by simp)
  refine ⟨?_, ?_, fun other otherRead otherWindow member own => ?_⟩
  · rw [same]
    exact counted.stored
  · rw [same]
    exact counted.bounded
  · rcases mem_or_eq_of_mem_set member with before | failed
    · exact counted.pending other otherRead otherWindow before own
    · cases failed

theorem own_write_counted (own : call.triple = triple) (unchanged : storedWindow service.tree triple = read) :
    Counted triple limit opened used ⟨service.tree.insert (rateLimitKey call.triple) (encodeWindow window),
    service.calls.set id (call, .admitted)⟩ := by
  obtain ⟨⟨after, before⟩, room, fits, rfl⟩ := counted.pending call read window (mem_of_getElem? held) own
  obtain ⟨count, started⟩ := counted.stored call.now.toNat after before
  rw [unchanged] at count started
  have most := limit.max.toNat_lt
  have more : (service.calls.set id (call, .admitted)).countP (admits triple) = admitted triple service + 1 :=
    (set_admitted held).trans (by rw [if_pos ⟨own, rfl⟩])
  generalize current limit.windowSecs.toNat read call.now.toNat = found at room fits count started
  have stored : storedWindow (service.tree.insert (rateLimitKey call.triple) (encodeWindow (found.1, found.2 + 1)))
    triple = some (found.1, found.2 + 1) := by
    rw [storedWindow, own, getElem?_insert_self, bind_some]
    exact decode_encode _ fits (by dsimp only; omega)
  refine ⟨fun time afterOpened beforeEnd => ?_, .inr ?_, fun other otherRead otherWindow member ownOther => ?_⟩
  · rw [stored, current, getD_some, if_neg (by dsimp only; omega), admitted, more]
    dsimp only
    exact ⟨by omega, started⟩
  · rw [admitted, more]
    omega
  · rcases mem_or_eq_of_mem_set member with earlier | written
    · exact counted.pending other otherRead otherWindow earlier ownOther
    · cases written

theorem other_write_counted (other : call.triple ≠ triple) :
    Counted triple limit opened used ⟨service.tree.insert (rateLimitKey call.triple) (encodeWindow window),
    service.calls.set id (call, .admitted)⟩ := by
  have same : (service.calls.set id (call, .admitted)).countP (admits triple) = admitted triple service :=
    (set_admitted held).trans (by rw [if_neg fun both => other both.1, Nat.add_zero])
  have stored : storedWindow (service.tree.insert (rateLimitKey call.triple) (encodeWindow window)) triple =
    storedWindow service.tree triple := by
    rw [storedWindow, insert_elsewhere fun keys => other (rate_limit_key_injective keys).symm, storedWindow]
  refine ⟨?_, ?_, fun another anotherRead anotherWindow member own => ?_⟩
  · rw [stored, admitted, same]
    exact counted.stored
  · rw [admitted, same]
    exact counted.bounded
  · rcases mem_or_eq_of_mem_set member with earlier | written
    · exact counted.pending another anotherRead anotherWindow earlier own
    · cases written

end

theorem step_counted (limited : rateLimitFor grants triple = some limit) {act : Act}
    (counted : Counted triple limit opened used service) (unchanged : Unchanged triple service act)
    (within : InWindow triple limit opened act) (stepped : step grants service act = some next) :
    Counted triple limit opened used next := by
  cases act with
  | read call done => exact read_counted limited counted within stepped
  | write id done =>
    obtain ⟨call, read, window, held, rfl⟩ := step_write stepped
    cases done with
    | false => exact failed_write_counted counted held
    | true =>
      by_cases own : call.triple = triple
      · exact own_write_counted counted held own (unchanged _ held read rfl own)
      · exact other_write_counted counted held own

end

theorem concurrent_limits_hold (grants : Grants) (triple : Triple) (limit : RateLimit) (limited : rateLimitFor grants triple = some limit)
    (tree : DomainTree Bytes) (opened : Nat) (opens : (current limit.windowSecs.toNat (storedWindow tree triple) opened).1 = opened)
    (acts : List Act) (within : ∀ act ∈ acts, InWindow triple limit opened act) (last : Service) (ran : runs (step grants) (start tree) acts = some last)
    (unchanged : AllMeet (step grants) (Unchanged triple) (start tree) acts) :
    admitted triple last ≤ limit.max.toNat - (current limit.windowSecs.toNat (storedWindow tree triple) opened).2 := by
  have counted := runs_meeting_invariant (fun service act next holds met stepped =>
    step_counted limited holds met.1 met.2 stepped)
    (start_counted opens) (all_meet_members unchanged within) ran
  have bounded := counted.bounded
  omega

def oneWriteFails : List Act := [.read ⟨sample, 100⟩ true, .write 0 true, .read ⟨sample, 130⟩ true,
    .read ⟨sample, 131⟩ true, .write 1 true, .write 2 false]

theorem one_write_fails_run : (runs (step twoPerMinute) (start ∅) oneWriteFails).isSome = true := by decide +kernel

theorem one_write_fails_limited :
    admitted sample ((runs (step twoPerMinute) (start ∅) oneWriteFails).get one_write_fails_run) = 2 ∧
      admitted sample ((runs (step twoPerMinute) (start ∅) oneWriteFails).get one_write_fails_run) ≤ 2 - 0 := by
  refine ⟨by decide +kernel, ?_⟩
  exact concurrent_limits_hold twoPerMinute sample ⟨2, 60⟩ (by decide +kernel) ∅ 100 (by decide +kernel) oneWriteFails
    (by decide +kernel) _
    (some_get one_write_fails_run).symm (by decide +kernel)

def threeReadTogether : List Act := [.read ⟨sample, 100⟩ true, .read ⟨sample, 100⟩ true, .read ⟨sample, 100⟩ true,
    .write 0 true, .write 1 true, .write 2 true]

theorem calls_together_exceed : rateLimitFor twoPerMinute sample = some ⟨2, 60⟩ ∧
    (∀ act ∈ threeReadTogether, InWindow sample ⟨2, 60⟩ 100 act) ∧
      (runs (step twoPerMinute) (start ∅) threeReadTogether).map (admitted sample) = some 3 := by
  decide +kernel

end GaussMatrix.Agent.Concurrent

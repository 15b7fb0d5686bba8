import GaussMatrix.Library.BigEndian
import GaussMatrix.Library.FixedWindow
import GaussMatrix.Store.Backend

namespace GaussMatrix.Agent

open BigEndian Collections FixedWindow List Option Std.ExtTreeMap Store

-- A user or room id. Matrix identifiers hold no NUL.
structure MatrixId where
  text : Bytes
  plain : 0 ∉ text
deriving DecidableEq

structure RateLimit where
  max : UInt32
  windowSecs : UInt64
deriving DecidableEq

structure Triple where
  agent : MatrixId
  room : MatrixId
  tool : Bytes
deriving DecidableEq

def rateLimitKey (triple : Triple) : Bytes := triple.agent.text ++ 0 :: (triple.room.text ++ 0 :: triple.tool)

def encodeWindow (window : Window) : Bytes := toBytes 8 window.1 ++ toBytes 4 window.2

def decodeWindow (bytes : Bytes) : Option Window :=
  if 12 ≤ bytes.length then some (ofBytes (bytes.take 8), ofBytes ((bytes.drop 8).take 4)) else none

def storedWindow (tree : DomainTree Bytes) (triple : Triple) : Option Window :=
  tree[rateLimitKey triple]?.bind decodeWindow

def rateLimitExceeded (tree : DomainTree Bytes) (triple : Triple) (limit : RateLimit) (now : UInt64) :
    Bool × DomainTree Bytes :=
  let window := current limit.windowSecs.toNat (storedWindow tree triple) now.toNat
  if limit.max.toNat ≤ window.2 then (true, tree)
  else (false, tree.insert (rateLimitKey triple) (encodeWindow (window.1, min (window.2 + 1) (2 ^ 32 - 1))))

structure ToolQuota where
  tool : Bytes
  max : Nat
  used : Nat
  remaining : Nat
  windowSecs : Nat
  resetsInSecs : Nat

def toolQuota (tree : DomainTree Bytes) (triple : Triple) (limit : RateLimit) (now : UInt64) : ToolQuota :=
  let width := limit.windowSecs.toNat
  let standing :=
    match storedWindow tree triple with
    | some window => if now.toNat - window.1 < width then (window.2, width - (now.toNat - window.1)) else (0, width)
    | none => (0, width)
  ⟨triple.tool, limit.max.toNat, standing.1, limit.max.toNat - standing.1, width, standing.2⟩

abbrev Grants := MatrixId → BTreeMap Bytes RateLimit

def quota (grants : Grants) (tree : DomainTree Bytes) (agent room : MatrixId) (now : UInt64) : List ToolQuota :=
  (grants room).toList.map fun entry => toolQuota tree ⟨agent, room, entry.1⟩ entry.2 now

structure Call where
  triple : Triple
  now : UInt64

inductive Outcome where
  | unlimited
  | admitted (start : Nat)
  | limited

structure Service where
  tree : DomainTree Bytes
  served : List (Call × Outcome)

def start : Service := ⟨∅, []⟩

def rateLimitFor (grants : Grants) (triple : Triple) : Option RateLimit := (grants triple.room)[triple.tool]?

def serve (grants : Grants) (service : Service) (call : Call) : Service :=
  match rateLimitFor grants call.triple with
  | none => { service with served := service.served ++ [(call, .unlimited)] }
  | some limit =>
    let window := current limit.windowSecs.toNat (storedWindow service.tree call.triple) call.now.toNat
    let exceeded := rateLimitExceeded service.tree call.triple limit call.now
    ⟨exceeded.2, service.served ++ [(call, if exceeded.1 then .limited else .admitted window.1)]⟩

def admittedOf (triple : Triple) (served : List (Call × Outcome)) : List (Nat × Nat) := served.filterMap fun entry =>
    if entry.1.triple = triple then
      match entry.2 with
      | .admitted start => some (entry.1.now.toNat, start)
      | _ => none
    else none

variable {other : Service} {tree : DomainTree Bytes} {now : UInt64} {entry : ToolQuota}

section

theorem rate_limit_key_injective {triple other : Triple} (same : rateLimitKey triple = rateLimitKey other) :
    triple = other := by
  obtain ⟨agents, rests⟩ := SortedScan.separated_injective triple.agent.plain other.agent.plain same
  obtain ⟨rooms, tools⟩ := SortedScan.separated_injective triple.room.plain other.room.plain rests
  obtain ⟨⟨agent, agentPlain⟩, ⟨room, roomPlain⟩, tool⟩ := triple
  obtain ⟨⟨otherAgent, otherAgentPlain⟩, ⟨otherRoom, otherRoomPlain⟩, otherTool⟩ := other
  cases agents
  cases rooms
  cases tools
  rfl

theorem decode_encode (window : Window) (startFits : window.1 < 2 ^ 64) (countFits : window.2 < 2 ^ 32) :
    decodeWindow (encodeWindow window) = some window := by
  have length : (encodeWindow window).length = 12 := by
    rw [encodeWindow, length_append, to_bytes_length, to_bytes_length]
  have first : (encodeWindow window).take 8 = toBytes 8 window.1 := take_left' (to_bytes_length 8 window.1)
  have second : (encodeWindow window).drop 8 = toBytes 4 window.2 := drop_left' (to_bytes_length 8 window.1)
  have whole : (toBytes 4 window.2).take 4 = toBytes 4 window.2 :=
    take_of_length_le (Nat.le_of_eq (to_bytes_length 4 window.2))
  have start : ofBytes (toBytes 8 window.1) = window.1 := of_to_bytes_of_lt startFits
  have count : ofBytes (toBytes 4 window.2) = window.2 := of_to_bytes_of_lt countFits
  rw [decodeWindow, if_pos (Nat.le_of_eq length.symm), first, second, whole, start, count]

theorem stored_start_fits {triple : Triple} {window : Window} (held : storedWindow tree triple = some window) :
    window.1 < 2 ^ 64 := by
  obtain ⟨bytes, _, decoded⟩ := bind_eq_some_iff.mp held
  rw [decodeWindow] at decoded
  split at decoded
  case isTrue long =>
    cases decoded
    have small := of_bytes_lt (bytes.take 8)
    rw [length_take_of_le (by omega)] at small
    exact small
  case isFalse => cases decoded

variable {grants : Grants} {service : Service} {limiter : Limiter} {triple : Triple} {limit : RateLimit}

theorem current_start_fits (tree : DomainTree Bytes) (triple : Triple) (width : Nat) (now : UInt64) :
    (current width (storedWindow tree triple) now.toNat).1 < 2 ^ 64 := by
  rw [current]
  split
  · exact now.toNat_lt
  · cases held : storedWindow tree triple with
    | none => exact now.toNat_lt
    | some window => exact stored_start_fits held

theorem serve_own (limited : rateLimitFor grants triple = some limit) (window : storedWindow service.tree triple = limiter.window) :
    storedWindow (serve grants service ⟨triple, now⟩).tree triple = (call limit.max.toNat limit.windowSecs.toNat limiter now.toNat).window := by
  have fits := current_start_fits service.tree triple limit.windowSecs.toNat now
  have most := limit.max.toNat_lt
  rw [serve, limited]
  dsimp only
  rw [rateLimitExceeded, call, ← window]
  generalize current limit.windowSecs.toNat (storedWindow service.tree triple) now.toNat = found at fits
  split
  case isTrue full => exact window
  case isFalse room =>
    have small : found.2 + 1 ≤ 2 ^ 32 - 1 := by omega
    have read : (service.tree.insert (rateLimitKey triple) (encodeWindow (found.1, min (found.2 + 1) (2 ^ 32 - 1))))[rateLimitKey triple]? =
        some (encodeWindow (found.1, min (found.2 + 1) (2 ^ 32 - 1))) := getElem?_insert_self
    rw [storedWindow, read, bind_some, Nat.min_eq_left small]
    exact decode_encode _ fits (Nat.lt_of_le_of_lt small (by omega))

theorem serve_other {other : Call} (different : other.triple ≠ triple) :
    (serve grants service other).tree[rateLimitKey triple]? = service.tree[rateLimitKey triple]? := by
  rw [serve]
  split
  · rfl
  · rw [rateLimitExceeded]
    split
    · rfl
    · exact insert_elsewhere fun same => different (rate_limit_key_injective same).symm

def outcomeOf (grants : Grants) (window : Option Window) (call : Call) : Outcome :=
  match rateLimitFor grants call.triple with
  | none => .unlimited
  | some limit =>
    let window := current limit.windowSecs.toNat window call.now.toNat
    if limit.max.toNat ≤ window.2 then .limited else .admitted window.1

theorem serve_served (grants : Grants) (service : Service) (call : Call) :
    (serve grants service call).served = service.served ++
    [(call, outcomeOf grants (storedWindow service.tree call.triple) call)] := by
  rw [serve, outcomeOf]
  split
  · rfl
  · dsimp only
    rw [rateLimitExceeded]
    split <;> rfl

theorem serve_key (same : service.tree[rateLimitKey triple]? = other.tree[rateLimitKey triple]?) :
    (serve grants service ⟨triple, now⟩).tree[rateLimitKey triple]? =
    (serve grants other ⟨triple, now⟩).tree[rateLimitKey triple]? := by
  rw [serve, serve]
  cases rateLimitFor grants triple with
  | none => exact same
  | some limit =>
    dsimp only
    have windows : storedWindow service.tree triple = storedWindow other.tree triple := by
      rw [storedWindow, same, storedWindow]
    rw [rateLimitExceeded, rateLimitExceeded, windows]
    split
    · exact same
    · exact getElem?_insert_self.trans getElem?_insert_self.symm

theorem admitted_of_append (triple : Triple) (served : List (Call × Outcome)) (call : Call) (outcome : Outcome) :
    admittedOf triple (served ++ [(call, outcome)]) = admittedOf triple served ++ admittedOf triple [(call, outcome)] :=
      List.filterMap_append

theorem serve_admitted (limited : rateLimitFor grants triple = some limit)
    (window : storedWindow service.tree triple = limiter.window)
    (admitted : admittedOf triple service.served = limiter.admitted) :
    admittedOf triple (serve grants service ⟨triple, now⟩).served =
    (call limit.max.toNat limit.windowSecs.toNat limiter now.toNat).admitted := by
  rw [serve_served, admitted_of_append, admitted, outcomeOf, limited, call, ← window]
  dsimp only
  split
  case isTrue full => simp [admittedOf]
  case isFalse room => simp [admittedOf]

def timesOf (triple : Triple) (calls : List Call) : List Nat :=
  (calls.filter fun call => decide (call.triple = triple)).map fun call => call.now.toNat

theorem serve_refines (limited : rateLimitFor grants triple = some limit) (calls : List Call)
    (window : storedWindow service.tree triple = limiter.window)
    (admitted : admittedOf triple service.served = limiter.admitted) :
    storedWindow (calls.foldl (serve grants) service).tree triple =
    ((timesOf triple calls).foldl (call limit.max.toNat limit.windowSecs.toNat) limiter).window ∧
      admittedOf triple (calls.foldl (serve grants) service).served =
      ((timesOf triple calls).foldl (call limit.max.toNat limit.windowSecs.toNat) limiter).admitted := by
  induction calls generalizing service limiter with
  | nil => exact ⟨window, admitted⟩
  | cons head tail ih =>
    by_cases own : head.triple = triple
    · obtain ⟨_, now⟩ := head
      cases own
      rw [timesOf, filter_cons_of_pos (by simp), map_cons, foldl_cons, foldl_cons]
      exact ih (serve_own limited window) (serve_admitted limited window admitted)
    · rw [timesOf, filter_cons_of_neg (by simpa using own), foldl_cons]
      refine ih ?_ ?_
      · rw [storedWindow, serve_other own]
        exact window
      · rw [serve_served, admitted_of_append, admitted]
        simp [admittedOf, own]

theorem serve_independent (calls : List Call)
    (same : service.tree[rateLimitKey triple]? = other.tree[rateLimitKey triple]?)
    (served : (service.served.filter fun entry => decide (entry.1.triple = triple)) = other.served) :
    ((calls.foldl (serve grants) service).served.filter fun entry => decide (entry.1.triple = triple)) =
      ((calls.filter fun call => decide (call.triple = triple)).foldl (serve grants) other).served := by
  induction calls generalizing service other with
  | nil => exact served
  | cons head tail ih =>
    by_cases own : head.triple = triple
    · obtain ⟨named, now⟩ := head
      cases own
      rw [filter_cons_of_pos (by simp), foldl_cons, foldl_cons]
      refine ih (serve_key same) ?_
      have windows : storedWindow service.tree named = storedWindow other.tree named := by
        rw [storedWindow, same, storedWindow]
      rw [serve_served, serve_served, filter_append, served, windows]
      simp
    · rw [filter_cons_of_neg (by simpa using own), foldl_cons]
      refine ih ((serve_other own).trans same) ?_
      rw [serve_served, filter_append, served]
      simp [own]

theorem remaining_current (tree : DomainTree Bytes) (triple : Triple) (limit : RateLimit) (now : UInt64) :
    (toolQuota tree triple limit now).remaining = limit.max.toNat -
    (current limit.windowSecs.toNat (storedWindow tree triple) now.toNat).2 := by
  rw [toolQuota, current]
  cases storedWindow tree triple with
  | none => simp
  | some window =>
    dsimp only [getD_some]
    by_cases recent : now.toNat - window.1 < limit.windowSecs.toNat
    · rw [if_pos recent, if_neg (Nat.not_le.mpr recent)]
    · rw [if_neg recent, if_pos (not_lt.mp recent)]

theorem quota_entry (limited : rateLimitFor grants triple = some limit)
    (listed : entry ∈ quota grants tree triple.agent triple.room now) (tool : entry.tool = triple.tool) :
    entry = toolQuota tree triple limit now := by
  obtain ⟨row, member, rfl⟩ := mem_map.mp listed
  have read := mem_toList_iff_getElem?_eq_some.mp member
  have named : row.1 = triple.tool := tool
  rw [named] at read
  rw [named, show row.2 = limit from some.inj (read.symm.trans limited)]

theorem quota_listed (limited : rateLimitFor grants triple = some limit) :
    ∃ entry ∈ quota grants tree triple.agent triple.room now, entry.tool = triple.tool :=
  ⟨_, mem_map_of_mem (mem_toList_iff_getElem?_eq_some.mpr limited), rfl⟩

theorem exceeded_iff (tree : DomainTree Bytes) (triple : Triple) (limit : RateLimit) (now : UInt64) :
    (rateLimitExceeded tree triple limit now).1 = true ↔
      limit.max.toNat ≤ (current limit.windowSecs.toNat (storedWindow tree triple) now.toNat).2 := by
  rw [rateLimitExceeded]
  split
  case isTrue full => exact iff_of_true rfl full
  case isFalse room => exact iff_of_false nofun room

theorem quota_exact (limited : rateLimitFor grants triple = some limit) (positive : 0 < limit.windowSecs.toNat)
    (listed : entry ∈ quota grants service.tree triple.agent triple.room now) (tool : entry.tool = triple.tool)
    {n : Nat} : (rateLimitExceeded ((List.replicate n ⟨triple, now⟩).foldl (serve grants) service).tree triple limit
    now).1 = true ↔ entry.remaining ≤ n := by
  have times : timesOf triple (List.replicate n ⟨triple, now⟩) = List.replicate n now.toNat := by
    simp [timesOf]
  have held : storedWindow service.tree triple =
    (Limiter.mk (storedWindow service.tree triple) (admittedOf triple service.served)).window := rfl
  obtain ⟨window, _⟩ := serve_refines limited (List.replicate n ⟨triple, now⟩) held rfl
  rw [quota_entry limited listed tool, remaining_current, exceeded_iff, window, times]
  exact calls_full_iff positive n

end

theorem rate_limits_hold (grants : Grants) (calls : List Call) (ordered : calls.Pairwise fun a b => a.now ≤ b.now)
    (triple : Triple) (limit : RateLimit)
    (limited : rateLimitFor grants triple = some limit) (positive : 0 < limit.windowSecs.toNat) :
    let service := calls.foldl (serve grants) start
    let admitted := admittedOf triple service.served
    ((∀ entry ∈ admitted, entry.2 ≤ entry.1 ∧ entry.1 < entry.2 + limit.windowSecs.toNat) ∧
        ∀ window, admitted.countP (fun entry => decide (entry.2 = window)) ≤ limit.max.toNat) ∧
      (∀ time, admitted.countP (fun entry => decide (time ≤ entry.1 ∧ entry.1 ≤ time + limit.windowSecs.toNat)) ≤ 2 *
      limit.max.toNat) ∧ (service.served.filter fun entry => decide (entry.1.triple = triple)) =
      ((calls.filter fun call => decide (call.triple = triple)).foldl (serve grants) start).served ∧
      ∀ now, (∃ entry ∈ quota grants service.tree triple.agent triple.room now, entry.tool = triple.tool) ∧
        ∀ entry ∈ quota grants service.tree triple.agent triple.room now, entry.tool = triple.tool →
        ∀ n, (rateLimitExceeded ((List.replicate n ⟨triple, now⟩).foldl (serve grants) service).tree triple limit
        now).1 = true ↔ entry.remaining ≤ n := by
  have empty : storedWindow start.tree triple = idle.window := by
    rw [storedWindow, start, getElem?_empty]
    rfl
  obtain ⟨_, admitted⟩ := serve_refines limited calls empty rfl
  have sorted : (timesOf triple calls).Pairwise (· ≤ ·) :=
    pairwise_map.mpr ((ordered.filter _).imp fun {a b} earlier => UInt64.le_iff_toNat_le.mp earlier)
  obtain ⟨last, kept⟩ := calls_kept positive sorted idle_kept fun _ _ => Nat.zero_le _
  dsimp only
  rw [admitted]
  refine ⟨⟨kept.inside, kept.bounded⟩, interval_bound kept, serve_independent calls rfl rfl, fun now =>
    ⟨quota_listed limited, fun entry listed tool n => ?_⟩⟩
  exact quota_exact limited positive listed tool

def sample : Triple := ⟨⟨[64, 97], by decide⟩, ⟨[33, 114], by decide⟩, [116]⟩

def twoPerMinute : Grants := fun _ => (∅ : BTreeMap Bytes RateLimit).insert [116] ⟨2, 60⟩

def threeCalls : List Call := [⟨sample, 100⟩, ⟨sample, 130⟩, ⟨sample, 150⟩]

theorem three_calls_limited : let service := threeCalls.foldl (serve twoPerMinute) start
    admittedOf sample service.served = [(100, 100), (130, 100)] ∧
      (admittedOf sample service.served).countP (fun entry => decide (entry.2 = 100)) ≤ 2 ∧
      (quota twoPerMinute service.tree sample.agent sample.room 160).map ToolQuota.remaining = [2] ∧
      ∃ entry ∈ quota twoPerMinute service.tree sample.agent sample.room 160, ∀ n,
        (rateLimitExceeded ((List.replicate n ⟨sample, 160⟩).foldl (serve twoPerMinute) service).tree sample ⟨2, 60⟩
          160).1 = true ↔ entry.remaining ≤ n := by
  have limits := rate_limits_hold twoPerMinute threeCalls (by decide) sample ⟨2, 60⟩ (by decide +kernel) (by decide)
  obtain ⟨⟨entry, listed, tool⟩, reported⟩ := limits.2.2.2 160
  exact ⟨by decide +kernel, limits.1.2 100, by decide +kernel, entry, listed, reported entry listed tool⟩

end GaussMatrix.Agent

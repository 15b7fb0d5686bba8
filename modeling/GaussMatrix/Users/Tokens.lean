import GaussMatrix.Library.Interleave
import GaussMatrix.Store.Backend

namespace GaussMatrix.Users.Tokens

open Collections Interleave Runs Store

inductive Kind where
  | access
  | refresh
deriving DecidableEq

structure Tables where
  tokenUserdeviceid : DomainTree (Option Nat)
  userdeviceidToken : Option Bytes
  userdeviceidRefresh : Option Bytes

def Tables.current (tables : Tables) : Kind → Option Bytes
  | .access => tables.userdeviceidToken
  | .refresh => tables.userdeviceidRefresh

def Tables.setCurrent (tables : Tables) (kind : Kind) (token : Option Bytes) : Tables :=
  match kind with
  | .access => { tables with userdeviceidToken := token }
  | .refresh => { tables with userdeviceidRefresh := token }

def Tables.withRows (tables : Tables) (rows : DomainTree (Option Nat)) : Tables :=
  { tables with tokenUserdeviceid := rows }

structure Config where
  refreshTokenTtl : Nat
  refreshTokenIdleOnly : Bool

def TOKEN_LENGTH : Nat := 32

def timepointFromEpoch (secs : Nat) : Except String Nat :=
  if secs < 2 ^ 63 then .ok secs else .error s!"Duration {secs}s from epoch is too large"

def timepointFromNow (now secs : Nat) : Except String Nat :=
  if now + secs < 2 ^ 63 then .ok (now + secs) else .error s!"Duration {secs}s from now is too large"

def notFound : String := "M_NOT_FOUND"

def findFromToken (tables : Tables) (token : Bytes) : Except String (Option Nat) :=
  match tables.tokenUserdeviceid[token]? with
  | none => .error notFound
  | some none => .ok none
  | some (some secs) => (timepointFromEpoch secs).map some

inductive Task where
  | issue (token : Bytes) (expiresIn : Option Nat) (thenAccess : Option (Bytes × Option Nat))
  | revoke

inductive Stage where
  | priorToken
  | priorExpiry (token : Bytes)
  | query (prior : Option Nat)
  | unlink (prior : Option Nat) (old : Bytes)
  | drop (prior : Option Nat) (old : Bytes)
  | store (prior : Option Nat)
  | link

inductive Call where
  | running (stage : Stage) (kind : Kind) (task : Task)
  | revoked (kind : Kind)
  | ended (result : Except String Unit)

inductive Request where
  | setAccessToken (accessToken : Bytes) (expiresIn : Option Nat) (refreshToken : Option Bytes)
  | setRefreshToken (refreshToken : Bytes)

def setRefreshToken (config : Config) (token : Bytes) (thenAccess : Option (Bytes × Option Nat)) : Call :=
  .running (if config.refreshTokenTtl ≠ 0 ∧ config.refreshTokenIdleOnly = false then .priorToken else .query none)
    .refresh (.issue token none thenAccess)

def setAccessToken (token : Bytes) (expiresIn : Option Nat) : Call :=
  .running (.query none) .access (.issue token expiresIn none)

def opens (config : Config) : Request → Option Call
  | .setAccessToken accessToken expiresIn refreshToken =>
    if TOKEN_LENGTH ≤ accessToken.length then
      match refreshToken with
      | some token => some (setRefreshToken config token (some (accessToken, expiresIn)))
      | none => some (setAccessToken accessToken expiresIn)
    else none
  | .setRefreshToken token => some (setRefreshToken config token none)

def deadline (config : Config) (now : Nat) (kind : Kind) (expiresIn prior : Option Nat) : Except String (Option Nat) :=
  match kind with
  | .access =>
    match expiresIn with
    | none => .ok none
    | some secs => (timepointFromNow now secs).map some
  | .refresh =>
    if config.refreshTokenTtl = 0 then .ok none
    else
      match prior with
      | some expires => .ok (some expires)
      | none => (timepointFromNow now config.refreshTokenTtl).map some

def removed (prior : Option Nat) (kind : Kind) : Task → Call
  | .issue token expiresIn thenAccess => .running (.store prior) kind (.issue token expiresIn thenAccess)
  | .revoke => .revoked kind

def linked : Task → Call
  | .issue _ _ (some access) => setAccessToken access.1 access.2
  | .issue _ _ none | .revoke => .ended (.ok ())

def advance (config : Config) (now : Nat) (tables : Tables) : Call → Option (Tables × Call)
  | .running .priorToken kind task =>
    some (tables, match tables.current kind with
      | some token => .running (.priorExpiry token) kind task
      | none => .running (.query none) kind task)
  | .running (.priorExpiry token) kind task =>
    some (tables, .running
    (.query ((tables.tokenUserdeviceid[token]?).join.bind fun secs => (timepointFromEpoch secs).toOption)) kind task)
  | .running (.query prior) kind task =>
    some (tables, match tables.current kind with
      | some old => .running (.unlink prior old) kind task
      | none => removed prior kind task)
  | .running (.unlink prior old) kind task => some (tables.setCurrent kind none, .running (.drop prior old) kind task)
  | .running (.drop prior old) kind task =>
    some (tables.withRows (tables.tokenUserdeviceid.erase old), removed prior kind task)
  | .running (.store prior) kind (.issue token expiresIn thenAccess) =>
    match deadline config now kind expiresIn prior with
    | .error message => some (tables, .ended (.error message))
    | .ok expires =>
      some (tables.withRows (tables.tokenUserdeviceid.insert token expires),
      .running .link kind (.issue token expiresIn thenAccess))
  | .running .link kind (.issue token expiresIn thenAccess) =>
    some (tables.setCurrent kind (some token), linked (.issue token expiresIn thenAccess))
  | .running (.store _) _ .revoke | .running .link _ .revoke | .revoked _ | .ended _ => none

def step (config : Config) : System Tables Call → Act Request Nat → Option (System Tables Call) :=
  Interleave.step (opens config) (advance config)

def start : System Tables Call := ⟨⟨∅, none, none⟩, []⟩

def removeStep (config : Config) : System Tables Call → Act Request Nat → Option (System Tables Call) :=
  Interleave.step (fun _ => none) (advance config)

def removeTokens (tables : Tables) : System Tables Call :=
  ⟨tables, [.running (.query none) .access .revoke, .running (.query none) .refresh .revoke]⟩

def finished : Call → Bool
  | .running .. => false
  | .revoked _ | .ended _ => true

def carried : Call → Option Bytes
  | .running (.drop _ old) _ _ => some old
  | .running .link _ (.issue token _ _) => some token
  | _ => none

def Current (tables : Tables) : Call → Prop
  | .running (.unlink _ old) kind _ => ∀ token ∈ tables.current kind, token = old
  | .running .link kind (.issue own _ _) => ∀ token ∈ tables.current kind, token = own
  | _ => True

instance (tables : Tables) : DecidablePred (Current tables) := fun call =>
  match call with
  | .running (.unlink _ old) kind _ => inferInstanceAs (Decidable (∀ token ∈ tables.current kind, token = old))
  | .running .link kind (.issue own _ _) => inferInstanceAs (Decidable (∀ token ∈ tables.current kind, token = own))
  | .running .link _ .revoke | .running .priorToken _ _ | .running (.priorExpiry _) _ _ | .running (.query _) _ _ | .running (.drop ..) _ _
  | .running (.store _) _ _ | .revoked _ | .ended _ => isTrue trivial

def Meets (system : System Tables Call) (act : Act Request Nat) : Prop :=
  Interleave.Meets Current (fun _ _ _ => True) system act

instance (system : System Tables Call) (act : Act Request Nat) : Decidable (Meets system act) :=
  inferInstanceAs (Decidable (Interleave.Meets _ _ system act))

section

variable {config : Config} {tables after : Tables} {call moved : Call} {token : Bytes} {now : Nat}

def Live (tables : Tables) (token : Bytes) : Prop := ∃ expires, tables.tokenUserdeviceid[token]? = some expires

def Held (tables : Tables) (token : Bytes) : Prop := ∃ kind, tables.current kind = some token

def Carries (call : Call) (token : Bytes) : Prop := carried call = some token

theorem current_set (tables : Tables) (kind other : Kind) (token : Option Bytes) :
    (tables.setCurrent kind token).current other = if other = kind then token else tables.current other := by
  cases kind <;> cases other <;> rfl

theorem rows_set (tables : Tables) (kind : Kind) (token : Option Bytes) :
    (tables.setCurrent kind token).tokenUserdeviceid = tables.tokenUserdeviceid := by
  cases kind <;> rfl

theorem with_rows_current {rows : DomainTree (Option Nat)} {kind : Kind} :
    (tables.withRows rows).current kind = tables.current kind := by
  cases kind <;> rfl

theorem kept (live : Live tables token)
    (same : ∀ kind, tables.current kind = some token → after.current kind = some token) (free : ¬ Carries call token) :
    Held after token ∨ Carries moved token ∨ (Live tables token ∧ ¬ Held tables token ∧ ¬ Carries call token) := by
  by_cases held : Held tables token
  · obtain ⟨kind, current⟩ := held
    exact .inl ⟨kind, same kind current⟩
  · exact .inr (.inr ⟨live, held, free⟩)

variable {prior : Option Nat} {old : Bytes} {kind : Kind} {own : Bytes} {expiresIn : Option Nat} {task : Task}
  {thenAccess : Option (Bytes × Option Nat)}

theorem unlink_takes_over (current : Current tables (.running (.unlink prior old) kind task))
    (live : Live tables token) :
    Held (tables.setCurrent kind none) token ∨ Carries (.running (.drop prior old) kind task) token ∨
      (Live tables token ∧ ¬ Held tables token ∧ ¬ Carries (.running (.unlink prior old) kind task) token) := by
  by_cases linked : tables.current kind = some token
  · exact .inr (.inl (congrArg some (current token linked).symm))
  · refine kept live (fun other held => ?_) (by simp [Carries, carried])
    rw [current_set, if_neg ?_]
    · exact held
    · rintro rfl
      exact linked held

theorem drop_takes_over (live : Live (tables.withRows (tables.tokenUserdeviceid.erase old)) token) :
    Held (tables.withRows (tables.tokenUserdeviceid.erase old)) token ∨ Carries (removed prior kind task) token ∨
      (Live tables token ∧ ¬ Held tables token ∧ ¬ Carries (.running (.drop prior old) kind task) token) := by
  obtain ⟨expires, row⟩ := live
  have different : token ≠ old := erase_apart row
  refine kept ⟨expires, erase_source row⟩ (fun other held => ?_) fun own => different (Option.some.inj own).symm
  exact held

theorem store_takes_over {expires : Option Nat} (live : Live (tables.withRows (tables.tokenUserdeviceid.insert own expires)) token) :
    Held (tables.withRows (tables.tokenUserdeviceid.insert own expires)) token ∨ Carries (.running .link kind (.issue own expiresIn thenAccess)) token ∨
      (Live tables token ∧ ¬ Held tables token ∧ ¬ Carries (.running (.store prior) kind (.issue own expiresIn thenAccess)) token) := by
  by_cases same : token = own
  · exact .inr (.inl (congrArg some same.symm))
  · obtain ⟨stored, row⟩ := live
    rw [Tables.withRows, insert_elsewhere same] at row
    refine kept ⟨stored, row⟩ (fun other held => ?_) (by simp [Carries, carried])
    exact held

theorem link_takes_over (current : Current tables (.running .link kind (.issue own expiresIn thenAccess)))
    (live : Live tables token) :
    Held (tables.setCurrent kind (some own)) token ∨ Carries (linked (.issue own expiresIn thenAccess)) token ∨
      (Live tables token ∧ ¬ Held tables token ∧ ¬ Carries (.running .link kind (.issue own expiresIn thenAccess)) token) := by
  by_cases same : own = token
  · exact .inl ⟨kind, by rw [current_set, if_pos rfl, same]⟩
  · refine kept live (fun other held => ?_) fun carrying => same (Option.some.inj carrying)
    rw [current_set, if_neg ?_]
    · exact held
    · rintro rfl
      exact same (current token held).symm

theorem takes_over : TakesOver (advance config) Live Held Carries Current := by
  intro now tables call after moved advanced current token live
  have idle : tables = after → carried call = none → Held after token ∨ Carries moved token ∨
    (Live tables token ∧ ¬ Held tables token ∧ ¬ Carries call token) := by
    rintro rfl free
    exact kept live (fun _ held => held) (by simp [Carries, free])
  cases call with
  | revoked kind => cases advanced
  | ended result => cases advanced
  | running stage kind task =>
    cases stage with
    | priorToken =>
      cases advanced
      exact idle rfl rfl
    | priorExpiry token =>
      cases advanced
      exact idle rfl rfl
    | query prior =>
      cases advanced
      exact idle rfl rfl
    | unlink prior old =>
      cases advanced
      refine unlink_takes_over current ?_
      rwa [Live, rows_set] at live
    | drop prior old =>
      cases advanced
      exact drop_takes_over live
    | store prior =>
      cases task with
      | revoke => cases advanced
      | issue own expiresIn thenAccess =>
        rw [advance] at advanced
        split at advanced
        · cases advanced
          exact idle rfl rfl
        · cases advanced
          exact store_takes_over live
    | link =>
      cases task with
      | revoke => cases advanced
      | issue own expiresIn thenAccess =>
        cases advanced
        refine link_takes_over current ?_
        rwa [Live, rows_set] at live

end

variable {system : System Tables Call}

section

variable {config : Config} {tables after : Tables} {call moved : Call} {kind : Kind} {now : Nat}

def Revoking (tables : Tables) (kind : Kind) (call : Call) : Prop :=
  call = .running (.query none) kind .revoke ∨
    (∃ old, call = .running (.unlink none old) kind .revoke ∧ tables.current kind = some old) ∨
    (∃ old, call = .running (.drop none old) kind .revoke ∧ tables.current kind = none) ∨ (call = .revoked kind ∧ tables.current kind = none)

theorem revoking_frame (same : after.current kind = tables.current kind) (revoking : Revoking tables kind call) :
    Revoking after kind call := by
  rw [Revoking, same]
  exact revoking

theorem revoking_moves (revoking : Revoking tables kind call)
    (advanced : advance config now tables call = some (after, moved)) :
    Revoking after kind moved ∧ ∀ other, other ≠ kind → after.current other = tables.current other := by
  rcases revoking with rfl | ⟨old, rfl, current⟩ | ⟨old, rfl, current⟩ | ⟨rfl, current⟩
  · cases advanced
    refine ⟨?_, fun other different => rfl⟩
    split
    next old current => exact .inr (.inl ⟨old, rfl, current⟩)
    next current => exact .inr (.inr (.inr ⟨rfl, current⟩))
  · cases advanced
    refine ⟨.inr (.inr (.inl ⟨old, rfl, ?_⟩)), fun other different => ?_⟩
    · rw [current_set, if_pos rfl]
    · rw [current_set, if_neg different]
  · cases advanced
    refine ⟨.inr (.inr (.inr ⟨rfl, ?_⟩)), fun other different => with_rows_current⟩
    exact current
  · cases advanced

theorem revoking_current (revoking : Revoking tables kind call) : Current tables call := by
  rcases revoking with rfl | ⟨old, rfl, current⟩ | ⟨old, rfl, current⟩ | ⟨rfl, current⟩
  · trivial
  · intro token held
    rw [current] at held
    exact (Option.some.inj held).symm
  · trivial
  · trivial

structure Removing (system : System Tables Call) : Prop where
  halves : ∃ access refresh, system.calls = [access, refresh] ∧ Revoking system.shared .access access ∧
    Revoking system.shared .refresh refresh
  covered : Covered Live Held Carries system

theorem step_removing {next : System Tables Call} {act : Act Request Nat} (removing : Removing system)
    (stepped : removeStep config system act = some next) : Removing next := by
  obtain ⟨access, refresh, calls, revokingAccess, revokingRefresh⟩ := removing.halves
  have met : Meets system act := by
    cases act with
    | call request => trivial
    | advance id input =>
      intro call held
      refine ⟨?_, fun other member => trivial⟩
      have member : call ∈ [access, refresh] := calls ▸ List.mem_of_getElem? held
      rcases List.mem_pair.mp member with rfl | rfl
      · exact revoking_current revokingAccess
      · exact revoking_current revokingRefresh
  refine ⟨?_, step_covered takes_over removing.covered met stepped⟩
  cases act with
  | call request =>
    obtain ⟨opened, impossible, -⟩ := step_call stepped
    cases impossible
  | advance id input =>
    obtain ⟨call, shared, moved, held, advanced, rfl⟩ := step_advance stepped
    rw [calls] at held
    rcases id with _ | _ | beyond
    · cases held
      obtain ⟨moves, others⟩ := revoking_moves revokingAccess advanced
      exact ⟨moved, refresh, by rw [calls]; rfl, moves, revoking_frame (others .refresh (by simp)) revokingRefresh⟩
    · cases held
      obtain ⟨moves, others⟩ := revoking_moves revokingRefresh advanced
      exact ⟨access, moved, by rw [calls]; rfl, revoking_frame (others .access (by simp)) revokingAccess, moves⟩
    · cases held

theorem finished_revoked (revoking : Revoking tables kind call) (done : finished call = true) :
    tables.current kind = none := by
  rcases revoking with rfl | ⟨old, rfl, -⟩ | ⟨old, rfl, -⟩ | ⟨rfl, current⟩
  · cases done
  · cases done
  · cases done
  · exact current

theorem finished_carries (done : finished call = true) {token : Bytes} : ¬ Carries call token := by
  cases call with
  | running stage kind task => cases done
  | revoked kind => simp [Carries, carried]
  | ended result => simp [Carries, carried]

theorem start_covered : Covered Live Held Carries start := by
  intro token live
  obtain ⟨expires, row⟩ := live
  simp [start] at row

theorem removal_removing (covered : Covered Live Held Carries system)
    (done : ∀ call ∈ system.calls, finished call = true) : Removing (removeTokens system.shared) := by
  refine ⟨⟨_, _, rfl, .inl rfl, .inl rfl⟩, fun token live => ?_⟩
  rcases covered token live with held | ⟨call, member, carrying⟩
  · exact .inl held
  · exact absurd carrying (finished_carries (done call member))

theorem removed_dead (removing : Removing system) (done : ∀ call ∈ system.calls, finished call = true) {token : Bytes} :
    ¬ Live system.shared token := by
  intro live
  obtain ⟨access, refresh, calls, revokingAccess, revokingRefresh⟩ := removing.halves
  rcases removing.covered token live with ⟨kind, current⟩ | ⟨call, member, carrying⟩
  · have gone : system.shared.current kind = none := by
      cases kind with
      | access => exact finished_revoked revokingAccess (done access (calls ▸ List.mem_cons_self))
      | refresh => exact finished_revoked revokingRefresh (done refresh (calls ▸ List.mem_cons_of_mem access List.mem_cons_self))
    rw [gone] at current
    cases current
  · exact finished_carries (done call member) carrying

end

theorem removed_device_has_no_token (config : Config) (acts : List (Act Request Nat)) (last : System Tables Call)
    (ran : runs (step config) start acts = some last) (met : AllMeet (step config) Meets start acts)
    (done : ∀ call ∈ last.calls, finished call = true) (removal : List (Act Request Nat)) (gone : System Tables Call)
    (removed : runs (removeStep config) (removeTokens last.shared) removal = some gone)
    (ended : ∀ call ∈ gone.calls, finished call = true) (token : Bytes) :
    findFromToken gone.shared token = .error notFound := by
  have covered := runs_meeting_invariant (fun _ act _ covered met stepped =>
    step_covered takes_over covered met stepped) start_covered met ran
  have removing := runs_invariant (fun _ act _ removing stepped => step_removing removing stepped)
    (removal_removing covered done) removed
  have dead : gone.shared.tokenUserdeviceid[token]? = none :=
    Option.eq_none_iff_forall_ne_some.mpr fun expires row => removed_dead removing ended ⟨expires, row⟩
  rw [findFromToken, dead]

def absolute : Config := ⟨3600, false⟩

def refreshedMeanwhile : List (Act Request Nat) :=
  [.call (.setAccessToken (List.replicate 32 1) (some 60) (some [1])), .advance 0 100, .advance 0 100, .advance 0 100,
    .advance 0 100,
    .call (.setRefreshToken [2]), .advance 0 101, .advance 1 101, .advance 1 101, .advance 0 101, .advance 1 102,
      .advance 1 102, .advance 0 102,
    .advance 1 102, .advance 1 103, .advance 1 103]

def bothHalves : List (Act Request Nat) :=
  [.advance 0 200, .advance 1 200, .advance 1 200, .advance 0 200, .advance 0 200, .advance 1 200]

theorem refreshed_meanwhile_run : (runs (step absolute) start refreshedMeanwhile).isSome = true := by decide +kernel

theorem both_halves_run :
    (runs (removeStep absolute)
    (removeTokens ((runs (step absolute) start refreshedMeanwhile).get refreshed_meanwhile_run).shared)
    bothHalves).isSome = true := by
  decide +kernel

theorem refreshed_meanwhile_removed :
    findFromToken ((runs (removeStep absolute)
    (removeTokens ((runs (step absolute) start refreshedMeanwhile).get refreshed_meanwhile_run).shared) bothHalves).get
      both_halves_run).shared [2] = .error notFound :=
  removed_device_has_no_token absolute refreshedMeanwhile _ (Option.some_get refreshed_meanwhile_run).symm
    (by decide +kernel) (by decide +kernel) bothHalves _
    (Option.some_get both_halves_run).symm (by decide +kernel) [2]

def afterRemoval (config : Config) (acts removal : List (Act Request Nat)) (token : Bytes) :
    Option (Bool × Except String (Option Nat)) := do
  let last ← runs (step config) start acts
  let gone ← runs (removeStep config) (removeTokens last.shared) removal
  pure (last.calls.all finished && gone.calls.all finished, findFromToken gone.shared token)

def issuedTogether : List (Act Request Nat) :=
  [.call (.setAccessToken (List.replicate 32 1) none none), .call (.setAccessToken (List.replicate 32 2) none none),
    .advance 0 100, .advance 1 100,
    .advance 0 100, .advance 0 100, .advance 1 100, .advance 1 100]

theorem issued_together_survives :
    afterRemoval absolute issuedTogether [.advance 0 200, .advance 0 200, .advance 0 200, .advance 1 200]
    (List.replicate 32 1) = some (true, .ok none) := by
  decide +kernel

end GaussMatrix.Users.Tokens

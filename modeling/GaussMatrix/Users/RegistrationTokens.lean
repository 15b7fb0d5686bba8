import GaussMatrix.Library.Collections
import GaussMatrix.Library.Interleave

namespace GaussMatrix.Users.RegistrationTokens

open Collections Interleave List Option Runs Std.ExtTreeMap

structure TokenExpires where
  maxUses : Option UInt64
  maxAge : Option Nat
deriving DecidableEq

structure DatabaseTokenInfo where
  uses : UInt64
  expires : TokenExpires
deriving DecidableEq

def DatabaseTokenInfo.isValid (info : DatabaseTokenInfo) (now : Nat) : Bool :=
  if info.expires.maxUses.any fun most => decide (most ≤ info.uses) then false
  else if info.expires.maxAge.any fun age => decide (age < now) then false
  else true

def saturatingSucc (uses : UInt64) : UInt64 := if uses.toNat + 1 < 2 ^ 64 then uses + 1 else uses

def DatabaseTokenInfo.used (info : DatabaseTokenInfo) : DatabaseTokenInfo :=
  { info with uses := saturatingSucc info.uses }

structure Config where
  registrationTokenFile : Option (Except String String)
  registrationToken : Option String

def isAsciiWhitespace (c : Char) : Bool := c.toNat ∈ [9, 10, 12, 13, 32]

def splitAsciiWhitespace (text : String) : List String :=
  ((text.toList.splitOnP isAsciiWhitespace).filter fun word => !word.isEmpty).map String.ofList

def getConfigTokens (config : Config) : List String := (match config.registrationTokenFile with
    | some (.ok text) => splitAsciiWhitespace text
    | some (.error _) | none => []) ++ config.registrationToken.toList

abbrev Rows := BTreeMap String DatabaseTokenInfo

inductive Request where
  | check (token : String) (consume : Bool) (config : Config)
  | revokeToken (token : String) (config : Config)

def Request.tryConsume (token : String) (config : Config) : Request := .check token true config

def Request.isTokenValid (token : String) (config : Config) : Request := .check token false config

def Request.token : Request → String
  | .check token .. | .revokeToken token _ => token

def Request.config : Request → Config
  | .check _ _ config | .revokeToken _ config => config

inductive Call where
  | checking (token : String) (consume : Bool)
  | checked (token : String) (consume : Bool) (info : DatabaseTokenInfo)
  | accepted (token : String) (consume : Bool)
  | revoking (token : String)
  | found (token : String)
  | revoked (token : String)
  | failed (message : String)
deriving DecidableEq

def opens : Request → Option Call
  | .check token consume config =>
    some (if token ∈ getConfigTokens config then .accepted token consume else .checking token consume)
  | .revokeToken token config =>
    some (if token ∈ getConfigTokens config then .failed
    "The token set in the config file cannot be revoked. Edit the config file to change it."
      else .revoking token)

abbrev Clock := Nat × Nat

def checkToken (clock : Clock) (rows : Rows) (token : String) (consume : Bool) (info : DatabaseTokenInfo) :
    Rows × Call := if info.isValid clock.1 then
    if consume then (if info.used.isValid clock.2 then rows.insert token info.used else rows.erase token, .accepted token consume)
    else (rows, .accepted token consume)
  else (rows.erase token, .failed "Registration token not valid")

def advance (clock : Clock) (rows : Rows) : Call → Option (Rows × Call)
  | .checking token consume =>
    match rows[token]? with
    | some info => some (rows, .checked token consume info)
    | none => some (rows, .failed "Registration token not valid")
  | .checked token consume info => some (checkToken clock rows token consume info)
  | .revoking token => some (rows, if rows.contains token then .found token else .failed "Registration token not found")
  | .found token => some (rows.erase token, .revoked token)
  | .accepted .. | .revoked _ | .failed _ => none

def step : System Rows Call → Act Request Clock → Option (System Rows Call) := Interleave.step opens advance

def Current (clock : Clock) (rows : Rows) : Call → Prop
  | .checked token true info => info.isValid clock.1 = true → rows[token]? = some info
  | _ => True

instance (clock : Clock) (rows : Rows) : DecidablePred (Current clock rows) := fun call =>
  match call with
  | .checked token true info => inferInstanceAs (Decidable (info.isValid clock.1 = true → rows[token]? = some info))
  | .checked _ false _ | .checking .. | .accepted .. | .revoking _ | .found _ | .revoked _ | .failed _ => isTrue trivial

def Unchanged (system : System Rows Call) : Act Request Clock → Prop
  | .call _ => True
  | .advance id clock => ∀ call ∈ system.calls[id]?, Current clock system.shared call

instance (system : System Rows Call) : DecidablePred (Unchanged system) := fun act =>
  match act with
  | .call _ => isTrue trivial
  | .advance id clock => inferInstanceAs (Decidable (∀ call ∈ system.calls[id]?, Current clock system.shared call))

def Unlisted (token : String) : Act Request Clock → Prop
  | .call request => request.token = token → token ∉ getConfigTokens request.config
  | .advance .. => True

instance (token : String) : DecidablePred (Unlisted token) := fun act =>
  match act with
  | .call request => inferInstanceAs (Decidable (request.token = token → token ∉ getConfigTokens request.config))
  | .advance .. => isTrue trivial

def consumed (token : String) (call : Call) : Bool := call == .accepted token true

def successes (token : String) (system : System Rows Call) : Nat := system.calls.countP (consumed token)

section

variable {clock : Clock} {rows after : Rows} {call moved : Call}

inductive Moves (clock : Clock) (rows : Rows) : Call → Rows → Call → Prop where
  | read (token : String) (consume : Bool) (info : DatabaseTokenInfo) (held : rows[token]? = some info) :
      Moves clock rows (.checking token consume) rows (.checked token consume info)
  | look (token : String) (info : DatabaseTokenInfo) : Moves clock rows (.checked token false info) rows (.accepted token false)
  | use (token : String) (info : DatabaseTokenInfo) (valid : info.isValid clock.1 = true) :
      Moves clock rows (.checked token true info) (rows.insert token info.used) (.accepted token true)
  | useUp (token : String) (info : DatabaseTokenInfo) (valid : info.isValid clock.1 = true) :
      Moves clock rows (.checked token true info) (rows.erase token) (.accepted token true)
  | drop (token : String) (consume : Bool) (info : DatabaseTokenInfo) (message : String) :
      Moves clock rows (.checked token consume info) (rows.erase token) (.failed message)
  | find (token : String) : Moves clock rows (.revoking token) rows (.found token)
  | revoke (token : String) : Moves clock rows (.found token) (rows.erase token) (.revoked token)
  | miss (call : Call) (message : String) (unread : ∀ token, consumed token call = false) : Moves clock rows call rows (.failed message)

theorem advance_moves (advanced : advance clock rows call = some (after, moved)) :
    Moves clock rows call after moved := by
  cases call with
  | checking token consume =>
    cases held : rows[token]? with
    | none =>
      rw [advance, held] at advanced
      cases advanced
      exact .miss _ _ fun _ => rfl
    | some info =>
      rw [advance, held] at advanced
      cases advanced
      exact .read token consume info held
  | checked token consume info =>
    rw [advance, checkToken] at advanced
    split at advanced
    case isTrue valid =>
      cases consume with
      | false =>
        cases advanced
        exact .look token info
      | true =>
        rw [if_pos rfl] at advanced
        split at advanced
        case isTrue =>
          cases advanced
          exact .use token info valid
        case isFalse =>
          cases advanced
          exact .useUp token info valid
    case isFalse =>
      cases advanced
      exact .drop token consume info _
  | revoking token =>
    rw [advance] at advanced
    split at advanced
    case isTrue =>
      cases advanced
      exact .find token
    case isFalse =>
      cases advanced
      exact .miss _ _ fun _ => rfl
  | found token =>
    cases advanced
    exact .revoke token
  | accepted token consume => cases advanced
  | revoked token => cases advanced
  | failed message => cases advanced

theorem moves_unfinished (moves : Moves clock rows call after moved) (token : String) :
    consumed token call = false := by
  cases moves with
  | miss _ _ unread => exact unread token
  | _ => rfl

theorem erase_row {key token : String} : (rows.erase key)[token]? = rows[token]? ∨ (rows.erase key)[token]? = none := by
  rw [getElem?_erase]
  split
  case isTrue => exact .inr rfl
  case isFalse => exact .inl rfl

theorem consumed_other {token key : String} (other : token ≠ key) : consumed token (.accepted key true) = false := by
  rw [consumed, beq_eq_false_iff_ne]
  intro same
  cases same
  exact other rfl

theorem moves_row (moves : Moves clock rows call after moved) (current : Current clock rows call) (token : String) :
    (consumed token moved = false ∧ (after[token]? = rows[token]? ∨ after[token]? = none)) ∨
      ∃ info, consumed token moved = true ∧ rows[token]? = some info ∧ info.isValid clock.1 = true ∧
      (after[token]? = some info.used ∨ after[token]? = none) := by
  cases moves with
  | read => exact .inl ⟨rfl, .inl rfl⟩
  | look key info =>
    refine .inl ⟨?_, .inl rfl⟩
    rw [consumed, beq_eq_false_iff_ne]
    intro same
    cases same
  | use key info valid =>
    by_cases same : token = key
    · subst same
      exact .inr ⟨info, beq_self_eq_true _, current valid, valid, .inl getElem?_insert_self⟩
    · exact .inl ⟨consumed_other same, .inl (insert_elsewhere same)⟩
  | useUp key info valid =>
    by_cases same : token = key
    · subst same
      exact .inr ⟨info, beq_self_eq_true _, current valid, valid, .inr getElem?_erase_self⟩
    · exact .inl ⟨consumed_other same, erase_row⟩
  | drop key consume info message => exact .inl ⟨rfl, erase_row⟩
  | find => exact .inl ⟨rfl, .inl rfl⟩
  | revoke key => exact .inl ⟨rfl, erase_row⟩
  | miss => exact .inl ⟨rfl, .inl rfl⟩

theorem gone_stays (moves : Moves clock rows call after moved) (current : Current clock rows call) {token : String}
    (gone : rows[token]? = none) : after[token]? = none := by
  rcases moves_row moves current token with ⟨_, same | none⟩ | ⟨info, _, held, _⟩
  · exact same.trans gone
  · exact none
  · cases gone.symm.trans held

end

variable {info : DatabaseTokenInfo}

theorem valid_unexhausted {now : Nat} {limit : UInt64} (valid : info.isValid now = true)
    (limited : info.expires.maxUses = some limit) : info.uses.toNat < limit.toNat := by
  rw [DatabaseTokenInfo.isValid, limited, any_some] at valid
  by_contra exhausted
  rw [if_pos (decide_eq_true (UInt64.le_iff_toNat_le.mpr (not_lt.mp exhausted)))] at valid
  cases valid

theorem used_count {limit : UInt64} (below : info.uses.toNat < limit.toNat) :
    info.used.uses.toNat = info.uses.toNat + 1 := by
  have fits : info.uses.toNat + 1 < 2 ^ 64 := Nat.lt_of_le_of_lt below limit.toNat_lt
  rw [DatabaseTokenInfo.used, saturatingSucc, if_pos fits, UInt64.toNat_add]
  exact Nat.mod_eq_of_lt fits

section

variable {token : String} {first : DatabaseTokenInfo} {limit : UInt64} {system next : System Rows Call}

structure Counted (token : String) (first : DatabaseTokenInfo) (limit : UInt64) (system : System Rows Call) : Prop where
  bounded : successes token system ≤ limit.toNat - first.uses.toNat
  counted : ∀ info, system.shared[token]? = some info → info.expires = first.expires ∧
    info.uses.toNat = first.uses.toNat + successes token system
  revoked : Call.revoked token ∈ system.calls → system.shared[token]? = none

variable {request : Request} {clock : Clock} {act : Act Request Clock} {id : Nat} {opened call : Call} {after : Rows}

theorem opened_counts (fresh : opens request = some opened) (unlisted : Unlisted token (.call request)) :
    consumed token opened = false ∧ opened ≠ .revoked token := by
  cases request with
  | check key consume config =>
    cases fresh
    split
    case isTrue listed =>
      refine ⟨?_, fun same => by cases same⟩
      rw [consumed, beq_eq_false_iff_ne]
      intro same
      cases same
      exact unlisted rfl listed
    case isFalse => exact ⟨rfl, fun same => by cases same⟩
  | revokeToken key config =>
    cases fresh
    split
    case isTrue => exact ⟨rfl, fun same => by cases same⟩
    case isFalse => exact ⟨rfl, fun same => by cases same⟩

theorem successes_moved (rows : Rows) (moved : Call) (held : system.calls[id]? = some call)
    (unfinished : consumed token call = false) : successes token ⟨rows, system.calls.set id moved⟩ =
    successes token system + if consumed token moved then 1 else 0 := by
  obtain ⟨inside, at'⟩ := List.getElem?_eq_some_iff.mp held
  rw [successes, countP_set inside, at', unfinished, if_neg Bool.false_ne_true, Nat.sub_zero, successes]

theorem revoked_gone (id : Nat) {moved : Call} (moves : Moves clock system.shared call after moved)
    (current : Current clock system.shared call) (before : Call.revoked token ∈ system.calls →
    system.shared[token]? = none) (member : Call.revoked token ∈ system.calls.set id moved) : after[token]? = none := by
  rcases mem_or_eq_of_mem_set member with earlier | now
  · exact gone_stays moves current (before earlier)
  · subst now
    cases moves with
    | revoke _ => exact getElem?_erase_self

theorem counted_call (counts : Counted token first limit system) (fresh : opens request = some opened)
    (unlisted : Unlisted token (.call request)) :
    Counted token first limit ⟨system.shared, system.calls ++ [opened]⟩ := by
  obtain ⟨unconsumed, unrevoked⟩ := opened_counts fresh unlisted
  have same : successes token ⟨system.shared, system.calls ++ [opened]⟩ = successes token system := by
    rw [successes, countP_append, countP_singleton, unconsumed, if_neg Bool.false_ne_true, Nat.add_zero, successes]
  refine ⟨same ▸ counts.bounded, same ▸ counts.counted, fun member => ?_⟩
  rcases mem_append.mp member with before | last
  · exact counts.revoked before
  · exact absurd (mem_singleton.mp last).symm unrevoked

theorem counted_advance {moved : Call} (limited : first.expires.maxUses = some limit)
    (counts : Counted token first limit system)
    (held : system.calls[id]? = some call) (moves : Moves clock system.shared call after moved)
    (current : Current clock system.shared call) : Counted token first limit ⟨after, system.calls.set id moved⟩ := by
  have count := successes_moved after moved held (moves_unfinished moves token)
  have gone := revoked_gone id moves current counts.revoked
  rcases moves_row moves current token with ⟨unconsumed, row⟩ | ⟨info, succeeded, heldRow, valid, row⟩
  · rw [unconsumed, if_neg Bool.false_ne_true, Nat.add_zero] at count
    refine ⟨count ▸ counts.bounded, fun info read => ?_, gone⟩
    rcases row with same | none
    · exact count ▸ counts.counted info (same.symm.trans read)
    · cases none.symm.trans read
  · rw [succeeded, if_pos rfl] at count
    obtain ⟨sameExpires, uses⟩ := counts.counted info heldRow
    have below := valid_unexhausted valid (sameExpires ▸ limited)
    refine ⟨by omega, fun stored read => ?_, gone⟩
    rcases row with used | none
    · cases used.symm.trans read
      refine ⟨sameExpires, ?_⟩
      rw [used_count below, count, uses, Nat.add_assoc]
    · cases none.symm.trans read

theorem counted_step (limited : first.expires.maxUses = some limit) (counts : Counted token first limit system)
    (met : Unchanged system act ∧ Unlisted token act)
    (stepped : step system act = some next) : Counted token first limit next := by
  cases act with
  | call request =>
    obtain ⟨opened, fresh, rfl⟩ := step_call stepped
    exact counted_call counts fresh met.2
  | advance id clock =>
    obtain ⟨call, after, moved, held, advanced, rfl⟩ := step_advance stepped
    exact counted_advance limited counts held (advance_moves advanced) (met.1 call held)

structure Late (token : String) (id : Nat) (system : System Rows Call) : Prop where
  gone : system.shared[token]? = none
  own : system.calls[id]? = some (.checking token true) ∨ ∃ message, system.calls[id]? = some (.failed message)

theorem late_step (late : Late token id system) (met : Unchanged system act) (stepped : step system act = some next) :
    Late token id next := by
  cases act with
  | call request =>
    obtain ⟨opened, fresh, rfl⟩ := step_call stepped
    have kept : ∀ call, system.calls[id]? = some call → (system.calls ++ [opened])[id]? = some call := fun call held =>
      getElem?_append_left (List.getElem?_eq_some_iff.mp held).1 ▸ held
    exact ⟨late.gone, late.own.imp (kept _) fun ⟨message, held⟩ => ⟨message, kept _ held⟩⟩
  | advance other clock =>
    obtain ⟨call, after, moved, held, advanced, rfl⟩ := step_advance stepped
    refine ⟨gone_stays (advance_moves advanced) (met call held) late.gone, ?_⟩
    by_cases same : other = id
    · subst same
      have inside := (List.getElem?_eq_some_iff.mp held).1
      rcases late.own with waiting | ⟨message, ended⟩
      · cases held.symm.trans waiting
        rw [advance, late.gone] at advanced
        cases advanced
        exact .inr ⟨_, getElem?_set_self inside⟩
      · cases held.symm.trans ended
        cases advanced
    · rw [getElem?_set_ne same]
      exact late.own

end

variable {token : String} {rows : Rows} {first : DatabaseTokenInfo} {limit : UInt64} {acts : List (Act Request Clock)}
  {last : System Rows Call}

theorem start_counted (held : rows[token]? = some first) : Counted token first limit ⟨rows, []⟩ := by
  refine ⟨Nat.zero_le _, fun info read => ?_, fun member => absurd member not_mem_nil⟩
  cases held.symm.trans read
  exact ⟨rfl, rfl⟩

theorem run_counted (held : rows[token]? = some first) (limited : first.expires.maxUses = some limit)
    (unlisted : ∀ act ∈ acts, Unlisted token act) (unchanged : AllMeet step Unchanged ⟨rows, []⟩ acts)
    (ran : runs step ⟨rows, []⟩ acts = some last) : Counted token first limit last := by
  refine runs_meeting_invariant (fun state act next counts met stepped => ?_) (start_counted held)
    (all_meet_members unchanged unlisted) ran
  exact counted_step limited counts met stepped

theorem late_fails {config : Config} {middle : System Rows Call} (gone : middle.shared[token]? = none)
    (unlisted : token ∉ getConfigTokens config)
    (unchanged : AllMeet step Unchanged middle (.call (.tryConsume token config) :: acts))
    (ran : runs step middle (.call (.tryConsume token config) :: acts) = some last) :
    Late token middle.calls.length last := by
  obtain ⟨next, stepped, later⟩ := runs_cons.mp ran
  have opened : next = ⟨middle.shared, middle.calls ++ [.checking token true]⟩ := by
    obtain ⟨opened, fresh, rfl⟩ := step_call stepped
    rw [Request.tryConsume, opens, if_neg unlisted] at fresh
    cases fresh
    rfl
  have begins : Late token middle.calls.length next := by
    rw [opened]
    refine ⟨gone, .inl ?_⟩
    rw [getElem?_append_right le_rfl, Nat.sub_self]
    rfl
  exact runs_meeting_invariant (fun _ _ _ => late_step) begins (unchanged.2 next stepped) later

theorem uses_bounded_and_revocable (rows : Rows) (token : String) (first : DatabaseTokenInfo) (limit : UInt64)
    (acts : List (Act Request Clock)) (last : System Rows Call) (held : rows[token]? = some first)
    (limited : first.expires.maxUses = some limit) (unlisted : ∀ act ∈ acts, Unlisted token act)
    (unchanged : AllMeet step Unchanged ⟨rows, []⟩ acts) (ran : runs step ⟨rows, []⟩ acts = some last) :
    successes token last ≤ limit.toNat - first.uses.toNat ∧
      ∀ before config after middle, acts = before ++ .call (.tryConsume token config) :: after → runs step ⟨rows, []⟩ before = some middle →
        Call.revoked token ∈ middle.calls → last.calls[middle.calls.length]? ≠ some (.accepted token true) := by
  refine ⟨(run_counted held limited unlisted unchanged ran).bounded, ?_⟩
  rintro before config after middle rfl reached revoked
  have listedNow := unlisted _ (mem_append_right before mem_cons_self) rfl
  have counts : Counted token first limit middle := run_counted held limited
    (fun act member => unlisted act (mem_append_left _ member)) (all_meet_before unchanged) reached
  obtain ⟨between, first, later⟩ := runs_append.mp ran
  cases reached.symm.trans first
  have late := late_fails (counts.revoked revoked) listedNow (all_meet_after unchanged reached) later
  intro succeeded
  rcases late.own with waiting | ⟨message, ended⟩
  · cases succeeded.symm.trans waiting
  · cases succeeded.symm.trans ended

def freshToken (uses : UInt64) : DatabaseTokenInfo := ⟨0, ⟨some uses, none⟩⟩

def noConfig : Config := ⟨some (.ok "other tokens"), none⟩

def orderlyActs : List (Act Request Clock) :=
  [.call (.tryConsume "t" noConfig), .advance 0 (0, 0), .advance 0 (0, 0), .call (.isTokenValid "t" noConfig),
    .call (.revokeToken "t" noConfig),
    .advance 1 (0, 0), .advance 2 (0, 0), .advance 2 (0, 0), .advance 1 (0, 0)]

def lateActs : List (Act Request Clock) := [.call (.tryConsume "t" noConfig), .advance 3 (0, 0)]

def oneToken (uses : UInt64) : System Rows Call := ⟨extend ∅ [("t", freshToken uses)], []⟩

theorem orderly_runs : (runs step (oneToken 2) orderlyActs).isSome = true := by decide +kernel

theorem orderly_late_runs : (runs step (oneToken 2) (orderlyActs ++ lateActs)).isSome = true := by decide +kernel

theorem orderly_late_refused :
    successes "t" ((runs step (oneToken 2) (orderlyActs ++ lateActs)).get orderly_late_runs) ≤ 2 ∧
      ((runs step (oneToken 2) (orderlyActs ++ lateActs)).get orderly_late_runs).calls[3]? ≠ some (.accepted "t" true) := by
  have three : ((runs step (oneToken 2) orderlyActs).get orderly_runs).calls.length = 3 := by decide +kernel
  have revoked : Call.revoked "t" ∈ ((runs step (oneToken 2) orderlyActs).get orderly_runs).calls := by decide +kernel
  obtain ⟨bounded, late⟩ := uses_bounded_and_revocable (oneToken 2).shared "t" (freshToken 2) 2
    (orderlyActs ++ lateActs) _ (by decide +kernel) rfl
    (by decide +kernel) (by decide +kernel) (some_get orderly_late_runs).symm
  exact ⟨bounded, three ▸ late orderlyActs noConfig [.advance 3 (0, 0)] _ rfl (some_get orderly_runs).symm revoked⟩

def crowdedActs : List (Act Request Clock) :=
  [.call (.tryConsume "t" noConfig), .call (.tryConsume "t" noConfig), .advance 0 (0, 0), .advance 1 (0, 0),
    .advance 0 (0, 0), .advance 1 (0, 0)]

def restoredActs : List (Act Request Clock) :=
  [.call (.tryConsume "t" noConfig), .advance 0 (0, 0), .call (.revokeToken "t" noConfig), .advance 1 (0, 0),
    .advance 1 (0, 0), .advance 0 (0, 0),
    .call (.tryConsume "t" noConfig), .advance 2 (0, 0), .advance 2 (0, 0)]

theorem overused_and_restored : (∀ act ∈ crowdedActs ++ restoredActs, Unlisted "t" act) ∧
    (runs step (oneToken 1) crowdedActs).map (successes "t") = some 2 ∧
      (runs step (oneToken 3) (restoredActs.take 6)).map
      (fun system => (system.calls.length, decide (Call.revoked "t" ∈ system.calls))) = some (2, true) ∧ (runs step
      (oneToken 3) restoredActs).map (fun system => system.calls[2]?) = some (some (.accepted "t" true)) := by
  decide +kernel

end GaussMatrix.Users.RegistrationTokens

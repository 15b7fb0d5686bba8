import GaussMatrix.Library.Collections

namespace GaussMatrix.Client.Uiaa

open Collections

inductive AuthType where
  | password
  | sso
  | jwt
  | oauth
  | registrationToken
  | dummy
  | other (name : String)
deriving DecidableEq

structure UiaaInfo where
  flows : List (List AuthType)
  completed : List AuthType
  session : Option String
  authError : Option String

structure UserId where
  localpart : String
  serverName : String
deriving DecidableEq

inductive AuthData where
  | password (identifier user : Option String) (password : String) (session : Option String)
  | registrationToken (token : String) (session : Option String)
  | fallbackAcknowledgement (session : String)
  | oauth (session : Option String)
  | dummy (session : Option String)
  | jwt (token : String)
  | other (session : Option String)

def AuthData.session : AuthData → Option String
  | .password _ _ _ session | .registrationToken _ session | .oauth session | .dummy session | .other session => session
  | .fallbackAcknowledgement session => some session
  | .jwt _ => none

-- What the rest of the server answers while one request is served. A registration token is asked for without the space
-- around it.
structure Services where
  parseUserId : String → Option UserId
  elementHacks : Bool
  passwordHash : UserId → Option String
  verifyPassword : String → String → Bool
  authLdap : UserId → String → Bool
  ssoSession : UserId → Bool
  tryConsume : String → Bool
  canReplaceCrossSigningKeys : Bool
  hasPassword : Bool
  ldapEnabled : Bool
  oidcDeviceIdp : Option String
  origin : Option String
  identityProviders : Nat
  defaultProvider : Option String
  jwtEnabled : Bool
  validateUser : String → Except String UserId
  userExists : UserId → Bool
  randomString : String

abbrev Sessions := BTreeMap String UiaaInfo

def PASSWORD_SENTINEL : String := "*"

inductive Progress where
  | exempt (info : UiaaInfo)
  | refused (info : UiaaInfo)
  | checked (info : UiaaInfo)

section

variable (services : Services)

def complete (info : UiaaInfo) (stage : AuthType) : UiaaInfo := { info with completed := info.completed ++ [stage] }

def refuse (info : UiaaInfo) (message : String) : UiaaInfo := { info with authError := some message }

def passwordVerified (userId : UserId) (password : String) : Bool :=
  (services.passwordHash userId).any (services.verifyPassword password) || services.authLdap userId password

def passwordExempt (userId : UserId) (password : String) : Bool :=
  !passwordVerified services userId password && services.passwordHash userId == some PASSWORD_SENTINEL &&
    services.ssoSession userId

def tryPassword (userId : UserId) (identifier user : Option String) (password : String) (info : UiaaInfo) :
    Except String Progress :=
  match identifier.or (if services.elementHacks then user else none) with
  | none => .error "Identifier type not recognized."
  | some username =>
    match services.parseUserId username with
    | none => .error "User ID is invalid."
    | some named =>
      if userId.localpart ≠ named.localpart then .error "User ID and access token mismatch."
      else if passwordExempt services named password then .ok (.exempt info)
      else if passwordVerified services named password then .ok (.checked (complete info .password))
      else .ok (.refused (refuse info "Invalid username or password."))

def tryStage (userId : UserId) (info : UiaaInfo) : AuthData → Except String Progress
  | .password identifier user password _ => tryPassword services userId identifier user password info
  | .registrationToken token _ =>
    if services.tryConsume token then .ok (.checked (complete info .registrationToken))
    else .ok (.refused (refuse info "Invalid registration token."))
  | .fallbackAcknowledgement _ => .ok (.checked info)
  | .oauth _ =>
    if .oauth ∈ info.completed then .ok (.checked info)
    else if services.canReplaceCrossSigningKeys then .ok (.checked (complete info .oauth))
    else .ok (.refused (refuse info "OAuth cross-signing reset not approved for this session."))
  | .dummy _ => .ok (.checked (complete info .dummy))
  | .jwt _ | .other _ => .ok (.checked info)

def covers (completed : List AuthType) (flow : List AuthType) : Bool := flow.all fun stage => decide (stage ∈ completed)

def namedSession (sessions : Sessions) (auth : AuthData) (uiaainfo : UiaaInfo) : Except String UiaaInfo :=
  match auth.session with
  | none => .ok uiaainfo
  | some session =>
    match sessions[session]? with
    | some info => .ok info
    | none => .error "UIAA session does not exist."

def withSession (info : UiaaInfo) : UiaaInfo := { info with session := some (info.session.getD services.randomString) }

def tryAuth (sessions : Sessions) (userId : UserId) (auth : AuthData) (uiaainfo : UiaaInfo) :
    Except String (Bool × UiaaInfo) × Sessions :=
  match namedSession sessions auth uiaainfo with
  | .error message => (.error message, sessions)
  | .ok found =>
    match tryStage services userId (withSession services found) auth with
    | .error message => (.error message, sessions)
    | .ok (.exempt info) => (.ok (true, info), sessions)
    | .ok (.refused info) => (.ok (false, info), sessions)
    | .ok (.checked info) =>
      let session := info.session.getD services.randomString
      if info.flows.any (covers info.completed) then (.ok (true, info), sessions.erase session)
      else (.ok (false, info), sessions.insert session info)

def boundIdp : Option String := (services.oidcDeviceIdp.filter fun idp => idp ≠ "").or
    (if services.origin = some "sso" ∧ services.identityProviders = 1 then services.defaultProvider else none)

def requestFlows : List (List AuthType) :=
  (if services.hasPassword || services.ldapEnabled then [[.password]] else []) ++
    (if (boundIdp services).isSome then [[.sso]] else []) ++
    if services.jwtEnabled then [[.jwt]] else []

def requestInfo : UiaaInfo := ⟨requestFlows services, [], none, none⟩

structure Body where
  json : Bool
  auth : Except String (Option AuthData)

-- A request that is let in by its session, and not by a JWT, comes with what the session has then completed.
inductive Outcome where
  | accepted (userId : UserId) (session : Option UiaaInfo)
  | uiaa (info : UiaaInfo)
  | failed (message : String)

def authUiaa (sessions : Sessions) (userId : UserId) (body : Body) : Outcome × Sessions :=
  match body.auth with
  | .error message => (.failed message, sessions)
  | .ok (some (.jwt token)) =>
    match services.validateUser token with
    | .error message => (.failed message, sessions)
    | .ok user =>
      if services.userExists user then (.accepted user none, sessions)
        else (.failed ("User @" ++ user.localpart ++ ":" ++ user.serverName ++ " is not registered."), sessions)
  | .ok (some auth) =>
    match tryAuth services sessions userId auth (requestInfo services) with
    | (.error message, after) => (.failed message, after)
    | (.ok (true, info), after) => (.accepted userId (some info), after)
    | (.ok (false, info), after) => (.uiaa info, after)
  | .ok none =>
    if body.json then
      let info := { requestInfo services with session := some services.randomString }
      (.uiaa info, sessions.insert services.randomString info)
    else (.failed "JSON body is not valid", sessions)

variable {services} {sessions after : Sessions} {userId : UserId} {auth : AuthData} {uiaainfo start info : UiaaInfo}

def exempt (services : Services) : AuthData → Bool
  | .password identifier user password _ =>
    ((identifier.or (if services.elementHacks then user else none)).bind services.parseUserId).any fun named =>
    passwordExempt services named password
  | _ => false

theorem try_password_exempt {identifier user : Option String} {password : String}
    (allowed : tryPassword services userId identifier user password start = .ok (.exempt info))
    {session : Option String} : exempt services (.password identifier user password session) = true := by
  rw [tryPassword] at allowed
  split at allowed
  next => cases allowed
  next username named =>
    split at allowed
    next => cases allowed
    next parsed read =>
      split at allowed
      next => cases allowed
      next =>
        split at allowed
        next without => rw [exempt, named, Option.bind_some, read, Option.any_some, without]
        next => split at allowed <;> cases allowed

theorem try_password_checked {identifier user : Option String} {password : String}
    (tried : tryPassword services userId identifier user password start = .ok (.checked info)) :
    info = complete start .password := by
  rw [tryPassword] at tried
  split at tried
  next => cases tried
  next =>
    split at tried
    next => cases tried
    next =>
      split at tried
      next => cases tried
      next =>
        split at tried
        next => cases tried
        next =>
          split at tried
          next => exact (Progress.checked.inj (Except.ok.inj tried)).symm
          next => cases tried

theorem try_stage_exempt (tried : tryStage services userId start auth = .ok (.exempt info)) :
    exempt services auth = true := by
  cases auth with
  | password identifier user password session => exact try_password_exempt tried
  | registrationToken token session =>
    rw [tryStage] at tried
    split at tried <;> cases tried
  | fallbackAcknowledgement session => cases tried
  | oauth session =>
    rw [tryStage] at tried
    split at tried
    · cases tried
    · split at tried <;> cases tried
  | dummy session => cases tried
  | jwt token => cases tried
  | other session => cases tried

theorem try_stage_flows (tried : tryStage services userId start auth = .ok (.checked info)) :
    info.flows = start.flows := by
  cases auth with
  | password identifier user password session => rw [try_password_checked tried, complete]
  | registrationToken token session =>
    rw [tryStage] at tried
    split at tried <;> cases tried
    rfl
  | fallbackAcknowledgement session =>
    cases tried
    rfl
  | oauth session =>
    rw [tryStage] at tried
    split at tried
    · cases tried
      rfl
    · split at tried <;> cases tried
      rfl
  | dummy session =>
    cases tried
    rfl
  | jwt token =>
    cases tried
    rfl
  | other session =>
    cases tried
    rfl

theorem try_auth_accepted (accepted : tryAuth services sessions userId auth uiaainfo = (.ok (true, info), after)) :
    exempt services auth = true ∨
      ∃ found, namedSession sessions auth uiaainfo = .ok found ∧ ∃ flow ∈ found.flows, ∀ stage ∈ flow, stage ∈ info.completed := by
  rw [tryAuth] at accepted
  split at accepted
  next => cases accepted
  next found named =>
    split at accepted
    next => cases accepted
    next exempted tried =>
      cases accepted
      exact .inl (try_stage_exempt tried)
    next => cases accepted
    next checked tried =>
      split at accepted
      next covered =>
        cases accepted
        obtain ⟨flow, member, all⟩ := List.any_eq_true.mp covered
        refine .inr ⟨found, named, flow, ?_, fun stage inFlow => decide_eq_true_eq.mp (List.all_eq_true.mp all stage inFlow)⟩
        rw [try_stage_flows tried] at member
        exact member
      next => cases accepted

end

def handleUiaa (sessions : Sessions) (session : String) : Sessions :=
  match sessions[session]? with
  | none => sessions
  | some info =>
    let oauth := if info.flows.any (fun flow => .oauth ∈ flow) && decide (.oauth ∉ info.completed) then complete info .oauth else info
    let sso := if oauth.flows.any (fun flow => .sso ∈ flow) && decide (.sso ∉ oauth.completed) then complete oauth .sso else oauth
    sessions.insert session sso

end GaussMatrix.Client.Uiaa

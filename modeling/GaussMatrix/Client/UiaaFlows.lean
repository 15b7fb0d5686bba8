import GaussMatrix.Client.UploadSigningKeys
import GaussMatrix.Library.Runs

namespace GaussMatrix.Client.UiaaFlows

open Collections Json Runs Uiaa UploadSigningKeys Users.CrossSigning

structure Acceptance where
  flows : List (List AuthType)
  completed : List AuthType
  exempted : Bool
deriving DecidableEq

structure Server where
  state : State
  accepted : List Acceptance

inductive Act where
  | guarded (services : Services) (body : Body)
  | upload (services : Services) (upload : Upload)
  | callback (session : String)

def acceptance (services : Services) (body : Body) : Outcome → Option Acceptance
  | .accepted _ (some info) =>
    some ⟨requestFlows services, info.completed, (body.auth.toOption.join).any (exempt services)⟩
  | _ => none

section

variable {Key : Type} [DecidableEq Key] (serde : Serde Key) (userId : String) (user : UserId)

def asked (services : Services) (state : State) (upload : Upload) : Option Acceptance :=
  if (unguarded serde userId services state upload).isSome then none
  else acceptance services upload.body (authUiaa services state.sessions user upload.body).1

def step (server : Server) : Act → Option Server
  | .guarded services body =>
    let answer := authUiaa services server.state.sessions user body
    some ⟨{ server.state with sessions := answer.2 }, server.accepted ++ (acceptance services body answer.1).toList⟩
  | .upload services upload =>
    some ⟨(uploadSigningKeysRoute serde userId services user server.state upload).2, server.accepted ++
    (asked serde userId user services server.state upload).toList⟩
  | .callback session =>
    some { server with state := { server.state with sessions := handleUiaa server.state.sessions session } }

def start (tables : Tables) : Server := ⟨⟨tables, ∅⟩, []⟩

end

def OwnFlows (services : Services) (sessions : Sessions) (body : Body) : Prop :=
  ∀ auth ∈ body.auth.toOption.join, ∀ session ∈ auth.session, ∀ info ∈ sessions[session]?, ∀ flow ∈ info.flows,
    flow ∈ requestFlows services

def Meets (server : Server) : Act → Prop
  | .guarded services body => OwnFlows services server.state.sessions body
  | .upload services upload => OwnFlows services server.state.sessions upload.body
  | .callback _ => True

instance (services : Services) (sessions : Sessions) (body : Body) : Decidable (OwnFlows services sessions body) :=
  inferInstanceAs (Decidable (∀ auth ∈ body.auth.toOption.join, ∀ session ∈ auth.session, ∀ info ∈ sessions[session]?,
    ∀ flow ∈ info.flows, flow ∈ requestFlows services))

instance (server : Server) (act : Act) : Decidable (Meets server act) := match act with
  | .guarded services body => inferInstanceAs (Decidable (OwnFlows services server.state.sessions body))
  | .upload services upload => inferInstanceAs (Decidable (OwnFlows services server.state.sessions upload.body))
  | .callback _ => isTrue trivial

def Demanded (accepted : Acceptance) : Prop :=
  accepted.exempted = false → ∃ flow ∈ accepted.flows, ∀ stage ∈ flow, stage ∈ accepted.completed

section

variable {services : Services} {sessions : Sessions} {user : UserId} {body : Body}

theorem auth_uiaa_accepted {info : UiaaInfo} {authed : UserId}
    (accepted : (authUiaa services sessions user body).1 = .accepted authed (some info)) : ∃ auth after, body.auth = .ok
    (some auth) ∧ tryAuth services sessions user auth (requestInfo services) = (.ok (true, info), after) := by
  rw [authUiaa] at accepted
  split at accepted
  next => cases accepted
  next =>
    split at accepted
    next => cases accepted
    next => split at accepted <;> cases accepted
  next auth _ given =>
    split at accepted
    next => cases accepted
    next found after tried =>
      cases accepted
      exact ⟨auth, after, given, tried⟩
    next => cases accepted
  next =>
    split at accepted <;> cases accepted

theorem named_flows {auth : AuthData} {found : UiaaInfo} (own : OwnFlows services sessions body)
    (given : body.auth = .ok (some auth)) (named : namedSession sessions auth (requestInfo services) = .ok found) :
    ∀ flow ∈ found.flows, flow ∈ requestFlows services := by
  rw [namedSession] at named
  split at named
  next =>
    cases named
    exact fun flow member => member
  next session chosen =>
    split at named
    next info held =>
      cases named
      refine own auth ?_ session chosen found held
      rw [given]
      rfl
    next => cases named

theorem acceptance_demanded (own : OwnFlows services sessions body) {accepted : Acceptance}
    (recorded : acceptance services body (authUiaa services sessions user body).1 = some accepted) :
    Demanded accepted := by
  rw [acceptance.eq_def] at recorded
  split at recorded
  next authed info outcome =>
    obtain ⟨auth, after, given, tried⟩ := auth_uiaa_accepted outcome
    cases recorded
    intro notExempt
    rcases try_auth_accepted tried with exempted | ⟨found, named, flow, member, completed⟩
    · rw [given] at notExempt
      have without : exempt services auth = false := notExempt
      rw [exempted] at without
      cases without
    · exact ⟨flow, named_flows own given named flow member, completed⟩
  next => cases recorded

end

theorem step_demanded {Key : Type} [DecidableEq Key] {serde : Serde Key} {userId : String} {user : UserId}
    {server next : Server} {act : Act} (demanded : ∀ accepted ∈ server.accepted, Demanded accepted)
    (met : Meets server act) (stepped : step serde userId user server act = some next) :
    ∀ accepted ∈ next.accepted, Demanded accepted := by
  intro accepted member
  cases act with
  | guarded services body =>
    cases stepped
    rcases List.mem_append.mp member with before | new
    · exact demanded accepted before
    · exact acceptance_demanded met (Option.mem_toList.mp new)
  | upload services upload =>
    cases stepped
    rcases List.mem_append.mp member with before | new
    · exact demanded accepted before
    · have recorded := Option.mem_toList.mp new
      rw [asked] at recorded
      split at recorded
      next => cases recorded
      next => exact acceptance_demanded met recorded
  | callback session =>
    cases stepped
    exact demanded accepted member

theorem request_flows_demanded {Key : Type} [DecidableEq Key] (serde : Serde Key) (userId : String) (user : UserId)
    (tables : Tables) (acts : List Act) (last : Server) (ran : runs (step serde userId user)
    (start tables) acts = some last) (met : AllMeet (step serde userId user) Meets (start tables) acts)
    (accepted : Acceptance) (member : accepted ∈ last.accepted) (notExempt : accepted.exempted = false) :
    ∃ flow ∈ accepted.flows, ∀ stage ∈ flow, stage ∈ accepted.completed := by
  have nothing : ∀ accepted ∈ (start tables).accepted, Demanded accepted :=
    fun accepted none => absurd none List.not_mem_nil
  exact runs_meeting_invariant (fun _ act _ demanded met stepped => step_demanded demanded met stepped) nothing met ran
    accepted member notExempt

def masterStored : Tables :=
  (addCrossSigningKeys sampleSerde ⟨∅, none, none, none⟩ (some (sampleKey "master" "M")) none none).2

def passwordGiven : List Act := [.guarded passwordServer ⟨true, .ok none⟩,
    .guarded passwordServer ⟨true, .ok (some (.password (some "u") none "secret" (some "r")))⟩]

theorem password_given_run :
    (runs (step sampleSerde "@u:h" ⟨"u", "h"⟩) (start masterStored) passwordGiven).isSome = true := by decide +kernel

theorem password_given_demanded : ∃ flow ∈ [[AuthType.password]], ∀ stage ∈ flow, stage ∈ [AuthType.password] :=
  request_flows_demanded sampleSerde "@u:h" ⟨"u", "h"⟩ masterStored passwordGiven _
    (Option.some_get password_given_run).symm (by decide +kernel)
    ⟨[[.password]], [.password], false⟩ (by decide +kernel) rfl

def otherMaster : Upload :=
  ⟨⟨some (sampleKey "master" "N"), none, none⟩, ⟨true, .ok none⟩, false, true, some "https://h"⟩

def resetSessionReused : List Act := [.upload passwordServer otherMaster, .callback "r",
    .guarded passwordServer ⟨true, .ok (some (.fallbackAcknowledgement "r"))⟩]

theorem reset_session_lets_in :
    (runs (step sampleSerde "@u:h" ⟨"u", "h"⟩) (start masterStored) resetSessionReused).map Server.accepted = some
    [⟨[[.password]], [.oauth], false⟩] := by
  decide +kernel

end GaussMatrix.Client.UiaaFlows

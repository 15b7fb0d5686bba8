import GaussMatrix.Agent.Capability
import GaussMatrix.Library.Runs

namespace GaussMatrix.Agent.Privileges

open Capability Collections Json List Runs Std

def defaultAgentNamespace : String := "@gauss.agent."

inductive ProvisionError where
  | notInNamespace
  | missingSigningKey

def ProvisionError.label : ProvisionError → String
  | .notInNamespace => "agent id is not in the agent namespace"
  | .missingSigningKey => "a cross-signing public key is required"

structure AgentProfile where
  agentId : String
  operator : String
  signingKey : String
  displayName : Option String

def isWhitespace (c : Char) : Bool := (9 ≤ c.toNat && c.toNat ≤ 13) || (0x2000 ≤ c.toNat && c.toNat ≤ 0x200a) ||
    [0x20, 0x85, 0xa0, 0x1680, 0x2028, 0x2029, 0x202f, 0x205f, 0x3000].contains c.toNat

def AgentProfile.provision (agentId scope operator signingKey : String) (displayName : Option String) :
    Except ProvisionError AgentProfile :=
  if ¬ scope.toList <+: agentId.toList then .error .notInNamespace
  else if signingKey.toList.all isWhitespace then .error .missingSigningKey
  else .ok ⟨agentId, operator, signingKey, displayName⟩

def AgentProfile.toContent (profile : AgentProfile) : Value :=
  .object ([("agent_id", .string profile.agentId), ("operator", .string profile.operator),
    ("signing_key", .string profile.signingKey)] ++
    (profile.displayName.map fun name => ("display_name", Value.string name)).toList)

inductive Subject where
  | room (id : String)
  | agent (id : String)
deriving DecidableEq

inductive Operation where
  | setGrant (room : String) (grant : CapabilityGrant)
  | provision (profile : AgentProfile)
  | deprovision (agent : String)

def Operation.subject : Operation → Subject
  | .setGrant room _ => .room room
  | .provision profile => .agent profile.agentId
  | .deprovision agent => .agent agent

def Operation.effect : Operation → Option Value
  | .setGrant _ grant => some grant.toContent
  | .provision profile => some profile.toContent
  | .deprovision _ => none

def Operation.record (serverUser : String) : Operation → Value
  | .setGrant room grant =>
    .object [("editor", .string serverUser), ("room", .string room), ("version", .number (.posInt grant.version)),
    ("action", .string "grant_set")]
  | .provision profile => .object [("operator", .string profile.operator), ("agent", .string profile.agentId), ("action", .string "provision")]
  | .deprovision agent => .object [("agent", .string agent), ("action", .string "deprovision")]

inductive Response where
  | granted
  | provisioned (profile : AgentProfile)
  | deprovisioned (existed : Bool)
  | failed (message : String)

def Operation.response : Operation → Response
  | .setGrant .. => .granted
  | .provision profile => .provisioned profile
  | .deprovision _ => .deprovisioned true

def Operation.changeError (error : String) : Operation → String
  | .setGrant .. => error
  | .provision _ => "agent registry write failed: " ++ error
  | .deprovision _ => "agent registry delete failed: " ++ error

-- A grant is in force once the room state is set; the event is then handed to the sender, which may still fail.
inductive Progress where
  | checking (agent : String)
  | changing (operation : Operation)
  | sending (operation : Operation)
  | recording (operation : Operation)
  | returned (response : Response)

def afterChange (operation : Operation) : Progress :=
  match operation with
  | .setGrant .. => .sending operation
  | .provision _ | .deprovision _ => .recording operation

structure Server where
  grants : BTreeMap String Value
  registry : BTreeMap String Value
  audit : List (Nat × Value)
  operations : List Progress
  author : Subject → Option (Nat × Operation)

inductive Act where
  | setGrant (room : String) (grant : CapabilityGrant)
  | provision (agentId operator signingKey : String) (displayName : Option String)
  | deprovision (agent : String)
  | check (id : Nat) (failure : Option String)
  | change (id : Nat) (failure : Option String)
  | send (id : Nat) (failure : Option String)
  | record (id : Nat) (failure : Option String)
  | request

def Server.become (server : Server) (id : Nat) (progress : Progress) : Server :=
  { server with operations := server.operations.set id progress }

def Server.apply (server : Server) : Operation → Server
  | .setGrant room grant => { server with grants := server.grants.insert room grant.toContent }
  | .provision profile => { server with registry := server.registry.insert profile.agentId profile.toContent }
  | .deprovision agent => { server with registry := server.registry.erase agent }

def Server.changed (server : Server) (id : Nat) (operation : Operation) : Server :=
  { server.apply operation with
    operations := server.operations.set id (afterChange operation)
    author := Function.update server.author operation.subject (some (id, operation)) }

def step (serverUser : String) (server : Server) : Act → Option Server
  | .setGrant room grant => some { server with operations := server.operations ++ [.changing (.setGrant room grant)] }
  | .provision agentId operator signingKey displayName =>
    let begun :=
      match AgentProfile.provision agentId defaultAgentNamespace operator signingKey displayName with
      | .ok profile => .changing (.provision profile)
      | .error error => .returned (.failed ("cannot provision agent: " ++ error.label))
    some { server with operations := server.operations ++ [begun] }
  | .deprovision agent => some { server with operations := server.operations ++ [.checking agent] }
  | .check id failure =>
    match server.operations[id]? with
    | some (.checking agent) =>
      some (server.become id (match failure with
        | some error => .returned (.failed ("agent registry lookup failed: " ++ error))
        | none => if agent ∈ server.registry then .changing (.deprovision agent) else .returned (.deprovisioned false)))
    | _ => none
  | .change id failure =>
    match server.operations[id]? with
    | some (.changing operation) =>
      match failure with
      | some error => some (server.become id (.returned (.failed (operation.changeError error))))
      | none => some (server.changed id operation)
    | _ => none
  | .send id failure =>
    match server.operations[id]? with
    | some (.sending operation) =>
      match failure with
      | some error => some (server.become id (.returned (.failed error)))
      | none => some (server.become id (.recording operation))
    | _ => none
  | .record id failure =>
    match server.operations[id]? with
    | some (.recording operation) =>
      match failure with
      | some error => some (server.become id (.returned (.failed ("audit log append failed: " ++ error))))
      | none => some { server.become id (.returned operation.response) with audit := server.audit ++ [(id, operation.record serverUser)] }
    | _ => none
  | .request => some server

def start (grants registry : BTreeMap String Value) : Server := ⟨grants, registry, [], [], fun _ => none⟩

def Server.read (server : Server) : Subject → Option Value
  | .room id => server.grants[id]?
  | .agent id => server.registry[id]?

def Audited (serverUser : String) (initial server : Server) : Prop :=
  ∀ subject, (server.author subject = none ∧ server.read subject = initial.read subject) ∨
    ∃ id operation, server.author subject = some (id, operation) ∧ server.read subject = operation.effect ∧
      (id, operation.record serverUser) ∈ server.audit

def unrecorded : Progress → Bool
  | .sending _ | .recording _ => true
  | _ => false

def Recorded (server : Server) : Act → Prop
  | .send _ failure | .record _ failure => failure = none
  | .request => ∀ progress ∈ server.operations, unrecorded progress = false
  | _ => True

instance (server : Server) : DecidablePred (Recorded server) := fun act =>
  match act with
  | .send _ failure => inferInstanceAs (Decidable (failure = none))
  | .record _ failure => inferInstanceAs (Decidable (failure = none))
  | .request => inferInstanceAs (Decidable (∀ progress ∈ server.operations, unrecorded progress = false))
  | .setGrant .. | .provision .. | .deprovision .. | .check .. | .change .. => isTrue trivial

variable {held progress : Progress} {operations : List Progress} {subject : Subject}

section

variable {serverUser : String} {initial server next : Server} {id : Nat} {operation : Operation}

def Tracked (serverUser : String) (server : Server) (id : Nat) (operation : Operation) : Prop :=
  server.operations[id]? = some (.sending operation) ∨ server.operations[id]? = some (.recording operation) ∨
    (id, operation.record serverUser) ∈ server.audit

structure Accounted (serverUser : String) (initial server : Server) : Prop where
  untouched : ∀ subject, server.author subject = none → server.read subject = initial.read subject
  shown : ∀ subject id operation, server.author subject = some (id, operation) → server.read subject = operation.effect
  tracked : ∀ subject id operation, server.author subject = some (id, operation) →
    Tracked serverUser server id operation

theorem start_accounted {grants registry : BTreeMap String Value} :
    Accounted serverUser (start grants registry) (start grants registry) where
  untouched := fun _ _ => rfl
  shown := fun _ _ _ named => by cases named
  tracked := fun _ _ _ named => by cases named

theorem quiet_accounted (accounted : Accounted serverUser initial server) (reads : next.read = server.read)
    (authors : next.author = server.author) (keeps : ∀ id operation, Tracked serverUser server id operation →
    Tracked serverUser next id operation) : Accounted serverUser initial next := by
  refine ⟨?_, ?_, ?_⟩
  · rw [reads, authors]
    exact accounted.untouched
  · rw [reads, authors]
    exact accounted.shown
  · rw [authors]
    exact fun subject id operation named => keeps id operation (accounted.tracked subject id operation named)

theorem begun_accounted (accounted : Accounted serverUser initial server) {progress : Progress} :
    Accounted serverUser initial { server with operations := server.operations ++ [progress] } := by
  have kept : ∀ {id : Nat} {held : Progress}, server.operations[id]? = some held →
    (server.operations ++ [progress])[id]? = some held := by
    intro id held read
    obtain ⟨inside, _⟩ := List.getElem?_eq_some_iff.mp read
    rw [List.getElem?_append_left inside]
    exact read
  refine quiet_accounted accounted rfl rfl fun id operation tracked => ?_
  rcases tracked with sending | recording | logged
  · exact .inl (kept sending)
  · exact .inr (.inl (kept recording))
  · exact .inr (.inr logged)

theorem set_other {other : Nat} (read : operations[id]? = some held) (different : id ≠ other) :
    (operations.set other progress)[id]? = some held := by
  rw [getElem?_set_ne different.symm]
  exact read

theorem set_here (read : operations[id]? = some held) : (operations.set id progress)[id]? = some progress := by
  obtain ⟨inside, _⟩ := List.getElem?_eq_some_iff.mp read
  exact List.getElem?_set_self inside

theorem set_keeps (operations : next.operations = server.operations.set id progress)
    (audit : ∀ entry ∈ server.audit, entry ∈ next.audit) (here : ∀ operation,
    server.operations[id]? = some (.sending operation) ∨ server.operations[id]? = some (.recording operation) →
      Tracked serverUser next id operation) (other : Nat) (operation : Operation) (tracked : Tracked serverUser server other operation) :
    Tracked serverUser next other operation := by
  by_cases same : other = id
  · subst same
    rcases tracked with sending | recording | logged
    · exact here operation (.inl sending)
    · exact here operation (.inr recording)
    · exact .inr (.inr (audit _ logged))
  · rcases tracked with sending | recording | logged
    · exact .inl (operations ▸ set_other sending same)
    · exact .inr (.inl (operations ▸ set_other recording same))
    · exact .inr (.inr (audit _ logged))

theorem become_accounted (accounted : Accounted serverUser initial server) (read : server.operations[id]? = some held)
    (idle : unrecorded held = false) : Accounted serverUser initial (server.become id progress) := by
  refine quiet_accounted accounted rfl rfl (set_keeps rfl (fun _ logged => logged) fun operation changed => ?_)
  rw [read] at changed
  rcases changed with sending | recording
  · cases sending
    cases idle
  · cases recording
    cases idle

theorem sent_accounted (accounted : Accounted serverUser initial server)
    (read : server.operations[id]? = some (.sending operation)) :
    Accounted serverUser initial (server.become id (.recording operation)) := by
  refine quiet_accounted accounted rfl rfl (set_keeps rfl (fun _ logged => logged) fun another changed => ?_)
  have moved : Tracked serverUser (server.become id (.recording operation)) id operation := .inr (.inl (set_here read))
  rw [read] at changed
  rcases changed with sending | recording
  · cases sending
    exact moved
  · cases recording

theorem recorded_accounted (accounted : Accounted serverUser initial server) (read : server.operations[id]? = some (.recording operation)) :
    Accounted serverUser initial { server.become id (.returned operation.response) with audit := server.audit ++ [(id, operation.record serverUser)] } := by
  refine quiet_accounted accounted rfl rfl (set_keeps rfl (fun _ => mem_append_left _) fun another changed => ?_)
  rw [read] at changed
  rcases changed with sending | recording
  · cases sending
  · cases recording
    exact .inr (.inr (mem_append_right _ mem_cons_self))

theorem apply_here : (server.apply operation).read operation.subject = operation.effect := by
  cases operation with
  | setGrant room grant => exact ExtTreeMap.getElem?_insert_self
  | provision profile => exact ExtTreeMap.getElem?_insert_self
  | deprovision agent => exact ExtTreeMap.getElem?_erase_self

theorem apply_elsewhere (other : subject ≠ operation.subject) :
    (server.apply operation).read subject = server.read subject := by
  cases operation with
  | setGrant room grant =>
    cases subject with
    | room id => exact insert_elsewhere fun same => other (congrArg Subject.room same)
    | agent id => rfl
  | provision profile =>
    cases subject with
    | room id => rfl
    | agent id => exact insert_elsewhere fun same => other (congrArg Subject.agent same)
  | deprovision agent =>
    cases subject with
    | room id => rfl
    | agent id =>
      refine ExtTreeMap.getElem?_erase.trans (if_neg fun equal => other ?_)
      exact congrArg Subject.agent (LawfulEqOrd.eq_of_compare equal).symm

theorem changed_read (server : Server) (id : Nat) (operation : Operation) (subject : Subject) :
    (server.changed id operation).read subject = (server.apply operation).read subject := by
  cases subject <;> rfl

theorem changed_accounted (accounted : Accounted serverUser initial server)
    (read : server.operations[id]? = some (.changing operation)) :
    Accounted serverUser initial (server.changed id operation) := by
  have here : (server.changed id operation).author operation.subject = some (id, operation) := Function.update_self ..
  have elsewhere : ∀ {subject : Subject}, subject ≠ operation.subject →
    (server.changed id operation).author subject = server.author subject :=
    fun other => Function.update_of_ne other _ _
  have began : Tracked serverUser (server.changed id operation) id operation := by
    cases operation with
    | setGrant room grant => exact .inl (set_here read)
    | provision profile => exact .inr (.inl (set_here read))
    | deprovision agent => exact .inr (.inl (set_here read))
  refine ⟨fun subject nobody => ?_, fun subject author another named => ?_, fun subject author another named => ?_⟩
  · by_cases own : subject = operation.subject
    · rw [own, here] at nobody
      cases nobody
    · rw [elsewhere own] at nobody
      rw [changed_read, apply_elsewhere own]
      exact accounted.untouched subject nobody
  · by_cases own : subject = operation.subject
    · rw [own, here] at named
      cases named
      rw [own, changed_read]
      exact apply_here
    · rw [elsewhere own] at named
      rw [changed_read, apply_elsewhere own]
      exact accounted.shown subject author another named
  · by_cases own : subject = operation.subject
    · rw [own, here] at named
      cases named
      exact began
    · rw [elsewhere own] at named
      have audit : (server.changed id operation).audit = server.audit := by cases operation <;> rfl
      refine set_keeps rfl (fun entry logged => audit.symm ▸ logged)
        (fun other changed => ?_) author another (accounted.tracked subject author another named)
      rw [read] at changed
      rcases changed with sending | recording
      · cases sending
      · cases recording

theorem step_accounted {act : Act} (accounted : Accounted serverUser initial server) (recorded : Recorded server act)
    (stepped : step serverUser server act = some next) : Accounted serverUser initial next := by
  cases act with
  | setGrant room grant =>
    cases stepped
    exact begun_accounted accounted
  | provision agentId operator signingKey displayName =>
    cases stepped
    exact begun_accounted accounted
  | deprovision agent =>
    cases stepped
    exact begun_accounted accounted
  | check id failure =>
    rw [step] at stepped
    split at stepped
    next agent held =>
        cases stepped
        exact become_accounted accounted held rfl
    next => cases stepped
  | change id failure =>
    rw [step] at stepped
    split at stepped
    next operation held =>
        cases failure with
        | some error =>
          cases stepped
          exact become_accounted accounted held rfl
        | none =>
          cases stepped
          exact changed_accounted accounted held
    next => cases stepped
  | send id failure =>
    rw [step] at stepped
    split at stepped
    next operation held =>
        cases recorded
        cases stepped
        exact sent_accounted accounted held
    next => cases stepped
  | record id failure =>
    rw [step] at stepped
    split at stepped
    next operation held =>
        cases recorded
        cases stepped
        exact recorded_accounted accounted held
    next => cases stepped
  | request =>
    cases stepped
    exact accounted

theorem request_audited (accounted : Accounted serverUser initial server)
    (settled : ∀ progress ∈ server.operations, unrecorded progress = false) : Audited serverUser initial server := by
  intro subject
  cases named : server.author subject with
  | none => exact .inl ⟨rfl, accounted.untouched subject named⟩
  | some entry =>
    obtain ⟨id, operation⟩ := entry
    refine .inr ⟨id, operation, rfl, accounted.shown subject id operation named, ?_⟩
    rcases accounted.tracked subject id operation named with sending | recording | logged
    · exact absurd (settled _ (mem_of_getElem? sending)) Bool.noConfusion
    · exact absurd (settled _ (mem_of_getElem? recording)) Bool.noConfusion
    · exact logged

end

theorem privilege_changes_audited (serverUser : String) (grants registry : BTreeMap String Value) (acts : List Act)
    (last : Server) (ran : runs (step serverUser) (start grants registry) (acts ++ [.request]) = some last)
    (recorded : AllMeet (step serverUser) Recorded (start grants registry) (acts ++ [.request])) :
    Audited serverUser (start grants registry) last := by
  obtain ⟨seen, ranBefore, requested⟩ := runs_append.mp ran
  obtain ⟨recordedBefore, settled⟩ := all_meet_last recorded ranBefore
  have accounted := runs_meeting_invariant (fun server act next holds met stepped => step_accounted holds met stepped)
    start_accounted recordedBefore ranBefore
  cases requested
  exact request_audited accounted settled

def botId : String := "@gauss.agent.bot:x"

def overlapping : List Act :=
  [.setGrant "!r:x" .new, .provision botId "op" "key" none, .change 1 none, .change 0 none, .send 0 none,
    .record 1 none, .record 0 none,
    .deprovision botId, .check 2 none, .change 2 (some "io")]

theorem overlapping_run : (runs (step "@server:x") (start ∅ ∅) (overlapping ++ [.request])).isSome = true := by
  decide +kernel

theorem overlapping_audited :
    ((runs (step "@server:x") (start ∅ ∅) (overlapping ++ [.request])).get overlapping_run).audit.map
    Prod.fst = [1, 0] ∧
      Audited "@server:x" (start ∅ ∅) ((runs (step "@server:x") (start ∅ ∅) (overlapping ++ [.request])).get overlapping_run) := by
  refine ⟨by decide +kernel, ?_⟩
  exact privilege_changes_audited "@server:x" ∅ ∅ overlapping _ (Option.some_get overlapping_run).symm
    (by decide +kernel)

def LeftUnaudited (acts : List Act) : Prop :=
  ∃ last, runs (step "@server:x") (start ∅ ∅) (acts ++ [.request]) = some last ∧ ¬ Audited "@server:x" (start ∅ ∅) last

def grantUnrecorded : List Act := [.setGrant "!r:x" .new, .change 0 none, .send 0 none, .record 0 (some "io")]

def grantUnsent : List Act := [.setGrant "!r:x" .new, .change 0 none, .send 0 (some "closed")]

def provisionUnrecorded : List Act := [.provision botId "op" "key" none, .change 0 none, .record 0 (some "io")]

def deprovisionUnrecorded : List Act :=
  [.provision botId "op" "key" none, .change 0 none, .record 0 none, .deprovision botId, .check 1 none, .change 1 none,
    .record 1 (some "io")]

theorem unlogged_author {serverUser : String} {initial server : Server}
    (unlogged : ∃ entry ∈ server.author subject, entry.1 ∉ server.audit.map Prod.fst) :
    ¬ Audited serverUser initial server := by
  intro audited
  obtain ⟨entry, named, absent⟩ := unlogged
  rcases audited subject with untouched | ⟨id, operation, author, _, logged⟩
  · rw [untouched.1] at named
    cases named
  · rw [author] at named
    cases named
    exact absent (mem_map_of_mem logged)

theorem left_unaudited {acts : List Act} (subject : Subject)
    (shown : (runs (step "@server:x") (start ∅ ∅) (acts ++ [.request])).any
      (fun last => (last.author subject).any fun entry => decide (entry.1 ∉ last.audit.map Prod.fst)) = true) : LeftUnaudited acts := by
  obtain ⟨last, ran, named⟩ := (Option.any_eq_true ..).mp shown
  obtain ⟨entry, author, absent⟩ := (Option.any_eq_true ..).mp named
  exact ⟨last, ran, unlogged_author ⟨entry, author, of_decide_eq_true absent⟩⟩

theorem failed_append_unaudited : LeftUnaudited grantUnrecorded ∧ LeftUnaudited grantUnsent ∧
    LeftUnaudited provisionUnrecorded ∧ LeftUnaudited deprovisionUnrecorded := by
  refine ⟨?_, ?_, ?_, ?_⟩
  · exact left_unaudited (.room "!r:x") (by decide +kernel)
  · exact left_unaudited (.room "!r:x") (by decide +kernel)
  · exact left_unaudited (.agent botId) (by decide +kernel)
  · exact left_unaudited (.agent botId) (by decide +kernel)

end GaussMatrix.Agent.Privileges

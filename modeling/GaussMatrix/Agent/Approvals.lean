import GaussMatrix.Library.Runs
import GaussMatrix.Agent.RateLimit

namespace GaussMatrix.Agent.Approvals

open Collections List Option Runs Store

structure CallKey where
  room : MatrixId
  callId : Bytes
deriving DecidableEq

def approvalKey (key : CallKey) : Bytes := key.room.text ++ 0 :: key.callId

def approvalPending : Bytes := [80]

def approvalApproved : Bytes := [65]

def approvalRejected : Bytes := [82]

inductive Decision where
  | execute
  | requiresApproval
  | denied
deriving DecidableEq

inductive Path where
  | native
  | mcp
deriving DecidableEq

-- A call mediated whose event is to be posted, an MCP call whose pending flag is to be set, a result let through
-- that is to be posted, or a request that has ended.
inductive Request where
  | posting (path : Path) (key : CallKey) (decision : Decision)
  | flagging (key : CallKey)
  | admitted (key : CallKey)
  | ended
deriving DecidableEq

inductive Kind where
  | mediated (decision : Decision)
  | decided (approved : Bool)
  | posted
deriving DecidableEq

structure Event where
  key : CallKey
  kind : Kind
deriving DecidableEq

structure Gate where
  approvals : DomainTree Bytes
  requests : List Request
  history : List Event

def begin (path : Path) (key : CallKey) (decision : Decision) : Request :=
  match decision with
  | .denied => .ended
  | .execute | .requiresApproval => .posting path key decision

def afterPost (path : Path) (key : CallKey) (decision : Decision) (posted : Bool) : Request :=
  if posted = true ∧ path = .mcp ∧ decision = .requiresApproval then .flagging key else .ended

def approvalStatus (gate : Gate) (key : CallKey) : Option Bytes := gate.approvals[approvalKey key]?

def setApprovalStatus (gate : Gate) (key : CallKey) (status : Bytes) : Gate :=
  { gate with approvals := gate.approvals.insert (approvalKey key) status }

def admission (status : Option Bytes) : Except String Unit :=
  if status = some approvalPending then .error "Tool call is awaiting human approval."
  else if status = some approvalRejected then .error "Tool call was rejected by a reviewer."
  else .ok ()

def ingest (gate : Gate) (key : CallKey) : Gate :=
  match admission (approvalStatus gate key) with
  | .ok () => { gate with requests := gate.requests ++ [.admitted key] }
  | .error _ => gate

-- One audit append with what it guards, one post to the timeline, one read or write of the status; a flag says
-- whether it succeeds. What the grant and the rate limit decide about a call is an input.
inductive Act where
  | mediate (path : Path) (key : CallKey) (decision : Decision) (audited : Bool)
  | post (id : Nat) (posted : Bool)
  | flag (id : Nat) (written : Bool)
  | decide (key : CallKey) (approved audited written : Bool)
  | check (key : CallKey) (read : Bool)
  | deliver (id : Nat) (posted : Bool)

def step (gate : Gate) : Act → Option Gate
  | .mediate path key decision audited =>
    some (if audited then { gate with requests := gate.requests ++ [begin path key decision], history := ⟨key, .mediated decision⟩ :: gate.history } else gate)
  | .post id posted =>
    match gate.requests[id]? with
    | some (.posting path key decision) => some { gate with requests := gate.requests.set id (afterPost path key decision posted) }
    | _ => none
  | .flag id written =>
    match gate.requests[id]? with
    | some (.flagging key) =>
      let flagged := if written then setApprovalStatus gate key approvalPending else gate
      some { flagged with requests := flagged.requests.set id .ended }
    | _ => none
  | .decide key approved audited written =>
    let status := if approved then approvalApproved else approvalRejected
    some (if audited = true ∧ written = true
      then { setApprovalStatus gate key status with history := ⟨key, .decided approved⟩ :: gate.history } else gate)
  | .check key read => some (if read then ingest gate key else gate)
  | .deliver id posted =>
    match gate.requests[id]? with
    | some (.admitted key) =>
      some { gate with requests := gate.requests.set id .ended, history := if posted then ⟨key, .posted⟩ :: gate.history else gate.history }
    | _ => none

def start : Gate := ⟨∅, [], []⟩

def requires (key : CallKey) : List Event → Bool
  | [] => false
  | event :: before =>
    match event.kind with
    | .mediated decision => if event.key = key then decide (decision = .requiresApproval) else requires key before
    | _ => requires key before

def approved (key : CallKey) : List Event → Bool
  | [] => false
  | event :: before =>
    match event.kind with
    | .mediated _ => if event.key = key then false else approved key before
    | .decided approves => if event.key = key then approves else approved key before
    | .posted => approved key before

theorem approval_key_injective {key other : CallKey} (same : approvalKey key = approvalKey other) : key = other := by
  obtain ⟨rooms, ids⟩ := SortedScan.separated_injective key.room.plain other.room.plain same
  obtain ⟨⟨room, roomPlain⟩, callId⟩ := key
  obtain ⟨⟨otherRoom, otherPlain⟩, otherId⟩ := other
  cases rooms
  cases ids
  rfl

variable {event : Event} {requests : List Request} {old : Request} {posted : Bool} {approves : Bool} {new : Request}
  {path : Path} {decision : Decision}

section

variable (key : CallKey) (history : List Event)

theorem requires_other (different : event.key ≠ key) : requires key (event :: history) = requires key history := by
  rw [requires]
  cases event.kind with
  | mediated decision => exact if_neg different
  | decided approves => rfl
  | posted => rfl

theorem approved_other (different : event.key ≠ key) : approved key (event :: history) = approved key history := by
  rw [approved]
  cases event.kind with
  | mediated decision => exact if_neg different
  | decided approves => exact if_neg different
  | posted => rfl

theorem requires_mediated (decision : Decision) :
    requires key (⟨key, .mediated decision⟩ :: history) = decide (decision = .requiresApproval) := if_pos rfl

theorem approved_decided : approved key (⟨key, .decided approves⟩ :: history) = approves := if_pos rfl

variable {gate next : Gate} {id : Nat}

def awaits (key : CallKey) (request : Request) : Prop :=
  request = .posting .mcp key .requiresApproval ∨ request = .flagging key

instance (key : CallKey) : DecidablePred (awaits key) := fun request =>
  inferInstanceAs (Decidable (request = .posting .mcp key .requiresApproval ∨ request = .flagging key))

def needsFlag : Option Request → Bool
  | some (.posting .mcp _ .requiresApproval) => true
  | _ => false

-- Calls that require approval come as MCP requests, and their event and flag go through; no result is checked
-- while one is on the way; and none is called or rejected while a result that was let through is on the way.
def Careful (gate : Gate) : Act → Prop
  | .mediate path key decision _ => decision = .requiresApproval → path = .mcp ∧ .admitted key ∉ gate.requests
  | .post id posted => needsFlag gate.requests[id]? = true → posted = true
  | .flag _ written => written = true
  | .decide key approved _ _ => approved = false → .admitted key ∉ gate.requests
  | .check key _ => ∀ request ∈ gate.requests, ¬ awaits key request
  | .deliver .. => True

instance (gate : Gate) : DecidablePred (Careful gate) := fun act =>
  match act with
  | .mediate path key decision _ =>
    inferInstanceAs (Decidable (decision = .requiresApproval → path = .mcp ∧ .admitted key ∉ gate.requests))
  | .post id posted => inferInstanceAs (Decidable (needsFlag gate.requests[id]? = true → posted = true))
  | .flag _ written => inferInstanceAs (Decidable (written = true))
  | .decide key approved _ _ => inferInstanceAs (Decidable (approved = false → .admitted key ∉ gate.requests))
  | .check key _ => inferInstanceAs (Decidable (∀ request ∈ gate.requests, ¬ awaits key request))
  | .deliver .. => isTrue trivial

structure Sealed (gate : Gate) : Prop where
  posted : ∀ key before, ⟨key, .posted⟩ :: before <:+ gate.history → requires key before = true →
    approved key before = true
  admitted : ∀ key, .admitted key ∈ gate.requests → requires key gate.history = true → approved key gate.history = true
  guarded : ∀ key, requires key gate.history = true →
    (∃ request ∈ gate.requests, awaits key request) ∨ admission (approvalStatus gate key) ≠ .ok () ∨ approved key gate.history = true

theorem start_sealed : Sealed start where
  posted := fun key before suffix => by simp [start] at suffix
  admitted := fun key member => by cases member
  guarded := fun key required => by cases required

theorem status_set (gate : Gate) (key : CallKey) (status : Bytes) :
    approvalStatus (setApprovalStatus gate key status) key = some status := Std.ExtTreeMap.getElem?_insert_self

theorem status_other {key other : CallKey} {status : Bytes} (different : other ≠ key) :
    approvalStatus (setApprovalStatus gate key status) other = approvalStatus gate other :=
  insert_elsewhere fun same => different (approval_key_injective same)

theorem set_keeps {request : Request} (held : requests[id]? = some old) (member : request ∈ requests)
    (different : request ≠ old) (new : Request) : request ∈ requests.set id new := by
  obtain ⟨index, found⟩ := mem_iff_getElem?.mp member
  refine mem_iff_getElem?.mpr ⟨index, ?_⟩
  rw [getElem?_set_ne fun same => different ?_, found]
  rw [same] at held
  exact some.inj (found.symm.trans held)

theorem set_new (held : requests[id]? = some old) : new ∈ requests.set id new :=
  List.mem_set (List.getElem?_eq_some_iff.mp held).1 new

theorem older_suffix {key : CallKey} {before history : List Event} (other : event.kind ≠ .posted)
    (suffix : ⟨key, .posted⟩ :: before <:+ event :: history) : ⟨key, .posted⟩ :: before <:+ history := by
  rcases suffix_cons_iff.mp suffix with same | older
  · have kinds : Kind.posted = event.kind := congrArg Event.kind (cons.inj same).1
    exact absurd kinds.symm other
  · exact older

theorem begin_not_admitted {key other : CallKey} : Request.admitted other ≠ begin path key decision := by
  cases decision <;> exact nofun

theorem ended_not_admitted (other : CallKey) : Request.admitted other ≠ .ended := nofun

theorem after_post_not_admitted {key other : CallKey} :
    Request.admitted other ≠ afterPost path key decision posted := by
  rw [afterPost]
  split <;> exact nofun

theorem mediate_sealed (sealed : Sealed gate) {key : CallKey}
    (careful : decision = .requiresApproval → path = .mcp ∧ Request.admitted key ∉ gate.requests) :
    Sealed { gate with requests := gate.requests ++ [begin path key decision], history := ⟨key, .mediated decision⟩ :: gate.history } := by
  have newer : Kind.mediated decision ≠ .posted := nofun
  refine ⟨fun other before suffix => sealed.posted other before (older_suffix newer suffix), fun other member => ?_,
    fun other required => ?_⟩
  · have earlier : .admitted other ∈ gate.requests := by
      rcases mem_append.mp member with before | new
      · exact before
      · exact absurd (mem_singleton.mp new) begin_not_admitted
    by_cases same : other = key
    · subst same
      intro required
      rw [requires_mediated, decide_eq_true_eq] at required
      exact absurd earlier (careful required).2
    · rw [requires_other _ _ (Ne.symm same), approved_other _ _ (Ne.symm same)]
      exact sealed.admitted other earlier
  · by_cases same : other = key
    · subst same
      rw [requires_mediated, decide_eq_true_eq] at required
      obtain ⟨isMcp, _⟩ := careful required
      refine .inl ⟨begin path other decision, mem_append_right _ (mem_singleton.mpr rfl), .inl ?_⟩
      rw [isMcp, required]
      rfl
    · rw [requires_other _ _ (Ne.symm same)] at required
      rw [approved_other _ _ (Ne.symm same)]
      rcases sealed.guarded other required with ⟨request, member, waits⟩ | rest
      · exact .inl ⟨request, mem_append_left _ member, waits⟩
      · exact .inr rest

theorem sealed_of_request (sealed : Sealed gate) (held : gate.requests[id]? = some old)
    (notAdmitted : ∀ key, .admitted key ≠ new) (history : next.history = gate.history)
    (requests : next.requests = gate.requests.set id new)
    (statuses : ∀ key, approvalStatus next key = approvalStatus gate key ∨ admission (approvalStatus next key) ≠ .ok ())
    (moved : ∀ key, awaits key old → awaits key new ∨ admission (approvalStatus next key) ≠ .ok ()) : Sealed next := by
  refine ⟨?_, fun key member => ?_, fun key required => ?_⟩
  · rw [history]
    exact sealed.posted
  · rw [requests] at member
    rw [history]
    rcases mem_or_eq_of_mem_set member with before | same
    · exact sealed.admitted key before
    · exact absurd same (notAdmitted key)
  · rw [history] at required ⊢
    rw [requests]
    rcases sealed.guarded key required with ⟨request, member, waits⟩ | refused | decided
    · by_cases same : request = old
      · rcases moved key (same ▸ waits) with still | refused
        · exact .inl ⟨new, set_new held, still⟩
        · exact .inr (.inl refused)
      · exact .inl ⟨request, set_keeps held member same new, waits⟩
    · rcases statuses key with unchanged | refused
      · exact .inr (.inl (by rw [unchanged]; exact refused))
      · exact .inr (.inl refused)
    · exact .inr (.inr decided)

theorem post_sealed (sealed : Sealed gate) (careful : Careful gate (.post id posted))
    (stepped : step gate (.post id posted) = some next) : Sealed next := by
  rw [step] at stepped
  split at stepped
  next path key decision held =>
      cases stepped
      refine sealed_of_request sealed held (fun other => after_post_not_admitted) rfl rfl (fun _ => .inl rfl) fun other waits => .inl ?_
      rcases waits with same | impossible
      · cases same
        have through := careful (by rw [held]; rfl)
        rw [afterPost, if_pos ⟨through, rfl, rfl⟩]
        exact .inr rfl
      · cases impossible
  next => cases stepped

theorem pending_refused : admission (some approvalPending) ≠ .ok () := nofun

theorem rejected_refused : admission (some approvalRejected) ≠ .ok () := nofun

theorem flag_sealed (sealed : Sealed gate) {written : Bool} (careful : written = true)
    (stepped : step gate (.flag id written) = some next) : Sealed next := by
  rw [step] at stepped
  split at stepped
  next key held =>
      subst careful
      cases stepped
      have here : approvalStatus (setApprovalStatus gate key approvalPending) key = some approvalPending := status_set gate key approvalPending
      refine sealed_of_request sealed held ended_not_admitted rfl rfl (fun other => ?_) fun other waits => .inr ?_
      · by_cases same : other = key
        · subst same
          exact .inr fun passes => pending_refused (here ▸ passes)
        · exact .inl (status_other same)
      · rcases waits with impossible | same
        · cases impossible
        · cases same
          exact fun passes => pending_refused (here ▸ passes)
  next => cases stepped

theorem decide_sealed (sealed : Sealed gate) {key : CallKey} (careful : approves = false → Request.admitted key ∉ gate.requests) :
    Sealed { setApprovalStatus gate key (if approves then approvalApproved else approvalRejected) with
      history := ⟨key, .decided approves⟩ :: gate.history } := by
  have newer : Kind.decided approves ≠ .posted := nofun
  refine ⟨fun other before suffix => sealed.posted other before (older_suffix newer suffix),
    fun other member required => ?_, fun other required => ?_⟩
  · by_cases same : other = key
    · subst same
      rw [approved_decided]
      cases approves with
      | true => rfl
      | false => exact absurd member (careful rfl)
    · rw [approved_other _ _ (Ne.symm same)]
      exact sealed.admitted other member required
  · by_cases same : other = key
    · subst same
      cases approves with
      | true => exact .inr (.inr (approved_decided other gate.history))
      | false =>
        have here : approvalStatus (setApprovalStatus gate other approvalRejected) other = some approvalRejected :=
          status_set gate other approvalRejected
        exact .inr (.inl fun passes => rejected_refused (here ▸ passes))
    · rw [approved_other _ _ (Ne.symm same)]
      rcases sealed.guarded other required with waiting | refused | decided
      · exact .inl waiting
      · refine .inr (.inl fun passes => refused ?_)
        rw [← status_other same]
        exact passes
      · exact .inr (.inr decided)

theorem check_sealed (sealed : Sealed gate) {key : CallKey} (passes : admission (approvalStatus gate key) = .ok ())
    (careful : ∀ request ∈ gate.requests, ¬ awaits key request) :
    Sealed { gate with requests := gate.requests ++ [.admitted key] } := by
  refine ⟨sealed.posted, fun other member required => ?_, fun other required => ?_⟩
  · rcases mem_append.mp member with before | new
    · exact sealed.admitted other before required
    · cases mem_singleton.mp new
      rcases sealed.guarded key required with ⟨request, waiting, waits⟩ | refused | decided
      · exact absurd waits (careful request waiting)
      · exact absurd passes refused
      · exact decided
  · rcases sealed.guarded other required with ⟨request, member, waits⟩ | rest
    · exact .inl ⟨request, mem_append_left _ member, waits⟩
    · exact .inr rest

theorem posted_sealed (sealed : Sealed gate) {key : CallKey}
    (passed : requires key gate.history = true → approved key gate.history = true) :
    Sealed { gate with history := ⟨key, .posted⟩ :: gate.history } := by
  refine ⟨fun other before suffix => ?_, sealed.admitted, sealed.guarded⟩
  rcases suffix_cons_iff.mp suffix with same | older
  · cases same
    exact passed
  · exact sealed.posted other before older

theorem delivered_sealed (sealed : Sealed gate) {key : CallKey} (held : gate.requests[id]? = some (.admitted key)) :
    Sealed { gate with requests := gate.requests.set id .ended } := by
  refine sealed_of_request sealed held ended_not_admitted rfl rfl (fun _ => .inl rfl) fun other waits => ?_
  rcases waits with impossible | impossible <;> cases impossible

theorem deliver_sealed (sealed : Sealed gate) (stepped : step gate (.deliver id posted) = some next) : Sealed next := by
  rw [step] at stepped
  split at stepped
  next key held =>
      cases stepped
      cases posted with
      | false => exact delivered_sealed sealed held
      | true =>
        have passed := sealed.admitted key (mem_of_getElem? held)
        exact delivered_sealed (posted_sealed sealed passed) held
  next => cases stepped

theorem step_sealed {act : Act} (sealed : Sealed gate) (careful : Careful gate act)
    (stepped : step gate act = some next) : Sealed next := by
  cases act with
  | mediate path key decision audited =>
    cases stepped
    cases audited with
    | false => exact sealed
    | true => exact mediate_sealed sealed careful
  | post id posted => exact post_sealed sealed careful stepped
  | flag id written => exact flag_sealed sealed careful stepped
  | decide key approves audited written =>
    cases stepped
    split
    · exact decide_sealed sealed careful
    · exact sealed
  | check key read =>
    cases stepped
    cases read with
    | false => exact sealed
    | true =>
      rw [if_pos rfl, ingest]
      split
      next passes => exact check_sealed sealed passes careful
      next => exact sealed
  | deliver id posted => exact deliver_sealed sealed stepped

end

theorem results_gated (acts : List Act) (last : Gate) (ran : runs step start acts = some last)
    (careful : AllMeet step Careful start acts) :
    ∀ key before, ⟨key, .posted⟩ :: before <:+ last.history → requires key before = true → approved key before = true :=
  (runs_meeting_invariant (fun _ _ _ holds meets stepped => step_sealed holds meets stepped) start_sealed
    careful ran).posted

def sampleKey : CallKey := ⟨sample.room, [49]⟩

def approvedCall : List Act :=
  [.mediate .mcp sampleKey .requiresApproval true, .post 0 true, .flag 0 true, .check sampleKey true,
    .decide sampleKey true true true, .check sampleKey true, .deliver 1 true]

theorem approved_call_run : (runs step start approvedCall).isSome = true := by decide +kernel

theorem approved_call_gated : ∃ last before, runs step start approvedCall = some last ∧
    last.history = ⟨sampleKey, .posted⟩ :: before ∧ requires sampleKey before = true ∧
      approved sampleKey before = true := by
  have ended := (some_get approved_call_run).symm
  have history : ((runs step start approvedCall).get approved_call_run).history =
      [⟨sampleKey, .posted⟩, ⟨sampleKey, .decided true⟩, ⟨sampleKey, .mediated .requiresApproval⟩] := by decide +kernel
  have required : requires sampleKey [⟨sampleKey, .decided true⟩, ⟨sampleKey, .mediated .requiresApproval⟩] = true := by
    decide
  refine ⟨_, _, ended, history, required, ?_⟩
  refine results_gated approvedCall _ ended (by decide +kernel) sampleKey _ ?_ required
  rw [history]

def postedUnapproved (acts : List Act) : Option Bool := (runs step start acts).map fun last =>
    match last.history with
    | ⟨key, .posted⟩ :: before => requires key before && !approved key before
    | _ => false

-- The native handler never sets the flag; a failed post returns before it; a result is checked before it is set;
-- a rejection comes between the check and the post.
theorem unapproved_results_posted : postedUnapproved [.mediate .native sampleKey .requiresApproval true, .post 0 true,
    .check sampleKey true, .deliver 1 true] = some true ∧
      postedUnapproved [.mediate .mcp sampleKey .requiresApproval true, .post 0 false, .check sampleKey true, .deliver 1 true] = some true ∧
      postedUnapproved [.mediate .mcp sampleKey .requiresApproval true, .post 0 true, .check sampleKey true, .flag 0 true, .deliver 1 true] = some true ∧
      postedUnapproved [.mediate .mcp sampleKey .requiresApproval true, .post 0 true, .flag 0 true, .decide sampleKey true true true, .check sampleKey true,
        .decide sampleKey false true true, .deliver 1 true] = some true := by
  decide +kernel

end GaussMatrix.Agent.Approvals

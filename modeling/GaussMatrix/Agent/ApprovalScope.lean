import GaussMatrix.Agent.Approvals

namespace GaussMatrix.Agent.Approvals

open Collections Runs Std Store ExtTreeMap

-- The id of a JSON-RPC request. A number stands as it is printed; other values are booleans, arrays and objects.
inductive RpcId where
  | absent
  | null
  | string (text : Bytes)
  | number (printed : Bytes)
  | other (json : Bytes)
deriving DecidableEq

def requestId : RpcId → Bytes
  | .string text => text
  | .number printed => printed
  | .absent | .null | .other _ => []

structure ToolCall where
  agent : MatrixId
  room : MatrixId
  rpcId : RpcId
  tool : Bytes
  arguments : Bytes
deriving DecidableEq

def callKey (call : ToolCall) : CallKey := ⟨call.room, requestId call.rpcId⟩

inductive Deed where
  | mediate (path : Path) (call : ToolCall) (decision : Decision) (audited : Bool)
  | post (id : Nat) (posted : Bool)
  | flag (id : Nat) (written : Bool)
  | decide (call : ToolCall) (approved audited written : Bool)
  | check (call : ToolCall) (read : Bool)
  | deliver (id : Nat) (posted : Bool)

def act : Deed → Act
  | .mediate path call decision audited => .mediate path (callKey call) decision audited
  | .post id posted => .post id posted
  | .flag id written => .flag id written
  | .decide call approved audited written => .decide (callKey call) approved audited written
  | .check call read => .check (callKey call) read
  | .deliver id posted => .deliver id posted

structure Ledger where
  gate : Gate
  given : BTreeMap Bytes ToolCall

def give (given : BTreeMap Bytes ToolCall) : Deed → BTreeMap Bytes ToolCall
  | .decide call true true true => given.insert (approvalKey (callKey call)) call
  | _ => given

def perform (ledger : Ledger) (deed : Deed) : Option Ledger :=
  (step ledger.gate (act deed)).map fun gate => ⟨gate, give ledger.given deed⟩

def opened : Ledger := ⟨start, ∅⟩

def Within (calls : Set ToolCall) : Deed → Prop
  | .mediate _ call _ _ | .decide call _ _ _ | .check call _ => call ∈ calls
  | .post .. | .flag .. | .deliver .. => True

-- The check of a result reported for the call, if it is made now, lets the result through.
def LetThrough (ledger : Ledger) (call : ToolCall) : Prop :=
  ∃ next, perform ledger (.check call true) = some next ∧ next.gate.requests = ledger.gate.requests ++
    [.admitted (callKey call)]

-- A result let through has no status of its own or was approved as a result of this very call.
def Scoped (calls : Set ToolCall) (ledger : Ledger) : Prop := ∀ call ∈ calls, LetThrough ledger call →
    approvalStatus ledger.gate (callKey call) = none ∨ ledger.given[approvalKey (callKey call)]? = some call

variable {requests : List Request} {history : List Event} {call : ToolCall}

section

variable {calls : Set ToolCall} {ledger next : Ledger}

def refusals : List Bytes := [approvalPending, approvalRejected]

def Attributed (calls : Set ToolCall) (ledger : Ledger) : Prop :=
  ∀ (key : Bytes) (status : Bytes), ledger.gate.approvals[key]? = some status →
    status ∈ refusals ∨ ∃ call ∈ calls, approvalKey (callKey call) = key ∧ ledger.given[key]? = some call

theorem opened_attributed : Attributed calls opened := fun key status read => by
  cases read

theorem attributed_set (attributed : Attributed calls ledger) {key : CallKey} {status : Bytes}
    (refusal : status ∈ refusals) :
    Attributed calls ⟨⟨(setApprovalStatus ledger.gate key status).approvals, requests, history⟩, ledger.given⟩ := by
  intro bytes stored read
  by_cases same : bytes = approvalKey key
  · rw [same] at read
    cases Option.some.inj (getElem?_insert_self.symm.trans read)
    exact .inl refusal
  · exact attributed bytes stored ((insert_elsewhere same).symm.trans read)

theorem attributed_give (attributed : Attributed calls ledger) (member : call ∈ calls) :
    Attributed calls ⟨⟨(setApprovalStatus ledger.gate (callKey call) approvalApproved).approvals, requests, history⟩,
      ledger.given.insert (approvalKey (callKey call)) call⟩ := by
  intro bytes stored read
  by_cases same : bytes = approvalKey (callKey call)
  · exact .inr ⟨call, member, same.symm, by rw [same]; exact getElem?_insert_self⟩
  · rcases attributed bytes stored ((insert_elsewhere same).symm.trans read) with refusal | ⟨other, inside, named, held⟩
    · exact .inl refusal
    · exact .inr ⟨other, inside, named, (insert_elsewhere same).trans held⟩

theorem perform_attributed (deed : Deed) (within : Within calls deed) (attributed : Attributed calls ledger)
    (performed : perform ledger deed = some next) : Attributed calls next := by
  obtain ⟨gate, stepped, rfl⟩ := Option.map_eq_some_iff.mp performed
  cases deed with
  | mediate path call decision audited =>
    cases stepped
    cases audited <;> exact attributed
  | post id posted =>
    rw [act, step] at stepped
    split at stepped
    · cases stepped
      exact attributed
    · cases stepped
  | flag id written =>
    rw [act, step] at stepped
    split at stepped
    next key held =>
        cases stepped
        cases written with
        | false => exact attributed
        | true => exact attributed_set attributed (by decide)
    next => cases stepped
  | decide call approves audited written =>
    cases stepped
    by_cases done : audited = true ∧ written = true
    · obtain ⟨rfl, rfl⟩ := done
      cases approves with
      | true => exact attributed_give attributed within
      | false => exact attributed_set attributed (by decide)
    · have nothing : give ledger.given (.decide call approves audited written) = ledger.given := by
        cases approves <;> cases audited <;> cases written <;> first | rfl | exact absurd ⟨rfl, rfl⟩ done
      rw [if_neg done, nothing]
      exact attributed
  | check call read =>
    cases stepped
    cases read with
    | false => exact attributed
    | true =>
      rw [if_pos rfl, ingest]
      split <;> exact attributed
  | deliver id posted =>
    rw [act, step] at stepped
    split at stepped
    · cases stepped
      exact attributed
    · cases stepped

theorem let_through_iff : LetThrough ledger call ↔
    ∀ status ∈ approvalStatus ledger.gate (callKey call), status ∉ refusals := by
  have checked : perform ledger (.check call true) = some ⟨ingest ledger.gate (callKey call), ledger.given⟩ := rfl
  rw [LetThrough, checked]
  simp only [Option.some.injEq, exists_eq_left', ingest, admission, refusals]
  cases approvalStatus ledger.gate (callKey call) with
  | none => simp
  | some status =>
    by_cases pending : status = approvalPending
    · simp [pending]
    · by_cases rejected : status = approvalRejected
      · have apart : approvalRejected ≠ approvalPending := by decide
        simp [rejected, apart]
      · simp [pending, rejected]

end

def approveCall (call : ToolCall) : List Deed :=
  [.mediate .mcp call .requiresApproval true, .post 0 true, .flag 0 true, .decide call true true true]

theorem approve_call_run (call : ToolCall) : ∃ last, runs perform opened (approveCall call) = some last ∧
    approvalStatus last.gate (callKey call) = some approvalApproved ∧
    last.given[approvalKey (callKey call)]? = some call :=
  ⟨_, rfl, getElem?_insert_self, getElem?_insert_self⟩

theorem approve_call_within {calls : Set ToolCall} (member : call ∈ calls) :
    ∀ deed ∈ approveCall call, Within calls deed := by
  intro deed listed
  simp only [approveCall, List.mem_cons, List.not_mem_nil, or_false] at listed
  rcases listed with rfl | rfl | rfl | rfl
  · exact member
  · trivial
  · trivial
  · exact member

theorem approvals_scoped_iff (calls : Set ToolCall) :
    (∀ deeds last, (∀ deed ∈ deeds, Within calls deed) → runs perform opened deeds = some last → Scoped calls last) ↔
    Set.InjOn callKey calls := by
  constructor
  · intro confined call member other otherMember same
    obtain ⟨last, ran, status, given⟩ := approve_call_run call
    have through : LetThrough last other := let_through_iff.mpr (by rw [← same, status]; decide)
    rcases confined (approveCall call) last (approve_call_within member) ran other otherMember through with absent | unlocked
    · rw [← same, status] at absent
      cases absent
    · rw [← same, given] at unlocked
      exact Option.some.inj unlocked
  · intro injective deeds last within ran call member through
    have attributed := runs_meeting_invariant
      (fun _ deed _ holds inside performed => perform_attributed deed inside holds performed) opened_attributed
      (all_meet_of_members opened within) ran
    cases status : approvalStatus last.gate (callKey call) with
    | none => exact .inl rfl
    | some stored =>
      rcases attributed _ stored status with refusal | ⟨given, inside, named, held⟩
      · exact absurd refusal (let_through_iff.mp through stored status)
      · exact .inr (by rw [held, injective inside member (approval_key_injective named)])

def admits (deeds : List Deed) (call : ToolCall) : Option Bool :=
  (runs perform opened (deeds ++ [.check call true])).map fun last =>
    decide (.admitted (callKey call) ∈ last.gate.requests)

def Unlocks (approved other : ToolCall) : Prop := approved ≠ other ∧
    admits (approveCall approved).dropLast other = some false ∧ admits (approveCall approved) other = some true

instance (approved other : ToolCall) : Decidable (Unlocks approved other) :=
  inferInstanceAs (Decidable (approved ≠ other ∧ admits (approveCall approved).dropLast other = some false ∧
    admits (approveCall approved) other = some true))

def callBy (agent : MatrixId) (rpcId : RpcId) : ToolCall := ⟨agent, sample.room, rpcId, [116], []⟩

def otherAgent : MatrixId := ⟨[64, 98], by decide⟩

def twoCalls : Set ToolCall := {callBy sample.agent (.number [49]), callBy sample.agent (.number [50])}

-- Both calls are let through, one with no status and the other on its own approval.
theorem approved_result_admitted :
    ∃ last, runs perform opened (approveCall (callBy sample.agent (.number [49]))) = some last ∧
    (∀ call ∈ twoCalls, LetThrough last call) ∧ Scoped twoCalls last := by
  have injective : Set.InjOn callKey twoCalls := by
    rintro call (rfl | rfl) other (rfl | rfl) same
    · rfl
    · exact absurd same (by decide)
    · exact absurd same (by decide)
    · rfl
  obtain ⟨last, ran, status, _⟩ := approve_call_run (callBy sample.agent (.number [49]))
  refine ⟨last, ran, fun call member => let_through_iff.mpr ?_,
    (approvals_scoped_iff twoCalls).mpr injective _ last (approve_call_within (.inl rfl)) ran⟩
  rcases member with rfl | rfl
  · rw [status]
    decide
  · cases ran
    decide +kernel

theorem approvals_leak : Unlocks (callBy sample.agent (.number [49])) (callBy sample.agent (.string [49])) ∧
    Unlocks (callBy sample.agent .null) (callBy sample.agent .absent) ∧
      Unlocks (callBy sample.agent (.number [49])) (callBy otherAgent (.number [49])) := by
  decide +kernel

end GaussMatrix.Agent.Approvals

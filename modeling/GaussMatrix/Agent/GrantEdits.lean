import GaussMatrix.Agent.Capability
import GaussMatrix.Library.IpText
import GaussMatrix.Library.Outcome
import GaussMatrix.Library.Runs

namespace GaussMatrix.Agent.Capability

open Json Runs CapabilityGrant

def grantFor (stored : Option Value) : CapabilityGrant := (stored.map fromContent).getD .new

structure GrantSpec where
  rooms : List String
  tools : List String
  rates : List String
  defaultAction : Option String
  version : Option UInt64

def defaultCall (label : String) : Except String GrantCall :=
  match Action.fromLabel label with
  | some action => .ok (.withDefaultAction action)
  | none => .error "unknown default action; use auto|review|forbidden"

def toolCall (spec : String) : Except String GrantCall :=
  match spec.splitOn ":" with
  | name :: label :: rest =>
    match Action.fromLabel (":".intercalate (label :: rest)) with
    | some action => .ok (.allowTool name action)
    | none => .error "unknown tool action; use auto|review|forbidden"
  | _ => .error "tool must be given as name:action"

def parseUnsigned (bits : Nat) (text : String) : Option Nat :=
  (IpText.number 10 (if text.toList.head? = some '+' then text.toList.tail else text.toList)).filter (· < 2 ^ bits)

def rateCall (spec : String) : Except String GrantCall :=
  match spec.splitOn ":" with
  | [tool, max, window] =>
    match parseUnsigned 32 max, parseUnsigned 64 window with
    | some max, some window => .ok (.withRateLimit tool (.ofNat max) (.ofNat window))
    | none, _ => .error "rate max must be a non-negative integer"
    | _, none => .error "rate window_secs must be a non-negative integer"
  | _ => .error "rate must be given as tool:max:window_secs"

def GrantSpec.grant (spec : GrantSpec) (next : UInt64) : Except String CapabilityGrant := do
  let fallback ← spec.defaultAction.toList.mapM defaultCall
  let tools ← spec.tools.mapM toolCall
  let rates ← spec.rates.mapM rateCall
  return { (fallback ++ spec.rooms.map GrantCall.allowRoom ++ tools ++ rates).foldl GrantCall.apply .new with version := next }

-- A call of set_grant_from_spec that has read the grant in force.
structure Edit where
  spec : GrantSpec
  current : CapabilityGrant

def Edit.next (edit : Edit) : UInt64 :=
  edit.spec.version.getD (if edit.current.version = -1 then -1 else edit.current.version + 1)

structure GrantRoom where
  stored : Option Value
  edits : List Edit
  written : List CapabilityGrant

namespace GrantRoom

inductive Act where
  | read (spec : GrantSpec)
  | write (call : Nat) (refused : Bool)

def step (room : GrantRoom) : Act → Option GrantRoom
  | .read spec => some { room with edits := room.edits ++ [⟨spec, grantFor room.stored⟩] }
  | .write call refused => (room.edits[call]?).map fun edit =>
    match refused, edit.spec.grant edit.next with
    | false, .ok grant => ⟨some grant.toContent, room.edits.eraseIdx call, grant :: room.written⟩
    | _, _ => { room with edits := room.edits.eraseIdx call }

-- What the call read is in force when it writes, and there is a version above it.
def Fresh (room : GrantRoom) : Act → Prop
  | .read _ => True
  | .write call _ =>
    ∀ edit ∈ room.edits[call]?, edit.current.version = (grantFor room.stored).version ∧ edit.current.version < -1 ∧
      ∀ version ∈ edit.spec.version, edit.current.version < version

-- The instance for all versions would try every number.
instance (edit : Edit) : Decidable (∀ version ∈ edit.spec.version, edit.current.version < version) :=
  decidable_of_iff (edit.spec.version.all (edit.current.version < ·) = true) (by simp [Option.all_eq_true])

instance (room : GrantRoom) (act : Act) : Decidable (room.Fresh act) :=
  match act with
  | .read _ => .isTrue trivial
  | .write call _ =>
    inferInstanceAs (Decidable (∀ edit ∈ room.edits[call]?, edit.current.version = (grantFor room.stored).version ∧
      edit.current.version < -1 ∧ ∀ version ∈ edit.spec.version, edit.current.version < version))

def Increasing (start : UInt64) (room : GrantRoom) : Prop :=
  start ≤ (grantFor room.stored).version ∧
    room.written.Pairwise (fun later earlier => earlier.version < later.version) ∧
    ∀ grant ∈ room.written, start < grant.version ∧ grant.version ≤ (grantFor room.stored).version

end GrantRoom

theorem version_read (grant : CapabilityGrant) : (grantFor (some grant.toContent)).version = grant.version := by
  rw [grantFor, Option.map_some, Option.getD_some, fromContent]
  dsimp only
  rw [add_rooms, add_tools]
  obtain ⟨limits, folded⟩ := add_rate_limits (((grant.toContent.get "rate_limits").bind Value.asObject).getD ∅).toList _
  rw [folded]
  simp [toContent, Value.get_object, Value.asU64]

theorem grant_version {spec : GrantSpec} {next : UInt64} {grant : CapabilityGrant}
    (built : spec.grant next = .ok grant) : grant.version = next := by
  obtain ⟨_, _, built⟩ := GaussMatrix.Outcome.bind_ok built
  obtain ⟨_, _, built⟩ := GaussMatrix.Outcome.bind_ok built
  obtain ⟨_, _, built⟩ := GaussMatrix.Outcome.bind_ok built
  cases built
  rfl

theorem next_above {edit : Edit} (below : edit.current.version < -1)
    (given : ∀ version ∈ edit.spec.version, edit.current.version < version) : edit.current.version < edit.next := by
  rw [Edit.next]
  cases named : edit.spec.version with
  | some version => exact given version named
  | none =>
    rw [Option.getD_none, if_neg fun same => UInt64.lt_irrefl _ (same ▸ below)]
    rw [UInt64.lt_iff_toNat_lt] at below ⊢
    have most : (-1 : UInt64).toNat = 2 ^ 64 - 1 := rfl
    rw [UInt64.toNat_add]
    simp only [UInt64.reduceToNat] at *
    omega

theorem step_increasing {start : UInt64} (room : GrantRoom) (act : GrantRoom.Act) (next : GrantRoom)
    (increasing : room.Increasing start)
    (fresh : room.Fresh act) (stepped : room.step act = some next) : next.Increasing start := by
  obtain ⟨above, ordered, written⟩ := increasing
  cases act with
  | read spec =>
    cases stepped
    exact ⟨above, ordered, written⟩
  | write call refused =>
    obtain ⟨edit, pending, rfl⟩ := Option.map_eq_some_iff.mp stepped
    obtain ⟨same, below, given⟩ := fresh edit pending
    have higher := next_above below given
    cases built : edit.spec.grant edit.next with
    | error text => cases refused <;> exact ⟨above, ordered, written⟩
    | ok grant =>
      cases refused with
      | true => exact ⟨above, ordered, written⟩
      | false =>
        rw [← grant_version built, same] at higher
        have later := fun earlier member => UInt64.lt_of_le_of_lt (written earlier member).2 higher
        rw [GrantRoom.Increasing, version_read]
        refine ⟨UInt64.le_of_lt (UInt64.lt_of_le_of_lt above higher), List.pairwise_cons.mpr ⟨later, ordered⟩, fun other member => ?_⟩
        rcases List.mem_cons.mp member with rfl | earlier
        · exact ⟨UInt64.lt_of_le_of_lt above higher, UInt64.le_refl _⟩
        · exact ⟨(written other earlier).1, UInt64.le_of_lt (later other earlier)⟩

theorem versions_increase {stored : Option Value} {acts : List GrantRoom.Act} {last : GrantRoom}
    (fresh : AllMeet GrantRoom.step GrantRoom.Fresh ⟨stored, [], []⟩ acts)
    (ran : runs GrantRoom.step ⟨stored, [], []⟩ acts = some last) : last.written.Pairwise (fun later earlier =>
    earlier.version < later.version) ∧ ∀ grant ∈ last.written, (grantFor stored).version < grant.version := by
  have start : GrantRoom.Increasing (grantFor stored).version ⟨stored, [], []⟩ := ⟨UInt64.le_refl _, .nil, by simp⟩
  obtain ⟨_, ordered, written⟩ := runs_meeting_invariant step_increasing start fresh ran
  exact ⟨ordered, fun grant member => (written grant member).1⟩

def roomOnly : GrantSpec := ⟨["!r:x"], [], [], none, none⟩

def twoEdits : List GrantRoom.Act :=
  [.read roomOnly, .write 0 false, .read roomOnly, .read roomOnly, .write 1 true, .write 0 false]

-- The second and the third call overlap, and the one that writes first is refused.
theorem two_edits_rise : (runs GrantRoom.step ⟨none, [], []⟩ twoEdits).map
    (fun last => last.written.map CapabilityGrant.version) = some [2, 1] ∧ ∃ last, runs GrantRoom.step ⟨none, [], []⟩
    twoEdits = some last ∧ last.written.Pairwise (fun later earlier => earlier.version < later.version) ∧
      ∀ grant ∈ last.written, 0 < grant.version := by
  have fresh : AllMeet GrantRoom.step GrantRoom.Fresh ⟨none, [], []⟩ twoEdits := by decide +kernel
  have done : (runs GrantRoom.step ⟨none, [], []⟩ twoEdits).isSome := by decide +kernel
  obtain ⟨last, ran⟩ := Option.isSome_iff_exists.mp done
  exact ⟨by decide +kernel, last, ran, versions_increase fresh ran⟩

theorem editors_share_version :
    (runs GrantRoom.step ⟨none, [], []⟩ [.read roomOnly, .read roomOnly, .write 0 false, .write 0 false]).map
    (fun last => last.written.map CapabilityGrant.version) = some [1, 1] := by
  decide +kernel

end GaussMatrix.Agent.Capability

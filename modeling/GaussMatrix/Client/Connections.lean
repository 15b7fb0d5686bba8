import Mathlib

namespace GaussMatrix.Client.Connections

open List

abbrev ConnectionKey := String × Option String × Option String

-- The keys of the loaded connections and of the rows of userdeviceconnid_conn: no value is read here.
structure Service where
  connections : List ConnectionKey
  db : List ConnectionKey

def visit (retain : ConnectionKey → Bool) (out : Service) (key : ConnectionKey) : Service :=
  if retain key then { out with connections := out.connections ++ [key] }
    else { out with db := out.db.filter (· ≠ key) }

variable (user device conn : Option String) (self : Service)

def retain (key : ConnectionKey) : Bool :=
  (user.isNone || user == some key.1) && (device.isNone || device == key.2.1) && (conn.isNone || conn == key.2.2)

def clearConnections : Service := self.connections.foldl (visit (retain user device conn)) ⟨[], self.db⟩

def Matches (key : ConnectionKey) : Prop := (∀ id ∈ user, key.1 = id) ∧ (∀ id ∈ device, key.2.1 = some id) ∧
    ∀ id ∈ conn, key.2.2 = some id

def Clears (after : Service) : Prop :=
  ∀ key, (key ∈ after.connections ↔ key ∈ self.connections ∧ ¬ Matches user device conn key) ∧
  (key ∈ after.db ↔ key ∈ self.db ∧ ¬ Matches user device conn key)

variable {user device conn} {key : ConnectionKey}

theorem given_iff {given own : Option String} :
    (given.isNone || given == own) = true ↔ ∀ value ∈ given, own = some value := by
  cases given <;> cases own <;> simp
  exact eq_comm

theorem retain_iff : retain user device conn key = true ↔ Matches user device conn key := by
  rw [retain, Bool.and_eq_true, Bool.and_eq_true, given_iff, given_iff, given_iff, and_assoc]
  simp only [Matches, Option.some.injEq]

theorem visited_keys (kept : ConnectionKey → Bool) (keys : List ConnectionKey) (out : Service) :
    (key ∈ (keys.foldl (visit kept) out).connections ↔ key ∈ out.connections ∨ key ∈ keys ∧ kept key = true) ∧
      (key ∈ (keys.foldl (visit kept) out).db ↔ key ∈ out.db ∧ (key ∈ keys → kept key = true)) := by
  induction keys generalizing out with
  | nil => simp
  | cons first rest ih =>
    rw [foldl_cons, (ih _).1, (ih _).2, visit]
    by_cases stays : kept first = true
    · grind
    · grind

theorem cleared_keys (key : ConnectionKey) : (key ∈ (clearConnections user device conn self).connections ↔
    key ∈ self.connections ∧ Matches user device conn key) ∧ (key ∈ (clearConnections user device conn self).db ↔
    key ∈ self.db ∧ (key ∈ self.connections → Matches user device conn key)) := by
  rw [← retain_iff]
  exact ⟨(visited_keys _ _ _).1.trans (or_iff_right not_mem_nil), (visited_keys _ _ _).2⟩

-- What was asked for stays and the rest of what is loaded goes, so the request is met only where there is nothing to
-- do.
theorem clear_connections_inverted : Clears user device conn self (clearConnections user device conn self) ↔
    self.connections = [] ∧ ∀ key ∈ self.db, ¬ Matches user device conn key := by
  constructor
  · intro clears
    have unloaded : ∀ key, key ∉ self.connections := by
      intro key member
      have opposed := (cleared_keys self key).1.symm.trans (clears key).1
      tauto
    refine ⟨eq_nil_iff_forall_not_mem.mpr unloaded, fun key member => ?_⟩
    exact ((clears key).2.mp ((cleared_keys self key).2.mpr ⟨member, fun loaded => absurd loaded (unloaded key)⟩)).2
  · rintro ⟨unloaded, free⟩ key
    have left := @cleared_keys user device conn self key
    have apart := free key
    simp only [unloaded, not_mem_nil] at left ⊢
    tauto

def pair : List ConnectionKey := [("@alice", none, none), ("@bob", none, none)]

theorem other_user_cleared :
    ¬ Clears (some "@alice") none none ⟨pair, pair⟩ (clearConnections (some "@alice") none none ⟨pair, pair⟩) := by
  intro clears
  have bob := (clears ("@bob", none, none)).1.mpr ⟨by decide, fun found => absurd (found.1 "@alice" rfl) (by decide)⟩
  revert bob
  decide

end GaussMatrix.Client.Connections

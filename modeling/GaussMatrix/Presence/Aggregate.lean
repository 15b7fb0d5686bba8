import Mathlib

namespace GaussMatrix.Presence

open List

inductive PresenceState where
  | busy
  | online
  | unavailable
  | offline
  | custom (name : String)
deriving DecidableEq

structure DevicePresence where
  state : PresenceState
  currentlyActive : Bool
  lastActiveTs : Nat
  lastUpdateTs : Nat
  statusMsg : Option String

structure AggregatedPresence where
  state : PresenceState
  currentlyActive : Bool
  lastActiveTs : Nat
  statusMsg : Option String
  deviceCount : Nat

structure Seen where
  bestState : PresenceState
  anyCurrentlyActive : Bool
  lastActiveTs : Nat
  latestStatus : Option (Nat × String)

def stateRank : PresenceState → Nat
  | .busy => 3
  | .online => 2
  | .unavailable => 1
  | _ => 0

def better (best state : PresenceState) : PresenceState := if stateRank state > stateRank best then state else best

def DevicePresence.message (device : DevicePresence) : Option String := device.statusMsg.filter (· ≠ "")

def newer (latest : Option (Nat × String)) (device : DevicePresence) : Option (Nat × String) :=
  match device.message, latest with
  | none, _ => latest
  | some msg, none => some (device.lastUpdateTs, msg)
  | some msg, some (ts, old) => some (if device.lastUpdateTs > ts then (device.lastUpdateTs, msg) else (ts, old))

variable (now idle offline : Nat)

def effectiveDeviceState (state : PresenceState) (age : Nat) : PresenceState :=
  match state with
  | .busy | .online => if age ≥ idle then .unavailable else state
  | .unavailable => if age ≥ offline then .offline else .unavailable
  | _ => state

def visit (seen : Seen) (device : DevicePresence) : Seen :=
  let age := now - device.lastActiveTs
  let state := effectiveDeviceState idle offline device.state age
  ⟨better seen.bestState state,
    seen.anyCurrentlyActive || ((state = .online || state = .busy) && device.currentlyActive && age < idle),
    max seen.lastActiveTs device.lastActiveTs, newer seen.latestStatus device⟩

def isFresh (device : DevicePresence) : Bool := now - device.lastUpdateTs < offline

-- The answer and the devices that stay, in the order in which the map is visited.
def aggregate (devices : List DevicePresence) : AggregatedPresence × List DevicePresence :=
  let seen := devices.foldl (visit now idle offline) ⟨.offline, false, 0, none⟩
  let kept := devices.filter (isFresh now offline)
  if kept.length = 0 then (⟨.offline, false, now, none, 0⟩, [])
  else (⟨seen.bestState, seen.anyCurrentlyActive, if seen.lastActiveTs = 0 then now else seen.lastActiveTs,
    seen.latestStatus.map Prod.snd, kept.length⟩, kept)

def effective (device : DevicePresence) : PresenceState :=
  effectiveDeviceState idle offline device.state (now - device.lastActiveTs)

def isActive (device : DevicePresence) : Bool :=
  (effective now idle offline device = .online || effective now idle offline device = .busy) &&
    device.currentlyActive && now - device.lastActiveTs < idle

def mostRecent (devices : List DevicePresence) : Nat := (devices.map (·.lastActiveTs)).foldl max 0

def reported (ts : Nat) : Nat := if ts = 0 then now else ts

-- Either no device is fresh, or the stale ones add nothing to what the fresh ones show: no higher state, no activity,
-- no message where those have none and no later time.
def Settled (devices : List DevicePresence) : Prop :=
  let kept := devices.filter (isFresh now offline)
  kept = [] ∨ reported now (mostRecent devices) = reported now (mostRecent kept) ∧
    ∀ device ∈ devices, ¬ isFresh now offline device →
    (∃ other ∈ kept, stateRank (effective now idle offline device) ≤ stateRank (effective now idle offline other)) ∧
    (isActive now idle offline device → ∃ other ∈ kept, isActive now idle offline other) ∧
    (device.message.isSome → ∃ other ∈ kept, other.message.isSome)

def Newest (devices : List DevicePresence) (device : DevicePresence) : Prop :=
  device.message.isSome ∧ ∀ other ∈ devices, other.message.isSome → other.lastUpdateTs ≤ device.lastUpdateTs

def Unambiguous (devices : List DevicePresence) : Prop :=
  (∀ device ∈ devices, ¬ isFresh now offline device) ∨
    ∀ first ∈ devices, ∀ second ∈ devices, Newest devices first → Newest devices second → first.message = second.message

theorem better_comm (best first second : PresenceState) :
    better (better best first) second = better (better best second) first := by
  cases best <;> cases first <;> cases second <;> rfl

def best (states : List PresenceState) : PresenceState := states.foldl better .offline

def latest (devices : List DevicePresence) : Option (Nat × String) := devices.foldl newer none

theorem visit_parts (devices : List DevicePresence) : devices.foldl (visit now idle offline) ⟨.offline, false, 0, none⟩ =
    ⟨best (devices.map (effective now idle offline)), devices.any (isActive now idle offline), mostRecent devices, latest devices⟩ := by
  induction devices using reverseRecOn with
  | nil => rfl
  | append_singleton devices device ih =>
    rw [foldl_append, ih]
    simp only [best, mostRecent, latest, map_append, foldl_append, any_append, any_cons, any_nil, Bool.or_false]
    rfl

theorem best_spec (states : List PresenceState) : (∀ state ∈ states, stateRank state ≤ stateRank (best states)) ∧
    (best states = .offline ∨ best states ∈ states ∧ 0 < stateRank (best states)) := by
  induction states using reverseRecOn with
  | nil => exact ⟨by simp, .inl rfl⟩
  | append_singleton states state ih =>
    obtain ⟨above, found⟩ := ih
    have last : best (states ++ [state]) = better (best states) state := foldl_append
    rw [last, better]
    split <;> grind

theorem rank_injective {first second : PresenceState} (positive : 0 < stateRank first)
    (same : stateRank first = stateRank second) : first = second := by
  cases first <;> cases second <;> first | rfl | simp_all [stateRank]

theorem best_same {states others : List PresenceState} (same : stateRank (best states) = stateRank (best others)) :
    best states = best others := by
  rcases (best_spec states).2 with none | ⟨_, positive⟩
  · rcases (best_spec others).2 with noneOther | ⟨_, positive⟩
    · rw [none, noneOther]
    · exact (rank_injective positive same.symm).symm
  · exact rank_injective positive same

theorem latest_spec (devices : List DevicePresence) :
    (latest devices = none → ∀ device ∈ devices, device.message = none) ∧ ∀ entry, latest devices = some entry →
    ∃ device ∈ devices, device.message = some entry.2 ∧ device.lastUpdateTs = entry.1 ∧ Newest devices device := by
  induction devices using reverseRecOn with
  | nil => simp [latest]
  | append_singleton devices device ih =>
    have last : latest (devices ++ [device]) = newer (latest devices) device := foldl_append
    obtain ⟨empty, found⟩ := ih
    rw [last]
    cases message : device.message with
    | none =>
      simp only [newer, message]
      grind [Newest]
    | some msg =>
      cases before : latest devices with
      | none =>
        simp only [newer, message]
        grind [Newest]
      | some entry =>
        obtain ⟨other, member, told, dated, newest⟩ := found entry before
        simp only [newer, message]
        grind [Newest]

theorem latest_first {first : DevicePresence} {msg : String} {rest : List DevicePresence}
    (message : first.message = some msg) (newest : ∀ other ∈ rest, other.message.isSome →
    other.lastUpdateTs ≤ first.lastUpdateTs) : latest (first :: rest) = some (first.lastUpdateTs, msg) := by
  induction rest using reverseRecOn with
  | nil => simp [latest, newer, message]
  | append_singleton rest device ih =>
    have last : latest (first :: (rest ++ [device])) = newer (latest (first :: rest)) device := by
      rw [← cons_append]
      exact foldl_append
    have below := newest device (by simp)
    rw [last, ih fun other member => newest other (mem_append_left _ member)]
    cases said : device.message with
    | none => simp only [newer, said]
    | some text =>
      have older := below (by rw [said]; rfl)
      simp only [newer, said]
      rw [if_neg older.not_gt]

theorem latest_silent {devices : List DevicePresence} (silent : ∀ device ∈ devices, device.message = none) :
    latest devices = none := by
  refine Option.eq_none_iff_forall_ne_some.mpr fun entry held => ?_
  obtain ⟨other, member, told, _⟩ := (latest_spec devices).2 entry held
  cases (silent other member).symm.trans told

theorem latest_filter_append (devices : List DevicePresence) (device : DevicePresence) :
    latest ((devices ++ [device]).filter (isFresh now offline)) =
      if isFresh now offline device then newer (latest (devices.filter (isFresh now offline))) device
      else latest (devices.filter (isFresh now offline)) := by
  rw [filter_append]
  by_cases fresh : isFresh now offline device <;> simp [fresh, latest]

theorem latest_kept (devices : List DevicePresence) : latest (devices.filter (isFresh now offline)) = latest devices ∨
    ∀ device ∈ devices, isFresh now offline device → device.message = none := by
  induction devices using reverseRecOn with
  | nil => exact .inl rfl
  | append_singleton devices device ih =>
    have last : latest (devices ++ [device]) = newer (latest devices) device := foldl_append
    rw [latest_filter_append, last, forall_mem_append, forall_mem_singleton]
    cases message : device.message with
    | none =>
      have same : ∀ found, newer found device = found := fun found => by simp only [newer, message]
      rw [same, same, ite_self]
      exact ih.imp id fun silent => ⟨silent, fun _ => rfl⟩
    | some msg =>
      by_cases fresh : isFresh now offline device
      · rw [if_pos fresh]
        refine .inl ?_
        rcases ih with equal | silent
        · rw [equal]
        · -- All messages so far are from stale devices, which this one has updated after.
          rw [latest_silent fun other member => silent other (mem_filter.mp member).1 (mem_filter.mp member).2]
          cases before : latest devices with
          | none => rfl
          | some entry =>
            obtain ⟨other, member, told, dated, _⟩ := (latest_spec devices).2 entry before
            have stale : ¬ isFresh now offline other := fun isFresh => by
              cases (silent other member isFresh).symm.trans told
            rw [isFresh, decide_eq_true_iff] at fresh stale
            simp only [newer, message]
            rw [if_pos (by omega)]
      · rw [if_neg fresh]
        rcases ih with equal | silent
        · cases before : latest devices with
          | none => exact .inr ⟨fun other earlier _ => (latest_spec devices).1 before other earlier, (absurd · fresh)⟩
          | some entry =>
            obtain ⟨other, member, _, dated, _⟩ := (latest_spec _).2 entry (equal.trans before)
            have isFresh := (mem_filter.mp member).2
            rw [GaussMatrix.Presence.isFresh, decide_eq_true_iff] at fresh isFresh
            refine .inl ?_
            rw [equal, before]
            simp only [newer, message]
            rw [if_neg (by omega)]
        · exact .inr ⟨silent, (absurd · fresh)⟩

section

variable {now idle offline} {devices : List DevicePresence}

theorem best_kept (some : devices.filter (isFresh now offline) ≠ []) :
    best (devices.map (effective now idle offline)) = best
    ((devices.filter (isFresh now offline)).map (effective now idle offline)) ↔
      ∀ device ∈ devices, ¬ isFresh now offline device → ∃ other ∈ devices.filter (isFresh now offline),
        stateRank (effective now idle offline device) ≤ stateRank (effective now idle offline other) := by
  have spec := best_spec (devices.map (effective now idle offline))
  have keptSpec := best_spec ((devices.filter (isFresh now offline)).map (effective now idle offline))
  obtain ⟨fresh, isKept⟩ := exists_mem_of_ne_nil _ some
  constructor
  · intro same device member stale
    have below := spec.1 _ (mem_map_of_mem member)
    rw [same] at below
    rcases keptSpec.2 with none | ⟨held, _⟩
    · rw [none] at below
      exact ⟨fresh, isKept, below.trans (Nat.zero_le _)⟩
    · obtain ⟨other, otherKept, equal⟩ := mem_map.mp held
      exact ⟨other, otherKept, equal ▸ below⟩
  · intro covered
    refine best_same (le_antisymm ?_ ?_)
    · rcases spec.2 with none | ⟨held, _⟩
      · rw [none]
        exact Nat.zero_le _
      · obtain ⟨device, member, equal⟩ := mem_map.mp held
        rw [← equal]
        by_cases isFresh : isFresh now offline device
        · exact keptSpec.1 _ (mem_map_of_mem (mem_filter.mpr ⟨member, isFresh⟩))
        · obtain ⟨other, otherKept, below⟩ := covered device member isFresh
          exact below.trans (keptSpec.1 _ (mem_map_of_mem otherKept))
    · rcases keptSpec.2 with none | ⟨held, _⟩
      · rw [none]
        exact Nat.zero_le _
      · obtain ⟨device, member, equal⟩ := mem_map.mp held
        rw [← equal]
        exact spec.1 _ (mem_map_of_mem (mem_filter.mp member).1)

theorem active_kept : devices.any (isActive now idle offline) = (devices.filter (isFresh now offline)).any
    (isActive now idle offline) ↔ ∀ device ∈ devices, ¬ isFresh now offline device → isActive now idle offline device →
      ∃ other ∈ devices.filter (isFresh now offline), isActive now idle offline other := by
  rw [Bool.eq_iff_iff, any_eq_true, any_eq_true]
  constructor
  · exact fun same device member _ active => same.mp ⟨device, member, active⟩
  · intro covered
    refine ⟨?_, fun ⟨other, member, active⟩ => ⟨other, (mem_filter.mp member).1, active⟩⟩
    rintro ⟨device, member, active⟩
    by_cases fresh : isFresh now offline device
    · exact ⟨device, mem_filter.mpr ⟨member, fresh⟩, active⟩
    · exact covered device member fresh active

theorem message_kept : (latest devices).map Prod.snd = (latest (devices.filter (isFresh now offline))).map Prod.snd ↔
    ∀ device ∈ devices, ¬ isFresh now offline device → device.message.isSome →
    ∃ other ∈ devices.filter (isFresh now offline), other.message.isSome := by
  constructor
  · intro same device member _ told
    cases held : latest (devices.filter (isFresh now offline)) with
    | none =>
      rw [held, Option.map_none, Option.map_eq_none_iff] at same
      rw [(latest_spec devices).1 same device member] at told
      cases told
    | some entry =>
      obtain ⟨other, kept, message, _⟩ := (latest_spec _).2 entry held
      exact ⟨other, kept, by rw [message]; rfl⟩
  · intro covered
    rcases latest_kept now offline devices with same | silent
    · rw [same]
    · have none : ∀ device ∈ devices, device.message = none := by
        intro device member
        by_cases fresh : isFresh now offline device
        · exact silent device member fresh
        · refine Option.not_isSome_iff_eq_none.mp fun told => ?_
          obtain ⟨other, kept, message⟩ := covered device member fresh told
          rw [silent other (mem_filter.mp kept).1 (mem_filter.mp kept).2] at message
          cases message
      have nothing : ∀ list ⊆ devices, latest list = Option.none := by
        refine fun list inside => Option.eq_none_iff_forall_ne_some.mpr fun entry held => ?_
        obtain ⟨other, member, told, _⟩ := (latest_spec _).2 entry held
        cases (none other (inside member)).symm.trans told
      rw [nothing devices (Subset.refl _), nothing _ filter_sublist.subset]

theorem message_permuted :
    (∀ others, devices.Perm others → (latest others).map Prod.snd = (latest devices).map Prod.snd) ↔ ∀ first ∈ devices,
    ∀ second ∈ devices, Newest devices first → Newest devices second → first.message = second.message := by
  constructor
  · intro same first isFirst second isSecond newestFirst newestSecond
    have leads : ∀ device ∈ devices, Newest devices device → (latest devices).map Prod.snd = device.message := by
      intro device member newest
      obtain ⟨before, after, split⟩ := append_of_mem member
      obtain ⟨msg, message⟩ := Option.isSome_iff_exists.mp newest.1
      have perm : devices.Perm (device :: (before ++ after)) := split ▸ perm_middle
      have front := latest_first message fun other isOther => newest.2 other (perm.mem_iff.mpr (mem_cons_of_mem _ isOther))
      rw [← same _ perm, front, message]
      rfl
    exact (leads first isFirst newestFirst).symm.trans (leads second isSecond newestSecond)
  · intro agree others perm
    have newest : ∀ device, Newest others device ↔ Newest devices device := fun device => by simp only [Newest, perm.mem_iff]
    cases held : latest devices with
    | none =>
      have silent := (latest_spec devices).1 held
      cases found : latest others with
      | none => rfl
      | some entry =>
        obtain ⟨device, member, told, _⟩ := (latest_spec others).2 entry found
        cases (silent device (perm.mem_iff.mpr member)).symm.trans told
    | some entry =>
      obtain ⟨first, isFirst, told, _, newestFirst⟩ := (latest_spec devices).2 entry held
      cases found : latest others with
      | none => cases ((latest_spec others).1 found first (perm.mem_iff.mp isFirst)).symm.trans told
      | some other =>
        obtain ⟨second, isSecond, toldSecond, _, newestSecond⟩ := (latest_spec others).2 other found
        have same := agree first isFirst second (perm.mem_iff.mpr isSecond) newestFirst ((newest second).mp newestSecond)
        rw [told, toldSecond] at same
        exact (congrArg some (Option.some.inj same)).symm

end

theorem aggregate_stable (devices : List DevicePresence) :
    ((aggregate now idle offline (aggregate now idle offline devices).2).1 = (aggregate now idle offline devices).1 ↔
    Settled now idle offline devices) ∧
      ((∀ others, devices.Perm others → (aggregate now idle offline others).1 = (aggregate now idle offline devices).1) ↔
        Unambiguous now offline devices) := by
  by_cases empty : devices.filter (isFresh now offline) = []
  · have none : ∀ others, devices.Perm others → (aggregate now idle offline others).1 = ⟨.offline, false, now, none, 0⟩ := by
      intro others perm
      have stale : others.filter (isFresh now offline) = [] := (empty ▸ perm.filter (isFresh now offline)).nil_eq.symm
      simp [aggregate, stale]
    refine ⟨iff_of_true ?_ (.inl empty), iff_of_true (fun others perm => (none others perm).trans (none devices (.refl _)).symm) (.inl ?_)⟩
    · simp [aggregate, empty]
    · exact filter_eq_nil_iff.mp empty
  · have present : ¬ (devices.filter (isFresh now offline)).length = 0 := fun zero => empty (length_eq_zero_iff.mp zero)
    constructor
    · rw [Settled, or_iff_right empty]
      simp only [aggregate, present, if_false, visit_parts, filter_filter, Bool.and_self, AggregatedPresence.mk.injEq, and_true]
      rw [eq_comm, best_kept empty, @eq_comm Bool, active_kept, @eq_comm Nat, @eq_comm (Option String), message_kept]
      change _ ∧ _ ∧ reported now _ = reported now _ ∧ _ ↔ _
      constructor
      · rintro ⟨state, active, recent, message⟩
        exact ⟨recent, fun device member stale => ⟨state device member stale, active device member stale, message device member stale⟩⟩
      · rintro ⟨recent, each⟩
        exact ⟨fun device member stale => (each device member stale).1, fun device member stale => (each device member stale).2.1, recent,
          fun device member stale => (each device member stale).2.2⟩
    · have some : ¬ ∀ device ∈ devices, ¬ isFresh now offline device := fun stale => empty (filter_eq_nil_iff.mpr stale)
      rw [Unambiguous, or_iff_right some, ← message_permuted]
      refine forall_congr' fun others => forall_congr' fun perm => ?_
      have length := (perm.filter (isFresh now offline)).length_eq
      have states : best (others.map (effective now idle offline)) = best (devices.map (effective now idle offline)) :=
        ((perm.map _).foldl_eq' (fun first _ second _ state => better_comm state first second) _).symm
      have recent : mostRecent others = mostRecent devices :=
        ((perm.map _).foldl_eq' (fun first _ second _ ts => max_right_comm ts first second) _).symm
      simp only [aggregate, ← length, present, if_false, visit_parts, AggregatedPresence.mk.injEq, states, recent,
        perm.any_eq, and_true, true_and]

def phone (update : Nat) (msg : String) : DevicePresence := ⟨.online, true, update, update, some msg⟩

-- A stale device that shows nothing stands beside a fresh one.
theorem phones_agree : let devices : List DevicePresence := [⟨.offline, false, 0, 0, none⟩, phone 8 "hi", phone 9 ""]
    (aggregate 9 5 5 (aggregate 9 5 5 devices).2).1 = (aggregate 9 5 5 devices).1 ∧
      (aggregate 9 5 5 devices.reverse).1 = (aggregate 9 5 5 devices).1 :=
  ⟨(aggregate_stable 9 5 5 _).1.mpr (.inr (by decide)),
    (aggregate_stable 9 5 5 _).2.mpr (.inr (by unfold Newest; decide)) _ (reverse_perm _).symm⟩

theorem stale_message_seen_once : let first := aggregate 9 5 5 [phone 0 "gone", phone 9 ""]
    first.1.statusMsg = some "gone" ∧ (aggregate 9 5 5 first.2).1.statusMsg = none ∧
      (aggregate 9 5 5 [phone 9 "a", phone 9 "b"]).1.statusMsg ≠ (aggregate 9 5 5 [phone 9 "b", phone 9 "a"]).1.statusMsg := by
  decide

end GaussMatrix.Presence

import GaussMatrix.Library.Lineage
import GaussMatrix.StateRes.Mainline
import GaussMatrix.Rooms.Pdu

namespace GaussMatrix.Rooms

open Chase Collections Lineage List StateRes

section

variable {Content Err : Type}

def getPowerLevelsAuthEvent (fetch : EventId → Except Err (Pdu Content)) :
    List EventId → Except Err (Option (Pdu Content))
  | [] => .ok none
  | id :: rest =>
    match fetch id with
    | .error err => .error err
    | .ok authEvent =>
      if authEvent.isTypeAndStateKey powerLevelsType "" then .ok (some authEvent)
      else getPowerLevelsAuthEvent fetch rest

def mainlineOf (fetch : EventId → Except Err (Pdu Content)) : Nat → Option EventId → Option (Except Err (List EventId))
  | _, none => some (.ok [])
  | 0, some _ => none
  | fuel + 1, some id =>
    match fetch id with
    | .error err => some (.error err)
    | .ok event =>
      match getPowerLevelsAuthEvent fetch event.authEvents with
      | .error err => some (.error err)
      | .ok next => (mainlineOf fetch fuel (next.map Pdu.eventId)).map fun rest => rest.map (event.eventId :: ·)

def mainlinePosition (fetch : EventId → Except Err (Pdu Content)) (mainline : List EventId) :
    Nat → Option (Pdu Content) → Option (Except Err Nat)
  | _, none => some (.ok 0)
  | 0, some _ => none
  | fuel + 1, some event =>
    match mainline.idxOf? event.eventId with
    | some position => some (.ok (position + 1))
    | none =>
      match getPowerLevelsAuthEvent fetch event.authEvents with
      | .error err => some (.error err)
      | .ok next => mainlinePosition fetch mainline fuel next

-- An event that cannot be fetched or placed is dropped, not reported.
def mainlineEntry (fetch : EventId → Except Err (Pdu Content)) (fuel : Nat) (mainline : List EventId) (id : EventId) :
    Option (Option (EventId × Nat × Nat)) :=
  match fetch id with
  | .error _ => some none
  | .ok event =>
    (mainlinePosition fetch mainline fuel (some event)).map fun position =>
      position.toOption.map fun position => (id, position, event.originServerTs)

def entryCmp (a b : EventId × Nat × Nat) : Ordering := (compare a.2.1 b.2.1).then ((compare a.2.2 b.2.2).then
    ((compare a.1 b.1).then ((compare a.2.1 b.2.1).then (compare a.2.2 b.2.2))))

def mainlineSort (fetch : EventId → Except Err (Pdu Content)) (fuel : Nat) (powerLevelEventId : Option EventId)
    (arrived : List EventId) : Option (Except Err (List EventId)) :=
  match mainlineOf fetch fuel powerLevelEventId with
  | none => none
  | some (.error err) => some (.error err)
  | some (.ok mainline) =>
    (arrived.mapM (mainlineEntry fetch fuel mainline.reverse)).map fun entries =>
      .ok ((entries.reduceOption.insertionSort fun a b => (entryCmp a b).isLE = true).map Prod.fst)

inductive FetchError where
  | notFound (id : EventId)
deriving DecidableEq

def fetchFrom (store : EventStore (Pdu Content)) (id : EventId) : Except FetchError (Pdu Content) :=
  match store[id]? with
  | some pdu => .ok pdu
  | none => .error (.notFound id)

def legacyLink (store : EventStore (Pdu Content)) (id : EventId) : Option EventId := store[id]?.bind fun event =>
    event.authEvents.find? fun auth => store[auth]?.any fun e => e.isTypeAndStateKey powerLevelsType ""

def AuthStored (store : EventStore (Pdu Content)) : Prop :=
  ∀ (id : EventId) (pdu : Pdu Content), store[id]? = some pdu → ∀ auth ∈ pdu.authEvents, auth ∈ store

variable [ContentView Content] (store : EventStore (Pdu Content))

theorem keyed_fetch (keyed : Keyed store) {id : EventId} (member : id ∈ store) :
    ∃ pdu, store[id]? = some pdu ∧ fetchFrom store id = .ok pdu ∧ pdu.eventId = id := by
  obtain ⟨pdu, read⟩ := mem_iff_read.mp member
  exact ⟨pdu, read, by rw [fetchFrom, read], keyed id pdu read⟩

theorem power_levels_auth_event_found (keyed : Keyed store) {ids : List EventId}
    (stored : ∀ auth ∈ ids, auth ∈ store) : ∃ found, getPowerLevelsAuthEvent (fetchFrom store) ids = .ok found ∧
      found.map Pdu.eventId = ids.find? (fun auth => store[auth]?.any fun e => e.isTypeAndStateKey powerLevelsType "") ∧
        ∀ pdu, found = some pdu → store[pdu.eventId]? = some pdu := by
  induction ids with
  | nil => exact ⟨none, rfl, rfl, fun pdu impossible => by cases impossible⟩
  | cons id rest ih =>
    obtain ⟨pdu, read, fetched, own⟩ := keyed_fetch store keyed (stored id (by simp))
    by_cases hit : pdu.isTypeAndStateKey powerLevelsType "" = true
    · refine ⟨some pdu, by simp [getPowerLevelsAuthEvent, fetched, hit], ?_, ?_⟩
      · rw [find?_cons_of_pos (by simp [read, hit]), Option.map_some, own]
      · intro other same
        cases same
        rw [own, read]
    · obtain ⟨found, returned, same, sound⟩ := ih (fun auth member => stored auth (by simp [member]))
      refine ⟨found, by simp [getPowerLevelsAuthEvent, fetched, hit, returned], ?_, sound⟩
      rw [same, find?_cons_of_neg (by simp [read, hit])]

theorem legacy_link_step (keyed : Keyed store) (complete : AuthStored store) {pdu : Pdu Content}
    (read : store[pdu.eventId]? = some pdu) :
    ∃ found, getPowerLevelsAuthEvent (fetchFrom store) pdu.authEvents = .ok found ∧
      found.map Pdu.eventId = legacyLink store pdu.eventId ∧ ∀ next, found = some next → store[next.eventId]? = some next := by
  obtain ⟨found, returned, same, sound⟩ := power_levels_auth_event_found store keyed (complete _ pdu read)
  refine ⟨found, returned, ?_, sound⟩
  rw [same, legacyLink, read, Option.bind_some]

theorem mainline_of_chase (keyed : Keyed store) (complete : AuthStored store) (fuel : Nat) (cursor : Option EventId)
    (stored : ∀ id, cursor = some id → id ∈ store) :
    mainlineOf (fetchFrom store) fuel cursor = (chase (legacyLink store) fuel cursor).map .ok := by
  induction fuel generalizing cursor with
  | zero => cases cursor <;> rfl
  | succ fuel ih =>
    cases cursor with
    | none => rfl
    | some id =>
      obtain ⟨pdu, read, fetched, own⟩ := keyed_fetch store keyed (stored id rfl)
      subst own
      obtain ⟨found, returned, link, sound⟩ := legacy_link_step store keyed complete read
      have rest := ih (found.map Pdu.eventId) (by
        intro next same
        obtain ⟨other, isFound, own⟩ := Option.map_eq_some_iff.mp same
        rw [← own]
        exact mem_iff_read.mpr ⟨_, sound other isFound⟩)
      rw [link] at rest
      simp only [mainlineOf, fetched, returned, chase, link, rest, Option.map_map]
      rfl

theorem mainline_position_seek (keyed : Keyed store) (complete : AuthStored store) (mainline : List EventId)
    (fuel : Nat) (cursor : Option (Pdu Content)) (stored : ∀ pdu, cursor = some pdu → store[pdu.eventId]? = some pdu) :
    mainlinePosition (fetchFrom store) mainline fuel cursor =
    (seek (legacyLink store) (fun id => (mainline.idxOf? id).map (· + 1)) 0 fuel (cursor.map Pdu.eventId)).map .ok := by
  induction fuel generalizing cursor with
  | zero => cases cursor <;> rfl
  | succ fuel ih =>
    cases cursor with
    | none => rfl
    | some pdu =>
      obtain ⟨found, returned, link, sound⟩ := legacy_link_step store keyed complete (stored pdu rfl)
      cases hit : mainline.idxOf? pdu.eventId with
      | some position => simp [mainlinePosition, seek, hit]
      | none => simpa only [mainlinePosition, seek, hit, returned, Option.map_some, Option.map_none, link] using ih found sound

theorem legacy_link_founded (acyclic : AuthAcyclic store) :
    WellFounded fun auth id => legacyLink store id = some auth := by
  apply Subrelation.wf _ (auth_edge_founded store acyclic)
  intro auth id link
  obtain ⟨event, read, found⟩ := Option.bind_eq_some_iff.mp link
  exact ⟨event, read, mem_of_find?_eq_some found⟩

end

variable {rank : EventId → Nat} {fuel : Nat} {reached : EventId → Option Nat} {events : List EventId}
  {arrived trail : List EventId}

section

def tsOf {Content : Type} (store : EventStore (Pdu Content)) (id : EventId) : Nat :=
  (store[id]?.map Pdu.originServerTs).getD 0

def Earlier {Content : Type} (store : EventStore (Pdu Content)) (x y : EventId) : Prop :=
  (compare (tsOf store x) (tsOf store y)).then (compare x y) = .lt

theorem mainline_index_read {mainline : List EventId} (distinct : mainline.Nodup) (id : EventId) :
    (mainlineIndex mainline)[id]? = mainline.reverse.idxOf? id := by
  have consistent : ∀ row ∈ mainline.reverse.zipIdx, mainline.reverse.idxOf? row.1 = some row.2 := by
    intro row member
    obtain ⟨bound, read⟩ := List.getElem?_eq_some_iff.mp (mem_zipIdx_iff_getElem?.mp member)
    have position := (nodup_reverse.mpr distinct).idxOf_getElem row.2 bound
    rw [read, idxOf_eq_getD_idxOf?] at position
    obtain ⟨found, hit⟩ := Option.isSome_iff_exists.mp (isSome_idxOf?.mpr (read ▸ getElem_mem bound))
    rw [hit, Option.getD_some] at position
    rw [hit, position]
  by_cases listed : ∃ row ∈ mainline.reverse.zipIdx, row.1 = id
  · exact extend_consistent ∅ _ (fun id => mainline.reverse.idxOf? id) consistent listed
  · have outside : ∀ row ∈ mainline.reverse.zipIdx, row.1 ≠ id := fun row member same => listed ⟨row, member, same⟩
    rw [mainlineIndex, extend_outside ∅ _ id outside]
    have missing : mainline.reverse.idxOf? id = none := by
      rw [idxOf?_eq_none_iff]
      intro member
      obtain ⟨position, bound, read⟩ := getElem_of_mem member
      exact outside (id, position) (mem_zipIdx_iff_getElem?.mpr (List.getElem?_eq_some_iff.mpr ⟨bound, read⟩)) rfl
    rw [missing]
    simp

theorem sort_keyed_ranked (key : EventId → Nat × Nat × EventId) (own : ∀ id, (key id).2.2 = id) (ids : List EventId) :
    (sortKeyed (ids.map key)).Perm ids ∧ (sortKeyed (ids.map key)).Pairwise fun x y =>
    mainlineLe (key x) (key y) = true := by
  have perm := perm_insertionSort (fun a b => mainlineLe a b = true) (ids.map key)
  have sorted := pairwise_insertionSort (fun a b => mainlineLe a b = true) (ids.map key)
  have back : (ids.map key).map (fun row => row.2.2) = ids := by
    rw [map_map]
    exact (map_congr_left fun id _ => own id).trans (map_id ids)
  refine ⟨(perm.map _).trans (List.Perm.of_eq back), pairwise_map.mpr (sorted.imp_of_mem ?_)⟩
  intro a b left right below
  obtain ⟨x, _, isX⟩ := mem_map.mp (perm.mem_iff.mp left)
  obtain ⟨y, _, isY⟩ := mem_map.mp (perm.mem_iff.mp right)
  rw [← isX, ← isY] at below ⊢
  rwa [own, own]

theorem entry_cmp_key (a b : EventId × Nat × Nat) :
    entryCmp a b = mainlineCmp (a.2.1, a.2.2, a.1) (b.2.1, b.2.2, b.1) := by
  rw [entryCmp, mainlineCmp]
  cases compare a.2.1 b.2.1 <;> cases compare a.2.2 b.2.2 <;> cases compare a.1 b.1 <;> rfl

theorem entry_sort_keyed (entries : List (EventId × Nat × Nat)) :
    (entries.insertionSort fun a b => (entryCmp a b).isLE = true).map Prod.fst =
      sortKeyed (entries.map fun a => (a.2.1, a.2.2, a.1)) := by
  let le : EventId × Nat × Nat → EventId × Nat × Nat → Prop := fun a b => (entryCmp a b).isLE = true
  have sameLe : ∀ a b, le a b ↔ mainlineLe (a.2.1, a.2.2, a.1) (b.2.1, b.2.2, b.1) = true := by
    intro a b
    simp only [le, entry_cmp_key, mainlineLe]
  have transitive : IsTrans _ le := ⟨fun a b c first second =>
    (sameLe a c).mpr (Std.TransCmp.isLE_trans ((sameLe a b).mp first) ((sameLe b c).mp second))⟩
  have total : Std.Total le := ⟨fun a b => by
    rw [sameLe, sameLe]
    exact Std.Total.total (r := fun key other : Nat × Nat × EventId => mainlineLe key other = true) _ _⟩
  have sorted := pairwise_insertionSort le entries
  rw [← sort_keyed_canonical ((perm_insertionSort le entries).map _)
    (pairwise_map.mpr (sorted.imp fun {a b} below => (sameLe a b).mp below)), map_map]
  rfl

theorem mainline_le_tie (i j t u : Nat) (x y : EventId) :
    mainlineLe (i, t, x) (j, u, y) = true ↔ i < j ∨ (i = j ∧ ((compare t u).then (compare x y)).isLE = true) := by
  rw [mainlineLe, mainlineCmp]
  rcases Nat.lt_trichotomy i j with less | same | more
  · simp [Nat.compare_eq_lt.mpr less, less]
  · simp [same]
  · simp [Nat.compare_eq_gt.mpr more, more.le, more.ne']

variable {Content : Type}

section

variable (store : EventStore (Pdu Content))

include store

theorem tie_cases {x y : EventId} : Earlier store x y ∨ x = y ∨
    (Earlier store y x ∧ (compare (tsOf store x) (tsOf store y)).then (compare x y) = .gt) := by
  have swapped : (compare (tsOf store y) (tsOf store x)).then (compare y x) =
    ((compare (tsOf store x) (tsOf store y)).then (compare x y)).swap := by
    rw [Ordering.swap_then, ← Std.OrientedOrd.eq_swap, ← Std.OrientedOrd.eq_swap]
  cases tie : (compare (tsOf store x) (tsOf store y)).then (compare x y) with
  | lt => exact .inl tie
  | eq => exact .inr (.inl (Std.LawfulEqOrd.eq_of_compare (Ordering.then_eq_eq.mp tie).2))
  | gt => exact .inr (.inr ⟨by rw [Earlier, swapped, tie]; rfl, rfl⟩)

theorem ranks_agree_iff (rank other : EventId → Nat) (ids : List EventId) :
    (∀ x ∈ ids, ∀ y ∈ ids, (mainlineLe (rank x, tsOf store x, x) (rank y, tsOf store y, y) = true ↔
        mainlineLe (other x, tsOf store x, x) (other y, tsOf store y, y) = true)) ↔
      ∀ x ∈ ids, ∀ y ∈ ids, Earlier store x y → (rank x ≤ rank y ↔ other x ≤ other y) := by
  simp only [mainline_le_tie]
  constructor
  · intro agree x left y right earlier
    have here := agree x left y right
    simp only [show (compare (tsOf store x) (tsOf store y)).then (compare x y) = .lt from earlier, Ordering.isLE_lt, and_true] at here
    omega
  · intro agree x left y right
    rcases tie_cases store with earlier | same | ⟨later, tie⟩
    · have here := agree x left y right earlier
      simp only [show (compare (tsOf store x) (tsOf store y)).then (compare x y) = .lt from earlier, Ordering.isLE_lt, and_true]
      omega
    · subst same
      simp
    · have here := agree y right x left later
      simp only [tie, Ordering.isLE_gt, Bool.false_eq_true, and_false, or_false]
      omega

theorem ranked_le_antisymm (x y : EventId)
    (below : mainlineLe (rank x, tsOf store x, x) (rank y, tsOf store y, y) = true)
    (above : mainlineLe (rank y, tsOf store y, y) (rank x, tsOf store x, x) = true) : x = y := by
  have same := Std.Antisymm.antisymm (r := fun key other : Nat × Nat × EventId => mainlineLe key other = true)
    _ _ below above
  exact congrArg (fun key : Nat × Nat × EventId => key.2.2) same

theorem ranked_sorts_agree {other : EventId → Nat} (arrival : arrived.Perm events) :
    sortKeyed (events.map fun id => (rank id, tsOf store id, id)) = sortKeyed
    (arrived.map fun id => (other id, tsOf store id, id)) ↔
      ∀ x ∈ events, ∀ y ∈ events, Earlier store x y → (rank x ≤ rank y ↔ other x ≤ other y) := by
  obtain ⟨first, firstSorted⟩ := sort_keyed_ranked (fun id => (rank id, tsOf store id, id)) (fun _ => rfl) events
  obtain ⟨second, secondSorted⟩ := sort_keyed_ranked (fun id => (other id, tsOf store id, id)) (fun _ => rfl) arrived
  have agree := sorted_agree (fun id => ⟨by simp [mainline_le_tie], by simp [mainline_le_tie]⟩)
    (ranked_le_antisymm store) (ranked_le_antisymm store)
    (first.trans (arrival.symm.trans second.symm)) firstSorted secondSorted
  simp only [first.mem_iff] at agree
  rw [agree, ranks_agree_iff]

end

variable [ContentView Content] (store : EventStore (Pdu Content))

section

variable (next : EventId → Option EventId) (top : Option EventId)

def NotAfterOnLine (x y : EventId) : Prop := ∀ m, LineAncestor next top x m → LineAncestor next top y m

def AtRoot (x : EventId) : Prop := ∀ m, LineAncestor next top x m → next m = none

def Unanchored (x : EventId) : Prop := ∀ m, ¬ LineAncestor next top x m

end

def LevelsAgree (top : Option EventId) (events : List EventId) : Prop := ∀ x ∈ events, ∀ y ∈ events, Earlier store x y →
    ((NotAfterOnLine (fun id => powerLevelsInAuth id store) top x y ∨
      AtRoot (fun id => powerLevelsInAuth id store) top x) ↔ NotAfterOnLine (legacyLink store) top x y)

def PlainPowerLevels : Prop := ∀ (id : EventId) (pdu : Pdu Content), store[id]? = some pdu →
    pdu.kind = powerLevelsType → pdu.stateKey = some ""

variable {store}

theorem gm_ordering_ranked {top : Option EventId} (distinct : trail.Nodup)
    (chased : chase (fun id => powerLevelsInAuth id store) fuel top = some trail)
    (levels : ∀ id ∈ events, level (fun id => powerLevelsInAuth id store) trail fuel id = some (reached id)) :
    mainlineOrdering fuel top events store = some
    (sortKeyed (events.map fun id => ((reached id).getD 0, tsOf store id, id))) := by
  have each : events.mapM (mainlineKey fuel store (mainlineIndex trail)) = some
    (events.map fun id => ((reached id).getD 0, tsOf store id, id)) := by
    rw [map_all_ended, List.forall₂_map_right_iff, List.forall₂_same]
    intro id member
    have depth : mainlineDepth fuel id store (mainlineIndex trail) = some ((reached id).getD 0) := by
      have plain := seek_map (fun id => powerLevelsInAuth id store) (fun id => trail.reverse.idxOf? id) 0 (fun i => i) fuel (some id)
      simp only [Option.map_id'] at plain
      simp only [mainlineDepth, mainline_index_read distinct]
      rw [plain, ← level, levels id member, Option.map_some]
      cases reached id <;> rfl
    rw [mainlineKey, depth]
    rfl
  rw [mainlineOrdering, chased, Option.bind_some, each, Option.map_some]

theorem legacy_sort_ranked (keyed : Keyed store) (complete : AuthStored store) {top : Option EventId}
    (topStored : ∀ id, top = some id → id ∈ store) (stored : ∀ id ∈ arrived, id ∈ store)
    (chased : chase (legacyLink store) fuel top = some trail)
    (levels : ∀ id ∈ arrived, level (legacyLink store) trail fuel id = some (reached id)) :
    mainlineSort (fetchFrom store) fuel top arrived = some
    (.ok (sortKeyed (arrived.map fun id => ((reached id).elim 0 (· + 1), tsOf store id, id)))) := by
  have each : arrived.mapM (mainlineEntry (fetchFrom store) fuel trail.reverse) = some
    (arrived.map fun id => some (id, (reached id).elim 0 (· + 1), tsOf store id)) := by
    rw [map_all_ended, List.forall₂_map_right_iff, List.forall₂_same]
    intro id member
    obtain ⟨pdu, read, fetched, own⟩ := keyed_fetch store keyed (stored id member)
    have position : mainlinePosition (fetchFrom store) trail.reverse fuel (some pdu) = some (.ok ((reached id).elim 0 (· + 1))) := by
      have found := mainline_position_seek store keyed complete trail.reverse fuel (some pdu) (fun other same => by cases same; rw [own, read])
      rw [found, seek_map, Option.map_some, own, ← level, levels id member]
      rfl
    have ts : tsOf store id = pdu.originServerTs := by rw [tsOf, read]; rfl
    simp only [mainlineEntry, fetched, position, ts]
    rfl
  have kept : (arrived.map fun id => some (id, (reached id).elim 0 (· + 1), tsOf store id)).reduceOption =
      arrived.map fun id => (id, (reached id).elim 0 (· + 1), tsOf store id) := by
    rw [List.reduceOption, filterMap_map]
    exact congrFun filterMap_eq_map arrived
  rw [mainlineSort, mainline_of_chase store keyed complete fuel top topStored, chased]
  simp only [Option.map_some]
  rw [each, Option.map_some, kept, entry_sort_keyed, map_map]
  rfl

theorem levels_end {next : EventId → Option EventId} (founded : WellFounded fun b a => next a = some b) :
    ∃ fuel, ∀ more, fuel ≤ more → ∃ reached : EventId → Option Nat, ∀ id ∈ events,
    level next trail more id = some (reached id) := by
  have ends : ∃ fuel, ∀ id ∈ events, ∃ reached, level next trail fuel id = some reached := by
    apply common_fuel (fun fuel id => ∃ reached, level next trail fuel id = some reached)
    · intro fuel extra id enough ended
      obtain ⟨reached, found⟩ := ended
      exact ⟨reached, seek_more _ _ _ fuel extra _ reached enough found⟩
    · intro id _
      exact seek_ends next _ none founded (some id)
  obtain ⟨fuel, ended⟩ := ends
  refine ⟨fuel, fun more enough => ⟨fun id => (level next trail more id).getD none, fun id member => ?_⟩⟩
  obtain ⟨reached, found⟩ := ended id member
  have later : level next trail more id = some reached := seek_more _ _ _ fuel more _ reached enough found
  simp only [later, Option.getD_some]

theorem levels_agree_one_link {top : Option EventId}
    (oneLink : ∀ id, legacyLink store id = powerLevelsInAuth id store) :
    LevelsAgree store top events ↔ ∀ x ∈ events, ∀ y ∈ events, Earlier store x y →
      AtRoot (legacyLink store) top x → Unanchored (legacyLink store) top y → Unanchored (legacyLink store) top x := by
  have same : (fun id => powerLevelsInAuth id store) = legacyLink store := (funext oneLink).symm
  rw [LevelsAgree, same]
  constructor
  · intro agree x left y right earlier root outside m ancestor
    exact outside m (((agree x left y right earlier).mp (.inr root)) m ancestor)
  · intro apart x left y right earlier
    refine ⟨fun either => ?_, .inl⟩
    rcases either with inside | root
    · exact inside
    · intro m ancestor
      by_contra missing
      have outside : Unanchored (legacyLink store) top y := by
        intro n other
        obtain ⟨start, isTop, down⟩ := ancestor.1
        obtain ⟨_, again, below⟩ := other.1
        cases isTop.symm.trans again
        have reach : Reaches (legacyLink store) n m := by
          rcases reaches_linear _ down below with further | up
          · rcases (reaches_cons _).mp further with here | ⟨next, link, _⟩
            · rw [here]
              exact .refl
            · rw [root m ancestor] at link
              cases link
          · exact up
        exact missing ⟨ancestor.1, other.2.trans reach⟩
      exact apart x left y right earlier root outside m ancestor

theorem power_levels_one_link (plain : PlainPowerLevels store) (id : EventId) :
    legacyLink store id = powerLevelsInAuth id store := by
  have agree : ∀ auth : EventId, (store[auth]?.any fun e => e.isTypeAndStateKey powerLevelsType "") = store[auth]?.any
    fun e => Event.eventType e == powerLevelsType := by
    intro auth
    cases read : store[auth]? with
    | none => rfl
    | some pdu =>
      simp only [Option.any_some, Pdu.isTypeAndStateKey]
      by_cases kind : pdu.kind = powerLevelsType
      · simp [kind, plain auth pdu read kind, Event.eventType]
      · simp [kind, Event.eventType]
  simp only [legacyLink, powerLevelsInAuth, agree]
  rfl

theorem mainline_orders_agree_iff (keyed : Keyed store) (acyclic : AuthAcyclic store) (complete : AuthStored store)
    (top : Option EventId) (topStored : ∀ id, top = some id → id ∈ store) (events arrived : List EventId)
    (stored : ∀ id ∈ events, id ∈ store) (arrival : arrived.Perm events) :
    (∃ fuel, ∀ more, fuel ≤ more → ∃ ordered sorted, mainlineOrdering more top events store = some ordered ∧
    mainlineSort (fetchFrom store) more top arrived = some (.ok sorted) ∧
      (ordered = sorted ↔ LevelsAgree store top events)) ∧
    (PlainPowerLevels store → (LevelsAgree store top events ↔ ∀ x ∈ events, ∀ y ∈ events, Earlier store x y →
      AtRoot (legacyLink store) top x → Unanchored (legacyLink store) top y → Unanchored (legacyLink store) top x)) := by
  have gmFounded := power_levels_link_founded acyclic
  have legacyFounded := legacy_link_founded store acyclic
  refine ⟨?_, fun plain => levels_agree_one_link (power_levels_one_link plain)⟩
  obtain ⟨first, gmTrail, gmChased⟩ := chase_ends _ gmFounded top
  obtain ⟨second, trail, chased⟩ := chase_ends _ legacyFounded top
  obtain ⟨third, gmLevels⟩ := levels_end gmFounded
  obtain ⟨fourth, levels⟩ := levels_end legacyFounded
  refine ⟨max (max first second) (max third fourth), fun more enough => ?_⟩
  obtain ⟨gmReached, gmLevel⟩ := gmLevels more (by omega)
  obtain ⟨reached, legacyLevel⟩ := levels more (by omega)
  have gmChasedMore := chase_more _ first more top gmTrail (by omega) gmChased
  have chasedMore := chase_more _ second more top trail (by omega) chased
  have gmDistinct := chase_nodup _ gmFounded gmChasedMore
  refine ⟨_, _, gm_ordering_ranked gmDistinct gmChasedMore gmLevel, legacy_sort_ranked keyed complete topStored
      (fun id member => stored id (arrival.mem_iff.mp member)) chasedMore legacyLevel, ?_⟩
  rw [ranked_sorts_agree store arrival, LevelsAgree]
  refine forall₂_congr fun x left => forall₂_congr fun y right => imp_congr_right fun earlier => ?_
  rw [depth_le_iff _ gmFounded more top gmTrail gmChasedMore (gmLevel x left) (gmLevel y right),
    level_le_iff _ legacyFounded more top trail chasedMore (legacyLevel x (arrival.mem_iff.mpr left))
      (legacyLevel y (arrival.mem_iff.mpr right))]
  rfl

end

def mixedStore : EventStore (Pdu ParsedContent) := pduStore
  [roomEvent "$c" createType "@alice" (some "") [] [] 0, roomEvent "$pl" powerLevelsType "@alice" (some "")
    ["$c"] ["$c"] 1,
    roomEvent "$old" "m.room.message" "@alice" none ["$pl"] ["$c", "$pl"] 2,
      roomEvent "$new" "m.room.message" "@alice" none ["$old"] ["$c", "$pl"] 3,
    roomEvent "$free" "m.room.message" "@alice" none ["$new"] ["$c"] 4]

theorem unanchored_order_differs :
    mainlineOrdering 4 (some "$pl") ["$old", "$free"] mixedStore = some ["$old", "$free"] ∧
    mainlineSort (fetchFrom mixedStore) 4 (some "$pl") ["$old", "$free"] = some (.ok ["$free", "$old"]) := by
  decide +kernel

theorem anchored_orders_agree : ∃ fuel, ∀ more, fuel ≤ more → ∃ ordered, mainlineOrdering more (some "$pl")
    ["$new", "$old"] mixedStore = some ordered ∧
    mainlineSort (fetchFrom mixedStore) more (some "$pl") ["$old", "$new"] = some (.ok ordered) := by
  have complete : AuthStored mixedStore := by
    have rows : ∀ row ∈ mixedStore.toList, ∀ auth ∈ row.2.authEvents, auth ∈ mixedStore := by decide +kernel
    exact fun id pdu read => rows (id, pdu) (Std.ExtTreeMap.mem_toList_iff_getElem?_eq_some.mpr read)
  have plain : PlainPowerLevels mixedStore := by
    have rows : ∀ row ∈ mixedStore.toList, row.2.kind = powerLevelsType → row.2.stateKey = some "" := by decide +kernel
    exact fun id pdu read => rows (id, pdu) (Std.ExtTreeMap.mem_toList_iff_getElem?_eq_some.mpr read)
  have anchored : ∀ y ∈ ["$new", "$old"], LineAncestor (legacyLink mixedStore) (some "$pl") y "$pl" := by
    intro y member
    have link : legacyLink mixedStore y = some "$pl" := by
      revert y
      decide +kernel
    exact ⟨⟨"$pl", rfl, .refl⟩, .single link⟩
  obtain ⟨ended, oneLink⟩ := mainline_orders_agree_iff (keyed_of_rows (by decide +kernel))
    (acyclic_of_order mixedStore ["$c", "$pl", "$old", "$new", "$free"] (by decide +kernel)) complete (some "$pl")
    (by intro id same; cases same; decide +kernel) ["$new", "$old"] ["$old", "$new"] (by decide +kernel) (List.Perm.swap _ _ _)
  obtain ⟨fuel, runs⟩ := ended
  refine ⟨fuel, fun more enough => ?_⟩
  obtain ⟨ordered, sorted, gm, legacy, agree⟩ := runs more enough
  have same := agree.mpr ((oneLink plain).mpr fun x _ y right _ _ outside => absurd (anchored y right) (outside "$pl"))
  exact ⟨ordered, gm, same ▸ legacy⟩

end GaussMatrix.Rooms

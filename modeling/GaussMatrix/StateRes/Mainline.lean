import GaussMatrix.StateRes.Event

namespace GaussMatrix.StateRes

open Chase Collections List Option

variable {E : Type} [Event E]

def powerLevelsInAuth (id : EventId) (store : EventStore E) : Option EventId := store[id]?.bind fun event =>
    (Event.authEventIds event).find? fun auth => store[auth]?.any fun e => Event.eventType e == powerLevelsType

abbrev MainlineIndex := BTreeMap EventId Nat

def mainlineIndex (mainline : List EventId) : MainlineIndex := extend ∅ mainline.reverse.zipIdx

def mainlineDepth (fuel : Nat) (start : EventId) (store : EventStore E) (index : MainlineIndex) : Option Nat :=
  seek (fun id => powerLevelsInAuth id store) (fun id => index[id]?) 0 fuel (some start)

def mainlineKey (fuel : Nat) (store : EventStore E) (index : MainlineIndex) (id : EventId) :
    Option (Nat × Nat × EventId) :=
  (mainlineDepth fuel id store index).map fun depth => (depth, (store[id]?.map Event.originServerTs).getD 0, id)

def mainlineCmp (key other : Nat × Nat × EventId) : Ordering :=
  (compare key.1 other.1).then ((compare key.2.1 other.2.1).then (compare key.2.2 other.2.2))

def mainlineLe (key other : Nat × Nat × EventId) : Bool := (mainlineCmp key other).isLE

def sortKeyed (keyed : List (Nat × Nat × EventId)) : List EventId :=
  (keyed.insertionSort fun key other => mainlineLe key other = true).map fun key => key.2.2

def mainlineOrdering (fuel : Nat) (resolvedPowerLevels : Option EventId) (toOrder : List EventId)
    (store : EventStore E) : Option (List EventId) :=
  (chase (fun id => powerLevelsInAuth id store) fuel resolvedPowerLevels).bind fun mainline =>
    (toOrder.mapM (mainlineKey fuel store (mainlineIndex mainline))).map sortKeyed

instance : Std.TransCmp mainlineCmp := inferInstanceAs (Std.TransCmp (compareLex (compareOn Prod.fst)
    (compareLex (compareOn fun key : Nat × Nat × EventId => key.2.1) (compareOn fun key : Nat × Nat × EventId => key.2.2))))

instance : Std.LawfulEqCmp mainlineCmp where
  eq_of_compare := by
    intro key other same
    simp only [mainlineCmp, Ordering.then_eq_eq, Std.LawfulEqOrd.compare_eq_iff_eq] at same
    exact Prod.ext same.1 (Prod.ext same.2.1 same.2.2)

instance : IsTrans (Nat × Nat × EventId) fun key other => mainlineLe key other = true :=
  ⟨fun _ _ _ first second => Std.TransCmp.isLE_trans first second⟩

instance : Std.Total fun key other : Nat × Nat × EventId => mainlineLe key other = true where
  total := by
    intro key other
    by_contra neither
    rw [not_or] at neither
    have less : mainlineCmp other key = .lt := Std.OrientedCmp.lt_of_not_isLE neither.1
    exact neither.2 (by rw [mainlineLe, less]; rfl)

instance : Std.Antisymm fun key other : Nat × Nat × EventId => mainlineLe key other = true where
  antisymm := fun _ _ below above => Std.LawfulEqCmp.eq_of_compare (Std.OrientedCmp.isLE_antisymm below above)

theorem sort_keyed_canonical {keyed sorted : List (Nat × Nat × EventId)} (perm : sorted.Perm keyed)
    (ordered : sorted.Pairwise fun key other => mainlineLe key other = true) :
    sorted.map (fun key => key.2.2) = sortKeyed keyed := by
  have same : sorted = keyed.insertionSort fun key other => mainlineLe key other = true :=
    (perm.trans (perm_insertionSort _ keyed).symm).eq_of_pairwise' ordered (pairwise_insertionSort _ keyed)
  rw [same, sortKeyed]

theorem power_levels_link_founded {store : EventStore E} (acyclic : AuthAcyclic store) :
    WellFounded fun auth id => powerLevelsInAuth id store = some auth := by
  refine Subrelation.wf (fun {auth id} link => ?_) (auth_edge_founded store acyclic)
  obtain ⟨event, read, found⟩ := bind_eq_some_iff.mp link
  exact ⟨event, read, mem_of_find?_eq_some found⟩

theorem mainline_key_more {fuel : Nat} (more : Nat) {store : EventStore E} {index : MainlineIndex} {id : EventId}
    {key : Nat × Nat × EventId} (enough : fuel ≤ more) (ended : mainlineKey fuel store index id = some key) :
    mainlineKey more store index id = some key := by
  obtain ⟨depth, found, same⟩ := map_eq_some_iff.mp ended
  have later : mainlineDepth more id store index = some depth := seek_more _ _ _ fuel more _ depth enough found
  rw [mainlineKey, later, map_some, same]

variable {ordered : List EventId}

theorem mainline_more {fuel more : Nat} {resolvedPowerLevels : Option EventId} {toOrder : List EventId}
    {store : EventStore E} (enough : fuel ≤ more)
    (ended : mainlineOrdering fuel resolvedPowerLevels toOrder store = some ordered) :
    mainlineOrdering more resolvedPowerLevels toOrder store = some ordered := by
  obtain ⟨mainline, chased, rest⟩ := bind_eq_some_iff.mp ended
  obtain ⟨keyed, each, same⟩ := map_eq_some_iff.mp rest
  have eachMore : toOrder.mapM (mainlineKey more store (mainlineIndex mainline)) = some keyed := by
    rw [map_all_ended] at each ⊢
    exact each.imp fun id key => mainline_key_more more enough
  rw [mainlineOrdering, chase_more _ fuel more _ mainline enough chased, bind_some, eachMore, map_some, same]

theorem mainline_perm {fuel : Nat} {resolvedPowerLevels : Option EventId} {toOrder : List EventId}
    {store : EventStore E} (ended : mainlineOrdering fuel resolvedPowerLevels toOrder store = some ordered) :
    ordered.Perm toOrder := by
  obtain ⟨mainline, _, rest⟩ := bind_eq_some_iff.mp ended
  obtain ⟨keyed, each, same⟩ := map_eq_some_iff.mp rest
  have ids : keyed.map (fun key => key.2.2) = toOrder := by
    rw [map_all_ended] at each
    clear rest same ended
    induction each with
    | nil => rfl
    | cons found _ ih =>
      obtain ⟨depth, _, key⟩ := map_eq_some_iff.mp found
      rw [map_cons, ih, ← key]
  rw [← same, ← ids]
  exact (perm_insertionSort _ keyed).map _

variable (resolvedPowerLevels : Option EventId) (toOrder : List EventId) (store : EventStore E)

theorem mainline_ends (founded : WellFounded fun auth id => powerLevelsInAuth id store = some auth) :
    ∃ fuel ordered, mainlineOrdering fuel resolvedPowerLevels toOrder store = some ordered := by
  obtain ⟨first, mainline, chased⟩ := chase_ends _ founded resolvedPowerLevels
  have each : ∃ fuel, ∀ id ∈ toOrder, ∃ key, mainlineKey fuel store (mainlineIndex mainline) id = some key := by
    apply common_fuel (fun fuel id => ∃ key, mainlineKey fuel store (mainlineIndex mainline) id = some key)
    · intro fuel extra id enough ended
      obtain ⟨key, found⟩ := ended
      exact ⟨key, mainline_key_more extra enough found⟩
    · intro id _
      obtain ⟨fuel, depth, found⟩ := seek_ends _ (fun id => (mainlineIndex mainline)[id]?) 0 founded (some id)
      exact ⟨fuel, _, map_eq_some_iff.mpr ⟨depth, found, rfl⟩⟩
  obtain ⟨second, keys⟩ := each
  have keyed : ∃ keyed, List.Forall₂ (fun id key => mainlineKey second store (mainlineIndex mainline) id = some key)
      toOrder keyed := by
    clear chased
    induction toOrder with
    | nil => exact ⟨[], .nil⟩
    | cons id tail ih =>
      obtain ⟨key, found⟩ := keys id (by simp)
      obtain ⟨rest, all⟩ := ih (fun other member => keys other (by simp [member]))
      exact ⟨key :: rest, .cons found all⟩
  obtain ⟨keyed, all⟩ := keyed
  have eachMax := all.imp fun id key found =>
    mainline_key_more (max first second) (le_max_right _ _) found
  refine ⟨max first second, sortKeyed keyed, ?_⟩
  rw [mainlineOrdering, chase_more _ first (max first second) _ mainline (le_max_left _ _) chased, bind_some,
    (map_all_ended _ _ _).mpr eachMax, map_some]

theorem mainline_total (acyclic : AuthAcyclic store) :
    ∃ fuel ordered, mainlineOrdering fuel resolvedPowerLevels toOrder store = some ordered :=
  mainline_ends resolvedPowerLevels toOrder store (power_levels_link_founded acyclic)

end GaussMatrix.StateRes

import GaussMatrix.StateRes.Mainline

namespace GaussMatrix.StateRes

open Chase Collections List Relation

variable {id : EventId} {distance depth : Nat} {auth : EventId} {other : Nat}

section

variable {E : Type} [Event E]

def PowerLink (store : EventStore E) (auth id : EventId) : Prop := powerLevelsInAuth id store = some auth

def LinksAcyclic (store : EventStore E) : Prop := ∀ id, ¬ TransGen (PowerLink store) id id

def OnMainline (store : EventStore E) (resolved : Option EventId) (id : EventId) : Prop :=
  ∃ start, resolved = some start ∧ ReflTransGen (PowerLink store) id start

inductive RootDistance (store : EventStore E) : EventId → Nat → Prop where
  | root (id : EventId) (ends : powerLevelsInAuth id store = none) : RootDistance store id 0
  | link (id auth : EventId) (distance : Nat) (next : powerLevelsInAuth id store = some auth) (rest : RootDistance store auth distance) :
      RootDistance store id (distance + 1)

inductive Anchored (store : EventStore E) (resolved : Option EventId) : EventId → EventId → Prop where
  | here (id : EventId) (on : OnMainline store resolved id) : Anchored store resolved id id
  | further (id auth anchor : EventId) (off : ¬ OnMainline store resolved id) (next : powerLevelsInAuth id store = some auth)
      (rest : Anchored store resolved auth anchor) : Anchored store resolved id anchor

def HasDepth (store : EventStore E) (resolved : Option EventId) (id : EventId) (depth : Nat) : Prop :=
  (∃ anchor, Anchored store resolved id anchor ∧ RootDistance store anchor depth) ∨
    (∀ anchor, ¬ Anchored store resolved id anchor) ∧ depth = 0

def TupleLe (key other : Nat × Nat × EventId) : Prop :=
  key.1 < other.1 ∨ key.1 = other.1 ∧ (key.2.1 < other.2.1 ∨ key.2.1 = other.2.1 ∧ key.2.2 ≤ other.2.2)

def timestamp (store : EventStore E) (id : EventId) : Nat := (store[id]?.map Event.originServerTs).getD 0

variable {store : EventStore E} {resolved : Option EventId}

theorem linked_key (link : PowerLink store auth id) : id ∈ store.keys := by
  obtain ⟨event, read, _⟩ := Option.bind_eq_some_iff.mp link
  rw [Std.ExtTreeMap.mem_keys, Std.ExtTreeMap.mem_iff_isSome_getElem?, read]
  rfl

theorem power_link_founded (acyclic : LinksAcyclic store) : WellFounded (PowerLink store) :=
  founded_of_acyclic (PowerLink store) store.keys (fun _ _ => linked_key) acyclic

theorem links_acyclic_of_order (store : EventStore E) (order : List EventId)
    (ascending : ∀ id ∈ store.keys, ∀ auth ∈ powerLevelsInAuth id store, order.idxOf auth < order.idxOf id) :
    LinksAcyclic store := by
  refine acyclic_of_rank (PowerLink store) order.idxOf fun auth id link => ?_
  exact ascending id (linked_key link) auth link

theorem root_distance_unique (first : RootDistance store id distance) (second : RootDistance store id other) :
    distance = other := by
  induction first generalizing other with
  | root id ends =>
    cases second with
    | root _ _ => rfl
    | link _ auth _ next _ => cases ends.symm.trans next
  | link id auth distance next _ ih =>
    cases second with
    | root _ ends => cases ends.symm.trans next
    | link _ auth' _ next' rest' =>
      cases next.symm.trans next'
      rw [ih rest']

theorem root_distance_total (founded : WellFounded (PowerLink store)) (id : EventId) :
    ∃ distance, RootDistance store id distance := by
  induction id using founded.induction with
  | _ id ih =>
    cases link : powerLevelsInAuth id store with
    | none => exact ⟨0, .root id link⟩
    | some auth =>
      obtain ⟨distance, rest⟩ := ih auth link
      exact ⟨distance + 1, .link id auth distance link rest⟩

theorem ancestor_closer {ancestor : EventId} (way : TransGen (PowerLink store) ancestor id) {near : Nat}
    (own : RootDistance store id distance) (theirs : RootDistance store ancestor near) : near < distance := by
  induction way generalizing distance with
  | single link =>
    cases own with
    | root _ ends => cases ends.symm.trans link
    | link _ auth rest next below =>
      cases link.symm.trans next
      rw [root_distance_unique theirs below]
      exact Nat.lt_succ_self rest
  | tail _ link ih =>
    cases own with
    | root _ ends => cases ends.symm.trans link
    | link _ auth rest next below =>
      cases link.symm.trans next
      exact Nat.lt_succ_of_lt (ih below)

theorem anchored_unique {anchor other : EventId} (first : Anchored store resolved id anchor)
    (second : Anchored store resolved id other) : anchor = other := by
  induction first with
  | here id on =>
    cases second with
    | here _ _ => rfl
    | further _ _ _ off _ _ => exact absurd on off
  | further id auth anchor off next _ ih =>
    cases second with
    | here _ on => exact absurd on off
    | further _ auth' _ _ next' rest' =>
      cases next.symm.trans next'
      exact ih rest'

theorem depth_unique (first : HasDepth store resolved id depth) (second : HasDepth store resolved id other) :
    depth = other := by
  rcases first with ⟨anchor, anchored, distance⟩ | ⟨none, rfl⟩
  · rcases second with ⟨again, anchoredToo, distanceToo⟩ | ⟨none, _⟩
    · cases anchored_unique anchored anchoredToo
      exact root_distance_unique distance distanceToo
    · exact absurd anchored (none anchor)
  · rcases second with ⟨anchor, anchored, _⟩ | ⟨_, rfl⟩
    · exact absurd anchored (none anchor)
    · rfl

theorem depth_further (off : ¬ OnMainline store resolved id) (next : powerLevelsInAuth id store = some auth)
    (rest : HasDepth store resolved auth depth) : HasDepth store resolved id depth := by
  rcases rest with ⟨anchor, anchored, distance⟩ | ⟨none, rfl⟩
  · exact .inl ⟨anchor, .further id auth anchor off next anchored, distance⟩
  · refine .inr ⟨fun anchor anchored => ?_, rfl⟩
    cases anchored with
    | here _ on => exact off on
    | further _ auth' _ _ next' rest =>
      cases next.symm.trans next'
      exact none anchor rest

variable {fuel : Nat} {mainline : List EventId}

theorem index_cons (id : EventId) (rest : List EventId) :
    mainlineIndex (id :: rest) = (mainlineIndex rest).insert id rest.length := by
  rw [mainlineIndex, reverse_cons, zipIdx_append, length_reverse, zero_add, extend, foldl_append]
  rfl

theorem trail_distance (chased : chase (fun id => powerLevelsInAuth id store) fuel resolved = some mainline)
    {position : Nat} (indexed : (mainlineIndex mainline)[id]? = some position) : RootDistance store id position := by
  suffices both : (∀ start, resolved = some start → RootDistance store start (mainline.length - 1)) ∧
      ∀ id position, (mainlineIndex mainline)[id]? = some position → RootDistance store id position from both.2 id position indexed
  clear indexed
  induction mainline generalizing fuel resolved with
  | nil =>
    rcases chase_cases chased with ⟨rfl, _⟩ | ⟨_, _, _, _, impossible, _⟩
    · refine ⟨fun start impossible => ?_, fun id position indexed => ?_⟩
      · cases impossible
      · cases indexed
    · cases impossible
  | cons head tail ih =>
    rcases chase_cases chased with ⟨_, impossible⟩ | ⟨start, rest, less, rfl, same, later⟩
    · cases impossible
    · cases same
      obtain ⟨second, others⟩ := ih later
      have own : RootDistance store head tail.length := by
        cases link : powerLevelsInAuth head store with
        | none =>
          rcases chase_cases later with ⟨_, rfl⟩ | ⟨_, _, _, impossible, _⟩
          · exact .root head link
          · cases link.symm.trans impossible
        | some auth =>
          rcases chase_cases later with ⟨impossible, _⟩ | ⟨_, more, _, _, rfl, _⟩
          · cases link.symm.trans impossible
          · exact .link head auth more.length link (second auth link)
      refine ⟨fun start isHead => Option.some.inj isHead ▸ own, fun id position indexed => ?_⟩
      rw [index_cons] at indexed
      by_cases same : id = head
      · rw [same, Std.ExtTreeMap.getElem?_insert_self] at indexed
        rw [same, ← Option.some.inj indexed]
        exact own
      · rw [insert_elsewhere same] at indexed
        exact others id position indexed

theorem index_present (id : EventId) : (∃ position, (mainlineIndex mainline)[id]? = some position) ↔ id ∈ mainline := by
  induction mainline with
  | nil => simp [mainlineIndex, extend]
  | cons head tail ih =>
    rw [index_cons, mem_cons]
    by_cases same : id = head
    · rw [same, Std.ExtTreeMap.getElem?_insert_self]
      exact ⟨fun _ => .inl rfl, fun _ => ⟨_, rfl⟩⟩
    · rw [insert_elsewhere same, ih, or_iff_right same]

theorem mainline_depth_has (chased : chase (fun id => powerLevelsInAuth id store) fuel resolved = some mainline)
    {steps : Nat} (found : mainlineDepth steps id store (mainlineIndex mainline) = some depth) :
    HasDepth store resolved id depth := by
  have on : ∀ id, OnMainline store resolved id ↔ ∃ position, (mainlineIndex mainline)[id]? = some position :=
    fun id => ((index_present id).trans (chase_member chased id)).symm
  induction steps using Nat.strong_induction_on generalizing id with
  | _ steps ih =>
    rcases seek_cases found with ⟨impossible, _⟩ | ⟨start, isId, hit | ⟨miss, less, below, later⟩⟩
    · cases impossible
    · cases isId
      exact .inl ⟨id, .here id ((on id).mpr ⟨depth, hit⟩), trail_distance chased hit⟩
    · cases isId
      have off : ¬ OnMainline store resolved id := fun isOn => by
        obtain ⟨position, indexed⟩ := (on id).mp isOn
        cases miss.symm.trans indexed
      cases link : powerLevelsInAuth id store with
      | none =>
        rw [link] at later
        rcases seek_cases later with ⟨_, rfl⟩ | ⟨_, impossible, _⟩
        · refine .inr ⟨fun anchor anchored => ?_, rfl⟩
          cases anchored with
          | here _ isOn => exact off isOn
          | further _ _ _ _ next _ => cases link.symm.trans next
        · cases impossible
      | some auth =>
        rw [link] at later
        exact depth_further off link (ih less below later)

end

theorem mainline_le_tuple {key other : Nat × Nat × EventId} : mainlineLe key other = true ↔ TupleLe key other := by
  have last : (compare key.2.2 other.2.2).isLE = true ↔ key.2.2 ≤ other.2.2 :=
    Ordering.isLE_iff_ne_gt.trans compare_le_iff_le
  rw [mainlineLe, mainlineCmp, TupleLe, Ordering.isLE_then_iff_or, Ordering.isLE_then_iff_or, last]
  simp only [compare_lt_iff_lt, compare_eq_iff_eq]

section

variable {E : Type} [Event E] {store : EventStore E} {resolved : Option EventId} {depth : EventId → Nat}

theorem mainline_sorted {fuel : Nat} {toOrder ordered : List EventId}
    (ended : mainlineOrdering fuel resolved toOrder store = some ordered)
    (deep : ∀ id found, HasDepth store resolved id found ↔ found = depth id) :
    ordered.Pairwise fun id other => TupleLe (depth id, timestamp store id, id)
    (depth other, timestamp store other, other) := by
  obtain ⟨mainline, chased, rest⟩ := Option.bind_eq_some_iff.mp ended
  obtain ⟨keyed, each, rfl⟩ := Option.map_eq_some_iff.mp rest
  have keys : ∀ key ∈ keyed, key = (depth key.2.2, timestamp store key.2.2, key.2.2) := by
    intro key member
    obtain ⟨id, _, found⟩ := map_all_member _ each member
    obtain ⟨reached, sought, rfl⟩ := Option.map_eq_some_iff.mp found
    rw [← (deep id reached).mp (mainline_depth_has chased sought)]
    rfl
  rw [sortKeyed, pairwise_map]
  refine (pairwise_insertionSort _ keyed).imp_of_mem fun {key other} member memberOther le => ?_
  rw [mem_insertionSort] at member memberOther
  rw [← keys key member, ← keys other memberOther]
  exact mainline_le_tuple.mp le

theorem depth_total (founded : WellFounded (PowerLink store)) (resolved : Option EventId) (id : EventId) :
    ∃ depth, HasDepth store resolved id depth := by
  induction id using founded.induction with
  | _ id ih =>
    by_cases on : OnMainline store resolved id
    · obtain ⟨distance, counted⟩ := root_distance_total founded id
      exact ⟨distance, .inl ⟨id, .here id on, counted⟩⟩
    · cases link : powerLevelsInAuth id store with
      | none =>
        refine ⟨0, .inr ⟨fun anchor anchored => ?_, rfl⟩⟩
        cases anchored with
        | here _ isOn => exact on isOn
        | further _ _ _ _ next _ => cases link.symm.trans next
      | some auth =>
        obtain ⟨depth, rest⟩ := ih auth link
        exact ⟨depth, depth_further on link rest⟩

theorem later_anchor_no_ancestor (founded : WellFounded (PowerLink store))
    (deep : ∀ id found, HasDepth store resolved id found ↔ found = depth id) {other : EventId} (le : TupleLe
    (depth id, timestamp store id, id) (depth other, timestamp store other, other)) {anchor otherAnchor : EventId}
    (anchored : Anchored store resolved id anchor) (anchoredOther : Anchored store resolved other otherAnchor) :
    ¬ TransGen (PowerLink store) otherAnchor anchor := by
  intro ancestor
  obtain ⟨distance, counted⟩ := root_distance_total founded anchor
  obtain ⟨near, countedOther⟩ := root_distance_total founded otherAnchor
  have own : distance = depth id := (deep id distance).mp (.inl ⟨anchor, anchored, counted⟩)
  have theirs : near = depth other := (deep other near).mp (.inl ⟨otherAnchor, anchoredOther, countedOther⟩)
  have closer : near < distance := ancestor_closer ancestor counted countedOther
  rw [own, theirs] at closer
  have notLater : depth id ≤ depth other := le.elim le_of_lt fun same => le_of_eq same.1
  exact not_lt.mpr notLater closer

end

theorem mainline_ordering_exact {E : Type} [Event E] (store : EventStore E) (resolved : Option EventId)
    (toOrder : List EventId) (acyclic : LinksAcyclic store) : ∃ enough ordered,
    (∀ fuel, enough ≤ fuel → mainlineOrdering fuel resolved toOrder store = some ordered) ∧ ordered.Perm toOrder ∧
      (∃ depth : EventId → Nat, (∀ id found, HasDepth store resolved id found ↔ found = depth id) ∧
        ordered.Pairwise fun id other => TupleLe (depth id, timestamp store id, id) (depth other, timestamp store other, other)) ∧
      ordered.Pairwise fun id other => ∀ anchor otherAnchor, Anchored store resolved id anchor → Anchored store resolved other otherAnchor →
        ¬ TransGen (PowerLink store) otherAnchor anchor := by
  have founded := power_link_founded acyclic
  obtain ⟨enough, ordered, ended⟩ := mainline_ends resolved toOrder store founded
  choose depth has using depth_total founded resolved
  have deep : ∀ id found, HasDepth store resolved id found ↔ found = depth id := by
    intro id found
    refine ⟨fun other => depth_unique other (has id), ?_⟩
    rintro rfl
    exact has id
  have sorted := mainline_sorted ended deep
  refine ⟨enough, ordered, fun fuel more => mainline_more more ended, mainline_perm ended,
    ⟨depth, deep, sorted⟩, sorted.imp fun le anchor otherAnchor anchored anchoredOther => ?_⟩
  exact later_anchor_no_ancestor founded deep le anchored anchoredOther

def branchedStore : EventStore StateEvent := storeOf
    [{ StateEvent.new "$a" powerLevelsType "@x" with originServerTs := 1 },
      { StateEvent.new "$b" powerLevelsType "@x" with authEventIds := ["$a"] },
      { StateEvent.new "$c" powerLevelsType "@x" with authEventIds := ["$b"] },
        { StateEvent.new "$q" powerLevelsType "@x" with authEventIds := ["$b"], originServerTs := 9 },
      { StateEvent.new "$x" memberType "@x" with authEventIds := ["$y", "$q"], originServerTs := 2 },
      { StateEvent.new "$y" memberType "@x" with authEventIds := ["$x", "$c"], originServerTs := 1 }, StateEvent.new "$z" memberType "@x"]

theorem branched_ordering : ∃ enough, ∀ fuel, enough ≤ fuel →
      mainlineOrdering fuel (some "$c") ["$c", "$y", "$x", "$q", "$b", "$a", "$z", "$x"] branchedStore = some
      ["$z", "$a", "$b", "$x", "$x", "$q", "$c", "$y"] := by
  have acyclic : LinksAcyclic branchedStore :=
    links_acyclic_of_order branchedStore ["$a", "$b", "$c", "$q", "$x", "$y", "$z"] (by decide +kernel)
  have sorted : mainlineOrdering 5 (some "$c") ["$c", "$y", "$x", "$q", "$b", "$a", "$z", "$x"] branchedStore =
      some ["$z", "$a", "$b", "$x", "$x", "$q", "$c", "$y"] := by decide +kernel
  obtain ⟨enough, ordered, ends, _⟩ := mainline_ordering_exact branchedStore (some "$c")
    ["$c", "$y", "$x", "$q", "$b", "$a", "$z", "$x"] acyclic
  have same := (ends (max enough 5) (le_max_left enough 5)).symm.trans (mainline_more (le_max_right enough 5) sorted)
  exact ⟨enough, fun fuel more => (ends fuel more).trans same⟩

end GaussMatrix.StateRes

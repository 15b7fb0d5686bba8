import GaussMatrix.Library.Bfs
import GaussMatrix.Rooms.OutlierPdu

namespace GaussMatrix.Rooms

open Bfs Collections List StateRes Std

def maxAuthEvents : Nat := 10

abbrev Limiter := BTreeMap EventId Nat

inductive Phase where
  | fetching
  | handling

-- What fetch_auth calls. How long an event stays backed off is a matter of time;
-- the two phases ask for it with different ranges. The handler is handle_outlier_pdu
-- with auth_events_known.
structure AuthServices (Content Json Hash : Type) [Ord Hash] where
  running : EventId → Bool
  continueBackoff : Phase → EventId → Nat → Bool
  execute : EventId → Except Error Json
  genEventIdCanonicalJson : Json → Except Error (EventId × Json)
  authEvents : Json → List EventId
  handleOutlierPdu : Room Content Hash → EventId → Json → Except Error (Pdu Content × Json) × Room Content Hash

def backOff (limiter : Limiter) (eventId : EventId) : Limiter :=
  match limiter[eventId]? with
  | none => limiter.insert eventId 1
  | some tries => limiter.insert eventId (min (tries + 1) 4294967295)

def cancelBackOff (limiter : Limiter) (eventId : EventId) : Limiter := limiter.erase eventId

variable {eventId : EventId}

section

variable {Content Json Hash : Type} [Ord Hash] (services : AuthServices Content Json Hash)

def isBackedOff (phase : Phase) (limiter : Limiter) (eventId : EventId) : Bool :=
  match limiter[eventId]? with
  | none => false
  | some tries => services.continueBackoff phase eventId tries

def Room.pduExists (room : Room Content Hash) (eventId : EventId) : Bool :=
  match room.getPdu eventId with
  | .ok _ => true
  | .error _ => false

def fetchLoop (room : Room Content Hash) : Nat → Limiter → List EventId → BTreeSet EventId → List (EventId × Json) →
    Option (List (EventId × Json) × Limiter)
  | _, limiter, [], _, eventsInReverseOrder => some (eventsInReverseOrder, limiter)
  | 0, _, _ :: _, _, _ => none
  | fuel + 1, limiter, nextId :: todo, eventsAll, eventsInReverseOrder =>
    if eventsAll.contains nextId then fetchLoop room fuel limiter todo eventsAll eventsInReverseOrder
    else if isBackedOff services .fetching limiter nextId then fetchLoop room fuel limiter todo eventsAll
    eventsInReverseOrder
    else if room.pduExists nextId then fetchLoop room fuel limiter todo eventsAll eventsInReverseOrder
    else if !services.running nextId then some (eventsInReverseOrder, limiter)
    else
      match services.execute nextId with
      | .error _ => fetchLoop room fuel (backOff limiter nextId) todo eventsAll eventsInReverseOrder
      | .ok response =>
        match services.genEventIdCanonicalJson response with
        | .error _ => fetchLoop room fuel (backOff (cancelBackOff limiter nextId) nextId) todo eventsAll eventsInReverseOrder
        | .ok (calculatedEventId, value) =>
          if calculatedEventId ≠ nextId then
            fetchLoop room fuel (backOff (cancelBackOff limiter nextId) nextId) todo eventsAll eventsInReverseOrder
          else
            fetchLoop room fuel (cancelBackOff limiter nextId) (todo ++ (services.authEvents value).take maxAuthEvents)
              (eventsAll.insert nextId) (eventsInReverseOrder ++ [(nextId, value)])

structure AuthChain (Content Json : Type) where
  eventId : EventId
  localPdu : Option (Pdu Content)
  eventsInReverseOrder : List (EventId × Json)

def fetchAuthChain (room : Room Content Hash) (fuel : Nat) (limiter : Limiter) (eventId : EventId) :
    Option (AuthChain Content Json × Limiter) :=
  match room.getPdu eventId with
  | .ok localPdu => some (⟨eventId, some localPdu, []⟩, limiter)
  | .error _ => (fetchLoop services room fuel limiter [eventId] ∅ []).map fun fetched =>
    (⟨eventId, none, fetched.1⟩, fetched.2)

def fetchChains (room : Room Content Hash) (fuel : Nat) :
    Limiter → List EventId → Option (List (AuthChain Content Json) × Limiter)
  | limiter, [] => some ([], limiter)
  | limiter, eventId :: rest =>
    match fetchAuthChain services room fuel limiter eventId with
    | none => none
    | some (chain, after) => (fetchChains room fuel after rest).map fun fetched => (chain :: fetched.1, fetched.2)

structure Handling (Content Json Hash : Type) [Ord Hash] where
  room : Room Content Hash
  limiter : Limiter
  pdus : List (Pdu Content × Option Json)
  passed : List EventId

def handleEvent (eventId : EventId) (handling : Handling Content Json Hash) (event : EventId × Json) :
    Handling Content Json Hash :=
  if isBackedOff services .handling handling.limiter event.1 then handling
  else
    let outlier := services.handleOutlierPdu handling.room event.1 event.2
    match outlier.1 with
    | .ok (pdu, json) =>
      { room := outlier.2
        limiter := cancelBackOff handling.limiter event.1
        pdus := if event.1 = eventId then handling.pdus ++ [(pdu, some json)] else handling.pdus
        passed := handling.passed ++ [event.1] }
    | .error _ =>
      { handling with room := outlier.2, limiter := backOff handling.limiter event.1, passed := handling.passed ++ [event.1] }

def handleChain (handling : Handling Content Json Hash) (chain : AuthChain Content Json) : Handling Content Json Hash :=
  if !services.running chain.eventId then handling
  else
    let known := { handling with pdus := handling.pdus ++ (chain.localPdu.map fun pdu => (pdu, none)).toList }
    chain.eventsInReverseOrder.reverse.foldl (handleEvent services chain.eventId) known

def fetchAuth (room : Room Content Hash) (limiter : Limiter) (fuel : Nat) (completed : List EventId) :
    Option (Handling Content Json Hash) :=
  (fetchChains services room fuel limiter completed).map fun fetched =>
    fetched.1.foldl (handleChain services) { room := room, limiter := fetched.2, pdus := [], passed := [] }

variable (room : Room Content Hash)

structure Fetchable (limiter : Limiter) (nodes : Finset EventId) (auth : EventId → List EventId)
    (json : EventId → Json) : Prop where
  running : ∀ eventId, services.running eventId = true
  unknown : ∀ eventId ∈ nodes, ∃ error, room.getPdu eventId = .error error
  unlimited : ∀ eventId ∈ nodes, limiter[eventId]? = none
  answered : ∀ eventId ∈ nodes, ∃ response, services.execute eventId = .ok response ∧
    services.genEventIdCanonicalJson response = .ok (eventId, json eventId)
  listed : ∀ eventId ∈ nodes, services.authEvents (json eventId) = auth eventId
  closed : ∀ eventId ∈ nodes, ∀ other ∈ auth eventId, other ∈ nodes

def followed (auth : EventId → List EventId) (eventId : EventId) : List EventId := (auth eventId).take maxAuthEvents

variable {services room} {limiter : Limiter} {nodes : Finset EventId} {auth : EventId → List EventId}
  {json : EventId → Json}

theorem cancel_unlimited (unlimited : limiter[eventId]? = none) : cancelBackOff limiter eventId = limiter := by
  apply ExtTreeMap.ext_getElem?
  intro other
  rw [cancelBackOff, ExtTreeMap.getElem?_erase]
  split
  · rename_i same
    rw [← LawfulEqOrd.eq_of_compare same, unlimited]
  · rfl

theorem unlimited_not_backed_off {phase : Phase} (unlimited : limiter[eventId]? = none) :
    isBackedOff services phase limiter eventId = false := by
  rw [isBackedOff, unlimited]

theorem followed_closed (fetchable : Fetchable services room limiter nodes auth json) :
    ∀ eventId ∈ nodes, ∀ other ∈ followed auth eventId, other ∈ nodes :=
  fun eventId inside other isAuth => fetchable.closed eventId inside other (List.mem_of_mem_take isAuth)

theorem fetch_loop_bfs (fetchable : Fetchable services room limiter nodes auth json) (fuel : Nat)
    (todo seen : List EventId) (eventsAll : BTreeSet EventId)
    (sameSeen : ∀ eventId, eventId ∈ eventsAll ↔ eventId ∈ seen) (within : ∀ eventId ∈ todo, eventId ∈ nodes) :
    fetchLoop services room fuel limiter todo eventsAll (seen.map fun eventId => (eventId, json eventId)) =
      (bfs (followed auth) fuel todo seen).map fun found => (found.map fun eventId => (eventId, json eventId), limiter) := by
  induction fuel generalizing todo seen eventsAll with
  | zero =>
    cases todo with
    | nil => rfl
    | cons nextId rest => rfl
  | succ fuel ih =>
    cases todo with
    | nil => rfl
    | cons nextId rest =>
      have restWithin : ∀ eventId ∈ rest, eventId ∈ nodes := fun eventId member => within eventId (mem_cons_of_mem _ member)
      rw [fetchLoop, bfs]
      by_cases known : nextId ∈ seen
      · have contained : eventsAll.contains nextId = true := ExtTreeSet.contains_iff_mem.mpr ((sameSeen nextId).mpr known)
        rw [if_pos contained, if_pos known]
        exact ih rest seen eventsAll sameSeen restWithin
      · have missing : ¬ eventsAll.contains nextId = true := fun contained =>
          known ((sameSeen nextId).mp (ExtTreeSet.contains_iff_mem.mp contained))
        have inside := within nextId mem_cons_self
        obtain ⟨error, unknown⟩ := fetchable.unknown nextId inside
        obtain ⟨response, executed, generated⟩ := fetchable.answered nextId inside
        rw [if_neg missing, if_neg known, unlimited_not_backed_off (fetchable.unlimited nextId inside), Room.pduExists,
          unknown, fetchable.running, executed]
        simp only [Bool.false_eq_true, if_false, Bool.not_true, generated, ne_eq, not_true_eq_false]
        rw [fetchable.listed nextId inside, cancel_unlimited (fetchable.unlimited nextId inside)]
        have step := ih (rest ++ followed auth nextId) (seen ++ [nextId]) (eventsAll.insert nextId) ?_ ?_
        · rw [map_append, map_singleton] at step
          exact step
        · intro eventId
          rw [ExtTreeSet.mem_insert, LawfulEqOrd.compare_eq_iff_eq, sameSeen, mem_append, mem_singleton]
          exact ⟨fun found => found.elim (fun same => .inr same.symm) .inl, fun found => found.elim .inr fun same => .inl same.symm⟩
        · intro eventId member
          rcases mem_append.mp member with inRest | isAuth
          · exact restWithin eventId inRest
          · exact followed_closed fetchable nextId inside eventId isAuth

def authChain (json : EventId → Json) (found : EventId → List EventId) (eventId : EventId) : AuthChain Content Json :=
  ⟨eventId, none, (found eventId).map fun other => (other, json other)⟩

variable (fetchable : Fetchable services room limiter nodes auth json) (fuel : Nat)

include fetchable

theorem fetch_auth_chain_bfs (inside : eventId ∈ nodes) {found : EventId → List EventId}
    (ended : bfs (followed auth) fuel [eventId] [] = some (found eventId)) :
    fetchAuthChain services room fuel limiter eventId = some (authChain json found eventId, limiter) := by
  obtain ⟨error, unknown⟩ := fetchable.unknown eventId inside
  have loop := fetch_loop_bfs fetchable fuel [eventId] [] ∅ (by simp) (by simpa using inside)
  rw [map_nil] at loop
  rw [fetchAuthChain, unknown]
  simp only
  rw [loop, ended]
  rfl

theorem fetch_chains_bfs (found : EventId → List EventId)
    (ended : ∀ eventId ∈ nodes, bfs (followed auth) fuel [eventId] [] = some (found eventId)) (completed : List EventId)
    (within : ∀ eventId ∈ completed, eventId ∈ nodes) :
    fetchChains services room fuel limiter completed = some (completed.map (authChain json found), limiter) := by
  induction completed with
  | nil => rfl
  | cons eventId rest ih =>
    have inside := within eventId mem_cons_self
    rw [fetchChains, fetch_auth_chain_bfs fetchable fuel inside (ended eventId inside)]
    simp only
    rw [ih fun other member => within other (mem_cons_of_mem _ member)]
    rfl

theorem searches_end (enough : 1 + ∑ eventId ∈ nodes, (followed auth eventId).length ≤ fuel) :
    ∃ found : EventId → List EventId, ∀ eventId ∈ nodes, bfs (followed auth) fuel [eventId]
    [] = some (found eventId) := by
  have ends : ∀ eventId, ∃ found, eventId ∈ nodes → bfs (followed auth) fuel [eventId] [] = some found := by
    intro eventId
    by_cases inside : eventId ∈ nodes
    · obtain ⟨found, ended⟩ := bfs_total nodes (followed_closed fetchable) fuel [eventId] [] (by simpa using inside) (by simpa using enough)
      exact ⟨found, fun _ => ended⟩
    · exact ⟨[], fun member => absurd member inside⟩
  choose found ended using ends
  exact ⟨found, ended⟩

end

variable {done : List EventId}

section

variable {Content Json Hash : Type} [Ord Hash] {services : AuthServices Content Json Hash} {limiter : Limiter}
  {auth : EventId → List EventId} {fetched : EventId → Prop}

structure Handled (limiter : Limiter) (auth : EventId → List EventId) (fetched : EventId → Prop)
    (handling : Handling Content Json Hash) (done : List EventId) : Prop where
  passed : ∀ eventId, eventId ∈ handling.passed ↔ eventId ∈ done
  limited : ∀ eventId, eventId ∉ done → handling.limiter[eventId]? = limiter[eventId]?
  ordered : InOrder auth fetched handling.passed ↔ InOrder auth fetched done

variable {handling : Handling Content Json Hash}

theorem handled_again (handled : Handled limiter auth fetched handling done) (again : eventId ∈ done) :
    Handled limiter auth fetched handling (done ++ [eventId]) where
  passed := by
    intro other
    rw [handled.passed, mem_append, mem_singleton]
    exact ⟨.inl, fun found => found.elim id fun same => same ▸ again⟩
  limited := fun other new => handled.limited other fun old => new (mem_append_left _ old)
  ordered := by rw [in_order_again again, handled.ordered]

theorem handled_passes {after : Handling Content Json Hash} (handled : Handled limiter auth fetched handling done)
    (passes : after.passed = handling.passed ++ [eventId])
    (others : ∀ other, other ≠ eventId → after.limiter[other]? = handling.limiter[other]?) :
    Handled limiter auth fetched after (done ++ [eventId]) where
  passed := by
    intro other
    rw [passes, mem_append, mem_append, handled.passed]
  limited := by
    intro other new
    rw [mem_append, mem_singleton, not_or] at new
    rw [others other new.2, handled.limited other new.1]
  ordered := by
    rw [passes, in_order_snoc, in_order_snoc, handled.ordered]
    simp only [handled.passed]

theorem back_off_elsewhere (other : EventId) (different : other ≠ eventId) :
    (backOff limiter eventId)[other]? = limiter[other]? := by
  rw [backOff]
  split
  · exact insert_elsewhere different
  · exact insert_elsewhere different

theorem cancel_elsewhere (other : EventId) (different : other ≠ eventId) :
    (cancelBackOff limiter eventId)[other]? = limiter[other]? := by
  rw [cancelBackOff, ExtTreeMap.getElem?_erase, if_neg]
  exact fun same => different (LawfulEqOrd.eq_of_compare same).symm

theorem handle_event_handled (handled : Handled limiter auth fetched handling done) {root : EventId} {value : Json}
    (unlimited : limiter[eventId]? = none) :
    Handled limiter auth fetched (handleEvent services root handling (eventId, value)) (done ++ [eventId]) := by
  rw [handleEvent]
  by_cases skipped : isBackedOff services .handling handling.limiter eventId = true
  · rw [if_pos skipped]
    refine handled_again handled ?_
    by_contra new
    rw [unlimited_not_backed_off ((handled.limited eventId new).trans unlimited)] at skipped
    cases skipped
  · rw [if_neg skipped]
    simp only
    split
    · exact handled_passes handled rfl cancel_elsewhere
    · exact handled_passes handled rfl back_off_elsewhere

theorem handle_events_handled (services : AuthServices Content Json Hash) (root : EventId)
    (events : List (EventId × Json)) (unlimited : ∀ event ∈ events, limiter[event.1]? = none) (handling :
    Handling Content Json Hash) (done : List EventId) (handled : Handled limiter auth fetched handling done) :
    Handled limiter auth fetched (events.foldl (handleEvent services root) handling) (done ++ events.map Prod.fst) := by
  induction events generalizing handling done with
  | nil => simpa using handled
  | cons event rest ih =>
    rw [foldl_cons, map_cons, ← singleton_append, ← append_assoc]
    exact ih (fun other member => unlimited other (mem_cons_of_mem _ member)) _ _
      (handle_event_handled handled (unlimited event mem_cons_self))

theorem handle_chains_handled (running : ∀ eventId, services.running eventId = true) (json : EventId → Json)
    (found : EventId → List EventId) (completed : List EventId)
    (unlimited : ∀ root ∈ completed, ∀ eventId ∈ found root, limiter[eventId]? = none)
    (handling : Handling Content Json Hash) (done : List EventId)
    (handled : Handled limiter auth fetched handling done) :
    Handled limiter auth fetched ((completed.map (authChain json found)).foldl (handleChain services) handling)
    (done ++ completed.flatMap fun root => (found root).reverse) := by
  induction completed generalizing handling done with
  | nil => simpa using handled
  | cons root rest ih =>
    rw [map_cons, foldl_cons, flatMap_cons, ← append_assoc]
    refine ih (fun other member => unlimited other (mem_cons_of_mem _ member)) _ _ ?_
    rw [handleChain, if_neg (by simp [running])]
    have chain := handle_events_handled services root ((found root).map fun eventId => (eventId, json eventId)).reverse ?_
      { handling with pdus := handling.pdus ++ [] } done ⟨handled.passed, handled.limited, handled.ordered⟩
    · simpa [Function.comp_def, authChain, map_reverse] using chain
    · intro event member
      obtain ⟨eventId, inFound, rfl⟩ := mem_map.mp (mem_reverse.mp member)
      exact unlimited root mem_cons_self eventId inFound

def ChainsOrdered (auth : EventId → List EventId) (fetched : EventId → Prop) : List EventId → List EventId → Prop
  | _, [] => True
  | front, root :: rest =>
    (∀ eventId, Reachable (followed auth) root eventId → ∀ need ∈ auth eventId, fetched need →
    (∃ earlier ∈ front, Reachable (followed auth) earlier need) ∨
        (Reachable (followed auth) root need ∧ Before (followed auth) root eventId need)) ∧
    ChainsOrdered auth fetched (front ++ [root]) rest

theorem chains_in_order_iff (auth : EventId → List EventId) (fetched : EventId → Prop) (fuel : Nat)
    (found : EventId → List EventId) (front rest : List EventId)
    (ended : ∀ root ∈ front ++ rest, bfs (followed auth) fuel [root] [] = some (found root)) :
    InOrder auth fetched ((front ++ rest).flatMap fun root => (found root).reverse) ↔
      InOrder auth fetched (front.flatMap fun root => (found root).reverse) ∧ ChainsOrdered auth fetched front rest := by
  induction rest generalizing front with
  | nil => simp [ChainsOrdered]
  | cons root rest ih =>
    have earlier : ∀ need, need ∈ front.flatMap (fun root => (found root).reverse) ↔
      ∃ earlier ∈ front, Reachable (followed auth) earlier need := by
      intro need
      simp only [mem_flatMap, mem_reverse]
      refine exists_congr fun other => and_congr_right fun member => ?_
      exact bfs_member (ended other (mem_append_left _ member)) need
    rw [← singleton_append, ← append_assoc] at ended ⊢
    rw [ih (front ++ [root]) ended, flatMap_append, flatMap_singleton, reversed_in_order_iff (ended root (by simp)), and_assoc]
    simp only [earlier]
    exact Iff.rfl

theorem auth_passes_in_order_iff (services : AuthServices Content Json Hash) (room : Room Content Hash)
    (limiter : Limiter) (nodes : Finset EventId) (auth : EventId → List EventId) (json : EventId → Json)
    (fetchable : Fetchable services room limiter nodes auth json) (events completed : List EventId)
    (perm : completed.Perm events) (within : ∀ eventId ∈ events, eventId ∈ nodes) :
    ∃ enough, ∀ fuel ≥ enough, ∃ handling, fetchAuth services room limiter fuel completed = some handling ∧
      (∀ eventId, eventId ∈ handling.passed ↔ ∃ root ∈ events, Reachable (followed auth) root eventId) ∧
      (InOrder auth (· ∈ handling.passed) handling.passed ↔
      ChainsOrdered auth (fun need => ∃ root ∈ events, Reachable (followed auth) root need) [] completed) := by
  refine ⟨1 + ∑ eventId ∈ nodes, (followed auth eventId).length, fun fuel enough => ?_⟩
  obtain ⟨found, ended⟩ := searches_end fetchable fuel enough
  have completedWithin : ∀ eventId ∈ completed, eventId ∈ nodes :=
    fun eventId member => within eventId (perm.mem_iff.mp member)
  have member : ∀ root ∈ completed, ∀ eventId, eventId ∈ found root ↔ Reachable (followed auth) root eventId :=
    fun root inside eventId => bfs_member (ended root (completedWithin root inside)) eventId
  have chains := fetch_chains_bfs fetchable fuel found ended completed completedWithin
  have foundWithin : ∀ root ∈ completed, ∀ eventId ∈ found root, eventId ∈ nodes := by
    intro root inside eventId isFound
    obtain ⟨path, leads⟩ := (member root inside eventId).mp isFound
    exact follow_within _ nodes (followed_closed fetchable) root (completedWithin root inside) path eventId leads
  have handled := handle_chains_handled fetchable.running json found completed
    (fun root inside eventId isFound => fetchable.unlimited eventId (foundWithin root inside eventId isFound))
    ({ room := room, limiter := limiter, pdus := [], passed := [] } : Handling Content Json Hash) []
    (⟨fun _ => Iff.rfl, fun _ _ => rfl, Iff.rfl⟩ :
      Handled limiter auth (fun need => ∃ root ∈ events, Reachable (followed auth) root need) _ [])
  have passed : ∀ eventId, eventId ∈ ((completed.map (authChain json found)).foldl (handleChain services)
      ({ room := room, limiter := limiter, pdus := [], passed := [] } : Handling Content Json Hash)).passed ↔
      ∃ root ∈ events, Reachable (followed auth) root eventId := by
    intro eventId
    rw [handled.passed]
    simp only [nil_append, mem_flatMap, mem_reverse, perm.mem_iff]
    exact exists_congr fun root => and_congr_right fun inside => member root (perm.mem_iff.mpr inside) eventId
  refine ⟨_, by rw [fetchAuth, chains]; rfl, passed, ?_⟩
  have sameNeeds : (· ∈ ((completed.map (authChain json found)).foldl (handleChain services)
      ({ room := room, limiter := limiter, pdus := [], passed := [] } : Handling Content Json Hash)).passed) =
      fun need => ∃ root ∈ events, Reachable (followed auth) root need := funext fun need => propext (passed need)
  rw [sameNeeds, handled.ordered, nil_append]
  have iff := chains_in_order_iff auth (fun need => ∃ root ∈ events, Reachable (followed auth) root need) fuel
    found [] completed
    (by simpa using fun root inside => ended root (completedWithin root inside))
  rw [nil_append] at iff
  rw [iff]
  exact and_iff_right (by simp [InOrder])

end

def graphServer (events : List (Pdu ParsedContent)) :
    AuthServices ParsedContent (Pdu ParsedContent) (List (Nat × EventId)) where
  running := fun _ => true
  continueBackoff := fun _ _ _ => true
  execute := fun eventId =>
    match events.find? fun event => event.eventId = eventId with
    | some event => .ok event
    | none => .error notInDatabase
  genEventIdCanonicalJson := fun json => .ok (json.eventId, json)
  authEvents := Pdu.authEvents
  handleOutlierPdu := fun room _ json =>
    if json.authEvents.all room.pduExists then (.ok (json, json),
    { room with outliers := room.outliers.insert json.eventId json })
    else (.error ⟨.notFound, "auth event not found"⟩, room)

def authEvent (eventId : EventId) (authEvents : List EventId) : Pdu ParsedContent :=
  roomEvent eventId "m.room.topic" "@alice" (some "") [] authEvents 1

def lateNeed : List (Pdu ParsedContent) := [authEvent "$r" ["$y", "$x"], authEvent "$x" ["$y"], authEvent "$y" []]

def earlyNeed : List (Pdu ParsedContent) := [authEvent "$r" ["$x", "$y"], authEvent "$x" ["$y"], authEvent "$y" []]

def authRoom : Room ParsedContent (List (Nat × EventId)) :=
  serverRoom [] (Std.ExtTreeMap.ofList [(1, "$c"), (2, "$a"), (3, "$b")]) ["$b"]

-- $y is found before $x, so $x is handled first, and fails for want of $y. The whole
-- chain is valid.
theorem shared_ancestor_late : (fetchAuth (graphServer lateNeed) authRoom ∅ 10 ["$r"]).map
    (fun handling => (handling.passed, handling.pdus.map (·.1.eventId))) =
      some (["$x", "$y", "$r"], []) ∧
    (fetchAuth (graphServer earlyNeed) authRoom ∅ 10 ["$r"]).map
    (fun handling => (handling.passed, handling.pdus.map (·.1.eventId))) = some (["$y", "$x", "$r"], ["$r"]) := by
  decide +kernel

def earlyEvent (eventId : EventId) : Pdu ParsedContent :=
  (earlyNeed.find? fun event => event.eventId = eventId).getD (authEvent eventId [])

def earlyAuth (eventId : EventId) : List EventId := (earlyEvent eventId).authEvents

theorem early_need_fetchable :
    Fetchable (graphServer earlyNeed) authRoom ∅ {"$r", "$x", "$y"} earlyAuth earlyEvent where
  running := fun _ => rfl
  unknown := by
    have unknown : ∀ eventId ∈ ({"$r", "$x", "$y"} : Finset EventId), authRoom.getPdu eventId = .error notInDatabase := by decide +kernel
    exact fun eventId inside => ⟨_, unknown eventId inside⟩
  unlimited := fun _ _ => ExtTreeMap.getElem?_empty
  answered := by
    have answered : ∀ eventId ∈ ({"$r", "$x", "$y"} : Finset EventId), (graphServer earlyNeed).execute eventId = .ok (earlyEvent eventId) ∧
        (graphServer earlyNeed).genEventIdCanonicalJson (earlyEvent eventId) = .ok (eventId, earlyEvent eventId) := by decide +kernel
    exact fun eventId inside => ⟨_, answered eventId inside⟩
  listed := fun _ _ => rfl
  closed := by decide +kernel

theorem early_paths (path : List ℕ) (eventId : EventId) (leads : follow (followed earlyAuth) "$r" path = some eventId) :
    eventId = "$r" ∧ path = [] ∨ eventId = "$x" ∧ path = [0] ∨ eventId = "$y" ∧ (path = [1] ∨ path = [0, 0]) := by
  have fromX : followed earlyAuth "$x" = ["$y"] := by decide +kernel
  have fromY : followed earlyAuth "$y" = [] := by decide +kernel
  have fromR : followed earlyAuth "$r" = ["$x", "$y"] := by decide +kernel
  induction path using reverseRecOn generalizing eventId with
  | nil =>
    cases leads
    exact .inl ⟨rfl, rfl⟩
  | append_singleton front i ih =>
    rw [follow_append, Option.bind_eq_some_iff] at leads
    obtain ⟨parent, toParent, edge⟩ := leads
    rcases ih parent toParent with ⟨rfl, rfl⟩ | ⟨rfl, rfl⟩ | ⟨rfl, _⟩
    · match i, edge with
      | 0, edge => cases edge; exact .inr (.inl ⟨rfl, rfl⟩)
      | 1, edge => cases edge; exact .inr (.inr ⟨rfl, .inl rfl⟩)
    · match i, edge with
      | 0, edge => cases edge; exact .inr (.inr ⟨rfl, .inr rfl⟩)
    · rw [fromY] at edge
      cases edge

theorem early_before (eventId need : EventId) (path : List ℕ)
    (leads : follow (followed earlyAuth) "$r" path = some eventId) (least :
    ∀ other ∈ (if need = "$r" then [[]] else if need = "$x" then [[0]] else [[1], [0, 0]]), rank path < rank other) :
    Before (followed earlyAuth) "$r" eventId need := by
  intro other toNeed
  refine ⟨path, leads, least other ?_⟩
  rcases early_paths other need toNeed with ⟨rfl, rfl⟩ | ⟨rfl, rfl⟩ | ⟨rfl, rfl | rfl⟩ <;> decide

theorem early_need_in_order : ∃ enough, ∀ fuel ≥ enough, ∃ handling,
    fetchAuth (graphServer earlyNeed) authRoom ∅ fuel ["$r"] = some handling ∧
    InOrder earlyAuth (· ∈ handling.passed) handling.passed := by
  obtain ⟨enough, passes⟩ :=
    auth_passes_in_order_iff (graphServer earlyNeed) authRoom ∅ {"$r", "$x", "$y"} earlyAuth earlyEvent
    early_need_fetchable ["$r"] ["$r"] (List.Perm.refl _) (by decide)
  refine ⟨enough, fun fuel large => ?_⟩
  obtain ⟨handling, returned, _, ordered⟩ := passes fuel large
  refine ⟨handling, returned, ordered.mpr ⟨fun eventId reachable need isNeed _ => Or.inr ?_, trivial⟩⟩
  have needsOf : ∀ eventId ∈ ["$r", "$x", "$y"], ∀ need ∈ earlyAuth eventId, eventId = "$r" ∧
    (need = "$x" ∨ need = "$y") ∨ eventId = "$x" ∧ need = "$y" := by decide +kernel
  have toX : follow (followed earlyAuth) "$r" [0] = some "$x" := by decide +kernel
  have toY : follow (followed earlyAuth) "$r" [1] = some "$y" := by decide +kernel
  have node : eventId ∈ ["$r", "$x", "$y"] := by
    obtain ⟨path, leads⟩ := reachable
    rcases early_paths path eventId leads with ⟨rfl, _⟩ | ⟨rfl, _⟩ | ⟨rfl, _⟩ <;> simp
  rcases needsOf eventId node need isNeed with ⟨rfl, isX | isY⟩ | ⟨rfl, rfl⟩
  · exact isX ▸ ⟨⟨[0], toX⟩, early_before "$r" "$x" [] rfl (by decide)⟩
  · exact isY ▸ ⟨⟨[1], toY⟩, early_before "$r" "$y" [] rfl (by decide)⟩
  · exact ⟨⟨[1], toY⟩, early_before "$x" "$y" [0] toX (by decide)⟩

end GaussMatrix.Rooms

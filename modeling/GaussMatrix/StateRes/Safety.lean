import GaussMatrix.StateRes.Resolve

namespace GaussMatrix.StateRes

open Collections Std

variable {E : Type} [Event E]

def HoldsOnly (forks : List StateMap) (slot : StateKey) (id : EventId) : Prop :=
  ∀ other, Holds forks slot other ↔ other = id

def AuthorisedInPass (store : EventStore E) (rules : AuthRules E) (base : StateMap) (passes : Passes) (slot : StateKey)
    (id : EventId) : Prop :=
  ∃ event state, store[id]? = some event ∧ slotOf event = slot ∧
    (Authorised store rules passes.orderedControl base state id event ∨
      Authorised store rules passes.orderedOthers passes.first state id event)

variable {id : EventId}

section

variable (forks : List StateMap) (slot : StateKey)

theorem conflicted_key_iff : slot ∈ (partition forks).conflicted.keys ↔ ∃ a b, a ≠ b ∧ Holds forks slot a ∧
    Holds forks slot b := by
  rw [ExtTreeMap.mem_keys, mem_iff_read]
  constructor
  · intro ⟨ids, read⟩
    exact ((partition_conflicted forks slot ids).mp read).2
  · intro several
    obtain ⟨a, b, different, first, second⟩ := several
    obtain ⟨ids, read⟩ := group_states_found forks slot a first
    exact ⟨ids, (partition_conflicted forks slot ids).mpr
      ⟨group_states_read read, a, b, different, first, second⟩⟩

variable {forks slot} in
theorem conflicted_key_unconflicted (disputed : slot ∈ (partition forks).conflicted.keys) :
    (partition forks).unconflicted[slot]? = none := by
  obtain ⟨a, b, different, first, second⟩ := (conflicted_key_iff forks slot).mp disputed
  refine Option.eq_none_iff_forall_ne_some.mpr fun id read => ?_
  have only := (partition_unconflicted forks slot id).mp read
  exact different (((only a).mp first).trans ((only b).mp second).symm)

theorem holds_only_of_undisputed (holds : Holds forks slot id) (undisputed : slot ∉ (partition forks).conflicted.keys) :
    HoldsOnly forks slot id := by
  intro other
  refine ⟨fun holdsToo => ?_, fun same => same ▸ holds⟩
  by_contra different
  exact undisputed ((conflicted_key_iff forks slot).mpr ⟨other, id, different, holdsToo, holds⟩)

end

variable {fuel : Nat} {base : StateMap} {store : EventStore E} {rules : AuthRules E} {passes : Passes}

theorem passes_slot {stored : List EventId} {slot : StateKey}
    (ended : resolvePasses fuel stored base store rules = some passes) : passes.last[slot]? = base[slot]? ∨
    ∃ id, passes.last[slot]? = some id ∧ AuthorisedInPass store rules base passes slot id := by
  obtain ⟨_, first, _, last⟩ := passes_spec.mp ended
  have second := auth_checks_slot store rules passes.orderedOthers passes.first slot
  rw [← last] at second
  rcases second with kept | ⟨state, id, event, authorised, here, held⟩
  · have opening := auth_checks_slot store rules passes.orderedControl base slot
    rw [← first] at opening
    rcases opening with unchanged | ⟨state, id, event, authorised, here, held⟩
    · exact .inl (kept.trans unchanged)
    · have read := (checked_listed authorised.1).2
      exact .inr ⟨id, kept.trans held, event, state, read, here, .inl authorised⟩
  · have read := (checked_listed authorised.1).2
    exact .inr ⟨id, held, event, state, read, here, .inr authorised⟩

theorem passes_stored {full : BTreeSet EventId} {slot : StateKey}
    (ended : resolvePasses fuel (storedIds store full) base store rules = some passes)
    (authorised : AuthorisedInPass store rules base passes slot id) : id ∈ full ∨ StoredUnder store full.toList id := by
  obtain ⟨sorted, _, mainline, _⟩ := passes_spec.mp ended
  obtain ⟨event, state, _, _, inFirst | inSecond⟩ := authorised
  · have ordered := (checked_listed inFirst.1).1
    obtain ⟨entry, listed, rest⟩ := sort_emitted fuel sorted id ordered
    have member := stored_ids_member.mp (List.mem_filter.mp listed).1
    exact .inr ⟨entry, ExtTreeSet.mem_toList.mpr member.1, rest⟩
  · have ordered := (checked_listed inSecond.1).1
    have listed : id ∈ otherIds store (storedIds store full) := (mainline_perm mainline).mem_iff.mp ordered
    exact .inl (stored_ids_member.mp (List.mem_filter.mp listed).1).1

theorem stored_under_keyed {ids : List EventId} (keyed : Keyed store)
    (stored : StoredUnder store ids id) : id ∈ ids := by
  obtain ⟨entry, listed, event, read, same⟩ := stored
  rw [← same, keyed entry event read]
  exact listed

theorem returns_empty_cache {forks : List StateMap} {authChains : List (BTreeSet EventId)} {capacity : Nat}
    {out : StateMap} {after : ResolvedStateCache}
    (returned : Returns forks authChains store rules (.new capacity) out after) (slot : StateKey) :
    (slot ∉ (partition forks).conflicted.keys ∧ out[slot]? = (partition forks).unconflicted[slot]?) ∨
    (slot ∈ (partition forks).conflicted.keys ∧
        ∃ fuel passes, conflictPasses fuel forks authChains store rules = some passes ∧ out[slot]? = passes.last[slot]?) := by
  by_cases agreed : (partition forks).conflicted = ∅
  · obtain ⟨same, _⟩ := (returns_agreed _ _ _ _ _ agreed).mp returned
    exact .inl ⟨by simp [agreed], by rw [same]⟩
  · obtain ⟨resolved, ⟨fuel, passes, ended, kept⟩, same, _⟩ := (returns_miss _ _ _ _ _ agreed (Memo.get_new capacity _) out after).mp returned
    have slots : ∀ id, resolved[slot]? = some id ↔ slot ∈ (partition forks).conflicted.keys ∧ passes.last[slot]? = some id := by
      intro id
      rw [kept, restrict_get]
    by_cases disputed : slot ∈ (partition forks).conflicted.keys
    · refine .inr ⟨disputed, fuel, passes, ended, ?_⟩
      rw [same, merged_get, conflicted_key_unconflicted disputed, Option.or_none]
      exact Option.ext fun id => (slots id).trans (and_iff_right disputed)
    · have absent : resolved[slot]? = none := Option.eq_none_iff_forall_ne_some.mpr fun id read => disputed ((slots id).mp read).1
      exact .inl ⟨disputed, by rw [same, merged_get, absent, Option.none_or]⟩

theorem resolve_safe (forks : List StateMap) (authChains : List (BTreeSet EventId)) (store : EventStore E)
    (rules : AuthRules E) (capacity : Nat) :
    (Keyed store → AuthAcyclic store → ∃ out after, Returns forks authChains store rules (.new capacity) out after) ∧
      ∀ out after, Returns forks authChains store rules (.new capacity) out after →
      (∀ slot id, HoldsOnly forks slot id → out[slot]? = some id) ∧
        (∀ slot id, out[slot]? = some id → ∃ other, Holds forks slot other) ∧
        ∀ slot id, out[slot]? = some id → (¬ ∃ only, HoldsOnly forks slot only) →
        ∃ fuel passes, conflictPasses fuel forks authChains store rules = some passes ∧
            AuthorisedInPass store rules (partition forks).unconflicted passes slot id ∧
            (id ∈ fullConflict (conflictingEventIds (partition forks).conflicted) authChains ∨
              StoredUnder store (fullConflict (conflictingEventIds (partition forks).conflicted) authChains).toList id) ∧
            (Keyed store → id ∈ fullConflict (conflictingEventIds (partition forks).conflicted) authChains) := by
  refine ⟨fun keyed acyclic => ?_, fun out after returned =>
    ⟨fun slot id only => ?_, fun slot id read => ?_, fun slot id read several => ?_⟩⟩
  · obtain ⟨fuel, result, ended⟩ := resolve_total forks authChains store rules (.new capacity) keyed acyclic
    exact ⟨result.1, result.2, fuel, ended⟩
  · rcases returns_empty_cache returned slot with
      ⟨_, same⟩ | ⟨disputed, _⟩
    · rw [same]
      exact (partition_unconflicted forks slot id).mpr only
    · have undisputed := (partition_unconflicted forks slot id).mpr only
      rw [conflicted_key_unconflicted disputed] at undisputed
      cases undisputed
  · rcases returns_empty_cache returned slot with
      ⟨_, same⟩ | ⟨disputed, _⟩
    · rw [same] at read
      exact ⟨id, ((partition_unconflicted forks slot id).mp read id).mpr rfl⟩
    · obtain ⟨a, _, _, first, _⟩ := (conflicted_key_iff forks slot).mp disputed
      exact ⟨a, first⟩
  · rcases returns_empty_cache returned slot with
      ⟨_, same⟩ | ⟨disputed, fuel, passes, ended, same⟩
    · rw [same] at read
      exact absurd ⟨id, (partition_unconflicted forks slot id).mp read⟩ several
    · rcases passes_slot ended with unchanged | ⟨held, found, authorised⟩
      · rw [same, unchanged, conflicted_key_unconflicted disputed] at read
        cases read
      · rw [same, found] at read
        cases read
        have source := passes_stored ended authorised
        refine ⟨fuel, passes, ended, authorised, source, fun keyed => source.elim (fun member => member) fun stored => ?_⟩
        exact ExtTreeSet.mem_toList.mp (stored_under_keyed keyed stored)

-- A store that files an event under an id that is not its own: the sort of the
-- control events emits the event's own id, which nobody disputed.
def misfiledStore : EventStore StateEvent :=
  extend ∅ [("$x", StateEvent.new "$y" joinRulesType "@alice"), ("$y", StateEvent.new "$y" joinRulesType "@alice")]

def misfiledForks : List StateMap := [extend ∅ [(joinRulesKey, "$x")], extend ∅ [(joinRulesKey, "$z")]]

theorem misfiled_event_resolved : ∃ out after, Returns misfiledForks [] misfiledStore (fun _ _ _ => true)
    (.new 1) out after ∧
      out[joinRulesKey]? = some "$y" ∧ (¬ ∃ only, HoldsOnly misfiledForks joinRulesKey only) ∧
      "$y" ∉ conflictingEventIds (partition misfiledForks).conflicted ∧ "$y" ∉ authDifference [] := by
  have ended : (resolve 2 misfiledForks [] misfiledStore (fun _ _ _ => true) (.new 1)).map
    (fun done => done.1[joinRulesKey]?) = some (some "$y") := by decide +kernel
  obtain ⟨⟨out, after⟩, returned, held⟩ := Option.map_eq_some_iff.mp ended
  have disputed : joinRulesKey ∈ (partition misfiledForks).conflicted.keys := by decide +kernel
  refine ⟨out, after, ⟨2, returned⟩, held, fun ⟨only, holds⟩ => ?_, by decide +kernel, by decide⟩
  have undisputed := (partition_unconflicted misfiledForks joinRulesKey only).mpr holds
  rw [conflicted_key_unconflicted disputed] at undisputed
  cases undisputed

end GaussMatrix.StateRes

import GaussMatrix.StateRes.Resolve

namespace GaussMatrix.StateRes

open Collections Std

inductive Rearranged {A : Type} : List A → List A → Prop
  | permuted (items others : List A) (perm : items.Perm others) : Rearranged items others
  | repeated (items : List A) (item : A) (listed : item ∈ items) : Rearranged items (item :: items)
  | trans (first second third : List A) (left : Rearranged first second) (right : Rearranged second third) :
      Rearranged first third

theorem rearranged_member {A : Type} {items others : List A} (rearranged : Rearranged items others) (item : A) :
    item ∈ items ↔ item ∈ others := by
  induction rearranged with
  | permuted items others perm => exact perm.mem_iff
  | repeated items other listed =>
    rw [List.mem_cons]
    exact ⟨.inr, fun either => either.elim (fun same => same ▸ listed) (fun member => member)⟩
  | trans first second third _ _ left right => exact left.trans right

theorem holds_congr {forks others : List StateMap} (same : ∀ fork, fork ∈ forks ↔ fork ∈ others) (slot : StateKey)
    (id : EventId) : Holds forks slot id ↔ Holds others slot id := by
  simp only [Holds, same]

theorem partition_congr {forks others : List StateMap} (same : ∀ fork, fork ∈ forks ↔ fork ∈ others) :
    partition forks = partition others := by
  have holds := holds_congr same
  have unconflicted : (partition forks).unconflicted = (partition others).unconflicted := by
    refine ExtTreeMap.ext_getElem? fun slot => Option.ext fun id => ?_
    simp only [partition_unconflicted, holds]
  have conflicted : (partition forks).conflicted = (partition others).conflicted := by
    refine ExtTreeMap.ext_getElem? fun slot => Option.ext fun ids => ?_
    simp only [partition_conflicted, holds]
  cases left : partition forks with
  | mk first second =>
    cases right : partition others with
    | mk third fourth =>
      rw [left, right] at unconflicted conflicted
      cases unconflicted
      cases conflicted
      rfl

theorem auth_difference_congr {chains others : List (BTreeSet EventId)}
    (same : ∀ chain, chain ∈ chains ↔ chain ∈ others) : authDifference chains = authDifference others := by
  refine ExtTreeSet.ext_mem fun id => ?_
  simp only [auth_difference_member, same]

variable {E : Type} [Event E]

theorem resolve_congr {fuel : Nat} {forks others : List StateMap} {chains otherChains : List (BTreeSet EventId)}
    {store : EventStore E} {rules : AuthRules E} {cache : ResolvedStateCache}
    (sameForks : ∀ fork, fork ∈ forks ↔ fork ∈ others) (sameChains : ∀ chain, chain ∈ chains ↔ chain ∈ otherChains) :
    resolve fuel forks chains store rules cache = resolve fuel others otherChains store rules cache := by
  simp only [resolve, fullConflict, partition_congr sameForks, auth_difference_congr sameChains]

theorem resolve_order_insensitive (store : EventStore E) (rules : AuthRules E) (capacity : Nat)
    (forks others : List StateMap)
    (chains otherChains : List (BTreeSet EventId)) (keyed : Keyed store) (acyclic : AuthAcyclic store)
    (sameForks : Rearranged forks others) (sameChains : Rearranged chains otherChains) :
    ∃ out after, ∀ result last, (Returns forks chains store rules (.new capacity) result last ↔ result = out ∧
    last = after) ∧
        (Returns others otherChains store rules (.new capacity) result last ↔ result = out ∧ last = after) := by
  obtain ⟨fuel, ⟨out, after⟩, ended⟩ := resolve_total forks chains store rules (.new capacity) keyed acyclic
  have only : ∀ result last, Returns forks chains store rules (.new capacity) result last ↔ result = out ∧
    last = after := by
    intro result last
    refine ⟨fun returned => returns_unique forks chains store rules _ returned ⟨fuel, ended⟩, ?_⟩
    intro both
    rw [both.1, both.2]
    exact ⟨fuel, ended⟩
  have equal : ∀ result last, Returns others otherChains store rules (.new capacity) result last ↔
    Returns forks chains store rules (.new capacity) result last := by
    intro result last
    simp only [Returns, resolve_congr (rearranged_member sameForks) (rearranged_member sameChains)]
  exact ⟨out, after, fun result last => ⟨only result last, (equal result last).trans (only result last)⟩⟩

def topicStore : EventStore StateEvent := storeOf [StateEvent.new "$c" createType "@alice",
    { StateEvent.new "$ban" memberType "@alice" with stateKey := "@bob", membership := some "ban", authEventIds := ["$c"] },
    { StateEvent.new "$t1" "m.room.topic" "@alice" with authEventIds := ["$c"], originServerTs := 1 },
    { StateEvent.new "$t2" "m.room.topic" "@alice" with authEventIds := ["$c"], originServerTs := 2 }]

def topicFork (topic : EventId) : StateMap := extend ∅ [(createKey, "$c"), (("m.room.topic", ""), topic)]

def topicChains : List (BTreeSet EventId) := [ExtTreeSet.ofList ["$c"], ExtTreeSet.ofList ["$c", "$ban"]]

theorem topic_forks_converge :
    (resolve 3 [topicFork "$t1", topicFork "$t2"] topicChains topicStore composedRules (.new 1)).map
        (fun done => done.1[(("m.room.topic", "") : StateKey)]?) = some (some "$t2") ∧
      ∃ out after, ∀ result last, (Returns [topicFork "$t1", topicFork "$t2"] topicChains topicStore composedRules
      (.new 1) result last ↔ result = out ∧ last = after) ∧
        (Returns [topicFork "$t1", topicFork "$t2", topicFork "$t1"] topicChains.reverse topicStore composedRules (.new 1)
          result last ↔ result = out ∧ last = after) := by
  refine ⟨by decide +kernel, resolve_order_insensitive topicStore composedRules 1 _ _ _ _ store_of_keyed ?_ ?_ ?_⟩
  · exact acyclic_of_order topicStore ["$c", "$ban", "$t1", "$t2"] (by decide +kernel)
  · refine .trans _ [topicFork "$t1", topicFork "$t1", topicFork "$t2"] _ (.repeated _ _ (by simp)) (.permuted _ _ ?_)
    exact List.Perm.cons _ (List.Perm.swap _ _ _)
  · exact .permuted _ _ (List.reverse_perm topicChains).symm

end GaussMatrix.StateRes

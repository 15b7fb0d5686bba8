import Mathlib

namespace GaussMatrix.Bfs

open List Option

variable {fuel : ℕ} {p : List ℕ} {i : ℕ}

section

def rank (path : List ℕ) : ℕ ×ₗ List ℕ := toLex (path.length, path)

theorem rank_lt_iff {q : List ℕ} : rank p < rank q ↔ p.length < q.length ∨ p.length = q.length ∧ p < q :=
  Prod.Lex.toLex_lt_toLex

theorem rank_nil_le : rank [] ≤ rank p := by
  cases p with
  | nil => exact le_refl _
  | cons head tail => exact le_of_lt (rank_lt_iff.mpr (.inl (by simp)))

theorem rank_child : rank p < rank (p ++ [i]) := rank_lt_iff.mpr (.inl (by simp))

theorem lex_append (p q s t : List ℕ) (same : p.length = q.length) (less : p < q) : p ++ s < q ++ t := by
  induction p generalizing q with
  | nil =>
    have empty : q = [] := length_eq_zero_iff.mp same.symm
    rw [empty] at less
    exact absurd less (not_lt_nil [])
  | cons head tail ih =>
    cases q with
    | nil => simp at same
    | cons other rest =>
      rw [cons_lt_cons_iff] at less
      rw [cons_append, cons_append, cons_lt_cons_iff]
      rcases less with smaller | ⟨equal, further⟩
      · exact .inl smaller
      · exact .inr ⟨equal, ih rest (by simpa using same) further⟩

theorem rank_append {q : List ℕ} {j : ℕ} (less : rank p < rank q) : rank (p ++ [i]) < rank (q ++ [j]) := by
  rw [rank_lt_iff] at less ⊢
  rcases less with shorter | ⟨same, lex⟩
  · exact .inl (by simpa using shorter)
  · exact .inr ⟨by simp [same], lex_append p q [i] [j] same lex⟩

theorem rank_siblings (p : List ℕ) {j : ℕ} (less : i < j) : rank (p ++ [i]) < rank (p ++ [j]) := by
  refine rank_lt_iff.mpr (.inr ⟨by simp, ?_⟩)
  induction p with
  | nil => exact cons_lt_cons_iff.mpr (.inl less)
  | cons head tail ih => exact cons_lt_cons_iff.mpr (.inr ⟨rfl, ih⟩)

variable {N : Type} (next : N → List N)

def follow (root : N) (path : List ℕ) : Option N :=
  path.foldl (fun reached i => reached.bind fun node => (next node)[i]?) (some root)

theorem follow_append (root : N) (path : List ℕ) (i : ℕ) :
    follow next root (path ++ [i]) = (follow next root path).bind fun node => (next node)[i]? := by
  simp [follow, foldl_append]

theorem follow_within (nodes : Finset N) (closed : ∀ node ∈ nodes, ∀ other ∈ next node, other ∈ nodes) (root : N)
    (inside : root ∈ nodes) (path : List ℕ) (node : N) (leads : follow next root path = some node) : node ∈ nodes := by
  induction path using reverseRecOn generalizing node with
  | nil =>
    cases leads
    exact inside
  | append_singleton front i ih =>
    rw [follow_append, bind_eq_some_iff] at leads
    obtain ⟨parent, toParent, edge⟩ := leads
    exact closed parent (ih parent toParent) node (mem_of_getElem? edge)

def bfs [DecidableEq N] : ℕ → List N → List N → Option (List N)
  | _, [], seen => some seen
  | 0, _ :: _, _ => none
  | fuel + 1, node :: todo, seen =>
    if node ∈ seen then bfs fuel todo seen else bfs fuel (todo ++ next node) (seen ++ [node])

structure Search (root : N) (seen queue : List (List ℕ × N)) : Prop where
  leads : ∀ entry ∈ seen ++ queue, follow next root entry.1 = some entry.2
  sorted : (seen ++ queue).Pairwise fun a b => rank a.1 < rank b.1
  parents : ∀ entry ∈ queue, entry.1 = [] ∨ ∃ parent ∈ seen, ∃ i, entry.1 = parent.1 ++ [i]
  distinct : (seen.map Prod.snd).Nodup
  covers : ∀ entry ∈ seen, ∀ i node, (next entry.2)[i]? = some node → (entry.1 ++ [i], node) ∈ queue ∨
    ∃ earlier ∈ seen, earlier.2 = node ∧ rank earlier.1 ≤ rank (entry.1 ++ [i])
  start : ([], root) ∈ queue ∨ ∃ first ∈ seen, first.2 = root ∧ rank first.1 ≤ rank []

variable {next} {root : N} {seen rest : List (List ℕ × N)}

theorem search_starts : Search next root [] [([], root)] where
  leads := by
    intro entry member
    cases mem_singleton.mp member
    rfl
  sorted := pairwise_singleton _ _
  parents := by
    intro entry member
    cases mem_singleton.mp member
    exact .inl rfl
  distinct := nodup_nil
  covers := fun entry member => absurd member not_mem_nil
  start := .inl (mem_singleton_self _)

theorem skipped_found {head entry : List ℕ × N} (search : Search next root seen (head :: rest))
    (known : head.2 ∈ seen.map Prod.snd)
    (found : entry ∈ head :: rest ∨ ∃ old ∈ seen, old.2 = entry.2 ∧ rank old.1 ≤ rank entry.1) :
    entry ∈ rest ∨ ∃ old ∈ seen, old.2 = entry.2 ∧ rank old.1 ≤ rank entry.1 := by
  rcases found with queued | earlier
  · rcases mem_cons.mp queued with here | later
    · obtain ⟨old, oldMember, same⟩ := mem_map.mp known
      have before := (pairwise_append.mp search.sorted).2.2 old oldMember head mem_cons_self
      rw [← here] at before same
      exact .inr ⟨old, oldMember, same, le_of_lt before⟩
    · exact .inl later
  · exact .inr earlier

theorem search_skips {head : List ℕ × N} (search : Search next root seen (head :: rest))
    (known : head.2 ∈ seen.map Prod.snd) : Search next root seen rest where
  leads := by
    intro entry member
    refine search.leads entry ?_
    rcases mem_append.mp member with inSeen | inRest
    · exact mem_append_left _ inSeen
    · exact mem_append_right _ (mem_cons_of_mem _ inRest)
  sorted := search.sorted.sublist (List.Sublist.append_left (sublist_cons_self _ _) _)
  parents := fun entry member => search.parents entry (mem_cons_of_mem _ member)
  distinct := search.distinct
  covers := fun entry member i node edge => skipped_found search known (search.covers entry member i node edge)
  start := skipped_found search known search.start

variable (next) in
def children (entry : List ℕ × N) : List (List ℕ × N) := (next entry.2).mapIdx fun i node => (entry.1 ++ [i], node)

theorem mem_children {entry child : List ℕ × N} :
    child ∈ children next entry ↔ ∃ i, child.1 = entry.1 ++ [i] ∧ (next entry.2)[i]? = some child.2 := by
  rw [children, mem_mapIdx]
  constructor
  · rintro ⟨i, bound, rfl⟩
    exact ⟨i, rfl, getElem?_eq_getElem bound⟩
  · rintro ⟨i, path, edge⟩
    obtain ⟨bound, isNode⟩ := List.getElem?_eq_some_iff.mp edge
    exact ⟨i, bound, Prod.ext path.symm isNode⟩

theorem children_sorted {entry : List ℕ × N} : (children next entry).Pairwise fun a b => rank a.1 < rank b.1 := by
  rw [children, pairwise_iff_getElem]
  intro i j firstBound secondBound less
  rw [getElem_mapIdx, getElem_mapIdx]
  exact rank_siblings entry.1 less

theorem queue_before_children {head : List ℕ × N} (search : Search next root seen (head :: rest))
    (entry : List ℕ × N) (member : entry ∈ seen ++ head :: rest) (child : List ℕ × N)
    (isChild : child ∈ children next head) : rank entry.1 < rank child.1 := by
  obtain ⟨i, path, _⟩ := mem_children.mp isChild
  have seenBefore := (pairwise_append.mp search.sorted).2.2
  have ownBefore : rank head.1 < rank child.1 := path ▸ rank_child
  rcases mem_append.mp member with inSeen | inQueue
  · exact lt_trans (seenBefore entry inSeen head mem_cons_self) ownBefore
  · rcases search.parents entry inQueue with isRoot | ⟨parent, parentSeen, j, ofParent⟩
    · rw [isRoot]
      exact lt_of_le_of_lt rank_nil_le ownBefore
    · rw [ofParent, path]
      exact rank_append (seenBefore parent parentSeen head mem_cons_self)

theorem visited_found {added : List (List ℕ × N)} {head entry : List ℕ × N}
    (found : entry ∈ head :: rest ∨ ∃ old ∈ seen, old.2 = entry.2 ∧ rank old.1 ≤ rank entry.1) :
    entry ∈ rest ++ added ∨ ∃ old ∈ seen ++ [head], old.2 = entry.2 ∧ rank old.1 ≤ rank entry.1 := by
  rcases found with queued | ⟨old, oldSeen, same⟩
  · rcases mem_cons.mp queued with here | later
    · exact .inr ⟨head, mem_append_right _ (mem_singleton_self _), by rw [← here], by rw [← here]⟩
    · exact .inl (mem_append_left _ later)
  · exact .inr ⟨old, mem_append_left _ oldSeen, same⟩

theorem search_visits {head : List ℕ × N} (search : Search next root seen (head :: rest))
    (new : head.2 ∉ seen.map Prod.snd) : Search next root (seen ++ [head]) (rest ++ children next head) where
  leads := by
    intro entry member
    rw [append_assoc, singleton_append, ← cons_append, ← append_assoc] at member
    rcases mem_append.mp member with old | isChild
    · exact search.leads entry old
    · obtain ⟨i, path, edge⟩ := mem_children.mp isChild
      rw [path, follow_append, search.leads head (by simp)]
      exact edge
  sorted := by
    rw [append_assoc, singleton_append, ← cons_append, ← append_assoc]
    exact pairwise_append.mpr ⟨search.sorted, children_sorted, queue_before_children search⟩
  parents := by
    intro entry member
    rcases mem_append.mp member with inRest | isChild
    · rcases search.parents entry (mem_cons_of_mem _ inRest) with isRoot | ⟨parent, parentSeen, found⟩
      · exact .inl isRoot
      · exact .inr ⟨parent, mem_append_left _ parentSeen, found⟩
    · obtain ⟨i, path, _⟩ := mem_children.mp isChild
      exact .inr ⟨head, mem_append_right _ (mem_singleton_self _), i, path⟩
  distinct := by
    rw [map_append, map_singleton]
    exact nodup_append.mpr ⟨search.distinct, nodup_singleton _, fun node inSeen other isHead => by
      rw [mem_singleton.mp isHead]
      exact fun same => new (same ▸ inSeen)⟩
  covers := by
    intro entry member i node edge
    rcases mem_append.mp member with inSeen | isHead
    · exact visited_found (search.covers entry inSeen i node edge)
    · cases mem_singleton.mp isHead
      exact .inl (mem_append_right _ (mem_children.mpr ⟨i, rfl, edge⟩))
  start := visited_found search.start

theorem children_nodes (entry : List ℕ × N) : (children next entry).map Prod.snd = next entry.2 := by
  apply ext_getElem
  · simp [children]
  · intro i _ _
    simp [children]

theorem search_complete (search : Search next root seen []) (path : List ℕ) (node : N)
    (leads : follow next root path = some node) : ∃ entry ∈ seen, entry.2 = node ∧ rank entry.1 ≤ rank path := by
  induction path using reverseRecOn generalizing node with
  | nil =>
    cases leads
    exact search.start.resolve_left not_mem_nil
  | append_singleton front i ih =>
    rw [follow_append, bind_eq_some_iff] at leads
    obtain ⟨parent, toParent, edge⟩ := leads
    obtain ⟨entry, entrySeen, rfl, earlier⟩ := ih parent toParent
    obtain ⟨found, foundSeen, isNode, before⟩ := (search.covers entry entrySeen i node edge).resolve_left not_mem_nil
    refine ⟨found, foundSeen, isNode, le_trans before ?_⟩
    rcases eq_or_lt_of_le earlier with same | less
    · have equal : entry.1 = front := (Prod.mk.inj (toLex_inj.mp same)).2
      rw [equal]
    · exact le_of_lt (rank_append less)

variable (next) in
def Reachable (root node : N) : Prop := ∃ path, follow next root path = some node

variable (next) in
def Before (root x y : N) : Prop := ∀ path, follow next root path = some y →
    ∃ earlier, follow next root earlier = some x ∧ rank earlier < rank path

variable [DecidableEq N]

theorem bfs_searches (fuel : ℕ) (seen queue : List (List ℕ × N)) (search : Search next root seen queue)
    (result : List N) (ended : bfs next fuel (queue.map Prod.snd) (seen.map Prod.snd) = some result) :
    ∃ final, final.map Prod.snd = result ∧ Search next root final [] := by
  induction fuel generalizing seen queue with
  | zero =>
    cases queue with
    | nil => exact ⟨seen, by simpa [bfs] using ended, search⟩
    | cons head rest => simp [bfs] at ended
  | succ fuel ih =>
    cases queue with
    | nil => exact ⟨seen, by simpa [bfs] using ended, search⟩
    | cons head rest =>
      rw [map_cons, bfs] at ended
      by_cases known : head.2 ∈ seen.map Prod.snd
      · rw [if_pos known] at ended
        exact ih seen rest (search_skips search known) ended
      · rw [if_neg known] at ended
        refine ih (seen ++ [head]) (rest ++ children next head) (search_visits search known) ?_
        rw [map_append, map_append, children_nodes]
        exact ended

theorem bfs_member {result : List N} (ended : bfs next fuel [root] [] = some result) (node : N) :
    node ∈ result ↔ Reachable next root node := by
  obtain ⟨final, rfl, search⟩ := bfs_searches fuel [] [([], root)] search_starts result ended
  constructor
  · intro member
    obtain ⟨entry, seen, rfl⟩ := mem_map.mp member
    exact ⟨entry.1, search.leads entry (mem_append_left _ seen)⟩
  · rintro ⟨path, leads⟩
    obtain ⟨entry, seen, isNode, _⟩ := search_complete search path node leads
    exact mem_map.mpr ⟨entry, seen, isNode⟩

theorem bfs_after_iff {front back : List N} {x : N} {y : N}
    (ended : bfs next fuel [root] [] = some (front ++ x :: back)) :
    y ∈ back ↔ Reachable next root y ∧ Before next root x y := by
  have members := bfs_member ended
  obtain ⟨final, nodes, search⟩ := bfs_searches fuel [] [([], root)] search_starts _ ended
  obtain ⟨front', rest, rfl, rfl, restNodes⟩ := map_eq_append_iff.mp nodes
  obtain ⟨entry, back', rfl, rfl, rfl⟩ := map_eq_cons_iff.mp restNodes
  have sorted := pairwise_append.mp (by simpa using search.sorted)
  have least : ∀ other ∈ front' ++ entry :: back', ∀ path, follow next root path = some other.2 →
    rank other.1 ≤ rank path := by
    intro other member path leads
    obtain ⟨found, seen, same, earlier⟩ := search_complete search path other.2 leads
    have one := inj_on_of_nodup_map search.distinct seen member same
    rwa [one] at earlier
  have ownLeads : follow next root entry.1 = some entry.2 := search.leads entry (by simp)
  constructor
  · intro member
    refine ⟨(members y).mp (by simp [member]), fun path leads => ⟨entry.1, ownLeads, ?_⟩⟩
    obtain ⟨later, inBack, rfl⟩ := mem_map.mp member
    exact lt_of_lt_of_le ((pairwise_cons.mp sorted.2.1).1 later inBack) (least later (by simp [inBack]) path leads)
  · rintro ⟨reachable, before⟩
    obtain ⟨later, inFinal, rfl⟩ := mem_map.mp ((by simpa using (members y).mpr reachable) : y ∈ (front' ++ entry :: back').map Prod.snd)
    obtain ⟨earlier, leads, less⟩ := before later.1 (search.leads later (by simpa using inFinal))
    have behind : rank entry.1 < rank later.1 := lt_of_le_of_lt (least entry (by simp) earlier leads) less
    rcases mem_append.mp inFinal with inFront | inRest
    · exact absurd (sorted.2.2 later inFront entry mem_cons_self) (not_lt_of_gt behind)
    · rcases mem_cons.mp inRest with same | inBack
      · rw [same] at behind
        exact absurd behind (lt_irrefl _)
      · exact mem_map_of_mem inBack

theorem bfs_total (nodes : Finset N) (closed : ∀ node ∈ nodes, ∀ other ∈ next node, other ∈ nodes) (fuel : ℕ)
    (todo seen : List N) (within : ∀ node ∈ todo, node ∈ nodes)
    (enough : todo.length + ∑ node ∈ nodes.filter (· ∉ seen), (next node).length ≤ fuel) :
    ∃ result, bfs next fuel todo seen = some result := by
  induction fuel generalizing todo seen with
  | zero =>
    have empty : todo = [] := length_eq_zero_iff.mp (by omega)
    rw [empty, bfs]
    exact ⟨seen, rfl⟩
  | succ fuel ih =>
    cases todo with
    | nil => exact ⟨seen, rfl⟩
    | cons node rest =>
      have restWithin : ∀ other ∈ rest, other ∈ nodes := fun other member => within other (mem_cons_of_mem _ member)
      rw [bfs]
      by_cases known : node ∈ seen
      · rw [if_pos known]
        refine ih rest seen restWithin ?_
        rw [length_cons] at enough
        omega
      · rw [if_neg known]
        have inside := within node mem_cons_self
        refine ih (rest ++ next node) (seen ++ [node]) ?_ ?_
        · intro other member
          rcases mem_append.mp member with inRest | isNext
          · exact restWithin other inRest
          · exact closed node inside other isNext
        · have open' : nodes.filter (· ∉ seen) = insert node (nodes.filter (· ∉ seen ++ [node])) := by
            ext other
            by_cases same : other = node
            · simp [same, inside, known]
            · simp [same]
          rw [open', Finset.sum_insert (by simp), length_cons] at enough
          rw [length_append]
          omega

end

variable {N : Type} (needs : N → List N) (relevant : N → Prop)

def InOrder (visits : List N) : Prop := ∀ before node after, visits = before ++ node :: after →
    ∀ need ∈ needs node, relevant need → need ∈ before

variable {needs relevant}

theorem in_order_append (front back : List N) : InOrder needs relevant (front ++ back) ↔
    InOrder needs relevant front ∧ ∀ before node after, back = before ++ node :: after →
    ∀ need ∈ needs node, relevant need → need ∈ front ++ before := by
  constructor
  · intro ordered
    refine ⟨fun before node after split => ?_, fun before node after split => ?_⟩
    · exact ordered before node (after ++ back) (by rw [split, append_assoc, cons_append])
    · exact ordered (front ++ before) node after (by rw [split, append_assoc])
  · intro parts before node after split need isNeed related
    rcases append_eq_append_iff.mp split with ⟨middle, isBefore, isBack⟩ | ⟨middle, isFront, isAfter⟩
    · rw [isBefore]
      exact parts.2 middle node after isBack need isNeed related
    · cases middle with
      | nil =>
        rw [append_nil] at isFront
        have own := parts.2 [] node after (by simpa using isAfter.symm) need isNeed related
        rw [← isFront]
        simpa using own
      | cons first rest =>
        obtain ⟨rfl, rfl⟩ := cons_eq_cons.mp isAfter
        exact parts.1 before node rest isFront need isNeed related

theorem in_order_snoc (front : List N) (node : N) : InOrder needs relevant (front ++ [node]) ↔
    InOrder needs relevant front ∧ ∀ need ∈ needs node, relevant need → need ∈ front := by
  rw [in_order_append]
  refine and_congr_right fun _ => ⟨fun last => ?_, fun last before other after split => ?_⟩
  · simpa using last [] node [] rfl
  · obtain ⟨rfl, rfl, rfl⟩ : before = [] ∧ other = node ∧ after = [] := by
      rcases append_eq_singleton_iff.mp split.symm with ⟨rfl, single⟩ | ⟨_, empty⟩
      · obtain ⟨rfl, rfl⟩ := cons_eq_cons.mp single
        exact ⟨rfl, rfl, rfl⟩
      · cases empty
    simpa using last

theorem in_order_again {front : List N} {node : N} (seen : node ∈ front) :
    InOrder needs relevant (front ++ [node]) ↔ InOrder needs relevant front := by
  rw [in_order_snoc]
  refine and_iff_left_of_imp fun ordered need isNeed related => ?_
  obtain ⟨before, after, split⟩ := append_of_mem seen
  rw [split]
  exact mem_append_left _ (ordered before node after split need isNeed related)

variable [DecidableEq N] {next : N → List N}

theorem reversed_in_order_iff {root : N} {found front : List N} (ended : bfs next fuel [root] [] = some found) :
    InOrder needs relevant (front ++ found.reverse) ↔ InOrder needs relevant front ∧ ∀ node, Reachable next root node →
    ∀ need ∈ needs node, relevant need →
        need ∈ front ∨ (Reachable next root need ∧ Before next root node need) := by
  rw [in_order_append]
  refine and_congr_right fun _ => ⟨fun ordered node reachable need isNeed related => ?_,
    fun ordered before node after split need isNeed related => ?_⟩
  · obtain ⟨earlier, later, split⟩ := append_of_mem ((bfs_member ended node).mpr reachable)
    have reversed : found.reverse = later.reverse ++ node :: earlier.reverse := by simp [split]
    rcases mem_append.mp (ordered _ _ _ reversed need isNeed related) with inFront | inLater
    · exact .inl inFront
    · rw [split] at ended
      exact .inr ((bfs_after_iff ended).mp (mem_reverse.mp inLater))
  · have forward : found = after.reverse ++ node :: before.reverse := by
      rw [← reverse_reverse found, split]
      simp
    have reachable := (bfs_member ended node).mp (by simp [forward])
    rcases ordered node reachable need isNeed related with inFront | behind
    · exact mem_append_left _ inFront
    · rw [forward] at ended
      exact mem_append_right _ (mem_reverse.mp ((bfs_after_iff ended).mpr behind))

end GaussMatrix.Bfs

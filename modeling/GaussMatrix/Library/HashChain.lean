import Mathlib

namespace GaussMatrix.HashChain

variable {Link Item : Type} (next : Link → Item → Link)

def entries (link : Link) : List Item → List (Link × Item)
  | [] => []
  | item :: rest => (link, item) :: entries (next link item) rest

def tip (link : Link) (items : List Item) : Link := items.foldl next link

section

variable (link : Link) (items : List Item)

include link items

theorem tip_append {item : Item} : tip next link (items ++ [item]) = next (tip next link items) item :=
  List.foldl_concat ..

theorem entries_append (item : Item) : entries next link (items ++ [item]) = entries next link items ++
    [(tip next link items, item)] := by
  induction items generalizing link with
  | nil => rfl
  | cons head tail ih =>
    rw [List.cons_append, entries, ih (next link head)]
    rfl

theorem entries_items : (entries next link items).map Prod.snd = items := by
  induction items generalizing link with
  | nil => rfl
  | cons head tail ih => rw [entries, List.map_cons, ih]

theorem replay_entries : (entries next link items).foldl (fun _ entry => next entry.1 entry.2) link =
    tip next link items := by
  induction items generalizing link with
  | nil => rfl
  | cons head tail ih => exact ih (next link head)

end

def walk [DecidableEq Link] (link : Link) : List (Link × Item) → Option Link
  | [] => some link
  | entry :: rest => if entry.1 = link then walk (next entry.1 entry.2) rest else none

theorem walk_iff [DecidableEq Link] (link last : Link) (rows : List (Link × Item)) :
    walk next link rows = some last ↔ rows = entries next link (rows.map Prod.snd) ∧
    tip next link (rows.map Prod.snd) = last := by
  induction rows generalizing link with
  | nil => exact ⟨fun done => ⟨rfl, Option.some.inj done⟩, fun both => congrArg some both.2⟩
  | cons row rest ih =>
    obtain ⟨claimed, item⟩ := row
    rw [walk]
    by_cases linked : claimed = link
    · subst linked
      rw [if_pos rfl, ih (next claimed item), List.map_cons, entries, List.cons.injEq]
      exact ⟨fun both => ⟨⟨rfl, both.1⟩, both.2⟩, fun both => ⟨both.1.2, both.2⟩⟩
    · rw [if_neg linked, List.map_cons, entries, List.cons.injEq]
      exact ⟨nofun, fun both => absurd (congrArg Prod.fst both.1.1) linked⟩

theorem tip_injective {start : Link} (fresh : ∀ link item, next link item ≠ start) {items others : List Item}
    (free : ∀ entry ∈ entries next start items, ∀ other ∈ entries next start others,
    next entry.1 entry.2 = next other.1 other.2 → entry = other)
    (same : tip next start items = tip next start others) : items = others := by
  induction items using List.reverseRecOn generalizing others with
  | nil =>
    cases others using List.reverseRecOn with
    | nil => rfl
    | append_singleton others last =>
      rw [tip_append] at same
      exact absurd same.symm (fresh _ _)
  | append_singleton items item ih =>
    cases others using List.reverseRecOn with
    | nil =>
      rw [tip_append] at same
      exact absurd same (fresh _ _)
    | append_singleton others last =>
      rw [entries_append, entries_append] at free
      rw [tip_append, tip_append] at same
      have equal := free (tip next start items, item) (List.mem_append_right _ (List.mem_singleton.mpr rfl)) (tip next start others, last)
        (List.mem_append_right _ (List.mem_singleton.mpr rfl)) same
      have before := ih (fun entry member other otherMember =>
        free entry (List.mem_append_left _ member) other (List.mem_append_left _ otherMember)) (congrArg Prod.fst equal)
      rw [before, show item = last from congrArg Prod.snd equal]

end GaussMatrix.HashChain

import GaussMatrix.Library.Interning
import GaussMatrix.StateRes.Event

namespace GaussMatrix.Rooms

open Interning Runs StateRes

inductive ShortTable where
  | eventid
  | statekey
deriving DecidableEq

inductive ShortKey where
  | eventid (eventId : EventId)
  | statekey (eventType stateKey : String)
deriving DecidableEq

def ShortKey.table : ShortKey → ShortTable
  | .eventid _ => .eventid
  | .statekey _ _ => .statekey

inductive ShortCall where
  | getOrCreateShorteventid (eventId : EventId)
  | multiGetOrCreateShorteventid (eventIds : List EventId)
  | getOrCreateShortstatekey (eventType stateKey : String)

def ShortCall.keys : ShortCall → List ShortKey
  | .getOrCreateShorteventid eventId => [.eventid eventId]
  | .multiGetOrCreateShorteventid eventIds => eventIds.map .eventid
  | .getOrCreateShortstatekey eventType stateKey => [.statekey eventType stateKey]

abbrev ShortItem (calls : List ShortCall) := (call : Fin calls.length) × Fin (calls.get call).keys.length

section

variable {calls : List ShortCall}

def itemKey (item : ShortItem calls) : ShortKey := (calls.get item.1).keys.get item.2

abbrev Shorts (calls : List ShortCall) := Tables (ShortItem calls) ShortKey ShortTable

def Phase.isDone : Phase → Bool
  | .done _ => true
  | _ => false

-- A batch looks its keys up in any order and creates the missing ones in theirs.
def inTurn (shorts : Shorts calls) : Act (ShortItem calls) → Bool
  | .draw item => decide (∀ earlier < item.2, Phase.isDone (shorts.phase ⟨item.1, earlier⟩))
  | _ => true

def shortStep (shorts : Shorts calls) (act : Act (ShortItem calls)) : Option (Shorts calls) :=
  if inTurn shorts act then step itemKey ShortKey.table shorts act else none

structure Shorts.Settled (shorts : Shorts calls) : Prop where
  idle : ∀ item, shorts.phase item = .waiting
  bounded : ∀ k short, shorts.forward k = some short → short ≤ shorts.count
  injective : ∀ k other short, shorts.forward k = some short → shorts.forward other = some short → k = other
  filed : ∀ place k, shorts.reverse place = some k → k.table = place.1
  inverse : ∀ k short, shorts.forward k = some short ↔ shorts.reverse (k.table, short) = some k

variable {shorts last : Shorts calls}

theorem settled_sound (settled : shorts.Settled) : Sound itemKey ShortKey.table shorts where
  bounded := settled.bounded
  injective := settled.injective
  fits := by
    intro item
    rw [settled.idle item]
    trivial
  apart := by
    intro item other short numbered
    rw [settled.idle item] at numbered
    cases numbered
  alone := by
    intro item other creating
    rw [settled.idle item] at creating
    exact creating.elim
  back := by
    intro place k found
    have isTable := settled.filed place k found
    exact ⟨isTable, (settled.inverse k place.2).mpr (by rw [isTable]; exact found)⟩
  forth := fun k short found => .inl ((settled.inverse k short).mp found)

theorem short_step_sound {act : Act (ShortItem calls)} (sound : Sound itemKey ShortKey.table shorts)
    (calm : Calm itemKey shorts act)
    (stepped : shortStep shorts act = some last) : Sound itemKey ShortKey.table last := by
  obtain ⟨_, taken⟩ := Option.ite_none_right_eq_some.mp stepped
  exact step_sound sound calm taken

theorem short_ids_unique (acts : List (Act (ShortItem calls))) (settled : shorts.Settled)
    (calm : AllMeet shortStep (Calm itemKey) shorts acts) (ran : runs shortStep shorts acts = some last) :
    (∀ first second short other, last.phase first = .done short → last.phase second = .done other →
    (short = other ↔ itemKey first = itemKey second)) ∧ ((∀ item, ∃ short, last.phase item = .done short) →
    ∀ k short, last.forward k = some short ↔ last.reverse (k.table, short) = some k) := by
  have sound := runs_meeting_invariant (fun _ act _ sound calm stepped => short_step_sound sound calm stepped)
    (settled_sound settled) calm ran
  exact ⟨done_same_iff sound, finished_inverse sound⟩

end

def noShorts (calls : List ShortCall) : Shorts calls := ⟨0, fun _ => none, fun _ => none, fun _ => .waiting⟩

theorem no_shorts_settled {calls : List ShortCall} : (noShorts calls).Settled where
  idle := fun _ => rfl
  bounded := fun _ _ found => nomatch found
  injective := fun _ _ _ found => nomatch found
  filed := fun _ _ found => nomatch found
  inverse := fun _ _ => Iff.intro (fun found => nomatch found) (fun found => nomatch found)

def createActs {calls : List ShortCall} (item : ShortItem calls) : List (Act (ShortItem calls)) :=
  [.draw item, .put item, .putBack item]

abbrev batchThenOne : List ShortCall := [.multiGetOrCreateShorteventid ["$a", "$b"], .getOrCreateShorteventid "$a"]
abbrev batchA : ShortItem batchThenOne := ⟨0, 0, by decide⟩
abbrev batchB : ShortItem batchThenOne := ⟨0, 1, by decide⟩
abbrev oneA : ShortItem batchThenOne := ⟨1, 0, by decide⟩

abbrev batchCreatesFirst : List (Act (ShortItem batchThenOne)) :=
  [.read batchA, .read batchB] ++ createActs batchA ++ createActs batchB ++ [.read oneA]

theorem batch_then_lookup_unique : AllMeet shortStep (Calm itemKey) (noShorts batchThenOne) batchCreatesFirst ∧
    ∃ last, runs shortStep (noShorts batchThenOne) batchCreatesFirst = some last ∧
    (last.phase batchA = .done 1 ∧ last.phase batchB = .done 2 ∧ last.phase oneA = .done 1) ∧
      (∀ first second short other, last.phase first = .done short → last.phase second = .done other →
      (short = other ↔ itemKey first = itemKey second)) := by
  have calm : AllMeet shortStep (Calm itemKey) (noShorts batchThenOne) batchCreatesFirst := by decide +kernel
  refine ⟨calm, _, rfl, ⟨rfl, rfl, rfl⟩, ?_⟩
  exact (short_ids_unique batchCreatesFirst no_shorts_settled calm rfl).1

abbrev repeatedBatch : List ShortCall := [.multiGetOrCreateShorteventid ["$a", "$a"]]
abbrev firstA : ShortItem repeatedBatch := ⟨0, 0, by decide⟩
abbrev secondA : ShortItem repeatedBatch := ⟨0, 1, by decide⟩

theorem repeated_key_two_shorts : (∃ last, runs shortStep (noShorts repeatedBatch)
    ([.read firstA, .read secondA] ++ createActs firstA ++ createActs secondA) = some last ∧
      last.phase firstA = .done 1 ∧ last.phase secondA = .done 2 ∧
      last.forward (.eventid "$a") = some 2 ∧ last.reverse (.eventid, 1) = some (.eventid "$a")) ∧
    (∃ last, runs shortStep (noShorts batchThenOne)
    ([.read batchA, .read oneA] ++ createActs batchA ++ createActs oneA) = some last ∧
      last.phase batchA = .done 1 ∧ last.phase oneA = .done 2) :=
  ⟨⟨_, rfl, rfl, rfl, rfl, rfl⟩, ⟨_, rfl, rfl, rfl⟩⟩

end GaussMatrix.Rooms

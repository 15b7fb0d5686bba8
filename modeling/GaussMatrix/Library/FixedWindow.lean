import Mathlib

namespace GaussMatrix.FixedWindow

open List

abbrev Window := Nat × Nat

section

variable (most width : Nat)

def current (window : Option Window) (now : Nat) : Window :=
  let held := window.getD (now, 0)
  if now - held.1 ≥ width then (now, 0) else held

structure Limiter where
  window : Option Window
  admitted : List (Nat × Nat)

def call (limiter : Limiter) (now : Nat) : Limiter :=
  let window := current width limiter.window now
  if most ≤ window.2 then limiter else ⟨some (window.1, window.2 + 1), limiter.admitted ++ [(now, window.1)]⟩

def idle : Limiter := ⟨none, []⟩

variable {most width} {now later : Nat} {limiter : Limiter}

structure Kept (most width now : Nat) (limiter : Limiter) : Prop where
  none : limiter.window = none → limiter.admitted = []
  counted : ∀ window, limiter.window = some window → window.1 ≤ now ∧
    limiter.admitted.countP (·.2 = window.1) = window.2
  last : ∀ window, limiter.window = some window → ∀ entry ∈ limiter.admitted, entry.2 = window.1 ∨
    entry.2 + width ≤ window.1
  bounded : ∀ start, limiter.admitted.countP (·.2 = start) ≤ most
  inside : ∀ entry ∈ limiter.admitted, entry.2 ≤ entry.1 ∧ entry.1 < entry.2 + width
  spaced : limiter.admitted.Pairwise fun a b => a.2 = b.2 ∨ a.2 + width ≤ b.2

theorem idle_kept {most width : Nat} : Kept most width now idle :=
  ⟨fun _ => rfl, nofun, nofun, fun _ => Nat.zero_le _, nofun, .nil⟩

theorem current_recent (positive : 0 < width) (window : Option Window) (now : Nat) :
    now - (current width window now).1 < width := by
  rw [current]
  split
  · rw [Nat.sub_self]
    exact positive
  case isFalse recent => exact Nat.lt_of_not_le recent

theorem current_within {window : Option Window} {opened time : Nat} (opens : (current width window opened).1 = opened)
    (after : opened ≤ time) (before : time < opened + width) :
    (current width window time).2 = (current width window opened).2 ∧ opened ≤ (current width window time).1 := by
  cases window with
  | none =>
    have fresh : ∀ now, current width none now = (now, 0) := fun now => ite_self _
    rw [fresh, fresh]
    exact ⟨rfl, after⟩
  | some held =>
    rw [current] at opens ⊢
    rw [current]
    dsimp only [Option.getD_some] at opens ⊢
    by_cases expired : opened - held.1 ≥ width
    · rw [if_pos expired, if_pos (by omega)]
      exact ⟨rfl, after⟩
    · rw [if_neg expired] at opens ⊢
      rw [if_neg (by omega)]
      exact ⟨rfl, le_of_eq opens.symm⟩

section

variable (kept : Kept most width now limiter) (after : now ≤ later)

include kept after

theorem kept_later : Kept most width later limiter :=
  ⟨kept.none, fun window held => ⟨le_trans (kept.counted window held).1 after, (kept.counted window held).2⟩, kept.last,
    kept.bounded, kept.inside, kept.spaced⟩

theorem current_kept (positive : 0 < width) : (current width limiter.window later).1 ≤ later ∧
      limiter.admitted.countP (·.2 = (current width limiter.window later).1) = (current width limiter.window later).2 ∧
      ∀ entry ∈ limiter.admitted, entry.2 = (current width limiter.window later).1 ∨
      entry.2 + width ≤ (current width limiter.window later).1 := by
  cases held : limiter.window with
  | none =>
    have fresh : current width none later = (later, 0) := by
      rw [current]
      exact ite_self _
    rw [kept.none held, fresh]
    exact ⟨le_refl _, rfl, nofun⟩
  | some window =>
    obtain ⟨started, count⟩ := kept.counted window held
    have others := kept.last window held
    rw [current]
    dsimp only [Option.getD_some]
    split
    case isTrue expired =>
      have earlier : ∀ entry ∈ limiter.admitted, entry.2 + width ≤ later := by
        intro entry member
        rcases others entry member with same | before
        · omega
        · omega
      refine ⟨le_refl _, countP_eq_zero.mpr fun entry member => ?_, fun entry member => .inr (earlier entry member)⟩
      have before := earlier entry member
      simp only [decide_eq_true_eq]
      omega
    case isFalse recent => exact ⟨le_trans started after, count, others⟩

theorem call_kept (positive : 0 < width) : Kept most width later (call most width limiter later) := by
  obtain ⟨started, count, others⟩ := current_kept kept after positive
  have recent := current_recent positive limiter.window later
  rw [call]
  generalize current width limiter.window later = window at started count others recent
  split
  · exact kept_later kept after
  case isFalse room =>
    have counts : ∀ start, (limiter.admitted ++ [(later, window.1)]).countP (·.2 = start) = limiter.admitted.countP
      (·.2 = start) + if window.1 = start then 1 else 0 := by
      intro start
      by_cases same : window.1 = start <;> simp [same]
    refine ⟨nofun, ?_, ?_, fun start => ?_, ?_, ?_⟩
    · intro held same
      cases same
      refine ⟨started, ?_⟩
      rw [counts, if_pos rfl, count]
    · intro held same entry member
      cases same
      rcases mem_append.mp member with before | last
      · exact others entry before
      · exact .inl (congrArg Prod.snd (mem_singleton.mp last))
    · rw [counts]
      split
      case isTrue same =>
        rw [← same, count]
        omega
      case isFalse => exact kept.bounded start
    · intro entry member
      rcases mem_append.mp member with before | last
      · exact kept.inside entry before
      · rw [mem_singleton.mp last]
        dsimp only
        omega
    · refine pairwise_append.mpr ⟨kept.spaced, pairwise_singleton _ _, fun entry member new last => ?_⟩
      rw [mem_singleton.mp last]
      exact others entry member

end

theorem calls_kept (positive : 0 < width) {times : List Nat} (ordered : times.Pairwise (· ≤ ·))
    (kept : Kept most width now limiter)
    (after : ∀ time ∈ times, now ≤ time) : ∃ last, Kept most width last (times.foldl (call most width) limiter) := by
  induction times generalizing limiter now with
  | nil => exact ⟨now, kept⟩
  | cons time rest ih =>
    obtain ⟨first, sorted⟩ := pairwise_cons.mp ordered
    exact ih sorted (call_kept kept (after time mem_cons_self) positive) first

theorem two_windows (kept : Kept most width now limiter) {time : Nat} :
    ∃ a b, ∀ entry ∈ limiter.admitted, time ≤ entry.1 → entry.1 ≤ time + width → entry.2 = a ∨ entry.2 = b := by
  let close := limiter.admitted.filter fun entry => decide (time ≤ entry.1 ∧ entry.1 ≤ time + width)
  have listed : ∀ entry, entry ∈ close ↔ entry ∈ limiter.admitted ∧ time ≤ entry.1 ∧ entry.1 ≤ time + width := by
    intro entry
    rw [mem_filter, decide_eq_true_eq]
  have spaced : close.Pairwise fun a b => a.2 = b.2 ∨ a.2 + width ≤ b.2 := kept.spaced.filter _
  cases sorted : close with
  | nil =>
    refine ⟨0, 0, fun entry member low high => ?_⟩
    have inside := (listed entry).mpr ⟨member, low, high⟩
    rw [sorted] at inside
    cases inside
  | cons first rest =>
    rw [sorted] at spaced listed
    obtain ⟨fromFirst, restSpaced⟩ := pairwise_cons.mp spaced
    obtain ⟨firstMember, firstLow, _⟩ := (listed first).mp mem_cons_self
    have firstInside := kept.inside first firstMember
    cases others : rest.filter fun entry => decide (entry.2 ≠ first.2) with
    | nil =>
      refine ⟨first.2, first.2, fun entry member low high => ?_⟩
      rcases mem_cons.mp ((listed entry).mpr ⟨member, low, high⟩) with rfl | later
      · exact .inl rfl
      · have same := filter_eq_nil_iff.mp others entry later
        rw [decide_eq_true_eq, not_not] at same
        exact .inl same
    | cons second beyond =>
      have othersSpaced := restSpaced.filter fun entry => decide (entry.2 ≠ first.2)
      have inOthers : ∀ entry, entry ∈ second :: beyond ↔ entry ∈ rest ∧ entry.2 ≠ first.2 := by
        intro entry
        rw [← others, mem_filter, decide_eq_true_eq]
      rw [others] at othersSpaced
      obtain ⟨fromSecond, _⟩ := pairwise_cons.mp othersSpaced
      obtain ⟨secondLater, secondOther⟩ := (inOthers second).mp mem_cons_self
      have secondStart := (fromFirst second secondLater).resolve_left secondOther.symm
      refine ⟨first.2, second.2, fun entry member low high => ?_⟩
      rcases mem_cons.mp ((listed entry).mpr ⟨member, low, high⟩) with rfl | later
      · exact .inl rfl
      · by_cases same : entry.2 = first.2
        · exact .inl same
        · rcases mem_cons.mp ((inOthers entry).mpr ⟨later, same⟩) with rfl | third
          · exact .inr rfl
          · rcases fromSecond entry third with equal | far
            · exact .inr equal.symm
            · have thirdInside := kept.inside entry member
              omega

theorem count_either (entries : List (Nat × Nat)) (a b : Nat) :
    entries.countP (fun entry => decide (entry.2 = a ∨ entry.2 = b)) ≤ entries.countP (·.2 = a) + entries.countP
    (·.2 = b) := by
  induction entries with
  | nil => exact le_refl _
  | cons entry rest ih =>
    rw [countP_cons, countP_cons, countP_cons]
    by_cases isA : entry.2 = a
    · simp only [isA, true_or, decide_true, if_true]
      omega
    · by_cases isB : entry.2 = b
      · simp only [isB, or_true, decide_true, if_true]
        omega
      · simp only [isA, isB, or_self, decide_false]
        omega

theorem interval_bound (kept : Kept most width now limiter) (time : Nat) :
    limiter.admitted.countP (fun entry => decide (time ≤ entry.1 ∧ entry.1 ≤ time + width)) ≤ 2 * most := by
  obtain ⟨a, b, either⟩ := two_windows kept
  have within : limiter.admitted.countP (fun entry => decide (time ≤ entry.1 ∧ entry.1 ≤ time + width)) ≤
      limiter.admitted.countP (fun entry => decide (entry.2 = a ∨ entry.2 = b)) := by
    refine countP_mono_left fun entry member close => ?_
    rw [decide_eq_true_eq] at close ⊢
    exact either entry member close.1 close.2
  have split := count_either limiter.admitted a b
  have first := kept.bounded a
  have second := kept.bounded b
  omega

end

variable {most width : Nat}

theorem call_current (positive : 0 < width) (limiter : Limiter) (now : Nat) :
    current width (call most width limiter now).window now =
      if most ≤ (current width limiter.window now).2 then current width limiter.window now
      else ((current width limiter.window now).1, (current width limiter.window now).2 + 1) := by
  have recent := current_recent positive limiter.window now
  rw [call]
  split
  case isTrue => rfl
  case isFalse => exact if_neg (not_le.mpr recent)

theorem calls_full_iff (positive : 0 < width) {limiter : Limiter} {now : Nat} (n : Nat) :
    most ≤ (current width ((List.replicate n now).foldl (call most width) limiter).window now).2 ↔
    most - (current width limiter.window now).2 ≤ n := by
  induction n generalizing limiter with
  | zero =>
    rw [replicate_zero, foldl_nil]
    omega
  | succ n ih =>
    rw [replicate_succ, foldl_cons, ih, call_current positive]
    split
    · omega
    · omega

end GaussMatrix.FixedWindow

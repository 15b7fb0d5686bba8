import Mathlib.Tactic

namespace GaussMatrix.BigEndian

open List

def toBytes : Nat → Nat → List UInt8
  | 0, _ => []
  | width + 1, n => toBytes width (n / 256) ++ [UInt8.ofNat n]

def ofBytes (bytes : List UInt8) : Nat := bytes.foldl (fun n byte => n * 256 + byte.toNat) 0

theorem to_bytes_length (width n : Nat) : (toBytes width n).length = width := by
  induction width generalizing n with
  | zero => rfl
  | succ width ih => rw [toBytes, length_append, ih, length_singleton]

theorem to_bytes_first (width n : Nat) : ∃ rest, toBytes (width + 1) n = UInt8.ofNat (n / 256 ^ width) :: rest := by
  induction width generalizing n with
  | zero => exact ⟨[], by rw [toBytes, toBytes, pow_zero, Nat.div_one, nil_append]⟩
  | succ width ih =>
    obtain ⟨rest, first⟩ := ih (n / 256)
    refine ⟨rest ++ [UInt8.ofNat n], ?_⟩
    rw [toBytes, first, Nat.div_div_eq_div_mul, ← pow_succ', cons_append]

theorem of_bytes_append (bytes : List UInt8) (byte : UInt8) :
    ofBytes (bytes ++ [byte]) = ofBytes bytes * 256 + byte.toNat := by
  rw [ofBytes, foldl_append]
  rfl

theorem of_to_bytes (width n : Nat) : ofBytes (toBytes width n) = n % 256 ^ width := by
  induction width generalizing n with
  | zero => exact (Nat.mod_one n).symm
  | succ width ih =>
    have split := Nat.mod_mul (x := n) (a := 256) (b := 256 ^ width)
    have last : (UInt8.ofNat n).toNat = n % 256 := UInt8.toNat_ofNat'
    rw [toBytes, of_bytes_append, ih, last, pow_succ, mul_comm (256 ^ width), split]
    omega

theorem of_to_bytes_of_lt {width n : Nat} (fits : n < 256 ^ width) : ofBytes (toBytes width n) = n := by
  rw [of_to_bytes, Nat.mod_eq_of_lt fits]

theorem to_of_bytes (bytes : List UInt8) : toBytes bytes.length (ofBytes bytes) = bytes := by
  induction bytes using reverseRecOn with
  | nil => rfl
  | append_singleton bytes byte ih =>
    have small := byte.toNat_lt
    have quotient : (ofBytes bytes * 256 + byte.toNat) / 256 = ofBytes bytes := by omega
    have last : UInt8.ofNat (ofBytes bytes * 256 + byte.toNat) = byte := by
      refine UInt8.toNat_inj.mp ?_
      rw [UInt8.toNat_ofNat']
      omega
    rw [of_bytes_append, length_append, length_singleton, toBytes, quotient, ih, last]

theorem of_bytes_lt (bytes : List UInt8) : ofBytes bytes < 256 ^ bytes.length := by
  have same := of_to_bytes bytes.length (ofBytes bytes)
  rw [to_of_bytes] at same
  rw [same]
  exact Nat.mod_lt _ (by positivity)

theorem byte_compare (a b : UInt8) : compare a b = compare a.toNat b.toNat := by
  rcases lt_trichotomy a.toNat b.toNat with less | same | more
  · rw [Nat.compare_eq_lt.mpr less]
    exact Std.compare_eq_lt.mpr less
  · rw [UInt8.toNat_inj.mp same, Nat.compare_eq_eq.mpr rfl]
    exact Std.ReflCmp.compare_self
  · rw [Nat.compare_eq_gt.mpr more]
    exact Std.compare_eq_gt.mpr more

theorem digits_compare (n m : Nat) :
    (compare (n / 256) (m / 256)).then (compare (n % 256) (m % 256)) = compare n m := by
  rcases lt_trichotomy (n / 256) (m / 256) with less | same | more
  · have whole : compare n m = .lt := Nat.compare_eq_lt.mpr (by omega)
    rw [Nat.compare_eq_lt.mpr less, whole]
    rfl
  · rw [Nat.compare_eq_eq.mpr same]
    change compare (n % 256) (m % 256) = compare n m
    rcases lt_trichotomy n m with below | equal | above
    · have digit : compare (n % 256) (m % 256) = .lt := Nat.compare_eq_lt.mpr (by omega)
      rw [Nat.compare_eq_lt.mpr below, digit]
    · rw [Nat.compare_eq_eq.mpr equal, equal, Nat.compare_eq_eq.mpr rfl]
    · have digit : compare (n % 256) (m % 256) = .gt := Nat.compare_eq_gt.mpr (by omega)
      rw [Nat.compare_eq_gt.mpr above, digit]
  · have whole : compare n m = .gt := Nat.compare_eq_gt.mpr (by omega)
    rw [Nat.compare_eq_gt.mpr more, whole]
    rfl

theorem to_bytes_compare (width n m : Nat) (left right : List UInt8) (fits : n < 256 ^ width)
    (otherFits : m < 256 ^ width) :
    compare (toBytes width n ++ left) (toBytes width m ++ right) = (compare n m).then (compare left right) := by
  induction width generalizing n m left right with
  | zero =>
    have zero : n = 0 := by simpa using fits
    have otherZero : m = 0 := by simpa using otherFits
    rw [zero, otherZero]
    rfl
  | succ width ih =>
    have quotient : n / 256 < 256 ^ width := Nat.div_lt_of_lt_mul (by rwa [pow_succ, mul_comm] at fits)
    have otherQuotient : m / 256 < 256 ^ width := Nat.div_lt_of_lt_mul (by rwa [pow_succ, mul_comm] at otherFits)
    have split : compare (UInt8.ofNat n :: left) (UInt8.ofNat m :: right) = (compare (n % 256) (m % 256)).then (compare left right) := by
      have byte := byte_compare (UInt8.ofNat n) (UInt8.ofNat m)
      rw [UInt8.toNat_ofNat', UInt8.toNat_ofNat'] at byte
      rw [← byte]
      exact List.compareLex_cons_cons
    rw [toBytes, toBytes, append_assoc, append_assoc, singleton_append, singleton_append,
      ih _ _ _ _ quotient otherQuotient, split, ← Ordering.then_assoc, digits_compare]

end GaussMatrix.BigEndian

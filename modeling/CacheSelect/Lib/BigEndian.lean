import Mathlib.Data.List.Basic
import Mathlib.Tactic.Common
import Mathlib.Algebra.Ring.Nat

/-! # Big-endian numbers

`bigEndian k n` are the last `k` base-256 digits of `n`, the most significant first.  Below `256 ^ k` a
number is what its digits say (`ofBytes_bigEndian`), so that the encoding is injective there.
-/

namespace BigEndian

/-- The last `k` base-256 digits of a number. -/
def bigEndian : Nat → Nat → List UInt8
  | 0, _ => []
  | k + 1, n => bigEndian k (n / 256) ++ [UInt8.ofNat n]

/-- The number that some digits say. -/
def ofBytes (bytes : List UInt8) : Nat :=
  bytes.foldl (fun acc b => acc * 256 + b.toNat) 0

@[simp] theorem length_bigEndian : ∀ k n, (bigEndian k n).length = k := by
  intro k
  induction k with
  | zero => intro n; rfl
  | succ k ih => intro n; rw [bigEndian, List.length_append, ih, List.length_singleton]

theorem ofBytes_append_singleton (bytes : List UInt8) (b : UInt8) :
    ofBytes (bytes ++ [b]) = ofBytes bytes * 256 + b.toNat := by
  rw [ofBytes, List.foldl_append]
  rfl

theorem ofBytes_bigEndian : ∀ k {n}, n < 256 ^ k → ofBytes (bigEndian k n) = n := by
  intro k
  induction k with
  | zero =>
      intro n h
      rw [Nat.pow_zero] at h
      rw [bigEndian, ofBytes, List.foldl_nil]
      omega
  | succ k ih =>
      intro n h
      rw [Nat.pow_succ, Nat.mul_comm] at h
      have hdiv : n / 256 < 256 ^ k := Nat.div_lt_of_lt_mul h
      have hmod : (UInt8.ofNat n).toNat = n % 256 := UInt8.toNat_ofNat'
      rw [bigEndian, ofBytes_append_singleton, ih hdiv, hmod]
      omega

theorem bigEndian_inj {k n n' : Nat} (hn : n < 256 ^ k) (hn' : n' < 256 ^ k)
    (h : bigEndian k n = bigEndian k n') : n = n' := by
  rw [← ofBytes_bigEndian k hn, ← ofBytes_bigEndian k hn', h]

theorem ofNat_eq_zero_iff (n : Nat) : UInt8.ofNat n = 0 ↔ n % 256 = 0 := by
  rw [← UInt8.toNat_inj, UInt8.toNat_ofNat']
  rfl

end BigEndian

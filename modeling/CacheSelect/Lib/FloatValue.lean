import Mathlib.Algebra.Order.Field.Rat
import Mathlib.Algebra.Order.Field.Basic
import Mathlib.Tactic.Linarith

/-! # Floats over a rounding of a field

A float is a number, an infinity or no number; the two zeros are not told apart.  The numbers are rationals, or
those of another ordered field.  How a result is rounded is a parameter: a monotone map that is exact at `0` and `1`
(`Rounding`).  The operations compute on exact numbers and round once; the infinities and `nan` follow the usual tables.

A quotient of a number in the unit interval by a sum `1 + e`, with `e` in the unit interval too, stays in
the unit interval under every such rounding (`div_one_add_inUnit`).
-/

inductive FloatValue (K : Type := Rat)
  | nan
  | posInf
  | negInf
  | fin (q : K)
deriving DecidableEq, Repr

namespace FloatValue

variable {K : Type}

def isFinite : FloatValue K → Bool
  | .fin _ => true
  | _ => false

section

variable [LinearOrder K]

/-- `x <= y`, false where one side is no number. -/
def le : FloatValue K → FloatValue K → Bool
  | .nan, _ => false
  | _, .nan => false
  | .negInf, _ => true
  | _, .posInf => true
  | .fin p, .fin q => p ≤ q
  | _, _ => false

/-- `x < y`. -/
def lt : FloatValue K → FloatValue K → Bool
  | .nan, _ => false
  | _, .nan => false
  | _, .negInf => false
  | .negInf, _ => true
  | .posInf, _ => false
  | _, .posInf => true
  | .fin p, .fin q => p < q

@[simp] theorem le_fin_fin (p q : K) : (fin p).le (fin q) = decide (p ≤ q) := rfl

@[simp] theorem lt_fin_fin (p q : K) : (fin p).lt (fin q) = decide (p < q) := rfl

end

variable [Field K]

def neg : FloatValue K → FloatValue K
  | .nan => .nan
  | .posInf => .negInf
  | .negInf => .posInf
  | .fin q => .fin (-q)

variable [LinearOrder K]

/-- An infinity with the sign of a product by `q`. -/
def infTimes (positive : Bool) (q : K) : FloatValue K :=
  if q = 0 then .nan
  else if positive = decide (0 < q) then .posInf
  else .negInf

/-- A number from `0` to `1`. -/
def InUnit (x : FloatValue K) : Prop :=
  ∃ q : K, x = .fin q ∧ 0 ≤ q ∧ q ≤ 1

theorem inUnit_fin {q : K} : (fin q).InUnit ↔ 0 ≤ q ∧ q ≤ 1 := by
  constructor
  · rintro ⟨q', he, h⟩
    cases he
    exact h
  · intro h
    exact ⟨q, rfl, h⟩

/-- What is not below zero is a number or the infinity above. -/
theorem zero_le_iff {x : FloatValue K} :
    (fin 0).le x = true ↔ x = .posInf ∨ ∃ q : K, x = .fin q ∧ 0 ≤ q := by
  cases x <;> simp [le]

/-- The negative of a value that is not below zero is not above it. -/
theorem neg_le_zero [IsStrictOrderedRing K] {x : FloatValue K} (h : (fin 0).le x = true) : x.neg.le (.fin 0) = true := by
  rcases zero_le_iff.mp h with rfl | ⟨q, rfl, hq⟩
  · rfl
  · rw [neg, le_fin_fin, decide_eq_true_eq]
    exact neg_nonpos.mpr hq

/-- A value that does not reach zero is no number or below it. -/
theorem le_zero_of_not {x : FloatValue K} (h : ¬ (fin 0).le x = true) :
    x = .nan ∨ x.le (.fin 0) = true := by
  cases x with
  | nan => exact Or.inl rfl
  | posInf => exact absurd rfl h
  | negInf => exact Or.inr rfl
  | fin q =>
      rw [le_fin_fin, decide_eq_true_eq, not_le] at h
      refine Or.inr ?_
      rw [le_fin_fin, decide_eq_true_eq]
      exact le_of_lt h

end FloatValue

/-- How the results of operations are rounded. -/
structure Rounding (K : Type := Rat) [Field K] [LinearOrder K] where
  round : K → FloatValue K
  round_zero : round 0 = .fin 0
  round_one : round 1 = .fin 1
  round_mono : ∀ p q, p ≤ q → (round p).le (round q) = true

namespace Rounding

open FloatValue

variable {K : Type} [Field K] [LinearOrder K] (r : Rounding K)

def add : FloatValue K → FloatValue K → FloatValue K
  | .nan, _ => .nan
  | _, .nan => .nan
  | .posInf, .negInf => .nan
  | .negInf, .posInf => .nan
  | .posInf, _ => .posInf
  | _, .posInf => .posInf
  | .negInf, _ => .negInf
  | _, .negInf => .negInf
  | .fin p, .fin q => r.round (p + q)

def sub (x y : FloatValue K) : FloatValue K :=
  r.add x y.neg

def mul : FloatValue K → FloatValue K → FloatValue K
  | .nan, _ => .nan
  | _, .nan => .nan
  | .posInf, .posInf => .posInf
  | .negInf, .negInf => .posInf
  | .posInf, .negInf => .negInf
  | .negInf, .posInf => .negInf
  | .posInf, .fin q => infTimes true q
  | .negInf, .fin q => infTimes false q
  | .fin q, .posInf => infTimes true q
  | .fin q, .negInf => infTimes false q
  | .fin p, .fin q => r.round (p * q)

/-- The quotient by a divisor that is not zero. -/
def div : FloatValue K → FloatValue K → FloatValue K
  | .nan, _ => .nan
  | _, .nan => .nan
  | .fin _, .posInf => .fin 0
  | .fin _, .negInf => .fin 0
  | .posInf, .fin q => infTimes true q
  | .negInf, .fin q => infTimes false q
  | .fin p, .fin q => r.round (p / q)
  | _, _ => .nan

/-- Exact arithmetic: nothing is rounded. -/
def exact : Rounding K where
  round := .fin
  round_zero := rfl
  round_one := rfl
  round_mono := fun _ _ h => decide_eq_true h

/-- Rounding keeps the unit interval. -/
theorem round_inUnit {q : K} (h0 : 0 ≤ q) (h1 : q ≤ 1) : (r.round q).InUnit := by
  have hlow := r.round_mono 0 q h0
  have hhigh := r.round_mono q 1 h1
  rw [r.round_zero] at hlow
  rw [r.round_one] at hhigh
  rcases zero_le_iff.mp hlow with he | ⟨p, he, hp⟩
  · rw [he] at hhigh
    cases hhigh
  · rw [he, le_fin_fin, decide_eq_true_eq] at hhigh
    exact ⟨p, he, hp, hhigh⟩

variable [IsStrictOrderedRing K]

/-- A sum `1 + e` is the infinity or a number that is at least `1`. -/
theorem one_add_of_inUnit {e : FloatValue K} (he : e.InUnit) :
    r.add (.fin 1) e = .posInf ∨ ∃ d : K, r.add (.fin 1) e = .fin d ∧ 1 ≤ d := by
  obtain ⟨q, rfl, h0, -⟩ := he
  have h := r.round_mono 1 (1 + q) (by linarith)
  rw [r.round_one] at h
  change r.round (1 + q) = .posInf ∨ ∃ d : K, r.round (1 + q) = .fin d ∧ 1 ≤ d
  cases hr : r.round (1 + q) with
  | nan => rw [hr] at h; cases h
  | posInf => exact Or.inl rfl
  | negInf => rw [hr] at h; cases h
  | fin d =>
      rw [hr, le_fin_fin, decide_eq_true_eq] at h
      exact Or.inr ⟨d, rfl, h⟩

/-- A sum `1 + e` is not zero. -/
theorem one_add_ne_zero {e : FloatValue K} (he : e = .nan ∨ e.InUnit) :
    r.add (.fin 1) e ≠ .fin 0 := by
  rcases he with rfl | he
  · exact nofun
  · rcases r.one_add_of_inUnit he with h | ⟨d, h, hd⟩
    · rw [h]
      exact nofun
    · rw [h]
      intro h0
      cases h0
      exact absurd hd (not_le_of_gt zero_lt_one)

/-- **A share stays a share**, however the sum and the quotient are rounded. -/
theorem div_one_add_inUnit {x e : FloatValue K} (hx : x.InUnit) (he : e.InUnit) :
    (r.div x (r.add (.fin 1) e)).InUnit := by
  obtain ⟨p, rfl, hp0, hp1⟩ := hx
  rcases r.one_add_of_inUnit he with h | ⟨d, h, hd⟩
  · rw [h]
    exact ⟨0, rfl, le_refl 0, zero_le_one⟩
  · rw [h]
    have hdpos : 0 < d := lt_of_lt_of_le zero_lt_one hd
    refine r.round_inUnit (div_nonneg hp0 (le_of_lt hdpos)) ?_
    rw [div_le_one hdpos]
    exact le_trans hp1 hd

end Rounding

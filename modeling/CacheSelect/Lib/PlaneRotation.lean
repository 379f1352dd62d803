import Mathlib.Algebra.Ring.Basic
import Mathlib.Tactic.Ring

/-! # Turning the pairs of a row

`PlaneRotation` is what is used of cosine and sine: the addition laws, over any angles that can be
added.  A row of `2 * half` components is turned pair by pair (`turnHalves`): component `d` of the first half
belongs to component `half + d` of the second, and each pair has its own angle.  Turning twice is turning
by the sums of the angles (`turnHalves_turnHalves`).
-/

structure PlaneRotation (A R : Type*) [Add A] [CommRing R] where
  cos : A → R
  sin : A → R
  cos_add : ∀ a b, cos (a + b) = cos a * cos b - sin a * sin b
  sin_add : ∀ a b, sin (a + b) = sin a * cos b + cos a * sin b

namespace PlaneRotation

variable {A R : Type*} [Add A] [CommRing R] (rot : PlaneRotation A R)

/-- The components of a row whose pairs are turned. -/
def turnHalves (half : Nat) (angle : Nat → A) (row : Nat → R) (d : Nat) : R :=
  if d < half then row d * rot.cos (angle d) - row (half + d) * rot.sin (angle d)
  else row d * rot.cos (angle (d - half)) + row (d - half) * rot.sin (angle (d - half))

/-- Only the components below `2 * half` count. -/
theorem turnHalves_congr {half : Nat} {angle : Nat → A} {row row' : Nat → R}
    (h : ∀ d < 2 * half, row d = row' d) :
    ∀ d < 2 * half, rot.turnHalves half angle row d = rot.turnHalves half angle row' d := by
  intro d hd
  rw [turnHalves, turnHalves]
  split
  · rw [h d hd, h (half + d) (by omega)]
  · rw [h d hd, h (d - half) (by omega)]

/-- **Turning twice adds the angles.** -/
theorem turnHalves_turnHalves (half : Nat) (angle angle' : Nat → A) (row : Nat → R) :
    ∀ d < 2 * half, rot.turnHalves half angle' (rot.turnHalves half angle row) d
      = rot.turnHalves half (fun i => angle i + angle' i) row d := by
  intro d hd
  by_cases hlt : d < half
  · have hsecond : ¬ half + d < half := by omega
    simp only [turnHalves, if_pos hlt, if_neg hsecond, Nat.add_sub_cancel_left, rot.cos_add,
      rot.sin_add]
    ring
  · have hfirst : d - half < half := by omega
    have hback : half + (d - half) = d := by omega
    simp only [turnHalves, if_neg hlt, if_pos hfirst, hback, rot.cos_add, rot.sin_add]
    ring

end PlaneRotation

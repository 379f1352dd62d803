import Mathlib.Data.List.Infix
import Mathlib.Tactic.Common

/-! # What two lists share at both ends

Two lists are cut into a longest common beginning, a longest common ending of what is left, and the
two middles (`Splits`).  The ending is the longest that does not reach into the beginning in either
list, so that repeated elements are not counted twice.  `splits_of_counts` builds the cut from two
numbers that nothing exceeds, and the middles are empty exactly when the lists are equal
(`Splits.middles_nil_iff`).
-/

namespace Affix

variable {α : Type*}

structure Splits (l r p a b s : List α) : Prop where
  left : l = p ++ a ++ s
  right : r = p ++ b ++ s
  longestStart : ∀ q, q <+: l → q <+: r → q <+: p
  longestEnd : ∀ t, t <:+ l → t <:+ r → p.length + t.length ≤ min l.length r.length → t <:+ s

/-- The beginning and the ending do not overlap in the shorter list. -/
theorem Splits.disjoint {l r p a b s : List α} (h : Splits l r p a b s) :
    p.length + s.length ≤ min l.length r.length := by
  have hl : l.length = p.length + a.length + s.length := by
    rw [h.left, List.length_append, List.length_append]
  have hr : r.length = p.length + b.length + s.length := by
    rw [h.right, List.length_append, List.length_append]
  omega

/-- **Nothing changed exactly when both middles are empty.** -/
theorem Splits.middles_nil_iff {l r p a b s : List α} (h : Splits l r p a b s) :
    a = [] ∧ b = [] ↔ l = r := by
  constructor
  · rintro ⟨rfl, rfl⟩
    rw [h.left, h.right]
  · intro heq
    -- equal lists share all of either
    have hall : l <+: p := h.longestStart l (List.prefix_refl l) (heq ▸ List.prefix_refl l)
    have hl : l.length = p.length + a.length + s.length := by
      rw [h.left, List.length_append, List.length_append]
    have hr : r.length = p.length + b.length + s.length := by
      rw [h.right, List.length_append, List.length_append]
    have hle := hall.length_le
    have hlr := congrArg List.length heq
    exact ⟨List.eq_nil_of_length_eq_zero (by omega), List.eq_nil_of_length_eq_zero (by omega)⟩

/-- A list is its beginning, its middle and its ending. -/
theorem eq_take_drop (l : List α) {n m : Nat} (h : n + m ≤ l.length) :
    l = l.take n ++ (l.take (l.length - m)).drop n ++ l.drop (l.length - m) := by
  have hstart : (l.take (l.length - m)).take n = l.take n := by
    rw [List.take_take, Nat.min_eq_left (by omega)]
  rw [← hstart, List.take_append_drop, List.take_append_drop]

/-- **The cut at two numbers** that count a longest common beginning and then a longest common
ending. -/
theorem splits_of_counts {l r : List α} {n m : Nat} (hfit : n + m ≤ min l.length r.length)
    (hstart : l.take n = r.take n)
    (hlongest : ∀ k, k ≤ min l.length r.length → l.take k = r.take k → k ≤ n)
    (hend : l.drop (l.length - m) = r.drop (r.length - m))
    (hfurthest : ∀ k, n + k ≤ min l.length r.length →
      l.drop (l.length - k) = r.drop (r.length - k) → k ≤ m) :
    Splits l r (l.take n) ((l.take (l.length - m)).drop n) ((r.take (r.length - m)).drop n)
      (l.drop (l.length - m)) where
  left := eq_take_drop l (by omega)
  right := by
    rw [hstart, hend]
    exact eq_take_drop r (by omega)
  longestStart := by
    intro q hl hr
    have hle : q.length ≤ n := by
      apply hlongest
      · have h1 := hl.length_le
        have h2 := hr.length_le
        omega
      · rw [← List.prefix_iff_eq_take.mp hl, ← List.prefix_iff_eq_take.mp hr]
    rw [List.prefix_iff_eq_take, List.take_take, Nat.min_eq_left hle]
    exact List.prefix_iff_eq_take.mp hl
  longestEnd := by
    intro t hl hr hapart
    have hn : (l.take n).length = n := by
      rw [List.length_take]
      omega
    rw [hn] at hapart
    have hle : t.length ≤ m := by
      apply hfurthest _ hapart
      rw [← List.suffix_iff_eq_drop.mp hl, ← List.suffix_iff_eq_drop.mp hr]
    rw [List.suffix_iff_eq_drop, List.drop_drop, List.length_drop]
    have hplace : l.length - m + (l.length - (l.length - m) - t.length) = l.length - t.length := by
      have h1 := hl.length_le
      omega
    rw [hplace]
    exact List.suffix_iff_eq_drop.mp hl

end Affix

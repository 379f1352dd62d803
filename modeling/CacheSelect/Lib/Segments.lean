import Mathlib.Data.List.Basic
import Mathlib.Algebra.BigOperators.Group.List.Basic
import Mathlib.Tactic.Common
import Mathlib.Algebra.Ring.Nat

/-! # Consecutive segments

`slice l a b` are the elements of a list from index `a` up to `b`.  Items with a start and an end tile an
interval (`Tiles`) when they are nonempty and each starts where the one before it ends: then their
lengths add up to that of the interval, and the slices at adjacent segments join (`slice_append`).
-/

namespace Segments

variable {α β : Type*}

/-- The elements at the indices `a ≤ i < b`. -/
def slice (l : List α) (a b : Nat) : List α :=
  (l.drop a).take (b - a)

@[simp] theorem slice_self (l : List α) (a : Nat) : slice l a a = [] := by
  rw [slice, Nat.sub_self, List.take_zero]

theorem length_slice (l : List α) {a b : Nat} (hb : b ≤ l.length) :
    (slice l a b).length = b - a := by
  rw [slice, List.length_take, List.length_drop]
  omega

theorem slice_append (l : List α) {a b c : Nat} (hab : a ≤ b) (hbc : b ≤ c) :
    slice l a b ++ slice l b c = slice l a c := by
  have hc : c - a = (b - a) + (c - b) := by omega
  have hb : b = a + (b - a) := by omega
  rw [slice, slice, slice, hc, List.take_add, List.drop_drop, ← hb]

/-- Segments of a list that stands inside another. -/
theorem slice_append_middle (xs l ys : List α) {a b : Nat} (hb : b ≤ l.length) :
    slice (xs ++ (l ++ ys)) (xs.length + a) (xs.length + b) = slice l a b := by
  rw [slice, slice, List.drop_append, List.drop_of_length_le (Nat.le_add_right _ _),
    List.nil_append, Nat.add_sub_cancel_left, Nat.add_sub_add_left]
  rcases Nat.lt_or_ge b a with h | h
  · rw [Nat.sub_eq_zero_of_le (Nat.le_of_lt h), List.take_zero, List.take_zero]
  · rw [List.drop_append_of_le_length (Nat.le_trans h hb), List.take_append_of_le_length]
    rw [List.length_drop]
    omega

/-- A segment of a segment. -/
theorem slice_slice (l : List α) {a b c d : Nat} (h : a + d ≤ b) :
    slice (slice l a b) c d = slice l (a + c) (a + d) := by
  rw [slice, slice, slice, List.drop_take, List.take_take, List.drop_drop, Nat.add_sub_add_left]
  congr 1
  omega

/-- The starts of the segments of given lengths. -/
theorem scanl_add_getD {lens : List Nat} {i : Nat} (hi : i ≤ lens.length) :
    (lens.scanl (· + ·) 0).getD i 0 = (lens.take i).sum := by
  rw [List.getD_eq_getElem?_getD, List.getElem?_scanl, if_pos hi, Option.getD_some,
    ← List.sum_eq_foldl_nat]

/-- Segments of one part of a concatenation. -/
theorem slice_flatten : ∀ {ls : List (List α)} {i : Nat} {l : List α}, ls[i]? = some l →
    ∀ {a b : Nat}, b ≤ l.length →
      slice ls.flatten (((ls.map List.length).take i).sum + a)
        (((ls.map List.length).take i).sum + b) = slice l a b := by
  intro ls i l hl a b hb
  have hi : i < ls.length := (List.getElem?_eq_some_iff.mp hl).1
  have hget : ls[i] = l := (List.getElem?_eq_some_iff.mp hl).2
  have hsplit : ls.flatten = (ls.take i).flatten ++ (l ++ (ls.drop (i + 1)).flatten) := by
    conv_lhs => rw [← List.take_append_drop i ls, List.drop_eq_getElem_cons hi, hget]
    rw [List.flatten_append, List.flatten_cons]
  have hsum : ((ls.map List.length).take i).sum = (ls.take i).flatten.length := by
    rw [List.length_flatten, List.map_take]
  rw [hsplit, hsum, slice_append_middle _ _ _ hb]

/-- The ends of the segments of given lengths increase. -/
theorem sum_take_le_sum_take (lens : List Nat) {i j : Nat} (h : i ≤ j) :
    (lens.take i).sum ≤ (lens.take j).sum := by
  obtain ⟨k, rfl⟩ := Nat.exists_eq_add_of_le h
  rw [List.take_add, List.sum_append]
  exact Nat.le_add_right _ _

/-- Nonempty items that follow one another from `a` to `b`. -/
def Tiles (start stop : α → Nat) : Nat → List α → Nat → Prop
  | a, [], b => a = b
  | a, x :: xs, b => start x = a ∧ a < stop x ∧ Tiles start stop (stop x) xs b

variable {start stop : α → Nat}

theorem Tiles.le : ∀ {xs : List α} {a b : Nat}, Tiles start stop a xs b → a ≤ b := by
  intro xs
  induction xs with
  | nil => intro a b h; exact Nat.le_of_eq h
  | cons x xs ih =>
      intro a b h
      have := ih h.2.2
      have := h.2.1
      omega

theorem Tiles.append : ∀ {xs ys : List α} {a b c : Nat}, Tiles start stop a xs b →
    Tiles start stop b ys c → Tiles start stop a (xs ++ ys) c := by
  intro xs
  induction xs with
  | nil =>
      intro ys a b c h hys
      have hab : a = b := h
      subst hab
      exact hys
  | cons x xs ih =>
      intro ys a b c h hys
      exact ⟨h.1, h.2.1, ih h.2.2 hys⟩

/-- The lengths of a tiling add up. -/
theorem Tiles.sum_lengths : ∀ {xs : List α} {a b : Nat}, Tiles start stop a xs b →
    (xs.map fun x => stop x - start x).sum = b - a := by
  intro xs
  induction xs with
  | nil => intro a b h; have hab : a = b := h; subst hab; simp
  | cons x xs ih =>
      intro a b h
      have hle := h.2.2.le
      have hlt := h.2.1
      rw [List.map_cons, List.sum_cons, ih h.2.2, h.1]
      omega

/-- **The slices of a tiling join** to the slice of the interval. -/
theorem Tiles.flatMap_slice (l : List β) : ∀ {xs : List α} {a b : Nat}, Tiles start stop a xs b →
    (xs.flatMap fun x => slice l (start x) (stop x)) = slice l a b := by
  intro xs
  induction xs with
  | nil =>
      intro a b h
      have hab : a = b := h
      subst hab
      rw [List.flatMap_nil, slice_self]
  | cons x xs ih =>
      intro a b h
      have hlt := h.2.1
      rw [List.flatMap_cons, ih h.2.2, h.1, slice_append l (Nat.le_of_lt hlt) h.2.2.le]

/-- Segments of a longer list. -/
theorem slice_append_of_le (l l' : List α) {a b : Nat} (hb : b ≤ l.length) :
    slice (l ++ l') a b = slice l a b := by
  have h := slice_append_middle [] l l' (a := a) hb
  rwa [List.nil_append, List.length_nil, Nat.zero_add, Nat.zero_add] at h

end Segments

import Mathlib.Algebra.Order.Monoid.Defs
import Mathlib.Data.Finset.Max
import Mathlib.Data.List.Sort
import Mathlib.Tactic.Common

/-! # Cuts of a list

A threshold cuts a list of values into those below it and the others; `Cut.below` counts the former.  A cut depends
on the threshold only through the next value of the list (`Cut.exists_same_cut`), so among the thresholds with some
property that depends on the cut alone, the greatest one taken from the list is the best
(`Cut.below_le_of_greatest`).

A value of a sorted list has at most as many values below it as its index says (`Cut.below_getElem_le`), and more
than that are not above it (`Cut.lt_countP_getElem`).
-/

namespace Cut

variable {α : Type*} [LinearOrder α]

def below (ps : List α) (t : α) : Nat :=
  ps.countP fun p => p < t

theorem below_congr {ps : List α} {s t : α} (h : ∀ p ∈ ps, p < s ↔ p < t) : below ps s = below ps t := by
  refine List.countP_congr ?_
  intro p hp
  rw [decide_eq_true_eq, decide_eq_true_eq]
  exact h p hp

theorem below_mono (ps : List α) {s t : α} (h : s ≤ t) : below ps s ≤ below ps t := by
  refine List.countP_mono_left ?_
  intro p _ hp
  rw [decide_eq_true_eq] at hp ⊢
  exact lt_of_lt_of_le hp h

theorem below_perm {ps qs : List α} (h : ps.Perm qs) (t : α) : below ps t = below qs t :=
  h.countP_eq _

/-- A threshold that some value reaches cuts like the least such value. -/
theorem exists_same_cut {ps : List α} {t : α} (h : ∃ p ∈ ps, t ≤ p) :
    ∃ q ∈ ps, t ≤ q ∧ ∀ p ∈ ps, p < q ↔ p < t := by
  obtain ⟨p, hp, htp⟩ := h
  have hne : (ps.toFinset.filter fun q => t ≤ q).Nonempty :=
    ⟨p, Finset.mem_filter.mpr ⟨List.mem_toFinset.mpr hp, htp⟩⟩
  obtain ⟨q, hq, hmin⟩ := Finset.exists_min_image _ id hne
  rw [Finset.mem_filter, List.mem_toFinset] at hq
  refine ⟨q, hq.1, hq.2, ?_⟩
  intro r hr
  refine ⟨?_, fun hrt => lt_of_lt_of_le hrt hq.2⟩
  intro hrq
  by_contra hle
  have hmem : r ∈ ps.toFinset.filter fun q => t ≤ q :=
    Finset.mem_filter.mpr ⟨List.mem_toFinset.mpr hr, not_lt.mp hle⟩
  exact absurd (hmin r hmem) (not_le.mpr hrq)

/-- **The greatest admissible value of the list is the best threshold**: what is admissible depends on the cut, and
an admissible threshold is reached by some value. -/
theorem below_le_of_greatest {ps : List α} {A : α → Prop}
    (hcut : ∀ s t, (∀ p ∈ ps, p < s ↔ p < t) → A s → A t)
    (hreached : ∀ t, A t → ∃ p ∈ ps, t ≤ p) {best : α}
    (hbest : ∀ q ∈ ps, A q → q ≤ best) {t : α} (ht : A t) :
    below ps t ≤ below ps best := by
  obtain ⟨q, hq, -, hsame⟩ := exists_same_cut (hreached t ht)
  have hadm : A q := hcut t q (fun p hp => (hsame p hp).symm) ht
  calc below ps t = below ps q := below_congr fun p hp => (hsame p hp).symm
    _ ≤ below ps best := below_mono ps (hbest q hq hadm)

/-! ### Sorted lists -/

theorem below_getElem_le {s : List α} (h : s.Pairwise (· ≤ ·)) {k : Nat} (hk : k < s.length) :
    below s s[k] ≤ k := by
  have hsplit := List.take_append_drop k s
  have hdrop : (s.drop k).countP (fun p => p < s[k]) = 0 := by
    rw [List.countP_eq_zero]
    intro p hp hlt
    obtain ⟨j, hj, rfl⟩ := List.mem_iff_getElem.mp hp
    rw [List.getElem_drop, decide_eq_true_eq] at hlt
    rcases Nat.eq_zero_or_pos j with rfl | hpos
    · exact absurd hlt (lt_irrefl _)
    · rw [List.length_drop] at hj
      have hle := List.pairwise_iff_getElem.mp h k (k + j) hk (by omega) (by omega)
      exact absurd hlt (not_lt.mpr hle)
  calc below s s[k] = below (s.take k ++ s.drop k) s[k] := by rw [hsplit]
    _ = (s.take k).countP (fun p => p < s[k]) := by
        rw [below, List.countP_append, hdrop, Nat.add_zero]
    _ ≤ (s.take k).length := List.countP_le_length
    _ ≤ k := List.length_take_le k s

theorem lt_countP_getElem {s : List α} (h : s.Pairwise (· ≤ ·)) {k : Nat} (hk : k < s.length) :
    k < s.countP fun p => p ≤ s[k] := by
  have hall : (s.take (k + 1)).countP (fun p => p ≤ s[k]) = (s.take (k + 1)).length := by
    rw [List.countP_eq_length]
    intro p hp
    obtain ⟨j, hj, rfl⟩ := List.mem_iff_getElem.mp hp
    rw [List.length_take] at hj
    rw [List.getElem_take, decide_eq_true_eq]
    rcases Nat.lt_or_ge j k with hjk | hjk
    · exact List.pairwise_iff_getElem.mp h j k (by omega) hk hjk
    · have hj : j = k := by omega
      subst hj
      exact le_refl _
  have hlength : k < (s.take (k + 1)).length := by
    rw [List.length_take]
    omega
  rw [← hall] at hlength
  exact lt_of_lt_of_le hlength (List.take_sublist _ _).countP_le

end Cut

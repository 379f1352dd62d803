import Mathlib.Data.List.Basic
import Mathlib.Data.List.Sort
import Mathlib.Tactic.Common
import Mathlib.Order.Basic

/-! # Maximal runs of a strictly increasing list

`spans l` cuts a strictly increasing list of numbers into half-open intervals `[start, stop)` by one
pass that closes the current interval whenever the next number does not continue it.  For a strictly
increasing list the intervals cover exactly the numbers of the list (`mem_spans_iff`), no number
touches an interval from outside (`spans_maximal`), and they come in order with a gap between any two
(`spans_pairwise`).
-/

namespace Spans

/-- The pass: `start` opened the current interval and `prev` is the last number seen. -/
def spansFrom (start prev : Nat) : List Nat → List (Nat × Nat)
  | [] => [(start, prev + 1)]
  | x :: rest =>
      if x = prev + 1 then spansFrom start x rest
      else (start, prev + 1) :: spansFrom x x rest

def spans : List Nat → List (Nat × Nat)
  | [] => []
  | x :: rest => spansFrom x x rest

/-- The numbers that the intervals of a list cover. -/
def Covers (ss : List (Nat × Nat)) (x : Nat) : Prop :=
  ∃ s ∈ ss, s.1 ≤ x ∧ x < s.2

theorem spansFrom_covers : ∀ (l : List Nat) (start prev x : Nat), start ≤ prev →
    (prev :: l).Pairwise (· < ·) →
    (Covers (spansFrom start prev l) x ↔ (start ≤ x ∧ x ≤ prev) ∨ x ∈ l) := by
  intro l
  induction l with
  | nil =>
      intro start prev x hle _
      simp only [spansFrom, Covers, List.mem_singleton, exists_eq_left, List.not_mem_nil, or_false]
      omega
  | cons y rest ih =>
      intro start prev x hle hp
      have hlt : prev < y := (List.pairwise_cons.mp hp).1 y (by simp)
      have hrest := (List.pairwise_cons.mp hp).2
      rw [spansFrom]
      by_cases hy : y = prev + 1
      · rw [if_pos hy, ih start y x (by omega) hrest, List.mem_cons]
        constructor
        · rintro (⟨h1, h2⟩ | h)
          · by_cases hx : x = y
            · exact Or.inr (Or.inl hx)
            · exact Or.inl ⟨h1, by omega⟩
          · exact Or.inr (Or.inr h)
        · rintro (⟨h1, h2⟩ | rfl | h)
          · exact Or.inl ⟨h1, by omega⟩
          · exact Or.inl ⟨by omega, Nat.le_refl _⟩
          · exact Or.inr h
      · rw [if_neg hy]
        have hsplit : Covers ((start, prev + 1) :: spansFrom y y rest) x
            ↔ (start ≤ x ∧ x < prev + 1) ∨ Covers (spansFrom y y rest) x := by
          simp [Covers]
        rw [hsplit, ih y y x (Nat.le_refl _) hrest, List.mem_cons]
        constructor
        · rintro (⟨h1, h2⟩ | ⟨h1, h2⟩ | h)
          · exact Or.inl ⟨h1, by omega⟩
          · exact Or.inr (Or.inl (by omega))
          · exact Or.inr (Or.inr h)
        · rintro (⟨h1, h2⟩ | rfl | h)
          · exact Or.inl ⟨h1, by omega⟩
          · exact Or.inr (Or.inl ⟨Nat.le_refl _, Nat.le_refl _⟩)
          · exact Or.inr (Or.inr h)

/-- **The intervals cover exactly the list.** -/
theorem spans_covers {l : List Nat} (hl : l.Pairwise (· < ·)) (x : Nat) :
    Covers (spans l) x ↔ x ∈ l := by
  cases l with
  | nil => simp [spans, Covers]
  | cons y rest =>
      rw [spans, spansFrom_covers rest y y x (Nat.le_refl _) hl, List.mem_cons]
      constructor
      · rintro (⟨h1, h2⟩ | h)
        · exact Or.inl (by omega)
        · exact Or.inr h
      · rintro (rfl | h)
        · exact Or.inl ⟨Nat.le_refl _, Nat.le_refl _⟩
        · exact Or.inr h

/-- Intervals are not empty, start no earlier than the pass, and leave a gap before the next. -/
theorem spansFrom_ordered : ∀ (l : List Nat) (start prev : Nat), start ≤ prev →
    (prev :: l).Pairwise (· < ·) →
    (∀ s ∈ spansFrom start prev l, start ≤ s.1 ∧ s.1 < s.2) ∧
    (spansFrom start prev l).Pairwise (fun s t => s.2 < t.1) := by
  intro l
  induction l with
  | nil =>
      intro start prev hle _
      refine ⟨?_, by simp [spansFrom]⟩
      intro s hs
      simp only [spansFrom, List.mem_singleton] at hs
      subst hs
      exact ⟨Nat.le_refl _, Nat.lt_succ_of_le hle⟩
  | cons y rest ih =>
      intro start prev hle hp
      have hlt : prev < y := (List.pairwise_cons.mp hp).1 y (by simp)
      have hrest := (List.pairwise_cons.mp hp).2
      rw [spansFrom]
      by_cases hy : y = prev + 1
      · rw [if_pos hy]
        exact ih start y (by omega) hrest
      · rw [if_neg hy]
        obtain ⟨h1, h2⟩ := ih y y (Nat.le_refl _) hrest
        refine ⟨?_, List.pairwise_cons.mpr ⟨?_, h2⟩⟩
        · intro s hs
          rcases List.mem_cons.mp hs with rfl | hs
          · exact ⟨Nat.le_refl _, Nat.lt_succ_of_le hle⟩
          · have := h1 s hs
            exact ⟨by omega, this.2⟩
        · intro t ht
          have := (h1 t ht).1
          change prev + 1 < t.1
          omega

theorem spans_nonempty {l : List Nat} (hl : l.Pairwise (· < ·)) :
    ∀ s ∈ spans l, s.1 < s.2 := by
  cases l with
  | nil => intro s hs; simp [spans] at hs
  | cons y rest =>
      intro s hs
      exact ((spansFrom_ordered rest y y (Nat.le_refl _) hl).1 s hs).2

/-- **The intervals come in order**, with a gap between any two. -/
theorem spans_pairwise {l : List Nat} (hl : l.Pairwise (· < ·)) :
    (spans l).Pairwise (fun s t => s.2 < t.1) := by
  cases l with
  | nil => exact List.Pairwise.nil
  | cons y rest => exact (spansFrom_ordered rest y y (Nat.le_refl _) hl).2

theorem eq_of_mem_of_pairwise {ss : List (Nat × Nat)} (hp : ss.Pairwise (fun s t => s.2 < t.1))
    (hne : ∀ s ∈ ss, s.1 < s.2) {s t : Nat × Nat} (hs : s ∈ ss) (ht : t ∈ ss) {x : Nat}
    (h1 : s.1 ≤ x ∧ x ≤ s.2) (h2 : t.1 ≤ x ∧ x < t.2) : s = t := by
  induction ss with
  | nil => simp at hs
  | cons a ss ih =>
      obtain ⟨ha, hrest⟩ := List.pairwise_cons.mp hp
      have hne' : ∀ s ∈ ss, s.1 < s.2 := fun s hs => hne s (by simp [hs])
      rcases List.mem_cons.mp hs with hsa | hs'
      · rcases List.mem_cons.mp ht with hta | ht'
        · rw [hsa, hta]
        · have := ha t ht'
          rw [hsa] at h1
          omega
      · rcases List.mem_cons.mp ht with hta | ht'
        · have := ha s hs'
          rw [hta] at h2
          have := hne a (by simp)
          omega
        · exact ih hrest hne' hs' ht'

/-- **The intervals are maximal**: the numbers just outside an interval are not in the list. -/
theorem spans_maximal {l : List Nat} (hl : l.Pairwise (· < ·)) {s : Nat × Nat}
    (hs : s ∈ spans l) : s.2 ∉ l ∧ ∀ x, x + 1 = s.1 → x ∉ l := by
  have hp := spans_pairwise hl
  have hne := spans_nonempty hl
  refine ⟨?_, ?_⟩
  · intro hx
    obtain ⟨t, ht, h1, h2⟩ := (spans_covers hl s.2).mpr hx
    have hst := hne s hs
    have := eq_of_mem_of_pairwise hp hne hs ht ⟨by omega, Nat.le_refl _⟩ ⟨h1, h2⟩
    subst this
    omega
  · intro x hxs hx
    obtain ⟨t, ht, h1, h2⟩ := (spans_covers hl x).mpr hx
    have hst := hne s hs
    have := eq_of_mem_of_pairwise hp hne ht hs ⟨by omega, by omega⟩ ⟨by omega, hst⟩
      (x := s.1)
    subst this
    omega

theorem flatMap_spansFrom : ∀ (l : List Nat) (start prev : Nat), start ≤ prev →
    (spansFrom start prev l).flatMap (fun s => List.range' s.1 (s.2 - s.1))
      = List.range' start (prev + 1 - start) ++ l := by
  intro l
  induction l with
  | nil =>
      intro start prev _
      rw [spansFrom, List.flatMap_singleton, List.append_nil]
  | cons x rest ih =>
      intro start prev hle
      rw [spansFrom]
      by_cases hx : x = prev + 1
      · have hlength : x + 1 - start = prev + 1 - start + 1 := by omega
        have hlast : start + (prev + 1 - start) = x := by omega
        rw [if_pos hx, ih start x (by omega), hlength, List.range'_1_concat, hlast, List.append_assoc]
        rfl
      · rw [if_neg hx, List.flatMap_cons, ih x x (Nat.le_refl _), Nat.add_sub_cancel_left]
        rfl

/-- **The intervals, one after the other**, are the list. -/
theorem flatMap_spans (l : List Nat) :
    (spans l).flatMap (fun s => List.range' s.1 (s.2 - s.1)) = l := by
  cases l with
  | nil => rfl
  | cons x rest =>
      rw [spans, flatMap_spansFrom rest x x (Nat.le_refl _), Nat.add_sub_cancel_left]
      rfl

/-- A longest interval of numbers of the list. -/
structure Maximal (l : List Nat) (s : Nat × Nat) : Prop where
  nonempty : s.1 < s.2
  mem : ∀ x, s.1 ≤ x → x < s.2 → x ∈ l
  stop : s.2 ∉ l
  start : ∀ x, x + 1 = s.1 → x ∉ l

/-- Two longest intervals with a number in common are one. -/
theorem Maximal.unique {l : List Nat} {s t : Nat × Nat} (hs : Maximal l s) (ht : Maximal l t) {x : Nat}
    (hxs : s.1 ≤ x ∧ x < s.2) (hxt : t.1 ≤ x ∧ x < t.2) : s = t := by
  have hstart : ∀ {s t : Nat × Nat}, Maximal l s → Maximal l t → s.1 ≤ x ∧ x < s.2 → t.1 ≤ x ∧ x < t.2 →
      t.1 ≤ s.1 := by
    intro s t hs ht hxs hxt
    refine Nat.le_of_not_lt fun hlt => ?_
    exact ht.start (t.1 - 1) (by omega) (hs.mem _ (by omega) (by omega))
  have hstop : ∀ {s t : Nat × Nat}, Maximal l s → Maximal l t → s.1 ≤ x ∧ x < s.2 → t.1 ≤ x ∧ x < t.2 →
      s.2 ≤ t.2 := by
    intro s t hs ht hxs hxt
    refine Nat.le_of_not_lt fun hlt => ?_
    exact ht.stop (hs.mem _ (by omega) hlt)
  refine Prod.ext ?_ ?_
  · exact Nat.le_antisymm (hstart ht hs hxt hxs) (hstart hs ht hxs hxt)
  · exact Nat.le_antisymm (hstop hs ht hxs hxt) (hstop ht hs hxt hxs)

/-- **The intervals of the pass** are the longest ones. -/
theorem mem_spans_iff {l : List Nat} (hl : l.Pairwise (· < ·)) {s : Nat × Nat} : s ∈ spans l ↔ Maximal l s := by
  have hmaximal : ∀ t ∈ spans l, Maximal l t := by
    intro t ht
    obtain ⟨hstop, hstart⟩ := spans_maximal hl ht
    exact ⟨spans_nonempty hl t ht, fun x h h' => (spans_covers hl x).mp ⟨t, ht, h, h'⟩, hstop, hstart⟩
  refine ⟨hmaximal s, fun hs => ?_⟩
  obtain ⟨t, ht, hle, hlt⟩ := (spans_covers hl s.1).mpr (hs.mem _ (Nat.le_refl _) hs.nonempty)
  rw [hs.unique (hmaximal t ht) ⟨Nat.le_refl _, hs.nonempty⟩ ⟨hle, hlt⟩]
  exact ht

end Spans

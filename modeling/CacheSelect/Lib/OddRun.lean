import Mathlib.Algebra.Ring.Parity
import Mathlib.Tactic.Common

/-! # Every other one of a row

A loop over the numbers marks those with a property, but none whose predecessor is marked.  In a row of
consecutive numbers with the property it marks every other one: the numbers at which a row of odd length ends
(`marked_iff_oddRun`).
-/

variable {jump mark : Nat → Prop}

/-- A row of jumps of odd length ends at `n`. -/
def OddRun (jump : Nat → Prop) (n : Nat) : Prop :=
  ∃ k, k ≤ n ∧ Odd (n + 1 - k) ∧ (∀ u, k ≤ u → u ≤ n → jump u) ∧ ∀ j, j + 1 = k → ¬ jump j

/-- A row of jumps has one beginning. -/
theorem run_unique {n k k' : Nat} (hk : ∀ u, k ≤ u → u ≤ n → jump u)
    (hk' : ∀ j, j + 1 = k' → ¬ jump j) (hle : k' ≤ n + 1) : k' ≤ k := by
  by_contra hlt
  exact hk' (k' - 1) (by omega) (hk (k' - 1) (by omega) (by omega))

theorem oddRun_succ (n : Nat) : OddRun jump (n + 1) ↔ jump (n + 1) ∧ ¬ OddRun jump n := by
  constructor
  · rintro ⟨k, hk, hodd, hrun, hfirst⟩
    refine ⟨hrun (n + 1) hk (Nat.le_refl _), ?_⟩
    rintro ⟨k', hk', hodd', hrun', hfirst'⟩
    have h₁ : k' ≤ k := run_unique (n := n + 1) hrun hfirst' (by omega)
    have h₂ : k ≤ k' := run_unique hrun' hfirst (by omega)
    obtain rfl : k = k' := by omega
    rw [Nat.odd_iff] at hodd hodd'
    omega
  · rintro ⟨hjump, hno⟩
    by_cases hn : jump n
    · -- the row that ends at `n` has an even length
      obtain ⟨k, hk, hrun, hfirst⟩ : ∃ k, k ≤ n ∧ (∀ u, k ≤ u → u ≤ n → jump u) ∧
          ∀ j, j + 1 = k → ¬ jump j := by
        clear hno hjump
        induction n with
        | zero =>
            refine ⟨0, Nat.le_refl _, ?_, by omega⟩
            intro u _ hu
            obtain rfl : u = 0 := by omega
            exact hn
        | succ n ih =>
            by_cases hprev : jump n
            · obtain ⟨k, hk, hrun, hfirst⟩ := ih hprev
              refine ⟨k, by omega, ?_, hfirst⟩
              intro u hu hle
              rcases Nat.lt_or_ge n u with h | h
              · obtain rfl : u = n + 1 := by omega
                exact hn
              · exact hrun u hu h
            · refine ⟨n + 1, Nat.le_refl _, ?_, ?_⟩
              · intro u hu hle
                obtain rfl : u = n + 1 := by omega
                exact hn
              · intro j hj
                obtain rfl : j = n := by omega
                exact hprev
      refine ⟨k, by omega, ?_, ?_, hfirst⟩
      · have : ¬ Odd (n + 1 - k) := fun hodd => hno ⟨k, hk, hodd, hrun, hfirst⟩
        rw [Nat.odd_iff] at this ⊢
        omega
      · intro u hu hle
        rcases Nat.lt_or_ge n u with h | h
        · obtain rfl : u = n + 1 := by omega
          exact hjump
        · exact hrun u hu h
    · refine ⟨n + 1, Nat.le_refl _, by rw [Nat.odd_iff]; omega, ?_, ?_⟩
      · intro u hu hle
        obtain rfl : u = n + 1 := by omega
        exact hjump
      · intro j hj
        obtain rfl : j = n := by omega
        exact hn

theorem oddRun_zero : OddRun jump 0 ↔ jump 0 := by
  constructor
  · rintro ⟨k, hk, -, hrun, -⟩
    exact hrun 0 hk (Nat.le_refl _)
  · intro h
    refine ⟨0, Nat.le_refl _, by decide, ?_, by omega⟩
    intro u _ hu
    obtain rfl : u = 0 := by omega
    exact h

/-- **Marking a jump unless the one before it is marked** marks the odd ones of each row. -/
theorem marked_iff_oddRun (jump mark : Nat → Prop) (h : ∀ n, mark n ↔ jump n ∧ ∀ m, m + 1 = n → ¬ mark m) :
    ∀ n, mark n ↔ OddRun jump n := by
  intro n
  induction n with
  | zero =>
      rw [h, oddRun_zero]
      exact and_iff_left (by omega)
  | succ n ih =>
      rw [h, oddRun_succ, ← ih]
      refine and_congr_right fun _ => ⟨fun h => h n rfl, ?_⟩
      intro hn m hm
      obtain rfl : m = n := by omega
      exact hn

/-- Of a jump and the number before it one is marked. -/
theorem oddRun_of_jump {t : Nat} (h : jump t) :
    OddRun jump t ∨ ∃ u, u + 1 = t ∧ OddRun jump u := by
  cases t with
  | zero => exact Or.inl (oddRun_zero.mpr h)
  | succ t =>
      by_cases ht : OddRun jump t
      · exact Or.inr ⟨t, rfl, ht⟩
      · exact Or.inl ((oddRun_succ t).mpr ⟨h, ht⟩)

theorem OddRun.last {t : Nat} (h : OddRun jump t) : jump t := by
  obtain ⟨k, hk, -, hrun, -⟩ := h
  exact hrun t hk (Nat.le_refl _)

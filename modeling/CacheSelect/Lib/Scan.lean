import Mathlib.Data.List.Basic
import Mathlib.Tactic.Common

/-! # Scans

`Scan.run step s l` threads a state through a list and collects one output for each element.  The
lemmas are the ones a recurrence over a sequence needs: a run over a concatenation is the two runs
one after the other (`run_append`), a run has as many outputs as elements (`length_run`), and the outputs of
a segment are those of a run of its own (`drop_take_run`).
-/

namespace Scan

variable {σ α β : Type*}

/-- The final state and the outputs of a run. -/
def run (step : σ → α → σ × β) : σ → List α → σ × List β
  | s, [] => (s, [])
  | s, a :: as => ((run step (step s a).1 as).1, (step s a).2 :: (run step (step s a).1 as).2)

/-- The state a run ends in. -/
abbrev state (step : σ → α → σ × β) (s : σ) (l : List α) : σ :=
  (run step s l).1

variable (step : σ → α → σ × β)

@[simp] theorem run_nil (s : σ) : run step s [] = (s, []) := rfl

theorem run_append : ∀ (l l' : List α) (s : σ),
    run step s (l ++ l')
      = (state step (state step s l) l', (run step s l).2 ++ (run step (state step s l) l').2) := by
  intro l
  induction l with
  | nil => intro l' s; rfl
  | cons a l ih =>
      intro l' s
      rw [List.cons_append, run, ih l' (step s a).1]
      rfl

theorem state_append (l l' : List α) (s : σ) :
    state step s (l ++ l') = state step (state step s l) l' := by
  rw [state, run_append]

@[simp] theorem length_run : ∀ (l : List α) (s : σ), (run step s l).2.length = l.length := by
  intro l
  induction l with
  | nil => intro s; rfl
  | cons a l ih => intro s; rw [run, List.length_cons, ih, List.length_cons]

/-- The outputs of a segment are those of a run from the state before it. -/
theorem drop_take_run (l : List α) (s : σ) (n k : Nat) :
    ((run step s l).2.drop n).take k = (run step (state step s (l.take n)) ((l.drop n).take k)).2 := by
  have hdrop : (run step s l).2.drop n = (run step (state step s (l.take n)) (l.drop n)).2 := by
    conv_lhs => rw [← List.take_append_drop n l, run_append]
    rcases Nat.le_total n l.length with h | h
    · refine List.drop_left' ?_
      rw [length_run, List.length_take, Nat.min_eq_left h]
    · rw [List.drop_of_length_le h, run_nil, List.append_nil, List.drop_of_length_le]
      rw [length_run, List.length_take]
      exact Nat.le_trans (Nat.min_le_right _ _) h
  rw [hdrop]
  generalize l.drop n = l'
  conv_lhs => rw [← List.take_append_drop k l', run_append]
  rcases Nat.le_total k l'.length with h | h
  · refine List.take_left' ?_
    rw [length_run, List.length_take, Nat.min_eq_left h]
  · rw [List.drop_of_length_le h, run_nil, List.append_nil, List.take_of_length_le]
    rw [length_run, List.length_take]
    exact Nat.min_le_left _ _

end Scan

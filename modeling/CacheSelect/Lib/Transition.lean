import Mathlib.Logic.Relation

/-! # Deterministic transition systems with guarded runs

A system is a partial step function `step : σ → α → Option σ`: an action is either refused
(`none`) or leads to one next state.  A *guard* `ok : σ → α → Prop` says which steps a run may
take; `ReachableWhen step ok s₀` are the states reached by runs all of whose steps meet it, and
`Reachable` is the case of the guard that admits every step.

`ReachableWhen.invariant` is the rule every safety theorem over runs goes through, and
`exists_reachableWhen` finds a reachable state by evaluating a list of actions.
-/

namespace Transition

variable {σ α : Type*}

/-- One step that the guard admits. -/
def StepWhen (step : σ → α → Option σ) (ok : σ → α → Prop) (s s' : σ) : Prop :=
  ∃ a, ok s a ∧ step s a = some s'

/-- The states reached by runs all of whose steps meet the guard. -/
def ReachableWhen (step : σ → α → Option σ) (ok : σ → α → Prop) (s₀ : σ) : σ → Prop :=
  Relation.ReflTransGen (StepWhen step ok) s₀

/-- The states reached by any run. -/
abbrev Reachable (step : σ → α → Option σ) (s₀ : σ) : σ → Prop :=
  ReachableWhen step (fun _ _ => True) s₀

theorem ReachableWhen.refl (step : σ → α → Option σ) (ok : σ → α → Prop) (s₀ : σ) :
    ReachableWhen step ok s₀ s₀ :=
  Relation.ReflTransGen.refl

theorem ReachableWhen.tail {step : σ → α → Option σ} {ok : σ → α → Prop} {s₀ s s' : σ} {a : α}
    (h : ReachableWhen step ok s₀ s) (hok : ok s a) (hs : step s a = some s') :
    ReachableWhen step ok s₀ s' :=
  Relation.ReflTransGen.tail h ⟨a, hok, hs⟩

/-- **The invariant rule.**  What holds at the start and is kept by every admitted step holds in
every state an admitted run reaches. -/
theorem ReachableWhen.invariant {step : σ → α → Option σ} {ok : σ → α → Prop} {s₀ : σ}
    (P : σ → Prop) (h₀ : P s₀)
    (hstep : ∀ s a s', P s → ok s a → step s a = some s' → P s') :
    ∀ s, ReachableWhen step ok s₀ s → P s := by
  intro s h
  induction h with
  | refl => exact h₀
  | tail _ hs ih =>
      obtain ⟨a, hok, ha⟩ := hs
      exact hstep _ a _ ih hok ha

/-- A run under a guard is a run under any weaker one. -/
theorem ReachableWhen.mono {step : σ → α → Option σ} {ok ok' : σ → α → Prop} {s₀ s : σ}
    (hle : ∀ s a, ok s a → ok' s a) (h : ReachableWhen step ok s₀ s) :
    ReachableWhen step ok' s₀ s := by
  refine ReachableWhen.invariant (ReachableWhen step ok' s₀) (.refl _ _ _) ?_ s h
  intro s a s' hr hok hs
  exact hr.tail (hle s a hok) hs

theorem ReachableWhen.reachable {step : σ → α → Option σ} {ok : σ → α → Prop} {s₀ s : σ}
    (h : ReachableWhen step ok s₀ s) : Reachable step s₀ s :=
  h.mono fun _ _ _ => trivial

/-! ### Running a list of actions -/

/-- The state after the actions, unless one of them is refused or not admitted. -/
def runWhen (step : σ → α → Option σ) (ok : σ → α → Prop) [∀ s a, Decidable (ok s a)] :
    σ → List α → Option σ
  | s, [] => some s
  | s, a :: as => if ok s a then (step s a).bind fun s' => runWhen step ok s' as else none

/-- The state after the actions, unless one of them is refused. -/
abbrev run (step : σ → α → Option σ) : σ → List α → Option σ :=
  runWhen step fun _ _ => True

theorem reachableWhen_of_runWhen {step : σ → α → Option σ} {ok : σ → α → Prop}
    [∀ s a, Decidable (ok s a)] {s₀ s' : σ} :
    ∀ (as : List α) (s : σ), ReachableWhen step ok s₀ s → runWhen step ok s as = some s' →
      ReachableWhen step ok s₀ s' := by
  intro as
  induction as with
  | nil =>
      intro s h hr
      rw [runWhen, Option.some.injEq] at hr
      exact hr ▸ h
  | cons a as ih =>
      intro s h hr
      rw [runWhen, Option.ite_none_right_eq_some, Option.bind_eq_some_iff] at hr
      obtain ⟨hok, t, ht, hr⟩ := hr
      exact ih t (h.tail hok ht) hr

/-- A run that ends in a state with a property gives a reachable state with it. -/
theorem exists_reachableWhen (step : σ → α → Option σ) (ok : σ → α → Prop)
    [∀ s a, Decidable (ok s a)] (s₀ : σ) (as : List α) (P : σ → Bool)
    (h : (runWhen step ok s₀ as).any P = true) : ∃ s, ReachableWhen step ok s₀ s ∧ P s = true := by
  rw [Option.any_eq_true] at h
  obtain ⟨s, hs, hP⟩ := h
  exact ⟨s, reachableWhen_of_runWhen as s₀ (.refl _ _ _) hs, hP⟩

/-! ### Two systems on the same actions -/

section Lockstep

variable {τ : Type*}

/-- Every step that a run of the actions takes meets the guard. -/
def Admits (step : σ → α → Option σ) (ok : σ → α → Prop) : σ → List α → Prop
  | _, [] => True
  | s, a :: as => ok s a ∧ ∀ s', step s a = some s' → Admits step ok s' as

/-- Whether a check holds at every step of a run of the actions. -/
def checks (step : σ → α → Option σ) (check : σ → α → Bool) : σ → List α → Bool
  | _, [] => true
  | s, a :: as => check s a && (step s a).all fun s' => checks step check s' as

/-- A run whose steps pass a check that implies the guard meets the guard. -/
theorem admits_of_checks {step : σ → α → Option σ} {ok : σ → α → Prop} {check : σ → α → Bool}
    (h : ∀ s a, check s a = true → ok s a) : ∀ (as : List α) (s : σ),
      checks step check s as = true → Admits step ok s as := by
  intro as
  induction as with
  | nil => intro s _; trivial
  | cons a as ih =>
      intro s hs
      rw [checks, Bool.and_eq_true] at hs
      refine ⟨h s a hs.1, fun s' hs' => ih s' ?_⟩
      have := hs.2
      rwa [hs', Option.all_some] at this

/-- **The lockstep rule.**  When related states answer every admitted action alike, with a refusal
on both sides or with related states, two runs of the same actions end alike. -/
theorem rel_run_of_lockstep {step : σ → α → Option σ} {step' : τ → α → Option τ}
    {ok : σ → α → Prop} {R : σ → τ → Prop}
    (hstep : ∀ s t a, R s t → ok s a → Option.Rel R (step s a) (step' t a)) :
    ∀ (as : List α) (s : σ) (t : τ), R s t → Admits step ok s as →
      Option.Rel R (run step s as) (run step' t as) := by
  intro as
  induction as with
  | nil =>
      intro s t h _
      exact Option.Rel.some h
  | cons a as ih =>
      intro s t h hok
      have h1 := hstep s t a h hok.1
      rw [run, run, runWhen, runWhen, if_pos trivial, if_pos trivial]
      cases hs : step s a with
      | none =>
          rw [hs] at h1
          cases ht : step' t a with
          | none => exact Option.Rel.none
          | some t' => rw [ht] at h1; cases h1
      | some s' =>
          rw [hs] at h1
          cases ht : step' t a with
          | none => rw [ht] at h1; cases h1
          | some t' =>
              rw [ht] at h1
              cases h1 with
              | some h2 => exact ih s' t' h2 (hok.2 s' hs)

end Lockstep

end Transition

import Mathlib.Data.List.Induction
import Mathlib.Tactic.Common

/-! # A scan that keeps the best so far

A loop goes over a list once with the best element so far and its score; some elements are passed over, and
one that is looked at becomes the best if it beats the score.  `keepBest_run` says what such a loop ends
with: the first of the elements with the highest score.
-/

namespace FirstBest

variable {α β : Type*} (p : α → Prop) (score : α → Nat)

/-- Position `i` of a list holds the first of the elements with the highest score. -/
structure IsFirstBest (xs : List α) (i : Nat) (x : α) : Prop where
  get : xs[i]? = some x
  takes : p x
  best : ∀ (j : Nat) (y : α), xs[j]? = some y → p y → score y ≤ score x
  first : ∀ (j : Nat) (y : α), xs[j]? = some y → p y → j < i → score y < score x

theorem IsFirstBest.unique {xs : List α} {i j : Nat} {x y : α} (hx : IsFirstBest p score xs i x)
    (hy : IsFirstBest p score xs j y) : x = y := by
  have hij : i = j := by
    by_contra hne
    rcases Nat.lt_or_gt_of_ne hne with h | h
    · have h₁ := hy.first i x hx.get hx.takes h
      have h₂ := hx.best j y hy.get hy.takes
      omega
    · have h₁ := hx.first j y hy.get hy.takes h
      have h₂ := hy.best i x hx.get hx.takes
      omega
  have h := hx.get
  rw [hij, hy.get] at h
  exact (Option.some.inj h).symm

/-- What the scan has found so far: nothing, or the first best. -/
def Found (name : α → β) (least : Nat) (xs : List α) (best : Option β × Nat) : Prop :=
  (best = (none, least) ∧ ∀ x ∈ xs, p x → score x ≤ least) ∨
    ∃ i x, IsFirstBest p score xs i x ∧ least < score x ∧ best = (some (name x), score x)

theorem getElem?_snoc {xs : List α} {x y : α} {j : Nat} (h : (xs ++ [x])[j]? = some y) :
    xs[j]? = some y ∨ j = xs.length ∧ y = x := by
  rcases Nat.lt_or_ge j xs.length with hj | hj
  · rw [List.getElem?_append_left hj] at h
    exact Or.inl h
  · rw [List.getElem?_append_right hj] at h
    obtain ⟨hlt, hget⟩ := List.getElem?_eq_some_iff.mp h
    rw [List.length_singleton] at hlt
    exact Or.inr ⟨by omega, by rw [← hget, List.getElem_singleton]⟩

/-- **What one element changes**: an element that is taken and has more than the best so far becomes the
best, and all others leave it. -/
theorem Found.snoc {name : α → β} {least : Nat} {step : Option β × Nat → α → Option β × Nat}
    (htake : ∀ best x, p x → best.2 < score x → step best x = (some (name x), score x))
    (hskip : ∀ best x, (p x → score x ≤ best.2) → step best x = best) {xs : List α}
    {best : Option β × Nat} (h : Found p score name least xs best) (x : α) :
    Found p score name least (xs ++ [x]) (step best x) := by
  by_cases hx : p x ∧ best.2 < score x
  · rw [htake best x hx.1 hx.2]
    have hall : ∀ (j : Nat) (y : α), xs[j]? = some y → p y → score y < score x := by
      intro j y hy hp
      rcases h with ⟨rfl, hle⟩ | ⟨i, z, hz, -, rfl⟩
      · exact Nat.lt_of_le_of_lt (hle y (List.mem_of_getElem? hy) hp) hx.2
      · exact Nat.lt_of_le_of_lt (hz.best j y hy hp) hx.2
    refine Or.inr ⟨xs.length, x, ⟨by simp, hx.1, ?_, ?_⟩, ?_, rfl⟩
    · intro j y hy hp
      rcases getElem?_snoc hy with hy | ⟨-, rfl⟩
      · exact Nat.le_of_lt (hall j y hy hp)
      · exact Nat.le_refl _
    · intro j y hy hp hj
      rcases getElem?_snoc hy with hy | ⟨rfl, -⟩
      · exact hall j y hy hp
      · exact absurd hj (Nat.lt_irrefl _)
    · rcases h with ⟨rfl, -⟩ | ⟨i, z, -, hz, rfl⟩
      · exact hx.2
      · exact Nat.lt_trans hz hx.2
  · have hle : p x → score x ≤ best.2 := fun hp => Nat.le_of_not_lt fun hlt => hx ⟨hp, hlt⟩
    rw [hskip best x hle]
    rcases h with ⟨rfl, hall⟩ | ⟨i, z, hz, hleast, rfl⟩
    · refine Or.inl ⟨rfl, ?_⟩
      intro y hy hp
      rcases List.mem_append.mp hy with hy | hy
      · exact hall y hy hp
      · obtain rfl := List.mem_singleton.mp hy
        exact hle hp
    · have hi : i < xs.length := (List.getElem?_eq_some_iff.mp hz.get).1
      refine Or.inr ⟨i, z, ⟨?_, hz.takes, ?_, ?_⟩, hleast, rfl⟩
      · rw [List.getElem?_append_left hi]
        exact hz.get
      · intro j y hy hp
        rcases getElem?_snoc hy with hy | ⟨-, rfl⟩
        · exact hz.best j y hy hp
        · exact hle hp
      · intro j y hy hp hj
        rcases getElem?_snoc hy with hy | ⟨rfl, -⟩
        · exact hz.first j y hy hp hj
        · omega

/-- **What the scan ends with.** -/
theorem keepBest_run (name : α → β) {least : Nat} {step : Option β × Nat → α → Option β × Nat}
    (htake : ∀ best x, p x → best.2 < score x → step best x = (some (name x), score x))
    (hskip : ∀ best x, (p x → score x ≤ best.2) → step best x = best) :
    ∀ xs : List α, Found p score name least xs (xs.foldl step (none, least)) := by
  intro xs
  induction xs using List.reverseRecOn with
  | nil => exact Or.inl ⟨rfl, by simp⟩
  | append_singleton xs x ih =>
      rw [List.foldl_append]
      exact ih.snoc p score htake hskip x

end FirstBest

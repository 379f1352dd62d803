import Mathlib.Logic.Relation
import Mathlib.Order.Bounds.Basic
import Mathlib.Order.UpperLower.Basic

/-! # Greatest common points

Several parties each accept some values of an order, and a value below a bound is wanted that all of them accept.
In a round every party in turn lowers the bound to the greatest value it accepts; rounds are repeated until one
lowers nothing.  No order of the parties matters for the result: it is the greatest common value below the first
bound (`Round.isGreatest_of_stable`).

When all parties but the last accept whatever lies below an accepted value, one round is enough
(`Round.isGreatest_of_isLowerSet`).
-/

namespace CacheSelect.Lib

variable {α : Type*} [PartialOrder α]

/-- The values below `b` that every party accepts. -/
def commonBelow (sets : List (Set α)) (b : α) : Set α :=
  {p | (∀ S ∈ sets, p ∈ S) ∧ p ≤ b}

/-- One round lowers the bound `b` to `b'`. -/
inductive Round : List (Set α) → α → α → Prop
  | nil (b : α) : Round [] b b
  | cons {S : Set α} {sets : List (Set α)} {b b' b'' : α} :
      IsGreatest (S ∩ Set.Iic b) b' → Round sets b' b'' → Round (S :: sets) b b''

namespace Round

variable {sets : List (Set α)} {b b' c p : α}

theorem le (h : Round sets b b') : b' ≤ b := by
  induction h with
  | nil b => exact le_refl b
  | cons hgreatest _ ih => exact le_trans ih hgreatest.1.2

theorem le_of_common (h : Round sets b b') (hp : p ∈ commonBelow sets b) : p ≤ b' := by
  induction h with
  | nil b => exact hp.2
  | cons hgreatest _ ih =>
      obtain ⟨hsets, hle⟩ := hp
      rw [List.forall_mem_cons] at hsets
      exact ih ⟨hsets.2, hgreatest.2 ⟨hsets.1, hle⟩⟩

/-- What lies below the result is accepted by every party that accepts downwards. -/
theorem mem_of_isLowerSet (h : Round sets b b') {S : Set α} (hS : S ∈ sets) (hlower : IsLowerSet S) :
    b' ∈ S := by
  induction h with
  | nil b => cases hS
  | cons hgreatest hrest ih =>
      rcases List.mem_cons.mp hS with rfl | hS
      · exact hlower hrest.le hgreatest.1.1
      · exact ih hS

/-- The result of a round that lowers nothing is accepted by all. -/
theorem mem_of_le (h : Round sets b b') (hle : b ≤ b') : ∀ S ∈ sets, b ∈ S := by
  induction h with
  | nil b => intro S hS; cases hS
  | cons hgreatest hrest ih =>
      -- the first party already keeps the bound
      have heq := le_antisymm hgreatest.1.2 (le_trans hle hrest.le)
      subst heq
      rw [List.forall_mem_cons]
      exact ⟨hgreatest.1.1, ih hle⟩

theorem append {sets' : List (Set α)} (h : Round sets b b') (h' : Round sets' b' c) : Round (sets ++ sets') b c := by
  induction h with
  | nil b => exact h'
  | cons hgreatest _ ih => exact .cons hgreatest (ih h')

theorem le_of_rounds (h : Relation.ReflTransGen (Round sets) b c) : c ≤ b := by
  induction h with
  | refl => exact le_refl b
  | tail _ hround ih => exact le_trans hround.le ih

theorem le_of_common_rounds (h : Relation.ReflTransGen (Round sets) b c) (hp : p ∈ commonBelow sets b) :
    p ≤ c := by
  induction h with
  | refl => exact hp.2
  | tail _ hround ih => exact hround.le_of_common ⟨hp.1, ih⟩

/-- **Rounds that end in a stable one** lead to the greatest common value. -/
theorem isGreatest_of_stable (h : Relation.ReflTransGen (Round sets) b c) (hstable : Round sets c c) :
    IsGreatest (commonBelow sets b) c := by
  refine ⟨⟨hstable.mem_of_le (le_refl c), le_of_rounds h⟩, ?_⟩
  intro p hp
  exact le_of_common_rounds h hp

/-- **One round** leads to the greatest common value when all parties but the last accept downwards. -/
theorem isGreatest_of_isLowerSet {S T : Set α} (h : Round [S, T] b c) (hS : IsLowerSet S) :
    IsGreatest (commonBelow [S, T] b) c := by
  refine ⟨⟨?_, h.le⟩, fun p hp => h.le_of_common hp⟩
  intro U hU
  rcases List.mem_cons.mp hU with rfl | hU
  · exact h.mem_of_isLowerSet List.mem_cons_self hS
  · rw [List.mem_singleton.mp hU]
    cases h with
    | cons _ hrest =>
        cases hrest with
        | cons hgreatest hnil =>
            cases hnil with
            | nil => exact hgreatest.1.1

end Round

end CacheSelect.Lib

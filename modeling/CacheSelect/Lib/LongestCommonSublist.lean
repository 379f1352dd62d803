import Mathlib.Data.List.Basic
import Mathlib.Tactic.Common

/-! # Longest common sublists

`LongestCommon l r n` says that two lists have a common sublist of length `n` and none that is longer.
The two lemmas on lists that grow at their end are the optimal substructure of the problem: a common
last element extends a longest common sublist (`LongestCommon.concat_same`), and with different last
elements one of them is of no use (`LongestCommon.concat_ne`).  `RowFrom` is a row of the table that a
dynamic program fills by them.
-/

namespace Sublists

variable {α : Type*}

structure LongestCommon (l r : List α) (n : Nat) : Prop where
  attained : ∃ s : List α, s.Sublist l ∧ s.Sublist r ∧ s.length = n
  bound : ∀ s : List α, s.Sublist l → s.Sublist r → s.length ≤ n

theorem sublist_concat_iff {s l : List α} {a : α} :
    s.Sublist (l ++ [a]) ↔ s.Sublist l ∨ ∃ s', s = s' ++ [a] ∧ s'.Sublist l := by
  rw [List.sublist_append_iff]
  constructor
  · rintro ⟨s₁, s₂, rfl, h₁, h₂⟩
    rcases List.sublist_singleton.mp h₂ with rfl | rfl
    · exact Or.inl ((List.append_nil s₁).symm ▸ h₁)
    · exact Or.inr ⟨s₁, rfl, h₁⟩
  · rintro (h | ⟨s', rfl, h⟩)
    · exact ⟨s, [], (List.append_nil s).symm, h, List.nil_sublist _⟩
    · exact ⟨s', [a], rfl, h, List.Sublist.refl _⟩

namespace LongestCommon

variable {l r : List α} {n m : Nat} {a b : α}

theorem nil_left (r : List α) : LongestCommon [] r 0 where
  attained := ⟨[], List.nil_sublist _, List.nil_sublist _, rfl⟩
  bound := by
    intro s hl _
    rw [List.sublist_nil.mp hl]
    exact Nat.le_refl 0

theorem nil_right (l : List α) : LongestCommon l [] 0 where
  attained := ⟨[], List.nil_sublist _, List.nil_sublist _, rfl⟩
  bound := by
    intro s _ hr
    rw [List.sublist_nil.mp hr]
    exact Nat.le_refl 0

theorem symm (h : LongestCommon l r n) : LongestCommon r l n where
  attained := by
    obtain ⟨s, hl, hr, hlen⟩ := h.attained
    exact ⟨s, hr, hl, hlen⟩
  bound := fun s hr hl => h.bound s hl hr

/-- There is one length. -/
theorem unique (h : LongestCommon l r n) (h' : LongestCommon l r m) : n = m := by
  obtain ⟨s, hl, hr, rfl⟩ := h.attained
  obtain ⟨s', hl', hr', rfl⟩ := h'.attained
  exact Nat.le_antisymm (h'.bound s hl hr) (h.bound s' hl' hr')

theorem le_left (h : LongestCommon l r n) : n ≤ l.length := by
  obtain ⟨s, hl, _, rfl⟩ := h.attained
  exact hl.length_le

theorem le_right (h : LongestCommon l r n) : n ≤ r.length :=
  h.symm.le_left

/-- **A common last element** extends a longest common sublist. -/
theorem concat_same (h : LongestCommon l r n) (a : α) : LongestCommon (l ++ [a]) (r ++ [a]) (n + 1) where
  attained := by
    obtain ⟨s, hl, hr, rfl⟩ := h.attained
    refine ⟨s ++ [a], hl.append_right [a], hr.append_right [a], ?_⟩
    rw [List.length_append, List.length_singleton]
  bound := by
    intro s hl hr
    -- without its last element it is common to both before
    have hl' : s.dropLast.Sublist l := by
      rcases sublist_concat_iff.mp hl with h | ⟨s', rfl, h⟩
      · exact (List.dropLast_sublist s).trans h
      · rwa [List.dropLast_concat]
    have hr' : s.dropLast.Sublist r := by
      rcases sublist_concat_iff.mp hr with h | ⟨s', rfl, h⟩
      · exact (List.dropLast_sublist s).trans h
      · rwa [List.dropLast_concat]
    have hle := h.bound _ hl' hr'
    rw [List.length_dropLast] at hle
    omega

/-- **Different last elements**: one of them is not used. -/
theorem concat_ne (hne : a ≠ b) (hl : LongestCommon l (r ++ [b]) n) (hr : LongestCommon (l ++ [a]) r m) :
    LongestCommon (l ++ [a]) (r ++ [b]) (max n m) where
  attained := by
    rcases Nat.le_total n m with h | h
    · obtain ⟨s, h1, h2, rfl⟩ := hr.attained
      exact ⟨s, h1, h2.trans (List.sublist_append_left r [b]), (Nat.max_eq_right h).symm⟩
    · obtain ⟨s, h1, h2, rfl⟩ := hl.attained
      exact ⟨s, h1.trans (List.sublist_append_left l [a]), h2, (Nat.max_eq_left h).symm⟩
  bound := by
    intro s h1 h2
    rcases sublist_concat_iff.mp h1 with h | ⟨s', rfl, _⟩
    · exact Nat.le_trans (hl.bound s h h2) (Nat.le_max_left n m)
    · rcases sublist_concat_iff.mp h2 with h | ⟨s'', heq, _⟩
      · exact Nat.le_trans (hr.bound _ h1 h) (Nat.le_max_right n m)
      · exact absurd (List.append_inj' heq rfl).2 (fun hab => hne (List.head_eq_of_cons_eq hab))

/-- A longest common sublist of full length is the list itself. -/
theorem eq_of_length (h : LongestCommon l r n) (hl : n = l.length) (hr : n = r.length) : l = r := by
  obtain ⟨s, h1, h2, hs⟩ := h.attained
  rw [← h1.eq_of_length (hs.trans hl), ← h2.eq_of_length (hs.trans hr)]

theorem self (l : List α) : LongestCommon l l l.length where
  attained := ⟨l, List.Sublist.refl l, List.Sublist.refl l, rfl⟩
  bound := fun _ h _ => h.length_le

end LongestCommon

/-! ### Rows of the table -/

/-- The entries of a row from the place behind `done` on: one for `done` and one for every further
element. -/
def RowFrom (l done : List α) : List α → List Nat → Prop
  | [], [n] => LongestCommon l done n
  | x :: rest, n :: row => LongestCommon l done n ∧ RowFrom l (done ++ [x]) rest row
  | _, _ => False

theorem rowFrom_zero : ∀ (rest done : List α),
    RowFrom [] done rest (List.replicate (rest.length + 1) 0) := by
  intro rest
  induction rest with
  | nil => intro done; exact LongestCommon.nil_left done
  | cons x rest ih => intro done; exact ⟨LongestCommon.nil_left done, ih (done ++ [x])⟩

/-- A row starts with the entry for what is done. -/
theorem RowFrom.exists_cons {l done rest : List α} {row : List Nat} (h : RowFrom l done rest row) :
    ∃ n row', row = n :: row' ∧ LongestCommon l done n := by
  cases row with
  | nil => cases rest <;> exact h.elim
  | cons n row =>
      refine ⟨n, row, rfl, ?_⟩
      cases rest with
      | nil =>
          cases row with
          | nil => exact h
          | cons m row => exact h.elim
      | cons x rest => exact h.1

/-- **The last entry** is for the whole list. -/
theorem RowFrom.getLastD {l : List α} : ∀ {rest done : List α} {row : List Nat},
    RowFrom l done rest row → LongestCommon l (done ++ rest) (row.getLastD 0) := by
  intro rest
  induction rest with
  | nil =>
      intro done row h
      obtain ⟨n, row', rfl, hn⟩ := h.exists_cons
      cases row' with
      | nil =>
          rw [List.append_nil]
          exact hn
      | cons m row' => exact h.elim
  | cons x rest ih =>
      intro done row h
      cases row with
      | nil => exact h.elim
      | cons n row =>
          have hlast := ih h.2
          rw [List.append_assoc] at hlast
          obtain ⟨m, row', rfl, _⟩ := RowFrom.exists_cons h.2
          exact hlast

end Sublists

import Mathlib.Algebra.BigOperators.Group.Finset.Basic
import Mathlib.Algebra.Order.BigOperators.Group.Finset

/-! # Reference counts over a finite family of holders

Holders `h : η` keep lists of resources `held h : List β`.  `refs ids held b` counts the references
to `b` over the holders in the finite set `ids`.  The lemmas say how the count moves when one holder
changes its list, and that a resource referenced by two holders has a count of at least two, so that
a count of one means one owner.
-/

namespace RefCount

variable {η β : Type*}

/-- Holders outside `ids` hold nothing. -/
def Supported (ids : Finset η) (held : η → List β) : Prop :=
  ∀ h, h ∉ ids → held h = []

theorem Supported.mono {ids ids' : Finset η} {held : η → List β} (hs : Supported ids held)
    (hsub : ids ⊆ ids') : Supported ids' held :=
  fun h hh => hs h fun hin => hh (hsub hin)

theorem Supported.update [DecidableEq η] {ids : Finset η} {held : η → List β}
    (hs : Supported ids held) {h : η} (hh : h ∈ ids) (l : List β) :
    Supported ids (Function.update held h l) := by
  intro h' hh'
  have hne : h' ≠ h := fun he => hh' (he ▸ hh)
  rw [Function.update_of_ne hne]
  exact hs h' hh'

variable [DecidableEq β]

/-- The references to `b` over the holders in `ids`. -/
def refs (ids : Finset η) (held : η → List β) (b : β) : Nat :=
  ∑ h ∈ ids, (held h).count b

theorem refs_insert [DecidableEq η] {ids : Finset η} {held : η → List β} (hs : Supported ids held) (h : η)
    (b : β) : refs (insert h ids) held b = refs ids held b := by
  by_cases hin : h ∈ ids
  · rw [Finset.insert_eq_of_mem hin]
  · rw [refs, Finset.sum_insert hin, hs h hin, List.count_nil, Nat.zero_add, refs]

/-- Changing one holder's list moves the count by the difference of its own counts. -/
theorem refs_update [DecidableEq η] {ids : Finset η} (held : η → List β) {h : η} (hh : h ∈ ids) (l : List β)
    (b : β) :
    refs ids (Function.update held h l) b + (held h).count b = refs ids held b + l.count b := by
  have hrest : ∑ x ∈ ids.erase h, (Function.update held h l x).count b
      = ∑ x ∈ ids.erase h, (held x).count b := by
    refine Finset.sum_congr rfl ?_
    intro x hx
    rw [Function.update_of_ne (Finset.ne_of_mem_erase hx)]
  have hnew := Finset.add_sum_erase ids (fun x => (Function.update held h l x).count b) hh
  have hold := Finset.add_sum_erase ids (fun x => (held x).count b) hh
  simp only [Function.update_self, hrest] at hnew
  rw [refs, refs, ← hnew, ← hold]
  omega

theorem count_le_refs {ids : Finset η} (held : η → List β) {h : η} (hh : h ∈ ids) (b : β) :
    (held h).count b ≤ refs ids held b :=
  Finset.single_le_sum (f := fun x => (held x).count b) (fun _ _ => Nat.zero_le _) hh

theorem refs_pos {ids : Finset η} {held : η → List β} (hs : Supported ids held) {h : η} {b : β}
    (hb : b ∈ held h) : 0 < refs ids held b := by
  have hin : h ∈ ids := by
    by_contra hn
    rw [hs h hn] at hb
    exact absurd hb List.not_mem_nil
  exact lt_of_lt_of_le (List.count_pos_iff.mpr hb) (count_le_refs held hin b)

end RefCount

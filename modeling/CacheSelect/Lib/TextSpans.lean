import Mathlib.Data.List.Basic
import Mathlib.Data.List.Infix
import Mathlib.Data.List.Sort
import Mathlib.Tactic.Common

/-! # Occurrences of a text and the tokens over them

`find` is the search for the first occurrence of a text from a position on; two searches tell whether there is
exactly one (`find_once_iff`).

Tokens are half-open intervals of characters.  When their starts and their ends do not decrease, the tokens that
overlap an interval follow each other (`overlapping_convex`), so that the first and the last of them tell all
(`mem_iff_between`).
-/

namespace TextSpans

variable {α : Type*}

/-! ### Occurrences -/

def OccursAt (text content : List α) (p : Nat) : Prop :=
  ∃ before after, text = before ++ content ++ after ∧ before.length = p

theorem occursAt_iff {text content : List α} {p : Nat} :
    OccursAt text content p ↔ p ≤ text.length ∧ content <+: text.drop p := by
  constructor
  · rintro ⟨before, after, rfl, rfl⟩
    rw [List.append_assoc, List.drop_left]
    refine ⟨?_, List.prefix_append _ _⟩
    rw [List.length_append]
    exact Nat.le_add_right _ _
  · rintro ⟨hp, after, hafter⟩
    refine ⟨text.take p, after, ?_, List.length_take_of_le hp⟩
    rw [List.append_assoc, hafter, List.take_append_drop]

variable [DecidableEq α]

/-- `text.find(content, start)`. -/
def find (text content : List α) (start : Nat) : Option Nat :=
  (List.range (text.length + 1)).find? fun p => decide (start ≤ p) && content.isPrefixOf (text.drop p)

theorem find_eq_none_iff {text content : List α} {start : Nat} :
    find text content start = none ↔ ∀ p, OccursAt text content p → p < start := by
  rw [find, List.find?_eq_none]
  constructor
  · intro h p hp
    obtain ⟨hlength, hprefix⟩ := occursAt_iff.mp hp
    refine Nat.lt_of_not_le fun hle => h p (List.mem_range.mpr (Nat.lt_succ_of_le hlength)) ?_
    rw [decide_eq_true hle, Bool.true_and]
    exact List.isPrefixOf_iff_prefix.mpr hprefix
  · intro h p hp hfound
    obtain ⟨hle, hprefix⟩ := Bool.and_eq_true_iff.mp hfound
    have hoccurs := occursAt_iff.mpr
      ⟨Nat.le_of_lt_succ (List.mem_range.mp hp), List.isPrefixOf_iff_prefix.mp hprefix⟩
    exact absurd (of_decide_eq_true hle) (Nat.not_le_of_lt (h p hoccurs))

/-- **The search finds the first occurrence** from a position on. -/
theorem find_eq_some_iff {text content : List α} {start p : Nat} :
    find text content start = some p ↔
      OccursAt text content p ∧ start ≤ p ∧ ∀ q, OccursAt text content q → start ≤ q → p ≤ q := by
  rw [find, List.find?_range_eq_some]
  constructor
  · rintro ⟨hfound, hp, hleast⟩
    obtain ⟨hle, hprefix⟩ := Bool.and_eq_true_iff.mp hfound
    refine ⟨occursAt_iff.mpr ⟨Nat.le_of_lt_succ (List.mem_range.mp hp), List.isPrefixOf_iff_prefix.mp hprefix⟩,
      of_decide_eq_true hle, fun q hq hstart => ?_⟩
    refine Nat.le_of_not_lt fun hlt => ?_
    have hnot := hleast q hlt
    rw [decide_eq_true hstart, Bool.true_and, List.isPrefixOf_iff_prefix.mpr (occursAt_iff.mp hq).2] at hnot
    cases hnot
  · rintro ⟨hp, hstart, hleast⟩
    obtain ⟨hlength, hprefix⟩ := occursAt_iff.mp hp
    refine ⟨?_, List.mem_range.mpr (Nat.lt_succ_of_le hlength), fun q hq => ?_⟩
    · rw [decide_eq_true hstart, Bool.true_and]
      exact List.isPrefixOf_iff_prefix.mpr hprefix
    · by_cases hfound : (decide (start ≤ q) && content.isPrefixOf (text.drop q)) = true
      · obtain ⟨hle, hprefix'⟩ := Bool.and_eq_true_iff.mp hfound
        have hoccurs := occursAt_iff.mpr
          ⟨Nat.le_trans (Nat.le_of_lt hq) hlength, List.isPrefixOf_iff_prefix.mp hprefix'⟩
        exact absurd (hleast q hoccurs (of_decide_eq_true hle)) (Nat.not_le_of_lt hq)
      · rw [Bool.not_eq_true] at hfound
        rw [hfound]
        rfl

/-- **One occurrence**: the search from behind it finds nothing. -/
theorem find_once_iff {text content : List α} {p : Nat} :
    (find text content 0 = some p ∧ find text content (p + 1) = none) ↔
      OccursAt text content p ∧ ∀ q, OccursAt text content q → q = p := by
  rw [find_eq_some_iff, find_eq_none_iff]
  constructor
  · rintro ⟨⟨hp, -, hleast⟩, hlater⟩
    refine ⟨hp, fun q hq => ?_⟩
    have hle := hleast q hq (Nat.zero_le _)
    have hlt := hlater q hq
    omega
  · rintro ⟨hp, hunique⟩
    refine ⟨⟨hp, Nat.zero_le _, fun q hq _ => ?_⟩, fun q hq => ?_⟩
    · rw [hunique q hq]
    · rw [hunique q hq]
      exact Nat.lt_succ_self _

/-! ### Tokens -/

/-- Two half-open intervals overlap. -/
def Overlaps (a b : Nat × Nat) : Prop :=
  a.1 < b.2 ∧ b.1 < a.2

instance (a b : Nat × Nat) : Decidable (Overlaps a b) :=
  inferInstanceAs (Decidable (_ ∧ _))

/-- The starts of the tokens do not decrease, nor do their ends. -/
structure Nondecreasing (tokens : List (Nat × Nat)) : Prop where
  starts : (tokens.map Prod.fst).Pairwise (· ≤ ·)
  ends : (tokens.map Prod.snd).Pairwise (· ≤ ·)

theorem le_of_pairwise {l : List Nat} (h : l.Pairwise (· ≤ ·)) {i j : Nat} {x y : Nat} (hij : i ≤ j)
    (hx : l[i]? = some x) (hy : l[j]? = some y) : x ≤ y := by
  obtain ⟨hi, rfl⟩ := List.getElem?_eq_some_iff.mp hx
  obtain ⟨hj, rfl⟩ := List.getElem?_eq_some_iff.mp hy
  rcases Nat.eq_or_lt_of_le hij with rfl | hlt
  · exact Nat.le_refl _
  · exact List.pairwise_iff_getElem.mp h i j hi hj hlt

/-- **The overlapping tokens follow each other.** -/
theorem overlapping_convex {tokens : List (Nat × Nat)} (h : Nondecreasing tokens) {b : Nat × Nat} {i j k : Nat}
    {x y z : Nat × Nat} (hij : i ≤ j) (hjk : j ≤ k) (hx : tokens[i]? = some x) (hy : tokens[j]? = some y)
    (hz : tokens[k]? = some z) (hfirst : Overlaps x b) (hlast : Overlaps z b) : Overlaps y b := by
  have hstart : y.1 ≤ z.1 := le_of_pairwise h.starts hjk (by rw [List.getElem?_map, hy]; rfl)
    (by rw [List.getElem?_map, hz]; rfl)
  have hend : x.2 ≤ y.2 := le_of_pairwise h.ends hij (by rw [List.getElem?_map, hx]; rfl)
    (by rw [List.getElem?_map, hy]; rfl)
  exact ⟨Nat.lt_of_le_of_lt hstart hlast.1, Nat.lt_of_lt_of_le hfirst.2 hend⟩

/-- The indices of the tokens that overlap an interval. -/
def overlapping (tokens : List (Nat × Nat)) (b : Nat × Nat) : List Nat :=
  (tokens.zipIdx.filter fun t => Overlaps t.1 b).map Prod.snd

theorem mem_overlapping {tokens : List (Nat × Nat)} {b : Nat × Nat} {i : Nat} :
    i ∈ overlapping tokens b ↔ ∃ token, tokens[i]? = some token ∧ Overlaps token b := by
  rw [overlapping, List.mem_map]
  constructor
  · rintro ⟨⟨token, j⟩, ht, rfl⟩
    obtain ⟨ht, hoverlaps⟩ := List.mem_filter.mp ht
    exact ⟨token, List.mem_zipIdx_iff_getElem?.mp ht, of_decide_eq_true hoverlaps⟩
  · rintro ⟨token, ht, hoverlaps⟩
    exact ⟨(token, i), List.mem_filter.mpr ⟨List.mem_zipIdx_iff_getElem?.mpr ht, decide_eq_true hoverlaps⟩, rfl⟩

theorem pairwise_overlapping (tokens : List (Nat × Nat)) (b : Nat × Nat) :
    (overlapping tokens b).Pairwise (· < ·) := by
  have hsub : (overlapping tokens b).Sublist (tokens.zipIdx.map Prod.snd) := List.filter_sublist.map _
  rw [List.zipIdx_map_snd] at hsub
  exact List.Pairwise.sublist hsub List.pairwise_lt_range'

/-- **The first and the last overlapping token tell all.** -/
theorem mem_iff_between {tokens : List (Nat × Nat)} (h : Nondecreasing tokens) {b : Nat × Nat} {first last : Nat}
    (hfirst : (overlapping tokens b).head? = some first) (hlast : (overlapping tokens b).getLast? = some last)
    {i : Nat} : i ∈ overlapping tokens b ↔ first ≤ i ∧ i ≤ last := by
  have hsorted := pairwise_overlapping tokens b
  have hmemFirst : first ∈ overlapping tokens b := List.mem_of_mem_head? hfirst
  have hmemLast : last ∈ overlapping tokens b := List.mem_of_mem_getLast? hlast
  constructor
  · intro hi
    constructor
    · obtain ⟨rest, hrest⟩ := List.head?_eq_some_iff.mp hfirst
      rw [hrest] at hi hsorted
      rcases List.mem_cons.mp hi with rfl | hi
      · exact Nat.le_refl _
      · exact Nat.le_of_lt ((List.pairwise_cons.mp hsorted).1 i hi)
    · obtain ⟨front, hfront⟩ := List.getLast?_eq_some_iff.mp hlast
      rw [hfront] at hi hsorted
      rcases List.mem_append.mp hi with hi | hi
      · exact Nat.le_of_lt ((List.pairwise_append.mp hsorted).2.2 i hi last (List.mem_singleton.mpr rfl))
      · exact Nat.le_of_eq (List.mem_singleton.mp hi)
  · rintro ⟨hle, hle'⟩
    obtain ⟨x, hx, hxb⟩ := mem_overlapping.mp hmemFirst
    obtain ⟨z, hz, hzb⟩ := mem_overlapping.mp hmemLast
    obtain ⟨hlt, -⟩ := List.getElem?_eq_some_iff.mp hz
    have hy := List.getElem?_eq_getElem (Nat.lt_of_le_of_lt hle' hlt)
    exact mem_overlapping.mpr ⟨_, hy, overlapping_convex h hle hle' hx hy hz hxb hzb⟩

end TextSpans

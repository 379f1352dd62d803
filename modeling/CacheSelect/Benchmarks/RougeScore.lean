import CacheSelect.Lib.LongestCommonSublist
import CacheSelect.Benchmarks.ReferenceQuality
import Mathlib.Tactic.FieldSimp
import Mathlib.Tactic.Linarith
import Mathlib.Tactic.Positivity
import Mathlib.Tactic.Ring

/-! # The ROUGE-L score

The program of `longestCommonSubsequenceLength` keeps one row of its table at a time.  Each row that it
computes is a row of longest common sublists (`rowFrom_lcsRow`), so the last entry of the last row is the
length of a longest common sublist of both token lists.  The score is then twice that length over the sum
of both lengths (`referenceRougeLF1_eq`), and `rougeL_core` reads from it that the score is between zero
and one, one exactly for equal tokens, and symmetric.
-/

namespace CacheSelect.Benchmarks

open Sublists

/-! ### The table -/

/-- **One row** from the row before it. -/
theorem rowFrom_lcsRow {l : List (List Nat)} {leftToken : List Nat} :
    ∀ (rest done : List (List Nat)) {previous : List Nat} {last : Nat}, RowFrom l done rest previous →
      LongestCommon (l ++ [leftToken]) done last →
      RowFrom (l ++ [leftToken]) done rest (last :: lcsRow leftToken rest previous last) := by
  intro rest
  induction rest with
  | nil =>
      intro done previous last _ hlast
      have hnil : lcsRow leftToken [] previous last = [] := by
        rw [lcsRow]
        intro _ _ _ _ _ h
        cases h
      rw [hnil]
      exact hlast
  | cons rightToken rest ih =>
      intro done previous last hprevious hlast
      cases previous with
      | nil => exact hprevious.elim
      | cons diagonal row =>
          obtain ⟨hdiagonal, hrow⟩ := hprevious
          obtain ⟨above, row', rfl, habove⟩ := hrow.exists_cons
          refine ⟨hlast, ih (done ++ [rightToken]) hrow ?_⟩
          by_cases h : leftToken = rightToken
          · rw [if_pos h, ← h]
            exact hdiagonal.concat_same leftToken
          · rw [if_neg h]
            exact habove.concat_ne h hlast

/-- **All rows**, from a row of the tokens before. -/
theorem rowFrom_foldl (right : List (List Nat)) : ∀ (left l : List (List Nat)) {row : List Nat},
    RowFrom l [] right row →
    RowFrom (l ++ left) [] right
      (left.foldl (fun previous leftToken => 0 :: lcsRow leftToken right previous 0) row) := by
  intro left
  induction left with
  | nil =>
      intro l row h
      rw [List.append_nil]
      exact h
  | cons leftToken left ih =>
      intro l row h
      have hnext := ih (l ++ [leftToken])
        (rowFrom_lcsRow right [] h (LongestCommon.nil_right (l ++ [leftToken])))
      rw [List.append_assoc] at hnext
      exact hnext

/-- **The program computes a longest common sublist's length.** -/
theorem longestCommon_length (left right : List (List Nat)) :
    LongestCommon left right (longestCommonSubsequenceLength left right) := by
  have h := rowFrom_foldl right left [] (rowFrom_zero right [])
  exact h.getLastD

theorem longestCommonSubsequenceLength_comm (left right : List (List Nat)) :
    longestCommonSubsequenceLength left right = longestCommonSubsequenceLength right left :=
  (longestCommon_length left right).unique (longestCommon_length right left).symm

/-! ### The score -/

/-- The harmonic mean of two shares of a common part. -/
theorem harmonic_eq {common left right : Rat} (hcommon : common ≠ 0) (hleft : 0 < left) (hright : 0 < right) :
    2 * (common / left) * (common / right) / (common / left + common / right)
      = 2 * common / (left + right) := by
  have hsum : left + right ≠ 0 := by linarith
  have hparts : common / left + common / right = common * (left + right) / (left * right) := by
    field_simp
    ring
  rw [hparts]
  field_simp

theorem rouge_eq {common left right : Nat} (hleft : 0 < left) (hright : 0 < right) :
    (if common = 0 then 0 else 2 * ((common : Rat) / left) * ((common : Rat) / right)
      / ((common : Rat) / left + (common : Rat) / right)) = 2 * (common : Rat) / ((left : Rat) + right) := by
  by_cases h : common = 0
  · rw [if_pos h, h]
    simp
  · rw [if_neg h]
    exact harmonic_eq (Nat.cast_ne_zero.mpr h) (Nat.cast_pos.mpr hleft) (Nat.cast_pos.mpr hright)

/-- **The score** of an answer that has tokens. -/
theorem referenceRougeLF1_eq {t : TextTables} {prediction reference : List Nat}
    (href : normalizedAnswerTokens t reference ≠ []) :
    referenceRougeLF1 t prediction reference
      = .ok (2 * (longestCommonSubsequenceLength (normalizedAnswerTokens t prediction)
            (normalizedAnswerTokens t reference) : Rat)
          / ((normalizedAnswerTokens t prediction).length + (normalizedAnswerTokens t reference).length)) := by
  rw [referenceRougeLF1]
  dsimp only
  rw [if_neg href]
  by_cases hpred : normalizedAnswerTokens t prediction = []
  · have hzero := (longestCommon_length [] (normalizedAnswerTokens t reference)).le_left
    rw [List.length_nil, Nat.le_zero] at hzero
    rw [if_pos hpred, hpred, hzero]
    simp
  · rw [if_neg hpred, rouge_eq (List.length_pos_iff.mpr hpred) (List.length_pos_iff.mpr href)]

section

variable {left right : List (List Nat)}

theorem score_le_one (hright : right ≠ []) :
    2 * (longestCommonSubsequenceLength left right : Rat) / (left.length + right.length) ≤ 1 := by
  have hpos : 0 < right.length := List.length_pos_iff.mpr hright
  have h := longestCommon_length left right
  have hsum : (2 * longestCommonSubsequenceLength left right : Rat) ≤ left.length + right.length := by
    have h1 := h.le_left
    have h2 := h.le_right
    have : 2 * longestCommonSubsequenceLength left right ≤ left.length + right.length := by omega
    exact_mod_cast this
  apply div_le_one_of_le₀ hsum
  positivity

/-- The score of equal tokens, and of no others, is one. -/
theorem score_eq_one_iff (hright : right ≠ []) :
    2 * (longestCommonSubsequenceLength left right : Rat) / (left.length + right.length) = 1 ↔
      left = right := by
  have hpos : 0 < right.length := List.length_pos_iff.mpr hright
  have h := longestCommon_length left right
  have hsum : ((left.length : Rat) + right.length) ≠ 0 := by
    have : left.length + right.length ≠ 0 := by omega
    exact_mod_cast this
  rw [div_eq_one_iff_eq hsum]
  constructor
  · intro heq
    have heq : 2 * longestCommonSubsequenceLength left right = left.length + right.length := by
      exact_mod_cast heq
    have h1 := h.le_left
    have h2 := h.le_right
    exact h.eq_of_length (by omega) (by omega)
  · rintro rfl
    rw [h.unique (LongestCommon.self left)]
    ring

end

/-- **The core of ROUGE-L.**  The program returns the length of a longest common subsequence.  The score
is there for every reference that has tokens; it is between zero and one, one exactly for equal tokens,
and does not depend on which of two texts with tokens is the reference. -/
theorem rougeL_core (t : TextTables) :
    (∀ left right : List (List Nat),
      LongestCommon left right (longestCommonSubsequenceLength left right)) ∧
    ∀ prediction reference : List Nat,
      ((∃ score, referenceRougeLF1 t prediction reference = .ok score) ↔
        normalizedAnswerTokens t reference ≠ []) ∧
      (∀ score, referenceRougeLF1 t prediction reference = .ok score →
        0 ≤ score ∧ score ≤ 1 ∧
          (score = 1 ↔ normalizedAnswerTokens t prediction = normalizedAnswerTokens t reference)) ∧
      (normalizedAnswerTokens t prediction ≠ [] → normalizedAnswerTokens t reference ≠ [] →
        referenceRougeLF1 t prediction reference = referenceRougeLF1 t reference prediction) := by
  refine ⟨longestCommon_length, ?_⟩
  intro prediction reference
  have hscored : ∀ score, referenceRougeLF1 t prediction reference = .ok score →
      normalizedAnswerTokens t reference ≠ [] := by
    intro score h href
    rw [referenceRougeLF1] at h
    dsimp only at h
    rw [if_pos href] at h
    cases h
  refine ⟨⟨?_, fun href => referenceRougeLF1_ok href prediction⟩, ?_, ?_⟩
  · rintro ⟨score, h⟩
    exact hscored score h
  · intro score h
    have href := hscored score h
    rw [referenceRougeLF1_eq href] at h
    obtain rfl := Except.ok.inj h
    exact ⟨by positivity, score_le_one href, score_eq_one_iff href⟩
  · intro hpred href
    rw [referenceRougeLF1_eq href, referenceRougeLF1_eq hpred, longestCommonSubsequenceLength_comm, add_comm]

/-- Tables for texts of small letters. -/
def plainTables : TextTables where
  casefold := id
  isSpace := fun c => c = 32
  isWord := fun c => c ≠ 32

/-- Two words in either order. -/
theorem rougeL_core_swapped :
    normalizedAnswerTokens plainTables [120, 32, 121] = [[120], [121]] ∧
    normalizedAnswerTokens plainTables [121, 32, 120] = [[121], [120]] ∧
    longestCommonSubsequenceLength [[120], [121]] [[121], [120]] = 1 ∧
    referenceRougeLF1 plainTables [120, 32, 121] [121, 32, 120]
      = referenceRougeLF1 plainTables [121, 32, 120] [120, 32, 121] := by
  have hprediction : normalizedAnswerTokens plainTables [120, 32, 121] = [[120], [121]] := by decide
  have hreference : normalizedAnswerTokens plainTables [121, 32, 120] = [[121], [120]] := by decide
  refine ⟨hprediction, hreference, by decide, ?_⟩
  apply ((rougeL_core plainTables).2 [120, 32, 121] [121, 32, 120]).2.2
  · rw [hprediction]
    exact List.cons_ne_nil _ _
  · rw [hreference]
    exact List.cons_ne_nil _ _

end CacheSelect.Benchmarks

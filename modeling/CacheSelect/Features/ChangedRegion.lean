import CacheSelect.Lib.Affix
import CacheSelect.Features.SelectorFeatures
import CacheSelect.Features.TransitionFeatures

/-! # The changed region of two prompts

The region in which a prompt differs from the one before is found three times: for the block features
(`locateChangedTokenRegion`), for the reuse analysis, and for the transition features.
`changedRegion_agreement` says that all three find the longest common beginning and then the longest
common ending that does not reach into it.
-/

namespace CacheSelect.Features

open CacheSelect.Core

/-! ### The copy of the block features -/

namespace BlockFeatures

/-- `_common_prefix_length`. -/
def commonPrefixLength (left right : List Nat) : Nat :=
  countEqual (left.zip right) 0

/-- `_common_suffix_length`. -/
def commonSuffixLength (left right : List Nat) (prefixLength : Nat) : Nat :=
  countEqualFromEnd left right (min left.length right.length - prefixLength) 0

end BlockFeatures

/-! ### The counts of the reuse analysis -/

theorem take_reverse_eq_iff {l r : List Nat} {k : Nat} :
    l.reverse.take k = r.reverse.take k ↔ l.drop (l.length - k) = r.drop (r.length - k) := by
  rw [List.take_reverse, List.take_reverse, List.reverse_inj]

section

variable (previous current : List Nat)

theorem commonPrefixLength_le_min :
    commonPrefixLength previous current ≤ min previous.length current.length := by
  apply Nat.le_min.mpr
  refine ⟨commonPrefixLength_le_left previous current, ?_⟩
  rw [commonPrefixLength_comm]
  exact commonPrefixLength_le_left current previous

theorem commonSuffixLength_le (n : Nat) :
    commonSuffixLength previous current n ≤ min previous.length current.length - n := by
  have h := commonPrefixLength_le_left
    (previous.reverse.take (min previous.length current.length - n))
    (current.reverse.take (min previous.length current.length - n))
  exact Nat.le_trans h (List.length_take_le _ _)

theorem drop_eq_of_commonSuffixLength (n : Nat) :
    previous.drop (previous.length - commonSuffixLength previous current n)
      = current.drop (current.length - commonSuffixLength previous current n) := by
  have hle := commonSuffixLength_le previous current n
  have h := take_eq_of_le_commonPrefixLength _ _ _ (Nat.le_refl (commonSuffixLength previous current n))
  rw [List.take_take, List.take_take, Nat.min_eq_left hle] at h
  exact take_reverse_eq_iff.mp h

variable {previous current}

/-- An ending that both lists have, short enough to leave the first `n` tokens alone, is counted. -/
theorem le_commonSuffixLength {n k : Nat} (hk : n + k ≤ min previous.length current.length)
    (h : previous.drop (previous.length - k) = current.drop (current.length - k)) :
    k ≤ commonSuffixLength previous current n := by
  apply le_commonPrefixLength
  · rw [List.length_take, List.length_reverse]
    omega
  · rw [List.length_take, List.length_reverse]
    omega
  · rw [List.take_take, List.take_take, Nat.min_eq_left (by omega)]
    exact take_reverse_eq_iff.mpr h

variable (previous current)

/-- **The counts cut the prompts** into what they share at both ends and what changed. -/
theorem splits_of_commonLengths :
    let n := commonPrefixLength previous current
    let m := commonSuffixLength previous current n
    Affix.Splits previous current (previous.take n) ((previous.take (previous.length - m)).drop n)
      ((current.take (current.length - m)).drop n) (previous.drop (previous.length - m)) := by
  intro n m
  have hn := commonPrefixLength_le_min previous current
  have hm := commonSuffixLength_le previous current n
  apply Affix.splits_of_counts
  · omega
  · exact take_eq_of_le_commonPrefixLength previous current n (Nat.le_refl n)
  · intro k hk h
    exact le_commonPrefixLength previous current k (by omega) (by omega) h
  · exact drop_eq_of_commonSuffixLength previous current n
  · intro k hk h
    exact le_commonSuffixLength hk h

end

/-! ### The agreement -/

/-- What the three copies find, for a cut of the prompts. -/
structure FindsRegion (previous current p a b s : List Nat) : Prop where
  blockStart : BlockFeatures.commonPrefixLength previous current = p.length
  blockEnd : BlockFeatures.commonSuffixLength previous current p.length = s.length
  region : locateChangedTokenRegion previous current
    = ⟨p.length, p.length + a.length, p.length, p.length + b.length⟩
  opportunityStart : commonPrefixLength previous current = p.length
  opportunityEnd : commonSuffixLength previous current p.length = s.length
  opportunity : ∀ native blockSize report,
    analyzeReuseOpportunity previous current native blockSize = .ok report →
      report.exactCommonPrefixTokens = p.length ∧ report.commonSuffixTokens = s.length
  transitionStart : TransitionFeatures.commonPrefixLength previous current = p.length
  transitionEnd : TransitionFeatures.commonSuffixLength previous current p.length = s.length
  transition : ∀ width, (tokenTransitionFeatures previous current width).commonPrefixTokens = p.length ∧
    (tokenTransitionFeatures previous current width).commonSuffixTokens = s.length

theorem analyzeReuseOpportunity_ok {previous current : List Nat} {native blockSize : Nat}
    {report : ReuseOpportunity}
    (h : analyzeReuseOpportunity previous current native blockSize = .ok report) :
    report = reuseOpportunity previous current native blockSize := by
  unfold analyzeReuseOpportunity at h
  split at h
  · cases h
  · split at h
    · cases h
    · split at h
      · cases h
      · exact (Except.ok.inj h).symm

theorem findsRegion {previous current p a b s : List Nat}
    (h : Affix.Splits previous current p a b s) (hstart : commonPrefixLength previous current = p.length)
    (hend : commonSuffixLength previous current p.length = s.length) :
    FindsRegion previous current p a b s where
  blockStart := (countEqual_eq previous current 0).trans hstart
  blockEnd := (TransitionFeatures.commonSuffixLength_eq previous current p.length).trans hend
  region := by
    have hl : previous.length = p.length + a.length + s.length := by
      rw [h.left, List.length_append, List.length_append]
    have hr : current.length = p.length + b.length + s.length := by
      rw [h.right, List.length_append, List.length_append]
    rw [locateChangedTokenRegion, hstart, hend, hl, hr, Nat.add_sub_cancel, Nat.add_sub_cancel]
  opportunityStart := hstart
  opportunityEnd := hend
  opportunity := by
    intro native blockSize report hreport
    rw [analyzeReuseOpportunity_ok hreport]
    refine ⟨hstart, ?_⟩
    change commonSuffixLength previous current (commonPrefixLength previous current) = s.length
    rw [hstart, hend]
  transitionStart := (TransitionFeatures.commonPrefixLength_eq previous current).trans hstart
  transitionEnd := (TransitionFeatures.commonSuffixLength_eq previous current p.length).trans hend
  transition := by
    intro width
    refine ⟨(TransitionFeatures.commonPrefixLength_eq previous current).trans hstart, ?_⟩
    change TransitionFeatures.commonSuffixLength previous current
      (TransitionFeatures.commonPrefixLength previous current) = s.length
    rw [TransitionFeatures.commonPrefixLength_eq, TransitionFeatures.commonSuffixLength_eq, hstart, hend]

/-- **The three copies agree.**  They cut any two prompts at the same places: after the longest common
beginning and before the longest common ending that leaves it alone.  Both middles are empty exactly
when the prompts are equal. -/
theorem changedRegion_agreement (previous current : List Nat) :
    ∃ p a b s, Affix.Splits previous current p a b s ∧ FindsRegion previous current p a b s ∧
      p.length + s.length ≤ min previous.length current.length ∧
      (a = [] ∧ b = [] ↔ previous = current) := by
  have hsplits := splits_of_commonLengths previous current
  have hn := commonPrefixLength_le_min previous current
  have hm := commonSuffixLength_le previous current (commonPrefixLength previous current)
  have hstart : commonPrefixLength previous current
      = (previous.take (commonPrefixLength previous current)).length := by
    rw [List.length_take]
    omega
  refine ⟨_, _, _, _, hsplits, findsRegion hsplits hstart ?_, hsplits.disjoint, hsplits.middles_nil_iff⟩
  rw [← hstart, List.length_drop]
  omega

/-- Of equal tokens the beginning takes what both have, and nothing is left for the ending. -/
example : locateChangedTokenRegion [7, 7, 7] [7, 7] = ⟨2, 3, 2, 2⟩ := by decide

end CacheSelect.Features

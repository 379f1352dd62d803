import CacheSelect.Features.ReuseOpportunity
import CacheSelect.Lib.TextSpans
import Mathlib.Algebra.Order.Field.Rat
import Mathlib.Tactic.Positivity

/-! # What the opportunity report says

The candidates of `analyzeReuseOpportunity` are exactly the full blocks behind the native prefix whose tokens occur in
the previous prompt, each once and with all its occurrences (`opportunity_report`).  Windows overlap, so that repeated
content has several starts; those at a block multiple decide between the two kinds of candidates.
-/

namespace CacheSelect.Features

open CacheSelect.Core
open TextSpans (OccursAt)

/-! ### Occurrences -/

/-- The tokens of the full block at an index. -/
def fullBlock (tokens : List Nat) (blockSize index : Nat) : List Nat :=
  (tokens.drop (index * blockSize)).take blockSize

theorem length_fullBlock {tokens : List Nat} {blockSize index : Nat} (h : (index + 1) * blockSize ≤ tokens.length) :
    (fullBlock tokens blockSize index).length = blockSize := by
  rw [Nat.add_mul, Nat.one_mul] at h
  rw [fullBlock, List.length_take, List.length_drop]
  omega

/-- **The windows of a width** find every occurrence of a block of that width. -/
theorem mem_contentOccurrences_iff_occursAt {tokens block : List Nat} {width start : Nat}
    (h : block.length = width) : start ∈ contentOccurrences tokens width block ↔ OccursAt tokens block start := by
  rw [mem_contentOccurrences, TextSpans.occursAt_iff]
  constructor
  · rintro ⟨hle, hblock⟩
    exact ⟨le_of_add_le_left hle, hblock ▸ List.take_prefix _ _⟩
  · rintro ⟨hle, hblock⟩
    have hlength := hblock.length_le
    rw [List.length_drop, h] at hlength
    refine ⟨by omega, ?_⟩
    rw [← h]
    exact (List.prefix_iff_eq_take.mp hblock).symm

theorem pairwise_contentOccurrences (tokens : List Nat) (width : Nat) (block : List Nat) :
    (contentOccurrences tokens width block).Pairwise (· < ·) :=
  List.Pairwise.filter _ List.pairwise_lt_range

/-! ### Candidates -/

section Candidates

variable {previousTokens currentTokens : List Nat} {blockSize : Nat}

/-- What a candidate says about the block at its index. -/
structure Describes (previousTokens currentTokens : List Nat) (blockSize : Nat) (c : CandidateBlock) : Prop where
  start : c.currentStart = c.currentBlockIndex * blockSize
  occurrences : c.previousStarts
    = contentOccurrences previousTokens blockSize (fullBlock currentTokens blockSize c.currentBlockIndex)
  some : c.previousStarts ≠ []
  aligned : c.alignedPreviousStarts = c.previousStarts.filter fun start => start % blockSize = 0
  samePosition : c.samePositionMatch = c.previousStarts.contains c.currentStart

theorem candidateBlock?_eq_some (hsize : 0 < blockSize) {index : Nat} {c : CandidateBlock} :
    candidateBlock? previousTokens currentTokens blockSize (index * blockSize) = some c ↔
      c.currentBlockIndex = index ∧ Describes previousTokens currentTokens blockSize c := by
  rw [candidateBlock?]
  constructor
  · intro h
    split at h
    · cases h
    · next hne =>
      cases h
      have hindex : index * blockSize / blockSize = index := Nat.mul_div_cancel _ hsize
      refine ⟨hindex, ?_, ?_, hne, rfl, rfl⟩
      · dsimp only
        rw [hindex]
      · dsimp only
        rw [hindex]
        rfl
  · rintro ⟨rfl, hc⟩
    have hstarts : contentOccurrences previousTokens blockSize
        ((currentTokens.drop (c.currentBlockIndex * blockSize)).take blockSize) = c.previousStarts :=
      hc.occurrences.symm
    rw [hstarts, if_neg hc.some, Nat.mul_div_cancel _ hsize, ← hc.start, ← hc.aligned, ← hc.samePosition]

/-- The indices of the full blocks behind the native prefix. -/
theorem mem_recomputed {native index : Nat} (hsize : 0 < blockSize) :
    index ∈ List.range' ((native + blockSize - 1) / blockSize)
        (currentTokens.length / blockSize - (native + blockSize - 1) / blockSize) ↔
      native ≤ index * blockSize ∧ (index + 1) * blockSize ≤ currentTokens.length := by
  have hfirst : (native + blockSize - 1) / blockSize ≤ index ↔ native ≤ index * blockSize := by
    rw [← Nat.lt_succ_iff, Nat.div_lt_iff_lt_mul hsize, Nat.succ_mul]
    omega
  rw [List.mem_range'_1, ← hfirst, ← Nat.le_div_iff_mul_le hsize]
  omega

/-- **The candidates** are the described blocks behind the native prefix. -/
theorem mem_candidateBlocksAfter_iff (hsize : 0 < blockSize) {native : Nat} {c : CandidateBlock} :
    c ∈ candidateBlocksAfter previousTokens currentTokens native blockSize ↔
      (native ≤ c.currentBlockIndex * blockSize ∧ (c.currentBlockIndex + 1) * blockSize ≤ currentTokens.length) ∧
        Describes previousTokens currentTokens blockSize c := by
  rw [candidateBlocksAfter, List.mem_filterMap]
  constructor
  · rintro ⟨index, hindex, hc⟩
    obtain ⟨rfl, hdescribes⟩ := (candidateBlock?_eq_some hsize).mp hc
    exact ⟨(mem_recomputed hsize).mp hindex, hdescribes⟩
  · rintro ⟨hindex, hdescribes⟩
    exact ⟨_, (mem_recomputed hsize).mpr hindex, (candidateBlock?_eq_some hsize).mpr ⟨rfl, hdescribes⟩⟩

theorem pairwise_candidateBlocksAfter (hsize : 0 < blockSize) (native : Nat) :
    ((candidateBlocksAfter previousTokens currentTokens native blockSize).map
      CandidateBlock.currentBlockIndex).Pairwise (· < ·) := by
  rw [List.pairwise_map, candidateBlocksAfter, List.pairwise_filterMap]
  refine List.Pairwise.imp (fun {i j} hlt c hc d hd => ?_) List.pairwise_lt_range'
  rw [((candidateBlock?_eq_some hsize).mp hc).1, ((candidateBlock?_eq_some hsize).mp hd).1]
  exact hlt

/-- The candidates fit behind the native prefix. -/
theorem candidateTokens_le (native : Nat) (hnative : native ≤ currentTokens.length) (hsize : 0 < blockSize) :
    (candidateBlocksAfter previousTokens currentTokens native blockSize).length * blockSize
      ≤ currentTokens.length - native := by
  have hlength : (candidateBlocksAfter previousTokens currentTokens native blockSize).length
      ≤ currentTokens.length / blockSize - (native + blockSize - 1) / blockSize := by
    rw [candidateBlocksAfter]
    refine Nat.le_trans (List.length_filterMap_le _ _) (Nat.le_of_eq ?_)
    rw [List.length_range']
  have hfirst : native ≤ (native + blockSize - 1) / blockSize * blockSize := by
    have hdiv := Nat.div_add_mod (native + blockSize - 1) blockSize
    have hmod := Nat.mod_lt (native + blockSize - 1) hsize
    rw [Nat.mul_comm] at hdiv
    omega
  have hlast : currentTokens.length / blockSize * blockSize ≤ currentTokens.length := Nat.div_mul_le_self _ _
  have hmul := Nat.mul_le_mul_right blockSize hlength
  rw [Nat.sub_mul] at hmul
  omega

end Candidates

/-- Two opposite kinds make up a list. -/
theorem countP_add_countP_not {α : Type*} {p q : α → Bool} (h : ∀ a, q a = !p a) (l : List α) :
    l.countP p + l.countP q = l.length := by
  rw [List.length_eq_countP_add_countP p]
  congr 2
  funext a
  rw [h a]
  cases p a with
  | false => rfl
  | true => rfl

/-! ### The report -/

/-- The report of an analysis: its candidates, their occurrences, and the counts and the share of each kind. -/
structure Reports (previousTokens currentTokens : List Nat) (nativeCachedTokens blockSize : Nat)
    (o : ReuseOpportunity) : Prop where
  candidates : ∀ index, index ∈ o.candidateBlocks.map CandidateBlock.currentBlockIndex ↔
    nativeCachedTokens ≤ index * blockSize ∧ (index + 1) * blockSize ≤ currentTokens.length ∧
      ∃ start, OccursAt previousTokens (fullBlock currentTokens blockSize index) start
  once : (o.candidateBlocks.map CandidateBlock.currentBlockIndex).Pairwise (· < ·)
  start : ∀ c ∈ o.candidateBlocks, c.currentStart = c.currentBlockIndex * blockSize
  occurrences : ∀ c ∈ o.candidateBlocks, c.previousStarts.Pairwise (· < ·) ∧ ∀ start, start ∈ c.previousStarts ↔
    OccursAt previousTokens (fullBlock currentTokens blockSize c.currentBlockIndex) start
  aligned : ∀ c ∈ o.candidateBlocks, c.alignedPreviousStarts.Pairwise (· < ·) ∧
    ∀ start, start ∈ c.alignedPreviousStarts ↔ start ∈ c.previousStarts ∧ blockSize ∣ start
  samePosition : ∀ c ∈ o.candidateBlocks, c.samePositionMatch = true ↔ c.currentStart ∈ c.previousStarts
  partition : ∀ c ∈ o.candidateBlocks, (c.hasWholeSourceBlock = true ↔ c.alignedPreviousStarts ≠ []) ∧
    (c.requiresRepacking = true ↔ ¬ c.hasWholeSourceBlock = true)
  total : o.candidateBlockCount = o.candidateBlocks.length
  tokens : o.candidateTokenCount = o.candidateBlocks.length * blockSize
  whole : o.wholeSourceBlockCount = (o.candidateBlocks.filter CandidateBlock.hasWholeSourceBlock).length
  repacking : o.repackingRequiredBlockCount = (o.candidateBlocks.filter CandidateBlock.requiresRepacking).length
  kinds : o.wholeSourceBlockCount + o.repackingRequiredBlockCount = o.candidateBlockCount
  moved : o.movedCandidateBlockCount + (o.candidateBlocks.filter CandidateBlock.samePositionMatch).length
    = o.candidateBlockCount
  recomputed : o.candidateBlockCount ≤ o.recomputedFullBlockCount
  share : 0 ≤ o.candidateShareOfNativeRecompute ∧ o.candidateShareOfNativeRecompute ≤ 1

/-- **The report is exact** for every analysis that is accepted. -/
theorem opportunity_report {previousTokens currentTokens : List Nat} {nativeCachedTokens blockSize : Nat}
    {o : ReuseOpportunity}
    (h : analyzeReuseOpportunity previousTokens currentTokens nativeCachedTokens blockSize = .ok o) :
    Reports previousTokens currentTokens nativeCachedTokens blockSize o := by
  unfold analyzeReuseOpportunity at h
  split at h
  · cases h
  next hsize =>
  split at h
  · cases h
  next hnative =>
  split at h
  · cases h
  cases h
  have hsize : 0 < blockSize := by omega
  have hmem : ∀ c, c ∈ candidateBlocksAfter previousTokens currentTokens nativeCachedTokens blockSize ↔ _ :=
    fun c => mem_candidateBlocksAfter_iff hsize
  have hoccurs : ∀ c ∈ candidateBlocksAfter previousTokens currentTokens nativeCachedTokens blockSize, ∀ start,
      start ∈ c.previousStarts ↔
        OccursAt previousTokens (fullBlock currentTokens blockSize c.currentBlockIndex) start := by
    intro c hc start
    obtain ⟨⟨-, hfull⟩, hdescribes⟩ := (hmem c).mp hc
    rw [hdescribes.occurrences]
    exact mem_contentOccurrences_iff_occursAt (length_fullBlock hfull)
  exact {
    candidates := by
      intro index
      constructor
      · intro hindex
        obtain ⟨c, hc, rfl⟩ := List.mem_map.mp hindex
        obtain ⟨⟨hlow, hfull⟩, hdescribes⟩ := (hmem c).mp hc
        obtain ⟨start, hstart⟩ := List.exists_mem_of_ne_nil _ hdescribes.some
        exact ⟨hlow, hfull, start, (hoccurs c hc start).mp hstart⟩
      · rintro ⟨hlow, hfull, start, hstart⟩
        have hstart := (mem_contentOccurrences_iff_occursAt (length_fullBlock hfull)).mpr hstart
        obtain ⟨c, hc⟩ : ∃ c, candidateBlock? previousTokens currentTokens blockSize (index * blockSize) = some c := by
          unfold candidateBlock?
          exact ⟨_, if_neg (List.ne_nil_of_mem hstart)⟩
        obtain ⟨rfl, hdescribes⟩ := (candidateBlock?_eq_some hsize).mp hc
        exact List.mem_map_of_mem ((hmem c).mpr ⟨⟨hlow, hfull⟩, hdescribes⟩)
    once := pairwise_candidateBlocksAfter hsize _
    start := fun c hc => ((hmem c).mp hc).2.start
    occurrences := by
      intro c hc
      refine ⟨?_, hoccurs c hc⟩
      rw [((hmem c).mp hc).2.occurrences]
      exact pairwise_contentOccurrences ..
    aligned := by
      intro c hc
      have hdescribes := ((hmem c).mp hc).2
      rw [hdescribes.aligned]
      constructor
      · rw [hdescribes.occurrences]
        exact (pairwise_contentOccurrences ..).filter _
      · intro start
        rw [List.mem_filter, decide_eq_true_eq, Nat.dvd_iff_mod_eq_zero]
    samePosition := by
      intro c hc
      rw [((hmem c).mp hc).2.samePosition, List.contains_iff_mem]
    partition := by
      intro c _
      rw [CandidateBlock.requiresRepacking, CandidateBlock.hasWholeSourceBlock]
      cases c.alignedPreviousStarts with
      | nil => decide
      | cons start rest =>
          refine ⟨⟨fun _ => List.cons_ne_nil _ _, fun _ => rfl⟩, ?_⟩
          change false = true ↔ ¬ true = true
          decide
    total := rfl
    tokens := rfl
    whole := List.countP_eq_length_filter
    repacking := List.countP_eq_length_filter
    kinds := countP_add_countP_not (fun _ => rfl) _
    moved := by
      rw [← List.countP_eq_length_filter, Nat.add_comm]
      exact countP_add_countP_not (fun _ => rfl) _
    recomputed := by
      refine Nat.le_trans (List.length_filterMap_le _ _) (Nat.le_of_eq ?_)
      exact List.length_range'
    share := by
      change 0 ≤ (if _ then _ else _ : Rat) ∧ (if _ then _ else _ : Rat) ≤ 1
      have htokens := @candidateTokens_le previousTokens currentTokens blockSize nativeCachedTokens (by omega) hsize
      split
      · exact ⟨le_rfl, zero_le_one⟩
      · next hne =>
        constructor
        · positivity
        · rw [div_le_one (Nat.cast_pos.mpr (Nat.pos_of_ne_zero hne))]
          exact Nat.cast_le.mpr htokens }

/-- Two of the three blocks behind the native prefix occur before, one only across block boundaries. -/
theorem opportunity_report_repeated :
    Reports [1, 2, 1, 2, 1, 9] [1, 2, 2, 1, 7, 7, 1, 2] 2 2
      (reuseOpportunity [1, 2, 1, 2, 1, 9] [1, 2, 2, 1, 7, 7, 1, 2] 2 2) :=
  opportunity_report (analyzeReuseOpportunity_eq (by decide) (by decide))

example : (reuseOpportunity [1, 2, 1, 2, 1, 9] [1, 2, 2, 1, 7, 7, 1, 2] 2 2).candidateBlocks
    = [⟨1, 2, [1, 3], [], false⟩, ⟨3, 6, [0, 2], [0, 2], false⟩] := by
  decide

end CacheSelect.Features

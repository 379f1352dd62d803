import CacheSelect.Features.ReuseOpportunity
import CacheSelect.Lib.Except
import Mathlib.Algebra.Ring.Nat
import Mathlib.Data.Prod.Lex

/-! # Block and context features of a candidate

`extractCandidateBlockFeatures` and `extractCandidateContextFeatures` compute one row of features for
every candidate block of an opportunity, and `selectorFeatureRow` lists a row's values in the order
of `CONTEXT_FEATURE_SCHEMA`.

The two extractors raise only when the opportunity was computed from other token lists, or when a
candidate has no source occurrence; `extract_ok` says that on an opportunity of
`analyzeReuseOpportunity` neither happens.
-/

namespace CacheSelect.Features

open CacheSelect.Core

/-! ### Block features -/

structure ChangedTokenRegion where
  previousStart : Nat
  previousEnd : Nat
  currentStart : Nat
  currentEnd : Nat
deriving DecidableEq, Repr

def locateChangedTokenRegion (previousTokens currentTokens : List Nat) : ChangedTokenRegion :=
  let prefixLength := commonPrefixLength previousTokens currentTokens
  let suffixLength := commonSuffixLength previousTokens currentTokens prefixLength
  { previousStart := prefixLength
    previousEnd := previousTokens.length - suffixLength
    currentStart := prefixLength
    currentEnd := currentTokens.length - suffixLength }

structure CandidateBlockFeatures where
  previousTokenCount : Nat
  currentTokenCount : Nat
  previousChangedTokenCount : Nat
  currentChangedTokenCount : Nat
  blockSize : Nat
  candidateBlockIndex : Nat
  candidatePositionRatio : Rat
  relativeBlockOffset : Int
  nearestChangedBlockDistance : Nat
  sourceDisplacementBlocks : Rat
  candidateShareOfNativeRecompute : Rat
  samePositionMatch : Bool
  requiresRepacking : Bool
  changedCandidateTokenOverlapRatio : Rat
  introducedCandidateTokenOverlapRatio : Rat
  removedCandidateTokenOverlapRatio : Rat
  changedCandidateTokenJaccard : Rat
deriving DecidableEq, Repr

/-- `_changed_block_bounds`: an empty edit counts as one block. -/
def changedBlockBounds (region : ChangedTokenRegion) (blockSize : Nat) : Nat × Nat :=
  let first := region.currentStart / blockSize
  if region.currentStart = region.currentEnd then (first, first)
  else (first, (region.currentEnd - 1) / blockSize)

/-- `_relative_block_offset`: signed distance to the changed blocks, zero inside them. -/
def relativeBlockOffset (candidate first last : Nat) : Int :=
  if candidate < first then (candidate : Int) - first
  else if last < candidate then (candidate : Int) - last
  else 0

/-- `_nearest_source_start`. -/
def nearestSourceStart (candidate : CandidateBlock) : Option Nat :=
  candidate.previousStarts.argmin fun start =>
    toLex (((start : Int) - candidate.currentStart).natAbs, start)

/-- `_token_overlap_ratio`: the shared part of two multisets, over the first one's size. -/
def tokenOverlapRatio (sourceTokens candidateTokens : List Nat) : Rat :=
  if sourceTokens = [] then 0
  else ((sourceTokens.bagInter candidateTokens).length : Rat) / (sourceTokens.length : Rat)

/-- `_token_jaccard`. -/
def tokenJaccard (leftTokens rightTokens : List Nat) : Rat :=
  let union := (leftTokens ++ rightTokens).dedup
  if union = [] then 1
  else ((leftTokens.dedup.filter fun t => rightTokens.contains t).length : Rat)
    / (union.length : Rat)

def candidateBlockFeatures (previousTokens currentTokens : List Nat)
    (opportunity : ReuseOpportunity) (candidate : CandidateBlock) :
    Except PyError CandidateBlockFeatures :=
  let region := locateChangedTokenRegion previousTokens currentTokens
  let bounds := changedBlockBounds region opportunity.blockSize
  let offset := relativeBlockOffset candidate.currentBlockIndex bounds.1 bounds.2
  let previousChanged := (previousTokens.take region.previousEnd).drop region.previousStart
  let currentChanged := (currentTokens.take region.currentEnd).drop region.currentStart
  let candidateTokens := (currentTokens.drop candidate.currentStart).take opportunity.blockSize
  match nearestSourceStart candidate with
  | none => .error (.valueError "min() arg is an empty sequence")
  | some sourceStart =>
      .ok {
        previousTokenCount := previousTokens.length
        currentTokenCount := currentTokens.length
        previousChangedTokenCount := region.previousEnd - region.previousStart
        currentChangedTokenCount := region.currentEnd - region.currentStart
        blockSize := opportunity.blockSize
        candidateBlockIndex := candidate.currentBlockIndex
        candidatePositionRatio :=
          (candidate.currentStart : Rat) / ((max currentTokens.length 1 : Nat) : Rat)
        relativeBlockOffset := offset
        nearestChangedBlockDistance := offset.natAbs
        sourceDisplacementBlocks :=
          (((candidate.currentStart : Int) - sourceStart : Int) : Rat)
            / (opportunity.blockSize : Rat)
        candidateShareOfNativeRecompute := opportunity.candidateShareOfNativeRecompute
        samePositionMatch := candidate.samePositionMatch
        requiresRepacking := candidate.requiresRepacking
        changedCandidateTokenOverlapRatio := tokenOverlapRatio currentChanged candidateTokens
        introducedCandidateTokenOverlapRatio :=
          tokenOverlapRatio (currentChanged.diff previousChanged) candidateTokens
        removedCandidateTokenOverlapRatio :=
          tokenOverlapRatio (previousChanged.diff currentChanged) candidateTokens
        changedCandidateTokenJaccard := tokenJaccard currentChanged candidateTokens }

def extractCandidateBlockFeatures (previousTokens currentTokens : List Nat)
    (opportunity : ReuseOpportunity) : Except PyError (List CandidateBlockFeatures) :=
  if opportunity.previousTokenCount ≠ previousTokens.length then
    .error (.valueError "previous token count does not match reuse opportunity")
  else if opportunity.currentTokenCount ≠ currentTokens.length then
    .error (.valueError "current token count does not match reuse opportunity")
  else
    opportunity.candidateBlocks.mapM
      (candidateBlockFeatures previousTokens currentTokens opportunity)

/-! ### Context features -/

/-- One opcode of `difflib.SequenceMatcher`. -/
structure Opcode where
  isEqual : Bool
  previousStart : Nat
  previousEnd : Nat
  currentStart : Nat
  currentEnd : Nat
deriving DecidableEq, Repr

structure TokenEditSpan where
  previousStart : Nat
  previousEnd : Nat
  currentStart : Nat
  currentEnd : Nat
deriving DecidableEq, Repr

/-- `locate_token_edit_spans`: the opcodes that are not equal runs. -/
def locateTokenEditSpans (opcodes : List Nat → List Nat → List Opcode)
    (previousTokens currentTokens : List Nat) : List TokenEditSpan :=
  (opcodes previousTokens currentTokens).filterMap fun o =>
    if o.isEqual then none
    else some ⟨o.previousStart, o.previousEnd, o.currentStart, o.currentEnd⟩

structure CandidateContextFeatures where
  editSpanCount : Nat
  editSpanCountBeforeCandidate : Nat
  previousChangedTokensBeforeCandidate : Nat
  currentChangedTokensBeforeCandidate : Nat
  precedingContextMatchTokens : Nat
  precedingMatchingRunBlocks : Nat
  followingMatchingRunBlocks : Nat
  matchingRunLengthBlocks : Nat
  sourceOccurrenceCount : Nat
  alignedSourceOccurrenceCount : Nat
deriving DecidableEq, Repr

/-- `_preceding_match_tokens`: the loop walks backwards from both starts. -/
def precedingMatchTokens (previousTokens currentTokens : List Nat)
    (previousStart currentStart : Nat) : Nat :=
  commonPrefixLength (previousTokens.take previousStart).reverse
    (currentTokens.take currentStart).reverse

/-- `_edit_precedes_candidate`. -/
def editPrecedesCandidate (edit : TokenEditSpan) (candidateStart : Nat) : Bool :=
  edit.currentStart < candidateStart ||
    (edit.currentStart == candidateStart && edit.currentStart == edit.currentEnd)

/-- The full blocks at two starts hold the same tokens. -/
def sameBlock (previousTokens currentTokens : List Nat) (blockSize previousStart currentStart : Nat) :
    Bool :=
  (previousTokens.drop previousStart).take blockSize
    = (currentTokens.drop currentStart).take blockSize

/-- `_matching_block_run`: the equal full blocks before and after an occurrence. -/
def matchingBlockRun (previousTokens currentTokens : List Nat)
    (previousStart currentStart blockSize : Nat) : Nat × Nat :=
  let preceding := ((List.range (min previousStart currentStart / blockSize)).takeWhile fun k =>
    sameBlock previousTokens currentTokens blockSize (previousStart - (k + 1) * blockSize)
      (currentStart - (k + 1) * blockSize)).length
  let following := ((List.range (min (previousTokens.length - previousStart)
      (currentTokens.length - currentStart) / blockSize - 1)).takeWhile fun k =>
    sameBlock previousTokens currentTokens blockSize (previousStart + (k + 1) * blockSize)
      (currentStart + (k + 1) * blockSize)).length
  (preceding, following)

def candidateContextFeatures (previousTokens currentTokens : List Nat)
    (edits : List TokenEditSpan) (opportunity : ReuseOpportunity) (candidate : CandidateBlock) :
    Except PyError CandidateContextFeatures :=
  let currentStart := candidate.currentStart
  let editsBefore := edits.filter fun e => editPrecedesCandidate e currentStart
  let precedingMatches := candidate.previousStarts.map fun s =>
    precedingMatchTokens previousTokens currentTokens s currentStart
  let sourceStarts := if candidate.alignedPreviousStarts = [] then candidate.previousStarts
    else candidate.alignedPreviousStarts
  let runs := sourceStarts.map fun s =>
    matchingBlockRun previousTokens currentTokens s currentStart opportunity.blockSize
  match runs.argmax fun run => toLex (run.1 + run.2, run.1) with
  | none => .error (.valueError "max() arg is an empty sequence")
  | some run =>
      .ok {
        editSpanCount := edits.length
        editSpanCountBeforeCandidate := editsBefore.length
        previousChangedTokensBeforeCandidate :=
          (editsBefore.map fun e => e.previousEnd - e.previousStart).sum
        currentChangedTokensBeforeCandidate :=
          (editsBefore.map fun e => min e.currentEnd currentStart - e.currentStart).sum
        precedingContextMatchTokens := precedingMatches.foldr max 0
        precedingMatchingRunBlocks := run.1
        followingMatchingRunBlocks := run.2
        matchingRunLengthBlocks := run.1 + 1 + run.2
        sourceOccurrenceCount := candidate.previousStarts.length
        alignedSourceOccurrenceCount := candidate.alignedPreviousStarts.length }

def extractCandidateContextFeatures (opcodes : List Nat → List Nat → List Opcode)
    (previousTokens currentTokens : List Nat) (opportunity : ReuseOpportunity) :
    Except PyError (List CandidateContextFeatures) :=
  if opportunity.previousTokenCount ≠ previousTokens.length then
    .error (.valueError "previous token count does not match reuse opportunity")
  else if opportunity.currentTokenCount ≠ currentTokens.length then
    .error (.valueError "current token count does not match reuse opportunity")
  else
    opportunity.candidateBlocks.mapM
      (candidateContextFeatures previousTokens currentTokens
        (locateTokenEditSpans opcodes previousTokens currentTokens) opportunity)

/-! ### The feature row -/

def ratOfBool (b : Bool) : Rat :=
  if b then 1 else 0

/-- The named values of one row, in the order of `CONTEXT_FEATURE_SCHEMA.feature_names`. -/
def selectorFeatureRow (b : CandidateBlockFeatures) (c : CandidateContextFeatures) :
    List (String × Rat) :=
  [("previous_token_count", b.previousTokenCount),
   ("current_token_count", b.currentTokenCount),
   ("previous_changed_token_count", b.previousChangedTokenCount),
   ("current_changed_token_count", b.currentChangedTokenCount),
   ("block_size", b.blockSize),
   ("candidate_block_index", b.candidateBlockIndex),
   ("candidate_position_ratio", b.candidatePositionRatio),
   ("relative_block_offset", b.relativeBlockOffset),
   ("nearest_changed_block_distance", b.nearestChangedBlockDistance),
   ("source_displacement_blocks", b.sourceDisplacementBlocks),
   ("candidate_share_of_native_recompute", b.candidateShareOfNativeRecompute),
   ("changed_candidate_token_overlap_ratio", b.changedCandidateTokenOverlapRatio),
   ("introduced_candidate_token_overlap_ratio", b.introducedCandidateTokenOverlapRatio),
   ("removed_candidate_token_overlap_ratio", b.removedCandidateTokenOverlapRatio),
   ("changed_candidate_token_jaccard", b.changedCandidateTokenJaccard),
   ("same_position_match", ratOfBool b.samePositionMatch),
   ("requires_repacking", ratOfBool b.requiresRepacking),
   ("edit_span_count", c.editSpanCount),
   ("edit_span_count_before_candidate", c.editSpanCountBeforeCandidate),
   ("previous_changed_tokens_before_candidate", c.previousChangedTokensBeforeCandidate),
   ("current_changed_tokens_before_candidate", c.currentChangedTokensBeforeCandidate),
   ("preceding_context_match_tokens", c.precedingContextMatchTokens),
   ("preceding_matching_run_blocks", c.precedingMatchingRunBlocks),
   ("following_matching_run_blocks", c.followingMatchingRunBlocks),
   ("matching_run_length_blocks", c.matchingRunLengthBlocks),
   ("source_occurrence_count", c.sourceOccurrenceCount),
   ("aligned_source_occurrence_count", c.alignedSourceOccurrenceCount)]

/-! ### The extractors do not raise -/

theorem candidateBlockFeatures_ok {p c : List Nat} {o : ReuseOpportunity} {k : CandidateBlock}
    (hk : k.previousStarts ≠ []) : ∃ f, candidateBlockFeatures p c o k = .ok f := by
  unfold candidateBlockFeatures nearestSourceStart
  cases h : List.argmin (fun start : Nat =>
      toLex (((start : Int) - k.currentStart).natAbs, start)) k.previousStarts with
  | none => exact absurd (List.argmin_eq_none.mp h) hk
  | some s => exact ⟨_, rfl⟩

theorem candidateContextFeatures_ok {p c : List Nat} {es : List TokenEditSpan}
    {o : ReuseOpportunity} {k : CandidateBlock} (hk : k.previousStarts ≠ []) :
    ∃ f, candidateContextFeatures p c es o k = .ok f := by
  unfold candidateContextFeatures
  have hne : (if k.alignedPreviousStarts = [] then k.previousStarts
      else k.alignedPreviousStarts) ≠ [] := by
    split
    · exact hk
    · assumption
  simp only
  split
  · rename_i h
    rw [List.argmax_eq_none, List.map_eq_nil_iff] at h
    exact absurd h hne
  · exact ⟨_, rfl⟩

/-- **The extractors accept every opportunity of the analysis**, with one row for each candidate. -/
theorem extract_ok (opcodes : List Nat → List Nat → List Opcode) (p c : List Nat)
    (native bs : Nat) :
    (∃ rows, extractCandidateBlockFeatures p c (reuseOpportunity p c native bs) = .ok rows ∧
      rows.length = (candidateBlocksAfter p c native bs).length) ∧
    (∃ rows, extractCandidateContextFeatures opcodes p c (reuseOpportunity p c native bs)
        = .ok rows ∧ rows.length = (candidateBlocksAfter p c native bs).length) := by
  have hp : ¬ (reuseOpportunity p c native bs).previousTokenCount ≠ p.length := not_not.mpr rfl
  have hc : ¬ (reuseOpportunity p c native bs).currentTokenCount ≠ c.length := not_not.mpr rfl
  refine ⟨?_, ?_⟩
  · rw [extractCandidateBlockFeatures, if_neg hp, if_neg hc]
    exact Except.mapM_eq_ok_of_forall fun k hk => candidateBlockFeatures_ok (previousStarts_ne_nil hk)
  · rw [extractCandidateContextFeatures, if_neg hp, if_neg hc]
    exact Except.mapM_eq_ok_of_forall fun k hk => candidateContextFeatures_ok (previousStarts_ne_nil hk)

end CacheSelect.Features

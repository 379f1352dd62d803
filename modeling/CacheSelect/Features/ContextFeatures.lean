import CacheSelect.Features.OpportunityReport
import CacheSelect.Features.SelectorFeatures
import CacheSelect.Lib.Alignment

/-! # What the context features say

The opcodes of an alignment partition the two prompts.  The tokens changed before a candidate are the positions before
it that no equal opcode covers (`changedTokens_eq`), whether an edit ends before the block, reaches into it or begins
behind it.

A run of equal blocks around an occurrence is maximal (`matchingBlockRun_maximal`), and the tokens before the blocks
of the preceding run match one by one (`run_le_precedingMatchTokens`).
-/

namespace CacheSelect.Features

open CacheSelect.Core
open Segments (slice)
open TextSpans (OccursAt)

/-! ### Edits -/

/-- The opcodes go through both prompts from the start to the end. -/
structure PartitionsTokens (opcodes : List Opcode) (previousTokens currentTokens : List Nat) : Prop where
  previous : Alignment.Consecutive Opcode.previousStart Opcode.previousEnd 0 opcodes previousTokens.length
  current : Alignment.Consecutive Opcode.currentStart Opcode.currentEnd 0 opcodes currentTokens.length

/-- The current positions before a block that the alignment does not mark equal. -/
def changedPositions (opcodes : List Opcode) (blockStart : Nat) : Nat :=
  (List.range blockStart).countP fun position =>
    !Alignment.covered Opcode.currentStart Opcode.currentEnd Opcode.isEqual opcodes position

theorem changedPositions_mono (opcodes : List Opcode) {blockStart blockStart' : Nat} (h : blockStart ≤ blockStart') :
    changedPositions opcodes blockStart ≤ changedPositions opcodes blockStart' :=
  List.Sublist.countP_le (List.range_sublist.mpr h)

/-- The edit of an opcode. -/
def Opcode.span (o : Opcode) : TokenEditSpan :=
  ⟨o.previousStart, o.previousEnd, o.currentStart, o.currentEnd⟩

theorem locateTokenEditSpans_eq (opcodes : List Nat → List Nat → List Opcode) (previousTokens currentTokens : List Nat) :
    locateTokenEditSpans opcodes previousTokens currentTokens
      = ((opcodes previousTokens currentTokens).filter fun o => !o.isEqual).map Opcode.span := by
  rw [locateTokenEditSpans]
  induction opcodes previousTokens currentTokens with
  | nil => rfl
  | cons o os ih =>
      rw [List.filterMap_cons, List.filter_cons]
      cases o.isEqual with
      | true => exact ih
      | false =>
          exact congrArg (o.span :: ·) ih

/-- Edits that do not precede the candidate have nothing before it. -/
theorem sum_editsBefore (edits : List TokenEditSpan) (blockStart : Nat) :
    ((edits.filter fun e => editPrecedesCandidate e blockStart).map
        fun e => min e.currentEnd blockStart - e.currentStart).sum
      = (edits.map fun e => min e.currentEnd blockStart - e.currentStart).sum := by
  induction edits with
  | nil => rfl
  | cons e edits ih =>
      rw [List.filter_cons, List.map_cons, List.sum_cons]
      cases hprecedes : editPrecedesCandidate e blockStart with
      | true => rw [if_pos rfl, List.map_cons, List.sum_cons, ih]
      | false =>
          have hlate : blockStart ≤ e.currentStart := by
            refine Nat.le_of_not_lt fun hlt => ?_
            rw [editPrecedesCandidate, decide_eq_true hlt, Bool.true_or] at hprecedes
            cases hprecedes
          have hzero : min e.currentEnd blockStart - e.currentStart = 0 := by omega
          rw [if_neg Bool.false_ne_true, ih, hzero, Nat.zero_add]

/-- **The tokens changed before a block** are the positions that are not marked equal. -/
theorem changedTokens_eq {opcodes : List Nat → List Nat → List Opcode} {previousTokens currentTokens : List Nat}
    (h : PartitionsTokens (opcodes previousTokens currentTokens) previousTokens currentTokens) {blockStart : Nat}
    (hblock : blockStart ≤ currentTokens.length) :
    (((locateTokenEditSpans opcodes previousTokens currentTokens).filter
        fun e => editPrecedesCandidate e blockStart).map fun e => min e.currentEnd blockStart - e.currentStart).sum
      = changedPositions (opcodes previousTokens currentTokens) blockStart := by
  rw [sum_editsBefore, locateTokenEditSpans_eq, List.map_map]
  have hsum := Alignment.sum_before (fun o => !o.isEqual) blockStart h.current
  refine Eq.trans hsum (List.countP_congr fun position hposition => ?_)
  have hlt := List.mem_range.mp hposition
  rw [h.current.covered_not (Nat.zero_le _) (Nat.lt_of_lt_of_le hlt hblock)]

/-! ### Runs -/

/-- That many blocks before the two starts are whole and equal. -/
def EqualBefore (previousTokens currentTokens : List Nat) (blockSize previousStart currentStart count : Nat) : Prop :=
  count * blockSize ≤ previousStart ∧ count * blockSize ≤ currentStart ∧
    slice previousTokens (previousStart - count * blockSize) previousStart
      = slice currentTokens (currentStart - count * blockSize) currentStart

/-- That many blocks behind the blocks at the two starts are whole and equal. -/
def EqualAfter (previousTokens currentTokens : List Nat) (blockSize previousStart currentStart count : Nat) : Prop :=
  previousStart + (count + 1) * blockSize ≤ previousTokens.length ∧
    currentStart + (count + 1) * blockSize ≤ currentTokens.length ∧
    slice previousTokens (previousStart + blockSize) (previousStart + blockSize + count * blockSize)
      = slice currentTokens (currentStart + blockSize) (currentStart + blockSize + count * blockSize)

/-- The largest numbers of equal whole blocks beside an occurrence. -/
structure MaximalRun (previousTokens currentTokens : List Nat) (blockSize previousStart currentStart : Nat)
    (run : Nat × Nat) : Prop where
  preceding : ∀ count, count ≤ run.1 ↔
    EqualBefore previousTokens currentTokens blockSize previousStart currentStart count
  following : ∀ count, count ≤ run.2 ↔
    EqualAfter previousTokens currentTokens blockSize previousStart currentStart count

section Runs

variable {previousTokens currentTokens : List Nat} {blockSize previousStart currentStart : Nat}

theorem sameBlock_iff {a b : Nat} :
    sameBlock previousTokens currentTokens blockSize a b = true ↔
      slice previousTokens a (a + blockSize) = slice currentTokens b (b + blockSize) := by
  rw [sameBlock, decide_eq_true_eq, slice, slice, Nat.add_sub_cancel_left, Nat.add_sub_cancel_left]

/-- **The run around an occurrence is maximal.** -/
theorem matchingBlockRun_maximal (hsize : 0 < blockSize)
    (hprevious : previousStart + blockSize ≤ previousTokens.length)
    (hcurrent : currentStart + blockSize ≤ currentTokens.length) :
    MaximalRun previousTokens currentTokens blockSize previousStart currentStart
      (matchingBlockRun previousTokens currentTokens previousStart currentStart blockSize) := by
  constructor
  · intro count
    rw [matchingBlockRun, Alignment.le_length_takeWhile_range, Nat.le_div_iff_mul_le hsize, Nat.le_min, and_assoc]
    refine and_congr_right fun hleft => and_congr_right fun hright => ?_
    rw [Alignment.slice_eq_iff_before (by omega) (by omega) hleft hright]
    exact forall_congr' fun j => imp_congr_right fun _ => sameBlock_iff
  · intro count
    rw [matchingBlockRun, Alignment.le_length_takeWhile_range]
    have hsucc : (count + 1) * blockSize = blockSize + count * blockSize := by
      rw [Nat.succ_mul, Nat.add_comm]
    have hbound : count ≤ min (previousTokens.length - previousStart) (currentTokens.length - currentStart)
          / blockSize - 1 ↔
        previousStart + (count + 1) * blockSize ≤ previousTokens.length ∧
          currentStart + (count + 1) * blockSize ≤ currentTokens.length := by
      have hone : 1 ≤ min (previousTokens.length - previousStart) (currentTokens.length - currentStart)
          / blockSize := by
        rw [Nat.le_div_iff_mul_le hsize]
        omega
      have hdiv := @Nat.le_div_iff_mul_le blockSize (count + 1)
        (min (previousTokens.length - previousStart) (currentTokens.length - currentStart)) hsize
      omega
    rw [hbound, EqualAfter, and_assoc]
    refine and_congr_right fun hleft => and_congr_right fun hright => ?_
    rw [hsucc] at hleft hright
    rw [Alignment.slice_eq_iff_after (by omega) (by omega)]
    refine forall_congr' fun j => imp_congr_right fun _ => ?_
    have hnext : (j + 1) * blockSize = blockSize + j * blockSize := by
      rw [Nat.succ_mul, Nat.add_comm]
    rw [hnext, ← Nat.add_assoc, ← Nat.add_assoc]
    exact sameBlock_iff

/-- **The tokens of the preceding run match**, and maybe more before them. -/
theorem run_le_precedingMatchTokens {count : Nat} (hprevious : previousStart ≤ previousTokens.length)
    (hcurrent : currentStart ≤ currentTokens.length)
    (h : EqualBefore previousTokens currentTokens blockSize previousStart currentStart count) :
    count * blockSize ≤ precedingMatchTokens previousTokens currentTokens previousStart currentStart := by
  obtain ⟨hleft, hright, heq⟩ := h
  have hstretch : ∀ {l : List Nat} {start : Nat}, start ≤ l.length → count * blockSize ≤ start →
      (l.take start).reverse.take (count * blockSize) = (slice l (start - count * blockSize) start).reverse := by
    intro l start hl hle
    rw [List.take_reverse, List.length_take_of_le hl, slice, List.drop_take]
  refine le_commonPrefixLength _ _ _ ?_ ?_ ?_
  · rw [List.length_reverse, List.length_take_of_le hprevious]
    exact hleft
  · rw [List.length_reverse, List.length_take_of_le hcurrent]
    exact hright
  · rw [hstretch hprevious hleft, hstretch hcurrent hright, heq]

end Runs

/-! ### The features of a candidate -/

/-- The occurrences at block multiples, or all if there are none. -/
def CandidateBlock.sourceStarts (c : CandidateBlock) : List Nat :=
  if c.alignedPreviousStarts = [] then c.previousStarts else c.alignedPreviousStarts

/-- What the context features of a candidate say. -/
structure DescribesContext (opcodes : List Opcode) (previousTokens currentTokens : List Nat) (blockSize : Nat)
    (c : CandidateBlock) (f : CandidateContextFeatures) : Prop where
  changed : f.currentChangedTokensBeforeCandidate = changedPositions opcodes c.currentStart
  run : ∃ start ∈ c.sourceStarts, MaximalRun previousTokens currentTokens blockSize start c.currentStart
      (f.precedingMatchingRunBlocks, f.followingMatchingRunBlocks) ∧
    f.precedingMatchingRunBlocks * blockSize ≤ start ∧
    f.precedingMatchingRunBlocks * blockSize ≤ c.currentStart ∧
    start + (f.followingMatchingRunBlocks + 1) * blockSize ≤ previousTokens.length ∧
    c.currentStart + (f.followingMatchingRunBlocks + 1) * blockSize ≤ currentTokens.length
  longest : ∀ start ∈ c.sourceStarts, ∀ run, MaximalRun previousTokens currentTokens blockSize start c.currentStart run →
    run.1 + run.2 ≤ f.precedingMatchingRunBlocks + f.followingMatchingRunBlocks
  matched : f.precedingMatchingRunBlocks * blockSize ≤ f.precedingContextMatchTokens

theorem MaximalRun.unique {previousTokens currentTokens : List Nat} {blockSize start currentStart : Nat}
    {run run' : Nat × Nat} (h : MaximalRun previousTokens currentTokens blockSize start currentStart run)
    (h' : MaximalRun previousTokens currentTokens blockSize start currentStart run') : run = run' := by
  refine Prod.ext ?_ ?_
  · exact Nat.le_antisymm ((h'.preceding _).mpr ((h.preceding _).mp (Nat.le_refl _)))
      ((h.preceding _).mpr ((h'.preceding _).mp (Nat.le_refl _)))
  · exact Nat.le_antisymm ((h'.following _).mpr ((h.following _).mp (Nat.le_refl _)))
      ((h.following _).mpr ((h'.following _).mp (Nat.le_refl _)))

theorem le_foldr_max {l : List Nat} {n : Nat} (h : n ∈ l) : n ≤ l.foldr max 0 := by
  induction l with
  | nil => cases h
  | cons m l ih =>
      rcases List.mem_cons.mp h with rfl | h
      · exact Nat.le_max_left ..
      · exact Nat.le_trans (ih h) (Nat.le_max_right ..)

/-- **The features of a candidate** describe its context. -/
theorem candidateContextFeatures_describe {opcodes : List Nat → List Nat → List Opcode}
    {previousTokens currentTokens : List Nat} {native blockSize : Nat} (hsize : 0 < blockSize)
    (h : PartitionsTokens (opcodes previousTokens currentTokens) previousTokens currentTokens) {o : ReuseOpportunity}
    (ho : o.blockSize = blockSize) {c : CandidateBlock}
    (hc : c ∈ candidateBlocksAfter previousTokens currentTokens native blockSize) {f : CandidateContextFeatures}
    (hf : candidateContextFeatures previousTokens currentTokens
      (locateTokenEditSpans opcodes previousTokens currentTokens) o c = .ok f) :
    DescribesContext (opcodes previousTokens currentTokens) previousTokens currentTokens blockSize c f := by
  obtain ⟨⟨-, hfull⟩, hdescribes⟩ := (mem_candidateBlocksAfter_iff hsize).mp hc
  have hcurrent : c.currentStart + blockSize ≤ currentTokens.length := by
    rw [hdescribes.start, ← Nat.succ_mul]
    exact hfull
  have hstarts : ∀ start ∈ c.previousStarts, start + blockSize ≤ previousTokens.length := by
    intro start hstart
    rw [hdescribes.occurrences, mem_contentOccurrences_iff_occursAt (length_fullBlock hfull)] at hstart
    obtain ⟨before, after, heq, rfl⟩ := hstart
    rw [heq, List.length_append, List.length_append, length_fullBlock hfull]
    exact Nat.le_add_right _ _
  have hsource : ∀ start ∈ c.sourceStarts, start ∈ c.previousStarts := by
    intro start hstart
    rw [CandidateBlock.sourceStarts] at hstart
    split at hstart
    · exact hstart
    · rw [hdescribes.aligned] at hstart
      exact (List.mem_filter.mp hstart).1
  have hmaximal : ∀ start ∈ c.sourceStarts, MaximalRun previousTokens currentTokens blockSize start c.currentStart
      (matchingBlockRun previousTokens currentTokens start c.currentStart blockSize) := fun start hstart =>
    matchingBlockRun_maximal hsize (hstarts start (hsource start hstart)) hcurrent
  unfold candidateContextFeatures at hf
  dsimp only at hf
  rw [ho, ← CandidateBlock.sourceStarts] at hf
  cases hrun : (c.sourceStarts.map fun s => matchingBlockRun previousTokens currentTokens s c.currentStart
      blockSize).argmax fun run => toLex (run.1 + run.2, run.1) with
  | none =>
    rw [hrun] at hf
    cases hf
  | some run =>
    rw [hrun] at hf
    cases hf
    obtain ⟨start, hstart, rfl⟩ := List.mem_map.mp (List.argmax_mem hrun)
    have hrunMaximal := hmaximal start hstart
    have hbefore := (hrunMaximal.preceding _).mp (Nat.le_refl _)
    have hafter := (hrunMaximal.following _).mp (Nat.le_refl _)
    refine ⟨?_, ⟨start, hstart, hrunMaximal, hbefore.1, hbefore.2.1, hafter.1, hafter.2.1⟩, ?_, ?_⟩
    · exact changedTokens_eq h (Nat.le_trans (Nat.le_add_right _ _) hcurrent)
    · intro other hother run hother'
      rw [hother'.unique (hmaximal other hother)]
      have hle := List.le_of_mem_argmax (List.mem_map_of_mem hother) hrun
      rcases (Prod.Lex.le_iff ..).mp hle with hlt | ⟨heq, -⟩
      · exact Nat.le_of_lt hlt
      · exact Nat.le_of_eq heq
    · refine Nat.le_trans (run_le_precedingMatchTokens ?_ ?_ hbefore)
        (le_foldr_max (List.mem_map_of_mem (hsource start hstart)))
      · exact Nat.le_trans (Nat.le_add_right _ _) (hstarts start (hsource start hstart))
      · exact Nat.le_trans (Nat.le_add_right _ _) hcurrent

/-- **Context features are exact**: the features of all candidates describe their contexts, and the changed tokens grow
with the start of the block. -/
theorem contextFeatures_describe {opcodes : List Nat → List Nat → List Opcode} {previousTokens currentTokens : List Nat}
    (h : PartitionsTokens (opcodes previousTokens currentTokens) previousTokens currentTokens)
    {native blockSize : Nat} {o : ReuseOpportunity}
    (ho : analyzeReuseOpportunity previousTokens currentTokens native blockSize = .ok o)
    {rows : List CandidateContextFeatures}
    (hrows : extractCandidateContextFeatures opcodes previousTokens currentTokens o = .ok rows) :
    List.Forall₂ (DescribesContext (opcodes previousTokens currentTokens) previousTokens currentTokens blockSize)
        o.candidateBlocks rows ∧
      ∀ (i j : Nat) (c c' : CandidateBlock) (f f' : CandidateContextFeatures), o.candidateBlocks[i]? = some c →
        o.candidateBlocks[j]? = some c' → rows[i]? = some f → rows[j]? = some f' → c.currentStart ≤ c'.currentStart →
        f.currentChangedTokensBeforeCandidate ≤ f'.currentChangedTokensBeforeCandidate := by
  have hsize : 0 < blockSize ∧ o = reuseOpportunity previousTokens currentTokens native blockSize := by
    unfold analyzeReuseOpportunity at ho
    split at ho
    · cases ho
    · next hsize =>
      split at ho
      · cases ho
      · split at ho
        · cases ho
        · cases ho
          exact ⟨by omega, rfl⟩
  obtain ⟨hsize, rfl⟩ := hsize
  have hall : List.Forall₂ (DescribesContext (opcodes previousTokens currentTokens) previousTokens currentTokens
      blockSize) (reuseOpportunity previousTokens currentTokens native blockSize).candidateBlocks rows := by
    unfold extractCandidateContextFeatures at hrows
    split at hrows
    · cases hrows
    · split at hrows
      · cases hrows
      · have hok := Except.mapM_eq_ok_iff.mp hrows
        refine List.forall₂_iff_get.mpr ⟨hok.length_eq, fun i hi hi' => ?_⟩
        exact candidateContextFeatures_describe hsize h rfl (List.get_mem _ ⟨i, hi⟩) (hok.get hi hi')
  refine ⟨hall, ?_⟩
  intro i j c c' f f' hc hc' hf hf' hle
  have hchanged : ∀ {k : Nat} {d : CandidateBlock} {g : CandidateContextFeatures},
      (reuseOpportunity previousTokens currentTokens native blockSize).candidateBlocks[k]? = some d →
      rows[k]? = some g → g.currentChangedTokensBeforeCandidate
        = changedPositions (opcodes previousTokens currentTokens) d.currentStart := by
    intro k d g hd hg
    obtain ⟨hk, rfl⟩ := List.getElem?_eq_some_iff.mp hd
    obtain ⟨hk', rfl⟩ := List.getElem?_eq_some_iff.mp hg
    exact (hall.get hk hk').changed
  rw [hchanged hc hf, hchanged hc' hf']
  exact changedPositions_mono _ hle

/-- One token is inserted behind the first. -/
def insertedOpcodes (_ _ : List Nat) : List Opcode :=
  [⟨true, 0, 1, 0, 1⟩, ⟨false, 1, 1, 1, 2⟩, ⟨true, 1, 3, 2, 4⟩]

theorem contextFeatures_describe_inserted :
    ∃ rows, extractCandidateContextFeatures insertedOpcodes [1, 2, 3] [1, 5, 2, 3]
        (reuseOpportunity [1, 2, 3] [1, 5, 2, 3] 1 1) = .ok rows ∧
      List.Forall₂ (DescribesContext (insertedOpcodes [] []) [1, 2, 3] [1, 5, 2, 3] 1)
        (reuseOpportunity [1, 2, 3] [1, 5, 2, 3] 1 1).candidateBlocks rows := by
  obtain ⟨-, rows, hrows, -⟩ := extract_ok insertedOpcodes [1, 2, 3] [1, 5, 2, 3] 1 1
  have hpartition : PartitionsTokens (insertedOpcodes [1, 2, 3] [1, 5, 2, 3]) [1, 2, 3] [1, 5, 2, 3] :=
    ⟨⟨rfl, by decide, rfl, by decide, rfl, by decide, rfl⟩, ⟨rfl, by decide, rfl, by decide, rfl, by decide, rfl⟩⟩
  exact ⟨rows, hrows, (contextFeatures_describe hpartition
    (analyzeReuseOpportunity_eq (by decide) (by decide)) hrows).1⟩

/-- The second candidate is behind the inserted token, with the first one before it. -/
example : (extractCandidateContextFeatures insertedOpcodes [1, 2, 3] [1, 5, 2, 3]
      (reuseOpportunity [1, 2, 3] [1, 5, 2, 3] 1 1)).toOption.map (fun rows => rows.map fun f =>
        (f.currentChangedTokensBeforeCandidate, f.precedingMatchingRunBlocks, f.followingMatchingRunBlocks))
    = some [(1, 0, 1), (1, 1, 0)] := by
  decide +kernel

end CacheSelect.Features

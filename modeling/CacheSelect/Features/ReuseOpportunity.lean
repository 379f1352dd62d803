import CacheSelect.Core.Request
import Mathlib.Data.Rat.Defs
import Mathlib.Data.List.MinMax
import Mathlib.Data.List.DropRight
import Mathlib.Data.Prod.Lex

/-! # Reuse opportunity and selector features

The prompt-only analysis that the locator attaches to its candidates: which full blocks of the
current prompt occur in the previous one (`analyzeReuseOpportunity`), and the block and context
features of every such candidate.  Ratios are exact rationals where the source has floats.  Two fields of the
source's record are left out, since nothing here reads them: `monotonic_matching_spans` and
`monotonic_post_edit_matching_tokens`.

The loops of the source that count equal tokens are `commonPrefixLength` of the lists they walk, read
backwards where the source walks backwards.  The opcodes of `difflib.SequenceMatcher` are a parameter
of the context features.
-/

namespace CacheSelect.Features

open CacheSelect.Core

/-- `_common_prefix_length`. -/
def commonPrefixLength : List Nat → List Nat → Nat
  | l :: left, r :: right => if l ≠ r then 0 else commonPrefixLength left right + 1
  | _, _ => 0

/-- `_common_suffix_length`: the walk from the end stops before the common prefix. -/
def commonSuffixLength (left right : List Nat) (commonPrefixTokens : Nat) : Nat :=
  let available := min left.length right.length - commonPrefixTokens
  commonPrefixLength (left.reverse.take available) (right.reverse.take available)

theorem commonPrefixLength_le_left : ∀ l r : List Nat, commonPrefixLength l r ≤ l.length := by
  intro l
  induction l with
  | nil => intro r; simp [commonPrefixLength]
  | cons a l ih =>
      intro r
      cases r with
      | nil => simp [commonPrefixLength]
      | cons b r =>
          rw [commonPrefixLength]
          split
          · simp
          · simpa using ih r

/-- The lists agree on every prefix up to the common length. -/
theorem take_eq_of_le_commonPrefixLength : ∀ (l r : List Nat) (n : Nat),
    n ≤ commonPrefixLength l r → l.take n = r.take n := by
  intro l
  induction l with
  | nil => intro r n h; simp only [commonPrefixLength, Nat.le_zero] at h; simp [h]
  | cons a l ih =>
      intro r n h
      cases r with
      | nil => simp only [commonPrefixLength, Nat.le_zero] at h; simp [h]
      | cons b r =>
          rw [commonPrefixLength] at h
          split at h
          · have : n = 0 := by omega
            simp [this]
          · rename_i hab
            cases n with
            | zero => simp
            | succ n =>
                rw [not_not.mp hab, List.take_succ_cons, List.take_succ_cons, ih r n (by omega)]

/-- A longer agreeing prefix cannot exist. -/
theorem le_commonPrefixLength : ∀ (l r : List Nat) (n : Nat), n ≤ l.length → n ≤ r.length →
    l.take n = r.take n → n ≤ commonPrefixLength l r := by
  intro l
  induction l with
  | nil => intro r n h _ _; rw [Nat.le_zero.mp h]; exact Nat.zero_le _
  | cons a l ih =>
      intro r n hl hr h
      cases n with
      | zero => exact Nat.zero_le _
      | succ n =>
          cases r with
          | nil => simp at hr
          | cons b r =>
              rw [List.take_succ_cons, List.take_succ_cons, List.cons.injEq] at h
              rw [commonPrefixLength, if_neg (not_not.mpr h.1)]
              exact Nat.succ_le_succ (ih r n (by simpa using hl) (by simpa using hr) h.2)

/-- `_content_occurrences`, looked up at one block: the starts where it occurs. -/
def contentOccurrences (tokens : List Nat) (width : Nat) (block : List Nat) : List Nat :=
  (List.range (tokens.length + 1 - width)).filter fun start =>
    (tokens.drop start).take width = block

/-- **The occurrences of a block** are the windows of the width with its tokens. -/
theorem mem_contentOccurrences {tokens block : List Nat} {width start : Nat} :
    start ∈ contentOccurrences tokens width block ↔
      start + width ≤ tokens.length ∧ (tokens.drop start).take width = block := by
  rw [contentOccurrences, List.mem_filter, List.mem_range, decide_eq_true_eq]
  refine and_congr_left fun _ => ?_
  omega

structure CandidateBlock where
  currentBlockIndex : Nat
  currentStart : Nat
  previousStarts : List Nat
  alignedPreviousStarts : List Nat
  samePositionMatch : Bool
deriving DecidableEq, Repr

namespace CandidateBlock

def hasWholeSourceBlock (c : CandidateBlock) : Bool :=
  !c.alignedPreviousStarts.isEmpty

def moved (c : CandidateBlock) : Bool :=
  !c.samePositionMatch

def requiresRepacking (c : CandidateBlock) : Bool :=
  !c.hasWholeSourceBlock

end CandidateBlock

structure ReuseOpportunity where
  blockSize : Nat
  previousTokenCount : Nat
  currentTokenCount : Nat
  exactCommonPrefixTokens : Nat
  nativeCachedTokens : Nat
  prefixAlignmentLossTokens : Nat
  commonSuffixTokens : Nat
  recomputedFullBlockCount : Nat
  candidateBlockCount : Nat
  candidateTokenCount : Nat
  wholeSourceBlockCount : Nat
  repackingRequiredBlockCount : Nat
  movedCandidateBlockCount : Nat
  candidateShareOfNativeRecompute : Rat
  candidateBlocks : List CandidateBlock
deriving DecidableEq, Repr

/-- The candidate of the full block starting at `currentStart`, if its content occurs in the
previous prompt. -/
def candidateBlock? (previousTokens currentTokens : List Nat) (blockSize currentStart : Nat) :
    Option CandidateBlock :=
  let starts := contentOccurrences previousTokens blockSize
    ((currentTokens.drop currentStart).take blockSize)
  if starts = [] then none
  else some {
    currentBlockIndex := currentStart / blockSize
    currentStart := currentStart
    previousStarts := starts
    alignedPreviousStarts := starts.filter fun s => s % blockSize = 0
    samePositionMatch := starts.contains currentStart }

/-- The full blocks of the current prompt after the native prefix that occur in the previous one. -/
def candidateBlocksAfter (previousTokens currentTokens : List Nat)
    (nativeCachedTokens blockSize : Nat) : List CandidateBlock :=
  let firstRecomputed := (nativeCachedTokens + blockSize - 1) / blockSize
  (List.range' firstRecomputed (currentTokens.length / blockSize - firstRecomputed)).filterMap
    fun i => candidateBlock? previousTokens currentTokens blockSize (i * blockSize)

/-- The report of an accepted analysis. -/
def reuseOpportunity (previousTokens currentTokens : List Nat)
    (nativeCachedTokens blockSize : Nat) : ReuseOpportunity :=
  let exactPrefix := commonPrefixLength previousTokens currentTokens
  let candidates := candidateBlocksAfter previousTokens currentTokens nativeCachedTokens blockSize
  let recompute := currentTokens.length - nativeCachedTokens
  { blockSize := blockSize
    previousTokenCount := previousTokens.length
    currentTokenCount := currentTokens.length
    exactCommonPrefixTokens := exactPrefix
    nativeCachedTokens := nativeCachedTokens
    prefixAlignmentLossTokens := exactPrefix - nativeCachedTokens
    commonSuffixTokens := commonSuffixLength previousTokens currentTokens exactPrefix
    recomputedFullBlockCount := currentTokens.length / blockSize
      - (nativeCachedTokens + blockSize - 1) / blockSize
    candidateBlockCount := candidates.length
    candidateTokenCount := candidates.length * blockSize
    wholeSourceBlockCount := candidates.countP CandidateBlock.hasWholeSourceBlock
    repackingRequiredBlockCount := candidates.countP CandidateBlock.requiresRepacking
    movedCandidateBlockCount := candidates.countP CandidateBlock.moved
    candidateShareOfNativeRecompute :=
      if recompute = 0 then 0
      else ((candidates.length * blockSize : Nat) : Rat) / (recompute : Rat)
    candidateBlocks := candidates }

def analyzeReuseOpportunity (previousTokens currentTokens : List Nat)
    (nativeCachedTokens blockSize : Nat) : Except PyError ReuseOpportunity :=
  if blockSize < 1 then .error (.valueError "block_size must be positive")
  else if currentTokens.length < nativeCachedTokens then
    .error (.valueError "native_cached_tokens must be between zero and current token count")
  else if commonPrefixLength previousTokens currentTokens < nativeCachedTokens then
    .error (.valueError "native_cached_tokens exceeds the exact common prefix")
  else .ok (reuseOpportunity previousTokens currentTokens nativeCachedTokens blockSize)

theorem commonPrefixLength_comm : ∀ l r : List Nat,
    commonPrefixLength l r = commonPrefixLength r l := by
  intro l
  induction l with
  | nil => intro r; cases r <;> rfl
  | cons a l ih =>
      intro r
      cases r with
      | nil => rfl
      | cons b r =>
          by_cases hab : a = b
          · simp [commonPrefixLength, hab, ih r]
          · simp [commonPrefixLength, hab, Ne.symm hab]

/-- **When the analysis accepts**, for a positive block size: whenever the native hit lies within
the common prefix. -/
theorem analyzeReuseOpportunity_eq {previousTokens currentTokens : List Nat} {native bs : Nat}
    (hbs : 0 < bs) (h : native ≤ commonPrefixLength previousTokens currentTokens) :
    analyzeReuseOpportunity previousTokens currentTokens native bs
      = .ok (reuseOpportunity previousTokens currentTokens native bs) := by
  have hle := commonPrefixLength_le_left currentTokens previousTokens
  rw [commonPrefixLength_comm] at hle
  rw [analyzeReuseOpportunity, if_neg (by omega), if_neg (by omega), if_neg (by omega)]

theorem analyzeReuseOpportunity_error {previousTokens currentTokens : List Nat} {native : Nat} (bs : Nat)
    (h : commonPrefixLength previousTokens currentTokens < native) :
    ∃ e, analyzeReuseOpportunity previousTokens currentTokens native bs = .error e := by
  unfold analyzeReuseOpportunity
  split
  · exact ⟨_, rfl⟩
  split
  · exact ⟨_, rfl⟩
  exact ⟨_, rfl⟩

/-- A candidate block always has a source occurrence. -/
theorem previousStarts_ne_nil {previousTokens currentTokens : List Nat} {native bs : Nat}
    {c : CandidateBlock} (hc : c ∈ candidateBlocksAfter previousTokens currentTokens native bs) :
    c.previousStarts ≠ [] := by
  simp only [candidateBlocksAfter, List.mem_filterMap] at hc
  obtain ⟨i, -, hi⟩ := hc
  rw [candidateBlock?] at hi
  split at hi
  · cases hi
  · rename_i hne
    cases hi
    exact hne

end CacheSelect.Features

import CacheSelect.Core.Request
import CacheSelect.Lib.Except
import Mathlib.Data.List.Sort
import Mathlib.Algebra.Ring.Nat

/-! # Copy and repair plans of the worker

What the worker makes of a forwarded reuse plan: `resolveTargetBlockIds` finds the physical target
blocks, `buildPartialReuseCopyInstructions` the copies, the repair selectors the tokens to recompute,
and `buildReusedTokenIndices`, `filterShortReuseSpans` and `filterPartialReuseCopyInstructions` what
is left to reuse.

The evaluation of the exported repair model is a parameter of the `mlp` selector, which may raise;
the selector turns the exceptions that the source catches into a repair.
-/

namespace CacheSelect.Worker

open CacheSelect.Core

structure ResolvedPartialReuseCandidate where
  sourceBlockIndex : Nat
  targetBlockIndex : Nat
  sourceBlockId : Nat
  targetBlockId : Nat
  sourceResident : Bool
  requiresRepair : Bool
  blockDisplacement : Int := 0
  nearestChangedBlockDistance : Option Nat := none
  sourceBlockIds : List Nat := []
  sourceBlockOffset : Nat := 0
  selectorFeatures : List (String × Rat) := []
deriving DecidableEq, Repr

structure PartialReuseCopyInstruction where
  sourceBlockId : Nat
  targetBlockId : Nat
  targetBlockIndex : Nat
  requiresRepair : Bool
  sourceBlockIndex : Nat := 0
  sourceBlockIds : List Nat := []
  sourceBlockOffset : Nat := 0
deriving DecidableEq, Repr

namespace PartialReuseCopyInstruction

def physicalSourceBlockIds (i : PartialReuseCopyInstruction) : List Nat :=
  if i.sourceBlockIds = [] then [i.sourceBlockId] else i.sourceBlockIds

def requiresRepacking (i : PartialReuseCopyInstruction) : Bool :=
  i.sourceBlockOffset != 0

end PartialReuseCopyInstruction

structure PartialReuseRepairInstruction where
  sourceBlockId : Nat
  targetBlockId : Nat
  targetBlockIndex : Nat
  targetTokenIndices : List Nat
deriving DecidableEq, Repr

/-! ### Targets and copies -/

def resolveCandidate (c : PartialReuseCandidate) (targetBlockId : Nat) :
    ResolvedPartialReuseCandidate where
  sourceBlockIndex := c.sourceBlockIndex
  targetBlockIndex := c.targetBlockIndex
  sourceBlockId := c.sourceBlockId
  targetBlockId := targetBlockId
  sourceResident := c.sourceResident
  requiresRepair := c.requiresRepair
  blockDisplacement := c.blockDisplacement
  nearestChangedBlockDistance := c.nearestChangedBlockDistance
  sourceBlockIds := c.sourceBlockIds
  sourceBlockOffset := c.sourceBlockOffset
  selectorFeatures := c.selectorFeatures

/-- The loop of `resolve_target_block_ids` over one group's table. -/
def resolveCandidates (targetGroup : List Nat) (allowUnallocated : Bool) :
    List PartialReuseCandidate → Except PyError (List ResolvedPartialReuseCandidate)
  | [] => .ok []
  | c :: rest =>
      match targetGroup[c.targetBlockIndex]? with
      | some b => do
          let resolved ← resolveCandidates targetGroup allowUnallocated rest
          .ok (resolveCandidate c b :: resolved)
      | none =>
          -- chunked prefill allocates later prompt blocks in future steps
          if allowUnallocated then resolveCandidates targetGroup allowUnallocated rest
          else
            .error (.valueError
              s!"target block index {c.targetBlockIndex} is outside the request block table")

def resolveTargetBlockIds (plan : PartialReusePlan) (targetBlockIds : List (List Nat))
    (allowUnallocated : Bool) : Except PyError (List ResolvedPartialReuseCandidate) :=
  match targetBlockIds with
  | [targetGroup] => resolveCandidates targetGroup allowUnallocated plan.candidates
  | _ => .error (.valueError "partial reuse currently requires one KV cache group")

def copyInstruction (c : ResolvedPartialReuseCandidate) : PartialReuseCopyInstruction where
  sourceBlockId := c.sourceBlockId
  targetBlockId := c.targetBlockId
  targetBlockIndex := c.targetBlockIndex
  requiresRepair := c.requiresRepair
  sourceBlockIndex := c.sourceBlockIndex
  sourceBlockIds := c.sourceBlockIds
  sourceBlockOffset := c.sourceBlockOffset

def buildPartialReuseCopyInstructions (candidates : List ResolvedPartialReuseCandidate) :
    List PartialReuseCopyInstruction :=
  candidates.map copyInstruction

/-- Drop the copies of blocks that the repair policy recomputes in full. -/
def filterPartialReuseCopyInstructions (instructions : List PartialReuseCopyInstruction)
    (reusedTokenIndices : List Nat) (blockSize : Nat) :
    Except PyError (List PartialReuseCopyInstruction) :=
  if blockSize < 1 then .error (.valueError "block_size must be positive")
  else
    .ok (instructions.filter fun i =>
      reusedTokenIndices.any fun t => t / blockSize == i.targetBlockIndex)

/-! ### Repair -/

/-- `build_full_block_repair_instructions`. -/
def buildFullBlockRepairInstructions (candidates : List ResolvedPartialReuseCandidate)
    (blockSize : Nat) : Except PyError (List PartialReuseRepairInstruction) :=
  if blockSize < 1 then .error (.valueError "block_size must be positive")
  else
    .ok ((candidates.filter ResolvedPartialReuseCandidate.requiresRepair).map fun c =>
      { sourceBlockId := c.sourceBlockId
        targetBlockId := c.targetBlockId
        targetBlockIndex := c.targetBlockIndex
        targetTokenIndices := List.range' (c.targetBlockIndex * blockSize) blockSize })

/-- `build_counterfactual_repair_instructions`: repair all candidates but the chosen one. -/
def buildCounterfactualRepairInstructions (candidates : List ResolvedPartialReuseCandidate)
    (blockSize reusedTargetBlockIndex : Nat) :
    Except PyError (List PartialReuseRepairInstruction) :=
  if (candidates.filter fun c => c.targetBlockIndex == reusedTargetBlockIndex).length ≠ 1 then
    .error (.valueError "counterfactual target must identify exactly one resolved candidate")
  else
    buildFullBlockRepairInstructions
      (candidates.filter fun c => c.targetBlockIndex != reusedTargetBlockIndex) blockSize

/-- The configured repair policy. -/
inductive RepairSelector
  | fullBlock
  | editProximity (maxBlockDistance : Nat)
  | mlp (shouldRepair : List (String × Rat) → Except PyError Bool)

/-- The exceptions that `MLPRepairSelector.select` turns into a repair. -/
def PyError.isCaughtByMlp : PyError → Bool
  | .keyError | .typeError | .valueError _ | .overflowError => true
  | _ => false

/-- Whether the model keeps a candidate for repair. -/
def mlpRepairs (shouldRepair : List (String × Rat) → Except PyError Bool)
    (c : ResolvedPartialReuseCandidate) : Except PyError Bool :=
  match shouldRepair c.selectorFeatures with
  | .ok repair => .ok repair
  | .error e => if PyError.isCaughtByMlp e then .ok true else .error e

/-- The loop of `MLPRepairSelector.select`. -/
def mlpSelected (shouldRepair : List (String × Rat) → Except PyError Bool) :
    List ResolvedPartialReuseCandidate → Except PyError (List ResolvedPartialReuseCandidate)
  | [] => .ok []
  | c :: rest =>
      if c.requiresRepair = false then mlpSelected shouldRepair rest
      else do
        let repair ← mlpRepairs shouldRepair c
        let selected ← mlpSelected shouldRepair rest
        .ok (if repair then c :: selected else selected)

/-- `EditProximityRepairSelector.select`: near candidates, and those without geometry. -/
def editProximitySelected (maxBlockDistance : Nat)
    (candidates : List ResolvedPartialReuseCandidate) : List ResolvedPartialReuseCandidate :=
  candidates.filter fun c => c.requiresRepair &&
    match c.nearestChangedBlockDistance with
    | none => true
    | some d => d ≤ maxBlockDistance

def RepairSelector.select (s : RepairSelector) (candidates : List ResolvedPartialReuseCandidate)
    (blockSize : Nat) : Except PyError (List PartialReuseRepairInstruction) :=
  match s with
  | .fullBlock => buildFullBlockRepairInstructions candidates blockSize
  | .editProximity d =>
      buildFullBlockRepairInstructions (editProximitySelected d candidates) blockSize
  | .mlp shouldRepair => do
      let selected ← mlpSelected shouldRepair candidates
      buildFullBlockRepairInstructions selected blockSize

def RepairSelector.name : RepairSelector → String
  | .fullBlock => "full_block"
  | .editProximity _ => "edit_proximity"
  | .mlp _ => "mlp"

/-- `COUNTERFACTUAL_REPAIR_SELECTOR`. -/
def counterfactualRepairSelector : String := "counterfactual_single_block"

/-! ### What stays reused -/

/-- The token positions of the copied blocks. -/
def candidateTokens (copies : List PartialReuseCopyInstruction) (blockSize : Nat) : List Nat :=
  copies.flatMap fun i => List.range' (i.targetBlockIndex * blockSize) blockSize

/-- The checks of `build_reused_token_indices` on the repair plan. -/
def checkRepairs (targets : List Nat) (blockSize : Nat) :
    List PartialReuseRepairInstruction → Except PyError Unit
  | [] => .ok ()
  | r :: rest =>
      if r.targetBlockIndex ∉ targets then
        .error (.valueError "repair plan references a non-candidate block")
      else if r.targetTokenIndices.any fun t =>
          t < r.targetBlockIndex * blockSize || (r.targetBlockIndex + 1) * blockSize ≤ t then
        .error (.valueError "repair token lies outside its target block")
      else checkRepairs targets blockSize rest

/-- `build_reused_token_indices`: the copied positions that are not repaired, in order. -/
def buildReusedTokenIndices (copies : List PartialReuseCopyInstruction)
    (repairs : List PartialReuseRepairInstruction) (blockSize : Nat) :
    Except PyError (List Nat) :=
  let targets := copies.map PartialReuseCopyInstruction.targetBlockIndex
  if blockSize < 1 then .error (.valueError "block_size must be positive")
  else if ¬ targets.Nodup then
    .error (.valueError "copy plan contains duplicate target blocks")
  else do
    checkRepairs targets blockSize repairs
    let repairTokens := repairs.flatMap PartialReuseRepairInstruction.targetTokenIndices
    .ok (((candidateTokens copies blockSize).filter fun t =>
      !repairTokens.contains t).insertionSort (· ≤ ·))

/-- The minimum length of a run, by whether it touches a repacked block. -/
def runMinimum (blockSize minimumSpanBlocks repackedMinimum : Nat) (repackedBlocks run : List Nat) :
    Nat :=
  if run.any fun t => repackedBlocks.contains (t / blockSize) then repackedMinimum * blockSize
  else minimumSpanBlocks * blockSize

/-- The loop of `filter_short_reuse_spans`: `run` is the current run of consecutive positions. -/
def retainRuns (keep : List Nat → Bool) : List Nat → List Nat → List Nat
  | run, [] => if keep run then run else []
  | run, x :: rest =>
      if run.getLast? = some (x - 1) ∧ 0 < x then retainRuns keep (run ++ [x]) rest
      else (if keep run then run else []) ++ retainRuns keep [x] rest

/-- Drop the runs of reused positions that are too short to be worth a separate forward. -/
def filterShortReuseSpans (reusedTokenIndices : List Nat) (blockSize minimumSpanBlocks : Nat)
    (repackedBlockIndices : List Nat) (minimumRepackedSpanBlocks : Option Nat) :
    Except PyError (List Nat) :=
  let repackedMinimum := minimumRepackedSpanBlocks.getD minimumSpanBlocks
  if blockSize < 1 ∨ min minimumSpanBlocks repackedMinimum < 1 then
    .error (.valueError "block size and minimum spans must be positive")
  else if ¬ reusedTokenIndices.Pairwise (· < ·) then
    .error (.valueError "reused token indices must be sorted and unique")
  else match reusedTokenIndices with
    | [] => .ok []
    | x :: rest =>
        if minimumSpanBlocks = 1 ∧ repackedMinimum = 1 then .ok (x :: rest)
        else .ok (retainRuns (fun run => runMinimum blockSize minimumSpanBlocks repackedMinimum
          repackedBlockIndices run ≤ run.length) [x] rest)

/-! ### Metrics -/

structure CacheSelectRepairMetrics where
  selector : String
  candidateTokens : Nat
  repairTokens : Nat
  skippedRepairTokens : Nat
  copiedBlocks : Nat := 0
  copiedTokens : Nat := 0
  executionEligible : Bool := false
  executionReason : String := "not_evaluated"
  reusedBatchRows : Nat := 0
  computeBatchRows : Nat := 0
  computeSpanCount : Nat := 0
  compactedBatchBuilt : Bool := false
  compactedBatchExecuted : Bool := false
  spanMetadataBuilt : Bool := false
  spanMetadataCount : Nat := 0
deriving DecidableEq, Repr

/-- `summarize_repair_selection`. -/
def summarizeRepairSelection (selectorName : String)
    (candidates : List ResolvedPartialReuseCandidate)
    (repairs : List PartialReuseRepairInstruction) (blockSize : Nat) :
    Except PyError CacheSelectRepairMetrics :=
  let required := candidates.countP ResolvedPartialReuseCandidate.requiresRepair * blockSize
  let repairTokens := (repairs.map fun r => r.targetTokenIndices.length).sum
  if blockSize < 1 then .error (.valueError "block_size must be positive")
  else if required < repairTokens then
    .error (.valueError "repair plan exceeds tokens marked for repair")
  else
    .ok {
      selector := selectorName
      candidateTokens := candidates.length * blockSize
      repairTokens := repairTokens
      skippedRepairTokens := required - repairTokens }

/-- `record_copy_execution`. -/
def recordCopyExecution (metrics : CacheSelectRepairMetrics) (copiedBlocks blockSize : Nat) :
    Except PyError CacheSelectRepairMetrics :=
  if blockSize < 1 then .error (.valueError "block_size must be positive")
  else if metrics.candidateTokens < copiedBlocks * blockSize then
    .error (.valueError "copied tokens exceed candidate tokens")
  else
    .ok { metrics with copiedBlocks := copiedBlocks, copiedTokens := copiedBlocks * blockSize }

end CacheSelect.Worker

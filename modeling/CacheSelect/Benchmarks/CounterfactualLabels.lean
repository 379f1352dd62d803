import CacheSelect.Benchmarks.Evaluation
import CacheSelect.Benchmarks.TrialLedger
import Mathlib.Data.List.Sort

/-! # Labels of counterfactual interventions

An intervention reuses one candidate block and repairs the others.  `validateCounterfactualExecution` checks in the
metrics of the server that this is what it did, and `scoreSingleBlockIntervention` compares the answer with that of
the full computation.  A result without a decision is invalid, or valid and left to a review.
-/

namespace CacheSelect.Benchmarks

/-! ### The metrics of the server -/

structure ReportedCandidate where
  targetBlockIndex : Option Int := none
  sourceResident : Option Bool := none
deriving DecidableEq, Repr

/-- The plan that the server reports; a candidate that is no object is `none`. -/
structure ServerPlan extends ReportedPlan where
  counterfactualReuseBlockIndex : Option Int := none
  candidateBlockCount : Option Int := none
  candidateTokenCount : Option Int := none
  candidates : Option (List (Option ReportedCandidate)) := none
deriving DecidableEq, Repr

structure ServerMetrics where
  partialReusePlan : Option ServerPlan := none
  repairSelector : Option String := none
  candidateTokens : Option Int := none
  repairTokens : Option Int := none
  skippedRepairTokens : Option Int := none
  copiedBlocks : Option Int := none
  copiedTokens : Option Int := none
  reusedBatchRows : Option Int := none
  executionEligible : Option Bool := none
  executionReason : Option String := none
  compactedBatchBuilt : Option Bool := none
  spanMetadataBuilt : Option Bool := none
  compactedBatchExecuted : Option Bool := none
deriving DecidableEq, Repr

/-! ### Execution -/

structure SingleBlockIntervention where
  traceId : String
  transitionId : String
  candidateBlockIndices : List Int
  reusedBlockIndex : Int
deriving DecidableEq, Repr

structure CounterfactualExecutionEvidence where
  valid : Bool
  reason : String
  reusedBatchRows : Option Int
deriving DecidableEq, Repr

def sortedInts (xs : List Int) : List Int :=
  xs.insertionSort (· ≤ ·)

/-- What has to hold of the metrics, with the reason that is given where it does not. -/
def executionChecks (i : SingleBlockIntervention) (blockSize : Int) (m : ServerMetrics) :
    List (Bool × String) :=
  let plan := m.partialReusePlan.getD {}
  let planCandidates := (plan.candidates.getD []).filterMap id
  let reportedTargets := sortedInts (planCandidates.filterMap ReportedCandidate.targetBlockIndex)
  let targetCandidates := planCandidates.filter fun c => c.targetBlockIndex = some i.reusedBlockIndex
  let expectedCandidates : Int := i.candidateBlockIndices.length
  let expectedCandidateTokens := expectedCandidates * blockSize
  [(m.repairSelector = some "counterfactual_single_block", "counterfactual selector was not used"),
   (plan.blockSize = some blockSize, "server block size did not match"),
   (plan.transitionId = some i.transitionId, "server transition did not match the intervention"),
   (plan.counterfactualReuseBlockIndex = some i.reusedBlockIndex,
    "server selected a different counterfactual block"),
   (reportedTargets = i.candidateBlockIndices,
    "server candidate blocks did not match the intervention"),
   (targetCandidates.map ReportedCandidate.sourceResident = [some true],
    "selected source block was not uniquely resident"),
   (m.candidateTokens = some expectedCandidateTokens,
    "resolved candidate-token count did not match the intervention"),
   (m.repairTokens = some ((expectedCandidates - 1) * blockSize),
    "vLLM did not repair every other candidate block"),
   (m.skippedRepairTokens = some blockSize, "vLLM did not skip exactly one block"),
   (m.copiedBlocks = some expectedCandidates, "not every candidate block was copied"),
   (m.copiedTokens = some expectedCandidateTokens,
    "copied-token count did not match the intervention"),
   (m.executionEligible = some true, "partial execution did not pass its safety gate"),
   (m.executionReason = some "eligible", "partial execution reported an unexpected reason"),
   (m.reusedBatchRows = some blockSize, "exactly one full block was not reused"),
   (m.compactedBatchBuilt = some true, "the compact partial batch was not built"),
   (m.spanMetadataBuilt = some true, "partial span metadata was not built"),
   (m.compactedBatchExecuted = some true, "the compact partial forward did not execute")]

def validateCounterfactualExecution (i : SingleBlockIntervention) (blockSize : Int) (m : ServerMetrics) :
    Except Raised CounterfactualExecutionEvidence :=
  if blockSize < 1 then .error (.valueError "block_size must be positive")
  else
    let failure := (executionChecks i blockSize m).find? fun check => !check.1
    .ok {
      valid := failure.isNone
      reason := (failure.map Prod.snd).getD "vLLM executed exactly one full-block intervention."
      reusedBatchRows := m.reusedBatchRows }

/-! ### Quality -/

/-- What is read of the score of a response. -/
structure ResponseQuality where
  mode : String
  passed : Bool
  calibrationId : Option (List Nat) := none
  tokenRecall : Option Rat := none
  rougeLF1 : Option Rat := none

structure QualityComparison where
  validReference : Bool
  passed : Bool
deriving DecidableEq, Repr

/-- The drop of a metric, of two values that lie between zero and one. -/
def metricDrop (metric : String) (reference intervention : Option Rat) : Except Raised Rat :=
  match reference, intervention with
  | some r, some i =>
      if 0 ≤ r ∧ r ≤ 1 ∧ 0 ≤ i ∧ i ≤ 1 then .ok (r - i)
      else .error (.valueError s!"quality comparison has invalid {metric}")
  | _, _ => .error (.valueError s!"quality comparison has invalid {metric}")

/-- `compare_response_quality`. -/
def compareResponseQuality (reference intervention : ResponseQuality) (expectedAnswer : String)
    (gate : Option ReferenceSimilarityGate) : Except Raised QualityComparison :=
  let expectedMode := if gate.isSome then "reference_similarity" else "requirements"
  if reference.mode ≠ expectedMode then
    .error (.valueError "reference quality used an unexpected scoring mode")
  else if intervention.mode ≠ expectedMode then
    .error (.valueError "intervention quality used an unexpected scoring mode")
  else
    match gate with
    | none => .ok {
        validReference := reference.passed
        passed := reference.passed && intervention.passed }
    | some gate =>
        if expectedAnswer = "" then
          .error (.valueError "reference quality comparison requires an expected answer")
        else if reference.calibrationId ≠ some gate.calibrationId ∨
            intervention.calibrationId ≠ some gate.calibrationId then
          .error (.valueError "response quality used the wrong calibration")
        else do
          let recallDrop ← metricDrop "token_recall" reference.tokenRecall intervention.tokenRecall
          let rougeDrop ← metricDrop "rouge_l_f1" reference.rougeLF1 intervention.rougeLF1
          .ok {
            validReference := reference.passed
            passed := reference.passed && intervention.passed &&
              decide (recallDrop ≤ gate.maximumMetricDrop ∧ rougeDrop ≤ gate.maximumMetricDrop) }

/-! ### Scores -/

inductive RepairDecision
  | repair
  | reuse
deriving DecidableEq, Repr

structure CounterfactualLabelResult where
  validReference : Bool
  validExecution : Bool
  decision : Option RepairDecision
  exactOutputMatch : Bool
  reason : String
deriving DecidableEq, Repr

/-- Convert one pair of outputs into a decision about the block; a missing output is an empty one. -/
def scoreSingleBlockIntervention (evidence : CounterfactualExecutionEvidence)
    (referenceOutput interventionOutput : Option String)
    (referenceQualityPassed interventionQualityPassed requireExactOutputMatch : Bool) :
    CounterfactualLabelResult :=
  let reference := referenceOutput.getD ""
  let candidate := interventionOutput.getD ""
  let exactMatch := decide (reference ≠ "" ∧ reference = candidate)
  if reference = "" ∨ referenceQualityPassed = false then {
    validReference := false
    validExecution := evidence.valid
    decision := none
    exactOutputMatch := exactMatch
    reason := "Full-recompute reference did not pass its quality gate." }
  else if evidence.valid = false then {
    validReference := true
    validExecution := false
    decision := none
    exactOutputMatch := exactMatch
    reason := evidence.reason }
  else if requireExactOutputMatch = true ∧ exactMatch = false then {
    validReference := true
    validExecution := true
    decision := none
    exactOutputMatch := false
    reason := "Non-exact output requires blinded manual review." }
  else if candidate = "" ∨ interventionQualityPassed = false then {
    validReference := true
    validExecution := true
    decision := some .repair
    exactOutputMatch := exactMatch
    reason := "Reusing this block caused the task quality gate to fail." }
  else {
    validReference := true
    validExecution := true
    decision := some .reuse
    exactOutputMatch := exactMatch
    reason := "Reusing this block preserved the configured output-quality gate." }

/-- The result of an intervention that was cut off. -/
def CounterfactualLabelResult.withheld (r : CounterfactualLabelResult) : CounterfactualLabelResult :=
  { r with
    decision := none
    reason := "Truncated intervention was preserved but withheld from labeling." }

structure BlockRepairLabel where
  decision : RepairDecision
  reason : String
deriving DecidableEq, Repr

def counterfactualBlockLabel (r : CounterfactualLabelResult) : Except Raised BlockRepairLabel :=
  if r.validReference = false ∨ r.validExecution = false then
    .error (.valueError "cannot label a block from an invalid experiment")
  else
    match r.decision with
    | none => .error (.valueError "valid counterfactual experiment has no decision")
    | some decision => .ok { decision, reason := r.reason }

/-- The label of a result with a decision. -/
def labelOf (r : CounterfactualLabelResult) : Except Raised (Option BlockRepairLabel) :=
  match r.decision with
  | none => .ok none
  | some _ => (counterfactualBlockLabel r).map some

namespace CounterfactualLabelResult

def valid (r : CounterfactualLabelResult) : Bool :=
  r.validReference && r.validExecution

end CounterfactualLabelResult

/-- **When a valid trial abstains** in a run that wants equal outputs: when they are not equal. -/
theorem decision_eq_none_iff {evidence : CounterfactualExecutionEvidence} {reference : String}
    {candidate : Option String} {q q' : Bool} (href : reference ≠ "")
    (hvalid : (scoreSingleBlockIntervention evidence (some reference) candidate q q' true).valid = true) :
    (scoreSingleBlockIntervention evidence (some reference) candidate q q' true).decision = none ↔
      candidate ≠ some reference := by
  have hexact : reference = candidate.getD "" ↔ candidate = some reference := by
    cases candidate with
    | none => exact ⟨fun h => absurd h href, nofun⟩
    | some c => exact ⟨fun h => congrArg some h.symm, fun h => (Option.some.inj h).symm⟩
  rw [scoreSingleBlockIntervention] at hvalid ⊢
  simp only [Option.getD_some, true_and] at hvalid ⊢
  split at hvalid
  · cases hvalid
  · next hq =>
    rw [if_neg hq]
    split at hvalid
    · cases hvalid
    · next hv =>
      rw [if_neg hv]
      by_cases heq : candidate = some reference
      · have hmatch : reference = candidate.getD "" := hexact.mpr heq
        have hdec : ¬ decide (reference ≠ "" ∧ reference = candidate.getD "") = false := by
          rw [decide_eq_false_iff_not]
          exact fun h => h ⟨href, hmatch⟩
        rw [if_neg hdec]
        split
        · exact ⟨nofun, fun h => absurd heq h⟩
        · exact ⟨nofun, fun h => absurd heq h⟩
      · have hdec : decide (reference ≠ "" ∧ reference = candidate.getD "") = false := by
          rw [decide_eq_false_iff_not]
          exact fun h => heq (hexact.mp h.2)
        rw [if_pos hdec]
        exact ⟨fun _ => heq, fun _ => rfl⟩

end CacheSelect.Benchmarks

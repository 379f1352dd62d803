import CacheSelect.Benchmarks.CounterfactualLabels
import CacheSelect.Benchmarks.CuratedDataset

/-! # Counterfactual runs

A case sends a source and an edited request to discover the candidate blocks, then for each planned block a donor
and an intervention, and at the end the edited request once more: where its answer has changed, the reference was
not stable and no trial of the case gets a label.

The requests of a run are made one after the other, and the answers of the server are arbitrary: `CaseWorld` holds
the answer to each request of a case, with the ids that the run makes up.
-/

namespace CacheSelect.Benchmarks

open Features Observability

/-! ### Requests and answers -/

/-- What the observer reads of an answer. -/
structure Reply where
  outputText : Option String
  finishReason : Option String
  cachedTokens : Option Int
  policy : Option String
  quality : ResponseQuality
  serverMetrics : ServerMetrics
  promptTokenIds : Option (List Nat)
  promptTokenCount : Option Int

/-- What the ledger keeps of an answer. -/
def Reply.completed (r : Reply) : CompletedRequest where
  text := r.outputText
  finishReason := r.finishReason
  promptTokenIds := r.promptTokenIds
  plan := match r.serverMetrics.partialReusePlan with
    | none => .missing
    | some plan => .plan plan.toReportedPlan

/-- An answer, and the id under which its request is in the ledger. -/
structure Answer where
  ledgerId : String
  reply : Reply

structure TrialObservation extends Reply where
  requestId : String

/-- A request of a case; the builder of the traces gives it one query segment and a reference answer. -/
structure CaseRequest where
  requestId : String
  query : String
  expectedAnswer : String
  expectedAnswer_ne : expectedAnswer ≠ ""
  gate : Option ReferenceSimilarityGate

/-- A request as the ledger has it, with its answer. -/
abbrev RecordedRequest := StartedRequest × CompletedRequest

/-- `_observe_request`, for a request that is answered. -/
def CaseRequest.observe (r : CaseRequest) (benchmarkRequestId : String) (answer : Answer)
    (metadata : StartedRequest) : TrialObservation × RecordedRequest :=
  ({ answer.reply with requestId := benchmarkRequestId },
    ({ metadata with
      requestId := answer.ledgerId
      benchmarkRequestId := some benchmarkRequestId
      queries := [some r.query]
      expectedAnswer := some r.expectedAnswer }, answer.reply.completed))

structure MtragCase where
  traceId : String
  transitionId : String
  source : CaseRequest
  edited : CaseRequest
  split : String
  collection : String
  blockSize : Int
  expectedCandidateBlockIndices : List Int
  expectedTestableBlockIndices : List Int
  targetBlockIndices : List Int

structure TrialWorld where
  trialId : String
  donor : Answer
  intervention : Answer

/-- The answers to the requests of a case and the ids of its parts; `trial n` is for the `n`th planned block. -/
structure CaseWorld where
  discoveryId : String
  source : Answer
  edited : Answer
  trial : Nat → TrialWorld
  checkId : String
  stability : Answer

structure RunOptions where
  requireReferenceOutputMatch : Bool := false
  requireExactOutputMatch : Bool := true
  requireReferenceQuality : Bool := true

/-! ### Discovery -/

structure CounterfactualCandidateDiscovery where
  traceId : String
  transitionId : String
  blockSize : Int
  candidateBlockIndices : List Int
  testableBlockIndices : List Int
  excludedOutputBlockIndex : Option Int
deriving DecidableEq, Repr

/-- The target of one reported candidate. -/
def candidateTarget (firstUncachedBlock fullPromptBlocks : Int) :
    Option ReportedCandidate → Except Raised Int
  | none => .error (.valueError "each discovery candidate must be an object")
  | some candidate =>
      match candidate.targetBlockIndex with
      | none => .error (.valueError "candidate target block must be an integer")
      | some target =>
          if target < firstUncachedBlock ∨ fullPromptBlocks ≤ target then
            .error (.valueError "candidate target block is outside the reusable suffix")
          else if candidate.sourceResident ≠ some true then
            .error (.valueError "every discovery source block must be resident")
          else .ok target

/-- The targets of a plan, for a prompt of some length. -/
def planDiscovery (traceId transitionId : String) (promptTokenCount : Int) (plan : ServerPlan) :
    Except Raised CounterfactualCandidateDiscovery :=
  if plan.transitionId ≠ some transitionId then
    .error (.valueError "discovery plan has the wrong transition ID")
  else
    match plan.blockSize with
    | none => .error (.valueError "discovery block size must be a positive integer")
    | some blockSize =>
        if blockSize < 1 then .error (.valueError "discovery block size must be a positive integer")
        else
          match plan.nativeCachedTokens with
          | none => .error (.valueError "native cached tokens must be a non-negative integer")
          | some nativeCachedTokens =>
              if nativeCachedTokens < 0 ∨ promptTokenCount < nativeCachedTokens then
                .error (.valueError "native cached tokens must be a non-negative integer")
              else
                match plan.candidates with
                | none => .error (.valueError "discovery plan candidates must be a list")
                | some candidates =>
                    if plan.candidateBlockCount ≠ some (candidates.length : Int) then
                      .error (.valueError "discovery candidate-block count is inconsistent")
                    else if plan.candidateTokenCount ≠ some (candidates.length * blockSize) then
                      .error (.valueError "discovery candidate-token count is inconsistent")
                    else do
                      let firstUncachedBlock := (nativeCachedTokens + blockSize - 1) / blockSize
                      let targets ← candidates.mapM
                        (candidateTarget firstUncachedBlock (promptTokenCount / blockSize))
                      if ¬ targets.Nodup then
                        .error (.valueError "candidate target blocks must be unique")
                      else
                        let ordered := sortedInts targets
                        let outputBlock := (promptTokenCount - 1) / blockSize
                        -- the last prompt row has to run, since it gives the first output
                        .ok {
                          traceId, transitionId, blockSize
                          candidateBlockIndices := ordered
                          testableBlockIndices := ordered.filter fun t => t ≠ outputBlock
                          excludedOutputBlockIndex :=
                            if outputBlock ∈ ordered then some outputBlock else none }

/-- `extract_counterfactual_candidate_discovery`. -/
def extractDiscovery (traceId transitionId : String) (o : TrialObservation) :
    Except Raised CounterfactualCandidateDiscovery :=
  if traceId = "" ∨ transitionId = "" then
    .error (.valueError "trace and transition IDs must not be empty")
  else
    match o.promptTokenIds with
    | none => .error (.valueError "discovery requires prompt token IDs")
    | some [] => .error (.valueError "discovery requires prompt token IDs")
    | some tokenIds =>
        if o.promptTokenCount ≠ some (tokenIds.length : Int) then
          .error (.valueError "prompt token count does not match the recorded token IDs")
        else
          match o.serverMetrics.partialReusePlan with
          | none => .error (.valueError "discovery response has no partial-reuse plan")
          | some plan => planDiscovery traceId transitionId tokenIds.length plan

/-- `_require_fresh_full_recompute`. -/
def requireFreshFullRecompute (o : TrialObservation) (role : String) : Except Raised Unit :=
  if o.cachedTokens ≠ some 0 ∨ o.policy ≠ some "FULL_RECOMPUTE" ∨
      o.serverMetrics.compactedBatchExecuted = some true then
    .error (.runtimeError s!"counterfactual {role} was not a fresh full recompute")
  else .ok ()

/-- The discovery repaired every candidate. -/
def requireConservative (d : CounterfactualCandidateDiscovery) (m : ServerMetrics) : Except Raised Unit :=
  let expectedTokens : Int := d.candidateBlockIndices.length * d.blockSize
  if d.candidateBlockIndices ≠ [] ∧ (m.repairSelector ≠ some "full_block" ∨
      m.candidateTokens ≠ some expectedTokens ∨ m.repairTokens ≠ some expectedTokens ∨
      m.skippedRepairTokens ≠ some 0 ∨ m.compactedBatchExecuted = some true) then
    .error (.runtimeError "discovery did not conservatively repair every candidate")
  else .ok ()

structure DiscoveryRun where
  edited : TrialObservation
  discovery : CounterfactualCandidateDiscovery
  approvedOutputExactMatch : Option Bool

def qualityError : Raised :=
  .other "CounterfactualReferenceQualityError"

def MtragCase.observeSource (c : MtragCase) (w : CaseWorld) : TrialObservation × RecordedRequest :=
  c.source.observe (w.discoveryId ++ ":source") w.source
    { requestId := "", role := some "discovery_source" }

def MtragCase.observeEdited (c : MtragCase) (w : CaseWorld) : TrialObservation × RecordedRequest :=
  c.edited.observe (w.discoveryId ++ ":edited") w.edited
    { requestId := "", role := some "discovery_edit" }

/-- `run_counterfactual_candidate_discovery`. -/
def runCandidateDiscovery (c : MtragCase) (w : CaseWorld) (approvedOutput : Option String)
    (options : RunOptions) : Except Raised DiscoveryRun := do
  requireFreshFullRecompute (c.observeSource w).1 "discovery source"
  let edited := (c.observeEdited w).1
  if approvedOutput.isSome ∧ edited.finishReason ≠ some "stop" then
    .error (.runtimeError "discovery edit was truncated")
  else do
    let discovery ← extractDiscovery c.traceId c.transitionId edited
    requireConservative discovery edited.serverMetrics
    if options.requireReferenceQuality = true ∧ edited.quality.passed = false then .error qualityError
    else .ok {
      edited, discovery
      approvedOutputExactMatch := approvedOutput.map fun output => edited.outputText = some output }

/-! ### Trials -/

def sortedAndUnique (xs : List Int) : Bool :=
  decide (xs.Pairwise (· < ·))

/-- `build_discovered_counterfactual_interventions`. -/
def buildInterventions (d : CounterfactualCandidateDiscovery) (selected : List Int) :
    Except Raised (List SingleBlockIntervention) :=
  if d.candidateBlockIndices.any (· < 0) then
    .error (.valueError "candidate block indices must be non-negative integers")
  else if sortedAndUnique d.candidateBlockIndices = false then
    .error (.valueError "candidate block indices must be sorted and unique")
  else if d.testableBlockIndices.any (· < 0) then
    .error (.valueError "testable block indices must be non-negative integers")
  else if sortedAndUnique d.testableBlockIndices = false then
    .error (.valueError "testable block indices must be sorted and unique")
  else if d.traceId = "" ∨ d.transitionId = "" then
    .error (.valueError "trace and transition IDs must not be empty")
  else if d.blockSize < 1 then .error (.valueError "discovery block size must be positive")
  else if d.excludedOutputBlockIndex.any fun excluded => excluded ∉ d.candidateBlockIndices then
    .error (.valueError "excluded output block must belong to the candidates")
  else if d.testableBlockIndices ≠ d.candidateBlockIndices.filter fun index =>
      some index ≠ d.excludedOutputBlockIndex then
    .error (.valueError "testable blocks do not match the discovery candidates")
  else if selected.any (· < 0) ∨ sortedAndUnique selected = false ∨
      selected.any (· ∉ d.testableBlockIndices) then
    .error (.valueError "selected blocks must be a sorted subset of testable blocks")
  else .ok (selected.map fun block => {
    traceId := d.traceId
    transitionId := d.transitionId
    candidateBlockIndices := d.candidateBlockIndices
    reusedBlockIndex := block })

structure CounterfactualTrialResult where
  trialId : String
  intervention : SingleBlockIntervention
  donorObservation : TrialObservation
  interventionObservation : TrialObservation
  executionEvidence : CounterfactualExecutionEvidence
  labelResult : CounterfactualLabelResult
  label : Option BlockRepairLabel
  referenceOutputExactMatch : Bool

def MtragCase.observeDonor (c : MtragCase) (i : SingleBlockIntervention) (w : TrialWorld) :
    TrialObservation × RecordedRequest :=
  c.source.observe (w.trialId ++ ":donor") w.donor {
    requestId := ""
    role := some "donor"
    trialId := some w.trialId
    reuseBlockIndex := some i.reusedBlockIndex }

def MtragCase.observeIntervention (c : MtragCase) (i : SingleBlockIntervention)
    (reference : TrialObservation) (w : TrialWorld) : TrialObservation × RecordedRequest :=
  c.edited.observe (w.trialId ++ ":intervention") w.intervention {
    requestId := ""
    role := some "intervention"
    trialId := some w.trialId
    reuseBlockIndex := some i.reusedBlockIndex
    referenceRequestId := some reference.requestId }

/-- `run_single_block_counterfactual_trial` with the reference of the discovery, whose output is required. -/
def runSingleBlockTrial (c : MtragCase) (blockSize : Int) (reference : TrialObservation)
    (requiredReferenceOutput : String) (options : RunOptions) (i : SingleBlockIntervention)
    (w : TrialWorld) : Except Raised CounterfactualTrialResult :=
  if c.source.requestId = c.edited.requestId then
    .error (.valueError "source and edited requests must be different")
  else if blockSize < 1 then .error (.valueError "block_size must be positive")
  else if i.reusedBlockIndex ∉ i.candidateBlockIndices then
    .error (.valueError "reused block must belong to the intervention candidates")
  else if reference.finishReason ≠ some "stop" then
    .error (.runtimeError "full-compute reference was truncated")
  else
    let referenceOutputExactMatch := decide (reference.outputText = some requiredReferenceOutput)
    if options.requireReferenceOutputMatch = true ∧ referenceOutputExactMatch = false then
      .error (.runtimeError "full-compute output differs from its approved reference")
    else do
      let donor := (c.observeDonor i w).1
      requireFreshFullRecompute donor "donor"
      let active := (c.observeIntervention i reference w).1
      let evidence ← validateCounterfactualExecution i blockSize active.serverMetrics
      let comparison ← compareResponseQuality reference.quality active.quality c.edited.expectedAnswer
        c.edited.gate
      let scored := scoreSingleBlockIntervention evidence reference.outputText active.outputText
        comparison.validReference comparison.passed options.requireExactOutputMatch
      let result := if active.finishReason ≠ some "stop" then scored.withheld else scored
      let label ← labelOf result
      .ok {
        trialId := w.trialId
        intervention := i
        donorObservation := donor
        interventionObservation := active
        executionEvidence := evidence
        labelResult := result
        label := label
        referenceOutputExactMatch := referenceOutputExactMatch }

structure CounterfactualTrialBatch where
  discovery : CounterfactualCandidateDiscovery
  trials : List CounterfactualTrialResult
  targetBlockIndices : List Int
  referenceStable : Bool

def MtragCase.observeStability (c : MtragCase) (reference : TrialObservation) (w : CaseWorld) :
    TrialObservation × RecordedRequest :=
  c.edited.observe (w.checkId ++ ":stability_reference") w.stability {
    requestId := ""
    role := some "stability_reference"
    referenceRequestId := some reference.requestId }

/-- `run_discovered_counterfactual_trials`. -/
def runDiscoveredTrials (c : MtragCase) (w : CaseWorld) (d : CounterfactualCandidateDiscovery)
    (selected : List Int) (reference : TrialObservation) (requiredReferenceOutput : String)
    (options : RunOptions) : Except Raised CounterfactualTrialBatch := do
  let interventions ← buildInterventions d selected
  let trials ← interventions.zipIdx.mapM fun (i, n) =>
    runSingleBlockTrial c d.blockSize reference requiredReferenceOutput options i (w.trial n)
  let final := (c.observeStability reference w).1
  requireFreshFullRecompute final "stability reference"
  .ok {
    discovery := d
    trials := trials
    targetBlockIndices := interventions.map SingleBlockIntervention.reusedBlockIndex
    referenceStable := final.finishReason = some "stop" ∧ final.outputText = reference.outputText }

/-! ### The training table -/

/-- A row of the table of a case. -/
structure TrainingRow where
  traceId : String
  transitionId : String
  split : String
  decision : RepairDecision
  labelReason : String
  features : CandidateBlockFeatures
deriving DecidableEq

/-- `_recorded_token_ids`. -/
def recordedTokenIds (o : TrialObservation) (role : String) : Except Raised (List Nat) :=
  match o.promptTokenIds with
  | none => .error (.valueError s!"{role} observation has no prompt token IDs")
  | some [] => .error (.valueError s!"{role} observation has no prompt token IDs")
  | some tokenIds => .ok tokenIds

/-- `extract_counterfactual_trial_feature`. -/
def extractTrialFeature (trial : CounterfactualTrialResult) (blockSize : Int) :
    Except Raised CandidateBlockFeatures := do
  let previous ← recordedTokenIds trial.donorObservation "donor"
  let current ← recordedTokenIds trial.interventionObservation "intervention"
  match trial.interventionObservation.serverMetrics.partialReusePlan with
  | none => .error (.valueError "intervention has no matching partial-reuse plan")
  | some plan =>
      if plan.blockSize ≠ some blockSize then
        .error (.valueError "intervention has no matching partial-reuse plan")
      else
        match plan.nativeCachedTokens with
        | none => .error (.valueError "intervention native cached tokens must be an integer")
        | some nativeCachedTokens => do
            let opportunity ← analyzePlan previous current nativeCachedTokens blockSize
            let features ← liftPy (extractCandidateBlockFeatures previous current opportunity)
            match features.filter fun f =>
              (f.candidateBlockIndex : Int) = trial.intervention.reusedBlockIndex with
            | [feature] => .ok feature
            | _ => .error (.valueError "tested block has no unique feature row")

/-- The row of a trial, if it has a label. -/
def trainingRow (batch : CounterfactualTrialBatch) (split : String) (trial : CounterfactualTrialResult) :
    Except Raised (Option TrainingRow) :=
  let i := trial.intervention
  if i.traceId ≠ batch.discovery.traceId ∨ i.transitionId ≠ batch.discovery.transitionId ∨
      i.candidateBlockIndices ≠ batch.discovery.candidateBlockIndices then
    .error (.valueError "trial result does not belong to this discovery")
  else if batch.referenceStable = false then .ok none
  else
    match trial.label with
    | none => .ok none
    | some label =>
        if trial.executionEvidence.valid = false ∨ trial.labelResult.decision ≠ some label.decision then
          .error (.valueError "label is inconsistent with its execution evidence")
        else do
          let features ← extractTrialFeature trial batch.discovery.blockSize
          .ok (some {
            traceId := batch.discovery.traceId
            transitionId := batch.discovery.transitionId
            split := split
            decision := label.decision
            labelReason := label.reason
            features := features })

/-- `save_counterfactual_training_dataset`: the rows of the table. -/
def trainingDataset (batch : CounterfactualTrialBatch) (split : String) :
    Except Raised (List TrainingRow) :=
  let selected := batch.trials.map fun t => t.intervention.reusedBlockIndex
  if selected = [] ∨ selected ≠ batch.targetBlockIndices ∨ sortedAndUnique selected = false ∨
      selected.any (· ∉ batch.discovery.testableBlockIndices) then
    .error (.valueError "trial results are not a valid discovered block subset")
  else do
    let rows ← batch.trials.mapM (trainingRow batch split)
    .ok (rows.filterMap id)

/-! ### Cases and runs -/

namespace CounterfactualTrialBatch

/-- The trials that the workflow counts as abstained. -/
def abstained (b : CounterfactualTrialBatch) : List CounterfactualTrialResult :=
  b.trials.filter fun t => t.labelResult.valid && (!b.referenceStable || t.labelResult.decision.isNone)

def invalid (b : CounterfactualTrialBatch) : List CounterfactualTrialResult :=
  b.trials.filter fun t => !t.labelResult.valid

/-- How many labels are counted for a decision. -/
def labels (b : CounterfactualTrialBatch) (d : RepairDecision) : Nat :=
  b.trials.countP fun t => b.referenceStable && decide (t.label.map BlockRepairLabel.decision = some d)

end CounterfactualTrialBatch

/-- What a completed workflow leaves: its batch, the rows of its table and its summary. -/
structure WorkflowRun where
  batch : CounterfactualTrialBatch
  rows : List TrainingRow
  summary : CaseSummary

def sameIndices (expected found : List Int) : Except Raised Unit :=
  if found ≠ expected then .error (.runtimeError "live vLLM candidates differ from the frozen pilot")
  else .ok ()

/-- `run_counterfactual_dataset_workflow`. -/
def runWorkflow (c : MtragCase) (w : CaseWorld) (approvedOutput : Option String) (options : RunOptions) :
    Except Raised WorkflowRun := do
  let run ← runCandidateDiscovery c w approvedOutput options
  let discovery := run.discovery
  if discovery.blockSize ≠ c.blockSize then
    .error (.runtimeError "live vLLM block size differs from the frozen pilot")
  else do
    sameIndices c.expectedCandidateBlockIndices discovery.candidateBlockIndices
    sameIndices c.expectedTestableBlockIndices discovery.testableBlockIndices
    if discovery.testableBlockIndices = [] then
      .error (.runtimeError "transition has no full candidate blocks safe to test")
    else
      let freshReferenceOutput := run.edited.outputText.getD ""
      if freshReferenceOutput = "" then
        .error (.runtimeError "discovery produced no full-compute reference output")
      else if c.targetBlockIndices = [] ∨ sortedAndUnique c.targetBlockIndices = false ∨
          c.targetBlockIndices.any (· ∉ discovery.testableBlockIndices) then
        .error (.runtimeError "planned blocks are not a valid live candidate subset")
      else do
        let batch ← runDiscoveredTrials c w discovery c.targetBlockIndices run.edited
          freshReferenceOutput options
        let rows ← trainingDataset batch c.split
        .ok {
          batch, rows
          summary := {
            status := some "completed"
            discoveryId := some w.discoveryId
            trialCount := some batch.trials.length
            validTrainingRows := some rows.length
            invalidTrials := some batch.invalid.length
            abstainedTrials := some batch.abstained.length
            referenceDriftTrials := some (batch.trials.countP fun t => !t.referenceOutputExactMatch)
            repairLabels := some (batch.labels .repair)
            reuseLabels := some (batch.labels .reuse)
            skippedTargetBlocks := some 0
            traceId := some c.traceId
            transitionId := some c.transitionId
            split := some c.split
            collection := some c.collection
            currentTaskId := some c.edited.requestId } }

/-- The requests of a case by what they are for; a case that was skipped has neither trials nor a check. -/
structure CaseParts where
  source : RecordedRequest
  edited : RecordedRequest
  trials : List (RecordedRequest × RecordedRequest)
  stability : Option RecordedRequest

/-- The requests in the order in which they are made. -/
def CaseParts.requests (p : CaseParts) : List RecordedRequest :=
  [p.source, p.edited] ++ (p.trials.flatMap fun t => [t.1, t.2]) ++ p.stability.toList

/-- A case that is over: completed with its batch, or skipped without one. -/
structure CaseRun where
  case : MtragCase
  world : CaseWorld
  batch : Option CounterfactualTrialBatch
  rows : List TrainingRow
  summary : CaseSummary

namespace CaseRun

/-- The requests of a trial, the `n`th of its case. -/
def trialRequests (r : CaseRun) (t : CounterfactualTrialResult) (n : Nat) :
    RecordedRequest × RecordedRequest :=
  ((r.case.observeDonor t.intervention (r.world.trial n)).2,
    (r.case.observeIntervention t.intervention (r.case.observeEdited r.world).1 (r.world.trial n)).2)

def parts (r : CaseRun) : CaseParts where
  source := (r.case.observeSource r.world).2
  edited := (r.case.observeEdited r.world).2
  trials := match r.batch with
    | none => []
    | some batch => batch.trials.zipIdx.map fun (t, n) => r.trialRequests t n
  stability := r.batch.map fun _ =>
    (r.case.observeStability (r.case.observeEdited r.world).1 r.world).2

def requests (r : CaseRun) : List RecordedRequest :=
  r.parts.requests

end CaseRun

/-- One round of the loop over the cases, before the audit of the ledger. -/
def runMtragCase (c : MtragCase) (w : CaseWorld) (approvedOutput : Option String) (options : RunOptions)
    (sourceCaseIndex : Int) : Except Raised CaseRun :=
  match runWorkflow c w approvedOutput options with
  | .ok run => .ok {
      case := c
      world := w
      batch := some run.batch
      rows := run.rows
      summary := { run.summary with sourceCaseIndex := some sourceCaseIndex } }
  | .error e =>
      if e ≠ qualityError then .error e
      else .ok {
        case := c
        world := w
        batch := none
        rows := []
        summary := {
          status := some "skipped_reference_quality"
          sourceCaseIndex := some sourceCaseIndex
          trialCount := some 0
          validTrainingRows := some 0
          invalidTrials := some 0
          abstainedTrials := some 0
          referenceDriftTrials := some 0
          repairLabels := some 0
          reuseLabels := some 0
          skippedTargetBlocks := some c.targetBlockIndices.length
          collection := some c.collection
          currentTaskId := some c.edited.requestId } }

/-- The events of requests that were answered. -/
def eventsOf (requests : List RecordedRequest) : List TrialEvent :=
  requests.flatMap fun r => [.started r.1, .completed r.1.requestId r.2]

/-- The audit at the end of a workflow: the ledger is complete, and no request of it failed. -/
def auditLedger (path : String) (requests : List RecordedRequest) : Except Raised Unit :=
  match validateLedger path ((eventsOf requests).map TrialEvent.line) with
  | .error e => .error (.valueError (e.message (fun _ => "") path))
  | .ok ledger =>
      if ledger.isComplete = false ∨ ledger.failed ≠ 0 then
        .error (.runtimeError "counterfactual request ledger is incomplete or failed")
      else .ok ()

/-- Only the workflow of a case that is not skipped looks at the ledger. -/
def auditCase (path : String) (run : CaseRun) (requests : List RecordedRequest) : Except Raised Unit :=
  if run.batch.isSome then auditLedger path requests else .ok ()

/-- The approved output of a case, where outputs were approved. -/
def approvedOutputOf (approved : Option (String → Option String)) (c : MtragCase) :
    Except Raised (Option String) :=
  match approved with
  | none => .ok none
  | some outputs =>
      match outputs c.edited.requestId with
      | none => .error (.valueError "MTRAG case has no approved reference output")
      | some output => .ok (some output)

/-- The loop of `run_mtrag_counterfactual_cases`; `requests` are in the ledger already. -/
def runCases (path : String) (approved : Option (String → Option String)) (options : RunOptions) :
    List RecordedRequest → Int → List (MtragCase × CaseWorld) → Except Raised (List CaseRun)
  | _, _, [] => .ok []
  | requests, sourceCaseIndex, (c, w) :: cases => do
      let approvedOutput ← approvedOutputOf approved c
      let run ← runMtragCase c w approvedOutput options sourceCaseIndex
      auditCase path run (requests ++ run.requests)
      let runs ← runCases path approved options (requests ++ run.requests) (sourceCaseIndex + 1) cases
      .ok (run :: runs)

/-- The sum of a count over the cases. -/
def totalOf (count : CountRecord → Option Int) (runs : List CaseRun) : Option Int :=
  some ((runs.map fun r => (count r.summary.toCountRecord).getD 0).sum)

/-- The summary of a run. -/
def runSummary (sourceCaseStart sourceCaseCount : Int) (runs : List CaseRun) : RunSummary where
  experiment := some "mtrag-counterfactual-pilot"
  caseCount := some runs.length
  sourceCaseStart := some sourceCaseStart
  sourceCaseCount := some sourceCaseCount
  trialCount := totalOf CountRecord.trialCount runs
  validTrainingRows := totalOf CountRecord.validTrainingRows runs
  invalidTrials := totalOf CountRecord.invalidTrials runs
  abstainedTrials := totalOf CountRecord.abstainedTrials runs
  referenceDriftTrials := totalOf CountRecord.referenceDriftTrials runs
  repairLabels := totalOf CountRecord.repairLabels runs
  reuseLabels := totalOf CountRecord.reuseLabels runs
  cases := runs.map CaseRun.summary

/-- `run_mtrag_counterfactual_cases`, and the audit with which the program ends. -/
def runMtragCounterfactualCases (path : String) (approved : Option (String → Option String))
    (options : RunOptions) (sourceCaseStart : Int) (cases : List (MtragCase × CaseWorld)) :
    Except Raised (List CaseRun) :=
  if cases = [] then .error (.valueError "MTRAG pilot contains no cases")
  else if sourceCaseStart < 1 then .error (.valueError "source case start must be positive")
  else do
    let runs ← runCases path approved options [] sourceCaseStart cases
    auditLedger path (runs.flatMap CaseRun.requests)
    .ok runs

end CacheSelect.Benchmarks

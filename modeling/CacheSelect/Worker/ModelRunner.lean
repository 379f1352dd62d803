import CacheSelect.Worker.Batch
import Mathlib.Data.Prod.Lex
import CacheSelect.Worker.KVMemory

/-! # The worker's model runner

The part of the runner's state that partial reuse keeps for a request, and the stages of one step:
`addRequests` resolves the plans of newly scheduled requests, `applyBlockCopies` copies their source
blocks before the forward, `prepareBatch` decides between the full and the selective path and records
it, and `takeRepairMetrics` hands the one-shot metrics out after the step.

Timings are left out.  Every function returns the exception of the source where it raises.
-/

namespace CacheSelect.Worker

open CacheSelect.Core

structure WorkerConfig where
  blockSize : Nat
  numBlocks : Nat
  executePartialReuse : Bool := true
  repackPartialReuse : Bool := true
  repairSelector : RepairSelector := .fullBlock
  minReuseSpanBlocks : Nat := 1
  minReuseSpanBlocks_pos : 0 < minReuseSpanBlocks := by first | exact Nat.one_pos | decide
  minRepackedReuseSpanBlocks : Option Nat := none
  minRepackedReuseSpanBlocks_pos : ∀ n ∈ minRepackedReuseSpanBlocks, 0 < n := by
    first | exact noMinimum_pos | decide

/-- What the runner keeps for a request that came with a plan. -/
structure ReuseWork where
  plan : PartialReusePlan
  resolvedCandidates : List ResolvedPartialReuseCandidate
  copyInstructions : List PartialReuseCopyInstruction
  repairInstructions : List PartialReuseRepairInstruction
  reusedTokenIndices : List Nat
deriving DecidableEq, Repr

structure WorkerRequest where
  prefillLen : Nat
  reuse : Option ReuseWork := none
  pendingMetrics : Option CacheSelectRepairMetrics := none
deriving DecidableEq, Repr

/-- The runner's requests by id. -/
abbrev WorkerRequests := String → Option WorkerRequest

structure NewRequestData where
  reqId : String
  promptTokenIds : List Nat
  prefillTokenIds : List Nat
  blockIds : List (List Nat)
  numComputedTokens : Nat
  partialReusePlan : Option PartialReusePlan
deriving DecidableEq, Repr

/-! ### `add_requests` -/

/-- The repair plan of a request and the name of the policy that made it. -/
def selectRepairs (cfg : WorkerConfig) (plan : PartialReusePlan)
    (candidates : List ResolvedPartialReuseCandidate) :
    Except PyError (String × List PartialReuseRepairInstruction) :=
  match plan.counterfactualReuseBlockIndex with
  | none => do
      let repairs ← cfg.repairSelector.select candidates plan.blockSize
      .ok (cfg.repairSelector.name, repairs)
  | some i => do
      -- a counterfactual request overrides the configured policy
      let repairs ← buildCounterfactualRepairInstructions candidates plan.blockSize i
      .ok (counterfactualRepairSelector, repairs)

/-- Whether later target blocks may still be unallocated. -/
def allowUnallocated (d : NewRequestData) (plan : PartialReusePlan) : Bool :=
  match d.blockIds with
  | [group] => group.length * plan.blockSize < d.promptTokenIds.length
  | _ => false

/-- The reuse work of one plan, with the metrics of its repair selection. -/
def buildReuseWork (cfg : WorkerConfig) (d : NewRequestData) (plan : PartialReusePlan) :
    Except PyError (ReuseWork × CacheSelectRepairMetrics) := do
  let resolved ← resolveTargetBlockIds plan d.blockIds (allowUnallocated d plan)
  let copies := buildPartialReuseCopyInstructions resolved
  let (selectorName, repairs) ← selectRepairs cfg plan resolved
  let reused ← buildReusedTokenIndices copies repairs plan.blockSize
  let reused ← filterShortReuseSpans reused plan.blockSize cfg.minReuseSpanBlocks
    ((copies.filter PartialReuseCopyInstruction.requiresRepacking).map
      PartialReuseCopyInstruction.targetBlockIndex) cfg.minRepackedReuseSpanBlocks
  let copies ← filterPartialReuseCopyInstructions copies reused plan.blockSize
  let metrics ← summarizeRepairSelection selectorName resolved repairs plan.blockSize
  .ok (⟨plan, resolved, copies, repairs, reused⟩, metrics)

def addRequest (cfg : WorkerConfig) (w : WorkerRequests) (d : NewRequestData) :
    Except PyError WorkerRequests :=
  match d.partialReusePlan with
  | none => .ok (Function.update w d.reqId (some { prefillLen := d.prefillTokenIds.length }))
  | some plan => do
      let (work, metrics) ← buildReuseWork cfg d plan
      .ok (Function.update w d.reqId (some {
        prefillLen := d.prefillTokenIds.length
        reuse := some work
        pendingMetrics := some metrics }))

def addRequests (cfg : WorkerConfig) (w : WorkerRequests) (ds : List NewRequestData) :
    Except PyError WorkerRequests :=
  ds.foldlM (addRequest cfg) w

/-- `finish_requests`: forget requests that finished or were preempted. -/
def finishRequests (w : WorkerRequests) (reqIds : List String) : WorkerRequests :=
  fun r => if r ∈ reqIds then none else w r

/-! ### Copies -/

def reuseOf (w : WorkerRequests) (reqId : String) : Option ReuseWork :=
  (w reqId).bind WorkerRequest.reuse

/-- `partial_reuse_copy_instructions.get(req_id, ())`. -/
def copyInstructionsOf (w : WorkerRequests) (reqId : String) : List PartialReuseCopyInstruction :=
  match reuseOf w reqId with
  | none => []
  | some work => work.copyInstructions

/-- `partial_reuse_reused_token_indices.get(req_id, ())`. -/
def reusedTokenIndicesOf (w : WorkerRequests) (reqId : String) : List Nat :=
  match reuseOf w reqId with
  | none => []
  | some work => work.reusedTokenIndices

/-- The copy instructions a step executes: those of its new requests, in order. -/
def stepInstructions (cfg : WorkerConfig) (w : WorkerRequests) (newReqIds : List String) :
    List PartialReuseCopyInstruction :=
  if cfg.executePartialReuse = false then [] else newReqIds.flatMap (copyInstructionsOf w)

/-- The KV memory after a step's copies: the repacked blocks first, then the aligned ones. -/
def copyBlocks {K : Type} (cfg : WorkerConfig) (kv : KVMemory K)
    (instructions : List PartialReuseCopyInstruction) : Except PyError (KVMemory K) :=
  let repacked := instructions.filter PartialReuseCopyInstruction.requiresRepacking
  if repacked ≠ [] ∧ cfg.repackPartialReuse = false then
    .error (.runtimeError "KV repacking was planned without being enabled")
  else do
    let copies ← buildKvCacheBlockCopies
      (instructions.filter fun i => !i.requiresRepacking)
    let kv ← repackKvCacheBlocksInplace kv cfg.numBlocks repacked cfg.blockSize
    .ok (copyKvCacheBlocksInplace kv copies)

def setMetrics (w : WorkerRequests) (reqId : String) (metrics : CacheSelectRepairMetrics) :
    WorkerRequests :=
  Function.update w reqId ((w reqId).map fun q => { q with pendingMetrics := some metrics })

/-- Record the submitted copies in the metrics of each request that had some. -/
def recordCopies (w : WorkerRequests) (reqId : String) : Except PyError WorkerRequests :=
  match reuseOf w reqId, (w reqId).bind WorkerRequest.pendingMetrics with
  | some work, some metrics =>
      if work.copyInstructions = [] then .ok w
      else do
        let metrics ← recordCopyExecution metrics work.copyInstructions.length work.plan.blockSize
        .ok (setMetrics w reqId metrics)
  | some work, none => if work.copyInstructions = [] then .ok w else .error .keyError
  | none, _ => .ok w

/-- `_apply_cacheselect_block_copies`. -/
def applyBlockCopies {K : Type} (cfg : WorkerConfig) (w : WorkerRequests) (kv : KVMemory K)
    (newReqIds : List String) : Except PyError (WorkerRequests × KVMemory K) :=
  if cfg.executePartialReuse = false then .ok (w, kv)
  else do
    let kv ← copyBlocks cfg kv (stepInstructions cfg w newReqIds)
    let w ← newReqIds.foldlM recordCopies w
    .ok (w, kv)

/-! ### Batch preparation -/

/-- A request of the batch: its tokens, its block table and its chunk. -/
structure BatchEntry where
  reqId : String
  tokenIds : List Nat
  blockIds : List Nat
  numComputedTokens : Nat
  numScheduledTokens : Nat
deriving DecidableEq, Repr

/-- `sort_batch_req_ids`: decodes first, then by the number of tokens. -/
def sortBatch (entries : List BatchEntry) : List BatchEntry :=
  entries.insertionSort fun a b =>
    toLex (a.numScheduledTokens != 1, a.numScheduledTokens)
      ≤ toLex (b.numScheduledTokens != 1, b.numScheduledTokens)

/-- The cumulative sums of the scheduled tokens, from zero. -/
def queryStartLocations (entries : List BatchEntry) : List Nat :=
  (entries.map BatchEntry.numScheduledTokens).scanl (· + ·) 0

def chunkPositions (e : BatchEntry) : List Nat :=
  List.range' e.numComputedTokens e.numScheduledTokens

def batchInputIds (entries : List BatchEntry) : List Nat :=
  entries.flatMap fun e => (chunkPositions e).map fun p => e.tokenIds.getD p 0

def batchPositions (entries : List BatchEntry) : List Nat :=
  entries.flatMap chunkPositions

/-- The slot of a position: its block and its row inside the block. -/
def slotOf (blockSize : Nat) (blockIds : List Nat) (p : Nat) : Nat :=
  blockIds.getD (p / blockSize) 0 * blockSize + p % blockSize

def batchSlotMappings (blockSize : Nat) (entries : List BatchEntry) : List (List Nat) :=
  [entries.flatMap fun e => (chunkPositions e).map (slotOf blockSize e.blockIds)]

def isPrefilling (w : WorkerRequests) (e : BatchEntry) : Bool :=
  match w e.reqId with
  | none => false
  | some q => e.numComputedTokens < q.prefillLen

/-- The last row of every request of the batch. -/
def requiredOutputRows (entries : List BatchEntry) : List Nat :=
  (queryStartLocations entries).tail.map fun e => e - 1

/-- `record_batch_execution_decision`. -/
def recordBatchExecutionDecision (metrics : CacheSelectRepairMetrics) (eligible : Bool)
    (reason : String) (reusedBatchRows computeBatchRows : Nat) :
    Except PyError CacheSelectRepairMetrics :=
  if eligible = true ∧ reusedBatchRows = 0 then
    .error (.valueError "eligible execution requires reusable batch rows")
  else if eligible = true ∧ computeBatchRows = 0 then
    .error (.valueError "eligible execution requires compute batch rows")
  else
    .ok { metrics with
      executionEligible := eligible
      executionReason := reason
      reusedBatchRows := reusedBatchRows
      computeBatchRows := computeBatchRows }

/-- One request's part of the metrics loop of `prepare_inputs`. -/
def recordDecision (decision : PartialReuseBatchDecision) (computeRows : List Nat)
    (w : WorkerRequests) (e : BatchEntry) : Except PyError WorkerRequests :=
  match (w e.reqId).bind WorkerRequest.pendingMetrics with
  | none => .ok w
  | some metrics => do
      let own := decision.requestId == some e.reqId
      let metrics ← recordBatchExecutionDecision metrics (decision.eligible && own)
        (if own || decision.requestId.isNone then decision.reason else "request_not_selected")
        (if own then decision.reusedBatchRows.length else 0)
        (if decision.eligible && own then computeRows.length else e.numScheduledTokens)
      .ok (setMetrics w e.reqId metrics)

/-- `record_compacted_batch_construction`. -/
def recordCompactedBatchConstruction (metrics : CacheSelectRepairMetrics)
    (compactedRows computeSpanCount : Nat) : Except PyError CacheSelectRepairMetrics :=
  if compactedRows < 1 then
    .error (.valueError "compacted batch must contain at least one row")
  else if computeSpanCount < 1 then
    .error (.valueError "compacted batch must contain at least one compute span")
  else if compactedRows ≠ metrics.computeBatchRows then
    .error (.valueError "compacted rows must match selected compute rows")
  else .ok { metrics with computeSpanCount := computeSpanCount, compactedBatchBuilt := true }

/-- `record_span_attention_metadata_construction`. -/
def recordSpanAttentionMetadataConstruction (metrics : CacheSelectRepairMetrics)
    (metadataCount : Nat) : Except PyError CacheSelectRepairMetrics :=
  if metadataCount < 1 then
    .error (.valueError "partial reuse requires at least one metadata object")
  else if metadataCount ≠ metrics.computeSpanCount then
    .error (.valueError "span metadata count must match compute span count")
  else .ok { metrics with spanMetadataBuilt := true, spanMetadataCount := metadataCount }

/-- `record_compacted_batch_execution`. -/
def recordCompactedBatchExecution (metrics : CacheSelectRepairMetrics) (executedSpanCount : Nat) :
    Except PyError CacheSelectRepairMetrics :=
  if metrics.compactedBatchBuilt = false ∨ metrics.spanMetadataBuilt = false then
    .error (.valueError "span execution requires a fully prepared compacted batch")
  else if executedSpanCount ≠ metrics.computeSpanCount then
    .error (.valueError "executed spans must match the prepared compute spans")
  else .ok { metrics with compactedBatchExecuted := true }

/-- The batch decision and the rows to compute. -/
def planBatch (flags : BatchFlags) (w : WorkerRequests) (entries : List BatchEntry) :
    Except PyError (PartialReuseBatchDecision × List Nat) := do
  let rows ← mapReusedTokensToBatchRows (entries.map BatchEntry.reqId)
    (queryStartLocations entries) (entries.map BatchEntry.numComputedTokens)
    (entries.map BatchEntry.numScheduledTokens) (reusedTokenIndicesOf w)
  let decision ← assessPartialReuseBatch flags (entries.map BatchEntry.reqId)
    (entries.map (isPrefilling w)) rows (requiredOutputRows entries)
  let computeRows ← buildPartialReuseComputeRows decision
    ((entries.map BatchEntry.numScheduledTokens).sum)
  .ok (decision, computeRows)

/-- The selective path's records for its request: the compacted batch, the span metadata and the
executed spans.  The metadata of the attention backend is one object for every span. -/
def recordSelectivePath (cfg : WorkerConfig) (decision : PartialReuseBatchDecision)
    (computeRows : List Nat) (w : WorkerRequests) (entries : List BatchEntry) :
    Except PyError (PartialReuseCompactedBatch × WorkerRequests) :=
  match decision.requestId, entries with
  | none, _ => .error (.valueError "eligible compact batch requires a request ID")
  | some requestId, [e] =>
      if e.reqId ≠ requestId then
        .error (.valueError "eligible compact batch requires its isolated request")
      else do
        let batch ← buildPartialReuseCompactedBatch (batchInputIds entries)
          (batchPositions entries) (batchSlotMappings cfg.blockSize entries) [e.blockIds]
          (queryStartLocations entries) computeRows e.numComputedTokens
        match (w requestId).bind WorkerRequest.pendingMetrics with
        | none => .error (.valueError "eligible compact batch requires request metrics")
        | some metrics => do
            let metrics ← recordCompactedBatchConstruction metrics computeRows.length
              batch.computeSpans.length
            let steps ← buildPartialReuseSpanExecutionSteps batch batch.spanAttentionInputs
            let metrics ← recordSpanAttentionMetadataConstruction metrics
              batch.spanAttentionInputs.length
            let metrics ← recordCompactedBatchExecution metrics steps.length
            .ok (batch, setMetrics w requestId metrics)
  | some _, _ => .error (.valueError "eligible compact batch requires its isolated request")

/-- The path a prepared step takes. -/
inductive ForwardPath
  | full
  | spans (batch : PartialReuseCompactedBatch)
deriving DecidableEq, Repr

/-- All of a step's preparation, for the batch in its order. -/
def prepareBatch (cfg : WorkerConfig) (flags : BatchFlags) (w : WorkerRequests)
    (entries : List BatchEntry) : Except PyError (ForwardPath × WorkerRequests) := do
  let (decision, computeRows) ← planBatch flags w entries
  let w ← entries.foldlM (recordDecision decision computeRows) w
  if decision.eligible = true then
    let (batch, w) ← recordSelectivePath cfg decision computeRows w entries
    .ok (.spans batch, w)
  else .ok (.full, w)

/-- `_take_cacheselect_repair_metrics`: the batch's metrics are handed out once. -/
def takeRepairMetrics (w : WorkerRequests) (reqIds : List String) : WorkerRequests :=
  fun r => if r ∈ reqIds then (w r).map fun q => { q with pendingMetrics := none } else w r

/-! ### The forward pass -/

/-- The row of a position in a request's block table. -/
def readRow {K : Type} (kv : KVMemory K) (blockSize : Nat) (blockIds : List Nat) (p : Nat) : K :=
  kv (blockIds.getD (p / blockSize) 0) (p % blockSize)

def writeRow {K : Type} (kv : KVMemory K) (blockSize : Nat) (blockIds : List Nat) (p : Nat)
    (row : K) : KVMemory K :=
  let b := blockIds.getD (p / blockSize) 0
  Function.update kv b (Function.update (kv b) (p % blockSize) row)

/-- Compute one position over the rows of all positions before it. -/
def forwardPosition {K : Type} (compute : List K → Nat → K) (blockSize : Nat) (tokenIds : List Nat)
    (blockIds : List Nat) (kv : KVMemory K) (p : Nat) : KVMemory K :=
  writeRow kv blockSize blockIds p
    (compute ((List.range p).map (readRow kv blockSize blockIds)) (tokenIds.getD p 0))

/-- Compute positions of one request in order. -/
def forwardPositions {K : Type} (compute : List K → Nat → K) (blockSize : Nat)
    (tokenIds : List Nat) (blockIds : List Nat) (positions : List Nat) (kv : KVMemory K) :
    KVMemory K :=
  positions.foldl (forwardPosition compute blockSize tokenIds blockIds) kv

end CacheSelect.Worker

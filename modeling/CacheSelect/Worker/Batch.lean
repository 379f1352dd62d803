import CacheSelect.Worker.CopyPlan
import CacheSelect.Lib.Spans

/-! # Planning one batch of the worker

The flattened batch of one step and what partial reuse makes of it: which rows hold reused prompt
positions (`mapReusedTokensToBatchRows`), whether the batch may run the selective path
(`assessPartialReuseBatch`), which rows are computed (`buildPartialReuseComputeRows`), the spans of
consecutive rows that are run one after the other (`buildPartialReuseComputeSpans`), the compacted
inputs of each span, and the hidden states put back in their rows (`stitchPartialReuseSpanOutputs`).

A tensor is the list of its rows: input ids and positions are lists, slot mappings have one list for
every cache group, and a span's output is the list of its rows' hidden states.  Checks on tensor
ranks, dtypes and devices have no counterpart.
-/

namespace CacheSelect.Worker

open CacheSelect.Core

/-! ### Rows of reused positions -/

/-- The rows of one request's reused positions inside its chunk. -/
def chunkRows (batchStart promptStart scheduledTokens : Nat) (promptIndices : List Nat) :
    List Nat :=
  (promptIndices.filter fun t => promptStart ≤ t && t < promptStart + scheduledTokens).map
    fun t => batchStart + t - promptStart

/-- The loop of `map_reused_tokens_to_batch_rows`, request by request. -/
def mapRowsLoop (reusedTokenIndices : String → List Nat) :
    List String → List Nat → List Nat → List Nat → Except PyError (List (String × List Nat))
  | reqId :: reqIds, batchStart :: batchEnd :: bounds, promptStart :: computed,
      scheduledTokens :: scheduled =>
      if batchEnd - batchStart ≠ scheduledTokens then
        .error (.valueError "query boundaries disagree with scheduled token counts")
      else if ¬ (reusedTokenIndices reqId).Pairwise (· < ·) then
        .error (.valueError "reused token indices must be sorted and unique")
      else do
        let rest ← mapRowsLoop reusedTokenIndices reqIds (batchEnd :: bounds) computed scheduled
        let rows := chunkRows batchStart promptStart scheduledTokens (reusedTokenIndices reqId)
        .ok (if rows = [] then rest else (reqId, rows) :: rest)
  | _, _, _, _ => .ok []

def mapReusedTokensToBatchRows (reqIds : List String)
    (queryStartLocations numComputedTokens numScheduledTokens : List Nat)
    (reusedTokenIndices : String → List Nat) : Except PyError (List (String × List Nat)) :=
  if queryStartLocations.length ≠ reqIds.length + 1 then
    .error (.valueError "query_start_locations must contain one boundary per request")
  else if numComputedTokens.length ≠ reqIds.length then
    .error (.valueError "num_computed_tokens must match req_ids")
  else if numScheduledTokens.length ≠ reqIds.length then
    .error (.valueError "num_scheduled_tokens must match req_ids")
  else mapRowsLoop reusedTokenIndices reqIds queryStartLocations numComputedTokens
    numScheduledTokens

/-! ### Eligibility -/

/-- The circumstances of a batch that decide on the selective path. -/
structure BatchFlags where
  executionEnabled : Bool
  promptLogprobs : Bool
  singleGpu : Bool
  eagerExecution : Bool
  supportedKvLayout : Bool
  speculativeDecoding : Bool
  multimodalModel : Bool
  encoderDecoderModel : Bool
  poolingModel : Bool
deriving DecidableEq, Repr

structure PartialReuseBatchDecision where
  eligible : Bool
  reason : String
  requestId : Option String := none
  reusedBatchRows : List Nat := []
deriving DecidableEq, Repr

/-- The first circumstance that rules the selective path out, once a request is isolated. -/
def unsupportedReason (flags : BatchFlags) : Option String :=
  if flags.singleGpu = false then some "parallelism_unsupported"
  else if flags.eagerExecution = false then some "non_eager_execution_unsupported"
  else if flags.supportedKvLayout = false then some "kv_layout_unsupported"
  else if flags.speculativeDecoding then some "speculative_decoding_unsupported"
  else if flags.multimodalModel then some "multimodal_unsupported"
  else if flags.encoderDecoderModel then some "encoder_decoder_unsupported"
  else if flags.poolingModel then some "pooling_unsupported"
  else if flags.promptLogprobs then some "prompt_logprobs_unsupported"
  else none

def assessPartialReuseBatch (flags : BatchFlags) (reqIds : List String)
    (isPrefilling : List Bool) (reusedBatchRows : List (String × List Nat))
    (requiredOutputRows : List Nat) : Except PyError PartialReuseBatchDecision :=
  if isPrefilling.length ≠ reqIds.length then
    .error (.valueError "is_prefilling must match req_ids")
  else match reusedBatchRows with
    | [] =>
        .ok ⟨false, if flags.executionEnabled then "no_reusable_rows" else "execution_disabled",
          none, []⟩
    | _ :: _ :: _ => .ok ⟨false, "multiple_reuse_requests", none, []⟩
    | [(requestId, rows)] =>
        if requestId ∉ reqIds then
          .error (.valueError "reused rows reference a request outside the batch")
        else if requiredOutputRows = [] then
          .ok ⟨false, "missing_output_rows", some requestId, rows⟩
        else
          -- the final row must be computed because sampling consumes its hidden state
          let protectedRows := rows.filter fun row => !requiredOutputRows.contains row
          let refuse (reason : String) : Except PyError PartialReuseBatchDecision :=
            .ok ⟨false, reason, some requestId, protectedRows⟩
          if protectedRows = [] then refuse "no_reusable_rows_after_output_protection"
          else if flags.executionEnabled = false then refuse "execution_disabled"
          else if reqIds.length ≠ 1 then refuse "batched_requests_unsupported"
          else if isPrefilling.head? ≠ some true then refuse "non_prefill_request"
          else match unsupportedReason flags with
            | some reason => refuse reason
            | none => .ok ⟨true, "eligible", some requestId, protectedRows⟩

/-! ### Compute rows and spans -/

def buildPartialReuseComputeRows (decision : PartialReuseBatchDecision) (numTokens : Nat) :
    Except PyError (List Nat) :=
  let allRows := List.range numTokens
  if decision.eligible = false then .ok allRows
  else if ¬ decision.reusedBatchRows.Pairwise (· < ·) then
    .error (.valueError "reused batch rows must be sorted and unique")
  else if decision.reusedBatchRows.any fun row => numTokens ≤ row then
    .error (.valueError "reused batch row is outside the input batch")
  else
    let computeRows := allRows.filter fun row => !decision.reusedBatchRows.contains row
    if computeRows = [] then
      .error (.valueError "partial reuse must retain at least one compute row")
    else .ok computeRows

structure PartialReuseComputeSpan where
  startRow : Nat
  endRow : Nat
deriving DecidableEq, Repr

/-- `_validate_compaction_rows`. -/
def validateCompactionRows (computeRows : List Nat) (numRows : Nat) : Except PyError (List Nat) :=
  if computeRows = [] then
    .error (.valueError "partial reuse must retain at least one compute row")
  else if ¬ computeRows.Pairwise (· < ·) then
    .error (.valueError "compute rows must be sorted and unique")
  else if computeRows.any fun row => numRows ≤ row then
    .error (.valueError "compute row is outside the compacted input")
  else .ok computeRows

/-- The loop of `build_partial_reuse_compute_spans`. -/
def spanLoop (spanStart previousRow : Nat) : List Nat → List PartialReuseComputeSpan
  | [] => [⟨spanStart, previousRow + 1⟩]
  | row :: rest =>
      if row ≠ previousRow + 1 then ⟨spanStart, previousRow + 1⟩ :: spanLoop row row rest
      else spanLoop spanStart row rest

def buildPartialReuseComputeSpans (computeRows : List Nat) (numRows : Nat) :
    Except PyError (List PartialReuseComputeSpan) := do
  match ← validateCompactionRows computeRows numRows with
  | [] => .error .indexError
  | row :: rest => .ok (spanLoop row row rest)

/-! ### Compacted inputs -/

/-- `index_select` on the row dimension; a row outside the tensor raises. -/
def indexSelect {α : Type} (xs : List α) : List Nat → Except PyError (List α)
  | [] => .ok []
  | i :: rest =>
      match xs[i]? with
      | none => .error .indexError
      | some x => do
          let selected ← indexSelect xs rest
          .ok (x :: selected)

def compactPartialReuseModelInputs (inputIds positions computeRows : List Nat) :
    Except PyError (List Nat × List Nat) := do
  if inputIds.length ≠ positions.length then
    .error (.valueError "input IDs and positions must contain the same rows")
  else
    let rows ← validateCompactionRows computeRows inputIds.length
    let ids ← indexSelect inputIds rows
    let pos ← indexSelect positions rows
    .ok (ids, pos)

def compactPartialReuseSlotMappings (slotMappings : List (List Nat)) (numRows : Nat)
    (computeRows : List Nat) : Except PyError (List (List Nat)) := do
  let rows ← validateCompactionRows computeRows numRows
  slotMappings.mapM fun group => indexSelect group rows

/-- `bisect_left` on a sorted list: the number of entries below the boundary. -/
def bisectLeft (rows : List Nat) (boundary : Nat) : Nat :=
  rows.countP fun row => row < boundary

def compactPartialReuseQueryStartLocations (queryStartLocations computeRows : List Nat) :
    Except PyError (List Nat) :=
  match queryStartLocations.head?, queryStartLocations.getLast? with
  | some first, some last =>
      if queryStartLocations.length < 2 then
        .error (.valueError "query boundaries require at least one request")
      else if first ≠ 0 then .error (.valueError "query boundaries must start at zero")
      else if ¬ queryStartLocations.Pairwise (· ≤ ·) then
        .error (.valueError "query boundaries must be non-decreasing")
      else do
        let rows ← validateCompactionRows computeRows last
        .ok (queryStartLocations.map (bisectLeft rows))
  | _, _ => .error (.valueError "query boundaries require at least one request")

structure PartialReuseSpanInputs where
  span : PartialReuseComputeSpan
  inputIds : List Nat
  positions : List Nat
  slotMappings : List (List Nat)
  queryStartLocations : Nat × Nat
  sequenceLength : Nat
deriving DecidableEq, Repr

def buildPartialReuseSpanInputs (inputIds positions : List Nat) (slotMappings : List (List Nat))
    (initialComputedTokens : Nat) (span : PartialReuseComputeSpan) :
    Except PyError PartialReuseSpanInputs :=
  if span.endRow ≤ span.startRow then
    .error (.valueError "compute span must be a non-empty forward range")
  else if inputIds.length < span.endRow then
    .error (.valueError "compute span extends beyond the model input")
  else do
    let spanRows := List.range' span.startRow (span.endRow - span.startRow)
    let (ids, pos) ← compactPartialReuseModelInputs inputIds positions spanRows
    let slots ← compactPartialReuseSlotMappings slotMappings inputIds.length spanRows
    .ok {
      span := span
      inputIds := ids
      positions := pos
      slotMappings := slots
      queryStartLocations := (0, span.endRow - span.startRow)
      -- earlier scheduled rows are either freshly computed or reused KV
      sequenceLength := initialComputedTokens + span.endRow }

/-- Spans come in order and do not overlap. -/
def spansOrdered : Nat → List PartialReuseComputeSpan → Bool
  | _, [] => true
  | previousEnd, span :: rest => previousEnd ≤ span.startRow && spansOrdered span.endRow rest

def buildPartialReuseSpanInputSequence (inputIds positions : List Nat)
    (slotMappings : List (List Nat)) (spans : List PartialReuseComputeSpan)
    (initialComputedTokens : Nat) : Except PyError (List PartialReuseSpanInputs) :=
  if spans = [] then .error (.valueError "partial reuse requires at least one compute span")
  else if spansOrdered 0 spans = false then
    .error (.valueError "compute spans must be ordered and non-overlapping")
  else
    spans.mapM (buildPartialReuseSpanInputs inputIds positions slotMappings initialComputedTokens)

structure PartialReuseSpanAttentionInputs where
  span : PartialReuseComputeSpan
  numTokens : Nat
  queryStartLoc : Nat × Nat
  seqLens : List Nat
  maxQueryLen : Nat
  maxSeqLen : Nat
  blockTables : List (List Nat)
  slotMappings : List (List Nat)
  positions : List Nat
deriving DecidableEq, Repr

/-- The model arguments of a span; `blockTables` holds the isolated request's row of each group. -/
def buildPartialReuseSpanAttentionInputs (blockTables : List (List Nat))
    (s : PartialReuseSpanInputs) : Except PyError PartialReuseSpanAttentionInputs :=
  if blockTables = [] then
    .error (.valueError "partial reuse requires at least one block table")
  else if s.slotMappings.length ≠ blockTables.length then
    .error (.valueError "slot mappings must match the KV cache groups")
  else if s.queryStartLocations ≠ (0, s.inputIds.length) then
    .error (.valueError "span query boundaries must cover every span token")
  else if s.sequenceLength < s.inputIds.length then
    .error (.valueError "span sequence length cannot be shorter than its query")
  else
    .ok {
      span := s.span
      numTokens := s.inputIds.length
      queryStartLoc := s.queryStartLocations
      seqLens := [s.sequenceLength]
      maxQueryLen := s.inputIds.length
      maxSeqLen := s.sequenceLength
      blockTables := blockTables
      slotMappings := s.slotMappings
      positions := s.positions }

/-- `build_partial_reuse_span_model_inputs`: the token ids and positions passed to the model. -/
def buildPartialReuseSpanModelInputs (s : PartialReuseSpanInputs) :
    Except PyError (List Nat × List Nat) :=
  if s.inputIds.length ≠ s.positions.length then
    .error (.valueError "span input IDs and positions must contain the same rows")
  else if s.inputIds = [] then .error (.valueError "span model inputs cannot be empty")
  else if s.inputIds.length ≠ s.span.endRow - s.span.startRow then
    .error (.valueError "span model inputs must cover the complete compute span")
  else .ok (s.inputIds, s.positions)

structure PartialReuseCompactedBatch where
  computeRows : List Nat
  computeSpans : List PartialReuseComputeSpan
  spanInputs : List PartialReuseSpanInputs
  spanModelInputs : List (List Nat × List Nat)
  spanAttentionInputs : List PartialReuseSpanAttentionInputs
  inputIds : List Nat
  positions : List Nat
  slotMappings : List (List Nat)
  queryStartLocations : List Nat
deriving DecidableEq, Repr

def buildPartialReuseCompactedBatch (inputIds positions : List Nat)
    (slotMappings blockTables : List (List Nat)) (queryStartLocations computeRows : List Nat)
    (initialComputedTokens : Nat) : Except PyError PartialReuseCompactedBatch :=
  if queryStartLocations.length < 2 then
    .error (.valueError "query boundaries require at least one request")
  else if queryStartLocations.getLast? ≠ some inputIds.length then
    .error (.valueError "query boundaries must cover every model input row")
  else if slotMappings.any fun group => group.length != inputIds.length then
    .error (.valueError "slot mappings must cover every model input row")
  else do
    let rows ← validateCompactionRows computeRows inputIds.length
    let (ids, pos) ← compactPartialReuseModelInputs inputIds positions rows
    let spans ← buildPartialReuseComputeSpans rows inputIds.length
    let spanInputs ← buildPartialReuseSpanInputSequence inputIds positions slotMappings spans
      initialComputedTokens
    let modelInputs ← spanInputs.mapM buildPartialReuseSpanModelInputs
    let attentionInputs ← spanInputs.mapM (buildPartialReuseSpanAttentionInputs blockTables)
    let slots ← compactPartialReuseSlotMappings slotMappings inputIds.length rows
    let bounds ← compactPartialReuseQueryStartLocations queryStartLocations rows
    .ok {
      computeRows := rows
      computeSpans := spans
      spanInputs := spanInputs
      spanModelInputs := modelInputs
      spanAttentionInputs := attentionInputs
      inputIds := ids
      positions := pos
      slotMappings := slots
      queryStartLocations := bounds }

/-! ### Execution and stitching -/

/-- One span with everything its forward needs; `μ` is the attention backend's metadata. -/
structure PartialReuseSpanExecutionStep (μ : Type) where
  span : PartialReuseComputeSpan
  modelInputs : List Nat × List Nat
  attentionMetadata : μ
  slotMappings : List (List Nat)
deriving DecidableEq, Repr

def buildPartialReuseSpanExecutionSteps {μ : Type} (batch : PartialReuseCompactedBatch)
    (attentionMetadata : List μ) : Except PyError (List (PartialReuseSpanExecutionStep μ)) :=
  if batch.computeSpans = [] then
    .error (.valueError "partial reuse requires at least one compute span")
  else if batch.spanModelInputs.length ≠ batch.computeSpans.length then
    .error (.valueError "every compute span requires model inputs")
  else if attentionMetadata.length ≠ batch.computeSpans.length then
    .error (.valueError "every compute span requires attention metadata")
  else if batch.spanAttentionInputs.length ≠ batch.computeSpans.length then
    .error (.valueError "every compute span requires attention inputs")
  else
    .ok ((batch.computeSpans.zip (batch.spanModelInputs.zip
      (batch.spanAttentionInputs.zip attentionMetadata))).map fun (span, inputs, attention, metadata) =>
        ⟨span, inputs, metadata, attention.slotMappings⟩)

end CacheSelect.Worker

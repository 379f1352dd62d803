import CacheSelect.Gdn.ActiveReturns
import CacheSelect.Gdn.Shadow

/-! # A layer's pass over a batch

`gdnLayerForward` puts the parts of a layer together in the order of the forward pass: the decodes; the
prefills, as alternating spans in active mode where that returns something and else by the full recurrence;
the shadow comparison of candidates that were not reused; and the stores of the completed blocks.

All layers of a model get the same requests with inputs of their own.  What a pass does with the index of a
sidecar depends on the requests alone: `passUses` are its uses and `passReuses` says whether it reuses.
`BatchFits` is the condition on the requests under which a pass returns.

The layers are those of a checkpointing engine on the Triton backend, where alone operators are cached.
-/

namespace CacheSelect.Gdn

open CacheSelect.Core OrderedDict Segments Writes

/-! ### The pass -/

/-- The GDN settings of a model, with the checks of the configuration. -/
structure GdnModelConfig (HV V K : Nat) where
  /-- `gdn_delta_execution_mode`. -/
  executionMode : String
  mambaBlockSize : Nat
  /-- `gdn_delta_cache_capacity`. -/
  capacity : Nat
  /-- `gdn_delta_block_size`. -/
  deltaBlockSize : Nat
  /-- The slots of the state cache. -/
  numSlots : Nat
  mambaBlockSize_pos : 0 < mambaBlockSize
  deltaBlockSize_pos : 0 < deltaBlockSize
  capacity_pos : executionMode = "active" → 0 < capacity
  chunk_dvd : 0 < capacity → FLA_CHUNK_SIZE ∣ deltaBlockSize
  valueHeads_pos : 0 < HV
  valueWidth_pos : 0 < V
  keyWidth_pos : 0 < K

/-- What the active path reads of the settings. -/
def GdnModelConfig.toGdnDeltaConfig {HV V K : Nat} (cfg : GdnModelConfig HV V K) :
    GdnDeltaConfig where
  executionMode := cfg.executionMode
  mambaCacheMode := "all"
  prefillBackend := "triton"
  mambaBlockSize := some cfg.mambaBlockSize

/-- What a layer reports of the prefills of its last pass in active mode. -/
structure GdnDeltaActiveLayerSummary where
  executed : Bool
  reason : String
  recomputedTokens : Nat
  reusedTokens : Nat
deriving DecidableEq, Repr

/-- A scheduled request, as every layer gets it: its computed and scheduled tokens, the contextual hashes of
its prompt blocks and its candidates. -/
structure ScheduledRequest where
  computed : Nat
  scheduled : Nat
  hashes : List ContextualHash
  candidates : List (Int × ContextualHash)
deriving DecidableEq, Repr

/-- A scheduled request in one layer: its row of the checkpoint table and the inputs of its tokens. -/
structure LayerRow (R : Type) (HV V K H : Nat) where
  request : ScheduledRequest
  table : List Nat
  inputs : GdnCoefficients R HV V K H
  wellShaped : inputs.WellShaped
  length_inputs : inputs.keys.length = request.scheduled

/-- The state of a layer between two passes. -/
structure GdnLayer (R : Type) (HV V K : Nat) (C : Type) where
  sidecar : Option (GdnDeltaOperatorSidecar R HV V K) := none
  stateCache : Nat → RecurrentState R HV V K
  lastActiveSummary : Option GdnDeltaActiveLayerSummary := none
  lastShadowResults : List (GdnDeltaBlockShadowResult C) := []

def ScheduledRequest.isDecode (q : ScheduledRequest) : Bool :=
  decide (q.scheduled ≤ 1)

section

variable {R : Type} {HV V K H : Nat} {C : Type}

def LayerRow.toBatchRow (row : LayerRow R HV V K H) : BatchRow (GdnToken R HV V K) where
  table := row.table
  computed := row.request.computed
  tokens := row.inputs.tokens row.wellShaped

def LayerRow.toScheduledRows (row : LayerRow R HV V K H) : ScheduledRows R HV V K H where
  computed := row.request.computed
  rows := row.inputs
  hashes := row.request.hashes

/-- The decodes of a batch. -/
def decodesOf (rows : List (LayerRow R HV V K H)) : List (LayerRow R HV V K H) :=
  rows.filter fun row => row.request.isDecode

/-- The prefills of a batch. -/
def prefillsOf (rows : List (LayerRow R HV V K H)) : List (LayerRow R HV V K H) :=
  rows.filter fun row => !row.request.isDecode

/-- `_get_gdn_delta_operator_sidecar`: the sidecar is allocated at its first use. -/
def operatorSidecar (cfg : GdnModelConfig HV V K) (contents : Nat → GdnAffineOperator R HV V K)
    (sidecar : Option (GdnDeltaOperatorSidecar R HV V K)) :
    Except PyError (Option (GdnDeltaOperatorSidecar R HV V K)) :=
  if cfg.capacity = 0 then .ok none
  else
    match sidecar with
    | some sidecar => .ok (some sidecar)
    | none => (GdnDeltaOperatorSidecar.init contents cfg.capacity cfg.deltaBlockSize).map some

/-- The summary of an attempt. -/
def activeSummary (result : Option (GdnDeltaSequenceExecutionResult R HV V K)) (reason : String) :
    GdnDeltaActiveLayerSummary where
  executed := result.isSome
  reason := reason
  recomputedTokens := (result.map GdnDeltaSequenceExecutionResult.recomputedTokens).getD 0
  reusedTokens := (result.map GdnDeltaSequenceExecutionResult.reusedTokens).getD 0

variable [CommRing R] (exp : R → R) (scale : R)

/-- The outputs of the decodes. -/
def decodeOutputs (blockSize : Nat) (stateCache : Nat → RecurrentState R HV V K)
    (rows : List (BatchRow (GdnToken R HV V K))) :
    Except PyError (List (List (TokenOutput R HV V))) := do
  let (slots, stateCache) ← prepareGdnDecodeCheckpoints stateCache (rows.map BatchRow.table)
    (rows.map (BatchRow.lastComputedBlock blockSize))
    (rows.map (BatchRow.lastScheduledBlock blockSize))
  .ok (List.zipWith (fun slot row => (gatedDelta exp scale (stateCache slot) row.tokens).2) slots rows)

/-- The attempt of a layer in active mode: what it returns and why, and the sidecar and the slots it
leaves. -/
def activeAttempt (cfg : GdnModelConfig HV V K) (metadata : GdnActiveMetadata)
    (sidecar : Option (GdnDeltaOperatorSidecar R HV V K))
    (stateCache : Nat → RecurrentState R HV V K) (rows : List (BatchRow (GdnToken R HV V K)))
    (initial : List (RecurrentState R HV V K))
    (reuseCandidates : List (List (Int × ContextualHash))) :
    Except PyError ((Option (GdnDeltaSequenceExecutionResult R HV V K) × String) ×
      Option (GdnDeltaOperatorSidecar R HV V K) × (Nat → RecurrentState R HV V K)) :=
  match sidecar with
  | none => .ok ((none, "sidecar_disabled"), none, stateCache)
  | some sidecar => do
      let (attempt, sidecar, stateCache) ← executeActiveGdnPrefill exp scale cfg.toGdnDeltaConfig
        metadata sidecar stateCache (rows.map BatchRow.table) initial (rows.flatMap BatchRow.tokens)
        reuseCandidates
      .ok (attempt, some sidecar, stateCache)

/-- The outputs of the prefills and the slots after them: those of the attempt, or of the full
recurrence. -/
def prefillOutputs (blockSize : Nat) (rows : List (BatchRow (GdnToken R HV V K)))
    (stateCache : Nat → RecurrentState R HV V K) :
    Option (GdnDeltaSequenceExecutionResult R HV V K) →
      Except PyError (List (List (TokenOutput R HV V)) × (Nat → RecurrentState R HV V K))
  | some result => .ok ([result.outputs], stateCache)
  | none => prefillForward (gatedDeltaStep exp scale) 0 blockSize stateCache rows

/-- The comparison of the candidates that were not reused. -/
def shadowComparison (measure : ShadowMeasure R HV V K C) (cfg : GdnModelConfig HV V K)
    (numDecodes : Nat) (rows : List (BatchRow (GdnToken R HV V K)))
    (stateCache : Nat → RecurrentState R HV V K) (outputs : List (List (TokenOutput R HV V)))
    (sidecar : GdnDeltaOperatorSidecar R HV V K)
    (reuseCandidates : List (List (Int × ContextualHash))) :
    Except PyError (List (GdnDeltaBlockShadowResult C) × GdnDeltaOperatorSidecar R HV V K) :=
  compareCompletedGdnBlocksShadow measure
    { numSlots := cfg.numSlots
      stateCache := stateCache
      fullOutputs := outputs.flatten
      checkpointStateIndices := rows.map BatchRow.table
      queryStarts := (rows.map fun row => row.tokens.length).scanl (· + ·) 0
      computedCounts := rows.map BatchRow.computed
      sequenceIndexOffset := numDecodes }
    sidecar reuseCandidates

/-- What a pass does with the sidecar after the prefills: the comparison, then the stores. -/
def finishSidecar (measure : ShadowMeasure R HV V K C) (cfg : GdnModelConfig HV V K)
    (numDecodes : Nat) (prefills : List (LayerRow R HV V K H)) (executed : Bool)
    (stateCache : Nat → RecurrentState R HV V K) (outputs : List (List (TokenOutput R HV V)))
    (sidecar : GdnDeltaOperatorSidecar R HV V K) :
    Except PyError (List (GdnDeltaBlockShadowResult C) × GdnDeltaOperatorSidecar R HV V K) := do
  let reuseCandidates := prefills.map fun row => row.request.candidates
  let (results, sidecar) ←
    (if executed = true ∨ reuseCandidates.all List.isEmpty = true then
      .ok ([], sidecar)
    else
      shadowComparison measure cfg numDecodes (prefills.map LayerRow.toBatchRow) stateCache outputs
        sidecar reuseCandidates)
  let (sidecar, _) ← storeBatch exp scale sidecar (prefills.map LayerRow.toScheduledRows)
  .ok (results, sidecar)

/-- The last part of a pass, for a layer that has a sidecar. -/
def finishLayer (measure : ShadowMeasure R HV V K C) (cfg : GdnModelConfig HV V K)
    (numDecodes : Nat) (prefills : List (LayerRow R HV V K H)) (executed : Bool)
    (stateCache : Nat → RecurrentState R HV V K) (outputs : List (List (TokenOutput R HV V))) :
    Option (GdnDeltaOperatorSidecar R HV V K) →
      Except PyError (List (GdnDeltaBlockShadowResult C) × Option (GdnDeltaOperatorSidecar R HV V K))
  | none => .ok ([], none)
  | some sidecar =>
      (finishSidecar exp scale measure cfg numDecodes prefills executed stateCache outputs
        sidecar).map fun x => (x.1, some x.2)

/-- The prefills of a batch, with their outputs. -/
def layerPrefills (measure : ShadowMeasure R HV V K C) (cfg : GdnModelConfig HV V K)
    (contents : Nat → GdnAffineOperator R HV V K) (metadata : GdnActiveMetadata)
    (prefills : List (LayerRow R HV V K H)) (layer : GdnLayer R HV V K C) :
    Except PyError (List (List (TokenOutput R HV V)) × GdnLayer R HV V K C) := do
  let rows := prefills.map LayerRow.toBatchRow
  let initial ← initialStates 0 cfg.mambaBlockSize layer.stateCache rows
  let sidecar ← operatorSidecar cfg contents layer.sidecar
  if cfg.executionMode = "active" then do
    let ((result, reason), sidecar, stateCache) ← activeAttempt exp scale cfg metadata sidecar
      layer.stateCache rows initial (prefills.map fun row => row.request.candidates)
    let (outputs, stateCache) ← prefillOutputs exp scale cfg.mambaBlockSize rows stateCache result
    let (shadowResults, sidecar) ← finishLayer exp scale measure cfg metadata.numDecodes prefills
      result.isSome stateCache outputs sidecar
    .ok (outputs, ⟨sidecar, stateCache, some (activeSummary result reason), shadowResults⟩)
  else do
    let (outputs, stateCache) ← prefillForward (gatedDeltaStep exp scale) 0 cfg.mambaBlockSize
      layer.stateCache rows
    let (shadowResults, sidecar) ← finishLayer exp scale measure cfg metadata.numDecodes prefills
      false stateCache outputs sidecar
    .ok (outputs, ⟨sidecar, stateCache, none, shadowResults⟩)

/-- A layer's pass over a batch: the outputs of its rows, the decodes first, and the layer after it.  What
the layer reports of its last pass is dropped first. -/
def gdnLayerForward (measure : ShadowMeasure R HV V K C) (cfg : GdnModelConfig HV V K)
    (contents : Nat → GdnAffineOperator R HV V K) (rows : List (LayerRow R HV V K H))
    (layer : GdnLayer R HV V K C) :
    Except PyError (List (List (TokenOutput R HV V)) × GdnLayer R HV V K C) := do
  let decodes := (decodesOf rows).map LayerRow.toBatchRow
  let decoded ← decodeOutputs exp scale cfg.mambaBlockSize layer.stateCache decodes
  let stateCache ← forwardDecodes (gatedDeltaStep exp scale) cfg.mambaBlockSize layer.stateCache
    decodes
  if (prefillsOf rows).isEmpty then .ok (decoded, ⟨layer.sidecar, stateCache, none, []⟩)
  else do
    let (outputs, layer) ← layerPrefills exp scale measure cfg contents
      (gdnActiveMetadata (rows.map LayerRow.toBatchRow)) (prefillsOf rows)
      { layer with stateCache := stateCache }
    .ok (decoded ++ outputs, layer)

/-- The pass of a layer that reuses nothing: the outputs and the slots. -/
def fullLayerForward (blockSize : Nat) (rows : List (LayerRow R HV V K H))
    (stateCache : Nat → RecurrentState R HV V K) :
    Except PyError (List (List (TokenOutput R HV V)) × (Nat → RecurrentState R HV V K)) := do
  let decodes := (decodesOf rows).map LayerRow.toBatchRow
  let prefills := (prefillsOf rows).map LayerRow.toBatchRow
  let decoded ← decodeOutputs exp scale blockSize stateCache decodes
  let stateCache ← forwardDecodes (gatedDeltaStep exp scale) blockSize stateCache decodes
  if prefills.isEmpty then .ok (decoded, stateCache)
  else do
    let (outputs, stateCache) ← prefillForward (gatedDeltaStep exp scale) 0 blockSize stateCache
      prefills
    .ok (decoded ++ outputs, stateCache)

end

/-! ### What a pass does with the index of a sidecar -/

section

variable {HV V K : Nat}

/-- The request of a batch for which active reuse is admitted: a single prefill with candidates. -/
def admitted (cfg : GdnModelConfig HV V K) : List ScheduledRequest → Option ScheduledRequest
  | [q] =>
      if cfg.executionMode = "active" ∧ q.isDecode = false ∧ q.candidates ≠ [] then some q else none
  | _ => none

/-- The operators that the plan of a request needs. -/
def ScheduledRequest.neededOperators (deltaBlockSize : Nat) (q : ScheduledRequest) :
    List ContextualHash :=
  (activePlan deltaBlockSize q.computed q.scheduled q.candidates).reuseHashes.reduceOption

/-- The operators that a pass looks up at once. -/
def attemptHashes (cfg : GdnModelConfig HV V K) (batch : List ScheduledRequest) :
    List ContextualHash :=
  ((admitted cfg batch).map (ScheduledRequest.neededOperators cfg.deltaBlockSize)).getD []

/-- Whether a pass reuses: it needs operators, and all of them are resident. -/
def passReuses (cfg : GdnModelConfig HV V K) (batch : List ScheduledRequest) (x : SidecarIndex) :
    Bool :=
  !(attemptHashes cfg batch).isEmpty && x.containsMany (attemptHashes cfg batch)

/-- The lookups of the shadow comparison. -/
def shadowUses (prefills : List ScheduledRequest) : List SidecarUse :=
  (indexedCandidates (prefills.map ScheduledRequest.candidates)).map fun c => .lookup c.2.2

/-- The batch rows that a shadow comparison reports. -/
def shadowRows (batch : List ScheduledRequest) : List Nat :=
  (indexedCandidates ((batch.filter fun q => !q.isDecode).map ScheduledRequest.candidates)).map
    fun c => c.1 + (batch.filter ScheduledRequest.isDecode).length

/-- The hashes of the blocks that the scheduled tokens of a request complete. -/
def ScheduledRequest.completedHashes (deltaBlockSize : Nat) (q : ScheduledRequest) :
    List ContextualHash :=
  let first := (q.computed + deltaBlockSize - 1) / deltaBlockSize
  ((List.range' first ((q.computed + q.scheduled) / deltaBlockSize - first)).filter fun b =>
    b < q.hashes.length ∧ q.computed ≤ b * deltaBlockSize ∧
      (b + 1) * deltaBlockSize ≤ q.computed + q.scheduled).map fun b => q.hashes.getD b []

/-- The stores of a pass. -/
def storeUses (deltaBlockSize : Nat) (prefills : List ScheduledRequest) : List SidecarUse :=
  (prefills.flatMap (ScheduledRequest.completedHashes deltaBlockSize)).map .store

/-- The uses of a sidecar in a pass. -/
def passUses (cfg : GdnModelConfig HV V K) (batch : List ScheduledRequest) (x : SidecarIndex) :
    List SidecarUse :=
  let prefills := batch.filter fun q => !q.isDecode
  .lookupMany (attemptHashes cfg batch) ::
    ((if passReuses cfg batch x = true then [] else shadowUses prefills) ++
      storeUses cfg.deltaBlockSize prefills)

/-- The index of a layer's sidecar after a pass. -/
def passIndex (cfg : GdnModelConfig HV V K) (batch : List ScheduledRequest)
    (x : Option SidecarIndex) : Option SidecarIndex :=
  if (batch.filter fun q => !q.isDecode).isEmpty then x
  else if cfg.capacity = 0 then none
  else
    let x := x.getD (.init cfg.capacity cfg.deltaBlockSize)
    some (x.run (passUses cfg batch x))

/-- Whether a pass reuses, from the index of the layer's sidecar. -/
def stepReuses (cfg : GdnModelConfig HV V K) (batch : List ScheduledRequest)
    (x : Option SidecarIndex) : Bool :=
  passReuses cfg batch (x.getD (.init cfg.capacity cfg.deltaBlockSize))

/-- Whether a pass compares: it has a sidecar and candidates and does not reuse. -/
def stepCompares (cfg : GdnModelConfig HV V K) (batch : List ScheduledRequest)
    (x : Option SidecarIndex) : Bool :=
  decide (cfg.capacity ≠ 0) && !stepReuses cfg batch x &&
    !((batch.filter fun q => !q.isDecode).map ScheduledRequest.candidates).all List.isEmpty

/-- The condition on a batch: an admitted prefill starts at a whole block of the sidecar and the state blocks
are whole blocks of the sidecar; any other batch has prefills whose boundaries are aligned. -/
def BatchFits (cfg : GdnModelConfig HV V K) (batch : List ScheduledRequest) : Prop :=
  (∀ q, admitted cfg batch = some q →
    cfg.deltaBlockSize ∣ cfg.mambaBlockSize ∧ cfg.deltaBlockSize ∣ q.computed) ∧
  (admitted cfg batch = none → ∀ q ∈ batch, q.isDecode = false →
    BoundariesAligned cfg.mambaBlockSize FLA_CHUNK_SIZE q.computed (q.computed + q.scheduled))

end

/-! ### Rows -/

section

variable {R : Type} {HV V K H : Nat}

theorem LayerRow.length_tokens (row : LayerRow R HV V K H) :
    row.toBatchRow.tokens.length = row.request.scheduled :=
  (GdnCoefficients.length_tokens row.wellShaped).trans row.length_inputs

theorem LayerRow.isDecode_toBatchRow (row : LayerRow R HV V K H) :
    row.toBatchRow.isDecode = row.request.isDecode := by
  rw [BatchRow.isDecode, row.length_tokens]
  rfl

theorem LayerRow.seqLen_toBatchRow (row : LayerRow R HV V K H) :
    row.toBatchRow.seqLen = row.request.computed + row.request.scheduled := by
  rw [BatchRow.seqLen, row.length_tokens]
  rfl

theorem filter_isDecode_toBatchRow (rows : List (LayerRow R HV V K H)) :
    ((rows.map LayerRow.toBatchRow).filter fun row => row.isDecode)
      = (decodesOf rows).map LayerRow.toBatchRow := by
  rw [List.filter_map, decodesOf]
  refine congrArg (List.map _) (List.filter_congr ?_)
  intro row _
  exact row.isDecode_toBatchRow

theorem filter_not_isDecode_toBatchRow (rows : List (LayerRow R HV V K H)) :
    ((rows.map LayerRow.toBatchRow).filter fun row => !row.isDecode)
      = (prefillsOf rows).map LayerRow.toBatchRow := by
  rw [List.filter_map, prefillsOf]
  refine congrArg (List.map _) (List.filter_congr ?_)
  intro row _
  exact congrArg not row.isDecode_toBatchRow

theorem map_request_prefillsOf (rows : List (LayerRow R HV V K H)) :
    (prefillsOf rows).map LayerRow.request
      = (rows.map LayerRow.request).filter fun q => !q.isDecode := by
  rw [List.filter_map]
  rfl

/-- The rows of a batch with slots of their own, digests for their hashes, and candidates that pass the
checks. -/
structure RowsReady (blockSize : Nat) (rows : List (LayerRow R HV V K H)) : Prop where
  slots : BatchReady blockSize (rows.map LayerRow.toBatchRow)
  hashes : ∀ row ∈ rows, ∀ h ∈ row.request.hashes, h ≠ []
  candidates : ∀ row ∈ rows, ValidCandidates row.request.candidates

variable {blockSize : Nat} {rows : List (LayerRow R HV V K H)}

theorem mem_prefillsOf {row : LayerRow R HV V K H} :
    row ∈ prefillsOf rows ↔ row ∈ rows ∧ row.request.isDecode = false := by
  rw [prefillsOf, List.mem_filter, Bool.not_eq_true']

theorem RowsReady.decodes (h : RowsReady blockSize rows) :
    BatchReady blockSize ((decodesOf rows).map LayerRow.toBatchRow) :=
  h.slots.sublist (List.filter_sublist.map _)

theorem RowsReady.prefills (h : RowsReady blockSize rows) :
    BatchReady blockSize ((prefillsOf rows).map LayerRow.toBatchRow) :=
  h.slots.sublist (List.filter_sublist.map _)

theorem isDecode_of_mem_decodesOf : ∀ row ∈ (decodesOf rows).map LayerRow.toBatchRow,
    row.isDecode = true := by
  intro r hr
  obtain ⟨row, hrow, rfl⟩ := List.mem_map.mp hr
  rw [row.isDecode_toBatchRow]
  exact (List.mem_filter.mp hrow).2

theorem isDecode_of_mem_prefillsOf : ∀ row ∈ (prefillsOf rows).map LayerRow.toBatchRow,
    row.isDecode = false := by
  intro r hr
  obtain ⟨row, hrow, rfl⟩ := List.mem_map.mp hr
  rw [row.isDecode_toBatchRow]
  exact (mem_prefillsOf.mp hrow).2

theorem wellFormed_toScheduledRows (h : RowsReady blockSize rows) :
    ∀ q ∈ (prefillsOf rows).map LayerRow.toScheduledRows, q.WellFormed := by
  intro q hq
  obtain ⟨row, hrow, rfl⟩ := List.mem_map.mp hq
  exact ⟨row.wellShaped, h.hashes row (mem_prefillsOf.mp hrow).1⟩

end

/-! ### Sidecars -/

section

variable {R : Type} {HV V K : Nat} {blockSize : Nat} {s : GdnDeltaOperatorSidecar R HV V K}

/-- A sidecar whose operators are of whole blocks. -/
structure HoldsBlocks (blockSize : Nat) (s : GdnDeltaOperatorSidecar R HV V K) : Prop where
  ready : Ready blockSize s
  ofBlock : ∀ e ∈ s.contents, e.2.OfBlock blockSize

theorem HoldsBlocks.run (hs : HoldsBlocks blockSize s)
    {calls : List (GdnDeltaOperatorSidecar.Call R HV V K)}
    (hcalls : ∀ call ∈ calls, call.Accepted blockSize) : HoldsBlocks blockSize (s.run calls) where
  ready := hs.ready.run calls
  ofBlock := by
    intro e he
    rcases Ready.mem_contents_run calls hs.ready hcalls he with he | hstore
    · exact hs.ofBlock e he
    · exact ⟨(hcalls _ hstore).2.1, (hcalls _ hstore).2.2⟩

/-- The sidecar of a layer is the one it has, or a new one. -/
theorem operatorSidecar_ok (cfg : GdnModelConfig HV V K) (hcap : cfg.capacity ≠ 0)
    (contents : Nat → GdnAffineOperator R HV V K)
    {sidecar : Option (GdnDeltaOperatorSidecar R HV V K)}
    (hs : ∀ s, sidecar = some s → HoldsBlocks cfg.deltaBlockSize s) :
    ∃ s, operatorSidecar cfg contents sidecar = .ok (some s) ∧ HoldsBlocks cfg.deltaBlockSize s ∧
      s.index = (sidecar.map GdnDeltaOperatorSidecar.index).getD
        (.init cfg.capacity cfg.deltaBlockSize) ∧
      ∀ e ∈ s.contents, ∃ s₀, sidecar = some s₀ ∧ e ∈ s₀.contents := by
  rw [operatorSidecar.eq_def, if_neg hcap]
  cases sidecar with
  | some s => exact ⟨s, rfl, hs s rfl, rfl, fun e he => ⟨s, rfl, he⟩⟩
  | none =>
      have hpos := Nat.pos_of_ne_zero hcap
      have hinit : GdnDeltaOperatorSidecar.init contents cfg.capacity cfg.deltaBlockSize
          = .ok { capacity := cfg.capacity, blockSize := cfg.deltaBlockSize, operators := contents,
                  keyToSlot := [], freeSlots := List.range cfg.capacity } := by
        have h₁ := cfg.deltaBlockSize_pos
        have h₂ := cfg.valueHeads_pos
        have h₃ := cfg.valueWidth_pos
        have h₄ := cfg.keyWidth_pos
        rw [GdnDeltaOperatorSidecar.init, if_neg, if_neg (by decide)]
        simp only [List.any_cons, List.any_nil, Bool.or_false, Bool.or_eq_true, beq_iff_eq]
        omega
      obtain ⟨-, hrep⟩ := GdnDeltaOperatorSidecar.init_ok hinit
      refine ⟨_, congrArg (Except.map some) hinit, ⟨⟨hpos, ?_⟩, ?_⟩, rfl, ?_⟩
      · exact ⟨_, hrep⟩
      · intro e he
        cases he
      · intro e he
        cases he

end

end CacheSelect.Gdn

import CacheSelect.Gdn.ExecutionPlan
import CacheSelect.Gdn.LayerForward

/-! # Active reuse in one layer

`executeActiveGdnPrefill` runs one prefill as alternating spans of the ordinary recurrence and of cached
block operators.  A recomputed span goes through the chunk kernel and the checkpoint writer, and a reused
block writes its outgoing state to the slot of its state block.

`executeActiveGdnPrefill_eq_prefillForward` says that with exact operators this writes what the ordinary
prefill writes.

The tensors of a layer are packed in one batch, so the check on the packing passes.
-/

namespace CacheSelect.Gdn

open CacheSelect.Core OrderedDict Segments Writes

/-- The settings of GDN reuse that a layer reads. -/
structure GdnDeltaConfig where
  executionMode : String
  mambaCacheMode : String
  prefillBackend : String
  mambaBlockSize : Option Nat

/-- The fields of the metadata that the active path reads. -/
structure GdnActiveMetadata where
  numPrefills : Nat
  numDecodes : Nat
  numSpecDecodes : Nat
  numComputedTokensCpu : Option (List Nat)
  prefillQueryStartLocCpu : Option (List Nat)

/-- The metadata of a batch, the decodes first. -/
def gdnActiveMetadata {T : Type} (rows : List (BatchRow T)) : GdnActiveMetadata :=
  let decodes := rows.filter fun row => row.isDecode
  let prefills := rows.filter fun row => !row.isDecode
  { numPrefills := prefills.length
    numDecodes := decodes.length
    numSpecDecodes := 0
    numComputedTokensCpu := some ((decodes ++ prefills).map BatchRow.computed)
    prefillQueryStartLocCpu :=
      if prefills.isEmpty then none
      else some ((prefills.map fun row => row.tokens.length).scanl (· + ·) 0) }

section

variable {R : Type} {HV V K : Nat} [CommRing R] (exp : R → R) (scale : R)

/-- `recompute_span`: run the kernel on an interval of the prompt and persist its states. -/
def activeRecomputeSpan (tokens : List (GdnToken R HV V K)) (checkpointRows : List (List Nat))
    (checkpointBlockSize computed : Nat) :
    GdnRecomputeSpan R HV V K (Nat → RecurrentState R HV V K) :=
  fun startToken endToken incomingState stateCache => do
    let span := slice tokens (startToken - computed) (endToken - computed)
    let (finalState, outputs) := gatedDelta exp scale incomingState span
    let lastBlock ← checkpointBlockIndexForTokenEnd endToken checkpointBlockSize
    let stateCache ← writeGdnPrefillCheckpoints stateCache
      (chunkStartStates (gatedDeltaStep exp scale) incomingState span) [finalState] checkpointRows
      (prepareChunkOffsets [endToken - computed - (startToken - computed)]) [startToken]
      [startToken / checkpointBlockSize] [lastBlock] checkpointBlockSize FLA_CHUNK_SIZE
    .ok ((finalState, outputs), stateCache)

/-- `span_complete`: persist the state after a reused block. -/
def activeSpanComplete (checkpointRows : List (List Nat)) (checkpointBlockSize : Nat) :
    GdnSpanComplete R HV V K (Nat → RecurrentState R HV V K) :=
  fun span outgoingState stateCache =>
    if span.mode ≠ .affineReuse then .ok stateCache
    else do
      let physicalBlockIndex ← checkpointBlockIndexForTokenEnd span.endToken checkpointBlockSize
      writeGdnReusedBlockCheckpoint stateCache checkpointRows 0 physicalBlockIndex outgoingState

/-- What `executeActiveGdnPrefill` returns, with the sidecar and the slots it leaves. -/
abbrev ActivePrefillResult (R : Type) (HV V K : Nat) :=
  (Option (GdnDeltaSequenceExecutionResult R HV V K) × String) × GdnDeltaOperatorSidecar R HV V K ×
    (Nat → RecurrentState R HV V K)

/-- The checks on the geometry: the size of a state block, the computed and the scheduled tokens. -/
def activeGeometry (cfg : GdnDeltaConfig) (metadata : GdnActiveMetadata)
    (logicalBlockSize numStates numRows : Nat) : Except PyError (Nat × Nat × Int) :=
  if numStates ≠ 1 ∨ numRows ≠ 1 then
    .error (.valueError "active GDN reuse requires one prefill state row")
  else
    match cfg.mambaBlockSize with
    | none => .error (.valueError "active GDN reuse requires a Mamba block size")
    | some checkpointBlockSize =>
        if logicalBlockSize % FLA_CHUNK_SIZE ≠ 0 then
          .error (.valueError "the GDN delta block must align to kernel chunks")
        else if checkpointBlockSize % logicalBlockSize ≠ 0 then
          .error (.valueError "the Mamba checkpoint page must contain whole GDN delta blocks")
        else if checkpointBlockSize % FLA_CHUNK_SIZE ≠ 0 then
          .error (.valueError "the Mamba block size must align to GDN kernel chunks")
        else
          match metadata.numComputedTokensCpu, metadata.prefillQueryStartLocCpu with
          | none, _ => .error (.valueError "active GDN reuse requires CPU computed-token metadata")
          | some _, none => .error (.valueError "active GDN reuse requires CPU prefill boundaries")
          | some (computed :: _), some (first :: second :: _) =>
              if computed % logicalBlockSize ≠ 0 then
                .error (.valueError
                  "the active GDN prefill must start on a logical block boundary")
              else .ok (checkpointBlockSize, computed, (second : Int) - first)
          | _, _ => .error .indexError

/-- Build and execute the plan of the prefill. -/
def runActiveGdnPrefill (sidecar : GdnDeltaOperatorSidecar R HV V K)
    (stateCache : Nat → RecurrentState R HV V K) (checkpointRows : List (List Nat))
    (initialState : List (RecurrentState R HV V K)) (tokens : List (GdnToken R HV V K))
    (reuseCandidates : List (List (Int × ContextualHash))) (checkpointBlockSize computed : Nat)
    (scheduled : Int) : Except PyError (ActivePrefillResult R HV V K) := do
  let plans ← buildGdnDeltaExecutionPlans [(computed : Int)] [scheduled] sidecar.blockSize
    reuseCandidates
  match plans, initialState with
  | [plan], initialState :: _ =>
      if plan.reusedBlockIndices = [] then
        .ok ((none, "no_fully_scheduled_candidates"), sidecar, stateCache)
      else do
        let (result, sidecar, stateCache) ← executeGdnDeltaSequencePlan
          (activeRecomputeSpan exp scale tokens checkpointRows checkpointBlockSize computed)
          (activeSpanComplete checkpointRows checkpointBlockSize) plan initialState sidecar stateCache
        match result with
        | none => .ok ((none, "operator_not_resident"), sidecar, stateCache)
        | some result => .ok ((some result, "executed"), sidecar, stateCache)
  | _, _ => .error (.valueError "not enough values to unpack")

/-- `_execute_active_gdn_prefill`. -/
def executeActiveGdnPrefill (cfg : GdnDeltaConfig) (metadata : GdnActiveMetadata)
    (sidecar : GdnDeltaOperatorSidecar R HV V K) (stateCache : Nat → RecurrentState R HV V K)
    (checkpointRows : List (List Nat)) (initialState : List (RecurrentState R HV V K))
    (tokens : List (GdnToken R HV V K)) (reuseCandidates : List (List (Int × ContextualHash))) :
    Except PyError (ActivePrefillResult R HV V K) :=
  let admission := assessGdnDeltaActiveAdmission cfg.executionMode cfg.mambaCacheMode
    cfg.prefillBackend metadata.numPrefills metadata.numDecodes metadata.numSpecDecodes
    reuseCandidates
  if admission.eligible = false then .ok ((none, admission.reason), sidecar, stateCache)
  else do
    let (checkpointBlockSize, computed, scheduled) ← activeGeometry cfg metadata sidecar.blockSize
      initialState.length checkpointRows.length
    runActiveGdnPrefill exp scale sidecar stateCache checkpointRows initialState tokens
      reuseCandidates checkpointBlockSize computed scheduled

end

/-! ### Spans -/

theorem WritableSlots.mono {blockSize start stop start' stop' : Nat} {row : List Nat}
    (h : WritableSlots blockSize row start stop) (h₁ : start ≤ start') (h₂ : stop' ≤ stop) :
    WritableSlots blockSize row start' stop' where
  lt_length := Nat.lt_of_le_of_lt (Nat.div_le_div_right (by omega)) h.lt_length
  ne_null := fun b hb hb' => h.ne_null b (Nat.le_trans (Nat.div_le_div_right h₁) hb)
    (Nat.le_trans hb' (Nat.div_le_div_right (by omega)))
  inj := fun b b' slot hb₁ hb₂ hb₁' hb₂' => h.inj b b' slot
    (Nat.le_trans (Nat.div_le_div_right h₁) hb₁)
    (Nat.le_trans hb₂ (Nat.div_le_div_right (by omega)))
    (Nat.le_trans (Nat.div_le_div_right h₁) hb₁')
    (Nat.le_trans hb₂' (Nat.div_le_div_right (by omega)))

section

variable {R : Type} {HV V K : Nat} [CommRing R] (exp : R → R) (scale : R)

/-- States that follow the recurrence over a prompt. -/
def FollowsRecurrence (tokens : List (GdnToken R HV V K)) (state : Nat → RecurrentState R HV V K)
    (start stop : Nat) : Prop :=
  ∀ a b, start ≤ a → a ≤ b → b ≤ stop →
    (gatedDelta exp scale (state a) (slice tokens a b)).1 = state b

variable {exp scale} {tokens : List (GdnToken R HV V K)} {state : Nat → RecurrentState R HV V K}
  {start stop blockSize : Nat} {row : List Nat}

theorem take_slice {α : Type} (l : List α) {a b n : Nat} (h : a + n ≤ b) :
    (slice l a b).take n = slice l a (a + n) := by
  rw [slice, slice, List.take_take, Nat.min_eq_left (by omega), Nat.add_sub_cancel_left]

/-- The states of the recurrence from the beginning of an interval. -/
theorem followsRecurrence_gatedDelta (tokens : List (GdnToken R HV V K))
    (initialState : RecurrentState R HV V K) (start stop : Nat) :
    FollowsRecurrence exp scale tokens
      (fun n => (gatedDelta exp scale initialState (slice tokens start n)).1) start stop := by
  intro a b ha hab _
  dsimp only
  rw [← slice_append tokens ha hab]
  exact (Scan.state_append _ _ _ _).symm

theorem FollowsRecurrence.mono (h : FollowsRecurrence exp scale tokens state start stop)
    {start' stop' : Nat} (h₁ : start ≤ start') (h₂ : stop' ≤ stop) :
    FollowsRecurrence exp scale tokens state start' stop' :=
  fun a b ha hab hb => h a b (Nat.le_trans h₁ ha) hab (Nat.le_trans hb h₂)

/-- A recomputed span is the kernel on its tokens and the iteration of the writer on its row. -/
theorem activeRecomputeSpan_eq {a b : Nat} (ha : start ≤ a) (hab : a < b) (hbs : 0 < blockSize)
    (hstate : FollowsRecurrence exp scale tokens state a b)
    (stateCache : Nat → RecurrentState R HV V K) :
    activeRecomputeSpan exp scale (tokens.drop start) [row] blockSize start a b (state a) stateCache
      = (writeSequenceCheckpoints (chunkStartStates (gatedDeltaStep exp scale) (state a)
          (slice tokens a b)) row blockSize FLA_CHUNK_SIZE (state b) 0 a (a / blockSize)
          ((b - 1) / blockSize) stateCache).map fun stateCache =>
            (gatedDelta exp scale (state a) (slice tokens a b), stateCache) := by
  have hspan : slice (tokens.drop start) (a - start) (b - start) = slice tokens a b := by
    rw [slice, slice, List.drop_drop, Nat.add_sub_cancel' ha]
    congr 1
    omega
  have hfinal := hstate a b (Nat.le_refl a) (Nat.le_of_lt hab) (Nat.le_refl b)
  have hresult : gatedDelta exp scale (state a) (slice tokens a b)
      = (state b, (gatedDelta exp scale (state a) (slice tokens a b)).2) := Prod.ext hfinal rfl
  rw [activeRecomputeSpan, hspan, checkpointBlockIndexForTokenEnd, if_neg (by omega),
    if_neg (by omega), hresult]
  -- the writer runs on a batch of one sequence
  change (writeSequenceCheckpoints (chunkStartStates (gatedDeltaStep exp scale) (state a)
    (slice tokens a b)) row blockSize FLA_CHUNK_SIZE (state b) 0 a (a / blockSize)
    ((b - 1) / blockSize) stateCache >>= fun m => .ok m) >>= _ = _
  cases writeSequenceCheckpoints (chunkStartStates (gatedDeltaStep exp scale) (state a)
    (slice tokens a b)) row blockSize FLA_CHUNK_SIZE (state b) 0 a (a / blockSize)
    ((b - 1) / blockSize) stateCache with
  | error e => rfl
  | ok m => rfl

/-- **A recomputed span** runs the recurrence and writes the checkpoints of its interval. -/
theorem activeRecomputeSpan_ok {a b : Nat} (ha : start ≤ a) (hab : a < b) (hbs : 0 < blockSize)
    (hstate : FollowsRecurrence exp scale tokens state a b) (hlen : b ≤ tokens.length)
    (haligned : BoundariesAligned blockSize FLA_CHUNK_SIZE a b)
    (hslots : WritableSlots blockSize row a b) (stateCache : Nat → RecurrentState R HV V K) :
    activeRecomputeSpan exp scale (tokens.drop start) [row] blockSize start a b (state a) stateCache
      = .ok (gatedDelta exp scale (state a) (slice tokens a b),
          writeAll stateCache (checkpointWrites blockSize row state a b)) := by
  have hchunks : ∀ j, a + FLA_CHUNK_SIZE * j < b →
      (chunkStartStates (gatedDeltaStep exp scale) (state a) (slice tokens a b))[0 + j]?
        = some (state (a + FLA_CHUNK_SIZE * j)) := by
    intro j hj
    have hlt : FLA_CHUNK_SIZE * j < (slice tokens a b).length := by
      rw [length_slice _ hlen]
      omega
    rw [Nat.zero_add, chunkStartStates_getElem? _ _ hlt, take_slice _ (Nat.le_of_lt hj)]
    exact congrArg some (hstate a _ (Nat.le_refl a) (Nat.le_add_right _ _) (Nat.le_of_lt hj))
  rw [activeRecomputeSpan_eq ha hab hbs hstate,
    writeSequenceCheckpoints_ok hbs (by decide) hab haligned hslots hchunks]
  rfl

/-- A reused block lies in one state block. -/
theorem block_in_page {logicalBlockSize : Nat} (hpos : 0 < logicalBlockSize)
    (hdvd : logicalBlockSize ∣ blockSize) (block : Nat) :
    block * logicalBlockSize / blockSize
      = (block * logicalBlockSize + logicalBlockSize - 1) / blockSize := by
  obtain ⟨q, rfl⟩ := hdvd
  rw [← Nat.div_div_eq_div_mul, ← Nat.div_div_eq_div_mul, Nat.mul_div_cancel _ hpos]
  congr 1
  refine (Nat.div_eq_of_lt_le ?_ ?_).symm
  · omega
  · rw [Nat.succ_mul]
    omega

omit [CommRing R] in
/-- **A reused block** writes the checkpoint of its interval. -/
theorem activeSpanComplete_ok (hbs : 0 < blockSize) {span : GdnDeltaExecutionSpan}
    (hmode : span.mode = .affineReuse) (hlt : span.startToken < span.endToken)
    (hsame : span.startToken / blockSize = (span.endToken - 1) / blockSize)
    (hslots : WritableSlots blockSize row span.startToken span.endToken)
    (stateCache : Nat → RecurrentState R HV V K) :
    activeSpanComplete [row] blockSize span (state span.endToken) stateCache
      = .ok (writeAll stateCache
          (checkpointWrites blockSize row state span.startToken span.endToken)) := by
  have hstop : span.endToken ≤ (span.startToken / blockSize + 1) * blockSize := by
    have := Nat.lt_mul_div_succ (span.endToken - 1) hbs
    rw [hsame, Nat.mul_comm]
    omega
  rw [activeSpanComplete, if_neg (not_not_intro hmode), checkpointBlockIndexForTokenEnd,
    if_neg (by omega), if_neg (by omega)]
  change writeGdnReusedBlockCheckpoint stateCache [row] 0 ((span.endToken - 1) / blockSize)
    (state span.endToken) = _
  rw [writeGdnReusedBlockCheckpoint]
  dsimp only [List.getElem?_cons_zero]
  rw [hslots.getElem?_eq (Nat.le_refl _)]
  dsimp only
  rw [if_neg (hslots.getD_ne_null (Nat.le_of_eq hsame) (Nat.le_refl _)),
    checkpointWrites_single hstop hsame, hsame]
  rfl

/-! ### Executing spans -/

/-- Spans that the active path can run: reused blocks and intervals from aligned tokens on. -/
def ActiveSpan (logicalBlockSize : Nat) (span : GdnDeltaExecutionSpan) : Prop :=
  logicalBlockSize ∣ span.startToken ∧ (span.mode = .affineReuse →
    span.endToken = span.startToken + logicalBlockSize)

theorem recomputeSpans_active {logicalBlockSize sequenceIndex a b : Nat}
    (ha : logicalBlockSize ∣ a) : ∀ span ∈ recomputeSpans sequenceIndex a b,
    ActiveSpan logicalBlockSize span := by
  intro span hspan
  rw [recomputeSpans] at hspan
  split at hspan
  · obtain rfl := List.mem_singleton.mp hspan
    refine ⟨ha, fun hmode => ?_⟩
    cases hmode
  · cases hspan

/-- The spans of a plan start at whole logical blocks when the interval does. -/
theorem planSpans_active {logicalBlockSize sequenceIndex scheduledEnd : Nat}
    {candidates : List (Nat × ContextualHash)} : ∀ {blocks : List Nat} {cursor : Nat},
    logicalBlockSize ∣ cursor → ∀ span ∈ planSpans sequenceIndex logicalBlockSize scheduledEnd
      candidates cursor blocks, ActiveSpan logicalBlockSize span := by
  intro blocks
  induction blocks with
  | nil =>
      intro cursor hcursor span hspan
      exact recomputeSpans_active hcursor span hspan
  | cons b blocks ih =>
      intro cursor hcursor span hspan
      rcases List.mem_append.mp hspan with hspan | hspan
      · exact recomputeSpans_active hcursor span hspan
      rcases List.mem_cons.mp hspan with rfl | hspan
      · exact ⟨Nat.dvd_mul_left _ _, fun _ => rfl⟩
      · exact ih (Nat.dvd_add (Nat.dvd_mul_left _ _) (Nat.dvd_refl _)) span hspan

omit [CommRing R] in
/-- The checkpoints of an interval determine the slots. -/
theorem Checkpointed.unique {m m' stateCache : Nat → RecurrentState R HV V K}
    (h : Checkpointed blockSize row state start stop stateCache m)
    (h' : Checkpointed blockSize row state start stop stateCache m') : m = m' := by
  funext slot
  by_cases hslot : ∃ b, start / blockSize ≤ b ∧ b ≤ (stop - 1) / blockSize ∧ row[b]? = some slot
  · obtain ⟨b, h₁, h₂, hb⟩ := hslot
    rw [h.written b slot h₁ h₂ hb, h'.written b slot h₁ h₂ hb]
  · have hframe : ∀ b, start / blockSize ≤ b → b ≤ (stop - 1) / blockSize → row[b]? ≠ some slot :=
      fun b h₁ h₂ hb => hslot ⟨b, h₁, h₂, hb⟩
    rw [h.frame slot hframe, h'.frame slot hframe]

theorem ite_eligible {c : Prop} [Decidable c] {reason : String} {x : GdnDeltaActiveAdmission} :
    (if c then (⟨false, reason⟩ : GdnDeltaActiveAdmission) else x).eligible = true
      ↔ ¬ c ∧ x.eligible = true := by
  by_cases hc : c
  · rw [if_pos hc]
    simp [hc]
  · rw [if_neg hc]
    simp [hc]

/-- Active reuse is admitted for a single prefill with candidates, in the active mode of a checkpointing
engine on the Triton backend. -/
theorem eligible_iff {executionMode mambaCacheMode prefillBackend : String}
    {numPrefills numDecodes numSpecDecodes : Nat}
    {reuseCandidates : List (List (Int × ContextualHash))} :
    (assessGdnDeltaActiveAdmission executionMode mambaCacheMode prefillBackend numPrefills numDecodes
        numSpecDecodes reuseCandidates).eligible = true
      ↔ executionMode = "active" ∧ mambaCacheMode = "all" ∧ prefillBackend = "triton" ∧
        numSpecDecodes = 0 ∧ numDecodes = 0 ∧ numPrefills = 1 ∧
        ∃ cs, cs ≠ [] ∧ reuseCandidates = [cs] := by
  unfold assessGdnDeltaActiveAdmission
  rw [ite_eligible, ite_eligible, ite_eligible, ite_eligible, ite_eligible, ite_eligible, not_not, not_not, not_not, not_not, not_not, not_not]
  match reuseCandidates with
  | [] => simp
  | [cs] =>
      dsimp only
      rw [ite_eligible]
      simp
  | _ :: _ :: _ => simp

/-- Geometry that passes the checks. -/
theorem activeGeometry_ok {cfg : GdnDeltaConfig} {metadata : GdnActiveMetadata}
    {logicalBlockSize numStates numRows checkpointBlockSize computed : Nat} {scheduled : Int}
    (h : activeGeometry cfg metadata logicalBlockSize numStates numRows
      = .ok (checkpointBlockSize, computed, scheduled)) :
    numStates = 1 ∧ numRows = 1 ∧ cfg.mambaBlockSize = some checkpointBlockSize ∧
      FLA_CHUNK_SIZE ∣ logicalBlockSize ∧ logicalBlockSize ∣ checkpointBlockSize ∧
      logicalBlockSize ∣ computed ∧ ∃ cs first second rest,
        metadata.numComputedTokensCpu = some (computed :: cs) ∧
        metadata.prefillQueryStartLocCpu = some (first :: second :: rest) ∧
        scheduled = (second : Int) - first := by
  rw [activeGeometry] at h
  split at h
  · cases h
  next hone =>
  split at h
  · cases h
  next page hpage =>
  split at h
  · cases h
  next hchunk =>
  split at h
  · cases h
  next hdvd =>
  split at h
  · cases h
  split at h
  · cases h
  · cases h
  next cs first second rest hcomputed hstarts =>
    split at h
    · cases h
    next hmod =>
    cases h
    rw [not_or, not_not, not_not] at hone
    exact ⟨hone.1, hone.2, hpage, Nat.dvd_of_mod_eq_zero (not_not.mp hchunk),
      Nat.dvd_of_mod_eq_zero (not_not.mp hdvd), Nat.dvd_of_mod_eq_zero (not_not.mp hmod), cs, first,
      second, rest, hcomputed, hstarts, rfl⟩
  · cases h

theorem gdnActiveMetadata_single {T : Type} {rows : List (BatchRow T)} {row : BatchRow T}
    (hdecs : (rows.filter fun row => row.isDecode) = [])
    (hrow : (rows.filter fun row => !row.isDecode) = [row]) :
    gdnActiveMetadata rows = ⟨1, 0, 0, some [row.computed], some [0, row.tokens.length]⟩ := by
  rw [gdnActiveMetadata, hdecs, hrow]
  simp

end

end CacheSelect.Gdn

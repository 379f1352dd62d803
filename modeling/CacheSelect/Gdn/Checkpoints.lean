import CacheSelect.Core.Request
import CacheSelect.Lib.Except
import CacheSelect.Lib.Scan
import CacheSelect.Lib.Writes
import Mathlib.Data.List.GetD

/-! # Recurrent-state checkpoints

With checkpointing on, a request has one physical slot for each logical state block, and the slot of block
`b` keeps the state after `(b + 1) * block_size` tokens, or after the last token for the block that is not
full yet.  A prefill chunk writes the boundaries it crosses from the states its kernel emits at every
`FLA_CHUNK_SIZE`-th token, and its final state; a decode copies the state into the block of the new token and
updates it in place.

`Checkpointed` says what writing an interval of tokens does to the slots, and each writer has a lemma that
says it does this.  The recurrence is arbitrary: a step that takes a state and a token to the next state and
an output.  Counts and indices are naturals, so the checks on signs pass; the clamps at zero are the truncated
subtractions.
-/

namespace CacheSelect.Gdn

open CacheSelect.Core Writes

def FLA_CHUNK_SIZE : Nat := 64

def NULL_BLOCK_ID : Nat := 0

/-! ### Planning the writes -/

/-- The states of the chunk kernel that cached block boundaries are copied from. -/
structure GdnCheckpointWritePlan where
  destinationBlockIndices : List Nat
  sourceChunkIndices : List Nat
deriving DecidableEq, Repr

/-- The physical block that holds the state after a token interval. -/
def checkpointBlockIndexForTokenEnd (endToken checkpointBlockSize : Nat) : Except PyError Nat :=
  if endToken = 0 then .error (.valueError "end_token must be positive")
  else if checkpointBlockSize = 0 then
    .error (.valueError "checkpoint_block_size must be positive")
  else .ok ((endToken - 1) / checkpointBlockSize)

/-- Plan the copies at the block boundaries; the final block is saved separately. -/
def planGdnCheckpointWrites (firstChunkIndex numComputedTokens firstScheduledBlock
    lastScheduledBlock blockSize chunkSize : Nat) : Except PyError GdnCheckpointWritePlan :=
  if blockSize = 0 ∨ chunkSize = 0 then
    .error (.valueError "block_size and chunk_size must be positive")
  else if blockSize % chunkSize ≠ 0 then
    .error (.valueError "GDN checkpoint blocks must align to whole kernel chunks")
  else if lastScheduledBlock < firstScheduledBlock then
    .error (.valueError "last_scheduled_block must not precede the first block")
  else
    let destinationBlocks :=
      List.range' firstScheduledBlock (lastScheduledBlock - firstScheduledBlock)
    if destinationBlocks = [] then .ok ⟨[], []⟩
    else
      let firstBoundaryToken := (firstScheduledBlock + 1) * blockSize
      let tokensUntilFirstBoundary := firstBoundaryToken - numComputedTokens
      if firstBoundaryToken < numComputedTokens then
        .error (.valueError "the first checkpoint boundary precedes computed tokens")
      else if tokensUntilFirstBoundary % chunkSize ≠ 0 then
        .error (.valueError "computed tokens do not align with a checkpoint chunk")
      else
        let firstSourceChunk := firstChunkIndex + tokensUntilFirstBoundary / chunkSize
        .ok ⟨destinationBlocks, (List.range destinationBlocks.length).map
          fun offset => firstSourceChunk + offset * (blockSize / chunkSize)⟩

/-- `_compute_prefix_caching_block_indices`: the last computed, the first scheduled and the last
scheduled block. -/
def computePrefixCachingBlockIndices (blockSize numComputedTokens seqLen : Nat) : Nat × Nat × Nat :=
  ((numComputedTokens + blockSize - 1) / blockSize - 1,
    -- an unaligned continuation must overwrite its partially filled block
    (numComputedTokens + blockSize) / blockSize - 1,
    (seqLen + blockSize - 1) / blockSize - 1)

/-! ### Writing -/

section

variable {S : Type}

/-- The entries of a row of the checkpoint table at some logical blocks. -/
def gatherSlots (row : List Nat) (blocks : List Nat) : Except PyError (List Nat) :=
  blocks.mapM fun b =>
    match row[b]? with
    | some slot => .ok slot
    | none => .error .indexError

/-- The iteration of `write_gdn_prefill_checkpoints` for one sequence. -/
def writeSequenceCheckpoints (chunkStates : List S) (row : List Nat) (blockSize chunkSize : Nat)
    (finalState : S) (firstChunkIndex numComputedTokens firstBlock lastBlock : Nat)
    (stateCache : Nat → S) : Except PyError (Nat → S) := do
  let plan ← planGdnCheckpointWrites firstChunkIndex numComputedTokens firstBlock lastBlock blockSize
    chunkSize
  let physicalSlots ← gatherSlots row plan.destinationBlockIndices
  if NULL_BLOCK_ID ∈ physicalSlots then
    .error (.valueError "an intermediate checkpoint has no physical slot")
  else do
    let states ← plan.sourceChunkIndices.mapM fun i =>
      match chunkStates[i]? with
      | some state => .ok state
      | none => .error .indexError
    let stateCache := writeAll stateCache (physicalSlots.zip states)
    match row[lastBlock]? with
    | none => .error .indexError
    | some finalSlot =>
        if finalSlot = NULL_BLOCK_ID then
          .error (.valueError "the final checkpoint has no physical slot")
        else .ok (Function.update stateCache finalSlot finalState)

/-- Persist every completed block boundary and the final state of the sequences of a prefill. -/
def writeGdnPrefillCheckpoints (stateCache : Nat → S) (chunkStates finalStates : List S)
    (checkpointStateIndices : List (List Nat)) (chunkOffsets numComputedTokens firstScheduledBlocks
      lastScheduledBlocks : List Nat) (blockSize chunkSize : Nat) : Except PyError (Nat → S) :=
  let numSequences := finalStates.length
  if checkpointStateIndices.length ≠ numSequences then
    .error (.valueError "checkpoint table and final states disagree on batch size")
  else if chunkOffsets.length ≠ numSequences + 1 then
    .error (.valueError "chunk_offsets must contain one start and one final offset")
  else if numComputedTokens.length ≠ numSequences ∨ firstScheduledBlocks.length ≠ numSequences ∨
      lastScheduledBlocks.length ≠ numSequences then
    .error (.valueError "checkpoint geometry must contain one value per sequence")
  else
    (List.range numSequences).foldlM (fun stateCache i =>
      match finalStates[i]? with
      | none => .error .indexError
      | some finalState =>
          writeSequenceCheckpoints chunkStates (checkpointStateIndices.getD i []) blockSize chunkSize
            finalState (chunkOffsets.getD i 0) (numComputedTokens.getD i 0)
            (firstScheduledBlocks.getD i 0) (lastScheduledBlocks.getD i 0) stateCache)
      stateCache

/-- Persist the outgoing state of one reused block. -/
def writeGdnReusedBlockCheckpoint (stateCache : Nat → S) (checkpointStateIndices : List (List Nat))
    (sequenceIndex targetBlockIndex : Nat) (finalState : S) : Except PyError (Nat → S) :=
  match checkpointStateIndices[sequenceIndex]? with
  | none => .error (.valueError "sequence_index is outside the checkpoint table")
  | some row =>
      match row[targetBlockIndex]? with
      | none => .error (.valueError "target_block_index is outside the checkpoint table")
      | some physicalSlot =>
          if physicalSlot = NULL_BLOCK_ID then
            .error (.valueError "the reused block checkpoint has no physical slot")
          else .ok (Function.update stateCache physicalSlot finalState)

/-- The slots of one logical block of each row. -/
def gatherColumn (checkpointStateIndices : List (List Nat)) (blocks : List Nat) :
    Except PyError (List Nat) :=
  (checkpointStateIndices.zip blocks).mapM fun (row, b) =>
    match row[b]? with
    | some slot => .ok slot
    | none => .error .indexError

/-- Copy the input states of decodes to their destination blocks. -/
def prepareGdnDecodeCheckpoints (stateCache : Nat → S) (checkpointStateIndices : List (List Nat))
    (inputBlockIndices outputBlockIndices : List Nat) : Except PyError (List Nat × (Nat → S)) :=
  if inputBlockIndices.length ≠ checkpointStateIndices.length then
    .error (.valueError "input block indices must contain one value per request")
  else if outputBlockIndices.length ≠ checkpointStateIndices.length then
    .error (.valueError "output block indices must contain one value per request")
  else do
    let inputSlots ← gatherColumn checkpointStateIndices inputBlockIndices
    let outputSlots ← gatherColumn checkpointStateIndices outputBlockIndices
    if NULL_BLOCK_ID ∈ inputSlots then
      .error (.runtimeError "decode input checkpoint has no physical slot")
    else if NULL_BLOCK_ID ∈ outputSlots then
      .error (.runtimeError "decode output checkpoint has no physical slot")
    else .ok (outputSlots, writeAll stateCache (outputSlots.zip (inputSlots.map stateCache)))

end

/-! ### The chunk kernel -/

section

variable {S T O : Type} (step : S → T → S × O)

/-- The number of kernel chunks of a sequence. -/
def chunkCount (numTokens : Nat) : Nat :=
  (numTokens + FLA_CHUNK_SIZE - 1) / FLA_CHUNK_SIZE

/-- The state before each chunk, as the kernel emits it. -/
def chunkStartStates (state : S) (tokens : List T) : List S :=
  (List.range (chunkCount tokens.length)).map fun j =>
    Scan.state step state (tokens.take (FLA_CHUNK_SIZE * j))

/-- `prepare_chunk_offsets`. -/
def prepareChunkOffsets (lens : List Nat) : List Nat :=
  (lens.map chunkCount).scanl (· + ·) 0

end

/-! ### What is written -/

/-- The slots of the blocks that tokens `start ≤ t < stop` write. -/
structure WritableSlots (blockSize : Nat) (row : List Nat) (start stop : Nat) : Prop where
  lt_length : (stop - 1) / blockSize < row.length
  ne_null : ∀ b, start / blockSize ≤ b → b ≤ (stop - 1) / blockSize →
    row[b]? ≠ some NULL_BLOCK_ID
  inj : ∀ b b' slot, start / blockSize ≤ b → b ≤ (stop - 1) / blockSize → start / blockSize ≤ b' →
    b' ≤ (stop - 1) / blockSize → row[b]? = some slot → row[b']? = some slot → b = b'

/-- The slots after writing the tokens `start ≤ t < stop`, where `state n` is the state after `n`
tokens. -/
structure Checkpointed {S : Type} (blockSize : Nat) (row : List Nat) (state : Nat → S)
    (start stop : Nat) (stateCache stateCache' : Nat → S) : Prop where
  written : ∀ b slot, start / blockSize ≤ b → b ≤ (stop - 1) / blockSize → row[b]? = some slot →
    stateCache' slot = state (min ((b + 1) * blockSize) stop)
  frame : ∀ slot, (∀ b, start / blockSize ≤ b → b ≤ (stop - 1) / blockSize →
    row[b]? ≠ some slot) → stateCache' slot = stateCache slot

/-- A chunk whose block boundaries the kernel emits states for. -/
def BoundariesAligned (blockSize chunkSize start stop : Nat) : Prop :=
  chunkSize ∣ blockSize ∧ (start / blockSize = (stop - 1) / blockSize ∨ chunkSize ∣ start)

instance (blockSize chunkSize start stop : Nat) :
    Decidable (BoundariesAligned blockSize chunkSize start stop) :=
  inferInstanceAs (Decidable (_ ∧ _))

section

variable {S : Type} {blockSize chunkSize start stop : Nat} {row : List Nat} {state : Nat → S}
  {stateCache stateCache' stateCache'' : Nat → S}

/-- The distance to a block boundary is a whole number of chunks when the start is. -/
theorem boundary_sub_mod (hdvd : chunkSize ∣ blockSize) {k : Nat} (hle : start ≤ k * blockSize) :
    (k * blockSize - start) % chunkSize = 0 ↔ chunkSize ∣ start := by
  rw [← Nat.dvd_iff_mod_eq_zero]
  exact Nat.dvd_sub_iff_right hle (Nat.dvd_mul_left_of_dvd hdvd k)

theorem le_next_boundary (hbs : 0 < blockSize) (start : Nat) :
    start ≤ (start / blockSize + 1) * blockSize := by
  have := Nat.lt_mul_div_succ start hbs
  rw [Nat.mul_comm]
  omega

/-- **The plan of an aligned chunk** copies the boundary state of every block it completes. -/
theorem planGdnCheckpointWrites_ok (hbs : 0 < blockSize) (hcs : 0 < chunkSize) (hlt : start < stop)
    (haligned : BoundariesAligned blockSize chunkSize start stop) (firstChunk : Nat) :
    planGdnCheckpointWrites firstChunk start (start / blockSize) ((stop - 1) / blockSize) blockSize
        chunkSize
      = .ok ⟨List.range' (start / blockSize) ((stop - 1) / blockSize - start / blockSize),
          (List.range ((stop - 1) / blockSize - start / blockSize)).map fun j =>
            firstChunk + ((start / blockSize + 1 + j) * blockSize - start) / chunkSize⟩ := by
  obtain ⟨hdvd, hstart⟩ := haligned
  have hmod : blockSize % chunkSize = 0 := Nat.mod_eq_zero_of_dvd hdvd
  have hle : start / blockSize ≤ (stop - 1) / blockSize := Nat.div_le_div_right (by omega)
  have hnext := le_next_boundary hbs start
  rw [planGdnCheckpointWrites, if_neg (by omega), if_neg (not_not_intro hmod), if_neg (by omega)]
  dsimp only
  by_cases hsame : (stop - 1) / blockSize - start / blockSize = 0
  · rw [hsame]
    rfl
  have hne : List.range' (start / blockSize) ((stop - 1) / blockSize - start / blockSize) ≠ [] := by
    rw [Ne, List.range'_eq_nil_iff]
    exact hsame
  have hdvds : chunkSize ∣ start := by
    rcases hstart with h | h
    · omega
    · exact h
  rw [if_neg hne, if_neg (by omega),
    if_neg (not_not_intro ((boundary_sub_mod hdvd hnext).mpr hdvds)), List.length_range']
  refine congrArg Except.ok (congrArg (GdnCheckpointWritePlan.mk _) (List.map_congr_left ?_))
  intro j _
  -- `j` more blocks are `j * (blockSize / chunkSize)` more chunks
  obtain ⟨q, rfl⟩ := hdvd
  have hsplit : (start / (chunkSize * q) + 1 + j) * (chunkSize * q) - start
      = ((start / (chunkSize * q) + 1) * (chunkSize * q) - start) + chunkSize * (j * q) := by
    rw [Nat.add_mul _ j, Nat.mul_left_comm j]
    omega
  rw [hsplit, Nat.add_mul_div_left _ _ hcs, Nat.mul_div_cancel_left _ hcs]
  omega

/-- A chunk that crosses a boundary that the kernel emits no state for is refused. -/
theorem planGdnCheckpointWrites_error (hbs : 0 < blockSize) (hlt : start < stop)
    (hunaligned : ¬ BoundariesAligned blockSize chunkSize start stop) (firstChunk : Nat) :
    ∃ e, planGdnCheckpointWrites firstChunk start (start / blockSize) ((stop - 1) / blockSize)
      blockSize chunkSize = .error e := by
  have hle : start / blockSize ≤ (stop - 1) / blockSize := Nat.div_le_div_right (by omega)
  have hnext := le_next_boundary hbs start
  rw [planGdnCheckpointWrites]
  split
  · exact ⟨_, rfl⟩
  split
  · exact ⟨_, rfl⟩
  next hmod =>
  have hdvd : chunkSize ∣ blockSize := Nat.dvd_of_mod_eq_zero (not_not.mp hmod)
  have hcross : start / blockSize ≠ (stop - 1) / blockSize := fun h => hunaligned ⟨hdvd, Or.inl h⟩
  have hstart : ¬ chunkSize ∣ start := fun h => hunaligned ⟨hdvd, Or.inr h⟩
  have hne : List.range' (start / blockSize) ((stop - 1) / blockSize - start / blockSize) ≠ [] := by
    rw [Ne, List.range'_eq_nil_iff]
    omega
  rw [if_neg (by omega)]
  dsimp only
  rw [if_neg hne, if_neg (by omega), if_pos fun h => hstart ((boundary_sub_mod hdvd hnext).mp h)]
  exact ⟨_, rfl⟩

/-! ### The writers -/

/-- The writes of an interval, block by block. -/
def checkpointWrites (blockSize : Nat) (row : List Nat) (state : Nat → S) (start stop : Nat) :
    List (Nat × S) :=
  (List.range' (start / blockSize) ((stop - 1) / blockSize + 1 - start / blockSize)).map fun b =>
    (row.getD b NULL_BLOCK_ID, state (min ((b + 1) * blockSize) stop))

theorem mem_writtenBlocks {b : Nat} :
    b ∈ List.range' (start / blockSize) ((stop - 1) / blockSize + 1 - start / blockSize)
      ↔ start / blockSize ≤ b ∧ b ≤ (stop - 1) / blockSize := by
  rw [List.mem_range'_1]
  omega

theorem WritableSlots.getElem?_eq (h : WritableSlots blockSize row start stop) {b : Nat}
    (hb : b ≤ (stop - 1) / blockSize) : row[b]? = some (row.getD b NULL_BLOCK_ID) := by
  have hlt : b < row.length := Nat.lt_of_le_of_lt hb h.lt_length
  rw [List.getD_eq_getElem _ _ hlt, List.getElem?_eq_getElem hlt]

theorem WritableSlots.getD_ne_null (h : WritableSlots blockSize row start stop) {b : Nat}
    (hb₁ : start / blockSize ≤ b) (hb₂ : b ≤ (stop - 1) / blockSize) :
    row.getD b NULL_BLOCK_ID ≠ NULL_BLOCK_ID := by
  intro hnull
  have := h.getElem?_eq hb₂
  rw [hnull] at this
  exact h.ne_null b hb₁ hb₂ this

theorem WritableSlots.nodup_writes (h : WritableSlots blockSize row start stop) (state : Nat → S) :
    ((checkpointWrites blockSize row state start stop).map Prod.fst).Nodup := by
  rw [checkpointWrites, List.map_map]
  refine List.Nodup.map_on ?_ List.nodup_range'
  intro b hb b' hb' heq
  obtain ⟨h₁, h₂⟩ := mem_writtenBlocks.mp hb
  obtain ⟨h₁', h₂'⟩ := mem_writtenBlocks.mp hb'
  refine h.inj b b' _ h₁ h₂ h₁' h₂' (h.getElem?_eq h₂) ?_
  rw [h.getElem?_eq h₂']
  exact congrArg some heq.symm

/-- The writes of an interval in one block. -/
theorem checkpointWrites_single (hstop : stop ≤ (start / blockSize + 1) * blockSize)
    (hsame : start / blockSize = (stop - 1) / blockSize) :
    checkpointWrites blockSize row state start stop
      = [(row.getD (start / blockSize) NULL_BLOCK_ID, state stop)] := by
  rw [checkpointWrites, ← hsame, Nat.add_sub_cancel_left]
  change [(_, _)] = _
  rw [Nat.min_eq_right hstop]

theorem gatherSlots_ok {blocks : List Nat} (h : ∀ b ∈ blocks, b < row.length) :
    gatherSlots row blocks = .ok (blocks.map fun b => row.getD b NULL_BLOCK_ID) := by
  refine Except.mapM_eq_ok_map ?_
  intro b hb
  rw [List.getElem?_eq_getElem (h b hb), List.getD_eq_getElem _ _ (h b hb)]

/-- **The prefill writer.**  An aligned chunk writes the checkpoints of its interval. -/
theorem writeSequenceCheckpoints_ok (hbs : 0 < blockSize) (hcs : 0 < chunkSize) (hlt : start < stop)
    (haligned : BoundariesAligned blockSize chunkSize start stop)
    (hslots : WritableSlots blockSize row start stop) {chunkStates : List S} {firstChunk : Nat}
    (hchunks : ∀ j, start + chunkSize * j < stop →
      chunkStates[firstChunk + j]? = some (state (start + chunkSize * j))) :
    writeSequenceCheckpoints chunkStates row blockSize chunkSize (state stop) firstChunk start
        (start / blockSize) ((stop - 1) / blockSize) stateCache
      = .ok (writeAll stateCache (checkpointWrites blockSize row state start stop)) := by
  have hle : start / blockSize ≤ (stop - 1) / blockSize := Nat.div_le_div_right (by omega)
  have hnext := le_next_boundary hbs start
  have hmem : ∀ b, b ∈ List.range' (start / blockSize) ((stop - 1) / blockSize - start / blockSize)
      → start / blockSize ≤ b ∧ b < (stop - 1) / blockSize := by
    intro b hb
    rw [List.mem_range'_1] at hb
    omega
  -- the boundary of a completed block is inside the chunk
  have hinside : ∀ b, b < (stop - 1) / blockSize → (b + 1) * blockSize < stop := by
    intro b hb
    have hle : (b + 1) * blockSize ≤ (stop - 1) / blockSize * blockSize :=
      Nat.mul_le_mul_right blockSize hb
    have := Nat.div_mul_le_self (stop - 1) blockSize
    omega
  rw [writeSequenceCheckpoints, planGdnCheckpointWrites_ok hbs hcs hlt haligned]
  dsimp only [bind, Except.bind]
  rw [gatherSlots_ok fun b hb => Nat.lt_trans (hmem b hb).2 hslots.lt_length]
  dsimp only
  rw [if_neg]
  swap
  · intro hnull
    obtain ⟨b, hb, hb0⟩ := List.mem_map.mp hnull
    exact hslots.getD_ne_null (hmem b hb).1 (Nat.le_of_lt (hmem b hb).2) hb0
  have hstates : ((List.range ((stop - 1) / blockSize - start / blockSize)).map fun j =>
        firstChunk + ((start / blockSize + 1 + j) * blockSize - start) / chunkSize).mapM
      (fun i => match chunkStates[i]? with
        | some state => Except.ok state
        | none => .error .indexError)
      = (.ok ((List.range ((stop - 1) / blockSize - start / blockSize)).map fun j =>
          state ((start / blockSize + 1 + j) * blockSize)) : Except PyError (List S)) := by
    rw [List.mapM_map]
    refine Except.mapM_eq_ok_map ?_
    intro j hj
    rw [List.mem_range] at hj
    have hb := hinside (start / blockSize + j) (by omega)
    rw [Nat.add_right_comm] at hb
    have hge : start ≤ (start / blockSize + 1 + j) * blockSize := by
      rw [Nat.add_mul _ j]
      omega
    have hdvd : chunkSize ∣ start := by
      rcases haligned.2 with h | h
      · omega
      · exact h
    have hchunk : start + chunkSize * (((start / blockSize + 1 + j) * blockSize - start) / chunkSize)
        = (start / blockSize + 1 + j) * blockSize := by
      rw [Nat.mul_div_cancel' ((Nat.dvd_sub_iff_right hge (Nat.dvd_mul_left_of_dvd haligned.1 _)).mpr
        hdvd)]
      omega
    dsimp only [Function.comp]
    rw [hchunks _ (by rw [hchunk]; exact hb), hchunk]
  rw [hstates]
  dsimp only
  rw [hslots.getElem?_eq (Nat.le_refl _)]
  dsimp only
  rw [if_neg (hslots.getD_ne_null hle (Nat.le_refl _))]
  refine congrArg Except.ok ?_
  -- the intermediate blocks, then the last one
  have hlast : (stop - 1) / blockSize + 1 - start / blockSize
      = ((stop - 1) / blockSize - start / blockSize) + 1 := by omega
  have hstop : stop ≤ ((stop - 1) / blockSize + 1) * blockSize := by
    have := le_next_boundary hbs (stop - 1)
    have := Nat.lt_mul_div_succ (stop - 1) hbs
    rw [Nat.mul_comm] at this
    omega
  rw [checkpointWrites, hlast, List.range'_concat, List.map_append, writeAll_append, Nat.one_mul,
    Nat.add_sub_cancel' hle, List.map_singleton, Nat.min_eq_right hstop]
  refine congrArg (fun m => Function.update m _ _) (congrArg (writeAll stateCache) ?_)
  rw [List.range'_eq_map_range, List.map_map, List.zip_map', List.map_map]
  refine List.map_congr_left ?_
  intro j hj
  rw [List.mem_range] at hj
  have hb := hinside (start / blockSize + j) (by omega)
  dsimp only [Function.comp]
  rw [Nat.min_eq_left (Nat.le_of_lt hb), Nat.add_right_comm]

/-- An unaligned chunk is refused. -/
theorem writeSequenceCheckpoints_error (hbs : 0 < blockSize) (hlt : start < stop)
    (hunaligned : ¬ BoundariesAligned blockSize chunkSize start stop) (chunkStates : List S)
    (firstChunk : Nat) (finalState : S) :
    ∃ e, writeSequenceCheckpoints chunkStates row blockSize chunkSize finalState firstChunk start
      (start / blockSize) ((stop - 1) / blockSize) stateCache = .error e := by
  obtain ⟨e, he⟩ := planGdnCheckpointWrites_error hbs hlt hunaligned firstChunk
  refine ⟨e, ?_⟩
  rw [writeSequenceCheckpoints, he]
  rfl

/-- **Writing one interval after another** is writing the interval they form. -/
theorem Checkpointed.trans {mid : Nat} (hbs : 0 < blockSize) (h₁ : start < mid) (h₂ : mid < stop)
    (hslots : WritableSlots blockSize row start stop)
    (hfirst : Checkpointed blockSize row state start mid stateCache stateCache')
    (hsecond : Checkpointed blockSize row state mid stop stateCache' stateCache'') :
    Checkpointed blockSize row state start stop stateCache stateCache'' := by
  have hstart : start / blockSize ≤ mid / blockSize := Nat.div_le_div_right (by omega)
  have hpred : (mid - 1) / blockSize ≤ mid / blockSize := Nat.div_le_div_right (by omega)
  have hstop : mid / blockSize ≤ (stop - 1) / blockSize := Nat.div_le_div_right (by omega)
  have hmid : mid / blockSize ≤ (mid - 1) / blockSize + 1 := by
    have := le_next_boundary hbs (mid - 1)
    have hlt := Nat.lt_mul_div_succ (mid - 1) hbs
    rw [Nat.mul_comm] at hlt
    refine Nat.div_le_of_le_mul ?_
    rw [Nat.mul_comm]
    omega
  refine { written := ?_, frame := ?_ }
  · intro b slot hb₁ hb₂ hslot
    by_cases hb : mid / blockSize ≤ b
    · exact hsecond.written b slot hb hb₂ hslot
    · -- the first interval completed this block and the second one does not touch it
      have hfull : (b + 1) * blockSize ≤ mid :=
        (Nat.le_div_iff_mul_le hbs).mp (by omega)
      rw [hsecond.frame slot, hfirst.written b slot hb₁ (by omega) hslot, Nat.min_eq_left hfull,
        Nat.min_eq_left (by omega)]
      intro b' hb'₁ hb'₂ hslot'
      have := hslots.inj b b' slot hb₁ hb₂ (by omega) hb'₂ hslot hslot'
      omega
  · intro slot hslot
    rw [hsecond.frame slot fun b hb₁ hb₂ => hslot b (by omega) hb₂,
      hfirst.frame slot fun b hb₁ hb₂ => hslot b hb₁ (by omega)]

end

end CacheSelect.Gdn

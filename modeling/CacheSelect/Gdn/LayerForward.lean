import CacheSelect.Gdn.Checkpoints
import Mathlib.Data.List.Pairwise
import Mathlib.Data.Nat.Find
import Mathlib.Algebra.Ring.Nat

/-! # The recurrent part of a layer's forward pass

A batch has one row for each scheduled request.  Rows of at most one token are decodes: they copy the state
of their last computed block to the block of the new token and update it in place.  The others are prefills:
the chunk kernel starts from the state of their last computed block, or from zero, and the checkpoint writer
persists what it emits.

`gdnForward_ok` says that a batch whose rows write slots of their own writes the checkpoints of every row,
and `gdnForward_error` that a prefill whose boundaries are not aligned raises.
-/

namespace CacheSelect.Gdn

open CacheSelect.Core Writes

/-- A scheduled request: its row of the checkpoint table, its computed tokens and the scheduled ones. -/
structure BatchRow (T : Type) where
  table : List Nat
  computed : Nat
  tokens : List T

section

variable {S T O : Type}

/-- The number of tokens after the step. -/
def BatchRow.seqLen (row : BatchRow T) : Nat :=
  row.computed + row.tokens.length

def BatchRow.lastComputedBlock (blockSize : Nat) (row : BatchRow T) : Nat :=
  (computePrefixCachingBlockIndices blockSize row.computed row.seqLen).1

def BatchRow.firstScheduledBlock (blockSize : Nat) (row : BatchRow T) : Nat :=
  (computePrefixCachingBlockIndices blockSize row.computed row.seqLen).2.1

def BatchRow.lastScheduledBlock (blockSize : Nat) (row : BatchRow T) : Nat :=
  (computePrefixCachingBlockIndices blockSize row.computed row.seqLen).2.2

/-- `split_decodes_and_prefills` with a decode threshold of one token. -/
def BatchRow.isDecode (row : BatchRow T) : Bool :=
  decide (row.tokens.length ≤ 1)

variable (step : S → T → S × O) (zero : S) (blockSize : Nat)

/-- The in-place kernel of the decodes; it skips rows without a slot. -/
def fusedRecurrentUpdate (stateCache : Nat → S) (rows : List (Nat × List T)) : Nat → S :=
  rows.foldl (fun stateCache row =>
    if row.1 = NULL_BLOCK_ID then stateCache
    else Function.update stateCache row.1 (Scan.state step (stateCache row.1) row.2)) stateCache

/-- The decodes of a batch. -/
def decodeForward (stateCache : Nat → S) (rows : List (BatchRow T)) : Except PyError (Nat → S) := do
  let (slots, stateCache) ← prepareGdnDecodeCheckpoints stateCache (rows.map BatchRow.table)
    (rows.map (BatchRow.lastComputedBlock blockSize))
    (rows.map (BatchRow.lastScheduledBlock blockSize))
  .ok (fusedRecurrentUpdate step stateCache (slots.zip (rows.map BatchRow.tokens)))

/-- The incoming states of the prefills. -/
def initialStates (stateCache : Nat → S) (rows : List (BatchRow T)) : Except PyError (List S) := do
  let slots ← gatherColumn (rows.map BatchRow.table)
    (rows.map (BatchRow.lastComputedBlock blockSize))
  .ok (List.zipWith (fun row slot => if 0 < row.computed then stateCache slot else zero) rows slots)

/-- The prefills of a batch, with their outputs. -/
def prefillForward (stateCache : Nat → S) (rows : List (BatchRow T)) :
    Except PyError (List (List O) × (Nat → S)) := do
  let initial ← initialStates zero blockSize stateCache rows
  let results := List.zipWith (fun row state => Scan.run step state row.tokens) rows initial
  let chunkStates := (List.zipWith (fun row state => chunkStartStates step state row.tokens)
    rows initial).flatten
  let stateCache ← writeGdnPrefillCheckpoints stateCache chunkStates (results.map Prod.fst)
    (rows.map BatchRow.table) (prepareChunkOffsets (rows.map fun row => row.tokens.length))
    (rows.map BatchRow.computed) (rows.map (BatchRow.firstScheduledBlock blockSize))
    (rows.map (BatchRow.lastScheduledBlock blockSize)) blockSize FLA_CHUNK_SIZE
  .ok (results.map Prod.snd, stateCache)

/-- The decodes of a batch, if there are any. -/
def forwardDecodes (stateCache : Nat → S) (rows : List (BatchRow T)) : Except PyError (Nat → S) :=
  if rows.isEmpty then .ok stateCache else decodeForward step blockSize stateCache rows

/-- The prefills of a batch, if there are any. -/
def forwardPrefills (stateCache : Nat → S) (rows : List (BatchRow T)) : Except PyError (Nat → S) :=
  if rows.isEmpty then .ok stateCache
  else (prefillForward step zero blockSize stateCache rows).map Prod.snd

/-- The state slots after a step: the decodes first, then the prefills. -/
def gdnForward (stateCache : Nat → S) (rows : List (BatchRow T)) : Except PyError (Nat → S) := do
  let stateCache ← forwardDecodes step blockSize stateCache (rows.filter fun row => row.isDecode)
  forwardPrefills step zero blockSize stateCache (rows.filter fun row => !row.isDecode)

end

/-! ### Block indices -/

section

variable {S T O : Type} {blockSize : Nat}

theorem lastComputedBlock_eq (hbs : 0 < blockSize) (row : BatchRow T) :
    row.lastComputedBlock blockSize = (row.computed - 1) / blockSize := by
  change (row.computed + blockSize - 1) / blockSize - 1 = _
  cases hc : row.computed with
  | zero =>
      rw [Nat.zero_add, Nat.div_eq_of_lt (by omega), Nat.zero_sub, Nat.zero_div]
  | succ c =>
      rw [show c + 1 + blockSize - 1 = c + blockSize by omega, Nat.add_div_right _ hbs]
      rfl

theorem firstScheduledBlock_eq (hbs : 0 < blockSize) (row : BatchRow T) :
    row.firstScheduledBlock blockSize = row.computed / blockSize := by
  change (row.computed + blockSize) / blockSize - 1 = _
  rw [Nat.add_div_right _ hbs]
  rfl

theorem lastScheduledBlock_eq (hbs : 0 < blockSize) {row : BatchRow T} (hpos : 0 < row.tokens.length) :
    row.lastScheduledBlock blockSize = (row.seqLen - 1) / blockSize := by
  change (row.seqLen + blockSize - 1) / blockSize - 1 = _
  have hs : row.seqLen + blockSize - 1 = row.seqLen - 1 + blockSize := by
    rw [BatchRow.seqLen]
    omega
  rw [hs, Nat.add_div_right _ hbs]
  rfl

end

/-! ### Batches -/

/-- The slot that a row reads its state from. -/
def BatchRow.inputSlot {T : Type} (blockSize : Nat) (row : BatchRow T) : Nat :=
  row.table.getD ((row.computed - 1) / blockSize) NULL_BLOCK_ID

/-- The slots that a row writes. -/
def BatchRow.writtenSlots {T : Type} (blockSize : Nat) (row : BatchRow T) : List Nat :=
  (List.range' (row.computed / blockSize)
    ((row.seqLen - 1) / blockSize + 1 - row.computed / blockSize)).map fun b =>
      row.table.getD b NULL_BLOCK_ID

/-- A row with slots for what it reads and writes. -/
structure BatchRow.Ready {T : Type} (blockSize : Nat) (row : BatchRow T) : Prop where
  nonempty : 0 < row.tokens.length
  input_lt : (row.computed - 1) / blockSize < row.table.length
  input_ne : row.inputSlot blockSize ≠ NULL_BLOCK_ID
  slots : WritableSlots blockSize row.table row.computed row.seqLen

/-- Two rows neither of which writes a slot of the other. -/
structure Apart {T : Type} (blockSize : Nat) (row row' : BatchRow T) : Prop where
  written : ∀ slot ∈ row.writtenSlots blockSize, slot ∉ row'.writtenSlots blockSize
  input : row.inputSlot blockSize ∉ row'.writtenSlots blockSize
  input' : row'.inputSlot blockSize ∉ row.writtenSlots blockSize

/-- A batch whose rows do not interfere. -/
structure BatchReady {T : Type} (blockSize : Nat) (rows : List (BatchRow T)) : Prop where
  ready : ∀ row ∈ rows, row.Ready blockSize
  apart : rows.Pairwise (Apart blockSize)

section

variable {S T O : Type} (step : S → T → S × O) (zero : S) (blockSize : Nat)

/-- The state that a row starts from; a decode does not look whether there is one. -/
def BatchRow.initialState (stateCache : Nat → S) (row : BatchRow T) : S :=
  if row.isDecode = true ∨ 0 < row.computed then stateCache (row.inputSlot blockSize) else zero

/-- The state after the first `n` tokens of the request. -/
def BatchRow.stateAt (stateCache : Nat → S) (row : BatchRow T) (n : Nat) : S :=
  Scan.state step (row.initialState zero blockSize stateCache) (row.tokens.take (n - row.computed))

/-- The writes of a row. -/
def BatchRow.writes (stateCache : Nat → S) (row : BatchRow T) : List (Nat × S) :=
  checkpointWrites blockSize row.table (row.stateAt step zero blockSize stateCache) row.computed
    row.seqLen

variable {step zero blockSize}

theorem Apart.symm {row row' : BatchRow T} (h : Apart blockSize row row') :
    Apart blockSize row' row where
  written := fun slot hin hin' => h.written slot hin' hin
  input := h.input'
  input' := h.input

theorem BatchReady.perm {rows rows' : List (BatchRow T)} (h : BatchReady blockSize rows)
    (hperm : rows.Perm rows') : BatchReady blockSize rows' where
  ready := fun row hrow => h.ready row (hperm.mem_iff.mpr hrow)
  apart := (hperm.pairwise_iff Apart.symm).mp h.apart

theorem BatchReady.sublist {rows rows' : List (BatchRow T)} (h : BatchReady blockSize rows)
    (hsub : rows'.Sublist rows) : BatchReady blockSize rows' where
  ready := fun row hrow => h.ready row (hsub.subset hrow)
  apart := h.apart.sublist hsub

theorem map_fst_writes (step : S → T → S × O) (zero : S) (stateCache : Nat → S) (row : BatchRow T) :
    (row.writes step zero blockSize stateCache).map Prod.fst = row.writtenSlots blockSize := by
  rw [BatchRow.writes, checkpointWrites, List.map_map]
  rfl

theorem map_fst_flatMap_writes (stateCache : Nat → S) (rows : List (BatchRow T)) :
    (rows.flatMap (BatchRow.writes step zero blockSize stateCache)).map Prod.fst
      = rows.flatMap (BatchRow.writtenSlots blockSize) := by
  rw [List.map_flatMap]
  exact List.flatMap_congr fun row _ => map_fst_writes step zero stateCache row

/-- The slots of the writes of a batch are distinct. -/
theorem BatchReady.nodup_writes {rows : List (BatchRow T)} (h : BatchReady blockSize rows)
    (step : S → T → S × O) (zero : S) (stateCache : Nat → S) :
    ((rows.flatMap (BatchRow.writes step zero blockSize stateCache)).map Prod.fst).Nodup := by
  rw [map_fst_flatMap_writes, List.nodup_flatMap]
  refine ⟨?_, h.apart.imp ?_⟩
  · intro row hrow
    rw [← map_fst_writes step zero stateCache row]
    exact (h.ready row hrow).slots.nodup_writes _
  · intro row row' hap slot hin hin'
    exact hap.written slot hin hin'

/-- A row reads and writes the same when no slot it reads changes. -/
theorem writes_congr {stateCache stateCache' : Nat → S} {row : BatchRow T}
    (h : stateCache' (row.inputSlot blockSize) = stateCache (row.inputSlot blockSize)) :
    row.writes step zero blockSize stateCache' = row.writes step zero blockSize stateCache := by
  have hinit : row.initialState zero blockSize stateCache'
      = row.initialState zero blockSize stateCache := by
    rw [BatchRow.initialState, BatchRow.initialState, h]
  rw [BatchRow.writes, BatchRow.writes]
  refine congrArg (fun state => checkpointWrites _ _ state _ _) ?_
  funext n
  rw [BatchRow.stateAt, BatchRow.stateAt, hinit]

/-! ### Decodes -/

theorem gatherColumn_ok (rows : List (BatchRow T)) (block : BatchRow T → Nat)
    (h : ∀ row ∈ rows, block row < row.table.length) :
    gatherColumn (rows.map BatchRow.table) (rows.map block)
      = .ok (rows.map fun row => row.table.getD (block row) NULL_BLOCK_ID) := by
  rw [gatherColumn, List.zip_map', List.mapM_map]
  refine Except.mapM_eq_ok_map ?_
  intro row hrow
  dsimp only [Function.comp]
  rw [List.getElem?_eq_getElem (h row hrow), List.getD_eq_getElem _ _ (h row hrow)]

theorem BatchRow.Ready.seqLen_pos {row : BatchRow T} (h : row.Ready blockSize) :
    row.computed < row.seqLen := by
  have := h.nonempty
  rw [BatchRow.seqLen]
  omega

/-- The one token of a decode is in the first scheduled block. -/
theorem decode_seqLen {row : BatchRow T} (h : row.Ready blockSize) (hdec : row.isDecode = true) :
    row.seqLen = row.computed + 1 := by
  have := of_decide_eq_true hdec
  have := h.nonempty
  rw [BatchRow.seqLen]
  omega

/-- A decode writes one slot. -/
theorem writes_decode (hbs : 0 < blockSize) {row : BatchRow T} (h : row.Ready blockSize)
    (hdec : row.isDecode = true) (stateCache : Nat → S) :
    row.writes step zero blockSize stateCache
      = [(row.table.getD ((row.seqLen - 1) / blockSize) NULL_BLOCK_ID,
          Scan.state step (stateCache (row.inputSlot blockSize)) row.tokens)] := by
  have hseq := decode_seqLen h hdec
  have hsame : row.computed / blockSize = (row.seqLen - 1) / blockSize := by
    rw [hseq, Nat.add_sub_cancel]
  have hstop : row.seqLen ≤ (row.computed / blockSize + 1) * blockSize := by
    have := Nat.lt_mul_div_succ row.computed hbs
    rw [Nat.mul_comm] at this
    omega
  rw [BatchRow.writes, checkpointWrites_single hstop hsame, BatchRow.stateAt, BatchRow.initialState,
    if_pos (Or.inl hdec), hsame, List.take_of_length_le (by rw [BatchRow.seqLen]; omega)]

/-- The in-place kernel on distinct slots. -/
theorem fusedRecurrentUpdate_eq {rows : List (Nat × List T)} (hne : ∀ row ∈ rows, row.1 ≠ NULL_BLOCK_ID)
    (hnd : (rows.map Prod.fst).Nodup) (stateCache : Nat → S) :
    fusedRecurrentUpdate step stateCache rows
      = writeAll stateCache (rows.map fun row =>
          (row.1, Scan.state step (stateCache row.1) row.2)) := by
  refine Eq.trans ?_ (foldl_update_eq_writeAll (f := fun row state =>
    Scan.state step state row.2) hnd)
  refine List.foldl_ext _ _ _ ?_
  intro m row hrow
  exact if_neg (hne row hrow)

/-- **Decodes** write the checkpoints of their rows. -/
theorem decodeForward_ok (hbs : 0 < blockSize) {rows : List (BatchRow T)}
    (h : BatchReady blockSize rows) (hdec : ∀ row ∈ rows, row.isDecode = true)
    (stateCache : Nat → S) : decodeForward step blockSize stateCache rows
      = .ok (writeAll stateCache
          (rows.flatMap (BatchRow.writes step zero blockSize stateCache))) := by
  -- the slots of the rows
  have hin := gatherColumn_ok rows (BatchRow.lastComputedBlock blockSize) (by
    intro row hrow
    rw [lastComputedBlock_eq hbs]
    exact (h.ready row hrow).input_lt)
  have hout := gatherColumn_ok rows (BatchRow.lastScheduledBlock blockSize) (by
    intro row hrow
    rw [lastScheduledBlock_eq hbs (h.ready row hrow).nonempty]
    exact (h.ready row hrow).slots.lt_length)
  have hinput : (rows.map fun row => row.table.getD (row.lastComputedBlock blockSize) NULL_BLOCK_ID)
      = rows.map (BatchRow.inputSlot blockSize) := by
    refine List.map_congr_left ?_
    intro row _
    rw [lastComputedBlock_eq hbs, BatchRow.inputSlot]
  have houtput : (rows.map fun row =>
        row.table.getD (row.lastScheduledBlock blockSize) NULL_BLOCK_ID)
      = rows.map fun row => row.table.getD ((row.seqLen - 1) / blockSize) NULL_BLOCK_ID := by
    refine List.map_congr_left ?_
    intro row hrow
    rw [lastScheduledBlock_eq hbs (h.ready row hrow).nonempty]
  -- what is written in the end
  have hwrites : rows.flatMap (BatchRow.writes step zero blockSize stateCache)
      = rows.map fun row => (row.table.getD ((row.seqLen - 1) / blockSize) NULL_BLOCK_ID,
          Scan.state step (stateCache (row.inputSlot blockSize)) row.tokens) := by
    rw [List.flatMap_congr fun row hrow => writes_decode hbs (h.ready row hrow) (hdec row hrow)
      stateCache, ← List.map_eq_flatMap]
  have hnd := h.nodup_writes step zero stateCache
  rw [hwrites] at hnd ⊢
  have hcells : (rows.map fun row =>
      row.table.getD ((row.seqLen - 1) / blockSize) NULL_BLOCK_ID).Nodup := by
    rwa [List.map_map] at hnd
  have hne : ∀ row ∈ rows, row.table.getD ((row.seqLen - 1) / blockSize) NULL_BLOCK_ID
      ≠ NULL_BLOCK_ID := by
    intro row hrow
    have hready := h.ready row hrow
    exact hready.slots.getD_ne_null (Nat.div_le_div_right (by have := hready.seqLen_pos; omega))
      (Nat.le_refl _)
  rw [decodeForward, prepareGdnDecodeCheckpoints, if_neg (by simp), if_neg (by simp), hin, hout,
    hinput, houtput]
  dsimp only [bind, Except.bind]
  rw [if_neg, if_neg]
  rotate_left
  · intro hnull
    obtain ⟨row, hrow, hrow0⟩ := List.mem_map.mp hnull
    exact hne row hrow hrow0
  · intro hnull
    obtain ⟨row, hrow, hrow0⟩ := List.mem_map.mp hnull
    exact (h.ready row hrow).input_ne hrow0
  refine congrArg Except.ok ?_
  rw [List.map_map, List.zip_map', List.zip_map', fusedRecurrentUpdate_eq]
  rotate_left
  · intro x hx
    obtain ⟨row, hrow, rfl⟩ := List.mem_map.mp hx
    exact hne row hrow
  · rw [List.map_map]
    exact hcells
  rw [List.map_map]
  -- the kernel finds in every output slot the state that was copied there
  have hcopied : (rows.map fun row =>
      (row.table.getD ((row.seqLen - 1) / blockSize) NULL_BLOCK_ID,
        Scan.state step (writeAll stateCache (rows.map fun row =>
          (row.table.getD ((row.seqLen - 1) / blockSize) NULL_BLOCK_ID,
            stateCache (row.inputSlot blockSize)))
          (row.table.getD ((row.seqLen - 1) / blockSize) NULL_BLOCK_ID)) row.tokens))
      = rows.map fun row =>
        (row.table.getD ((row.seqLen - 1) / blockSize) NULL_BLOCK_ID,
          Scan.state step (stateCache (row.inputSlot blockSize)) row.tokens) := by
    refine List.map_congr_left ?_
    intro row hrow
    rw [writeAll_map_of_mem hcells hrow]
  refine (congrArg (writeAll _) hcopied).trans (writeAll_eq_of_same_cells hnd ?_ stateCache)
  rw [List.map_map, List.map_map]
  rfl

/-! ### Prefills -/

/-- An element of a concatenation, found by the lengths of the lists before its own. -/
theorem getElem?_flatten_offset {α : Type} : ∀ {ls : List (List α)} {i j : Nat} {l : List α},
    ls[i]? = some l → j < l.length →
    ls.flatten[((ls.map List.length).take i).sum + j]? = l[j]? := by
  intro ls
  induction ls with
  | nil => intro i j l h; cases h
  | cons l' ls ih =>
      intro i j l h hj
      cases i with
      | zero =>
          obtain rfl : l' = l := Option.some.inj h
          rw [List.take_zero, List.sum_nil, Nat.zero_add, List.flatten_cons,
            List.getElem?_append_left hj]
      | succ i =>
          rw [List.map_cons, List.take_succ_cons, List.sum_cons, List.flatten_cons, Nat.add_assoc,
            List.getElem?_append_right (Nat.le_add_right _ _), Nat.add_sub_cancel_left]
          exact ih h hj

theorem prepareChunkOffsets_getD {lens : List Nat} {i : Nat} (hi : i ≤ lens.length) :
    (prepareChunkOffsets lens).getD i 0 = ((lens.map chunkCount).take i).sum := by
  rw [prepareChunkOffsets, List.getD_eq_getElem?_getD, List.getElem?_scanl, List.length_map,
    if_pos hi, Option.getD_some, ← List.sum_eq_foldl_nat]

theorem length_prepareChunkOffsets (lens : List Nat) :
    (prepareChunkOffsets lens).length = lens.length + 1 := by
  rw [prepareChunkOffsets, List.length_scanl, List.length_map]

theorem length_chunkStartStates (state : S) (tokens : List T) :
    (chunkStartStates step state tokens).length = chunkCount tokens.length := by
  rw [chunkStartStates, List.length_map, List.length_range]

/-- The kernel emits the state at every chunk start of a row. -/
theorem chunkStartStates_getElem? (step : S → T → S × O) (state : S) {tokens : List T} {j : Nat}
    (hj : FLA_CHUNK_SIZE * j < tokens.length) : (chunkStartStates step state tokens)[j]?
      = some (Scan.state step state (tokens.take (FLA_CHUNK_SIZE * j))) := by
  have hlt : j < chunkCount tokens.length := by
    rw [FLA_CHUNK_SIZE] at hj
    rw [chunkCount, FLA_CHUNK_SIZE]
    omega
  rw [chunkStartStates, List.getElem?_map, List.getElem?_range hlt]
  rfl

theorem initialStates_ok (hbs : 0 < blockSize) {rows : List (BatchRow T)}
    (h : ∀ row ∈ rows, row.Ready blockSize) (hpre : ∀ row ∈ rows, row.isDecode = false)
    (stateCache : Nat → S) : initialStates zero blockSize stateCache rows
      = .ok (rows.map (BatchRow.initialState zero blockSize stateCache)) := by
  rw [initialStates, gatherColumn_ok rows (BatchRow.lastComputedBlock blockSize) (by
    intro row hrow
    rw [lastComputedBlock_eq hbs]
    exact (h row hrow).input_lt)]
  dsimp only [bind, Except.bind]
  rw [List.zipWith_map_right, List.zipWith_self]
  refine congrArg Except.ok (List.map_congr_left ?_)
  intro row hrow
  rw [BatchRow.initialState, lastComputedBlock_eq hbs, BatchRow.inputSlot, hpre row hrow]
  simp only [Bool.false_eq_true, false_or]

/-- The chunk states that a row of a batch finds at its offset. -/
theorem chunkStates_of_row {rows : List (BatchRow T)} {i : Nat} {row : BatchRow T}
    (hrow : rows[i]? = some row) (stateCache : Nat → S) {j : Nat}
    (hj : row.computed + FLA_CHUNK_SIZE * j < row.seqLen) :
    (rows.map fun row => chunkStartStates step (row.initialState zero blockSize stateCache)
        row.tokens).flatten[((rows.map fun row => chunkCount row.tokens.length).take i).sum + j]?
      = some (row.stateAt step zero blockSize stateCache
          (row.computed + FLA_CHUNK_SIZE * j)) := by
  have hlt : FLA_CHUNK_SIZE * j < row.tokens.length := by
    rw [BatchRow.seqLen] at hj
    omega
  have hlens : (rows.map fun row => chunkCount row.tokens.length)
      = (rows.map fun row => chunkStartStates step (row.initialState zero blockSize stateCache)
          row.tokens).map List.length := by
    rw [List.map_map]
    refine List.map_congr_left ?_
    intro row _
    exact (length_chunkStartStates _ _).symm
  have hget := chunkStartStates_getElem? step (row.initialState zero blockSize stateCache) hlt
  have hin : (rows.map fun row => chunkStartStates step (row.initialState zero blockSize stateCache)
      row.tokens)[i]? = some (chunkStartStates step (row.initialState zero blockSize stateCache)
        row.tokens) := by
    rw [List.getElem?_map, hrow]
    rfl
  rw [hlens, getElem?_flatten_offset hin (List.getElem?_eq_some_iff.mp hget).1, hget,
    BatchRow.stateAt, Nat.add_sub_cancel_left]

theorem stateAt_seqLen (stateCache : Nat → S) (row : BatchRow T) :
    row.stateAt step zero blockSize stateCache row.seqLen
      = Scan.state step (row.initialState zero blockSize stateCache) row.tokens := by
  rw [BatchRow.stateAt, BatchRow.seqLen, Nat.add_sub_cancel_left, List.take_length]

/-- The writer's iteration for one row of a batch whose incoming states are those of `stateCache`. -/
def writeRow (step : S → T → S × O) (zero : S) (blockSize : Nat) (rows : List (BatchRow T))
    (stateCache m : Nat → S) (i : Nat) : Except PyError (Nat → S) :=
  match rows[i]? with
  | none => .error .indexError
  | some row =>
      writeSequenceCheckpoints (rows.map fun row => chunkStartStates step
          (row.initialState zero blockSize stateCache) row.tokens).flatten
        row.table blockSize FLA_CHUNK_SIZE (row.stateAt step zero blockSize stateCache row.seqLen)
        ((rows.map fun row => chunkCount row.tokens.length).take i).sum row.computed
        (row.computed / blockSize) ((row.seqLen - 1) / blockSize) m

theorem writeRow_ok (hbs : 0 < blockSize) {rows : List (BatchRow T)}
    (h : ∀ row ∈ rows, row.Ready blockSize) {i : Nat} {row : BatchRow T} (hrow : rows[i]? = some row)
    (haligned : BoundariesAligned blockSize FLA_CHUNK_SIZE row.computed row.seqLen)
    (stateCache m : Nat → S) : writeRow step zero blockSize rows stateCache m i
      = .ok (writeAll m (row.writes step zero blockSize stateCache)) := by
  have hready := h row (List.mem_of_getElem? hrow)
  rw [writeRow, hrow]
  exact writeSequenceCheckpoints_ok hbs (by decide) hready.seqLen_pos haligned hready.slots
    fun j hj => chunkStates_of_row hrow stateCache hj

theorem writeRow_error (step : S → T → S × O) (zero : S) (hbs : 0 < blockSize) {rows : List (BatchRow T)}
    (h : ∀ row ∈ rows, row.Ready blockSize) {i : Nat} {row : BatchRow T} (hrow : rows[i]? = some row)
    (hunaligned : ¬ BoundariesAligned blockSize FLA_CHUNK_SIZE row.computed row.seqLen)
    (stateCache m : Nat → S) :
    ∃ e, writeRow step zero blockSize rows stateCache m i = .error e := by
  rw [writeRow, hrow]
  exact writeSequenceCheckpoints_error hbs (h row (List.mem_of_getElem? hrow)).seqLen_pos hunaligned
    _ _ _

/-- The prefills of a batch run the writer row by row. -/
theorem prefillForward_eq (hbs : 0 < blockSize) {rows : List (BatchRow T)}
    (h : ∀ row ∈ rows, row.Ready blockSize) (hpre : ∀ row ∈ rows, row.isDecode = false)
    (stateCache : Nat → S) :
    prefillForward step zero blockSize stateCache rows
      = ((List.range rows.length).foldlM (writeRow step zero blockSize rows stateCache)
          stateCache).map fun m => (rows.map fun row =>
            (Scan.run step (row.initialState zero blockSize stateCache) row.tokens).2, m) := by
  have hfinal : (rows.map fun row => Scan.run step (row.initialState zero blockSize stateCache)
      row.tokens).map Prod.fst
        = rows.map fun row => row.stateAt step zero blockSize stateCache row.seqLen := by
    rw [List.map_map]
    exact List.map_congr_left fun row _ => (stateAt_seqLen stateCache row).symm
  rw [prefillForward, initialStates_ok hbs h hpre]
  dsimp only [bind, Except.bind]
  rw [List.zipWith_map_right, List.zipWith_self, List.zipWith_map_right, List.zipWith_self, hfinal,
    List.map_map, writeGdnPrefillCheckpoints]
  simp only [List.length_map, length_prepareChunkOffsets, ne_eq, not_true_eq_false, or_self,
    if_false]
  rw [Except.foldlM_congr (g := writeRow step zero blockSize rows stateCache)]
  · rfl
  intro i hi m
  rw [List.mem_range] at hi
  have hready := h _ (List.getElem_mem hi)
  rw [prepareChunkOffsets_getD (by rw [List.length_map]; exact Nat.le_of_lt hi), List.map_map]
  simp only [writeRow, List.getD_eq_getElem?_getD, List.getElem?_map, List.getElem?_eq_getElem hi,
    Option.map_some, Option.getD_some, firstScheduledBlock_eq hbs,
    lastScheduledBlock_eq hbs hready.nonempty]
  rfl

/-- The slots after the first rows of the writer's loop. -/
theorem writeRow_step (hbs : 0 < blockSize) {rows : List (BatchRow T)}
    (h : ∀ row ∈ rows, row.Ready blockSize) {i : Nat} (hi : i < rows.length)
    (haligned : BoundariesAligned blockSize FLA_CHUNK_SIZE rows[i].computed rows[i].seqLen)
    (stateCache : Nat → S) :
    writeRow step zero blockSize rows stateCache (writeAll stateCache
        ((rows.take i).flatMap (BatchRow.writes step zero blockSize stateCache))) i
      = .ok (writeAll stateCache
          ((rows.take (i + 1)).flatMap (BatchRow.writes step zero blockSize stateCache))) := by
  rw [writeRow_ok hbs h (List.getElem?_eq_getElem hi) haligned, List.take_succ_eq_append_getElem hi,
    List.flatMap_append, writeAll_append, List.flatMap_singleton]

/-- **Prefills** with aligned boundaries write the checkpoints of their rows. -/
theorem prefillForward_ok (hbs : 0 < blockSize) {rows : List (BatchRow T)}
    (h : ∀ row ∈ rows, row.Ready blockSize) (hpre : ∀ row ∈ rows, row.isDecode = false)
    (haligned : ∀ row ∈ rows, BoundariesAligned blockSize FLA_CHUNK_SIZE row.computed row.seqLen)
    (stateCache : Nat → S) :
    prefillForward step zero blockSize stateCache rows
      = .ok (rows.map fun row => (Scan.run step (row.initialState zero blockSize stateCache)
          row.tokens).2, writeAll stateCache
            (rows.flatMap (BatchRow.writes step zero blockSize stateCache))) := by
  have hloop := Except.foldlM_range_ok (fun i => writeAll stateCache
    ((rows.take i).flatMap (BatchRow.writes step zero blockSize stateCache)))
    fun i (hi : i < rows.length) => writeRow_step hbs h hi (haligned _ (List.getElem_mem hi)) _
  rw [prefillForward_eq hbs h hpre]
  rw [List.take_length] at hloop
  exact congrArg (Except.map _) hloop

/-- A prefill with an unaligned boundary raises. -/
theorem prefillForward_error (step : S → T → S × O) (zero : S) (hbs : 0 < blockSize)
    {rows : List (BatchRow T)} (h : ∀ row ∈ rows, row.Ready blockSize) (hpre : ∀ row ∈ rows, row.isDecode = false)
    {row : BatchRow T} (hrow : row ∈ rows)
    (hunaligned : ¬ BoundariesAligned blockSize FLA_CHUNK_SIZE row.computed row.seqLen)
    (stateCache : Nat → S) : ∃ e, prefillForward step zero blockSize stateCache rows = .error e := by
  -- the first unaligned row
  have hex : ∃ i, ∃ hi : i < rows.length,
      ¬ BoundariesAligned blockSize FLA_CHUNK_SIZE rows[i].computed rows[i].seqLen := by
    obtain ⟨i, hi, rfl⟩ := List.getElem_of_mem hrow
    exact ⟨i, hi, hunaligned⟩
  classical
  obtain ⟨hk, hbad⟩ := Nat.find_spec hex
  obtain ⟨e, he⟩ := writeRow_error step zero hbs h (List.getElem?_eq_getElem hk)
    hbad stateCache (writeAll stateCache ((rows.take (Nat.find hex)).flatMap
      (BatchRow.writes step zero blockSize stateCache)))
  have hloop := Except.foldlM_range_error (fun i => writeAll stateCache
    ((rows.take i).flatMap (BatchRow.writes step zero blockSize stateCache))) hk (by
      intro i hi
      have hlt := Nat.lt_trans hi hk
      refine writeRow_step hbs h hlt ?_ _
      have := Nat.find_min hex hi
      push Not at this
      exact this hlt) he
  refine ⟨e, ?_⟩
  rw [prefillForward_eq hbs h hpre]
  exact congrArg (Except.map _) hloop

/-! ### Whole batches -/

/-- The rows of a batch in the order in which they are written. -/
theorem filter_perm (rows : List (BatchRow T)) :
    (rows.filter (fun row => row.isDecode) ++ rows.filter fun row => !row.isDecode).Perm rows :=
  List.filter_append_perm _ _

/-- What the decodes write is not read by the prefills. -/
theorem BatchReady.decode_frame {rows : List (BatchRow T)} (h : BatchReady blockSize rows)
    {row : BatchRow T} (hrow : row ∈ rows) (hpre : row.isDecode = false) (stateCache : Nat → S) :
    writeAll stateCache ((rows.filter fun row => row.isDecode).flatMap
      (BatchRow.writes step zero blockSize stateCache)) (row.inputSlot blockSize)
        = stateCache (row.inputSlot blockSize) := by
  have hapart := (h.perm (filter_perm rows).symm).apart
  rw [List.pairwise_append] at hapart
  refine writeAll_of_notMem ?_
  intro w hw heq
  obtain ⟨row', hrow', hw⟩ := List.mem_flatMap.mp hw
  refine (hapart.2.2 row' hrow' row (List.mem_filter.mpr ⟨hrow, by rw [hpre]; rfl⟩)).input' ?_
  rw [← heq, ← map_fst_writes step zero stateCache]
  exact List.mem_map_of_mem hw

theorem forwardDecodes_ok (hbs : 0 < blockSize) {rows : List (BatchRow T)}
    (h : BatchReady blockSize rows) (zero : S) (stateCache : Nat → S) :
    forwardDecodes step blockSize stateCache (rows.filter fun row => row.isDecode)
      = .ok (writeAll stateCache ((rows.filter fun row => row.isDecode).flatMap
          (BatchRow.writes step zero blockSize stateCache))) := by
  rw [forwardDecodes]
  split
  · next hempty =>
      rw [List.isEmpty_iff.mp hempty]
      rfl
  · exact decodeForward_ok hbs (h.sublist List.filter_sublist)
      (fun row hrow => (List.mem_filter.mp hrow).2) stateCache

/-- **A step of a layer** whose prefills are aligned writes the checkpoints of all rows. -/
theorem gdnForward_ok (hbs : 0 < blockSize) {rows : List (BatchRow T)}
    (h : BatchReady blockSize rows) (haligned : ∀ row ∈ rows, row.isDecode = false →
      BoundariesAligned blockSize FLA_CHUNK_SIZE row.computed row.seqLen) (stateCache : Nat → S) :
    ∃ stateCache', gdnForward step zero blockSize stateCache rows = .ok stateCache' ∧
      (∀ row ∈ rows, ∀ b slot, row.computed / blockSize ≤ b → b ≤ (row.seqLen - 1) / blockSize →
        row.table[b]? = some slot → stateCache' slot
          = row.stateAt step zero blockSize stateCache (min ((b + 1) * blockSize) row.seqLen)) ∧
      ∀ slot, (∀ row ∈ rows, slot ∉ row.writtenSlots blockSize) →
        stateCache' slot = stateCache slot := by
  have hperm := filter_perm rows
  -- the prefills read what they would read before the decodes
  have hsame : (rows.filter fun row => !row.isDecode).flatMap (BatchRow.writes step zero blockSize
        (writeAll stateCache ((rows.filter fun row => row.isDecode).flatMap
          (BatchRow.writes step zero blockSize stateCache))))
      = (rows.filter fun row => !row.isDecode).flatMap
          (BatchRow.writes step zero blockSize stateCache) := by
    refine List.flatMap_congr ?_
    intro row hrow
    obtain ⟨hrow, hpre⟩ := List.mem_filter.mp hrow
    exact writes_congr (h.decode_frame hrow ((Bool.not_eq_true' _).mp hpre) stateCache)
  have hforward : gdnForward step zero blockSize stateCache rows = .ok (writeAll stateCache
      ((rows.filter (fun row => row.isDecode) ++ rows.filter fun row => !row.isDecode).flatMap
        (BatchRow.writes step zero blockSize stateCache))) := by
    rw [gdnForward, forwardDecodes_ok hbs h zero, List.flatMap_append, writeAll_append]
    change forwardPrefills _ _ _ _ _ = _
    rw [forwardPrefills]
    split
    · next hempty =>
        rw [List.isEmpty_iff.mp hempty]
        rfl
    · rw [prefillForward_ok hbs (h.sublist List.filter_sublist).ready
        (fun row hrow => (Bool.not_eq_true' _).mp (List.mem_filter.mp hrow).2)
        (fun row hrow => haligned row (List.mem_filter.mp hrow).1
          ((Bool.not_eq_true' _).mp (List.mem_filter.mp hrow).2)), hsame]
      rfl
  have hnd := (h.perm hperm.symm).nodup_writes step zero stateCache
  refine ⟨_, hforward, ?_, ?_⟩
  · intro row hrow b slot hb₁ hb₂ hslot
    refine writeAll_of_mem hnd (List.mem_flatMap.mpr ⟨row, hperm.mem_iff.mpr hrow, ?_⟩)
    refine List.mem_map.mpr ⟨b, mem_writtenBlocks.mpr ⟨hb₁, hb₂⟩, ?_⟩
    rw [List.getD_eq_getElem?_getD, hslot, Option.getD_some]
  · intro slot hslot
    refine writeAll_of_notMem ?_
    intro w hw heq
    obtain ⟨row, hrow, hw⟩ := List.mem_flatMap.mp hw
    refine hslot row (hperm.mem_iff.mp hrow) ?_
    rw [← heq, ← map_fst_writes step zero stateCache]
    exact List.mem_map_of_mem hw

/-- A step with a prefill that is not aligned raises. -/
theorem gdnForward_error (step : S → T → S × O) (zero : S) (hbs : 0 < blockSize)
    {rows : List (BatchRow T)} (h : BatchReady blockSize rows) {row : BatchRow T} (hrow : row ∈ rows)
    (hpre : row.isDecode = false)
    (hunaligned : ¬ BoundariesAligned blockSize FLA_CHUNK_SIZE row.computed row.seqLen)
    (stateCache : Nat → S) : ∃ e, gdnForward step zero blockSize stateCache rows = .error e := by
  have hmem : row ∈ rows.filter fun row => !row.isDecode :=
    List.mem_filter.mpr ⟨hrow, by rw [hpre]; rfl⟩
  obtain ⟨e, he⟩ := prefillForward_error step zero hbs
    (h.sublist List.filter_sublist).ready
    (fun row hrow => (Bool.not_eq_true' _).mp (List.mem_filter.mp hrow).2) hmem hunaligned
    (writeAll stateCache ((rows.filter fun row => row.isDecode).flatMap
      (BatchRow.writes step zero blockSize stateCache)))
  refine ⟨e, ?_⟩
  rw [gdnForward, forwardDecodes_ok hbs h zero]
  change forwardPrefills _ _ _ _ _ = _
  rw [forwardPrefills, if_neg, he]
  · rfl
  intro hempty
  rw [List.isEmpty_iff.mp hempty] at hmem
  cases hmem

end

end CacheSelect.Gdn

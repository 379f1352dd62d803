import CacheSelect.Gdn.CheckpointRuns

/-! # The shadow comparison

After an ordinary prefill a layer compares the cached operator of every candidate block with what it computed
itself: `compareCompletedGdnBlocksShadow` applies the operator to the state it takes to be the one before the
block and measures the distance to the outputs and to the state it takes to be the one after it.  Both states
come from the checkpoint table, at the index of the candidate, which counts blocks of the sidecar.

`shadow_compares_block_states` says that these are the states of the block when the table has one entry for
each block of the sidecar: the comparison then applies the operator that is resident under the hash of the
candidate to the state before the block, and holds it against the outputs of the block and the state after it.

The norms are in floating point, so `measure` stands for them: it takes the outputs of the operator, those of
the layer, and the two final states.  Slots are naturals.
-/

namespace CacheSelect.Gdn

open CacheSelect.Core OrderedDict Segments Transition Writes

inductive ShadowStatus
  | operatorNotResident
  | invalidTargetBlock
  | blockNotFullyScheduled
  | invalidCheckpointSlot
  | compared
deriving DecidableEq, Repr

/-- The outcome for one candidate. -/
structure GdnDeltaBlockShadowResult (C : Type) where
  sequenceIndex : Nat
  targetBlockIndex : Int
  sourceContextualHash : ContextualHash
  status : ShadowStatus
  comparison : Option C := none

/-- A candidate with the index of its sequence. -/
abbrev IndexedCandidate := Nat × Int × ContextualHash

section

variable {R : Type} {HV V K : Nat} {C : Type}

/-- The distances between two pairs of outputs and final states. -/
abbrev ShadowMeasure (R : Type) (HV V K : Nat) (C : Type) :=
  List (TokenOutput R HV V) → List (TokenOutput R HV V) → RecurrentState R HV V K →
    RecurrentState R HV V K → C

variable [CommRing R]

/-- Compare a cached operator with the normal result of its block. -/
def compareGdnAffineShadow (measure : ShadowMeasure R HV V K C)
    (initialState : RecurrentState R HV V K) (entry : GdnDeltaCacheEntry R HV V K)
    (referenceOutputs : List (TokenOutput R HV V)) (referenceFinalState : RecurrentState R HV V K) :
    Except PyError C := do
  let (approximateState, approximateOutputs) ←
    applyGdnAffineOperator initialState entry.toGdnAffineOperator
  if approximateOutputs.length ≠ referenceOutputs.length then
    .error (.valueError "reference outputs do not match the cached block shape")
  else .ok (measure approximateOutputs referenceOutputs approximateState referenceFinalState)

/-- The tensors that a comparison reads. -/
structure ShadowInputs (R : Type) (HV V K : Nat) where
  numSlots : Nat
  stateCache : Nat → RecurrentState R HV V K
  fullOutputs : List (TokenOutput R HV V)
  checkpointStateIndices : List (List Nat)
  queryStarts : List Nat
  computedCounts : List Nat
  sequenceIndexOffset : Nat

/-- The result for a candidate without a comparison. -/
def notCompared (inputs : ShadowInputs R HV V K) (candidate : IndexedCandidate)
    (status : ShadowStatus) : GdnDeltaBlockShadowResult C where
  sequenceIndex := candidate.1 + inputs.sequenceIndexOffset
  targetBlockIndex := candidate.2.1
  sourceContextualHash := candidate.2.2
  status := status

/-- The result for a candidate whose operator is resident. -/
def compareResident (measure : ShadowMeasure R HV V K C) (inputs : ShadowInputs R HV V K)
    (blockSize : Nat) (candidate : IndexedCandidate) (entry : GdnDeltaCacheEntry R HV V K) :
    Except PyError (GdnDeltaBlockShadowResult C) :=
  let (sequenceIndex, targetBlockIndex, sourceHash) := candidate
  let queryStart := inputs.queryStarts.getD sequenceIndex 0
  let queryEnd := inputs.queryStarts.getD (sequenceIndex + 1) 0
  let computed := inputs.computedCounts.getD sequenceIndex 0
  let row := inputs.checkpointStateIndices.getD sequenceIndex []
  if targetBlockIndex ≤ 0 ∨ (row.length : Int) ≤ targetBlockIndex then
    .ok (notCompared inputs candidate .invalidTargetBlock)
  else
    let localStart := targetBlockIndex * blockSize - computed
    let outputStart := queryStart + localStart
    let outputEnd := outputStart + blockSize
    if localStart < 0 ∨ (queryEnd : Int) < outputEnd then
      .ok (notCompared inputs candidate .blockNotFullyScheduled)
    else
      let incomingSlot := row.getD (targetBlockIndex - 1).toNat NULL_BLOCK_ID
      let finalSlot := row.getD targetBlockIndex.toNat NULL_BLOCK_ID
      if inputs.numSlots ≤ max incomingSlot finalSlot then
        .ok (notCompared inputs candidate .invalidCheckpointSlot)
      else do
        let comparison ← compareGdnAffineShadow measure (inputs.stateCache incomingSlot) entry
          (slice inputs.fullOutputs outputStart.toNat outputEnd.toNat) (inputs.stateCache finalSlot)
        .ok { sequenceIndex := sequenceIndex + inputs.sequenceIndexOffset
              targetBlockIndex := targetBlockIndex
              sourceContextualHash := sourceHash
              status := .compared
              comparison := some comparison }

/-- The loop over the candidates. -/
def compareCandidates (measure : ShadowMeasure R HV V K C) (inputs : ShadowInputs R HV V K) :
    List IndexedCandidate → GdnDeltaOperatorSidecar R HV V K →
    Except PyError (List (GdnDeltaBlockShadowResult C) × GdnDeltaOperatorSidecar R HV V K)
  | [], sidecar => .ok ([], sidecar)
  | candidate :: rest, sidecar =>
      match sidecar.lookup candidate.2.2 with
      | (none, sidecar) => do
          let (results, sidecar) ← compareCandidates measure inputs rest sidecar
          .ok (notCompared inputs candidate .operatorNotResident :: results, sidecar)
      | (some entry, sidecar) => do
          let result ← compareResident measure inputs sidecar.blockSize candidate entry
          let (results, sidecar) ← compareCandidates measure inputs rest sidecar
          .ok (result :: results, sidecar)

/-- The candidates of all sequences, in order. -/
def indexedCandidates (reuseCandidates : List (List (Int × ContextualHash))) :
    List IndexedCandidate :=
  reuseCandidates.zipIdx.flatMap fun (candidates, i) => candidates.map fun candidate => (i, candidate)

/-- Compare every candidate block that was scheduled as a whole. -/
def compareCompletedGdnBlocksShadow (measure : ShadowMeasure R HV V K C)
    (inputs : ShadowInputs R HV V K) (sidecar : GdnDeltaOperatorSidecar R HV V K)
    (reuseCandidates : List (List (Int × ContextualHash))) :
    Except PyError (List (GdnDeltaBlockShadowResult C) × GdnDeltaOperatorSidecar R HV V K) :=
  let sequenceCount := inputs.queryStarts.length - 1
  if inputs.computedCounts.length ≠ sequenceCount then
    .error (.valueError "computed counts must contain one value per sequence")
  else if reuseCandidates.length ≠ sequenceCount then
    .error (.valueError "reuse candidates must contain one tuple per sequence")
  else if inputs.checkpointStateIndices.length ≠ sequenceCount then
    .error (.valueError "checkpoint rows must contain one row per sequence")
  else if inputs.queryStarts.head? ≠ some 0 ∨
      inputs.queryStarts.getLast? ≠ some inputs.fullOutputs.length then
    .error (.valueError "query starts must span the flattened output tensor")
  else compareCandidates measure inputs (indexedCandidates reuseCandidates) sidecar

variable (exp : R → R) (scale : R)

/-- A step of a layer in shadow mode.  `checkpointRows` are the rows of the prefills in the checkpoint table:
their slots, and then whatever the rows held before. -/
def gdnShadowForward (measure : ShadowMeasure R HV V K C) (numSlots blockSize : Nat)
    (sidecar : GdnDeltaOperatorSidecar R HV V K) (stateCache : Nat → RecurrentState R HV V K)
    (rows : List (BatchRow (GdnToken R HV V K))) (checkpointRows : List (List Nat))
    (reuseCandidates : List (List (Int × ContextualHash))) :
    Except PyError (List (GdnDeltaBlockShadowResult C) × GdnDeltaOperatorSidecar R HV V K ×
      (Nat → RecurrentState R HV V K)) := do
  let decodes := rows.filter fun row => row.isDecode
  let prefills := rows.filter fun row => !row.isDecode
  let stateCache ← forwardDecodes (gatedDeltaStep exp scale) blockSize stateCache decodes
  if prefills.isEmpty then .ok ([], sidecar, stateCache)
  else do
    let (outputs, stateCache) ← prefillForward (gatedDeltaStep exp scale) 0 blockSize stateCache
      prefills
    if reuseCandidates.all List.isEmpty then .ok ([], sidecar, stateCache)
    else do
      let (results, sidecar) ← compareCompletedGdnBlocksShadow measure
        { numSlots := numSlots
          stateCache := stateCache
          fullOutputs := outputs.flatten
          checkpointStateIndices := checkpointRows
          queryStarts := (prefills.map fun row => row.tokens.length).scanl (· + ·) 0
          computedCounts := prefills.map BatchRow.computed
          sequenceIndexOffset := decodes.length }
        sidecar reuseCandidates
      .ok (results, sidecar, stateCache)

end

/-! ### One candidate -/

section

variable {R : Type} {HV V K : Nat} {C : Type} [CommRing R]

omit [CommRing R] in
/-- The operator that is cached under a hash. -/
def GdnDeltaOperatorSidecar.resident (s : GdnDeltaOperatorSidecar R HV V K) (blockHash : ContextualHash) :
    Option (GdnDeltaCacheEntry R HV V K) :=
  (get s.keyToSlot blockHash).map s.entryAt

namespace GdnDeltaOperatorSidecar

variable (s : GdnDeltaOperatorSidecar R HV V K) (blockHash : ContextualHash)

omit [CommRing R] in
theorem lookup_fst : (s.lookup blockHash).1 = s.resident blockHash := by
  rw [lookup, resident]
  cases get s.keyToSlot blockHash <;> rfl

omit [CommRing R] in
@[simp] theorem blockSize_lookup : (s.lookup blockHash).2.blockSize = s.blockSize := by
  rw [lookup]
  cases get s.keyToSlot blockHash <;> rfl

omit [CommRing R] in
/-- A lookup changes the order of the operators only. -/
@[simp] theorem resident_lookup (h : ContextualHash) :
    (s.lookup blockHash).2.resident h = s.resident h := by
  rw [lookup]
  cases hslot : get s.keyToSlot blockHash with
  | none => rfl
  | some slot =>
      change (get (put s.keyToSlot blockHash slot) h).map s.entryAt = (get s.keyToSlot h).map s.entryAt
      rw [get_put]
      split
      · next heq => rw [heq, hslot]
      · rfl

end GdnDeltaOperatorSidecar

/-- What a result says about its candidate: a comparison that is made applies the resident operator and reads
the outputs of the candidate block, and the slots at the index of the candidate and before it. -/
structure ResultOf (measure : ShadowMeasure R HV V K C) (inputs : ShadowInputs R HV V K)
    (sidecar : GdnDeltaOperatorSidecar R HV V K) (candidate : IndexedCandidate)
    (result : GdnDeltaBlockShadowResult C) : Prop where
  index : result.sequenceIndex = candidate.1 + inputs.sequenceIndexOffset
  target : result.targetBlockIndex = candidate.2.1
  hash : result.sourceContextualHash = candidate.2.2
  none : result.status ≠ .compared → result.comparison = none
  compared : result.status = .compared → ∃ (t : Nat) (entry : GdnDeltaCacheEntry R HV V K) (c : C),
    candidate.2.1 = (t : Int) ∧ 0 < t ∧
    t < (inputs.checkpointStateIndices.getD candidate.1 []).length ∧
    inputs.computedCounts.getD candidate.1 0 ≤ t * sidecar.blockSize ∧
    inputs.queryStarts.getD candidate.1 0 + (t + 1) * sidecar.blockSize
      ≤ inputs.queryStarts.getD (candidate.1 + 1) 0 + inputs.computedCounts.getD candidate.1 0 ∧
    sidecar.resident candidate.2.2 = some entry ∧ result.comparison = some c ∧
    compareGdnAffineShadow measure
      (inputs.stateCache ((inputs.checkpointStateIndices.getD candidate.1 []).getD (t - 1) NULL_BLOCK_ID))
      entry
      (slice inputs.fullOutputs
        (inputs.queryStarts.getD candidate.1 0
          + (t * sidecar.blockSize - inputs.computedCounts.getD candidate.1 0))
        (inputs.queryStarts.getD candidate.1 0
          + ((t + 1) * sidecar.blockSize - inputs.computedCounts.getD candidate.1 0)))
      (inputs.stateCache ((inputs.checkpointStateIndices.getD candidate.1 []).getD t NULL_BLOCK_ID))
      = .ok c

variable {measure : ShadowMeasure R HV V K C} {inputs : ShadowInputs R HV V K}
  {sidecar : GdnDeltaOperatorSidecar R HV V K}

theorem resultOf_notCompared {candidate : IndexedCandidate} {status : ShadowStatus}
    (h : status ≠ .compared) :
    ResultOf measure inputs sidecar candidate (notCompared inputs candidate status) where
  index := rfl
  target := rfl
  hash := rfl
  none := fun _ => rfl
  compared := fun hc => absurd hc h

/-- The result of a candidate whose operator is resident. -/
theorem resultOf_compareResident {candidate : IndexedCandidate}
    {entry : GdnDeltaCacheEntry R HV V K} {result : GdnDeltaBlockShadowResult C}
    (hentry : sidecar.resident candidate.2.2 = some entry)
    (h : compareResident measure inputs sidecar.blockSize candidate entry = .ok result) :
    ResultOf measure inputs sidecar candidate result := by
  obtain ⟨i, target, hash⟩ := candidate
  rw [compareResident] at h
  dsimp only at h
  split at h
  · cases h
    exact resultOf_notCompared nofun
  next hrange =>
  split at h
  · cases h
    exact resultOf_notCompared nofun
  next hscheduled =>
  split at h
  · cases h
    exact resultOf_notCompared nofun
  obtain ⟨c, hc, h⟩ := Except.bind_eq_ok.mp h
  cases h
  obtain ⟨t, rfl⟩ : ∃ t : Nat, target = (t : Int) := ⟨target.toNat, by omega⟩
  refine { index := rfl, target := rfl, hash := rfl, none := fun hne => absurd rfl hne,
           compared := fun _ => ?_ }
  rw [not_or, not_le, not_le] at hrange
  rw [not_or, not_lt, not_lt] at hscheduled
  have hcomputed : inputs.computedCounts.getD i 0 ≤ t * sidecar.blockSize := by
    rw [← Int.ofNat_le, Int.natCast_mul]
    omega
  have hsucc : (t + 1) * sidecar.blockSize = t * sidecar.blockSize + sidecar.blockSize := Nat.succ_mul _ _
  have hlocal : (t : Int) * sidecar.blockSize - (inputs.computedCounts.getD i 0 : Nat)
      = ((t * sidecar.blockSize - inputs.computedCounts.getD i 0 : Nat) : Int) := by
    rw [Int.ofNat_sub hcomputed, Int.natCast_mul]
  rw [hlocal] at hscheduled hc
  have hstart : ((inputs.queryStarts.getD i 0 : Int)
      + ((t * sidecar.blockSize - inputs.computedCounts.getD i 0 : Nat) : Int)).toNat
      = inputs.queryStarts.getD i 0 + (t * sidecar.blockSize - inputs.computedCounts.getD i 0) := by
    omega
  have hstop : ((inputs.queryStarts.getD i 0 : Int)
      + ((t * sidecar.blockSize - inputs.computedCounts.getD i 0 : Nat) : Int)
        + (sidecar.blockSize : Int)).toNat
      = inputs.queryStarts.getD i 0 + ((t + 1) * sidecar.blockSize - inputs.computedCounts.getD i 0) := by
    omega
  have hpred : ((t : Int) - 1).toNat = t - 1 := by omega
  rw [hpred, hstart, hstop, Int.toNat_natCast] at hc
  have hend : inputs.queryStarts.getD i 0 + (t + 1) * sidecar.blockSize
      ≤ inputs.queryStarts.getD (i + 1) 0 + inputs.computedCounts.getD i 0 := by omega
  exact ⟨t, entry, c, rfl, Int.natCast_pos.mp hrange.1, Int.ofNat_lt.mp hrange.2, hcomputed, hend, hentry,
    rfl, hc⟩

/-- Every candidate gets one result, in order; a lookup leaves the operators of the others in place. -/
theorem forall₂_compareCandidates : ∀ {candidates : List IndexedCandidate}
    {sidecar₁ sidecar₂ : GdnDeltaOperatorSidecar R HV V K}
    {results : List (GdnDeltaBlockShadowResult C)}, sidecar₁.blockSize = sidecar.blockSize →
    (∀ h, sidecar₁.resident h = sidecar.resident h) →
    compareCandidates measure inputs candidates sidecar₁ = .ok (results, sidecar₂) →
    List.Forall₂ (ResultOf measure inputs sidecar) candidates results := by
  intro candidates
  induction candidates with
  | nil =>
      intro sidecar₁ sidecar₂ results _ _ h
      cases h
      exact .nil
  | cons candidate candidates ih =>
      intro sidecar₁ sidecar₂ results hbs hres h
      have hsize : (sidecar₁.lookup candidate.2.2).2.blockSize = sidecar.blockSize := by
        rw [GdnDeltaOperatorSidecar.blockSize_lookup, hbs]
      have hnext : ∀ h, (sidecar₁.lookup candidate.2.2).2.resident h = sidecar.resident h := by
        intro h
        rw [GdnDeltaOperatorSidecar.resident_lookup, hres]
      have hfound := (sidecar₁.lookup_fst candidate.2.2).trans (hres candidate.2.2)
      rw [compareCandidates] at h
      split at h
      · next sidecar₃ hlookup =>
        obtain ⟨⟨rest, sidecar₄⟩, hrest, h⟩ := Except.bind_eq_ok.mp h
        cases h
        rw [hlookup] at hsize hnext
        exact .cons (resultOf_notCompared (by decide)) (ih hsize hnext hrest)
      · next entry sidecar₃ hlookup =>
        obtain ⟨result, hresult, h⟩ := Except.bind_eq_ok.mp h
        obtain ⟨⟨rest, sidecar₄⟩, hrest, h⟩ := Except.bind_eq_ok.mp h
        cases h
        rw [hlookup] at hsize hnext hfound
        rw [hsize] at hresult
        exact .cons (resultOf_compareResident hfound.symm hresult) (ih hsize hnext hrest)

theorem mem_indexedCandidates {reuseCandidates : List (List (Int × ContextualHash))}
    {candidate : IndexedCandidate} : candidate ∈ indexedCandidates reuseCandidates ↔
      ∃ cs, reuseCandidates[candidate.1]? = some cs ∧ candidate.2 ∈ cs := by
  obtain ⟨i, candidate⟩ := candidate
  rw [indexedCandidates, List.mem_flatMap]
  refine ⟨?_, ?_⟩
  · rintro ⟨⟨cs, j⟩, hcs, hc⟩
    obtain ⟨c, hc, heq⟩ := List.mem_map.mp hc
    cases heq
    exact ⟨cs, List.mem_zipIdx_iff_getElem?.mp hcs, hc⟩
  · rintro ⟨cs, hcs, hc⟩
    exact ⟨(cs, i), List.mem_zipIdx_iff_getElem?.mpr hcs, List.mem_map.mpr ⟨candidate, hc, rfl⟩⟩

theorem compareCompletedGdnBlocksShadow_ok {sidecar' : GdnDeltaOperatorSidecar R HV V K}
    {reuseCandidates : List (List (Int × ContextualHash))}
    {results : List (GdnDeltaBlockShadowResult C)}
    (h : compareCompletedGdnBlocksShadow measure inputs sidecar reuseCandidates
      = .ok (results, sidecar')) :
    List.Forall₂ (ResultOf measure inputs sidecar) (indexedCandidates reuseCandidates) results := by
  rw [compareCompletedGdnBlocksShadow] at h
  split at h
  · cases h
  split at h
  · cases h
  split at h
  · cases h
  split at h
  · cases h
  exact forall₂_compareCandidates rfl (fun _ => rfl) h

end

/-! ### Steps -/

section

variable {R : Type} {HV V K : Nat} {C : Type} [CommRing R] {exp : R → R} {scale : R}

/-- **A step in shadow mode** is an ordinary step, with comparisons on the outputs of its prefills and the
slots that it leaves. -/
theorem gdnShadowForward_inv {measure : ShadowMeasure R HV V K C} {numSlots blockSize : Nat}
    {sidecar sidecar' : GdnDeltaOperatorSidecar R HV V K}
    {stateCache stateCache' : Nat → RecurrentState R HV V K}
    {rows : List (BatchRow (GdnToken R HV V K))} {checkpointRows : List (List Nat)}
    {reuseCandidates : List (List (Int × ContextualHash))}
    {results : List (GdnDeltaBlockShadowResult C)}
    (h : gdnShadowForward exp scale measure numSlots blockSize sidecar stateCache rows checkpointRows
      reuseCandidates = .ok (results, sidecar', stateCache')) :
    gdnForward (gatedDeltaStep exp scale) 0 blockSize stateCache rows = .ok stateCache' ∧
      (results = [] ∨ ∃ decoded outputs, forwardDecodes (gatedDeltaStep exp scale) blockSize stateCache
          (rows.filter fun row => row.isDecode) = .ok decoded ∧
        prefillForward (gatedDeltaStep exp scale) 0 blockSize decoded
          (rows.filter fun row => !row.isDecode) = .ok (outputs, stateCache') ∧
        List.Forall₂ (ResultOf measure
        { numSlots := numSlots
          stateCache := stateCache'
          fullOutputs := outputs.flatten
          checkpointStateIndices := checkpointRows
          queryStarts := ((rows.filter fun row => !row.isDecode).map
            fun row => row.tokens.length).scanl (· + ·) 0
          computedCounts := (rows.filter fun row => !row.isDecode).map BatchRow.computed
          sequenceIndexOffset := (rows.filter fun row => row.isDecode).length } sidecar)
        (indexedCandidates reuseCandidates) results) := by
  rw [gdnShadowForward] at h
  dsimp only at h
  obtain ⟨m, hdecodes, h⟩ := Except.bind_eq_ok.mp h
  rw [gdnForward, hdecodes]
  change forwardPrefills _ _ _ _ _ = _ ∧ _
  rw [forwardPrefills]
  split at h
  · next hempty =>
    cases h
    exact ⟨if_pos hempty, Or.inl rfl⟩
  next hnonempty =>
  obtain ⟨⟨outputs, m'⟩, hprefill, h⟩ := Except.bind_eq_ok.mp h
  rw [if_neg hnonempty, hprefill]
  dsimp only at h
  split at h
  · cases h
    exact ⟨rfl, Or.inl rfl⟩
  obtain ⟨⟨results', sidecar''⟩, hcompare, h⟩ := Except.bind_eq_ok.mp h
  cases h
  exact ⟨rfl, Or.inr ⟨m, outputs, rfl, hprefill, compareCompletedGdnBlocksShadow_ok hcompare⟩⟩

theorem exists_of_forall₂_mem {α β : Type} {P : α → β → Prop} : ∀ {l : List α} {l' : List β},
    List.Forall₂ P l l' → ∀ b ∈ l', ∃ a ∈ l, P a b := by
  intro l l' h
  induction h with
  | nil => nofun
  | cons hab _ ih =>
      intro b hb
      rcases List.mem_cons.mp hb with rfl | hb
      · exact ⟨_, List.mem_cons_self, hab⟩
      · obtain ⟨a, ha, h⟩ := ih b hb
        exact ⟨a, List.mem_cons_of_mem _ ha, h⟩

/-- The state that the table of a request after a step has at a block of its tokens. -/
theorem CheckpointState.Inv.tableState {blockSize : Nat} (hbs : 0 < blockSize)
    {s : CheckpointState (RecurrentState R HV V K) (GdnToken R HV V K)}
    (hi : s.Inv (gatedDeltaStep exp scale) 0 blockSize) {id b : Nat} {table : List Nat}
    (htable : (s.rows id).table <+: table) (hb : (s.rows id).released ≤ b)
    (hend : (b + 1) * blockSize ≤ (s.rows id).computed) :
    s.stateCache (table.getD b NULL_BLOCK_ID)
      = stateAfter (gatedDeltaStep exp scale) 0 ((s.rows id).tokens.take ((b + 1) * blockSize)) := by
  have hlt : b * blockSize < (s.rows id).computed := by
    rw [Nat.succ_mul] at hend
    omega
  obtain ⟨slot, hslot, -, hstate⟩ := hi.slot hb hlt
  rw [Nat.min_eq_left hend] at hstate
  obtain ⟨rest, rfl⟩ := htable
  rw [List.getD_eq_getElem?_getD, List.getElem?_append_left (List.getElem?_eq_some_iff.mp hslot).1,
    hslot, Option.getD_some, hstate]

end

/-- The prefills of the next step. -/
def CheckpointState.prefillIds {S T : Type} (s : CheckpointState S T) : List Nat :=
  s.scheduledIds.filter fun id => !(s.rows id).toBatchRow.isDecode

theorem filter_batch {S T : Type} (s : CheckpointState S T) :
    (s.batch.filter fun row => !row.isDecode) = s.prefillIds.map fun id => (s.rows id).toBatchRow := by
  rw [CheckpointState.batch, CheckpointState.prefillIds, List.filter_map]
  rfl

section

variable {R : Type} {HV V K : Nat} [CommRing R]

/-- What the prefills of a step put out: the recurrence over the scheduled tokens of each request. -/
theorem CheckpointState.Inv.prefill_outputs {exp : R → R} {scale : R} {blockSize : Nat}
    (hbs : 0 < blockSize) {s : CheckpointState (RecurrentState R HV V K) (GdnToken R HV V K)}
    (hi : s.Inv (gatedDeltaStep exp scale) 0 blockSize) (hfresh : FreshSlotsZero 0 blockSize s)
    {decoded stateCache' : Nat → RecurrentState R HV V K} {outputs : List (List (TokenOutput R HV V))}
    (hdecoded : forwardDecodes (gatedDeltaStep exp scale) blockSize s.stateCache
      (s.batch.filter fun row => row.isDecode) = .ok decoded)
    (h : prefillForward (gatedDeltaStep exp scale) 0 blockSize decoded
      (s.batch.filter fun row => !row.isDecode) = .ok (outputs, stateCache')) :
    outputs = s.prefillIds.map fun id => (gatedDelta exp scale
      (stateAfter (gatedDeltaStep exp scale) 0 ((s.rows id).tokens.take (s.rows id).computed))
      (((s.rows id).tokens.drop (s.rows id).computed).take (s.rows id).scheduled)).2 := by
  have hready := hi.batchReady hbs
  have hpre : ∀ row ∈ s.batch.filter (fun row => !row.isDecode), row.isDecode = false :=
    fun row hrow => (Bool.not_eq_true' _).mp (List.mem_filter.mp hrow).2
  rw [forwardDecodes_ok hbs hready 0, Except.ok.injEq] at hdecoded
  rw [prefillForward_eq hbs (hready.sublist List.filter_sublist).ready hpre] at h
  obtain ⟨m, -, heq⟩ := Except.map_eq_ok.mp h
  obtain rfl := (Prod.mk.inj heq).1
  rw [filter_batch, List.map_map]
  refine List.map_congr_left ?_
  intro id hid
  have hsched := List.mem_of_mem_filter hid
  have hrow : (s.rows id).toBatchRow ∈ s.batch := List.mem_map_of_mem hsched
  have hprefill : (s.rows id).toBatchRow.isDecode = false :=
    (Bool.not_eq_true' _).mp (List.mem_filter.mp hid).2
  -- the decodes write no slot that a prefill starts from
  have hslot : decoded ((s.rows id).toBatchRow.inputSlot blockSize)
      = s.stateCache ((s.rows id).toBatchRow.inputSlot blockSize) := by
    rw [← hdecoded]
    exact hready.decode_frame hrow hprefill s.stateCache
  have hinitial : (s.rows id).toBatchRow.initialState 0 blockSize decoded
      = stateAfter (gatedDeltaStep exp scale) 0 ((s.rows id).tokens.take (s.rows id).computed) := by
    rw [← hi.initialState_eq hbs hfresh hsched, BatchRow.initialState, BatchRow.initialState, hslot]
  exact congrArg (fun state => (Scan.run (gatedDeltaStep exp scale) state _).2) hinitial

/-- The outputs of a whole block among the scheduled tokens of a request. -/
theorem slice_outputs (exp : R → R) (scale : R) (tokens : List (GdnToken R HV V K))
    {computed scheduled a b : Nat} (ha : computed ≤ a) (hab : a ≤ b) (hb : b ≤ computed + scheduled) :
    slice (gatedDelta exp scale (stateAfter (gatedDeltaStep exp scale) 0 (tokens.take computed))
        ((tokens.drop computed).take scheduled)).2 (a - computed) (b - computed)
      = (gatedDelta exp scale (stateAfter (gatedDeltaStep exp scale) 0 (tokens.take a))
          (slice tokens a b)).2 := by
  have htake : ((tokens.drop computed).take scheduled).take (a - computed)
      = slice tokens computed a := by
    rw [List.take_take, Nat.min_eq_left (by omega), slice]
  have hdrop : (((tokens.drop computed).take scheduled).drop (a - computed)).take
      (b - computed - (a - computed)) = slice tokens a b := by
    rw [List.drop_take, List.take_take, List.drop_drop, Nat.add_sub_cancel' ha, slice]
    congr 1
    omega
  have hsplit : tokens.take a = tokens.take computed ++ slice tokens computed a := by
    rw [slice, ← List.take_add, Nat.add_sub_cancel' ha]
  rw [slice, gatedDelta, Scan.drop_take_run, htake, hdrop, hsplit]
  exact congrArg (fun state => (Scan.run (gatedDeltaStep exp scale) state _).2)
    (Scan.state_append _ _ _ _).symm

/-- The numbers of tokens that the prefills of a step get. -/
theorem CheckpointState.Inv.prefill_lengths {exp : R → R} {scale : R} {blockSize : Nat}
    {s : CheckpointState (RecurrentState R HV V K) (GdnToken R HV V K)}
    (hi : s.Inv (gatedDeltaStep exp scale) 0 blockSize) :
    ((s.batch.filter fun row => !row.isDecode).map fun row => row.tokens.length)
      = s.prefillIds.map fun id => (s.rows id).scheduled := by
  rw [filter_batch, List.map_map]
  exact List.map_congr_left fun id _ => length_scheduledTokens (hi.row id)

theorem prefill_computed {S T : Type} (s : CheckpointState S T) {i id : Nat}
    (hid : s.prefillIds[i]? = some id) :
    ((s.batch.filter fun row => !row.isDecode).map BatchRow.computed).getD i 0
      = (s.rows id).computed := by
  rw [filter_batch, List.map_map, List.getD_eq_getElem?_getD, List.getElem?_map, hid]
  rfl

/-- **The outputs of a block** of a prefill, cut out of the outputs of all prefills. -/
theorem CheckpointState.Inv.block_outputs {exp : R → R} {scale : R} {blockSize : Nat}
    (hbs : 0 < blockSize) {s : CheckpointState (RecurrentState R HV V K) (GdnToken R HV V K)}
    (hi : s.Inv (gatedDeltaStep exp scale) 0 blockSize) (hfresh : FreshSlotsZero 0 blockSize s)
    {decoded stateCache' : Nat → RecurrentState R HV V K} {outputs : List (List (TokenOutput R HV V))}
    (hdecoded : forwardDecodes (gatedDeltaStep exp scale) blockSize s.stateCache
      (s.batch.filter fun row => row.isDecode) = .ok decoded)
    (h : prefillForward (gatedDeltaStep exp scale) 0 blockSize decoded
      (s.batch.filter fun row => !row.isDecode) = .ok (outputs, stateCache')) {i id : Nat}
    (hid : s.prefillIds[i]? = some id) {a b : Nat} (ha : (s.rows id).computed ≤ a) (hab : a ≤ b)
    (hb : b ≤ (s.rows id).computed + (s.rows id).scheduled) :
    slice outputs.flatten
        (((s.prefillIds.map fun id => (s.rows id).scheduled).take i).sum + (a - (s.rows id).computed))
        (((s.prefillIds.map fun id => (s.rows id).scheduled).take i).sum + (b - (s.rows id).computed))
      = (gatedDelta exp scale (stateAfter (gatedDeltaStep exp scale) 0 ((s.rows id).tokens.take a))
          (slice (s.rows id).tokens a b)).2 := by
  have hout := hi.prefill_outputs hbs hfresh hdecoded h
  have hget : outputs[i]? = some (gatedDelta exp scale
      (stateAfter (gatedDeltaStep exp scale) 0 ((s.rows id).tokens.take (s.rows id).computed))
      (((s.rows id).tokens.drop (s.rows id).computed).take (s.rows id).scheduled)).2 := by
    rw [hout, List.getElem?_map, hid]
    rfl
  have hsizes : outputs.map List.length = s.prefillIds.map fun id => (s.rows id).scheduled := by
    rw [hout, List.map_map]
    refine List.map_congr_left fun id _ => ?_
    exact (Scan.length_run _ _ _).trans (length_scheduledTokens (hi.row id))
  have hlen : (((s.rows id).tokens.drop (s.rows id).computed).take (s.rows id).scheduled).length
      = (s.rows id).scheduled := length_scheduledTokens (hi.row id)
  have hslice := slice_flatten hget (a := a - (s.rows id).computed)
    (b := b - (s.rows id).computed) (by
      rw [gatedDelta, Scan.length_run, hlen]
      omega)
  rw [hsizes] at hslice
  rw [hslice]
  exact slice_outputs exp scale _ ha hab hb

/-- **The states around a block**, as the table of the request names them after the step. -/
theorem CheckpointState.Inv.block_states {exp : R → R} {scale : R} {blockSize : Nat}
    (hbs : 0 < blockSize) {s : CheckpointState (RecurrentState R HV V K) (GdnToken R HV V K)}
    {stateCache' : Nat → RecurrentState R HV V K}
    (hi : s.Inv (gatedDeltaStep exp scale) 0 blockSize)
    (hi' : (s.advance blockSize stateCache').Inv (gatedDeltaStep exp scale) 0 blockSize) {id : Nat}
    (hid : id ∈ s.scheduledIds) {table : List Nat} (htable : (s.rows id).table <+: table) {t : Nat}
    (hpos : 0 < t) (hcomputed : (s.rows id).computed ≤ t * blockSize)
    (hend : (t + 1) * blockSize ≤ (s.rows id).computed + (s.rows id).scheduled) :
    stateCache' (table.getD (t - 1) NULL_BLOCK_ID)
        = stateAfter (gatedDeltaStep exp scale) 0 ((s.rows id).tokens.take (t * blockSize)) ∧
      stateCache' (table.getD t NULL_BLOCK_ID)
        = stateAfter (gatedDeltaStep exp scale) 0 ((s.rows id).tokens.take ((t + 1) * blockSize)) := by
  have hrow : (s.advance blockSize stateCache').rows id = (s.rows id).advance := if_pos hid
  have htable' : ((s.advance blockSize stateCache').rows id).table <+: table := by
    rw [hrow]
    exact htable
  have hreleased : ((s.advance blockSize stateCache').rows id).released ≤ t - 1 := by
    rw [hrow]
    have hlt : ((s.rows id).computed - 1) / blockSize < t := by
      rw [Nat.div_lt_iff_lt_mul hbs]
      have := Nat.mul_pos hpos hbs
      omega
    have hle : (s.rows id).released ≤ t - 1 := by
      have := (hi.row id).released_le
      omega
    exact hle
  have hend' : (t + 1) * blockSize ≤ ((s.advance blockSize stateCache').rows id).computed := by
    rw [hrow]
    exact hend
  have hpred : t - 1 + 1 = t := Nat.sub_add_cancel hpos
  have hbefore := hi'.tableState hbs htable' hreleased (by
    rw [hpred]
    exact (Nat.mul_le_mul_right _ (Nat.le_succ t)).trans hend')
  have hafter := hi'.tableState hbs htable' (hreleased.trans (Nat.sub_le t 1)) hend'
  rw [hrow, hpred] at hbefore
  rw [hrow] at hafter
  exact ⟨hbefore, hafter⟩

/-- **The shadow comparison compares the states of the block.**  In every run of clean steps, with a state block
as large as a block of the sidecar: a comparison that is made applies the operator that is resident under the
hash of its candidate to the state of its request after the tokens before the candidate block, and expects the
outputs of the block and the state after it; every other candidate is reported without a comparison. -/
theorem shadow_compares_block_states (exp : R → R) (scale : R) {blockSize : Nat}
    (hbs : 0 < blockSize) (stateCache : Nat → RecurrentState R HV V K) :
    ∀ s, ReachableWhen (checkpointStep (gatedDeltaStep exp scale) 0 blockSize)
        (CleanStep 0 blockSize) (CheckpointState.init stateCache) s → FreshSlotsZero 0 blockSize s →
      ∀ (C : Type) (measure : ShadowMeasure R HV V K C) numSlots sidecar checkpointRows reuseCandidates
        results sidecar' stateCache', sidecar.blockSize = blockSize →
        List.Forall₂ (fun id table => (s.rows id).table <+: table) s.prefillIds checkpointRows →
        gdnShadowForward exp scale measure numSlots blockSize sidecar s.stateCache s.batch
          checkpointRows reuseCandidates = .ok (results, sidecar', stateCache') →
        ∀ r ∈ results, (r.status ≠ .compared → r.comparison = none) ∧
          (r.status = .compared → ∃ i id t entry c,
            s.prefillIds[i]? = some id ∧
            r.sequenceIndex = i + (s.batch.filter fun row => row.isDecode).length ∧
            r.targetBlockIndex = ((t : Nat) : Int) ∧
            sidecar.resident r.sourceContextualHash = some entry ∧ r.comparison = some c ∧
            compareGdnAffineShadow measure
              (stateAfter (gatedDeltaStep exp scale) 0 ((s.rows id).tokens.take (t * blockSize)))
              entry
              (gatedDelta exp scale
                (stateAfter (gatedDeltaStep exp scale) 0 ((s.rows id).tokens.take (t * blockSize)))
                (slice (s.rows id).tokens (t * blockSize) ((t + 1) * blockSize))).2
              (stateAfter (gatedDeltaStep exp scale) 0
                ((s.rows id).tokens.take ((t + 1) * blockSize))) = .ok c) := by
  intro s hs hfresh C measure numSlots sidecar checkpointRows reuseCandidates results sidecar'
    stateCache' hsize htables h r hr
  have hi := CheckpointState.inv_of_reachable hbs s hs
  obtain ⟨hforward, hresults⟩ := gdnShadowForward_inv h
  -- the invariant after the step
  have hstep : checkpointStep (gatedDeltaStep exp scale) 0 blockSize s .forward
      = some (s.advance blockSize stateCache') := by
    rw [checkpointStep, hforward]
  have hi' := hi.preserved hbs (a := .forward) hfresh hstep
  rcases hresults with rfl | ⟨decoded, outputs, hdecoded, hprefill, hresults⟩
  · cases hr
  obtain ⟨candidate, -, hresult⟩ := exists_of_forall₂_mem hresults r hr
  refine ⟨hresult.none, ?_⟩
  intro hstatus
  obtain ⟨t, entry, c, htarget, hpos, hrow, hcomputed, hend, hentry, hcomparison, hc⟩ :=
    hresult.compared hstatus
  obtain ⟨i, target, hash⟩ := candidate
  dsimp only at htarget hrow hcomputed hend hentry hc
  rw [hsize] at hcomputed hend hc
  -- the row of the candidate is the one of a request
  have hi_lt : i < checkpointRows.length := by
    by_contra hge
    rw [List.getD_eq_default _ _ (by omega)] at hrow
    cases hrow
  have hid_lt : i < s.prefillIds.length := by
    rwa [htables.length_eq]
  obtain ⟨id, hid⟩ : ∃ id, s.prefillIds[i]? = some id := ⟨_, List.getElem?_eq_getElem hid_lt⟩
  have hget : s.prefillIds[i] = id := (List.getElem?_eq_some_iff.mp hid).2
  have hprefix := htables.get hid_lt hi_lt
  rw [List.get_eq_getElem, List.get_eq_getElem, hget] at hprefix
  have hsched : id ∈ s.scheduledIds := List.mem_of_mem_filter (List.mem_of_getElem? hid)
  have hlen_lt : i < (s.prefillIds.map fun id => (s.rows id).scheduled).length := by
    rwa [List.length_map]
  rw [List.getD_eq_getElem _ _ hi_lt] at hc
  rw [prefill_computed s hid] at hcomputed hc
  rw [prefill_computed s hid, hi.prefill_lengths, scanl_add_getD (Nat.le_of_lt hlen_lt),
    scanl_add_getD hlen_lt, List.sum_take_succ _ _ hlen_lt, List.getElem_map, hget] at hend
  have hfull : (t + 1) * blockSize ≤ (s.rows id).computed + (s.rows id).scheduled := by omega
  have hmul : t * blockSize ≤ (t + 1) * blockSize := Nat.mul_le_mul_right _ (Nat.le_succ t)
  -- what the comparison reads
  have hslice := hi.block_outputs hbs hfresh hdecoded hprefill hid hcomputed hmul hfull
  obtain ⟨hbefore, hafter⟩ := hi.block_states hbs hi' hsched hprefix hpos hcomputed hfull
  rw [hi.prefill_lengths, scanl_add_getD (Nat.le_of_lt hlen_lt), hslice, hbefore, hafter] at hc
  exact ⟨i, id, t, entry, c, hid, hresult.index, hresult.target.trans htarget,
    by rw [hresult.hash]; exact hentry, hcomparison, hc⟩

end

/-- Whether the outputs agree, and the final states. -/
def agreement : ShadowMeasure ℤ 1 1 1 (Bool × Bool) :=
  fun outputs referenceOutputs state referenceState =>
    (decide (outputs = referenceOutputs), decide (state = referenceState))

/-- A prompt of 128 tokens with state blocks of 64: its second block is compared with its own outputs and states,
and the operator of its tokens agrees with both. -/
theorem sample_block_compared : ∃ s, ReachableWhen (checkpointStep (gatedDeltaStep id 1) 0 64)
      (CleanStep 0 64) (CheckpointState.init fun _ => (0 : RecurrentState ℤ 1 1 1)) s ∧
    ∃ results sidecar stateCache, gdnShadowForward id 1 agreement 8 64
        (sampleBlockSidecar ((s.rows 0).tokens.take 128)) s.stateCache s.batch [[1, 2, 0, 0]]
        [[(1, [9])]] = .ok (results, sidecar, stateCache) ∧
      ∃ r ∈ results, r.comparison = some (true, true) ∧ ∃ entry,
        (sampleBlockSidecar ((s.rows 0).tokens.take 128)).resident r.sourceContextualHash = some entry ∧
        compareGdnAffineShadow agreement
          (stateAfter (gatedDeltaStep id 1) 0 ((s.rows 0).tokens.take 64)) entry
          (gatedDelta id 1 (stateAfter (gatedDeltaStep id 1) 0 ((s.rows 0).tokens.take 64))
            (slice (s.rows 0).tokens 64 128)).2
          (stateAfter (gatedDeltaStep id 1) 0 ((s.rows 0).tokens.take 128)) = .ok (true, true) := by
  obtain ⟨s, hs, hP⟩ := exists_reachableWhen (checkpointStep (gatedDeltaStep id 1) 0 64)
    (CleanStep 0 64) (CheckpointState.init fun _ => (0 : RecurrentState ℤ 1 1 1))
    [.arrive 0 none (List.replicate 128 (sampleToken 1)), .allocate 0 128 [1, 2]]
    (fun s => (s.rows 0).table == [1, 2] && s.prefillIds == [0] && decide (FreshSlotsZero 0 64 s) &&
      match gdnShadowForward id 1 agreement 8 64
        (sampleBlockSidecar ((s.rows 0).tokens.take 128)) s.stateCache s.batch [[1, 2, 0, 0]]
        [[(1, [9])]] with
      | .ok (results, _) => results.map (fun r => (r.status, r.targetBlockIndex, r.comparison))
          == [(.compared, 1, some (true, true))]
      | .error _ => false)
    (by decide +kernel)
  simp only [Bool.and_eq_true, beq_iff_eq, decide_eq_true_eq] at hP
  obtain ⟨⟨⟨htable, hids⟩, hfresh⟩, hresults⟩ := hP
  refine ⟨s, hs, ?_⟩
  split at hresults
  · next results out hforward =>
    obtain ⟨sidecar, stateCache⟩ := out
    refine ⟨results, sidecar, stateCache, hforward, ?_⟩
    rw [beq_iff_eq, List.map_eq_singleton_iff] at hresults
    obtain ⟨r, rfl, hr⟩ := hresults
    obtain ⟨hstatus, hr⟩ := Prod.mk.inj hr
    obtain ⟨htarget, hagrees⟩ := Prod.mk.inj hr
    obtain ⟨-, hcompared⟩ := shadow_compares_block_states id 1 (by decide) _ s hs hfresh (Bool × Bool)
      agreement 8 _ [[1, 2, 0, 0]] [[(1, [9])]] _ sidecar stateCache rfl
      (by rw [hids]; exact .cons (by rw [htable]; exact ⟨[0, 0], rfl⟩) .nil) hforward r
      List.mem_cons_self
    obtain ⟨i, id, t, entry, c, hid, -, ht, hentry, hc, hok⟩ := hcompared hstatus
    rw [hids] at hid
    obtain rfl : 0 = id := List.mem_singleton.mp (List.mem_of_getElem? hid) |>.symm
    obtain rfl : t = 1 := by
      rw [htarget] at ht
      omega
    obtain rfl : (true, true) = c := Option.some.inj (hagrees.symm.trans hc)
    exact ⟨r, List.mem_cons_self, hagrees, entry, hentry, hok⟩
  · cases hresults

/-- The entry of the final state that a comparison expects. -/
def expectedState : ShadowMeasure ℤ 1 1 1 ℤ :=
  fun _ _ _ reference => reference (Fin.last 0) (Fin.last 0) (Fin.last 0)

/-- The same prompt with state blocks of 128: the second block of 64 is compared all the same, and the state
it expects is what the slot of the second state block holds, which the request does not have. -/
theorem shadow_reads_other_block : ∃ s,
    ReachableWhen (checkpointStep (gatedDeltaStep id 1) 0 128) (CleanStep 0 128)
      (CheckpointState.init fun _ => (0 : RecurrentState ℤ 1 1 1)) s ∧ FreshSlotsZero 0 128 s ∧
    ∃ results sidecar stateCache, gdnShadowForward id 1 expectedState 8 128
        (sampleBlockSidecar ((s.rows 0).tokens.take 128)) s.stateCache s.batch [[1, 0, 0, 0]]
        [[(1, [9])]] = .ok (results, sidecar, stateCache) ∧
      ∃ r ∈ results, r.status = .compared ∧ r.sequenceIndex = 0 ∧ r.targetBlockIndex = 1 ∧
        ∀ entry outputs c, compareGdnAffineShadow expectedState
          (stateAfter (gatedDeltaStep id 1) 0 ((s.rows 0).tokens.take 64)) entry outputs
          (stateAfter (gatedDeltaStep id 1) 0 ((s.rows 0).tokens.take 128)) = .ok c →
          r.comparison ≠ some c := by
  obtain ⟨s, hs, hP⟩ := exists_reachableWhen (checkpointStep (gatedDeltaStep id 1) 0 128)
    (CleanStep 0 128) (CheckpointState.init fun _ => (0 : RecurrentState ℤ 1 1 1))
    [.arrive 0 none (List.replicate 128 (sampleToken 1)), .allocate 0 128 [1]]
    (fun s => decide (FreshSlotsZero 0 128 s) &&
      decide (stateAfter (gatedDeltaStep id 1) 0 ((s.rows 0).tokens.take 128) 0 0 0 = 2) &&
      match gdnShadowForward id 1 expectedState 8 128
        (sampleBlockSidecar ((s.rows 0).tokens.take 128)) s.stateCache s.batch [[1, 0, 0, 0]]
        [[(1, [9])]] with
      | .ok (results, _) => results.map (fun r =>
          (r.status, r.sequenceIndex, r.targetBlockIndex, r.comparison)) == [(.compared, 0, 1, some 0)]
      | .error _ => false)
    (by decide +kernel)
  simp only [Bool.and_eq_true, decide_eq_true_eq] at hP
  obtain ⟨⟨hfresh, hstate⟩, hresults⟩ := hP
  refine ⟨s, hs, hfresh, ?_⟩
  split at hresults
  · next results out hforward =>
    obtain ⟨sidecar, stateCache⟩ := out
    refine ⟨results, sidecar, stateCache, hforward, ?_⟩
    rw [beq_iff_eq, List.map_eq_singleton_iff] at hresults
    obtain ⟨r, rfl, hr⟩ := hresults
    obtain ⟨hstatus, hr⟩ := Prod.mk.inj hr
    obtain ⟨hindex, hr⟩ := Prod.mk.inj hr
    obtain ⟨htarget, hcomparison⟩ := Prod.mk.inj hr
    refine ⟨r, List.mem_cons_self, hstatus, hindex, htarget, ?_⟩
    intro entry outputs c hc heq
    obtain ⟨approximate, -, hc⟩ := Except.bind_eq_ok.mp hc
    dsimp only at hc
    split at hc
    · cases hc
    · -- the expected state is 2 and the comparison used 0
      obtain rfl : stateAfter (gatedDeltaStep id 1) 0 ((s.rows 0).tokens.take 128) 0 0 0 = c :=
        Except.ok.inj hc
      rw [hstate, hcomparison] at heq
      cases heq
  · cases hresults

end CacheSelect.Gdn

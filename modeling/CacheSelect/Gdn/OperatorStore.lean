import CacheSelect.Gdn.Sidecar
import CacheSelect.Lib.Segments

/-! # Storing the operators of a prefill

After a prefill a layer builds the operator of every hashed prompt block that the step computed as a whole,
and stores it under the block's contextual hash.  The coefficient tensors of all requests are flattened, so
a block's rows are found from the start of its request in the batch, the computed prefix, and the block grid.

`storeCompletedGdnDeltaOperators` is the pass over a batch.  A store that raises would leave the stores
before it behind; the model gives the sidecar only of a pass that returns, and `storeBatch_spec` says that
the pass returns for every batch of requests with well-shaped rows.  `stores_complete_blocks` follows a
sidecar through any passes of its layer, and a prompt through its chunks.
-/

namespace CacheSelect.Gdn

open CacheSelect.Core Segments

variable {R : Type} {HV V K H : Nat}

/-! ### The pass -/

/-- The rows of a range of tokens. -/
def GdnCoefficients.slice (c : GdnCoefficients R HV V K H) (start stop : Nat) :
    GdnCoefficients R HV V K H where
  keys := Segments.slice c.keys start stop
  queries := Segments.slice c.queries start stop
  values := Segments.slice c.values start stop
  logDecays := Segments.slice c.logDecays start stop
  betas := Segments.slice c.betas start stop

/-- A sequence of the flattened batch. -/
structure PackedSequence where
  index : Nat
  queryStart : Nat
  queryEnd : Nat
  computed : Nat
  hashes : List ContextualHash

def packedSequences (queryStarts computedCounts : List Nat)
    (contextualBlockHashes : List (List ContextualHash)) : List PackedSequence :=
  (List.range (queryStarts.length - 1)).map fun i =>
    { index := i
      queryStart := queryStarts.getD i 0
      queryEnd := queryStarts.getD (i + 1) 0
      computed := computedCounts.getD i 0
      hashes := contextualBlockHashes.getD i [] }

section

variable [CommRing R] (exp : R → R) (scale : R)

/-- One block of a sequence, with the sidecar and the pairs stored so far. -/
def storeBlock (c : GdnCoefficients R HV V K H) (q : PackedSequence)
    (acc : GdnDeltaOperatorSidecar R HV V K × List (Nat × Nat)) (blockIndex : Nat) :
    Except PyError (GdnDeltaOperatorSidecar R HV V K × List (Nat × Nat)) :=
  match q.hashes[blockIndex]? with
  | none => .ok acc -- generated tokens complete blocks that are not in the prompt hashes
  | some blockHash =>
      let localStart : Int := (blockIndex * acc.1.blockSize : Nat) - q.computed
      let localEnd := localStart + acc.1.blockSize
      if localStart < 0 ∨ ((q.queryEnd - q.queryStart : Nat) : Int) < localEnd then .ok acc
      else do
        let operator ← buildGdnAffineOperator exp scale
          (c.slice (q.queryStart + localStart).toNat (q.queryStart + localEnd).toNat)
        let (_, sidecar) ← acc.1.store blockHash operator
        .ok (sidecar, acc.2 ++ [(q.index, blockIndex)])

/-- The blocks of one sequence. -/
def storeSequence (c : GdnCoefficients R HV V K H)
    (acc : GdnDeltaOperatorSidecar R HV V K × List (Nat × Nat)) (q : PackedSequence) :
    Except PyError (GdnDeltaOperatorSidecar R HV V K × List (Nat × Nat)) :=
  let firstCompleteBlock := (q.computed + acc.1.blockSize - 1) / acc.1.blockSize
  let finalCompleteBlock := (q.computed + (q.queryEnd - q.queryStart)) / acc.1.blockSize
  (List.range' firstCompleteBlock (finalCompleteBlock - firstCompleteBlock)).foldlM
    (storeBlock exp scale c q) acc

/-- `store_completed_gdn_delta_operators`: the sidecar after the pass, and the stored pairs of a
sequence and a block. -/
def storeCompletedGdnDeltaOperators (sidecar : GdnDeltaOperatorSidecar R HV V K)
    (c : GdnCoefficients R HV V K H) (queryStarts computedCounts : List Nat)
    (contextualBlockHashes : List (List ContextualHash)) :
    Except PyError (GdnDeltaOperatorSidecar R HV V K × List (Nat × Nat)) :=
  if c.queries.length ≠ c.keys.length then
    .error (.valueError "keys and queries must have matching [T,H,K] shapes")
  else if c.betas.length ≠ c.logDecays.length then
    .error (.valueError "log_decays and betas must have matching [T,HV] shapes")
  else if c.keys.length ≠ c.logDecays.length then
    .error (.valueError "token coefficient tensors must have the same length")
  else if c.values.length ≠ c.logDecays.length then
    .error (.valueError "values must have shape [T,HV,V]")
  else if computedCounts.length + 1 ≠ queryStarts.length then
    .error (.valueError "num_computed_tokens must contain one value per sequence")
  else if contextualBlockHashes.length + 1 ≠ queryStarts.length then
    .error (.valueError "contextual hashes must contain one tuple per sequence")
  else if queryStarts.head? ≠ some 0 ∨ queryStarts.getLast? ≠ some c.keys.length then
    .error (.valueError "query starts must span the flattened coefficient tensors")
  else
    (packedSequences queryStarts computedCounts contextualBlockHashes).foldlM
      (storeSequence exp scale c) (sidecar, [])

/-! ### Batches -/

variable (R HV V K H) in
/-- A request of a batch: its computed tokens, the rows of its scheduled tokens and the contextual hashes of
its prompt. -/
structure ScheduledRows where
  computed : Nat
  rows : GdnCoefficients R HV V K H
  hashes : List ContextualHash

/-- The number of scheduled tokens. -/
def ScheduledRows.scheduled (q : ScheduledRows R HV V K H) : Nat :=
  q.rows.keys.length

/-- The flattened tensors of a batch. -/
def packRows (batch : List (ScheduledRows R HV V K H)) : GdnCoefficients R HV V K H where
  keys := (batch.map fun q => q.rows.keys).flatten
  queries := (batch.map fun q => q.rows.queries).flatten
  values := (batch.map fun q => q.rows.values).flatten
  logDecays := (batch.map fun q => q.rows.logDecays).flatten
  betas := (batch.map fun q => q.rows.betas).flatten

/-- The call that a layer makes for a batch. -/
def storeBatch (sidecar : GdnDeltaOperatorSidecar R HV V K)
    (batch : List (ScheduledRows R HV V K H)) :
    Except PyError (GdnDeltaOperatorSidecar R HV V K × List (Nat × Nat)) :=
  storeCompletedGdnDeltaOperators exp scale sidecar (packRows batch)
    ((batch.map ScheduledRows.scheduled).scanl (· + ·) 0) (batch.map ScheduledRows.computed)
    (batch.map ScheduledRows.hashes)

end

/-- A block is a hashed prompt block that a request's scheduled interval covers as a whole. -/
structure Covers (blockSize : Nat) (q : ScheduledRows R HV V K H) (b : Nat) : Prop where
  hashed : b < q.hashes.length
  start : q.computed ≤ b * blockSize
  stop : (b + 1) * blockSize ≤ q.computed + q.scheduled

instance (blockSize : Nat) (q : ScheduledRows R HV V K H) (b : Nat) :
    Decidable (Covers blockSize q b) :=
  decidable_of_iff (b < q.hashes.length ∧ q.computed ≤ b * blockSize ∧
    (b + 1) * blockSize ≤ q.computed + q.scheduled)
    ⟨fun h => ⟨h.1, h.2.1, h.2.2⟩, fun h => ⟨h.hashed, h.start, h.stop⟩⟩

/-- The rows of a request whose tensors agree in length, with digests for its prompt blocks. -/
structure ScheduledRows.WellFormed (q : ScheduledRows R HV V K H) : Prop where
  rows : q.rows.WellShaped
  hashes : ∀ h ∈ q.hashes, h ≠ []

/-! ### Stored blocks -/

variable (R HV V K) in
/-- A store of a pass: the request and the index of the block, and what is stored. -/
structure StoredBlock where
  request : Nat
  block : Nat
  blockHash : ContextualHash
  operator : GdnAffineOperator R HV V K

/-- The pair that the pass returns. -/
def StoredBlock.place (x : StoredBlock R HV V K) : Nat × Nat :=
  (x.request, x.block)

def StoredBlock.call (x : StoredBlock R HV V K) : GdnDeltaOperatorSidecar.Call R HV V K :=
  .store x.blockHash x.operator

section

variable [CommRing R] (exp : R → R) (scale : R) (blockSize : Nat)

/-- A store of a batch: the block is one that the scheduled interval of its request covers, the hash is the
one of the block, and the operator is built from the rows of the block. -/
structure StoredBlock.OfRequest (q : ScheduledRows R HV V K H) (x : StoredBlock R HV V K) : Prop where
  covers : Covers blockSize q x.block
  hash : q.hashes[x.block]? = some x.blockHash
  operator : buildGdnAffineOperator exp scale
    (q.rows.slice (x.block * blockSize - q.computed) ((x.block + 1) * blockSize - q.computed))
      = .ok x.operator
  accepted : GdnDeltaOperatorSidecar.Accepts blockSize x.blockHash x.operator

/-- The stores of a batch: each block that a request covers once, and no others. -/
structure StoresOf (batch : List (ScheduledRows R HV V K H)) (xs : List (StoredBlock R HV V K)) :
    Prop where
  nodup : (xs.map StoredBlock.place).Nodup
  covered : ∀ i q b, batch[i]? = some q → Covers blockSize q b → (i, b) ∈ xs.map StoredBlock.place
  ofBatch : ∀ x ∈ xs, ∃ q, batch[x.request]? = some q ∧ x.OfRequest exp scale blockSize q

end

/-! ### Rows -/

theorem GdnCoefficients.WellShaped.slice {c : GdnCoefficients R HV V K H} (hc : c.WellShaped)
    {a b : Nat} (hb : b ≤ c.keys.length) : (c.slice a b).WellShaped where
  queries_length := by
    simp only [GdnCoefficients.slice]
    rw [length_slice _ hb, length_slice _ (by rw [hc.queries_length]; exact hb)]
  values_length := by
    simp only [GdnCoefficients.slice]
    rw [length_slice _ hb, length_slice _ (by rw [hc.values_length]; exact hb)]
  logDecays_length := by
    simp only [GdnCoefficients.slice]
    rw [length_slice _ hb, length_slice _ (by rw [hc.logDecays_length]; exact hb)]
  betas_length := by
    simp only [GdnCoefficients.slice]
    rw [length_slice _ hb, length_slice _ (by rw [hc.betas_length]; exact hb)]
  keyHeads_pos := hc.keyHeads_pos
  grouped := hc.grouped

theorem GdnCoefficients.slice_slice (c : GdnCoefficients R HV V K H) {a b u v : Nat}
    (h : a + v ≤ b) : (c.slice a b).slice u v = c.slice (a + u) (a + v) := by
  simp only [GdnCoefficients.slice, Segments.slice_slice _ h]

variable {batch : List (ScheduledRows R HV V K H)}

/-- The lengths of the tensors of well-formed requests. -/
theorem map_length_eq {α : Type} {f : ScheduledRows R HV V K H → List α}
    (hf : ∀ q ∈ batch, (f q).length = q.scheduled) :
    (batch.map f).map List.length = batch.map ScheduledRows.scheduled := by
  rw [List.map_map]
  exact List.map_congr_left hf

theorem length_flatten_map {α : Type} {f : ScheduledRows R HV V K H → List α}
    (hf : ∀ q ∈ batch, (f q).length = q.scheduled) :
    (batch.map f).flatten.length = (batch.map ScheduledRows.scheduled).sum := by
  rw [List.length_flatten, map_length_eq hf]

/-- The start of a request in the flattened batch. -/
def queryStartOf (batch : List (ScheduledRows R HV V K H)) (i : Nat) : Nat :=
  ((batch.map ScheduledRows.scheduled).take i).sum

/-- The rows of a request in one flattened tensor. -/
theorem slice_flatten_map {α : Type} {f : ScheduledRows R HV V K H → List α}
    (hf : ∀ q ∈ batch, (f q).length = q.scheduled) {i : Nat} {q : ScheduledRows R HV V K H}
    (hq : batch[i]? = some q) {a b : Nat} (hb : b ≤ q.scheduled) :
    Segments.slice (batch.map f).flatten (queryStartOf batch i + a) (queryStartOf batch i + b)
      = Segments.slice (f q) a b := by
  rw [queryStartOf, ← map_length_eq hf]
  refine slice_flatten ?_ ?_
  · rw [List.getElem?_map, hq, Option.map_some]
  · rw [hf q (List.mem_of_getElem? hq)]
    exact hb

/-- **The rows of a request in the flattened batch are its own.** -/
theorem slice_packRows (hwf : ∀ q ∈ batch, q.WellFormed) {i : Nat} {q : ScheduledRows R HV V K H}
    (hq : batch[i]? = some q) {a b : Nat} (hb : b ≤ q.scheduled) :
    (packRows batch).slice (queryStartOf batch i + a) (queryStartOf batch i + b)
      = q.rows.slice a b := by
  simp only [GdnCoefficients.slice, packRows]
  rw [slice_flatten_map (fun q _ => rfl) hq hb,
    slice_flatten_map (fun q h => (hwf q h).rows.queries_length) hq hb,
    slice_flatten_map (fun q h => (hwf q h).rows.values_length) hq hb,
    slice_flatten_map (fun q h => (hwf q h).rows.logDecays_length) hq hb,
    slice_flatten_map (fun q h => (hwf q h).rows.betas_length) hq hb]

/-! ### Sequences -/

variable {blockSize : Nat} {c : GdnCoefficients R HV V K H} {q : ScheduledRows R HV V K H}
  {i : Nat} {p : PackedSequence}

/-- The sequence of a request in the flattened tensors. -/
structure PackedSequence.Holds (c : GdnCoefficients R HV V K H) (q : ScheduledRows R HV V K H)
    (i : Nat) (p : PackedSequence) : Prop where
  index : p.index = i
  queryEnd : p.queryEnd = p.queryStart + q.scheduled
  computed : p.computed = q.computed
  hashes : p.hashes = q.hashes
  rows : ∀ a b, b ≤ q.scheduled → c.slice (p.queryStart + a) (p.queryStart + b) = q.rows.slice a b

/-- The sequence of each request of a batch. -/
def sequenceAt (batch : List (ScheduledRows R HV V K H)) (i : Nat) : PackedSequence where
  index := i
  queryStart := ((batch.map ScheduledRows.scheduled).scanl (· + ·) 0).getD i 0
  queryEnd := ((batch.map ScheduledRows.scheduled).scanl (· + ·) 0).getD (i + 1) 0
  computed := (batch.map ScheduledRows.computed).getD i 0
  hashes := (batch.map ScheduledRows.hashes).getD i []

theorem sequenceAt_holds (hwf : ∀ q ∈ batch, q.WellFormed) (hq : batch[i]? = some q) :
    (sequenceAt batch i).Holds (packRows batch) q i := by
  have hi : i < batch.length := (List.getElem?_eq_some_iff.mp hq).1
  have hstart : (sequenceAt batch i).queryStart = queryStartOf batch i := by
    rw [sequenceAt, queryStartOf, scanl_add_getD (by rw [List.length_map]; omega)]
  have hget : ∀ {α : Type} (f : ScheduledRows R HV V K H → α) (d : α),
      (batch.map f).getD i d = f q := by
    intro α f d
    rw [List.getD_eq_getElem?_getD, List.getElem?_map, hq, Option.map_some, Option.getD_some]
  refine ⟨rfl, ?_, hget _ _, hget _ _, ?_⟩
  · rw [hstart, queryStartOf]
    change ((batch.map ScheduledRows.scheduled).scanl (· + ·) 0).getD (i + 1) 0 = _
    rw [scanl_add_getD (by rw [List.length_map]; omega), List.take_add_one, List.sum_append,
      List.getElem?_map, hq]
    rfl
  · intro a b hb
    rw [hstart]
    exact slice_packRows hwf hq hb

/-- The blocks that the pass looks at for a request. -/
def blocksOf (blockSize : Nat) (q : ScheduledRows R HV V K H) : List Nat :=
  let first := (q.computed + blockSize - 1) / blockSize
  List.range' first ((q.computed + q.scheduled) / blockSize - first)

/-- They are enough. -/
theorem mem_blocksOf (hbs : 0 < blockSize) {b : Nat} (hc : Covers blockSize q b) :
    b ∈ blocksOf blockSize q := by
  have hfirst : (q.computed + blockSize - 1) / blockSize ≤ b := by
    rw [← Nat.lt_succ_iff, Nat.div_lt_iff_lt_mul hbs, Nat.succ_eq_add_one, Nat.add_mul]
    have := hc.start
    omega
  have hlast : b + 1 ≤ (q.computed + q.scheduled) / blockSize :=
    (Nat.le_div_iff_mul_le hbs).mpr hc.stop
  rw [blocksOf, List.mem_range'_1]
  omega

/-- The pairs that a pass returns for some requests of its batch. -/
def placesOf (blockSize : Nat) (batch : List (ScheduledRows R HV V K H)) (is : List Nat) :
    List (Nat × Nat) :=
  is.flatMap fun i => match batch[i]? with
    | none => []
    | some q => ((blocksOf blockSize q).filter fun b => Covers blockSize q b).map (Prod.mk i)

theorem mem_placesOf {is : List Nat} {b : Nat} : (i, b) ∈ placesOf blockSize batch is ↔
    i ∈ is ∧ ∃ q, batch[i]? = some q ∧ b ∈ blocksOf blockSize q ∧ Covers blockSize q b := by
  rw [placesOf, List.mem_flatMap]
  constructor
  · rintro ⟨j, hj, h⟩
    cases hq : batch[j]? with
    | none =>
        rw [hq] at h
        cases h
    | some q =>
        rw [hq] at h
        obtain ⟨b', hb', heq⟩ := List.mem_map.mp h
        cases heq
        rw [List.mem_filter, decide_eq_true_eq] at hb'
        exact ⟨hj, q, hq, hb'⟩
  · rintro ⟨hi, q, hq, hb⟩
    refine ⟨i, hi, ?_⟩
    rw [hq]
    refine List.mem_map.mpr ⟨b, ?_, rfl⟩
    rw [List.mem_filter, decide_eq_true_eq]
    exact hb

theorem nodup_placesOf (batch : List (ScheduledRows R HV V K H)) :
    (placesOf blockSize batch (List.range batch.length)).Nodup := by
  rw [placesOf, List.nodup_flatMap]
  refine ⟨?_, ?_⟩
  · intro i _
    cases batch[i]? with
    | none => exact List.nodup_nil
    | some q =>
        refine List.Nodup.map (Prod.mk_right_injective i) (List.Nodup.filter _ ?_)
        exact List.nodup_range'
  · refine List.nodup_range.imp ?_
    intro i j hij x hx hy
    have hfst : ∀ {k : Nat}, (x ∈ match batch[k]? with
        | none => []
        | some q => ((blocksOf blockSize q).filter fun b => Covers blockSize q b).map (Prod.mk k)) →
        x.1 = k := by
      intro k h
      cases hq : batch[k]? with
      | none =>
          rw [hq] at h
          cases h
      | some q =>
          rw [hq] at h
          obtain ⟨b, -, rfl⟩ := List.mem_map.mp h
          rfl
    exact hij ((hfst hx).symm.trans (hfst hy))

/-! ### Passes -/

variable (R HV V K H) in
/-- A forward pass of a layer: the calls on the sidecar since the pass before it, and its batch. -/
structure Pass where
  calls : List (GdnDeltaOperatorSidecar.Call R HV V K)
  batch : List (ScheduledRows R HV V K H)

/-- The passes of a layer, with the pairs that each returns. -/
def runPasses [CommRing R] (exp : R → R) (scale : R) (s : GdnDeltaOperatorSidecar R HV V K) :
    List (Pass R HV V K H) →
      Except PyError (GdnDeltaOperatorSidecar R HV V K × List (List (Nat × Nat)))
  | [] => .ok (s, [])
  | pass :: passes => do
      let (s, stored) ← storeBatch exp scale (s.run pass.calls) pass.batch
      let (s, rest) ← runPasses exp scale s passes
      .ok (s, stored :: rest)

/-- The calls on the sidecar in a run of passes, given the stores of each. -/
def callsOf (passes : List (Pass R HV V K H)) (xss : List (List (StoredBlock R HV V K))) :
    List (GdnDeltaOperatorSidecar.Call R HV V K) :=
  (List.zipWith (fun pass xs => pass.calls ++ xs.map StoredBlock.call) passes xss).flatten

/-- The request that schedules a chunk of a prompt, given the lengths of the chunks. -/
def chunkRequest (prompt : GdnCoefficients R HV V K H) (hashes : List ContextualHash) (start : Nat)
    (lens : List Nat) (j : Nat) : ScheduledRows R HV V K H where
  computed := start + (lens.take j).sum
  rows := prompt.slice (start + (lens.take j).sum) (start + (lens.take (j + 1)).sum)
  hashes := hashes

/-- A run prefills a prompt in chunks from a computed prefix on: each chunk is a request of a pass. -/
structure Chunked (passes : List (Pass R HV V K H)) (prompt : GdnCoefficients R HV V K H)
    (hashes : List ContextualHash) (start : Nat) (lens : List Nat) (places : List (Nat × Nat)) :
    Prop where
  bound : start + lens.sum ≤ prompt.keys.length
  scheduled : ∀ (j p i : Nat), places[j]? = some (p, i) → ∃ pass, passes[p]? = some pass ∧
    pass.batch[i]? = some (chunkRequest prompt hashes start lens j)

/-- A store of a pass for one of its requests. -/
def StoredAt (xss : List (List (StoredBlock R HV V K))) (p i : Nat) (x : StoredBlock R HV V K) : Prop :=
  ∃ xs, xss[p]? = some xs ∧ x ∈ xs ∧ x.request = i

variable {prompt : GdnCoefficients R HV V K H}
  {hashes : List ContextualHash} {start : Nat} {lens : List Nat}

/-- The request of a chunk covers the blocks that lie in the chunk. -/
theorem covers_chunkRequest (hbound : start + lens.sum ≤ prompt.keys.length) {j b : Nat} :
    Covers blockSize (chunkRequest prompt hashes start lens j) b ↔ b < hashes.length ∧
      start + (lens.take j).sum ≤ b * blockSize ∧
      (b + 1) * blockSize ≤ start + (lens.take (j + 1)).sum := by
  have hle : (lens.take j).sum ≤ (lens.take (j + 1)).sum := sum_take_le_sum_take lens (Nat.le_succ j)
  have hsum : (lens.take (j + 1)).sum ≤ lens.sum := by
    have := sum_take_le_sum_take lens (Nat.le_add_right (j + 1) lens.length)
    rwa [List.take_of_length_le (Nat.le_add_left _ _)] at this
  have hlen : (chunkRequest prompt hashes start lens j).scheduled
      = (lens.take (j + 1)).sum - (lens.take j).sum := by
    rw [ScheduledRows.scheduled, chunkRequest, GdnCoefficients.slice, length_slice _ (by omega)]
    omega
  have hcomputed : (chunkRequest prompt hashes start lens j).computed
      = start + (lens.take j).sum := rfl
  constructor
  · intro hc
    have hstop := hc.stop
    refine ⟨hc.hashed, hc.start, ?_⟩
    rw [hlen, hcomputed] at hstop
    omega
  · rintro ⟨hhash, hstart, hstop⟩
    refine ⟨hhash, hstart, ?_⟩
    rw [hlen, hcomputed]
    omega

/-! ### One block -/

/-- A sidecar that accepts operators of a block size. -/
structure Ready (blockSize : Nat) (s : GdnDeltaOperatorSidecar R HV V K) : Prop where
  capacity : 0 < s.capacity
  represents : ∃ spec, GdnDeltaOperatorSidecar.Represents s.capacity blockSize s spec

theorem Ready.after {s : GdnDeltaOperatorSidecar R HV V K} (hs : Ready blockSize s)
    (call : GdnDeltaOperatorSidecar.Call R HV V K) : Ready blockSize (s.after call) := by
  obtain ⟨hcap, spec, hr⟩ := hs
  have hr' := hr.after hcap call
  have hcap' : (s.after call).capacity = s.capacity := hr'.capacity_eq
  refine ⟨?_, GdnDeltaOperatorSidecar.specAfter s.capacity blockSize spec call, ?_⟩
  · rw [hcap']
    exact hcap
  · rw [hcap']
    exact hr'

/-- The run lemma of `Ready.after`. -/
theorem Ready.run : ∀ (calls : List (GdnDeltaOperatorSidecar.Call R HV V K))
    {s : GdnDeltaOperatorSidecar R HV V K}, Ready blockSize s → Ready blockSize (s.run calls) := by
  intro calls
  induction calls with
  | nil => intro s hs; exact hs
  | cons call calls ih => intro s hs; exact ih (hs.after call)

theorem Ready.blockSize_eq {s : GdnDeltaOperatorSidecar R HV V K} (hs : Ready blockSize s) :
    s.blockSize = blockSize := by
  obtain ⟨-, spec, hr⟩ := hs
  exact hr.blockSize_eq

theorem Ready.store {s : GdnDeltaOperatorSidecar R HV V K} (hs : Ready blockSize s)
    {h : ContextualHash} {operator : GdnAffineOperator R HV V K}
    (hacc : GdnDeltaOperatorSidecar.Accepts blockSize h operator) :
    ∃ slot, s.store h operator = .ok (slot, s.after (.store h operator)) := by
  obtain ⟨hcap, spec, hr⟩ := hs
  rw [← hr.blockSize_eq] at hacc
  obtain ⟨slot, s', hstore, -⟩ := GdnDeltaOperatorSidecar.store_spec hr.wf hcap hacc
  refine ⟨slot, ?_⟩
  rw [GdnDeltaOperatorSidecar.after, hstore]

section

variable [CommRing R] (exp : R → R) (scale : R)

/-- The operator of the rows of one block is accepted. -/
theorem exists_operator {q : ScheduledRows R HV V K H} (hq : q.WellFormed) {b : Nat}
    (hc : Covers blockSize q b) : ∃ blockHash operator, q.hashes[b]? = some blockHash ∧
      buildGdnAffineOperator exp scale
        (q.rows.slice (b * blockSize - q.computed) ((b + 1) * blockSize - q.computed))
          = .ok operator ∧
      GdnDeltaOperatorSidecar.Accepts blockSize blockHash operator := by
  have hstart := hc.start
  have hstop := hc.stop
  have hle : (b + 1) * blockSize - q.computed ≤ q.rows.keys.length := by
    change _ ≤ q.scheduled
    omega
  have hshape := hq.rows.slice (a := b * blockSize - q.computed) hle
  have hlen : (q.rows.slice (b * blockSize - q.computed)
      ((b + 1) * blockSize - q.computed)).keys.length = blockSize := by
    simp only [GdnCoefficients.slice]
    rw [length_slice _ hle]
    rw [Nat.add_mul, Nat.one_mul]
    omega
  have hb := hc.hashed
  refine ⟨q.hashes[b], _, List.getElem?_eq_getElem hb,
    buildGdnAffineOperator_ok exp scale hshape, ?_, ?_, ?_⟩
  · exact hq.hashes _ (List.getElem_mem hb)
  · rw [operatorOf, Scan.length_run, List.length_map, GdnCoefficients.length_tokens, hlen]
  · rw [operatorOf, Scan.length_run, GdnCoefficients.length_tokens, hlen]

/-- A block that the request covers is stored. -/
theorem storeBlock_of_covers (hp : p.Holds c q i) (hq : q.WellFormed)
    {s : GdnDeltaOperatorSidecar R HV V K} (hs : Ready blockSize s) (stored : List (Nat × Nat))
    {b : Nat} (hc : Covers blockSize q b) :
    ∃ x : StoredBlock R HV V K, x.place = (i, b) ∧ x.OfRequest exp scale blockSize q ∧
      storeBlock exp scale c p (s, stored) b = .ok (s.after x.call, stored ++ [(i, b)]) := by
  obtain ⟨blockHash, operator, hhash, hop, hacc⟩ := exists_operator exp scale hq hc
  obtain ⟨slot, hstore⟩ := hs.store hacc
  refine ⟨⟨i, b, blockHash, operator⟩, rfl, ⟨hc, hhash, hop, hacc⟩, ?_⟩
  have hstart := hc.start
  have hstop := hc.stop
  have hmul : (b + 1) * blockSize = b * blockSize + blockSize := by rw [Nat.add_mul, Nat.one_mul]
  have hend := hp.queryEnd
  have hslice : c.slice
      ((p.queryStart : Int) + ((b * blockSize : Nat) - (q.computed : Int))).toNat
      ((p.queryStart : Int) + ((b * blockSize : Nat) - (q.computed : Int) + blockSize)).toNat
      = q.rows.slice (b * blockSize - q.computed) ((b + 1) * blockSize - q.computed) := by
    rw [← hp.rows _ _ (by omega)]
    congr 1
    · omega
    · omega
  simp only [storeBlock, hp.hashes, hhash, hs.blockSize_eq, hp.computed, hslice, hop]
  rw [if_neg (by omega)]
  change (do let (_, sidecar) ← s.store blockHash operator; _) = _
  rw [hstore, hp.index]
  rfl

/-- Every other block is left out. -/
theorem storeBlock_of_not_covers (hp : p.Holds c q i) {s : GdnDeltaOperatorSidecar R HV V K}
    (hs : Ready blockSize s) (stored : List (Nat × Nat)) {b : Nat}
    (hc : ¬ Covers blockSize q b) :
    storeBlock exp scale c p (s, stored) b = .ok (s, stored) := by
  rw [storeBlock]
  cases hhash : p.hashes[b]? with
  | none => rfl
  | some blockHash =>
      have hlt : b < q.hashes.length := by
        rw [hp.hashes] at hhash
        exact (List.getElem?_eq_some_iff.mp hhash).1
      have hmul : (b + 1) * blockSize = b * blockSize + blockSize := by
        rw [Nat.add_mul, Nat.one_mul]
      have hend := hp.queryEnd
      have hcomputed := hp.computed
      simp only [hs.blockSize_eq]
      refine if_pos ?_
      by_contra hneg
      refine hc ⟨hlt, ?_, ?_⟩
      · omega
      · omega

/-! ### A batch -/

/-- The stores of the blocks of a list, one after the other. -/
theorem foldlM_storeBlock (hp : p.Holds c q i) (hq : q.WellFormed) :
    ∀ (blocks : List Nat) (s : GdnDeltaOperatorSidecar R HV V K) (stored : List (Nat × Nat)),
      Ready blockSize s → ∃ xs : List (StoredBlock R HV V K),
        blocks.foldlM (storeBlock exp scale c p) (s, stored)
          = .ok (s.run (xs.map StoredBlock.call), stored ++ xs.map StoredBlock.place) ∧
        xs.map StoredBlock.place
          = (blocks.filter fun b => Covers blockSize q b).map (Prod.mk i) ∧
        ∀ x ∈ xs, x.OfRequest exp scale blockSize q := by
  intro blocks
  induction blocks with
  | nil =>
      intro s stored hs
      refine ⟨[], ?_, rfl, fun x hx => by cases hx⟩
      rw [List.map_nil, List.map_nil, List.append_nil]
      rfl
  | cons b blocks ih =>
      intro s stored hs
      by_cases hc : Covers blockSize q b
      · obtain ⟨x, hplace, hx, hstep⟩ := storeBlock_of_covers exp scale hp hq hs stored hc
        obtain ⟨xs, hrun, hplaces, hxs⟩ := ih _ (stored ++ [(i, b)]) (hs.after x.call)
        refine ⟨x :: xs, ?_, ?_, ?_⟩
        · rw [List.foldlM_cons, hstep]
          refine hrun.trans ?_
          rw [List.map_cons, List.map_cons, hplace, List.append_assoc]
          rfl
        · rw [List.map_cons, hplace, hplaces, List.filter_cons_of_pos (by simpa using hc),
            List.map_cons]
        · intro y hy
          rcases List.mem_cons.mp hy with rfl | hy
          · exact hx
          · exact hxs y hy
      · obtain ⟨xs, hrun, hplaces, hxs⟩ := ih s stored hs
        refine ⟨xs, ?_, ?_, hxs⟩
        · rw [List.foldlM_cons, storeBlock_of_not_covers exp scale hp hs stored hc]
          exact hrun
        · rw [hplaces, List.filter_cons_of_neg (by simpa using hc)]

theorem storeSequence_eq (hp : p.Holds c q i) {s : GdnDeltaOperatorSidecar R HV V K}
    (hs : Ready blockSize s) (stored : List (Nat × Nat)) :
    storeSequence exp scale c (s, stored) p
      = (blocksOf blockSize q).foldlM (storeBlock exp scale c p) (s, stored) := by
  have hscheduled : p.queryEnd - p.queryStart = q.scheduled := by
    rw [hp.queryEnd, Nat.add_sub_cancel_left]
  simp only [storeSequence, blocksOf, hs.blockSize_eq, hp.computed, hscheduled]

/-- The stores of the requests of a list, one after the other. -/
theorem foldlM_storeSequence (hwf : ∀ q ∈ batch, q.WellFormed) :
    ∀ (is : List Nat), (∀ i ∈ is, i < batch.length) →
      ∀ (s : GdnDeltaOperatorSidecar R HV V K) (stored : List (Nat × Nat)), Ready blockSize s →
        ∃ xs : List (StoredBlock R HV V K),
          (is.map (sequenceAt batch)).foldlM (storeSequence exp scale (packRows batch)) (s, stored)
            = .ok (s.run (xs.map StoredBlock.call), stored ++ xs.map StoredBlock.place) ∧
          xs.map StoredBlock.place = placesOf blockSize batch is ∧
          ∀ x ∈ xs, ∃ q, batch[x.request]? = some q ∧ x.OfRequest exp scale blockSize q := by
  intro is
  induction is with
  | nil =>
      intro _ s stored hs
      refine ⟨[], ?_, rfl, fun x hx => by cases hx⟩
      rw [List.map_nil, List.map_nil, List.map_nil, List.append_nil]
      rfl
  | cons i is ih =>
      intro hi s stored hs
      have hlt := hi i List.mem_cons_self
      have hq : batch[i]? = some batch[i] := List.getElem?_eq_getElem hlt
      have hp := sequenceAt_holds hwf hq
      obtain ⟨xs, hrun, hplaces, hxs⟩ :=
        foldlM_storeBlock exp scale hp (hwf _ (List.getElem_mem _)) (blocksOf blockSize _) s stored hs
      obtain ⟨ys, hrun', hplaces', hys⟩ :=
        ih (fun j hj => hi j (List.mem_cons_of_mem _ hj)) _ (stored ++ xs.map StoredBlock.place)
          (Ready.run _ hs)
      refine ⟨xs ++ ys, ?_, ?_, ?_⟩
      · rw [List.map_cons, List.foldlM_cons, storeSequence_eq exp scale hp hs, hrun]
        refine hrun'.trans ?_
        rw [List.map_append, List.map_append, List.append_assoc]
        simp only [GdnDeltaOperatorSidecar.run, List.foldl_append]
      · rw [List.map_append, hplaces, hplaces', placesOf, placesOf, List.flatMap_cons]
        simp only [hq]
      · intro x hx
        rcases List.mem_append.mp hx with hx | hx
        · refine ⟨_, ?_, hxs x hx⟩
          have hmem : x.place ∈ xs.map StoredBlock.place := List.mem_map_of_mem hx
          rw [hplaces] at hmem
          obtain ⟨b, -, hb⟩ := List.mem_map.mp hmem
          have : x.request = i := (congrArg Prod.fst hb).symm
          rw [this]
          exact hq
        · exact hys x hx

/-- The pass over a batch as calls of its sidecar, block after block. -/
theorem storeBatch_run (hwf : ∀ q ∈ batch, q.WellFormed) {s : GdnDeltaOperatorSidecar R HV V K}
    (hs : Ready blockSize s) :
    ∃ xs : List (StoredBlock R HV V K),
      storeBatch exp scale s batch
        = .ok (s.run (xs.map StoredBlock.call), xs.map StoredBlock.place) ∧
      xs.map StoredBlock.place = placesOf blockSize batch (List.range batch.length) ∧
      ∀ x ∈ xs, ∃ q, batch[x.request]? = some q ∧ x.OfRequest exp scale blockSize q := by
  obtain ⟨xs, hrun, hplaces, hxs⟩ := foldlM_storeSequence exp scale hwf (List.range batch.length)
    (fun i hi => List.mem_range.mp hi) s [] hs
  refine ⟨xs, ?_, hplaces, hxs⟩
  have hkeys : (packRows batch).keys.length = (batch.map ScheduledRows.scheduled).sum :=
    length_flatten_map fun q _ => rfl
  have hqueries : (packRows batch).queries.length = (batch.map ScheduledRows.scheduled).sum :=
    length_flatten_map fun q hq => (hwf q hq).rows.queries_length
  have hvalues : (packRows batch).values.length = (batch.map ScheduledRows.scheduled).sum :=
    length_flatten_map fun q hq => (hwf q hq).rows.values_length
  have hdecays : (packRows batch).logDecays.length = (batch.map ScheduledRows.scheduled).sum :=
    length_flatten_map fun q hq => (hwf q hq).rows.logDecays_length
  have hbetas : (packRows batch).betas.length = (batch.map ScheduledRows.scheduled).sum :=
    length_flatten_map fun q hq => (hwf q hq).rows.betas_length
  have hspan : ¬ (((batch.map ScheduledRows.scheduled).scanl (· + ·) 0).head? ≠ some 0 ∨
      ((batch.map ScheduledRows.scheduled).scanl (· + ·) 0).getLast?
        ≠ some (packRows batch).keys.length) := by
    rw [List.head?_scanl, List.getLast?_scanl, hkeys, List.sum_eq_foldl_nat]
    simp
  rw [storeBatch, storeCompletedGdnDeltaOperators, if_neg (by rw [hqueries, hkeys]; simp),
    if_neg (by rw [hbetas, hdecays]; simp), if_neg (by rw [hkeys, hdecays]; simp),
    if_neg (by rw [hvalues, hdecays]; simp), if_neg (by simp), if_neg (by simp), if_neg hspan]
  have hseqs : packedSequences ((batch.map ScheduledRows.scheduled).scanl (· + ·) 0)
      (batch.map ScheduledRows.computed) (batch.map ScheduledRows.hashes)
        = (List.range batch.length).map (sequenceAt batch) := by
    rw [packedSequences, List.length_scanl, List.length_map, Nat.add_sub_cancel]
    rfl
  rw [hseqs]
  exact hrun

/-- **The pass over a batch.**  It returns for every batch of well-formed requests, and stores each block
that a request covers, once. -/
theorem storeBatch_spec (hbs : 0 < blockSize) (hwf : ∀ q ∈ batch, q.WellFormed)
    {s : GdnDeltaOperatorSidecar R HV V K} (hs : Ready blockSize s) :
    ∃ xs : List (StoredBlock R HV V K),
      storeBatch exp scale s batch
        = .ok (s.run (xs.map StoredBlock.call), xs.map StoredBlock.place) ∧
      StoresOf exp scale blockSize batch xs := by
  obtain ⟨xs, hstore, hplaces, hxs⟩ := storeBatch_run exp scale hwf hs
  refine ⟨xs, hstore, ?_, ?_, hxs⟩
  · rw [hplaces]
    exact nodup_placesOf batch
  · intro i q b hq hc
    rw [hplaces, mem_placesOf]
    exact ⟨List.mem_range.mpr (List.getElem?_eq_some_iff.mp hq).1, q, hq, mem_blocksOf hbs hc, hc⟩

/-! ### Passes and chunks -/

/-- Every pass of a layer stores the covered blocks of its batch. -/
theorem runPasses_spec (hbs : 0 < blockSize) : ∀ (passes : List (Pass R HV V K H)),
    (∀ pass ∈ passes, ∀ q ∈ pass.batch, q.WellFormed) →
      ∀ {s : GdnDeltaOperatorSidecar R HV V K}, Ready blockSize s →
        ∃ xss : List (List (StoredBlock R HV V K)),
          List.Forall₂ (fun pass xs => StoresOf exp scale blockSize pass.batch xs) passes xss ∧
          runPasses exp scale s passes
            = .ok (s.run (callsOf passes xss), xss.map fun xs => xs.map StoredBlock.place) := by
  intro passes
  induction passes with
  | nil => intro _ s _; exact ⟨[], .nil, rfl⟩
  | cons pass passes ih =>
      intro hwf s hs
      obtain ⟨xs, hstore, hxs⟩ := storeBatch_spec exp scale hbs (hwf pass List.mem_cons_self)
        (hs.run pass.calls)
      obtain ⟨xss, hall, hrun⟩ := ih (fun p hp => hwf p (List.mem_cons_of_mem _ hp))
        ((hs.run pass.calls).run (xs.map StoredBlock.call))
      refine ⟨xs :: xss, .cons hxs hall, ?_⟩
      rw [runPasses, hstore]
      change (do let (s, rest) ← runPasses exp scale _ passes; _) = _
      rw [hrun]
      simp only [callsOf, List.zipWith_cons_cons, List.flatten_cons, GdnDeltaOperatorSidecar.run,
        List.foldl_append]
      rfl

/-- The stores of a pass for one request. -/
theorem storedAt_iff {passes : List (Pass R HV V K H)} {xss : List (List (StoredBlock R HV V K))}
    (hall : List.Forall₂ (fun pass xs => StoresOf exp scale blockSize pass.batch xs) passes xss)
    {n : Nat} {pass : Pass R HV V K H} (hpass : passes[n]? = some pass)
    (hq : pass.batch[i]? = some q) :
    (∀ b, (∃ x, StoredAt xss n i x ∧ x.block = b) ↔ Covers blockSize q b) ∧
    (∀ x, StoredAt xss n i x → x.OfRequest exp scale blockSize q) ∧
    ∀ x y, StoredAt xss n i x → StoredAt xss n i y → x.block = y.block → x = y := by
  obtain ⟨hn, hget⟩ := List.getElem?_eq_some_iff.mp hpass
  have hn' : n < xss.length := hall.length_eq ▸ hn
  have hxs : xss[n]? = some xss[n] := List.getElem?_eq_getElem hn'
  have hstores : StoresOf exp scale blockSize pass.batch xss[n] := by
    rw [← hget]
    exact hall.get hn hn'
  have hof : ∀ x, StoredAt xss n i x →
      x ∈ xss[n] ∧ x.request = i ∧ x.OfRequest exp scale blockSize q := by
    rintro x ⟨xs, hxs', hx, rfl⟩
    cases hxs.symm.trans hxs'
    obtain ⟨q', hq', hx'⟩ := hstores.ofBatch x hx
    cases hq.symm.trans hq'
    exact ⟨hx, rfl, hx'⟩
  refine ⟨?_, fun x hx => (hof x hx).2.2, ?_⟩
  · intro b
    constructor
    · rintro ⟨x, hx, rfl⟩
      exact (hof x hx).2.2.covers
    · intro hc
      obtain ⟨x, hx, hplace⟩ := List.mem_map.mp (hstores.covered i q b hq hc)
      exact ⟨x, ⟨_, hxs, hx, congrArg Prod.fst hplace⟩, congrArg Prod.snd hplace⟩
  · intro x y hx hy hblock
    refine List.inj_on_of_nodup_map hstores.nodup (hof x hx).1 (hof y hy).1 ?_
    rw [StoredBlock.place, StoredBlock.place, (hof x hx).2.1, (hof y hy).2.1, hblock]

/-- **Storing is exact.**  In every run of passes of a layer each pass returns and stores, for every request of
its batch, exactly the hashed prompt blocks that lie in the scheduled interval, each once, under the
block's own hash and with the operator of the block's own rows.  When a prompt is prefilled in chunks, a
block is stored by the chunk it lies in and by no other, so a block across two chunks is not stored. -/
theorem stores_complete_blocks {contents : Nat → GdnAffineOperator R HV V K}
    {capacity : Nat} {isFloatingPoint : Bool} {s₀ : GdnDeltaOperatorSidecar R HV V K}
    (hinit : GdnDeltaOperatorSidecar.init contents capacity blockSize isFloatingPoint = .ok s₀)
    (passes : List (Pass R HV V K H))
    (hwf : ∀ pass ∈ passes, ∀ q ∈ pass.batch, q.WellFormed) :
    ∃ xss : List (List (StoredBlock R HV V K)),
      List.Forall₂ (fun pass xs => StoresOf exp scale blockSize pass.batch xs) passes xss ∧
      runPasses exp scale s₀ passes
        = .ok (s₀.run (callsOf passes xss), xss.map fun xs => xs.map StoredBlock.place) ∧
      ∀ (prompt : GdnCoefficients R HV V K H) (hashes : List ContextualHash) (start : Nat)
        (lens : List Nat) (places : List (Nat × Nat)),
        Chunked passes prompt hashes start lens places →
          (∀ (j p i : Nat), places[j]? = some (p, i) → ∀ b : Nat,
            (∃ x, StoredAt xss p i x ∧ x.block = b) ↔ b < hashes.length ∧
              start + (lens.take j).sum ≤ b * blockSize ∧
              (b + 1) * blockSize ≤ start + (lens.take (j + 1)).sum) ∧
          (∀ (j p i : Nat), places[j]? = some (p, i) → ∀ x, StoredAt xss p i x →
            hashes[x.block]? = some x.blockHash ∧
            buildGdnAffineOperator exp scale
              (prompt.slice (x.block * blockSize) ((x.block + 1) * blockSize)) = .ok x.operator) ∧
          ∀ (j k p i p' i' : Nat), places[j]? = some (p, i) → places[k]? = some (p', i') →
            ∀ x y, StoredAt xss p i x → StoredAt xss p' i' y → x.block = y.block →
              j = k ∧ x = y := by
  have hpos := GdnDeltaOperatorSidecar.init_ok hinit
  have hready : Ready blockSize s₀ := by
    have hcap : s₀.capacity = capacity := hpos.2.capacity_eq
    refine ⟨hcap ▸ hpos.1, {}, ?_⟩
    rw [hcap]
    exact hpos.2
  have hbs : 0 < blockSize := GdnDeltaOperatorSidecar.init_blockSize_pos hinit
  obtain ⟨xss, hall, hrun⟩ := runPasses_spec exp scale hbs passes hwf hready
  refine ⟨xss, hall, hrun, ?_⟩
  intro prompt hashes start lens places hch
  have hat : ∀ {j p i : Nat}, places[j]? = some (p, i) →
      (∀ b, (∃ x, StoredAt xss p i x ∧ x.block = b) ↔
        Covers blockSize (chunkRequest prompt hashes start lens j) b) ∧
      (∀ x, StoredAt xss p i x →
        x.OfRequest exp scale blockSize (chunkRequest prompt hashes start lens j)) ∧
      ∀ x y, StoredAt xss p i x → StoredAt xss p i y → x.block = y.block → x = y := by
    intro j p i hj
    obtain ⟨pass, hpass, hq⟩ := hch.scheduled j p i hj
    exact storedAt_iff exp scale hall hpass hq
  refine ⟨?_, ?_, ?_⟩
  · intro j p i hj b
    rw [(hat hj).1 b, covers_chunkRequest hch.bound]
  · intro j p i hj x hx
    have hx' := (hat hj).2.1 x hx
    have hlies := (covers_chunkRequest hch.bound).mp hx'.covers
    refine ⟨hx'.hash, ?_⟩
    have hle : x.block * blockSize ≤ (x.block + 1) * blockSize :=
      Nat.mul_le_mul_right _ (Nat.le_succ _)
    have hrows : (chunkRequest prompt hashes start lens j).rows.slice
        (x.block * blockSize - (start + (lens.take j).sum))
        ((x.block + 1) * blockSize - (start + (lens.take j).sum))
          = prompt.slice (x.block * blockSize) ((x.block + 1) * blockSize) := by
      rw [chunkRequest, GdnCoefficients.slice_slice _ (by omega), Nat.add_sub_cancel' hlies.2.1,
        Nat.add_sub_cancel' (Nat.le_trans hlies.2.1 hle)]
    rw [← hrows]
    exact hx'.operator
  · intro j k p i p' i' hj hk x y hx hy hblock
    have hjk : j = k := by
      have hlx := (covers_chunkRequest hch.bound).mp ((hat hj).2.1 x hx).covers
      have hly := (covers_chunkRequest hch.bound).mp ((hat hk).2.1 y hy).covers
      rw [← hblock] at hly
      have hmul : (x.block + 1) * blockSize = x.block * blockSize + blockSize := by
        rw [Nat.add_mul, Nat.one_mul]
      -- two different chunks lie on either side of a boundary
      rcases Nat.lt_trichotomy j k with hlt | heq | hlt
      · have hle : j + 1 ≤ k := hlt
        have := sum_take_le_sum_take lens hle
        omega
      · exact heq
      · have hle : k + 1 ≤ j := hlt
        have := sum_take_le_sum_take lens hle
        omega
    subst hjk
    cases hj.symm.trans hk
    exact ⟨rfl, (hat hj).2.2 x y hx hy hblock⟩

end

/-- A prompt of five tokens. -/
def samplePrompt : GdnCoefficients ℤ 1 1 1 1 where
  keys := [1, 2, 3, 4, 5].map fun n _ _ => n
  queries := [1, 1, 1, 1, 1].map fun n _ _ => n
  values := [6, 7, 8, 9, 10].map fun n _ _ => n
  logDecays := [1, 1, 1, 1, 1].map fun n _ => n
  betas := [1, 1, 1, 1, 1].map fun n _ => n

theorem samplePrompt_wellShaped : samplePrompt.WellShaped :=
  ⟨rfl, rfl, rfl, rfl, by decide, rfl⟩

/-- The prompt in chunks of three and two tokens. -/
def samplePasses : List (Pass ℤ 1 1 1 1) :=
  [0, 1].map fun j => ⟨[], [chunkRequest samplePrompt [[1], [2]] 0 [3, 2] j]⟩

theorem samplePasses_wellFormed : ∀ pass ∈ samplePasses, ∀ q ∈ pass.batch, q.WellFormed := by
  intro pass hpass q hq
  obtain ⟨j, hj, rfl⟩ := List.mem_map.mp hpass
  rw [List.mem_singleton] at hq
  subst hq
  refine ⟨samplePrompt_wellShaped.slice ?_, by intro h hh; fin_cases hh <;> decide⟩
  fin_cases hj <;> decide

/-- The first block is stored by the first chunk; the second lies in neither chunk and is not stored. -/
theorem straddling_block_not_stored : ∃ s₀ : GdnDeltaOperatorSidecar ℤ 1 1 1,
    GdnDeltaOperatorSidecar.init (fun _ => GdnDeltaOperatorSidecar.sampleOperator 0) 2 2 = .ok s₀ ∧
    ∃ xss, runPasses id 1 s₀ samplePasses
        = .ok (s₀.run (callsOf samplePasses xss), xss.map fun xs => xs.map StoredBlock.place) ∧
      (∃ x, StoredAt xss 0 0 x ∧ x.block = 0) ∧ (¬ ∃ x, StoredAt xss 0 0 x ∧ x.block = 1) ∧
      ¬ ∃ x, StoredAt xss 1 0 x ∧ x.block = 1 := by
  obtain ⟨s₀, hinit⟩ : ∃ s₀ : GdnDeltaOperatorSidecar ℤ 1 1 1, GdnDeltaOperatorSidecar.init
    (fun _ => GdnDeltaOperatorSidecar.sampleOperator 0) 2 2 = .ok s₀ := ⟨_, rfl⟩
  obtain ⟨xss, -, hrun, hchunks⟩ :=
    stores_complete_blocks id 1 hinit samplePasses samplePasses_wellFormed
  have hchunked : Chunked samplePasses samplePrompt [[1], [2]] 0 [3, 2] [(0, 0), (1, 0)] := by
    refine ⟨by decide, ?_⟩
    intro j p i hj
    match j, hj with
    | 0, hj => cases hj; exact ⟨_, rfl, rfl⟩
    | 1, hj => cases hj; exact ⟨_, rfl, rfl⟩
  have hblocks := (hchunks samplePrompt [[1], [2]] 0 [3, 2] [(0, 0), (1, 0)] hchunked).1
  refine ⟨s₀, hinit, xss, hrun, ?_, ?_, ?_⟩
  · exact (hblocks 0 0 0 rfl 0).mpr (by decide)
  · rw [hblocks 0 0 0 rfl 1]
    decide
  · rw [hblocks 1 1 0 rfl 1]
    decide

end CacheSelect.Gdn

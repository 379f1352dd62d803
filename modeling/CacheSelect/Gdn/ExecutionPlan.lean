import CacheSelect.Gdn.Sidecar
import CacheSelect.Lib.Segments
import Mathlib.Data.List.Sort

/-! # Execution plans

`buildGdnDeltaExecutionPlans` cuts the scheduled interval of every request into spans: a whole logical
block inside the interval that has a candidate is reused, everything between such blocks is recomputed.
`executeGdnDeltaSequencePlan` looks up all operators of a plan at once, and with all of them threads the
recurrent state through the spans.

`executionPlan_equivalence` says that the spans tile the interval, and that with exact operators and an
exact recompute callback the execution is the recurrence over the whole interval.

The callbacks act on a world of type `W` (the physical state slots) and may raise.  Restoring the
activation dtype of the outputs is the identity in exact arithmetic.
-/

namespace CacheSelect.Gdn

open CacheSelect.Core OrderedDict Segments

inductive SpanMode
  | recompute
  | affineReuse
deriving DecidableEq, Repr

/-- One contiguous interval of tokens. -/
structure GdnDeltaExecutionSpan where
  sequenceIndex : Nat
  startToken : Nat
  endToken : Nat
  mode : SpanMode
  targetBlockIndex : Option Nat := none
  sourceContextualHash : Option ContextualHash := none
deriving DecidableEq, Repr

/-- The plan of one scheduled interval. -/
structure GdnDeltaSequenceExecutionPlan where
  sequenceIndex : Nat
  scheduledStartToken : Nat
  scheduledEndToken : Nat
  spans : List GdnDeltaExecutionSpan
  reusedBlockIndices : List Nat
  skippedCandidateBlockIndices : List Nat
deriving DecidableEq, Repr

/-! ### Admission -/

structure GdnDeltaActiveAdmission where
  eligible : Bool
  reason : String
deriving DecidableEq, Repr

/-- Whether the active path may run for a batch, and why not. -/
def assessGdnDeltaActiveAdmission (executionMode mambaCacheMode prefillBackend : String)
    (numPrefills numDecodes numSpecDecodes : Nat)
    (reuseCandidates : List (List (Int × ContextualHash))) : GdnDeltaActiveAdmission :=
  if executionMode ≠ "active" then ⟨false, "shadow_mode"⟩
  else if mambaCacheMode ≠ "all" then ⟨false, "checkpoint_mode_required"⟩
  else if prefillBackend ≠ "triton" then ⟨false, "triton_backend_required"⟩
  else if numSpecDecodes ≠ 0 then ⟨false, "speculative_decode_unsupported"⟩
  else if numDecodes ≠ 0 then ⟨false, "mixed_decode_unsupported"⟩
  else if numPrefills ≠ 1 then ⟨false, "single_prefill_required"⟩
  else
    match reuseCandidates with
    | [candidates] => if candidates = [] then ⟨false, "no_candidates"⟩ else ⟨true, "eligible"⟩
    | _ => ⟨false, "single_prefill_required"⟩

/-! ### Building plans -/

/-- The candidates of a sequence by their block index. -/
def candidateByBlock : List (Int × ContextualHash) → List (Nat × ContextualHash) →
    Except PyError (List (Nat × ContextualHash))
  | [], acc => .ok acc
  | (blockIndex, sourceHash) :: rest, acc =>
      if blockIndex < 0 then
        .error (.valueError "candidate block indices must be nonnegative integers")
      else if sourceHash = [] then
        .error (.valueError "candidate source hashes must be nonempty bytes")
      else if blockIndex.toNat ∈ keys acc then
        .error (.valueError "candidate target block indices must be unique")
      else candidateByBlock rest (acc ++ [(blockIndex.toNat, sourceHash)])

/-- A whole block inside of the scheduled interval. -/
def isReusable (blockSize scheduledStart scheduledEnd blockIndex : Nat) : Bool :=
  decide (scheduledStart ≤ blockIndex * blockSize) &&
    decide (blockIndex * blockSize + blockSize ≤ scheduledEnd)

def recomputeSpan (sequenceIndex startToken endToken : Nat) : GdnDeltaExecutionSpan where
  sequenceIndex := sequenceIndex
  startToken := startToken
  endToken := endToken
  mode := .recompute

def affineReuseSpan (sequenceIndex blockSize : Nat) (candidates : List (Nat × ContextualHash))
    (blockIndex : Nat) : GdnDeltaExecutionSpan where
  sequenceIndex := sequenceIndex
  startToken := blockIndex * blockSize
  endToken := blockIndex * blockSize + blockSize
  mode := .affineReuse
  targetBlockIndex := some blockIndex
  sourceContextualHash := get candidates blockIndex

/-- A recompute span, unless it would be empty. -/
def recomputeSpans (sequenceIndex startToken endToken : Nat) : List GdnDeltaExecutionSpan :=
  if startToken < endToken then [recomputeSpan sequenceIndex startToken endToken] else []

/-- The loop over the reusable blocks, from a cursor. -/
def planSpans (sequenceIndex blockSize scheduledEnd : Nat)
    (candidates : List (Nat × ContextualHash)) : Nat → List Nat → List GdnDeltaExecutionSpan
  | cursor, [] => recomputeSpans sequenceIndex cursor scheduledEnd
  | cursor, blockIndex :: rest =>
      recomputeSpans sequenceIndex cursor (blockIndex * blockSize) ++
        affineReuseSpan sequenceIndex blockSize candidates blockIndex ::
          planSpans sequenceIndex blockSize scheduledEnd candidates
            (blockIndex * blockSize + blockSize) rest

/-- The plan of one sequence with checked candidates. -/
def sequencePlan (sequenceIndex blockSize scheduledStart scheduledCount : Nat)
    (candidates : List (Nat × ContextualHash)) : GdnDeltaSequenceExecutionPlan :=
  let scheduledEnd := scheduledStart + scheduledCount
  let blocks := (keys candidates).insertionSort (· ≤ ·)
  let reusable := blocks.filter (isReusable blockSize scheduledStart scheduledEnd)
  { sequenceIndex := sequenceIndex
    scheduledStartToken := scheduledStart
    scheduledEndToken := scheduledEnd
    spans := planSpans sequenceIndex blockSize scheduledEnd candidates scheduledStart reusable
    reusedBlockIndices := reusable
    skippedCandidateBlockIndices :=
      blocks.filter fun b => !isReusable blockSize scheduledStart scheduledEnd b }

/-- The iterations of the loop over the sequences. -/
def buildSequencePlans (blockSize : Nat) (sequenceIndex : Nat) :
    List ((Int × Int) × List (Int × ContextualHash)) →
    Except PyError (List GdnDeltaSequenceExecutionPlan)
  | [] => .ok []
  | ((scheduledStart, scheduledCount), reuseCandidates) :: rest =>
      if scheduledStart < 0 ∨ scheduledCount < 0 then
        .error (.valueError "token counts must be nonnegative")
      else do
        let candidates ← candidateByBlock reuseCandidates []
        let plans ← buildSequencePlans blockSize (sequenceIndex + 1) rest
        .ok (sequencePlan sequenceIndex blockSize scheduledStart.toNat scheduledCount.toNat
          candidates :: plans)

/-- Plans that cover every scheduled token exactly once. -/
def buildGdnDeltaExecutionPlans (numComputedTokens numScheduledTokens : List Int) (blockSize : Int)
    (reuseCandidates : List (List (Int × ContextualHash))) :
    Except PyError (List GdnDeltaSequenceExecutionPlan) :=
  if blockSize < 1 then .error (.valueError "block_size must be positive")
  else if numScheduledTokens.length ≠ numComputedTokens.length then
    .error (.valueError "scheduled counts must contain one value per sequence")
  else if reuseCandidates.length ≠ numComputedTokens.length then
    .error (.valueError "reuse candidates must contain one tuple per sequence")
  else
    buildSequencePlans blockSize.toNat 0
      ((numComputedTokens.zip numScheduledTokens).zip reuseCandidates)

/-! ### Executing a plan -/

section

variable {R : Type} {HV V K : Nat} {W : Type}

/-- The state after some spans, with their outputs and the split of the work. -/
structure GdnDeltaSequenceExecutionResult (R : Type) (HV V K : Nat) where
  outputs : List (TokenOutput R HV V)
  finalState : RecurrentState R HV V K
  recomputedTokens : Nat
  reusedTokens : Nat

/-- `recompute_span`. -/
abbrev GdnRecomputeSpan (R : Type) (HV V K : Nat) (W : Type) :=
  Nat → Nat → RecurrentState R HV V K → W →
    Except PyError ((RecurrentState R HV V K × List (TokenOutput R HV V)) × W)

/-- `span_complete`. -/
abbrev GdnSpanComplete (R : Type) (HV V K : Nat) (W : Type) :=
  GdnDeltaExecutionSpan → RecurrentState R HV V K → W → Except PyError W

variable [CommRing R] (recompute : GdnRecomputeSpan R HV V K W)
  (complete : GdnSpanComplete R HV V K W)

/-- The state and the outputs of one span, with the entries that are left. -/
def executeSpan (span : GdnDeltaExecutionSpan) (entries : List (GdnDeltaCacheEntry R HV V K))
    (state : RecurrentState R HV V K) (w : W) :
    Except PyError ((RecurrentState R HV V K × List (TokenOutput R HV V)) ×
      List (GdnDeltaCacheEntry R HV V K) × W) :=
  match span.mode with
  | .recompute => do
      let (result, w) ← recompute span.startToken span.endToken state w
      .ok (result, entries, w)
  | .affineReuse =>
      match entries with
      | [] => .error .indexError
      | entry :: rest => do
          let result ← applyGdnAffineOperator state entry.toGdnAffineOperator
          .ok (result, rest, w)

/-- The loop over the spans; the entries that no span consumed are left. -/
def executeSpans : List GdnDeltaExecutionSpan → List (GdnDeltaCacheEntry R HV V K) →
    RecurrentState R HV V K → W →
    Except PyError (GdnDeltaSequenceExecutionResult R HV V K ×
      List (GdnDeltaCacheEntry R HV V K) × W)
  | [], entries, state, w => .ok (⟨[], state, 0, 0⟩, entries, w)
  | span :: spans, entries, state, w =>
      let tokenCount := span.endToken - span.startToken
      if span.endToken ≤ span.startToken then
        .error (.valueError "execution spans must contain at least one token")
      else do
        let ((state, outputs), entries, w) ← executeSpan recompute span entries state w
        if outputs.length ≠ tokenCount then
          .error (.valueError "span execution returned incompatible recurrent outputs")
        else do
          let w ← complete span state w
          let (rest, entries, w) ← executeSpans spans entries state w
          .ok ({ outputs := outputs ++ rest.outputs
                 finalState := rest.finalState
                 recomputedTokens :=
                   (if span.mode = .recompute then tokenCount else 0) + rest.recomputedTokens
                 reusedTokens :=
                   (if span.mode = .affineReuse then tokenCount else 0) + rest.reusedTokens },
            entries, w)

/-- The hashes of the operators that a plan needs. -/
def GdnDeltaSequenceExecutionPlan.reuseHashes (plan : GdnDeltaSequenceExecutionPlan) :
    List (Option ContextualHash) :=
  (plan.spans.filter fun span => span.mode = .affineReuse).map
    GdnDeltaExecutionSpan.sourceContextualHash

/-- Execute a plan with all of its operators, or do nothing when one is missing. -/
def executeGdnDeltaSequencePlan (plan : GdnDeltaSequenceExecutionPlan)
    (initialState : RecurrentState R HV V K) (sidecar : GdnDeltaOperatorSidecar R HV V K) (w : W) :
    Except PyError (Option (GdnDeltaSequenceExecutionResult R HV V K) ×
      GdnDeltaOperatorSidecar R HV V K × W) :=
  if plan.reuseHashes.any Option.isNone then
    .error (.valueError "affine reuse spans must name a source operator")
  else
    match sidecar.lookupMany plan.reuseHashes.reduceOption with
    | (none, sidecar) => .ok (none, sidecar, w)
    | (some resolved, sidecar) => do
        let (result, entries, w) ← executeSpans recompute complete plan.spans resolved initialState w
        if entries ≠ [] then
          .error (.runtimeError "not every resolved GDN operator was consumed")
        else if result.outputs.length ≠ plan.scheduledEndToken - plan.scheduledStartToken then
          .error (.runtimeError "execution plan did not cover its scheduled interval")
        else .ok (some result, sidecar, w)

end

/-! ### The candidates -/

/-- Candidates that pass the checks. -/
structure ValidCandidates (cs : List (Int × ContextualHash)) : Prop where
  nonneg : ∀ c ∈ cs, 0 ≤ c.1
  hash_ne : ∀ c ∈ cs, c.2 ≠ []
  nodup : (cs.map Prod.fst).Nodup

/-- The candidates with their indices as naturals. -/
def naturalCandidates (cs : List (Int × ContextualHash)) : List (Nat × ContextualHash) :=
  cs.map fun c => (c.1.toNat, c.2)

theorem keys_naturalCandidates (cs : List (Int × ContextualHash)) :
    keys (naturalCandidates cs) = cs.map fun c => c.1.toNat := by
  rw [keys, naturalCandidates, List.map_map]
  rfl

theorem ValidCandidates.nodup_keys {cs : List (Int × ContextualHash)} (h : ValidCandidates cs) :
    (keys (naturalCandidates cs)).Nodup := by
  have hmap : cs.map (fun c => c.1.toNat) = (cs.map Prod.fst).map Int.toNat := by
    rw [List.map_map]
    rfl
  rw [keys_naturalCandidates, hmap]
  refine h.nodup.map_on ?_
  intro a ha b hb hab
  obtain ⟨c, hc, rfl⟩ := List.mem_map.mp ha
  obtain ⟨c', hc', rfl⟩ := List.mem_map.mp hb
  have := h.nonneg c hc
  have := h.nonneg c' hc'
  omega

theorem candidateByBlock_eq : ∀ {cs : List (Int × ContextualHash)}
    {acc : List (Nat × ContextualHash)}, (∀ c ∈ cs, 0 ≤ c.1) → (∀ c ∈ cs, c.2 ≠ []) →
    (keys (acc ++ naturalCandidates cs)).Nodup →
    candidateByBlock cs acc = .ok (acc ++ naturalCandidates cs) := by
  intro cs
  induction cs with
  | nil =>
      intro acc _ _ _
      rw [candidateByBlock]
      exact congrArg Except.ok (List.append_nil acc).symm
  | cons c cs ih =>
      intro acc hnn hne hnd
      have hsplit : acc ++ naturalCandidates (c :: cs)
          = acc ++ [(c.1.toNat, c.2)] ++ naturalCandidates cs := by
        rw [List.append_assoc]
        rfl
      have hfresh : c.1.toNat ∉ keys acc := by
        rw [keys, List.map_append, List.nodup_append] at hnd
        intro hin
        exact hnd.2.2 _ hin c.1.toNat (List.mem_map.mpr ⟨(c.1.toNat, c.2), List.mem_cons_self, rfl⟩) rfl
      have h0 := hnn c List.mem_cons_self
      rw [candidateByBlock, if_neg (by omega), if_neg (hne c List.mem_cons_self), if_neg hfresh,
        hsplit]
      exact ih (fun x hx => hnn x (List.mem_cons_of_mem _ hx))
        (fun x hx => hne x (List.mem_cons_of_mem _ hx)) (hsplit ▸ hnd)

theorem candidateByBlock_ok {cs : List (Int × ContextualHash)} (h : ValidCandidates cs) :
    candidateByBlock cs [] = .ok (naturalCandidates cs) :=
  candidateByBlock_eq h.nonneg h.hash_ne h.nodup_keys

/-! ### The spans of a plan -/

section

variable {sequenceIndex blockSize scheduledEnd : Nat} {candidates : List (Nat × ContextualHash)}

theorem recomputeSpans_tiles {a b : Nat} (h : a ≤ b) :
    Tiles GdnDeltaExecutionSpan.startToken GdnDeltaExecutionSpan.endToken a
      (recomputeSpans sequenceIndex a b) b := by
  rw [recomputeSpans]
  split
  · next hlt => exact ⟨rfl, hlt, rfl⟩
  · exact Nat.le_antisymm h (by omega)

/-- **The spans tile the interval** from the cursor on. -/
theorem planSpans_tiles (hbs : 0 < blockSize) : ∀ {blocks : List Nat} {cursor : Nat},
    blocks.Pairwise (· < ·) → (∀ b ∈ blocks, cursor ≤ b * blockSize ∧
      b * blockSize + blockSize ≤ scheduledEnd) → cursor ≤ scheduledEnd →
    Tiles GdnDeltaExecutionSpan.startToken GdnDeltaExecutionSpan.endToken cursor
      (planSpans sequenceIndex blockSize scheduledEnd candidates cursor blocks) scheduledEnd := by
  intro blocks
  induction blocks with
  | nil =>
      intro cursor _ _ hle
      exact recomputeSpans_tiles hle
  | cons b blocks ih =>
      intro cursor hsorted hin hle
      obtain ⟨hcur, hend⟩ := hin b List.mem_cons_self
      obtain ⟨hlt, hsorted⟩ := List.pairwise_cons.mp hsorted
      refine (recomputeSpans_tiles hcur).append ⟨rfl, ?_, ih hsorted ?_ hend⟩
      · change b * blockSize < b * blockSize + blockSize
        omega
      · intro b' hb'
        refine ⟨?_, (hin b' (List.mem_cons_of_mem _ hb')).2⟩
        have := Nat.mul_le_mul_right blockSize (hlt b' hb')
        rwa [Nat.succ_mul] at this

/-- The spans that reuse an operator are the ones of the reusable blocks. -/
theorem filter_planSpans : ∀ (blocks : List Nat) (cursor : Nat),
    (planSpans sequenceIndex blockSize scheduledEnd candidates cursor blocks).filter
      (fun span => span.mode = .affineReuse)
      = blocks.map (affineReuseSpan sequenceIndex blockSize candidates) := by
  have hnone : ∀ a b : Nat, (recomputeSpans sequenceIndex a b).filter
      (fun span => decide (span.mode = .affineReuse)) = [] := by
    intro a b
    rw [recomputeSpans]
    split
    · rfl
    · rfl
  intro blocks
  induction blocks with
  | nil =>
      intro cursor
      exact hnone _ _
  | cons b blocks ih =>
      intro cursor
      rw [planSpans, List.filter_append, hnone, List.nil_append, List.map_cons]
      exact congrArg (affineReuseSpan sequenceIndex blockSize candidates b :: ·) (ih _)

end

/-- What `sequencePlan` promises. -/
structure PlanOf (sequenceIndex blockSize scheduledStart scheduledCount : Nat)
    (candidates : List (Nat × ContextualHash)) (plan : GdnDeltaSequenceExecutionPlan) : Prop where
  sequenceIndex_eq : plan.sequenceIndex = sequenceIndex
  start_eq : plan.scheduledStartToken = scheduledStart
  end_eq : plan.scheduledEndToken = scheduledStart + scheduledCount
  tiles : Tiles GdnDeltaExecutionSpan.startToken GdnDeltaExecutionSpan.endToken
    plan.scheduledStartToken plan.spans plan.scheduledEndToken
  reuse_eq : plan.spans.filter (fun span => span.mode = .affineReuse)
    = plan.reusedBlockIndices.map (affineReuseSpan sequenceIndex blockSize candidates)
  mem_reused : ∀ b, b ∈ plan.reusedBlockIndices ↔ b ∈ keys candidates ∧
    plan.scheduledStartToken ≤ b * blockSize ∧ b * blockSize + blockSize ≤ plan.scheduledEndToken
  partition : (plan.reusedBlockIndices ++ plan.skippedCandidateBlockIndices).Perm (keys candidates)

theorem sequencePlan_spec {blockSize : Nat} (hbs : 0 < blockSize)
    {candidates : List (Nat × ContextualHash)} (hnd : (keys candidates).Nodup)
    (sequenceIndex scheduledStart scheduledCount : Nat) :
    PlanOf sequenceIndex blockSize scheduledStart scheduledCount candidates
      (sequencePlan sequenceIndex blockSize scheduledStart scheduledCount candidates) := by
  have hperm := List.perm_insertionSort (· ≤ ·) (keys candidates)
  have hsorted : ((keys candidates).insertionSort (· ≤ ·)).Pairwise (· < ·) := by
    have hle := List.pairwise_insertionSort (· ≤ ·) (keys candidates)
    have hne : ((keys candidates).insertionSort (· ≤ ·)).Nodup := hperm.nodup_iff.mpr hnd
    exact (hle.and hne).imp fun h => lt_of_le_of_ne h.1 h.2
  have hmem : ∀ b, b ∈ (sequencePlan sequenceIndex blockSize scheduledStart scheduledCount
      candidates).reusedBlockIndices ↔ b ∈ keys candidates ∧ scheduledStart ≤ b * blockSize ∧
        b * blockSize + blockSize ≤ scheduledStart + scheduledCount := by
    intro b
    change b ∈ List.filter _ _ ↔ _
    rw [List.mem_filter, hperm.mem_iff, isReusable, Bool.and_eq_true, decide_eq_true_iff,
      decide_eq_true_iff]
  refine { sequenceIndex_eq := rfl, start_eq := rfl, end_eq := rfl, tiles := ?_,
           reuse_eq := filter_planSpans _ _, mem_reused := hmem, partition := ?_ }
  · refine planSpans_tiles hbs (hsorted.sublist List.filter_sublist) ?_ (Nat.le_add_right _ _)
    intro b hb
    exact ((hmem b).mp hb).2
  · exact (List.filter_append_perm _ _).trans hperm

/-! ### The execution of a tiling -/

section

variable {R : Type} {HV V K : Nat} {W : Type} [CommRing R] (exp : R → R) (scale : R)

/-- A callback that runs the recurrence over the tokens of a span. -/
def RecomputesExactly (tokens : List (GdnToken R HV V K)) (recompute : GdnRecomputeSpan R HV V K W) :
    Prop :=
  ∀ a b state w, a < b → b ≤ tokens.length →
    ∃ w', recompute a b state w = .ok (gatedDelta exp scale state (slice tokens a b), w')

/-- An operator that equals the recurrence over the tokens of a span. -/
def ReusesExactly (tokens : List (GdnToken R HV V K)) (span : GdnDeltaExecutionSpan)
    (operator : GdnAffineOperator R HV V K) : Prop :=
  ∀ state, applyGdnAffineOperator state operator
    = .ok (gatedDelta exp scale state (slice tokens span.startToken span.endToken))

variable {exp scale} {tokens : List (GdnToken R HV V K)} {recompute : GdnRecomputeSpan R HV V K W}
  {complete : GdnSpanComplete R HV V K W}

/-- **One span is the recurrence over its tokens.** -/
theorem executeSpan_exact (hrec : RecomputesExactly exp scale tokens recompute)
    {span : GdnDeltaExecutionSpan} (hlt : span.startToken < span.endToken)
    (hend : span.endToken ≤ tokens.length) {entries rest : List (GdnDeltaCacheEntry R HV V K)}
    (hentries : (span.mode = .recompute ∧ entries = rest) ∨ (span.mode = .affineReuse ∧
      ∃ e, entries = e :: rest ∧ ReusesExactly exp scale tokens span e.toGdnAffineOperator))
    (state : RecurrentState R HV V K) (w : W) :
    ∃ w', executeSpan recompute span entries state w
      = .ok (gatedDelta exp scale state (slice tokens span.startToken span.endToken), rest, w') := by
  rcases hentries with ⟨hmode, rfl⟩ | ⟨hmode, e, rfl, he⟩
  · obtain ⟨w', hw'⟩ := hrec _ _ state w hlt hend
    refine ⟨w', ?_⟩
    rw [executeSpan.eq_def, hmode]
    dsimp only
    rw [hw']
    rfl
  · refine ⟨w, ?_⟩
    rw [executeSpan.eq_def, hmode]
    dsimp only
    rw [he state]
    rfl

omit [CommRing R] in
/-- What a span consumes of the entries: nothing, or the one of its operator. -/
theorem uncons_entries {P : GdnDeltaExecutionSpan → GdnDeltaCacheEntry R HV V K → Prop}
    {span : GdnDeltaExecutionSpan} {spans : List GdnDeltaExecutionSpan}
    {entries : List (GdnDeltaCacheEntry R HV V K)}
    (h : List.Forall₂ P ((span :: spans).filter fun span => span.mode = .affineReuse) entries) :
    ∃ rest, ((span.mode = .recompute ∧ entries = rest) ∨ (span.mode = .affineReuse ∧
        ∃ e, entries = e :: rest ∧ P span e)) ∧
      List.Forall₂ P (spans.filter fun span => span.mode = .affineReuse) rest := by
  cases hmode : span.mode with
  | recompute =>
      rw [List.filter_cons_of_neg (by simp [hmode])] at h
      exact ⟨entries, Or.inl ⟨rfl, rfl⟩, h⟩
  | affineReuse =>
      rw [List.filter_cons_of_pos (by simp [hmode])] at h
      cases h with
      | cons he hrest => exact ⟨_, Or.inr ⟨rfl, _, rfl, he⟩, hrest⟩

/-- **A tiling of an interval executes the recurrence over it.** -/
theorem executeSpans_exact (hrec : RecomputesExactly exp scale tokens recompute)
    (hcomplete : ∀ span state w, ∃ w', complete span state w = .ok w') :
    ∀ {spans : List GdnDeltaExecutionSpan} {a b : Nat}
      {entries : List (GdnDeltaCacheEntry R HV V K)} (state : RecurrentState R HV V K) (w : W),
      Tiles GdnDeltaExecutionSpan.startToken GdnDeltaExecutionSpan.endToken a spans b →
      b ≤ tokens.length →
      List.Forall₂ (fun span e => ReusesExactly exp scale tokens span e.toGdnAffineOperator)
        (spans.filter fun span => span.mode = .affineReuse) entries →
      ∃ result w', executeSpans recompute complete spans entries state w = .ok (result, [], w') ∧
        (result.finalState, result.outputs) = gatedDelta exp scale state (slice tokens a b) ∧
        result.recomputedTokens + result.reusedTokens = b - a := by
  intro spans
  induction spans with
  | nil =>
      intro a b entries state w htiles _ hentries
      have hab : a = b := htiles
      subst hab
      cases hentries
      refine ⟨_, _, rfl, ?_, ?_⟩
      · rw [slice_self]
        rfl
      · exact (Nat.sub_self a).symm
  | cons span spans ih =>
      intro a b entries state w htiles hb hentries
      obtain ⟨hstart, hlt, htiles⟩ := htiles
      have hle := htiles.le
      rw [← hstart] at hlt ⊢
      obtain ⟨rest, hcase, hrest⟩ := uncons_entries hentries
      obtain ⟨w₁, hspan⟩ := executeSpan_exact hrec hlt (hle.trans hb) hcase state w
      obtain ⟨w₂, hw₂⟩ := hcomplete span
        (gatedDelta exp scale state (slice tokens span.startToken span.endToken)).1 w₁
      obtain ⟨result, w₃, hres, hexact, hcount⟩ := ih
        (gatedDelta exp scale state (slice tokens span.startToken span.endToken)).1 w₂ htiles hb
        hrest
      have hlen : (gatedDelta exp scale state
          (slice tokens span.startToken span.endToken)).2.length
            = span.endToken - span.startToken := by
        rw [gatedDelta, Scan.length_run, length_slice _ (hle.trans hb)]
      refine ⟨{ outputs := (gatedDelta exp scale state
                  (slice tokens span.startToken span.endToken)).2 ++ result.outputs
                finalState := result.finalState
                recomputedTokens := (if span.mode = .recompute
                  then span.endToken - span.startToken else 0) + result.recomputedTokens
                reusedTokens := (if span.mode = .affineReuse
                  then span.endToken - span.startToken else 0) + result.reusedTokens },
        w₃, ?_, ?_, ?_⟩
      · rw [executeSpans, if_neg (by omega), hspan]
        change (if _ ≠ _ then _ else _) = _
        rw [if_neg (not_not_intro hlen), hw₂]
        change (executeSpans recompute complete spans rest
          (gatedDelta exp scale state (slice tokens span.startToken span.endToken)).1 w₂ >>= _) = _
        rw [hres]
        rfl
      · rw [← slice_append tokens (Nat.le_of_lt hlt) hle]
        refine Eq.trans ?_ (Scan.run_append (gatedDeltaStep exp scale) _ _ state).symm
        have h1 := congrArg Prod.fst hexact
        have h2 := congrArg Prod.snd hexact
        exact Prod.ext h1 (congrArg (_ ++ ·) h2)
      · change (if span.mode = .recompute then _ else 0) + result.recomputedTokens
          + ((if span.mode = .affineReuse then _ else 0) + result.reusedTokens) = _
        cases span.mode with
        | recompute =>
            rw [if_pos rfl, if_neg (by decide)]
            omega
        | affineReuse =>
            rw [if_neg (by decide), if_pos rfl]
            omega

end

/-! ### The execution of a plan -/

/-- What the executions of a plan do: all of it when every operator is there, nothing when one is
missing. -/
def ExecutesAsRecurrence {R : Type} (HV V K : Nat) [CommRing R] (exp : R → R) (scale : R)
    (plan : GdnDeltaSequenceExecutionPlan) : Prop :=
  ∀ {W : Type} (recompute : GdnRecomputeSpan R HV V K W) (complete : GdnSpanComplete R HV V K W)
    (sidecar : GdnDeltaOperatorSidecar R HV V K) (initialState : RecurrentState R HV V K) (w : W),
    (sidecar.containsMany plan.reuseHashes.reduceOption = false →
      executeGdnDeltaSequencePlan recompute complete plan initialState sidecar w
        = .ok (none, sidecar, w)) ∧
    ∀ tokens : List (GdnToken R HV V K), plan.scheduledEndToken ≤ tokens.length →
      sidecar.containsMany plan.reuseHashes.reduceOption = true →
      RecomputesExactly exp scale tokens recompute →
      (∀ span ∈ plan.spans, span.mode = .affineReuse → ∀ hash slot,
        span.sourceContextualHash = some hash → get sidecar.keyToSlot hash = some slot →
        ReusesExactly exp scale tokens span (sidecar.operators slot)) →
      (∀ span state w, ∃ w', complete span state w = .ok w') →
      ∃ result sidecar' w',
        executeGdnDeltaSequencePlan recompute complete plan initialState sidecar w
          = .ok (some result, sidecar', w') ∧
        (result.finalState, result.outputs) = gatedDelta exp scale initialState
          (slice tokens plan.scheduledStartToken plan.scheduledEndToken) ∧
        result.recomputedTokens + result.reusedTokens
          = plan.scheduledEndToken - plan.scheduledStartToken

section

variable {R : Type} {HV V K : Nat} [CommRing R] {exp : R → R} {scale : R}
  {sequenceIndex blockSize scheduledStart scheduledCount : Nat}
  {candidates : List (Nat × ContextualHash)} {plan : GdnDeltaSequenceExecutionPlan}

/-- Every reuse span of a plan names its operator. -/
theorem PlanOf.hash_isSome
    (h : PlanOf sequenceIndex blockSize scheduledStart scheduledCount candidates plan) :
    ∀ x ∈ plan.reuseHashes, x.isSome = true := by
  intro x hx
  rw [GdnDeltaSequenceExecutionPlan.reuseHashes, h.reuse_eq, List.map_map] at hx
  obtain ⟨b, hb, rfl⟩ := List.mem_map.mp hx
  exact mem_keys_iff_get.mp ((h.mem_reused b).mp hb).1

omit [CommRing R] in
/-- The entries that a lookup resolves are those of the reuse spans. -/
theorem forall₂_resolved {sidecar : GdnDeltaOperatorSidecar R HV V K}
    {P : GdnDeltaExecutionSpan → GdnAffineOperator R HV V K → Prop} :
    ∀ {spans : List GdnDeltaExecutionSpan},
    (∀ span ∈ spans, span.sourceContextualHash.isSome = true) →
    (∀ h ∈ (spans.map GdnDeltaExecutionSpan.sourceContextualHash).reduceOption,
      (get sidecar.keyToSlot h).isSome = true) →
    (∀ span ∈ spans, ∀ hash slot, span.sourceContextualHash = some hash →
      get sidecar.keyToSlot hash = some slot → P span (sidecar.operators slot)) →
    List.Forall₂ (fun span e => P span e.toGdnAffineOperator) spans
      (((spans.map GdnDeltaExecutionSpan.sourceContextualHash).reduceOption.map
        fun h => get sidecar.keyToSlot h).reduceOption.map sidecar.entryAt) := by
  intro spans
  induction spans with
  | nil => intro _ _ _; exact .nil
  | cons span spans ih =>
      intro hsome hres hexact
      obtain ⟨hash, hhash⟩ := Option.isSome_iff_exists.mp (hsome span List.mem_cons_self)
      rw [List.map_cons, hhash, List.reduceOption_cons_of_some] at hres ⊢
      obtain ⟨slot, hslot⟩ := Option.isSome_iff_exists.mp (hres hash List.mem_cons_self)
      rw [List.map_cons, hslot, List.reduceOption_cons_of_some, List.map_cons]
      refine .cons (hexact span List.mem_cons_self hash slot hhash hslot) (ih ?_ ?_ ?_)
      · exact fun x hx => hsome x (List.mem_cons_of_mem _ hx)
      · exact fun x hx => hres x (List.mem_cons_of_mem _ hx)
      · exact fun x hx => hexact x (List.mem_cons_of_mem _ hx)

theorem PlanOf.executes
    (h : PlanOf sequenceIndex blockSize scheduledStart scheduledCount candidates plan) :
    ExecutesAsRecurrence HV V K exp scale plan := by
  intro W recompute complete sidecar initialState w
  have hnames : ¬ plan.reuseHashes.any Option.isNone = true := by
    rw [Bool.not_eq_true, List.any_eq_false]
    intro x hx
    rw [Bool.not_eq_true, Option.isNone_eq_false_iff]
    exact h.hash_isSome x hx
  refine ⟨?_, ?_⟩
  · intro hmissing
    rw [GdnDeltaOperatorSidecar.containsMany, List.all_eq_false] at hmissing
    obtain ⟨hash, hin, hnone⟩ := hmissing
    rw [Bool.not_eq_true, Option.isSome_eq_false_iff, Option.isNone_iff_eq_none] at hnone
    rw [executeGdnDeltaSequencePlan, if_neg hnames,
      GdnDeltaOperatorSidecar.lookupMany_of_missing hin hnone]
  · intro tokens hlen hres hrec hreuse hcomplete
    rw [GdnDeltaOperatorSidecar.containsMany, List.all_eq_true] at hres
    have hsome : ∀ span ∈ plan.spans.filter (fun span => decide (span.mode = .affineReuse)),
        span.sourceContextualHash.isSome = true := by
      intro span hspan
      exact h.hash_isSome _ (List.mem_map_of_mem hspan)
    have hentries : List.Forall₂
        (fun span e => ReusesExactly exp scale tokens span e.toGdnAffineOperator)
        (plan.spans.filter fun span => span.mode = .affineReuse)
        ((plan.reuseHashes.reduceOption.map fun h => get sidecar.keyToSlot h).reduceOption.map
          sidecar.entryAt) := by
      refine forall₂_resolved hsome hres ?_
      intro span hspan
      obtain ⟨hin, hmode⟩ := List.mem_filter.mp hspan
      exact hreuse span hin (of_decide_eq_true hmode)
    obtain ⟨result, w', hspans, hexact, hcount⟩ :=
      executeSpans_exact hrec hcomplete initialState w h.tiles hlen hentries
    refine ⟨result, { sidecar with
      keyToSlot := plan.reuseHashes.reduceOption.foldl moveToEnd sidecar.keyToSlot }, w', ?_, hexact,
      hcount⟩
    have houtputs : result.outputs.length = plan.scheduledEndToken - plan.scheduledStartToken := by
      have := congrArg (fun x => x.2.length) hexact
      dsimp only at this
      rw [this, gatedDelta, Scan.length_run, length_slice _ hlen]
    rw [executeGdnDeltaSequencePlan, if_neg hnames,
      GdnDeltaOperatorSidecar.lookupMany_of_resident hres]
    dsimp only
    rw [hspans]
    dsimp only [bind, Except.bind]
    rw [if_neg (not_not_intro rfl), if_neg (not_not_intro houtputs)]

end

/-! ### The plans of a batch -/

/-- The plan of every sequence, at its index. -/
theorem buildSequencePlans_ok (blockSize : Nat) : ∀ (items : List ((Int × Int) ×
    List (Int × ContextualHash))) (sequenceIndex : Nat),
    (∀ x ∈ items, 0 ≤ x.1.1 ∧ 0 ≤ x.1.2 ∧ ValidCandidates x.2) →
    ∃ plans, buildSequencePlans blockSize sequenceIndex items = .ok plans ∧
      plans.length = items.length ∧ ∀ i x, items[i]? = some x →
        plans[i]? = some (sequencePlan (sequenceIndex + i) blockSize x.1.1.toNat x.1.2.toNat
          (naturalCandidates x.2)) := by
  intro items
  induction items with
  | nil =>
      intro sequenceIndex _
      refine ⟨[], rfl, rfl, ?_⟩
      intro i x hx
      cases hx
  | cons item items ih =>
      intro sequenceIndex hvalid
      obtain ⟨⟨start, count⟩, cs⟩ := item
      obtain ⟨hstart, hcount, hcs⟩ := hvalid _ List.mem_cons_self
      obtain ⟨plans, hplans, hlen, hget⟩ := ih (sequenceIndex + 1)
        fun x hx => hvalid x (List.mem_cons_of_mem _ hx)
      dsimp only at hstart hcount hcs
      refine ⟨sequencePlan sequenceIndex blockSize start.toNat count.toNat (naturalCandidates cs)
        :: plans, ?_, ?_, ?_⟩
      · rw [buildSequencePlans, if_neg (by omega), candidateByBlock_ok hcs]
        dsimp only [bind, Except.bind]
        rw [hplans]
      · rw [List.length_cons, hlen, List.length_cons]
      · intro i x hx
        cases i with
        | zero =>
            obtain rfl : ((start, count), cs) = x := Option.some.inj hx
            rfl
        | succ i =>
            have := hget i x hx
            rwa [Nat.add_assoc, Nat.add_comm 1 i] at this

/-- **Executing a plan is the recurrence.**  Every scheduled interval gets a plan whose spans tile it,
whose reuse spans are the whole candidate blocks inside of it, and whose reused and skipped blocks are
the candidates.  With exact operators and an exact recompute callback the execution of the plan is the
recurrence over the interval; with an operator missing nothing runs and nothing changes. -/
theorem executionPlan_equivalence (R : Type) (HV V K : Nat) [CommRing R] (exp : R → R) (scale : R)
    (numComputedTokens numScheduledTokens : List Int) (blockSize : Int)
    (reuseCandidates : List (List (Int × ContextualHash))) (hblock : 1 ≤ blockSize)
    (hscheduled : numScheduledTokens.length = numComputedTokens.length)
    (hcandidates : reuseCandidates.length = numComputedTokens.length)
    (hcomputed : ∀ n ∈ numComputedTokens, 0 ≤ n) (hcounts : ∀ n ∈ numScheduledTokens, 0 ≤ n)
    (hvalid : ∀ cs ∈ reuseCandidates, ValidCandidates cs) :
    ∃ plans, buildGdnDeltaExecutionPlans numComputedTokens numScheduledTokens blockSize
        reuseCandidates = .ok plans ∧ plans.length = numComputedTokens.length ∧
      ∀ i plan start count cs, plans[i]? = some plan → numComputedTokens[i]? = some start →
        numScheduledTokens[i]? = some count → reuseCandidates[i]? = some cs →
        -- the interval and its consecutive segments
        plan.sequenceIndex = i ∧ plan.scheduledStartToken = start.toNat ∧
        plan.scheduledEndToken = start.toNat + count.toNat ∧
        Tiles GdnDeltaExecutionSpan.startToken GdnDeltaExecutionSpan.endToken
          plan.scheduledStartToken plan.spans plan.scheduledEndToken ∧
        -- the reuse segments are the whole candidate blocks of the interval
        plan.spans.filter (fun span => span.mode = .affineReuse)
          = plan.reusedBlockIndices.map
              (affineReuseSpan i blockSize.toNat (naturalCandidates cs)) ∧
        (∀ b, b ∈ plan.reusedBlockIndices ↔ b ∈ keys (naturalCandidates cs) ∧
          plan.scheduledStartToken ≤ b * blockSize.toNat ∧
          b * blockSize.toNat + blockSize.toNat ≤ plan.scheduledEndToken) ∧
        (plan.reusedBlockIndices ++ plan.skippedCandidateBlockIndices).Perm
          (keys (naturalCandidates cs)) ∧
        ExecutesAsRecurrence HV V K exp scale plan := by
  obtain ⟨plans, hplans, hlen, hget⟩ := buildSequencePlans_ok blockSize.toNat
    ((numComputedTokens.zip numScheduledTokens).zip reuseCandidates) 0 (by
      rintro ⟨⟨start, count⟩, cs⟩ hx
      obtain ⟨hpair, hcs⟩ := List.of_mem_zip hx
      obtain ⟨hstart, hcount⟩ := List.of_mem_zip hpair
      exact ⟨hcomputed _ hstart, hcounts _ hcount, hvalid _ hcs⟩)
  refine ⟨plans, ?_, ?_, ?_⟩
  · rw [buildGdnDeltaExecutionPlans, if_neg (by omega), if_neg (not_not_intro hscheduled),
      if_neg (not_not_intro hcandidates), hplans]
  · rw [hlen, List.length_zip, List.length_zip, hscheduled, hcandidates, min_self, min_self]
  · intro i plan start count cs hplan hstart hcount hcs
    have hitem : ((numComputedTokens.zip numScheduledTokens).zip reuseCandidates)[i]?
        = some ((start, count), cs) :=
      List.getElem?_zip_eq_some.mpr ⟨List.getElem?_zip_eq_some.mpr ⟨hstart, hcount⟩, hcs⟩
    have hpos : 0 < blockSize.toNat := by omega
    have hspec := sequencePlan_spec hpos
      (hvalid cs (List.mem_of_getElem? hcs)).nodup_keys i start.toNat count.toNat
    have hsame := hget i _ hitem
    rw [hplan, Nat.zero_add] at hsame
    obtain rfl := Option.some.inj hsame
    exact ⟨hspec.sequenceIndex_eq, hspec.start_eq, hspec.end_eq, hspec.tiles, hspec.reuse_eq,
      hspec.mem_reused, hspec.partition, hspec.executes⟩

/-- Six tokens of one head of width one. -/
def sampleTokens : List (GdnToken ℤ 1 1 1) :=
  [1, 2, 3, 4, 5, 6].map fun n =>
    (⟨fun _ _ => n, fun _ _ => 1, fun _ => 1, fun _ => 1⟩, fun _ _ => n + 1)

/-- The operators of the blocks `[2, 4)` and `[4, 6)`. -/
def sampleSidecar : GdnDeltaOperatorSidecar ℤ 1 1 1 where
  capacity := 2
  blockSize := 2
  operators := fun slot => operatorOf id 1 (slice sampleTokens (2 * slot + 2) (2 * slot + 4))
  keyToSlot := [([8], 0), ([9], 1)]
  freeSlots := []

/-- A request with one computed token and five scheduled ones: its blocks 1 and 2 are reused, block 3
is not in the interval, and the execution is the recurrence over the five tokens. -/
theorem sample_plan_executed : ∃ plan,
    buildGdnDeltaExecutionPlans [1] [5] 2 [[(2, [9]), (3, [7]), (1, [8])]] = .ok [plan] ∧
    plan.reusedBlockIndices = [1, 2] ∧ plan.skippedCandidateBlockIndices = [3] ∧
    ∃ result sidecar, executeGdnDeltaSequencePlan (W := Unit)
        (fun a b state w => .ok (gatedDelta id 1 state (slice sampleTokens a b), w))
        (fun _ _ w => .ok w) plan (fun _ => 1) sampleSidecar () = .ok (some result, sidecar, ()) ∧
      (result.finalState, result.outputs)
        = gatedDelta id 1 (fun _ => 1) (slice sampleTokens 1 6) := by
  obtain ⟨plans, hplans, -, hplan⟩ := executionPlan_equivalence ℤ 1 1 1 id 1 [1] [5] 2
    [[(2, [9]), (3, [7]), (1, [8])]] (by decide) rfl rfl (by decide) (by decide) (by
      intro cs hcs
      rw [List.mem_singleton] at hcs
      subst hcs
      exact ⟨by decide, by decide, by decide⟩)
  have hbuild : buildGdnDeltaExecutionPlans [1] [5] 2 [[(2, [9]), (3, [7]), (1, [8])]]
      = .ok [sequencePlan 0 2 1 5 [(2, [9]), (3, [7]), (1, [8])]] := rfl
  obtain rfl : [_] = plans := Except.ok.inj (hbuild.symm.trans hplans)
  obtain ⟨-, -, -, -, -, -, -, hexec⟩ := hplan 0 _ 1 5 _ rfl rfl rfl rfl
  refine ⟨_, hbuild, by decide, by decide, ?_⟩
  obtain ⟨result, sidecar, ⟨⟩, hrun, hexact, -⟩ := (hexec (W := Unit)
    (fun a b state w => .ok (gatedDelta id 1 state (slice sampleTokens a b), w))
    (fun _ _ w => .ok w) sampleSidecar (fun _ => 1) ()).2 sampleTokens (by decide) (by decide)
    (fun a b state w _ _ => ⟨w, rfl⟩) (by
      intro span hspan hmode hash slot hhash hslot state
      rw [show (sequencePlan 0 2 1 5 [(2, [9]), (3, [7]), (1, [8])]).spans
        = [recomputeSpan 0 1 2, affineReuseSpan 0 2 [(2, [9]), (3, [7]), (1, [8])] 1,
          affineReuseSpan 0 2 [(2, [9]), (3, [7]), (1, [8])] 2] by decide] at hspan
      rcases List.mem_cons.mp hspan with rfl | hspan
      · cases hmode
      rcases List.mem_cons.mp hspan with rfl | hspan
      · obtain rfl : [8] = hash := Option.some.inj hhash
        obtain rfl : 0 = slot := Option.some.inj hslot
        exact applyGdnAffineOperator_operatorOf id 1 state _
      · obtain rfl := List.mem_singleton.mp hspan
        obtain rfl : [9] = hash := Option.some.inj hhash
        obtain rfl : 1 = slot := Option.some.inj hslot
        exact applyGdnAffineOperator_operatorOf id 1 state _)
    (fun _ _ w => ⟨w, rfl⟩)
  exact ⟨result, sidecar, hrun, hexact⟩

end CacheSelect.Gdn

import CacheSelect.Gdn.ActivePrefill
import CacheSelect.Gdn.SidecarIndex

/-! # What the active path returns

A prefill that is admitted for active reuse either raises, because it does not start at a whole block of the
sidecar or the state blocks are not whole blocks of the sidecar, or the active path returns: nothing when no
candidate is scheduled as a whole or an operator is missing, and else a result, whatever the operators are.

`executeActiveGdnPrefill_eq_prefillForward` says what the result is with exact operators; here the operators
only have to be of whole blocks.  `gdnActiveForward_ok_iff` says for which batches a step in active mode
returns.
-/

namespace CacheSelect.Gdn

open CacheSelect.Core OrderedDict Segments Writes

section

variable {R : Type} {HV V K : Nat}

/-- An operator of a block: one response and one bias for each token. -/
def GdnAffineOperator.OfBlock (blockSize : Nat) (operator : GdnAffineOperator R HV V K) : Prop :=
  operator.outputResponses.length = blockSize ∧ operator.outputBiases.length = blockSize

variable [CommRing R] (exp : R → R) (scale : R)

theorem applyGdnAffineOperator_ofBlock {blockSize : Nat} {operator : GdnAffineOperator R HV V K}
    (h : operator.OfBlock blockSize) (incoming : RecurrentState R HV V K) :
    ∃ outgoing outputs, applyGdnAffineOperator incoming operator = .ok (outgoing, outputs) ∧
      outputs.length = blockSize := by
  refine ⟨_, _, if_neg (not_not_intro (h.2.trans h.1.symm)), ?_⟩
  rw [List.length_zipWith, h.1, h.2, Nat.min_self]

variable {tokens : List (GdnToken R HV V K)} {start stop blockSize : Nat} {row : List Nat}

/-- One span returns from every incoming state. -/
theorem executeSpan_returns {logicalBlockSize : Nat} (hpos : 0 < logicalBlockSize)
    (hchunk : FLA_CHUNK_SIZE ∣ logicalBlockSize) (hpage : logicalBlockSize ∣ blockSize)
    (hbs : 0 < blockSize) {span : GdnDeltaExecutionSpan} (hspan : ActiveSpan logicalBlockSize span)
    (hstart : start ≤ span.startToken) (hlt : span.startToken < span.endToken)
    (hlen : span.endToken ≤ tokens.length)
    (hslots : WritableSlots blockSize row span.startToken span.endToken)
    {entries rest : List (GdnDeltaCacheEntry R HV V K)}
    (hentries : (span.mode = .recompute ∧ entries = rest) ∨ (span.mode = .affineReuse ∧
      ∃ e, entries = e :: rest ∧ e.toGdnAffineOperator.OfBlock logicalBlockSize))
    (incoming : RecurrentState R HV V K) (stateCache : Nat → RecurrentState R HV V K) :
    ∃ outgoing outputs m m',
      executeSpan (activeRecomputeSpan exp scale (tokens.drop start) [row] blockSize start) span
        entries incoming stateCache = .ok ((outgoing, outputs), rest, m) ∧
      outputs.length = span.endToken - span.startToken ∧
      activeSpanComplete [row] blockSize span outgoing m = .ok m' := by
  rcases hentries with ⟨hmode, rfl⟩ | ⟨hmode, e, rfl, he⟩
  · have haligned : BoundariesAligned blockSize FLA_CHUNK_SIZE span.startToken span.endToken :=
      ⟨hchunk.trans hpage, Or.inr (hchunk.trans hspan.1)⟩
    have hfollows : FollowsRecurrence exp scale tokens
        (fun n => (gatedDelta exp scale incoming (slice tokens span.startToken n)).1)
        span.startToken span.endToken := followsRecurrence_gatedDelta tokens incoming _ _
    have hrun := activeRecomputeSpan_ok hstart hlt hbs hfollows hlen haligned hslots stateCache
    rw [slice_self] at hrun
    obtain ⟨m, hrun⟩ : ∃ m, activeRecomputeSpan exp scale (tokens.drop start) [row] blockSize start
        span.startToken span.endToken incoming stateCache
        = .ok (gatedDelta exp scale incoming (slice tokens span.startToken span.endToken), m) :=
      ⟨_, hrun⟩
    have hcount : (gatedDelta exp scale incoming
        (slice tokens span.startToken span.endToken)).2.length
          = span.endToken - span.startToken := by
      rw [gatedDelta, Scan.length_run, length_slice _ hlen]
    have hskip : ∀ (outgoing : RecurrentState R HV V K) (m : Nat → RecurrentState R HV V K),
        activeSpanComplete [row] blockSize span outgoing m = .ok m := fun _ _ => if_pos (by rw [hmode]; decide)
    refine ⟨(gatedDelta exp scale incoming (slice tokens span.startToken span.endToken)).1,
      (gatedDelta exp scale incoming (slice tokens span.startToken span.endToken)).2, m, m, ?_,
      hcount, hskip _ m⟩
    rw [executeSpan.eq_def, hmode]
    dsimp only
    rw [hrun]
    rfl
  · obtain ⟨outgoing, outputs, happly, hcount⟩ := applyGdnAffineOperator_ofBlock he incoming
    obtain ⟨block, hblock⟩ := hspan.1
    have hsame : span.startToken / blockSize = (span.endToken - 1) / blockSize := by
      rw [hspan.2 hmode, hblock, Nat.mul_comm]
      exact block_in_page hpos hpage block
    obtain ⟨state, hstate⟩ : ∃ state : Nat → RecurrentState R HV V K, ∀ n, state n = outgoing :=
      ⟨fun _ => outgoing, fun _ => rfl⟩
    have hdone : activeSpanComplete [row] blockSize span (state span.endToken) stateCache
        = .ok (writeAll stateCache
            (checkpointWrites blockSize row state span.startToken span.endToken)) :=
      activeSpanComplete_ok hbs hmode hlt hsame hslots stateCache
    rw [hstate] at hdone
    refine ⟨outgoing, outputs, stateCache, _, ?_, ?_, hdone⟩
    · rw [executeSpan.eq_def, hmode]
      dsimp only
      rw [happly]
      rfl
    · rw [hcount, hspan.2 hmode, Nat.add_sub_cancel_left]

/-- **The spans of a plan** return from every incoming state, with any operators of whole blocks. -/
theorem executeSpans_returns {logicalBlockSize : Nat} (hpos : 0 < logicalBlockSize)
    (hchunk : FLA_CHUNK_SIZE ∣ logicalBlockSize) (hpage : logicalBlockSize ∣ blockSize)
    (hbs : 0 < blockSize) (hlen : stop ≤ tokens.length)
    (hslots : WritableSlots blockSize row start stop) :
    ∀ {spans : List GdnDeltaExecutionSpan} {a : Nat} {entries : List (GdnDeltaCacheEntry R HV V K)}
      (incoming : RecurrentState R HV V K) (stateCache : Nat → RecurrentState R HV V K), start ≤ a →
      Tiles GdnDeltaExecutionSpan.startToken GdnDeltaExecutionSpan.endToken a spans stop →
      (∀ span ∈ spans, ActiveSpan logicalBlockSize span) →
      List.Forall₂ (fun _ e => e.toGdnAffineOperator.OfBlock logicalBlockSize)
        (spans.filter fun span => span.mode = .affineReuse) entries →
      ∃ result m, executeSpans (activeRecomputeSpan exp scale (tokens.drop start) [row] blockSize
          start) (activeSpanComplete [row] blockSize) spans entries incoming stateCache
          = .ok (result, [], m) ∧ result.outputs.length = stop - a := by
  intro spans
  induction spans with
  | nil =>
      intro a entries incoming stateCache _ htiles _ hentries
      have hstop : a = stop := htiles
      subst hstop
      cases hentries
      exact ⟨_, _, rfl, (Nat.sub_self _).symm⟩
  | cons span spans ih =>
      intro a entries incoming stateCache ha htiles hactive hentries
      obtain ⟨hstart, hlt, htiles⟩ := htiles
      have hle := htiles.le
      subst hstart
      obtain ⟨rest, hcase, hrest⟩ := uncons_entries hentries
      obtain ⟨outgoing, outputs, m₁, m₂, hspan, hcount, hcomplete⟩ := executeSpan_returns exp scale
        hpos hchunk hpage hbs (hactive span List.mem_cons_self) ha hlt (hle.trans hlen)
        (hslots.mono ha hle) hcase incoming stateCache
      obtain ⟨result, m₃, hres, hlast⟩ := ih outgoing m₂ (ha.trans (Nat.le_of_lt hlt)) htiles
        (fun s hs => hactive s (List.mem_cons_of_mem _ hs)) hrest
      refine ⟨{ outputs := outputs ++ result.outputs
                finalState := result.finalState
                recomputedTokens := (if span.mode = .recompute
                  then span.endToken - span.startToken else 0) + result.recomputedTokens
                reusedTokens := (if span.mode = .affineReuse
                  then span.endToken - span.startToken else 0) + result.reusedTokens },
        m₃, ?_, ?_⟩
      · rw [executeSpans, if_neg (by omega), hspan]
        change (if _ ≠ _ then _ else _) = _
        rw [if_neg (not_not_intro hcount), hcomplete]
        change (executeSpans _ _ spans rest outgoing m₂ >>= _) = _
        rw [hres]
        rfl
      · rw [List.length_append, hcount, hlast]
        omega

/-! ### Plans -/

/-- **A plan** runs with all of its operators, or leaves everything as it is. -/
theorem executeGdnDeltaSequencePlan_returns {sidecar : GdnDeltaOperatorSidecar R HV V K}
    (hpos : 0 < sidecar.blockSize) (hchunk : FLA_CHUNK_SIZE ∣ sidecar.blockSize)
    (hpage : sidecar.blockSize ∣ blockSize) (hbs : 0 < blockSize)
    (hcomputed : sidecar.blockSize ∣ start) (hlt : start < tokens.length)
    (hslots : WritableSlots blockSize row start tokens.length)
    {candidates : List (Nat × ContextualHash)} (hnd : (keys candidates).Nodup)
    (hsized : ∀ e ∈ sidecar.contents, e.2.OfBlock sidecar.blockSize)
    {plan : GdnDeltaSequenceExecutionPlan}
    (hplan : plan = sequencePlan 0 sidecar.blockSize start (tokens.length - start) candidates)
    (incoming : RecurrentState R HV V K) (stateCache : Nat → RecurrentState R HV V K) :
    if sidecar.containsMany plan.reuseHashes.reduceOption = true then
      ∃ result m, executeGdnDeltaSequencePlan
        (activeRecomputeSpan exp scale (tokens.drop start) [row] blockSize start)
        (activeSpanComplete [row] blockSize) plan incoming sidecar stateCache
          = .ok (some result, (sidecar.lookupMany plan.reuseHashes.reduceOption).2, m) ∧
        result.outputs.length = tokens.length - start
    else executeGdnDeltaSequencePlan
      (activeRecomputeSpan exp scale (tokens.drop start) [row] blockSize start)
      (activeSpanComplete [row] blockSize) plan incoming sidecar stateCache
        = .ok (none, sidecar, stateCache) := by
  have hspec := sequencePlan_spec hpos hnd 0 start (tokens.length - start)
  have hactive : ∀ span ∈ (sequencePlan 0 sidecar.blockSize start (tokens.length - start)
      candidates).spans, ActiveSpan sidecar.blockSize span := planSpans_active hcomputed
  rw [← hplan] at hspec hactive
  have hend : start + (tokens.length - start) = tokens.length := Nat.add_sub_cancel' (Nat.le_of_lt hlt)
  have hnames : ¬ plan.reuseHashes.any Option.isNone = true := by
    intro hany
    obtain ⟨x, hx, hnone⟩ := List.any_eq_true.mp hany
    have hsome := hspec.hash_isSome x hx
    rw [Option.isNone_iff_eq_none.mp hnone] at hsome
    cases hsome
  split
  · next hres =>
    rw [GdnDeltaOperatorSidecar.containsMany, List.all_eq_true] at hres
    have hentries : List.Forall₂ (fun _ e => e.toGdnAffineOperator.OfBlock sidecar.blockSize)
        (plan.spans.filter fun span => span.mode = .affineReuse)
        ((plan.reuseHashes.reduceOption.map fun h => get sidecar.keyToSlot h).reduceOption.map
          sidecar.entryAt) := by
      refine forall₂_resolved (P := fun _ operator => operator.OfBlock sidecar.blockSize)
        (fun span hspan => hspec.hash_isSome _ (List.mem_map_of_mem hspan)) hres ?_
      intro span _ hash slot _ hslot
      exact hsized _ (GdnDeltaOperatorSidecar.mem_contents_of_get hslot)
    have htiles := hspec.tiles
    rw [hspec.start_eq, hspec.end_eq, hend] at htiles
    obtain ⟨result, m, hrun, hcount⟩ := executeSpans_returns exp scale hpos hchunk hpage hbs
      (Nat.le_refl _) hslots incoming stateCache (Nat.le_refl _) htiles hactive hentries
    refine ⟨result, m, ?_, hcount⟩
    rw [executeGdnDeltaSequencePlan, if_neg hnames,
      GdnDeltaOperatorSidecar.lookupMany_of_resident hres]
    dsimp only
    rw [hrun]
    dsimp only [bind, Except.bind]
    rw [if_neg (not_not_intro rfl), if_neg (not_not_intro ?_)]
    rw [hspec.start_eq, hspec.end_eq, hend]
    exact hcount
  · next hmiss =>
    rw [GdnDeltaOperatorSidecar.containsMany, List.all_eq_true] at hmiss
    push Not at hmiss
    obtain ⟨h, hin, hnone⟩ := hmiss
    rw [executeGdnDeltaSequencePlan, if_neg hnames,
      GdnDeltaOperatorSidecar.lookupMany_of_missing hin (by simpa using hnone)]

/-! ### The active path -/

variable {cfg : GdnDeltaConfig} {q : BatchRow (GdnToken R HV V K)}
  {cs : List (Int × ContextualHash)}

/-- A single prefill for which active reuse is admitted, as the layer calls the active path. -/
structure AdmittedPrefill (cfg : GdnDeltaConfig) (blockSize : Nat)
    (q : BatchRow (GdnToken R HV V K)) (cs : List (Int × ContextualHash)) : Prop where
  mode : cfg.executionMode = "active"
  cacheMode : cfg.mambaCacheMode = "all"
  backend : cfg.prefillBackend = "triton"
  page : cfg.mambaBlockSize = some blockSize
  candidates : cs ≠ []

/-- The metadata of a batch of one prefill. -/
def singleMetadata (q : BatchRow (GdnToken R HV V K)) : GdnActiveMetadata :=
  ⟨1, 0, 0, some [q.computed], some [0, q.tokens.length]⟩

omit [CommRing R] in
theorem AdmittedPrefill.eligible (h : AdmittedPrefill cfg blockSize q cs) :
    ¬ (assessGdnDeltaActiveAdmission cfg.executionMode cfg.mambaCacheMode cfg.prefillBackend
      (singleMetadata q).numPrefills (singleMetadata q).numDecodes
      (singleMetadata q).numSpecDecodes [cs]).eligible = false := by
  rw [Bool.not_eq_false]
  exact eligible_iff.mpr ⟨h.mode, h.cacheMode, h.backend, rfl, rfl, rfl, cs, h.candidates, rfl⟩

/-- A batch that is not eligible is left to the full recurrence. -/
theorem executeActiveGdnPrefill_ineligible {metadata : GdnActiveMetadata}
    {reuseCandidates : List (List (Int × ContextualHash))}
    (h : (assessGdnDeltaActiveAdmission cfg.executionMode cfg.mambaCacheMode cfg.prefillBackend
      metadata.numPrefills metadata.numDecodes metadata.numSpecDecodes reuseCandidates).eligible
        = false)
    (sidecar : GdnDeltaOperatorSidecar R HV V K) (stateCache : Nat → RecurrentState R HV V K)
    (checkpointRows : List (List Nat)) (initialState : List (RecurrentState R HV V K))
    (tokens : List (GdnToken R HV V K)) :
    ∃ reason, executeActiveGdnPrefill exp scale cfg metadata sidecar stateCache checkpointRows
      initialState tokens reuseCandidates = .ok ((none, reason), sidecar, stateCache) :=
  ⟨_, if_pos h⟩

/-- **An admitted prefill raises** when its start or the state blocks do not fit the blocks of the
sidecar. -/
theorem executeActiveGdnPrefill_unaligned (h : AdmittedPrefill cfg blockSize q cs)
    {sidecar : GdnDeltaOperatorSidecar R HV V K}
    (hunaligned : ¬ (sidecar.blockSize ∣ blockSize ∧ sidecar.blockSize ∣ q.computed))
    (stateCache : Nat → RecurrentState R HV V K) (incoming : RecurrentState R HV V K) :
    ∃ e, executeActiveGdnPrefill exp scale cfg (singleMetadata q) sidecar stateCache [q.table]
      [incoming] q.tokens [cs] = .error e := by
  rw [executeActiveGdnPrefill, if_neg h.eligible]
  cases hgeometry : activeGeometry cfg (singleMetadata q) sidecar.blockSize 1 1 with
  | error e => exact ⟨e, rfl⟩
  | ok x =>
      obtain ⟨page, computed, scheduled⟩ := x
      obtain ⟨-, -, hpage, -, hdvd, hmod, _, _, _, _, hcomputed, -⟩ := activeGeometry_ok hgeometry
      obtain rfl := Option.some.inj (h.page.symm.trans hpage)
      obtain ⟨rfl, -⟩ := List.cons.inj (Option.some.inj hcomputed)
      exact absurd ⟨hdvd, hmod⟩ hunaligned

omit [CommRing R] in
/-- The geometry of an admitted prefill that fits. -/
theorem AdmittedPrefill.geometry (h : AdmittedPrefill cfg blockSize q cs) {logicalBlockSize : Nat}
    (hchunk : FLA_CHUNK_SIZE ∣ logicalBlockSize) (hpage : logicalBlockSize ∣ blockSize)
    (hcomputed : logicalBlockSize ∣ q.computed) :
    activeGeometry cfg (singleMetadata q) logicalBlockSize 1 1
      = .ok (blockSize, q.computed, (q.tokens.length : Int)) := by
  rw [activeGeometry, if_neg (by omega), h.page]
  dsimp only [singleMetadata]
  rw [if_neg (not_not_intro (Nat.mod_eq_zero_of_dvd hchunk)),
    if_neg (not_not_intro (Nat.mod_eq_zero_of_dvd hpage)),
    if_neg (not_not_intro (Nat.mod_eq_zero_of_dvd (hchunk.trans hpage))),
    if_neg (not_not_intro (Nat.mod_eq_zero_of_dvd hcomputed))]
  rfl

/-- The plan of an admitted prefill. -/
def activePlan (logicalBlockSize computed scheduled : Nat) (cs : List (Int × ContextualHash)) :
    GdnDeltaSequenceExecutionPlan :=
  sequencePlan 0 logicalBlockSize computed scheduled (naturalCandidates cs)

/-- **An admitted prefill that fits** runs its plan, or nothing. -/
theorem executeActiveGdnPrefill_returns (h : AdmittedPrefill cfg blockSize q cs) (hbs : 0 < blockSize)
    (hready : q.Ready blockSize) (hcs : ValidCandidates cs)
    {sidecar : GdnDeltaOperatorSidecar R HV V K} (hpos : 0 < sidecar.blockSize)
    (hchunk : FLA_CHUNK_SIZE ∣ sidecar.blockSize) (hpage : sidecar.blockSize ∣ blockSize)
    (hcomputed : sidecar.blockSize ∣ q.computed)
    (hsized : ∀ e ∈ sidecar.contents, e.2.OfBlock sidecar.blockSize)
    {plan : GdnDeltaSequenceExecutionPlan}
    (hplan : plan = activePlan sidecar.blockSize q.computed q.tokens.length cs)
    (stateCache : Nat → RecurrentState R HV V K) (incoming : RecurrentState R HV V K) :
    (plan.reusedBlockIndices = [] → executeActiveGdnPrefill exp scale cfg (singleMetadata q) sidecar
      stateCache [q.table] [incoming] q.tokens [cs]
        = .ok ((none, "no_fully_scheduled_candidates"), sidecar, stateCache)) ∧
    (plan.reusedBlockIndices ≠ [] →
      sidecar.containsMany plan.reuseHashes.reduceOption = false →
      executeActiveGdnPrefill exp scale cfg (singleMetadata q) sidecar stateCache [q.table] [incoming]
        q.tokens [cs] = .ok ((none, "operator_not_resident"), sidecar, stateCache)) ∧
    (plan.reusedBlockIndices ≠ [] →
      sidecar.containsMany plan.reuseHashes.reduceOption = true →
      ∃ result m, executeActiveGdnPrefill exp scale cfg (singleMetadata q) sidecar stateCache [q.table]
        [incoming] q.tokens [cs]
          = .ok ((some result, "executed"),
              (sidecar.lookupMany plan.reuseHashes.reduceOption).2, m) ∧
        result.outputs.length = q.tokens.length) := by
  obtain ⟨token, htoken⟩ : ∃ token, token ∈ q.tokens :=
    List.exists_mem_of_length_pos hready.nonempty
  -- a prompt that ends with the scheduled tokens
  obtain ⟨prompt, hdrop, hlen⟩ : ∃ prompt : List (GdnToken R HV V K),
      prompt.drop q.computed = q.tokens ∧ prompt.length = q.computed + q.tokens.length := by
    refine ⟨List.replicate q.computed token ++ q.tokens, ?_, ?_⟩
    · rw [List.drop_append_of_le_length (by rw [List.length_replicate]), List.drop_replicate,
        Nat.sub_self]
      rfl
    · rw [List.length_append, List.length_replicate]
  have hslots := hready.slots
  rw [BatchRow.seqLen, ← hlen] at hslots
  have hcount : prompt.length - q.computed = q.tokens.length := by
    rw [hlen, Nat.add_sub_cancel_left]
  have hplan' : plan = sequencePlan 0 sidecar.blockSize q.computed (prompt.length - q.computed)
      (naturalCandidates cs) := by
    rw [hcount]
    exact hplan
  have hrun := executeGdnDeltaSequencePlan_returns exp scale hpos hchunk hpage hbs hcomputed
    (by have := hready.nonempty; omega) hslots hcs.nodup_keys hsized hplan' incoming stateCache
  rw [hdrop, hcount] at hrun
  have hplans : buildGdnDeltaExecutionPlans [(q.computed : Int)] [(q.tokens.length : Int)]
      sidecar.blockSize [cs] = .ok [plan] := by
    rw [buildGdnDeltaExecutionPlans, if_neg (by omega), if_neg (by simp), if_neg (by simp)]
    change buildSequencePlans _ 0 [(((q.computed : Int), (q.tokens.length : Int)), cs)] = _
    rw [buildSequencePlans, if_neg (by omega), candidateByBlock_ok hcs]
    change Except.ok [_] = _
    rw [hplan]
    rfl
  have hcall : executeActiveGdnPrefill exp scale cfg (singleMetadata q) sidecar stateCache [q.table]
      [incoming] q.tokens [cs] = runActiveGdnPrefill exp scale sidecar stateCache [q.table] [incoming]
        q.tokens [cs] blockSize q.computed (q.tokens.length : Int) := by
    rw [executeActiveGdnPrefill, if_neg h.eligible, List.length_singleton, List.length_singleton,
      h.geometry hchunk hpage hcomputed]
    rfl
  refine ⟨?_, ?_, ?_⟩
  · intro hnone
    rw [hcall, runActiveGdnPrefill, hplans]
    exact if_pos hnone
  · intro hsome hmiss
    rw [if_neg (by rw [hmiss]; decide)] at hrun
    rw [hcall, runActiveGdnPrefill, hplans]
    refine (if_neg hsome).trans ?_
    rw [hrun]
    rfl
  · intro hsome hres
    rw [if_pos hres] at hrun
    obtain ⟨result, m, hrun, hlast⟩ := hrun
    refine ⟨result, m, ?_, hlast⟩
    rw [hcall, runActiveGdnPrefill, hplans]
    refine (if_neg hsome).trans ?_
    rw [hrun]
    rfl

/-! ### A step in active mode -/

/-- The check on the admission of active reuse, for a batch. -/
def ActiveAdmitted {T : Type} (cfg : GdnDeltaConfig) (rows : List (BatchRow T))
    (reuseCandidates : List (List (Int × ContextualHash))) : Prop :=
  (assessGdnDeltaActiveAdmission cfg.executionMode cfg.mambaCacheMode cfg.prefillBackend
    (gdnActiveMetadata rows).numPrefills (gdnActiveMetadata rows).numDecodes
    (gdnActiveMetadata rows).numSpecDecodes reuseCandidates).eligible = true

instance {T : Type} (cfg : GdnDeltaConfig) (rows : List (BatchRow T))
    (reuseCandidates : List (List (Int × ContextualHash))) :
    Decidable (ActiveAdmitted cfg rows reuseCandidates) :=
  inferInstanceAs (Decidable (_ = true))

/-- A sidecar whose operators are of its whole blocks, which are whole chunks of the kernel. -/
structure GdnDeltaOperatorSidecar.Fits (sidecar : GdnDeltaOperatorSidecar R HV V K) : Prop where
  pos : 0 < sidecar.blockSize
  chunks : FLA_CHUNK_SIZE ∣ sidecar.blockSize
  sized : ∀ e ∈ sidecar.contents, e.2.OfBlock sidecar.blockSize

variable {rows : List (BatchRow (GdnToken R HV V K))}
  {reuseCandidates : List (List (Int × ContextualHash))}

omit [CommRing R] in
/-- An admitted batch is one prefill with candidates. -/
theorem ActiveAdmitted.single (h : ActiveAdmitted cfg rows reuseCandidates)
    (hpage : cfg.mambaBlockSize = some blockSize) :
    ∃ q cs, rows = [q] ∧ q.isDecode = false ∧ reuseCandidates = [cs] ∧
      AdmittedPrefill cfg blockSize q cs := by
  obtain ⟨hmode, hcache, hbackend, -, hdecodes, hprefills, cs, hcs, rfl⟩ := eligible_iff.mp h
  obtain ⟨q, hq⟩ := List.length_eq_one_iff.mp hprefills
  have hnone : (rows.filter fun row => row.isDecode) = [] := List.length_eq_zero_iff.mp hdecodes
  have hperm := filter_perm rows
  rw [hnone, hq, List.nil_append] at hperm
  have hmem : q ∈ rows.filter fun row => !row.isDecode := by
    rw [hq]
    exact List.mem_singleton_self q
  exact ⟨q, cs, List.perm_singleton.mp hperm.symm, (Bool.not_eq_true' _).mp (List.mem_filter.mp hmem).2, rfl,
    hmode, hcache, hbackend, hpage, hcs⟩

end

end CacheSelect.Gdn

import CacheSelect.Gdn.LayerRunner

/-! # The steps of a runner

What one call leaves of a runner, as far as it decides what the next step reuses: the index that the sidecars
of all layers share, and the hashes and candidates of a request.  A new request whose plan has resident
operators is eligible, and a step whose batch fits returns and leaves the index of its pass.

`forward_all_or_none` is the main result: either all layers of a step reuse or none does, and then the step
is the one of a model that reuses nothing.
-/

namespace CacheSelect.Gdn

open CacheSelect.Core OrderedDict Transition

/-! ### The results of the comparisons -/

/-- The rows of a comparison are rows of the batch. -/
theorem shadowRows_lt {batch : List ScheduledRequest} : ∀ n ∈ shadowRows batch, n < batch.length := by
  intro n hn
  obtain ⟨c, hc, rfl⟩ := List.mem_map.mp hn
  obtain ⟨cs, hcs, -⟩ := mem_indexedCandidates.mp hc
  obtain ⟨hlt, -⟩ := List.getElem?_eq_some_iff.mp hcs
  rw [List.length_map] at hlt
  have hperm := List.length_eq_length_filter_add (l := batch) ScheduledRequest.isDecode
  omega

section

variable {R : Type} {HV V K H : Nat} {C : Type} {s : GdnRunner R HV V K C} {reqIds : List String}

/-- **The summary of the comparisons** returns when all rows are rows of the batch, and groups the results by
the requests of their rows. -/
theorem summarize_ok (hrows : ∀ x ∈ s.shadowResults, x.2.sequenceIndex < reqIds.length) :
    s.summarizeGdnDeltaShadowResults reqIds
      = .ok (grouped (fun x => reqIds.getD x.2.sequenceIndex "") id s.shadowResults) := by
  rw [GdnRunner.summarizeGdnDeltaShadowResults]
  revert hrows
  induction s.shadowResults using List.reverseRecOn with
  | nil => intro _; rfl
  | append_singleton xs x ih =>
      intro hrows
      have hx : x.2.sequenceIndex < reqIds.length := hrows x (List.mem_append_right _ List.mem_cons_self)
      rw [List.foldlM_append, ih fun y hy => hrows y (List.mem_append_left _ hy), grouped_concat]
      change GdnRunner.addShadowResult reqIds _ x >>= _ = _
      rw [GdnRunner.addShadowResult, List.getElem?_eq_getElem hx, List.getD_eq_getElem?_getD,
        List.getElem?_eq_getElem hx]
      rfl

end

section

variable {R : Type} {HV V K H : Nat} {C : Type} {cfg : GdnModelConfig HV V K}
  {s : GdnRunner R HV V K C} [CommRing R] {exp : R → R} {scale : R}
  {measure : ShadowMeasure R HV V K C} {contents : Nat → GdnAffineOperator R HV V K}
  {entries : List StepEntry} {inputs : StepInputs R HV V K H}
  {records : List (LayerRecord R HV V K H C)}

/-- The runner when the layers of a step have run. -/
def GdnRunner.afterForward (s : GdnRunner R HV V K C) (records : List (LayerRecord R HV V K H C)) :
    GdnRunner R HV V K C :=
  { s with layers := records.map LayerRecord.layerAfter }

/-- The layers of a step report the same rows. -/
theorem compared_rows_alike {x : Option SidecarIndex}
    (hpass : ForwardPass exp scale cfg s entries inputs records)
    (hx : ∀ r ∈ records, r.before.sidecar.map GdnDeltaOperatorSidecar.index = x) :
    ∀ layer ∈ (s.afterForward records).layers,
      layer.2.lastShadowResults.map GdnDeltaBlockShadowResult.sequenceIndex
        = if stepCompares cfg ((sortEntries entries).map s.request) x = true
          then shadowRows ((sortEntries entries).map s.request) else [] := by
  intro layer hlayer
  obtain ⟨r, hr, rfl⟩ := List.mem_map.mp hlayer
  obtain ⟨hbatch, hstep⟩ := hpass.steps r hr
  refine hstep.compared.trans ?_
  rw [hbatch, hx r hr]

theorem shadowResults_lt {x : Option SidecarIndex}
    (hpass : ForwardPass exp scale cfg s entries inputs records)
    (hx : ∀ r ∈ records, r.before.sidecar.map GdnDeltaOperatorSidecar.index = x) :
    ∀ y ∈ (s.afterForward records).shadowResults,
      y.2.sequenceIndex < ((sortEntries entries).map StepEntry.reqId).length := by
  intro y hy
  obtain ⟨layer, hlayer, hy⟩ := List.mem_flatMap.mp hy
  obtain ⟨result, hresult, rfl⟩ := List.mem_map.mp hy
  have hin := List.mem_map_of_mem (f := GdnDeltaBlockShadowResult.sequenceIndex) hresult
  rw [compared_rows_alike hpass hx layer hlayer] at hin
  split at hin
  · have := shadowRows_lt _ hin
    rw [List.length_map] at this ⊢
    exact this
  · cases hin

/-- **The evidence of a step is recorded** without an error. -/
theorem recordMetrics_ok {x : Option SidecarIndex}
    (hpass : ForwardPass exp scale cfg s entries inputs records)
    (hx : ∀ r ∈ records, r.before.sidecar.map GdnDeltaOperatorSidecar.index = x) :
    ∃ t, (s.afterForward records).recordMetrics ((sortEntries entries).map StepEntry.reqId)
      = .ok t := by
  rw [GdnRunner.recordMetrics, summarize_ok (shadowResults_lt hpass hx)]
  exact ⟨_, rfl⟩

/-! ### What a call leaves -/

/-- The sidecars of all layers have the same index. -/
def GdnRunner.Alike (s : GdnRunner R HV V K C) (x : Option SidecarIndex) : Prop :=
  ∀ layer ∈ s.layers, layer.2.sidecar.map GdnDeltaOperatorSidecar.index = x

omit [CommRing R] in
theorem Initial.alike (h : Initial s) : s.Alike none := by
  intro layer hlayer
  rw [h.sidecars layer hlayer, Option.map_none]

/-- The runner when a new request has only its hashes. -/
theorem addRequest_eq (s : GdnRunner R HV V K C) (reqId : String) (hashes : List ContextualHash)
    (plan : Option GdnDeltaReusePlan) :
    ∃ t : GdnRunner R HV V K C, s.addRequest reqId hashes plan = t.addPlan reqId plan ∧
      t.layers = s.layers ∧ (get t.contextualBlockHashes reqId).getD [] = hashes ∧
      get t.gdnDeltaReusePlans reqId = none := by
  refine ⟨_, rfl, ?_, ?_, ?_⟩
  · split
    · rfl
    · rfl
  · split
    · next hnil =>
      rw [GdnRunner.removeRequest, get_erase, if_pos rfl, Option.getD_none, hnil]
    · rw [get_put, if_pos rfl, Option.getD_some]
  · split
    · exact (get_erase ..).trans (if_pos rfl)
    · exact (get_erase ..).trans (if_pos rfl)

/-- A new request without a plan. -/
theorem addRequest_plain (s : GdnRunner R HV V K C) (reqId : String) (hashes : List ContextualHash) :
    ∃ s', s.addRequest reqId hashes none = .ok s' ∧ s'.layers = s.layers ∧
      ∀ computed scheduled, s'.request ⟨reqId, computed, scheduled⟩
        = ⟨computed, scheduled, hashes, []⟩ := by
  obtain ⟨t, ht, hlayers, hhashes, hplan⟩ := addRequest_eq s reqId hashes none
  refine ⟨t, ht, hlayers, ?_⟩
  intro computed scheduled
  rw [GdnRunner.request, GdnRunner.reuseCandidates, hplan, hhashes]

/-- **A new request whose operators are resident** in the sidecars of all layers is eligible: its candidates
are those of its plan. -/
theorem addRequest_eligible {x : SidecarIndex} (hx : s.Alike (some x)) (hlayers : s.layers ≠ [])
    (reqId : String) (hashes : List ContextualHash) {plan : GdnDeltaReusePlan}
    (hcand : plan.candidates ≠ []) (hsize : x.blockSize = plan.blockSize)
    (hres : x.containsMany (plan.candidates.map GdnDeltaReuseCandidate.sourceContextualHash)
      = true) :
    ∃ s', s.addRequest reqId hashes (some plan) = .ok s' ∧
      s'.layers.length = s.layers.length ∧
      s'.Alike (some (x.after (.lookupMany
        (plan.candidates.map GdnDeltaReuseCandidate.sourceContextualHash)))) ∧
      (∀ computed scheduled, s'.request ⟨reqId, computed, scheduled⟩
        = ⟨computed, scheduled, hashes, plan.reuseCandidates⟩) ∧
      ∃ metrics, get s'.pendingGdnDeltaReuseMetrics reqId = some metrics ∧
        metrics.preflightEligible = true := by
  obtain ⟨t, ht, htlayers, hhashes, -⟩ := addRequest_eq s reqId hashes (some plan)
  obtain ⟨result, s', hrun, helig, hlayers', hhashes', hplans, hpreflights, hpending⟩ :=
    addPlan_ok t reqId plan
  have heligible : result.eligible = true := by
    refine helig hcand (by rw [htlayers]; exact hlayers) ?_
    intro layer hlayer
    rw [htlayers] at hlayer
    obtain ⟨sidecar, hsidecar, hindex⟩ := Option.map_eq_some_iff.mp (hx layer hlayer)
    refine ⟨sidecar, hsidecar, ?_, ?_⟩
    · rw [← hsize, ← hindex]
      rfl
    · rw [← GdnDeltaOperatorSidecar.index_containsMany, hindex]
      exact hres
  refine ⟨s', ht.trans hrun, ?_, ?_, ?_, ?_⟩
  · rw [hlayers', List.length_map, htlayers]
  · intro layer hlayer
    rw [hlayers', htlayers] at hlayer
    obtain ⟨layer₀, hlayer₀, rfl⟩ := List.mem_map.mp hlayer
    obtain ⟨sidecar, hsidecar, hindex⟩ := Option.map_eq_some_iff.mp (hx layer₀ hlayer₀)
    dsimp only
    rw [hsidecar, Option.map_some, Option.map_some, if_pos heligible, ← hindex,
      ← GdnDeltaOperatorSidecar.index_lookupMany]
    rfl
  · intro computed scheduled
    rw [GdnRunner.request, GdnRunner.reuseCandidates, hplans, hpreflights, hhashes', get_put, get_put,
      if_pos rfl, if_pos rfl, hhashes]
    dsimp only
    rw [if_pos heligible]
  · exact ⟨_, by rw [hpending, get_put, if_pos rfl], heligible⟩

/-- **A step whose batch fits** returns and leaves the index of its pass; the layers reuse as the index says. -/
theorem RunnerInv.execute_fits (h : RunnerInv cfg s) (exp : R → R) (scale : R)
    (measure : ShadowMeasure R HV V K C) (contents : Nat → GdnAffineOperator R HV V K)
    {x : Option SidecarIndex} (hx : s.Alike x)
    (hready : ∀ k < s.layers.length, BatchReady cfg.mambaBlockSize (entries.map (inputs.slots k)))
    (hfits : BatchFits cfg ((sortEntries entries).map s.request)) :
    ∃ records, s.forward exp scale measure cfg contents entries inputs = .ok records ∧
      records.length = s.layers.length ∧
      (∀ r ∈ records,
        r.after.reused = stepReuses cfg ((sortEntries entries).map s.request) x) ∧
      ∃ handed s', s.execute exp scale measure cfg contents entries inputs = .ok (handed, s') ∧
        s'.layers.length = s.layers.length ∧
        s'.Alike (passIndex cfg ((sortEntries entries).map s.request) x) := by
  obtain ⟨records, hforward, hpass⟩ := (h.forward exp scale measure contents hready).1 hfits
  obtain ⟨x', hx', hreused⟩ := h.alike_reused hpass
  obtain ⟨t, ht⟩ := recordMetrics_ok hpass hx'
  have hbefore : ∀ r ∈ records, r.before.sidecar.map GdnDeltaOperatorSidecar.index = x := by
    intro r hr
    refine hx (r.layerName, r.before) ?_
    rw [← hpass.before]
    exact List.mem_map_of_mem hr
  have hlen : records.length = s.layers.length := by
    rw [← hpass.before, List.length_map]
  have htlayers : t.layers = records.map LayerRecord.layerAfter := by
    obtain ⟨summaries, -, ht⟩ := Except.bind_eq_ok.mp ht
    cases ht
    rfl
  refine ⟨records, hforward, hlen, ?_, _, _, Except.bind_eq_ok.mpr ⟨records, hforward,
    Except.bind_eq_ok.mpr ⟨t, ht, rfl⟩⟩, ?_, ?_⟩
  · intro r hr
    rw [hreused r hr, ← hx' r hr, hbefore r hr]
  · change t.layers.length = _
    rw [htlayers, List.length_map, hlen]
  · intro layer hlayer
    change layer ∈ t.layers at hlayer
    rw [htlayers] at hlayer
    obtain ⟨r, hr, rfl⟩ := List.mem_map.mp hlayer
    obtain ⟨hbatch, hstep⟩ := hpass.steps r hr
    refine hstep.keeps.index.trans ?_
    rw [hbatch, hbefore r hr]

/-! ### All or none -/

/-- **All layers of a step reuse, or none.**  In every state that a served runner reaches, and for every
served batch, the forward pass returns exactly when the batch fits.  Then either every layer reuses, with
all operators that the plan needs resident in its sidecar, or none does, and the pass gives the outputs and
the slots of a model that reuses nothing. -/
theorem forward_all_or_none (exp : R → R) (scale : R) (measure : ShadowMeasure R HV V K C)
    (cfg : GdnModelConfig HV V K) (contents : Nat → GdnAffineOperator R HV V K)
    (sha256 : List UInt8 → ContextualHash)
    (hsha : ∀ bytes, sha256 bytes ≠ []) {s₀ : GdnRunner R HV V K C} (h₀ : Initial s₀)
    (hs : ReachableWhen (runnerStep (H := H) exp scale measure cfg contents) (Served sha256 cfg) s₀ s)
    (hlayers : s.layers ≠ []) (hserved : Served sha256 cfg s (.execute entries inputs)) :
    let batch := (sortEntries entries).map s.request
    let forward := s.forward exp scale measure cfg contents entries inputs
    ((∃ records, forward = .ok records) ↔ BatchFits cfg batch) ∧
    ∀ records, forward = .ok records →
      (attemptHashes cfg batch ≠ [] ∧ ∀ r ∈ records, r.after.reused = true ∧
        ∃ sidecar, r.before.sidecar = some sidecar ∧
          sidecar.containsMany (attemptHashes cfg batch) = true) ∨
      (∀ r ∈ records, r.after.reused = false) ∧
        fullForwardLayers exp scale cfg.mambaBlockSize (s.layerRows (sortEntries entries) inputs) []
          (s.layers.map fun layer => layer.2.stateCache)
            = .ok (records.map fun r => (r.outputs, r.after.stateCache)) := by
  intro batch forward
  have h := runnerInv_of_reachable hsha h₀ hs
  obtain ⟨hok, herror⟩ := h.forward exp scale measure contents hserved.2
  refine ⟨⟨?_, ?_⟩, ?_⟩
  · rintro ⟨records, hrun⟩
    by_contra hunfit
    obtain ⟨e, he⟩ := herror hlayers hunfit
    cases hrun.symm.trans he
  · intro hfits
    obtain ⟨records, hrun, -⟩ := hok hfits
    exact ⟨records, hrun⟩
  · intro records hrun
    have hpass := h.forwardPass hserved.2 hrun
    obtain ⟨x, hx, hreused⟩ := h.alike_reused hpass
    cases hstep : stepReuses cfg batch x with
    | false =>
        have hnone : ∀ r ∈ records, r.after.reused = false :=
          fun r hr => (hreused r hr).trans hstep
        exact Or.inr ⟨hnone, hpass.full hnone⟩
    | true =>
        have hresident : ∀ r ∈ records, attemptHashes cfg batch ≠ [] ∧
            ∃ sidecar, r.before.sidecar = some sidecar ∧
              sidecar.containsMany (attemptHashes cfg batch) = true := by
          intro r hr
          refine resident_of_stepReuses ?_
          rw [hx r hr]
          exact hstep
        obtain ⟨r, hr⟩ : ∃ r, r ∈ records := by
          refine List.exists_mem_of_ne_nil _ ?_
          intro hnil
          rw [hnil] at hpass
          exact hlayers hpass.before.symm
        exact Or.inl ⟨(hresident r hr).1, fun r hr => ⟨(hreused r hr).trans hstep, (hresident r hr).2⟩⟩

end

/-! ### One request reuses the blocks of another -/

section

/-- Settings of a model with whole chunks for blocks. -/
def twoLayerConfig (executionMode : String) : GdnModelConfig 1 1 1 where
  executionMode := executionMode
  mambaBlockSize := 64
  capacity := 2
  deltaBlockSize := 64
  numSlots := 8
  mambaBlockSize_pos := Nat.succ_pos _
  deltaBlockSize_pos := Nat.succ_pos _
  capacity_pos := fun _ => Nat.succ_pos _
  chunk_dvd := fun _ => dvd_refl _
  valueHeads_pos := Nat.succ_pos _
  valueWidth_pos := Nat.succ_pos _
  keyWidth_pos := Nat.succ_pos _

def twoLayerMeasure : ShadowMeasure ℤ 1 1 1 Unit :=
  fun _ _ _ _ => ()

/-- Every token of every layer has the same inputs. -/
def twoLayerInputs : StepInputs ℤ 1 1 1 1 where
  table := fun _ e => if e.reqId = "source" then [1] else [2, 3]
  inputs := fun _ _ e =>
    { keys := List.replicate e.numScheduledTokens fun _ _ => 1
      queries := List.replicate e.numScheduledTokens fun _ _ => 1
      values := List.replicate e.numScheduledTokens fun _ _ => 1
      logDecays := List.replicate e.numScheduledTokens fun _ => 0
      betas := List.replicate e.numScheduledTokens fun _ => 1 }
  wellShaped := by
    intro k outputs e
    refine ⟨?_, ?_, ?_, ?_, Nat.succ_pos _, Nat.mod_self _⟩
    all_goals simp
  length_inputs := fun _ _ _ => List.length_replicate ..

def twoLayerRunner : GdnRunner ℤ 1 1 1 Unit where
  layers := [("layers.0", { stateCache := fun _ => 0 }), ("layers.1", { stateCache := fun _ => 0 })]

theorem initial_twoLayerRunner : Initial twoLayerRunner where
  sidecars := by decide
  contextualBlockHashes := rfl
  gdnDeltaReusePlans := rfl
  pendingGdnDeltaReuseMetrics := rfl

/-- A digest without collisions. -/
def sampleDigest (bytes : List UInt8) : ContextualHash :=
  0 :: bytes

/-- A prompt of one block. -/
def servedSource : Request where
  requestId := "source"
  promptTokenIds := some (List.replicate 64 7)

/-- A prompt whose second block is that of the source. -/
def servedTarget : Request where
  requestId := "target"
  promptTokenIds := some (List.replicate 64 8 ++ List.replicate 64 7)
  cacheselectSourceRequestId := some "source"

def sampleHashes (request : Request) : List ContextualHash :=
  (GdnDeltaSourceIndex.promptHashes sampleDigest 64 request).toOption.getD []

/-- The hash of the source's block. -/
def sourceHash : ContextualHash :=
  (sampleHashes servedSource).headD []

def targetPlan : GdnDeltaReusePlan where
  sourceRequestId := "source"
  targetRequestId := "target"
  blockSize := 64
  nativeCachedTokens := 0
  reason := "aligned_candidates"
  candidates := [⟨0, 1, sourceHash⟩]

theorem reuseCandidates_targetPlan : targetPlan.reuseCandidates = [(1, sourceHash)] := by
  decide +kernel

theorem promptHashes_source : PromptHashes sampleDigest [sourceHash] :=
  Or.inr ⟨List.replicate 64 7, 64, none, none, by decide +kernel⟩

theorem promptHashes_target : PromptHashes sampleDigest (sampleHashes servedTarget) :=
  Or.inr ⟨List.replicate 64 8 ++ List.replicate 64 7, 64, none, none, by decide +kernel⟩

theorem located_targetPlan : LocatedPlan sampleDigest targetPlan :=
  ⟨64, 1, none, ⟨64, 1, none, []⟩, [.index servedSource], servedTarget, 0, rfl, by decide +kernel⟩

/-- A prefill from the first token, with slots of its own. -/
theorem batchReady_single {blockSize n : Nat} {table : List Nat} (hn : 0 < n)
    (hlen : (n - 1) / blockSize < table.length) (hnodup : table.Nodup) (hnull : NULL_BLOCK_ID ∉ table) :
    BatchReady blockSize [(⟨table, 0, List.replicate n ()⟩ : BatchRow Unit)] := by
  have hseq : (⟨table, 0, List.replicate n ()⟩ : BatchRow Unit).seqLen = n := by
    rw [BatchRow.seqLen, List.length_replicate, Nat.zero_add]
  have hzero : (0 - 1) / blockSize < table.length := by
    rw [Nat.zero_sub, Nat.zero_div]
    exact Nat.lt_of_le_of_lt (Nat.zero_le _) hlen
  refine ⟨?_, List.pairwise_singleton _ _⟩
  intro row hrow
  rw [List.mem_singleton.mp hrow]
  refine ⟨by rwa [List.length_replicate], hzero, ?_, ?_⟩
  · intro hslot
    rw [BatchRow.inputSlot, List.getD_eq_getElem _ _ hzero] at hslot
    exact hnull (hslot ▸ List.getElem_mem hzero)
  · rw [hseq]
    refine ⟨hlen, ?_, ?_⟩
    · intro b _ _ hb
      exact hnull (List.mem_of_getElem? hb)
    · intro b b' slot _ hb _ hb' hslot hslot'
      obtain ⟨hlt, heq⟩ := List.getElem?_eq_some_iff.mp hslot
      obtain ⟨hlt', heq'⟩ := List.getElem?_eq_some_iff.mp hslot'
      exact (hnodup.getElem_inj_iff).mp (heq.trans heq'.symm)

def noOperators : Nat → GdnAffineOperator ℤ 1 1 1 :=
  fun _ => ⟨0, [], 0, []⟩

def sourceEntries : List StepEntry :=
  [⟨"source", 0, 64⟩]

def targetEntries : List StepEntry :=
  [⟨"target", 0, 128⟩]

/-- The sidecars that hold the source's block. -/
def residentIndex : SidecarIndex where
  capacity := 2
  blockSize := 64
  keyToSlot := [(sourceHash, 0)]
  freeSlots := [1]

theorem served_sourceEntries (executionMode : String) (s : GdnRunner ℤ 1 1 1 Unit) :
    Served sampleDigest (twoLayerConfig executionMode) s (.execute sourceEntries twoLayerInputs) := by
  refine ⟨List.nodup_singleton _, ?_⟩
  intro k _
  change BatchReady 64 [(⟨[1], 0, List.replicate 64 ()⟩ : BatchRow Unit)]
  exact batchReady_single (by decide) (by decide) (by decide) (by decide)

theorem served_targetEntries (executionMode : String) (s : GdnRunner ℤ 1 1 1 Unit) :
    Served sampleDigest (twoLayerConfig executionMode) s (.execute targetEntries twoLayerInputs) := by
  refine ⟨List.nodup_singleton _, ?_⟩
  intro k _
  change BatchReady 64 [(⟨[2, 3], 0, List.replicate 128 ()⟩ : BatchRow Unit)]
  exact batchReady_single (by decide) (by decide) (by decide) (by decide)

/-- A prefill without candidates fits. -/
theorem batchFits_source (executionMode : String) :
    BatchFits (twoLayerConfig executionMode) [⟨0, 64, [sourceHash], []⟩] := by
  have hadm : admitted (twoLayerConfig executionMode) [⟨0, 64, [sourceHash], []⟩] = none :=
    if_neg fun h => h.2.2 rfl
  refine ⟨fun q hq => (by cases hadm.symm.trans hq), ?_⟩
  intro _ q hq _
  rw [List.mem_singleton.mp hq]
  change BoundariesAligned 64 FLA_CHUNK_SIZE 0 64
  decide

theorem batchFits_target (executionMode : String) (hashes : List ContextualHash)
    (candidates : List (Int × ContextualHash)) :
    BatchFits (twoLayerConfig executionMode) [⟨0, 128, hashes, candidates⟩] := by
  refine ⟨?_, ?_⟩
  · intro q hq
    rw [← List.singleton_inj.mp (admitted_eq_some.mp hq).1]
    exact ⟨dvd_refl _, dvd_zero _⟩
  · intro _ q hq _
    rw [List.mem_singleton.mp hq]
    change BoundariesAligned 64 FLA_CHUNK_SIZE 0 128
    decide

/-- The pass of the source stores its block. -/
theorem passIndex_source (executionMode : String) :
    passIndex (twoLayerConfig executionMode) [⟨0, 64, [sourceHash], []⟩] none = some residentIndex := by
  have hadm : admitted (twoLayerConfig executionMode) [⟨0, 64, [sourceHash], []⟩] = none :=
    if_neg fun h => h.2.2 rfl
  have huses : ∀ x, passUses (twoLayerConfig executionMode) [⟨0, 64, [sourceHash], []⟩] x
      = [.lookupMany [], .store sourceHash] := by
    intro x
    rw [passUses, passReuses_of_not_admitted hadm, attemptHashes, hadm]
    change SidecarUse.lookupMany [] :: (shadowUses [⟨0, 64, [sourceHash], []⟩]
      ++ storeUses 64 [⟨0, 64, [sourceHash], []⟩]) = _
    decide +kernel
  change some ((SidecarIndex.init 2 64).run (passUses (twoLayerConfig executionMode)
    [⟨0, 64, [sourceHash], []⟩] (.init 2 64))) = _
  rw [huses]
  rfl

/-- **The source is served and the target arrives**: its plan is eligible in both layers. -/
theorem target_reached (executionMode : String) : ∃ s,
    ReachableWhen (runnerStep (H := 1) id 1 twoLayerMeasure (twoLayerConfig executionMode) noOperators)
      (Served sampleDigest (twoLayerConfig executionMode)) twoLayerRunner s ∧
    s.layers.length = 2 ∧ s.Alike (some residentIndex) ∧
    (∀ computed scheduled, s.request ⟨"target", computed, scheduled⟩
      = ⟨computed, scheduled, sampleHashes servedTarget, [(1, sourceHash)]⟩) ∧
    ∃ metrics, get s.pendingGdnDeltaReuseMetrics "target" = some metrics ∧
      metrics.preflightEligible = true := by
  have hsha : ∀ bytes, sampleDigest bytes ≠ [] := fun _ => List.cons_ne_nil _ _
  -- the source arrives
  obtain ⟨s₁, hadd₁, hlayers₁, hrequest₁⟩ := addRequest_plain twoLayerRunner "source" [sourceHash]
  have hserved₁ : Served (H := 1) sampleDigest (twoLayerConfig executionMode) twoLayerRunner
      (.addRequest "source" [sourceHash] none) :=
    ⟨promptHashes_source, fun _ hp => (by cases hp)⟩
  have hreach₁ := (ReachableWhen.refl (runnerStep (H := 1) id 1 twoLayerMeasure
    (twoLayerConfig executionMode) noOperators) _ twoLayerRunner).tail hserved₁
    (congrArg Except.toOption hadd₁)
  have hinv₁ := runnerInv_of_reachable hsha initial_twoLayerRunner hreach₁
  have halike₁ : s₁.Alike none := by
    intro layer hlayer
    rw [hlayers₁] at hlayer
    exact initial_twoLayerRunner.alike layer hlayer
  -- its prompt is computed
  have hbatch : (sortEntries sourceEntries).map s₁.request = [⟨0, 64, [sourceHash], []⟩] :=
    congrArg (fun q => [q]) (hrequest₁ 0 64)
  obtain ⟨-, -, -, -, handed, s₂, hexec, hlayers₂, halike₂⟩ := hinv₁.execute_fits id 1 twoLayerMeasure
    noOperators halike₁ (served_sourceEntries executionMode s₁).2
    (by rw [hbatch]; exact batchFits_source executionMode)
  have hstep₂ : runnerStep (H := 1) id 1 twoLayerMeasure (twoLayerConfig executionMode) noOperators s₁
      (.execute sourceEntries twoLayerInputs) = some s₂ := by
    rw [runnerStep, hexec]
    rfl
  rw [hbatch, passIndex_source] at halike₂
  rw [hlayers₁] at hlayers₂
  -- the target arrives
  have hcand : targetPlan.candidates ≠ [] := List.cons_ne_nil _ _
  have hres : residentIndex.containsMany
      (targetPlan.candidates.map GdnDeltaReuseCandidate.sourceContextualHash) = true := by
    decide +kernel
  obtain ⟨s₃, hadd₃, hlayers₃, halike₃, hrequest₃, hpending⟩ := addRequest_eligible halike₂
    (List.ne_nil_of_length_pos (by rw [hlayers₂]; decide)) "target" (sampleHashes servedTarget)
    hcand rfl hres
  have hserved₃ : Served (H := 1) sampleDigest (twoLayerConfig executionMode) s₂
      (.addRequest "target" (sampleHashes servedTarget) (some targetPlan)) := by
    refine ⟨promptHashes_target, ?_⟩
    intro p hp
    cases hp
    exact located_targetPlan
  have hstep₃ : runnerStep (H := 1) id 1 twoLayerMeasure (twoLayerConfig executionMode) noOperators s₂
      (.addRequest "target" (sampleHashes servedTarget) (some targetPlan)) = some s₃ := by
    rw [runnerStep, hadd₃]
    rfl
  refine ⟨s₃, (hreach₁.tail (served_sourceEntries executionMode s₁) hstep₂).tail hserved₃ hstep₃,
    ?_, ?_, ?_, hpending⟩
  · rw [hlayers₃, hlayers₂]
    rfl
  · have hindex : residentIndex.after (.lookupMany
        (targetPlan.candidates.map GdnDeltaReuseCandidate.sourceContextualHash)) = residentIndex := by
      decide +kernel
    rwa [hindex] at halike₃
  · intro computed scheduled
    rw [hrequest₃, reuseCandidates_targetPlan]

/-- In active mode the target's step reuses. -/
theorem stepReuses_target : stepReuses (twoLayerConfig "active")
    [⟨0, 128, sampleHashes servedTarget, [(1, sourceHash)]⟩] (some residentIndex) = true := by
  decide +kernel

/-- Both layers of a step reuse the block of the source that the target's plan names. -/
theorem twoLayer_forward : ∃ s,
    ReachableWhen (runnerStep (H := 1) id 1 twoLayerMeasure (twoLayerConfig "active") noOperators)
      (Served sampleDigest (twoLayerConfig "active")) twoLayerRunner s ∧
    s.reuseCandidates "target" = [(1, sourceHash)] ∧
    ∃ records, s.forward id 1 twoLayerMeasure (twoLayerConfig "active") noOperators targetEntries
        twoLayerInputs = .ok records ∧ records.length = 2 ∧
      ∀ r ∈ records, r.after.reused = true ∧
        ∃ sidecar, r.before.sidecar = some sidecar ∧ sidecar.containsMany [sourceHash] = true := by
  have hsha : ∀ bytes, sampleDigest bytes ≠ [] := fun _ => List.cons_ne_nil _ _
  obtain ⟨s, hreach, hlayers, halike, hrequest, -⟩ := target_reached "active"
  have hbatch : (sortEntries targetEntries).map s.request
      = [⟨0, 128, sampleHashes servedTarget, [(1, sourceHash)]⟩] :=
    congrArg (fun q => [q]) (hrequest 0 128)
  have hne : s.layers ≠ [] := List.ne_nil_of_length_pos (by rw [hlayers]; decide)
  obtain ⟨records, hrun, hlen, hreused, -⟩ := (runnerInv_of_reachable hsha initial_twoLayerRunner
    hreach).execute_fits id 1 twoLayerMeasure noOperators halike (served_targetEntries "active" s).2
    (by rw [hbatch]; exact batchFits_target "active" _ _)
  obtain ⟨-, hall⟩ := forward_all_or_none id 1 twoLayerMeasure (twoLayerConfig "active") noOperators
    sampleDigest hsha initial_twoLayerRunner hreach hne (served_targetEntries "active" s)
  refine ⟨s, hreach, congrArg ScheduledRequest.candidates (hrequest 0 128), records, hrun,
    hlen.trans hlayers, ?_⟩
  rw [hbatch, stepReuses_target] at hreused
  have hneeded : attemptHashes (twoLayerConfig "active") ((sortEntries targetEntries).map s.request)
      = [sourceHash] := by
    rw [hbatch]
    decide +kernel
  rcases hall records hrun with ⟨-, hyes⟩ | ⟨hno, -⟩
  · rwa [hneeded] at hyes
  · obtain ⟨r, hr⟩ := List.exists_mem_of_length_pos (by rw [hlen, hlayers]; decide : 0 < records.length)
    cases (hreused r hr).symm.trans (hno r hr)

end

end CacheSelect.Gdn

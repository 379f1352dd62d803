import CacheSelect.Gdn.LayerStep
import CacheSelect.Gdn.Preflight
import CacheSelect.Lib.Transition
import Mathlib.Data.List.Sigma

/-! # The GDN layers of a model runner

The runner keeps the contextual hashes of its requests, their plans and the outcome of each plan's preflight.
A step sorts its batch, runs the layers one after the other, each on inputs that the earlier ones give, and
records for every request whose evidence is pending what the layers report.

`RunnerInv` is what holds between steps; above all, the sidecars of all layers have the same index.  What the
steps of a runner do is read off it.

What is between two GDN layers stands in `StepInputs`, as any function of the outputs so far.
-/

namespace CacheSelect.Gdn

open CacheSelect.Core OrderedDict Transition

/-! ### Steps -/

/-- A scheduled request of a step. -/
structure StepEntry where
  reqId : String
  numComputedTokens : Nat
  numScheduledTokens : Nat
deriving DecidableEq, Repr

/-- `sort_batch_req_ids`: decodes first, then by the number of tokens. -/
def sortEntries (entries : List StepEntry) : List StepEntry :=
  entries.insertionSort fun a b =>
    toLex (a.numScheduledTokens != 1, a.numScheduledTokens)
      ≤ toLex (b.numScheduledTokens != 1, b.numScheduledTokens)

/-- What the layers of a step get: their rows of the checkpoint table, and inputs that may depend on the
outputs of all layers before. -/
structure StepInputs (R : Type) (HV V K H : Nat) where
  table : Nat → StepEntry → List Nat
  inputs : Nat → List (List (List (TokenOutput R HV V))) → StepEntry → GdnCoefficients R HV V K H
  wellShaped : ∀ k outputs e, (inputs k outputs e).WellShaped
  length_inputs : ∀ k outputs e, (inputs k outputs e).keys.length = e.numScheduledTokens

/-- The evidence of the comparisons. -/
structure GdnShadowMetrics (C : Type) where
  expectedCount : Nat
  resultCount : Nat
  comparedCount : Nat
  complete : Bool
  results : List (String × GdnDeltaBlockShadowResult C)

/-- The evidence of active reuse. -/
structure GdnActiveMetrics where
  layerResultCount : Nat
  executedLayerCount : Nat
  recomputedLayerTokens : Nat
  reusedLayerTokens : Nat
  layerResults : List (String × GdnDeltaActiveLayerSummary)
  complete : Bool

/-- `pending_gdn_delta_reuse_metrics` of a request. -/
structure GdnDeltaReuseMetrics (C : Type) where
  plan : GdnDeltaReusePlan
  preflightEligible : Bool
  preflightReason : String
  candidateBlockCount : Nat
  resolvedLayerCount : Nat
  shadow : Option (GdnShadowMetrics C) := none
  active : Option GdnActiveMetrics := none

/-- The part of the runner's state that GDN reuse uses. -/
structure GdnRunner (R : Type) (HV V K : Nat) (C : Type) where
  layers : List (String × GdnLayer R HV V K C)
  contextualBlockHashes : List (String × List ContextualHash) := []
  gdnDeltaReusePlans : List (String × GdnDeltaReusePlan) := []
  gdnDeltaPreflightResults : List (String × GdnDeltaPreflightResult R HV V K) := []
  pendingGdnDeltaReuseMetrics : List (String × GdnDeltaReuseMetrics C) := []

/-- A layer's pass in a step. -/
structure LayerRecord (R : Type) (HV V K H : Nat) (C : Type) where
  layerName : String
  rows : List (LayerRow R HV V K H)
  before : GdnLayer R HV V K C
  outputs : List (List (TokenOutput R HV V))
  after : GdnLayer R HV V K C

def LayerRecord.layerAfter {R : Type} {HV V K H : Nat} {C : Type} (r : LayerRecord R HV V K H C) :
    String × GdnLayer R HV V K C :=
  (r.layerName, r.after)

/-- The candidates of a plan by their blocks. -/
def GdnDeltaReusePlan.reuseCandidates (plan : GdnDeltaReusePlan) : List (Int × ContextualHash) :=
  plan.candidates.map fun c => ((c.targetBlockIndex : Int), c.sourceContextualHash)

section

variable {R : Type} {HV V K H : Nat} {C : Type}

namespace GdnRunner

/-- `_remove_request`. -/
def removeRequest (s : GdnRunner R HV V K C) (reqId : String) : GdnRunner R HV V K C :=
  { s with
    contextualBlockHashes := erase s.contextualBlockHashes reqId
    gdnDeltaReusePlans := erase s.gdnDeltaReusePlans reqId
    gdnDeltaPreflightResults := erase s.gdnDeltaPreflightResults reqId
    pendingGdnDeltaReuseMetrics := erase s.pendingGdnDeltaReuseMetrics reqId }

/-- `collect_gdn_delta_sidecars`: a layer refers to its sidecar by its index. -/
def sidecarRefs (s : GdnRunner R HV V K C) : List (String × Option Nat) :=
  s.layers.zipIdx.map fun (layer, i) => (layer.1, layer.2.sidecar.map fun _ => i)

/-- `build_gdn_delta_reuse_candidates` for one request: the candidates of a plan that passed the
preflight. -/
def reuseCandidates (s : GdnRunner R HV V K C) (reqId : String) : List (Int × ContextualHash) :=
  match get s.gdnDeltaReusePlans reqId, get s.gdnDeltaPreflightResults reqId with
  | some plan, some preflight => if preflight.eligible = true then plan.reuseCandidates else []
  | _, _ => []

/-- A scheduled request with its hashes and its candidates. -/
def request (s : GdnRunner R HV V K C) (e : StepEntry) : ScheduledRequest where
  computed := e.numComputedTokens
  scheduled := e.numScheduledTokens
  hashes := (get s.contextualBlockHashes e.reqId).getD []
  candidates := s.reuseCandidates e.reqId

/-- The rows of a layer. -/
def layerRows (s : GdnRunner R HV V K C) (batch : List StepEntry) (inputs : StepInputs R HV V K H)
    (k : Nat) (outputs : List (List (List (TokenOutput R HV V)))) : List (LayerRow R HV V K H) :=
  batch.map fun e =>
    { request := s.request e
      table := inputs.table k e
      inputs := inputs.inputs k outputs e
      wellShaped := inputs.wellShaped k outputs e
      length_inputs := inputs.length_inputs k outputs e }

/-- What the layers report, in their order. -/
def shadowResults (s : GdnRunner R HV V K C) : List (String × GdnDeltaBlockShadowResult C) :=
  s.layers.flatMap fun layer => layer.2.lastShadowResults.map fun result => (layer.1, result)

/-- Put a result under the request of its row. -/
def addShadowResult (reqIds : List String)
    (perRequest : List (String × List (String × GdnDeltaBlockShadowResult C)))
    (x : String × GdnDeltaBlockShadowResult C) :
    Except PyError (List (String × List (String × GdnDeltaBlockShadowResult C))) :=
  match reqIds[x.2.sequenceIndex]? with
  | none => .error (.valueError "GDN shadow result refers to an invalid batch row")
  | some reqId => .ok (push perRequest reqId x)

/-- `summarize_gdn_delta_shadow_results`: the results of all layers by request. -/
def summarizeGdnDeltaShadowResults (s : GdnRunner R HV V K C) (reqIds : List String) :
    Except PyError (List (String × List (String × GdnDeltaBlockShadowResult C))) :=
  s.shadowResults.foldlM (addShadowResult reqIds) []

/-- `summarize_gdn_delta_active_results`, with the verdict for a number of expected layers. -/
def summarizeGdnDeltaActiveResults (s : GdnRunner R HV V K C) (expectedLayers : Nat) :
    GdnActiveMetrics :=
  let results := s.layers.filterMap fun layer =>
    layer.2.lastActiveSummary.map fun summary => (layer.1, summary)
  let executed := results.filter fun result => result.2.executed
  { layerResultCount := results.length
    executedLayerCount := executed.length
    recomputedLayerTokens := (executed.map fun result => result.2.recomputedTokens).sum
    reusedLayerTokens := (executed.map fun result => result.2.reusedTokens).sum
    layerResults := results
    complete := decide (0 < expectedLayers) && decide (results.length = expectedLayers)
      && decide (executed.length = expectedLayers) }

/-- `_record_gdn_delta_shadow_metrics` for the evidence of one request. -/
def shadowMetrics (metrics : GdnDeltaReuseMetrics C)
    (results : List (String × GdnDeltaBlockShadowResult C)) : GdnShadowMetrics C :=
  let expectedCount := if metrics.preflightEligible = true
    then metrics.candidateBlockCount * metrics.resolvedLayerCount else 0
  let compared := results.filter fun result => result.2.status = .compared
  { expectedCount := expectedCount
    resultCount := results.length
    comparedCount := compared.length
    complete := decide (0 < expectedCount) && decide (compared.length = expectedCount)
    results := results }

/-- The metrics of a request with the evidence of a step. -/
def withEvidence (s : GdnRunner R HV V K C)
    (summaries : List (String × List (String × GdnDeltaBlockShadowResult C))) (reqId : String)
    (metrics : GdnDeltaReuseMetrics C) : GdnDeltaReuseMetrics C :=
  { metrics with
    shadow := some (shadowMetrics metrics ((get summaries reqId).getD []))
    active := some (s.summarizeGdnDeltaActiveResults metrics.resolvedLayerCount) }

/-- Record what the layers report for the requests of a batch. -/
def recordMetrics (s : GdnRunner R HV V K C) (reqIds : List String) :
    Except PyError (GdnRunner R HV V K C) := do
  let summaries ← s.summarizeGdnDeltaShadowResults reqIds
  .ok { s with
    pendingGdnDeltaReuseMetrics := s.pendingGdnDeltaReuseMetrics.map fun e =>
      (e.1, if e.1 ∈ reqIds then s.withEvidence summaries e.1 e.2 else e.2) }

/-- `_take_gdn_delta_reuse_metrics`. -/
def takeMetrics (s : GdnRunner R HV V K C) (reqIds : List String) :
    List (String × GdnDeltaReuseMetrics C) × GdnRunner R HV V K C :=
  (s.pendingGdnDeltaReuseMetrics.filter fun e => e.1 ∈ reqIds,
    { s with
      pendingGdnDeltaReuseMetrics := s.pendingGdnDeltaReuseMetrics.filter fun e => e.1 ∉ reqIds })

variable [CommRing R]

/-- A sidecar without slots. -/
def noSidecar : GdnDeltaOperatorSidecar R HV V K where
  capacity := 0
  blockSize := 0
  operators := fun _ => ⟨fun _ => 0, [], 0, []⟩
  keyToSlot := []
  freeSlots := []

/-- The sidecars by their references. -/
def sidecars (s : GdnRunner R HV V K C) (i : Nat) : GdnDeltaOperatorSidecar R HV V K :=
  (s.layers[i]?.bind fun layer => layer.2.sidecar).getD noSidecar

/-- The layers with the sidecars after a call. -/
def withSidecars (s : GdnRunner R HV V K C) (sidecars : Nat → GdnDeltaOperatorSidecar R HV V K) :
    GdnRunner R HV V K C :=
  { s with
    layers := s.layers.zipIdx.map fun (layer, i) =>
      (layer.1, { layer.2 with sidecar := layer.2.sidecar.map fun _ => sidecars i }) }

/-- Resolve the plan of a new request on all layers and keep the outcome. -/
def addPlan (s : GdnRunner R HV V K C) (reqId : String) :
    Option GdnDeltaReusePlan → Except PyError (GdnRunner R HV V K C)
  | none => .ok s
  | some plan => do
      let (preflight, sidecars) ← preflightGdnDeltaReuse plan s.sidecarRefs s.sidecars
      let s := s.withSidecars sidecars
      .ok { s with
        gdnDeltaReusePlans := put s.gdnDeltaReusePlans reqId plan
        gdnDeltaPreflightResults := put s.gdnDeltaPreflightResults reqId preflight
        pendingGdnDeltaReuseMetrics := put s.pendingGdnDeltaReuseMetrics reqId
          { plan := plan
            preflightEligible := preflight.eligible
            preflightReason := preflight.reason
            candidateBlockCount := preflight.candidateCount
            resolvedLayerCount := preflight.layers.length } }

/-- `add_requests` for one request. -/
def addRequest (s : GdnRunner R HV V K C) (reqId : String) (hashes : List ContextualHash)
    (plan : Option GdnDeltaReusePlan) : Except PyError (GdnRunner R HV V K C) :=
  let s := s.removeRequest reqId
  let s := if hashes = [] then s
    else { s with contextualBlockHashes := put s.contextualBlockHashes reqId hashes }
  s.addPlan reqId plan

end GdnRunner

variable [CommRing R] (exp : R → R) (scale : R) (measure : ShadowMeasure R HV V K C)
  (cfg : GdnModelConfig HV V K) (contents : Nat → GdnAffineOperator R HV V K)

/-- The GDN layers of a model, each after the other. -/
def forwardLayers (rows : Nat → List (List (List (TokenOutput R HV V))) → List (LayerRow R HV V K H))
    (outputs : List (List (List (TokenOutput R HV V)))) :
    List (String × GdnLayer R HV V K C) → Except PyError (List (LayerRecord R HV V K H C))
  | [] => .ok []
  | (layerName, layer) :: layers => do
      let (layerOutputs, layer') ← gdnLayerForward exp scale measure cfg contents
        (rows outputs.length outputs) layer
      let records ← forwardLayers rows (outputs ++ [layerOutputs]) layers
      .ok (⟨layerName, rows outputs.length outputs, layer, layerOutputs, layer'⟩ :: records)

/-- The GDN layers of a model that reuses nothing, from their slots. -/
def fullForwardLayers (blockSize : Nat)
    (rows : Nat → List (List (List (TokenOutput R HV V))) → List (LayerRow R HV V K H))
    (outputs : List (List (List (TokenOutput R HV V)))) :
    List (Nat → RecurrentState R HV V K) →
      Except PyError (List (List (List (TokenOutput R HV V)) × (Nat → RecurrentState R HV V K)))
  | [] => .ok []
  | stateCache :: stateCaches => do
      let (layerOutputs, stateCache') ← fullLayerForward exp scale blockSize
        (rows outputs.length outputs) stateCache
      let rest ← fullForwardLayers blockSize rows (outputs ++ [layerOutputs]) stateCaches
      .ok ((layerOutputs, stateCache') :: rest)

/-- The forward pass of a step. -/
def GdnRunner.forward (s : GdnRunner R HV V K C) (entries : List StepEntry)
    (inputs : StepInputs R HV V K H) : Except PyError (List (LayerRecord R HV V K H C)) :=
  forwardLayers exp scale measure cfg contents (s.layerRows (sortEntries entries) inputs) [] s.layers

/-- `execute_model`: the forward pass, then the evidence, which is handed out. -/
def GdnRunner.execute (s : GdnRunner R HV V K C) (entries : List StepEntry)
    (inputs : StepInputs R HV V K H) :
    Except PyError (List (String × GdnDeltaReuseMetrics C) × GdnRunner R HV V K C) := do
  let records ← s.forward exp scale measure cfg contents entries inputs
  let reqIds := (sortEntries entries).map StepEntry.reqId
  let s ← ({ s with layers := records.map LayerRecord.layerAfter } : GdnRunner R HV V K C).recordMetrics
    reqIds
  .ok (s.takeMetrics reqIds)

/-- What the scheduler sends to the runner. -/
inductive RunnerAction (R : Type) (HV V K H : Nat)
  | addRequest (reqId : String) (hashes : List ContextualHash) (plan : Option GdnDeltaReusePlan)
  | removeRequest (reqId : String)
  | execute (entries : List StepEntry) (inputs : StepInputs R HV V K H)

/-- A step of the runner; one that raises has no next state. -/
def runnerStep (s : GdnRunner R HV V K C) :
    RunnerAction R HV V K H → Option (GdnRunner R HV V K C)
  | .addRequest reqId hashes plan => (s.addRequest reqId hashes plan).toOption
  | .removeRequest reqId => some (s.removeRequest reqId)
  | .execute entries inputs =>
      ((s.execute exp scale measure cfg contents entries inputs).map Prod.snd).toOption

end

/-! ### The preflight of a new request -/

section

variable {ι R : Type} {HV V K : Nat} [DecidableEq ι]

/-- The lookups on layers with sidecars of their own use each of them once. -/
theorem resolveLayers_sidecars {blockHashes : List ContextualHash} :
    ∀ {layers : List (String × Option ι)} {sidecars sidecars' : ι → GdnDeltaOperatorSidecar R HV V K}
      {resolved : List (ResolvedGdnDeltaLayer R HV V K)},
      resolveLayers blockHashes layers sidecars = .ok (some resolved, sidecars') →
      (layers.filterMap Prod.snd).Nodup → resolved.length = layers.length ∧
        (∀ layer ∈ layers, layer.2.isSome = true) ∧
        ∀ i, sidecars' i = if some i ∈ layers.map Prod.snd then
          ((sidecars i).lookupMany blockHashes).2 else sidecars i := by
  intro layers
  induction layers with
  | nil =>
      intro sidecars sidecars' resolved h _
      cases h
      refine ⟨rfl, fun _ h => (by cases h), fun i => ?_⟩
      rw [if_neg (by simp)]
  | cons layer layers ih =>
      obtain ⟨layerName, ref⟩ := layer
      intro sidecars sidecars' resolved h hnodup
      cases ref with
      | none => cases h
      | some i =>
          rw [resolveLayers] at h
          obtain ⟨hnew, hnodup⟩ := List.nodup_cons.mp (show (i :: layers.filterMap Prod.snd).Nodup from hnodup)
          cases hlookup : (sidecars i).lookupMany blockHashes with
          | mk entries s' =>
              rw [hlookup] at h
              cases entries with
              | none => cases h
              | some entries =>
                  obtain ⟨⟨rest, t⟩, hrest, hok⟩ := Except.bind_eq_ok.mp h
                  cases rest with
                  | none => cases hok
                  | some rest =>
                      cases hok
                      obtain ⟨hlen, hsome, hall⟩ := ih hrest hnodup
                      refine ⟨congrArg Nat.succ hlen, ?_, ?_⟩
                      · rw [List.forall_mem_cons]
                        exact ⟨rfl, hsome⟩
                      intro j
                      rw [hall j]
                      have hmem : some j ∈ layers.map Prod.snd ↔ j ∈ layers.filterMap Prod.snd := by
                        rw [List.mem_map, List.mem_filterMap]
                      by_cases hj : j = i
                      · subst hj
                        rw [if_neg fun hin => hnew (hmem.mp hin), List.map_cons,
                          if_pos List.mem_cons_self, Function.update_self, hlookup]
                      · rw [Function.update_of_ne hj]
                        refine if_congr ⟨List.mem_cons_of_mem _, ?_⟩ rfl rfl
                        intro hin
                        exact (List.mem_cons.mp hin).resolve_left fun h => hj (Option.some.inj h)

/-- **A preflight** refuses the plan and leaves the sidecars, or it looks the hashes up in each of them.  It
does not refuse when every layer is ready. -/
theorem preflight_cases (plan : GdnDeltaReusePlan) {layers : List (String × Option ι)}
    (hnodup : (layers.filterMap Prod.snd).Nodup) (sidecars : ι → GdnDeltaOperatorSidecar R HV V K) :
    ∃ result sidecars', preflightGdnDeltaReuse plan layers sidecars = .ok (result, sidecars') ∧
      result.candidateCount = plan.candidates.length ∧
      (plan.candidates ≠ [] → layers ≠ [] → (∀ layer ∈ layers, LayerReady sidecars plan.blockSize
        (plan.candidates.map GdnDeltaReuseCandidate.sourceContextualHash) layer) →
          result.eligible = true) ∧
      (result.eligible = false ∧ result.layers = [] ∧ sidecars' = sidecars ∨
        result.eligible = true ∧ result.layers.length = layers.length ∧
          (∀ layer ∈ layers, layer.2.isSome = true) ∧ ∀ i, sidecars' i =
            if some i ∈ layers.map Prod.snd then ((sidecars i).lookupMany
              (plan.candidates.map GdnDeltaReuseCandidate.sourceContextualHash)).2
            else sidecars i) := by
  by_cases hcand : plan.candidates = []
  · refine ⟨⟨false, "no_candidates", 0, []⟩, sidecars, ?_, ?_, fun h => absurd hcand h,
      Or.inl ⟨rfl, rfl, rfl⟩⟩
    · rw [preflightGdnDeltaReuse, hcand]
      rfl
    · rw [hcand]
      rfl
  by_cases hlayers : layers = []
  · refine ⟨⟨false, "no_gdn_layers", plan.candidates.length, []⟩, sidecars, ?_, rfl,
      fun _ h => absurd hlayers h, Or.inl ⟨rfl, rfl, rfl⟩⟩
    rw [preflightGdnDeltaReuse, List.length_map]
    exact (if_neg (by simpa using hcand)).trans (if_pos hlayers)
  cases hcheck : checkLayers sidecars plan.blockSize
      (plan.candidates.map GdnDeltaReuseCandidate.sourceContextualHash) layers with
  | some reason =>
      refine ⟨_, sidecars, preflight_of_reason hcand hlayers hcheck, rfl, ?_, Or.inl ⟨rfl, rfl, rfl⟩⟩
      intro _ _ hready
      cases hcheck.symm.trans (checkLayers_eq_none_iff.mpr hready)
  | none =>
      obtain ⟨resolved, sidecars', hrun, -, -⟩ := resolveLayers_ready
        (checkLayers_eq_none_iff.mp hcheck) fun i => SameOperators.refl (sidecars i)
      exact ⟨_, sidecars', preflight_of_ready hcand hlayers hcheck hrun, rfl, fun _ _ _ => rfl,
        Or.inr ⟨rfl, resolveLayers_sidecars hrun hnodup⟩⟩

end

/-! ### The layers of a runner -/

section

variable {R : Type} {HV V K : Nat} {C : Type} (s : GdnRunner R HV V K C)

theorem nodup_sidecarRefs : (s.sidecarRefs.filterMap Prod.snd).Nodup := by
  have hidx := List.pairwise_map.mp (List.nodup_zipIdx_map_snd s.layers)
  rw [GdnRunner.sidecarRefs, List.filterMap_map, List.Nodup, List.pairwise_filterMap]
  refine hidx.imp ?_
  intro x y hne i hi j hj
  dsimp only [Function.comp] at hi hj
  rw [Option.map_eq_some_iff] at hi hj
  obtain ⟨-, -, rfl⟩ := hi
  obtain ⟨-, -, rfl⟩ := hj
  exact hne

theorem mem_sidecarRefs {i : Nat} {layer : String × GdnLayer R HV V K C}
    (hlayer : s.layers[i]? = some layer) :
    (layer.1, layer.2.sidecar.map fun _ => i) ∈ s.sidecarRefs :=
  List.mem_map.mpr ⟨(layer, i), List.mem_zipIdx_iff_getElem?.mpr hlayer, rfl⟩

variable [CommRing R]

theorem sidecars_eq {i : Nat} {layer : String × GdnLayer R HV V K C}
    (hlayer : s.layers[i]? = some layer) {sidecar : GdnDeltaOperatorSidecar R HV V K}
    (hsidecar : layer.2.sidecar = some sidecar) : s.sidecars i = sidecar := by
  rw [GdnRunner.sidecars, hlayer, Option.bind_some, hsidecar, Option.getD_some]

omit [CommRing R] in
/-- The layers after one change to all sidecars. -/
theorem layers_withSidecars {sidecars : Nat → GdnDeltaOperatorSidecar R HV V K}
    {f : GdnDeltaOperatorSidecar R HV V K → GdnDeltaOperatorSidecar R HV V K}
    (hf : ∀ i layer sidecar, s.layers[i]? = some layer → layer.2.sidecar = some sidecar →
      sidecars i = f sidecar) :
    (s.withSidecars sidecars).layers
      = s.layers.map fun layer => (layer.1, { layer.2 with sidecar := layer.2.sidecar.map f }) := by
  rw [GdnRunner.withSidecars]
  refine List.ext_getElem? ?_
  intro i
  dsimp only
  rw [List.getElem?_map, List.getElem?_map, List.getElem?_zipIdx, Option.map_map]
  cases hlayer : s.layers[i]? with
  | none => rfl
  | some layer =>
      rw [Option.map_some, Option.map_some, Nat.zero_add]
      dsimp only [Function.comp]
      cases hsidecar : layer.2.sidecar with
      | none => rfl
      | some sidecar =>
          rw [Option.map_some, Option.map_some, hf i layer sidecar hlayer hsidecar]

/-- The layers are ready for a plan when their sidecars hold its operators. -/
theorem layerReady_sidecarRefs {blockSize : Nat} {blockHashes : List ContextualHash}
    (h : ∀ layer ∈ s.layers, ∃ sidecar, layer.2.sidecar = some sidecar ∧
      sidecar.blockSize = blockSize ∧ sidecar.containsMany blockHashes = true) :
    ∀ layer ∈ s.sidecarRefs, LayerReady s.sidecars blockSize blockHashes layer := by
  intro ref href
  obtain ⟨⟨layer, i⟩, hlayer, rfl⟩ := List.mem_map.mp href
  have hi : s.layers[i]? = some layer := List.mem_zipIdx_iff_getElem?.mp hlayer
  obtain ⟨sidecar, hsidecar, hsize, hres⟩ := h layer (List.mem_of_getElem? hi)
  have heq := sidecars_eq s hi hsidecar
  refine ⟨i, ?_, ?_, ?_⟩
  · dsimp only
    rw [hsidecar, Option.map_some]
  · rw [heq, hsize]
  · rw [heq]
    exact (containsMany_iff sidecar blockHashes).mp hres

/-- **Adding a plan** does to every sidecar what it does to one: nothing, or one lookup of its hashes.  The
plan is eligible when all sidecars hold its operators. -/
theorem addPlan_ok (reqId : String) (plan : GdnDeltaReusePlan) :
    ∃ result s', s.addPlan reqId (some plan) = .ok s' ∧
      (plan.candidates ≠ [] → s.layers ≠ [] → (∀ layer ∈ s.layers, ∃ sidecar,
        layer.2.sidecar = some sidecar ∧ sidecar.blockSize = plan.blockSize ∧ sidecar.containsMany
          (plan.candidates.map GdnDeltaReuseCandidate.sourceContextualHash) = true) →
            result.eligible = true) ∧
      s'.layers = s.layers.map (fun layer => (layer.1, { layer.2 with
        sidecar := layer.2.sidecar.map fun sidecar => sidecar.run (if result.eligible = true then
          [.lookupMany (plan.candidates.map GdnDeltaReuseCandidate.sourceContextualHash)] else []) })) ∧
      s'.contextualBlockHashes = s.contextualBlockHashes ∧
      s'.gdnDeltaReusePlans = put s.gdnDeltaReusePlans reqId plan ∧
      s'.gdnDeltaPreflightResults = put s.gdnDeltaPreflightResults reqId result ∧
      s'.pendingGdnDeltaReuseMetrics = put s.pendingGdnDeltaReuseMetrics reqId
        { plan := plan
          preflightEligible := result.eligible
          preflightReason := result.reason
          candidateBlockCount := plan.candidates.length
          resolvedLayerCount := if result.eligible = true then s.layers.length else 0 } := by
  obtain ⟨result, sidecars', hpreflight, hcount, heligible, hcases⟩ :=
    preflight_cases plan (nodup_sidecarRefs s) s.sidecars
  have hrun : s.addPlan reqId (some plan) = .ok { s.withSidecars sidecars' with
      gdnDeltaReusePlans := put s.gdnDeltaReusePlans reqId plan
      gdnDeltaPreflightResults := put s.gdnDeltaPreflightResults reqId result
      pendingGdnDeltaReuseMetrics := put s.pendingGdnDeltaReuseMetrics reqId
        { plan := plan
          preflightEligible := result.eligible
          preflightReason := result.reason
          candidateBlockCount := result.candidateCount
          resolvedLayerCount := result.layers.length } } := by
    rw [GdnRunner.addPlan, hpreflight]
    rfl
  refine ⟨result, _, hrun, ?_, ?_, rfl, rfl, rfl, ?_⟩
  · intro hcand hlayers hready
    refine heligible hcand ?_ (layerReady_sidecarRefs s hready)
    intro hnil
    rw [GdnRunner.sidecarRefs, List.map_eq_nil_iff, List.zipIdx_eq_nil_iff] at hnil
    exact hlayers hnil
  · refine layers_withSidecars s ?_
    intro i layer sidecar hlayer hsidecar
    rcases hcases with ⟨hno, -, rfl⟩ | ⟨hyes, -, -, hall⟩
    · rw [if_neg (by rw [hno]; decide)]
      exact sidecars_eq s hlayer hsidecar
    · have hin := List.mem_map_of_mem (f := Prod.snd) (mem_sidecarRefs s hlayer)
      rw [hsidecar, Option.map_some] at hin
      rw [if_pos hyes, hall, if_pos hin, sidecars_eq s hlayer hsidecar]
      rfl
  · dsimp only
    rw [hcount]
    rcases hcases with ⟨hno, hnil, -⟩ | ⟨hyes, hlen, -, -⟩
    · rw [hno, hnil, if_neg (by decide), List.length_nil]
    · rw [hyes, hlen, if_pos rfl, GdnRunner.sidecarRefs, List.length_map, List.length_zipIdx]

end

/-! ### What the scheduler sends -/

section

variable {sha256 : List UInt8 → ContextualHash}

/-- Hashes of the blocks of a prompt. -/
def PromptHashes (sha256 : List UInt8 → ContextualHash) (hashes : List ContextualHash) : Prop :=
  hashes = [] ∨ ∃ tokenIds blockSize cacheSalt loraAdapterId,
    buildGdnContextualBlockHashes sha256 tokenIds blockSize cacheSalt loraAdapterId = .ok hashes

/-- A plan that a source index gives after some calls. -/
def LocatedPlan (sha256 : List UInt8 → ContextualHash) (plan : GdnDeltaReusePlan) : Prop :=
  ∃ blockSize maxSourceRequests maxCandidateBlocks x₀ calls request nativeCachedTokens,
    GdnDeltaSourceIndex.init blockSize maxSourceRequests maxCandidateBlocks = .ok x₀ ∧
      ((x₀.run sha256 calls).locate request nativeCachedTokens).1 = some plan

theorem hashBlocks_ne_nil (hsha : ∀ bytes, sha256 bytes ≠ []) : ∀ {blocks : List (List Int)}
    {parent : ContextualHash} {hashes : List ContextualHash},
    hashBlocks sha256 parent blocks = .ok hashes → ∀ h ∈ hashes, h ≠ [] := by
  intro blocks
  induction blocks with
  | nil =>
      intro parent hashes h k hk
      cases h
      cases hk
  | cons block blocks ih =>
      intro parent hashes h
      obtain ⟨bytes, -, h⟩ := Except.bind_eq_ok.mp h
      obtain ⟨rest, hrest, h⟩ := Except.bind_eq_ok.mp h
      cases h
      rw [List.forall_mem_cons]
      exact ⟨hsha _, ih hrest⟩

theorem PromptHashes.ne_nil (hsha : ∀ bytes, sha256 bytes ≠ []) {hashes : List ContextualHash}
    (h : PromptHashes sha256 hashes) : ∀ k ∈ hashes, k ≠ [] := by
  rcases h with rfl | ⟨tokenIds, blockSize, cacheSalt, loraAdapterId, hbuild⟩
  · intro k hk
    cases hk
  · obtain ⟨bytes, -, hrun⟩ := buildGdnContextualBlockHashes_eq_ok hbuild
    exact hashBlocks_ne_nil hsha hrun

/-- The candidates of a plan pass the checks. -/
theorem LocatedPlan.validCandidates (hsha : ∀ bytes, sha256 bytes ≠ []) {plan : GdnDeltaReusePlan}
    (h : LocatedPlan sha256 plan) : ValidCandidates plan.reuseCandidates := by
  obtain ⟨blockSize, maxSourceRequests, maxCandidateBlocks, x₀, calls, request, n, hinit, hplan⟩ := h
  have hempty : plan.candidates = [] → ValidCandidates plan.reuseCandidates := by
    intro h
    rw [GdnDeltaReusePlan.reuseCandidates, h]
    exact ⟨fun _ h => (by cases h), fun _ h => (by cases h), List.nodup_nil⟩
  have hrep := @GdnDeltaSourceIndex.represents_run sha256 _ _ _ _ hinit calls
  obtain ⟨hbs, -, -⟩ := @GdnDeltaSourceIndex.init_ok sha256 _ _ _ _ hinit
  cases hid : request.cacheselectSourceRequestId with
  | none =>
      rw [GdnDeltaSourceIndex.locate, hid] at hplan
      cases hplan
  | some sourceRequestId =>
      obtain ⟨plan', hplan', hof⟩ := hrep.planOf hbs request n hid
      cases hplan.symm.trans hplan'
      by_cases husable : ∃ source sourceTokens targetTokens, GdnDeltaSourceIndex.Usable
          (GdnDeltaSourceIndex.specRun sha256 blockSize maxSourceRequests calls) request
          sourceRequestId source sourceTokens targetTokens
      · obtain ⟨source, sourceTokens, targetTokens, husable⟩ := husable
        have hmatched := hof.matched _ _ _ husable
        refine ⟨?_, ?_, ?_⟩
        · intro c hc
          obtain ⟨c', -, rfl⟩ := List.mem_map.mp hc
          exact Int.natCast_nonneg _
        · intro c hc
          obtain ⟨c', hc', rfl⟩ := List.mem_map.mp hc
          obtain ⟨hashes, hbuild, hlast⟩ := hmatched.hash c' hc'
          exact PromptHashes.ne_nil hsha (Or.inr ⟨_, _, _, _, hbuild⟩) _
            (List.mem_of_getLast? hlast)
        · rw [GdnDeltaReusePlan.reuseCandidates, List.map_map, List.Nodup, List.pairwise_map]
          refine hmatched.ordered.imp ?_
          intro c c' hlt heq
          exact absurd (Int.natCast_inj.mp heq) (Nat.ne_of_lt hlt)
      · exact hempty (hof.empty husable)

end

section

variable {R : Type} {HV V K H : Nat} {C : Type}

/-- The slots of a request in a layer, with as many tokens as are scheduled. -/
def StepInputs.slots (inputs : StepInputs R HV V K H) (k : Nat) (e : StepEntry) : BatchRow Unit where
  table := inputs.table k e
  computed := e.numComputedTokens
  tokens := List.replicate e.numScheduledTokens ()

/-- What the scheduler promises: the hashes are those of a prompt, a plan comes from a source index, and a
batch has every request once, with slots of its own in every layer. -/
def Served (sha256 : List UInt8 → ContextualHash) (cfg : GdnModelConfig HV V K)
    (s : GdnRunner R HV V K C) : RunnerAction R HV V K H → Prop
  | .addRequest _ hashes plan =>
      PromptHashes sha256 hashes ∧ ∀ p, plan = some p → LocatedPlan sha256 p
  | .removeRequest _ => True
  | .execute entries inputs => (entries.map StepEntry.reqId).Nodup ∧
      ∀ k < s.layers.length, BatchReady cfg.mambaBlockSize (entries.map (inputs.slots k))

end

/-! ### The invariant -/

section

variable {R : Type} {HV V K H : Nat} {C : Type}

/-- Pending evidence belongs to the plan and the preflight that the runner keeps of the request. -/
structure PendingOf (s : GdnRunner R HV V K C) (e : String × GdnDeltaReuseMetrics C) : Prop where
  plan : get s.gdnDeltaReusePlans e.1 = some e.2.plan
  preflight : (get s.gdnDeltaPreflightResults e.1).map GdnDeltaPreflightResult.eligible
    = some e.2.preflightEligible
  candidates : e.2.candidateBlockCount = e.2.plan.candidates.length
  layers : e.2.resolvedLayerCount = if e.2.preflightEligible = true then s.layers.length else 0

/-- What holds between the steps of a runner. -/
structure RunnerInv (cfg : GdnModelConfig HV V K) (s : GdnRunner R HV V K C) : Prop where
  holds : ∀ layer ∈ s.layers, ∀ sidecar, layer.2.sidecar = some sidecar →
    HoldsBlocks cfg.deltaBlockSize sidecar
  alike : ∃ x, ∀ layer ∈ s.layers, layer.2.sidecar.map GdnDeltaOperatorSidecar.index = x
  hashes : ∀ id hs, get s.contextualBlockHashes id = some hs → ∀ h ∈ hs, h ≠ []
  plans : ∀ id plan, get s.gdnDeltaReusePlans id = some plan → ValidCandidates plan.reuseCandidates
  pending : ∀ e ∈ s.pendingGdnDeltaReuseMetrics, PendingOf s e

/-- A runner before its first request. -/
structure Initial (s : GdnRunner R HV V K C) : Prop where
  sidecars : ∀ layer ∈ s.layers, layer.2.sidecar = none
  contextualBlockHashes : s.contextualBlockHashes = []
  gdnDeltaReusePlans : s.gdnDeltaReusePlans = []
  pendingGdnDeltaReuseMetrics : s.pendingGdnDeltaReuseMetrics = []

variable {cfg : GdnModelConfig HV V K} {s : GdnRunner R HV V K C}

theorem Initial.runnerInv (h : Initial s) : RunnerInv cfg s where
  holds := by
    intro layer hlayer sidecar hsidecar
    rw [h.sidecars layer hlayer] at hsidecar
    cases hsidecar
  alike := ⟨none, fun layer hlayer => by rw [h.sidecars layer hlayer, Option.map_none]⟩
  hashes := by
    intro id hs hget
    rw [h.contextualBlockHashes] at hget
    cases hget
  plans := by
    intro id plan hget
    rw [h.gdnDeltaReusePlans] at hget
    cases hget
  pending := by
    intro e he
    rw [h.pendingGdnDeltaReuseMetrics] at he
    cases he

theorem RunnerInv.reuseCandidates (h : RunnerInv cfg s) (reqId : String) :
    ValidCandidates (s.reuseCandidates reqId) := by
  have hnil : ValidCandidates [] := ⟨fun _ h => (by cases h), fun _ h => (by cases h), List.nodup_nil⟩
  rw [GdnRunner.reuseCandidates]
  cases hplan : get s.gdnDeltaReusePlans reqId with
  | none => exact hnil
  | some plan =>
      cases get s.gdnDeltaPreflightResults reqId with
      | none => exact hnil
      | some preflight =>
          dsimp only
          split
          · exact h.plans reqId plan hplan
          · exact hnil

theorem RunnerInv.removeRequest (h : RunnerInv cfg s) (reqId : String) :
    RunnerInv cfg (s.removeRequest reqId) where
  holds := h.holds
  alike := h.alike
  hashes := by
    intro id hs hget
    rw [GdnRunner.removeRequest, get_erase, Option.ite_none_left_eq_some] at hget
    exact h.hashes id hs hget.2
  plans := by
    intro id plan hget
    rw [GdnRunner.removeRequest, get_erase, Option.ite_none_left_eq_some] at hget
    exact h.plans id plan hget.2
  pending := by
    intro e he
    obtain ⟨he, hne⟩ := mem_erase.mp he
    have hof := h.pending e he
    refine ⟨?_, ?_, hof.candidates, hof.layers⟩
    · exact (get_erase ..).trans ((if_neg hne).trans hof.plan)
    · rw [GdnRunner.removeRequest, get_erase, if_neg hne]
      exact hof.preflight

/-- The hashes of a new request. -/
theorem RunnerInv.withHashes (h : RunnerInv cfg s) (reqId : String) {hashes : List ContextualHash}
    (hne : ∀ k ∈ hashes, k ≠ []) : RunnerInv cfg (if hashes = [] then s
      else { s with contextualBlockHashes := put s.contextualBlockHashes reqId hashes }) := by
  split
  · exact h
  · refine ⟨h.holds, h.alike, ?_, h.plans, fun e he => ?_⟩
    · intro id hs hget
      rw [get_put] at hget
      split at hget
      · cases hget
        exact hne
      · exact h.hashes id hs hget
    · have hof := h.pending e he
      exact ⟨hof.plan, hof.preflight, hof.candidates, hof.layers⟩

variable [CommRing R]

/-- **A new request** is accepted and keeps the invariant. -/
theorem RunnerInv.addRequest {sha256 : List UInt8 → ContextualHash} (hsha : ∀ bytes, sha256 bytes ≠ [])
    (h : RunnerInv cfg s) (reqId : String) {hashes : List ContextualHash}
    (hhashes : PromptHashes sha256 hashes) {plan : Option GdnDeltaReusePlan}
    (hplan : ∀ p, plan = some p → LocatedPlan sha256 p) :
    ∃ s', s.addRequest reqId hashes plan = .ok s' ∧ RunnerInv cfg s' := by
  have h₁ := (h.removeRequest reqId).withHashes reqId (hhashes.ne_nil hsha)
  rw [GdnRunner.addRequest]
  generalize ht : (if hashes = [] then s.removeRequest reqId else { s.removeRequest reqId with
    contextualBlockHashes := put (s.removeRequest reqId).contextualBlockHashes reqId hashes }) = t at h₁
  have hpending : t.pendingGdnDeltaReuseMetrics = erase s.pendingGdnDeltaReuseMetrics reqId := by
    rw [← ht]
    split
    · rfl
    · rfl
  cases plan with
  | none => exact ⟨t, rfl, h₁⟩
  | some plan =>
      obtain ⟨result, s', hrun, -, hlayers, hhashes', hplans, hpreflights, hmetrics⟩ :=
        addPlan_ok t reqId plan
      have haccepted : ∀ call ∈ (if result.eligible = true then
          [.lookupMany (plan.candidates.map GdnDeltaReuseCandidate.sourceContextualHash)] else [] :
            List (GdnDeltaOperatorSidecar.Call R HV V K)),
          call.Accepted cfg.deltaBlockSize := by
        intro call hcall
        split at hcall
        · rw [List.mem_singleton.mp hcall]
          trivial
        · cases hcall
      refine ⟨s', hrun, ?_, ?_, ?_, ?_, ?_⟩
      · intro layer hlayer sidecar hsidecar
        rw [hlayers] at hlayer
        obtain ⟨layer₀, hlayer₀, rfl⟩ := List.mem_map.mp hlayer
        obtain ⟨sidecar₀, hsidecar₀, rfl⟩ := Option.map_eq_some_iff.mp hsidecar
        exact (h₁.holds layer₀ hlayer₀ sidecar₀ hsidecar₀).run haccepted
      · obtain ⟨x, hx⟩ := h₁.alike
        refine ⟨x.map fun x => x.run ((if result.eligible = true then
          [.lookupMany (plan.candidates.map GdnDeltaReuseCandidate.sourceContextualHash)] else [] :
            List (GdnDeltaOperatorSidecar.Call R HV V K)).map
              GdnDeltaOperatorSidecar.Call.use), ?_⟩
        intro layer hlayer
        rw [hlayers] at hlayer
        obtain ⟨layer₀, hlayer₀, rfl⟩ := List.mem_map.mp hlayer
        rw [← hx layer₀ hlayer₀]
        dsimp only
        cases hsidecar : layer₀.2.sidecar with
        | none => rfl
        | some sidecar =>
            rw [Option.map_some, Option.map_some, Option.map_some, Option.map_some,
              (h₁.holds layer₀ hlayer₀ sidecar hsidecar).ready.index_run _ haccepted]
      · rw [hhashes']
        exact h₁.hashes
      · intro id p hget
        rw [hplans, get_put] at hget
        split at hget
        · cases hget
          exact (hplan plan rfl).validCandidates hsha
        · exact h₁.plans id p hget
      · intro e he
        rw [hmetrics] at he
        rcases List.mem_append.mp he with he | he
        · obtain ⟨he, hne⟩ := mem_erase.mp he
          have hof := h₁.pending e he
          refine ⟨?_, ?_, hof.candidates, ?_⟩
          · rw [hplans, get_put, if_neg hne]
            exact hof.plan
          · rw [hpreflights, get_put, if_neg hne]
            exact hof.preflight
          · rw [hlayers, List.length_map]
            exact hof.layers
        · rw [List.mem_singleton.mp he]
          refine ⟨?_, ?_, rfl, ?_⟩
          · rw [hplans, get_put, if_pos rfl]
          · rw [hpreflights, get_put, if_pos rfl]
            rfl
          · rw [hlayers, List.length_map]

end

/-! ### The forward pass -/

section

variable {R : Type} {HV V K H : Nat} {C : Type} {cfg : GdnModelConfig HV V K}
  {s : GdnRunner R HV V K C} {entries : List StepEntry} {inputs : StepInputs R HV V K H}

theorem map_request_layerRows (inputs : StepInputs R HV V K H) (batch : List StepEntry) (k : Nat)
    (outputs : List (List (List (TokenOutput R HV V)))) :
    (s.layerRows batch inputs k outputs).map LayerRow.request = batch.map s.request := by
  rw [GdnRunner.layerRows, List.map_map]
  rfl

/-- A batch is ready for other tokens, where there are as many of them. -/
theorem BatchReady.reshape {α T T' : Type} {blockSize : Nat} {f : α → BatchRow T} {g : α → BatchRow T'}
    (hfg : ∀ a, (g a).table = (f a).table ∧ (g a).computed = (f a).computed ∧
      (g a).tokens.length = (f a).tokens.length) {as : List α}
    (h : BatchReady blockSize (as.map f)) : BatchReady blockSize (as.map g) := by
  have hlen : ∀ a, (g a).seqLen = (f a).seqLen := by
    intro a
    rw [BatchRow.seqLen, BatchRow.seqLen, (hfg a).2.1, (hfg a).2.2]
  have hinput : ∀ a, (g a).inputSlot blockSize = (f a).inputSlot blockSize := by
    intro a
    rw [BatchRow.inputSlot, BatchRow.inputSlot, (hfg a).1, (hfg a).2.1]
  have hwritten : ∀ a, (g a).writtenSlots blockSize = (f a).writtenSlots blockSize := by
    intro a
    rw [BatchRow.writtenSlots, BatchRow.writtenSlots, (hfg a).1, (hfg a).2.1, hlen]
  refine ⟨?_, ?_⟩
  · intro row hrow
    obtain ⟨a, ha, rfl⟩ := List.mem_map.mp hrow
    obtain ⟨hnonempty, hlt, hne, hslots⟩ := h.ready _ (List.mem_map_of_mem ha)
    refine ⟨?_, ?_, ?_, ?_⟩
    · rw [(hfg a).2.2]
      exact hnonempty
    · rw [(hfg a).1, (hfg a).2.1]
      exact hlt
    · rw [hinput]
      exact hne
    · rw [(hfg a).1, (hfg a).2.1, hlen]
      exact hslots
  · have hapart := h.apart
    rw [List.pairwise_map] at hapart ⊢
    refine hapart.imp ?_
    intro a b hab
    refine ⟨?_, ?_, ?_⟩
    · rw [hwritten, hwritten]
      exact hab.written
    · rw [hinput, hwritten]
      exact hab.input
    · rw [hinput, hwritten]
      exact hab.input'

theorem sortEntries_perm (entries : List StepEntry) : (sortEntries entries).Perm entries :=
  List.perm_insertionSort _ _

/-- The rows that a layer gets are ready. -/
theorem RunnerInv.rowsReady (h : RunnerInv cfg s) {k : Nat}
    (hready : BatchReady cfg.mambaBlockSize (entries.map (inputs.slots k)))
    (outputs : List (List (List (TokenOutput R HV V)))) :
    RowsReady cfg.mambaBlockSize (s.layerRows (sortEntries entries) inputs k outputs) := by
  refine ⟨?_, ?_, ?_⟩
  · rw [GdnRunner.layerRows, List.map_map]
    refine (hready.perm ((sortEntries_perm entries).symm.map _)).reshape ?_
    intro e
    refine ⟨rfl, rfl, ?_⟩
    refine (LayerRow.length_tokens _).trans ?_
    exact (List.length_replicate ..).symm
  · intro row hrow k hk
    obtain ⟨e, -, rfl⟩ := List.mem_map.mp hrow
    change k ∈ (get s.contextualBlockHashes e.reqId).getD [] at hk
    cases hget : get s.contextualBlockHashes e.reqId with
    | none =>
        rw [hget] at hk
        cases hk
    | some hashes =>
        rw [hget] at hk
        exact h.hashes _ hashes hget k hk
  · intro row hrow
    obtain ⟨e, -, rfl⟩ := List.mem_map.mp hrow
    exact h.reuseCandidates e.reqId

variable [CommRing R] (exp : R → R) (scale : R) (measure : ShadowMeasure R HV V K C)
  (contents : Nat → GdnAffineOperator R HV V K)

/-- **The forward pass returns** when the batch fits, and every layer takes its step. -/
theorem forwardLayers_ok {batch : List ScheduledRequest} (hfits : BatchFits cfg batch)
    {rows : Nat → List (List (List (TokenOutput R HV V))) → List (LayerRow R HV V K H)}
    (hbatch : ∀ k outputs, (rows k outputs).map LayerRow.request = batch) {n : Nat}
    (hrows : ∀ k < n, ∀ outputs, RowsReady cfg.mambaBlockSize (rows k outputs)) :
    ∀ (layers : List (String × GdnLayer R HV V K C)) (outputs : List (List (List (TokenOutput R HV V)))),
      (∀ layer ∈ layers, ∀ sidecar, layer.2.sidecar = some sidecar →
        HoldsBlocks cfg.deltaBlockSize sidecar) →
      outputs.length + layers.length = n →
      ∃ records, forwardLayers exp scale measure cfg contents rows outputs layers = .ok records ∧
        records.map (fun r => (r.layerName, r.before)) = layers ∧
        (∀ r ∈ records, r.rows.map LayerRow.request = batch ∧
          LayerStep exp scale cfg r.rows r.before r.after r.outputs) ∧
        ((∀ r ∈ records, r.after.reused = false) →
          fullForwardLayers exp scale cfg.mambaBlockSize rows outputs
            (layers.map fun layer => layer.2.stateCache)
              = .ok (records.map fun r => (r.outputs, r.after.stateCache))) := by
  intro layers
  induction layers with
  | nil =>
      intro outputs _ _
      exact ⟨[], rfl, rfl, fun _ h => (by cases h), fun _ => rfl⟩
  | cons layer layers ih =>
      intro outputs hholds hn
      obtain ⟨layerName, layer⟩ := layer
      rw [List.length_cons] at hn
      obtain ⟨layerOutputs, layer', hlayer, hstep⟩ := gdnLayerForward_ok exp scale measure contents
        (hrows outputs.length (by omega) outputs) (by rw [hbatch]; exact hfits)
        (hholds (layerName, layer) List.mem_cons_self)
      obtain ⟨records, hrest, hbefore, hsteps, hfull⟩ := ih (outputs ++ [layerOutputs])
        (fun l hl => hholds l (List.mem_cons_of_mem _ hl))
        (by rw [List.length_append, List.length_singleton]; omega)
      refine ⟨⟨layerName, rows outputs.length outputs, layer, layerOutputs, layer'⟩ :: records,
        ?_, ?_, ?_, ?_⟩
      · rw [forwardLayers, hlayer]
        exact Except.bind_eq_ok.mpr ⟨_, rfl, Except.bind_eq_ok.mpr ⟨_, hrest, rfl⟩⟩
      · rw [List.map_cons, hbefore]
      · rw [List.forall_mem_cons]
        exact ⟨⟨hbatch _ _, hstep⟩, hsteps⟩
      · intro hnone
        rw [List.forall_mem_cons] at hnone
        rw [List.map_cons, fullForwardLayers, hstep.full hnone.1]
        exact Except.bind_eq_ok.mpr ⟨_, rfl, Except.bind_eq_ok.mpr ⟨_, hfull hnone.2, rfl⟩⟩

/-- **The forward pass raises** in the first layer when the batch does not fit. -/
theorem forwardLayers_error {batch : List ScheduledRequest} (hunfit : ¬ BatchFits cfg batch)
    {rows : Nat → List (List (List (TokenOutput R HV V))) → List (LayerRow R HV V K H)}
    (hbatch : ∀ k outputs, (rows k outputs).map LayerRow.request = batch)
    (hrows : ∀ outputs, RowsReady cfg.mambaBlockSize (rows 0 outputs))
    {layer : String × GdnLayer R HV V K C} {layers : List (String × GdnLayer R HV V K C)}
    (hholds : ∀ sidecar, layer.2.sidecar = some sidecar → HoldsBlocks cfg.deltaBlockSize sidecar) :
    ∃ e, forwardLayers exp scale measure cfg contents rows [] (layer :: layers) = .error e := by
  obtain ⟨layerName, layer⟩ := layer
  obtain ⟨e, he⟩ := gdnLayerForward_error exp scale measure contents (hrows [])
    (by rw [hbatch]; exact hunfit) hholds
  refine ⟨e, ?_⟩
  rw [forwardLayers]
  exact Except.bind_eq_error.mpr (Or.inl he)

omit [CommRing R] in
/-- A layer of a runner as the forward pass sees it. -/
theorem RunnerInv.before (h : RunnerInv cfg s) {records : List (LayerRecord R HV V K H C)}
    (hbefore : records.map (fun r => (r.layerName, r.before)) = s.layers) :
    ∃ x, ∀ r ∈ records, r.before.sidecar.map GdnDeltaOperatorSidecar.index = x := by
  obtain ⟨x, hx⟩ := h.alike
  refine ⟨x, ?_⟩
  intro r hr
  refine hx (r.layerName, r.before) ?_
  rw [← hbefore]
  exact List.mem_map_of_mem hr

/-- A forward pass in a state with the invariant. -/
structure ForwardPass (cfg : GdnModelConfig HV V K) (s : GdnRunner R HV V K C) (entries : List StepEntry)
    (inputs : StepInputs R HV V K H) (records : List (LayerRecord R HV V K H C)) : Prop where
  before : records.map (fun r => (r.layerName, r.before)) = s.layers
  steps : ∀ r ∈ records, r.rows.map LayerRow.request = (sortEntries entries).map s.request ∧
    LayerStep exp scale cfg r.rows r.before r.after r.outputs
  full : (∀ r ∈ records, r.after.reused = false) →
    fullForwardLayers exp scale cfg.mambaBlockSize (s.layerRows (sortEntries entries) inputs) []
      (s.layers.map fun layer => layer.2.stateCache)
        = .ok (records.map fun r => (r.outputs, r.after.stateCache))

/-- **The forward pass** of a served batch. -/
theorem RunnerInv.forward (h : RunnerInv cfg s)
    (hready : ∀ k < s.layers.length, BatchReady cfg.mambaBlockSize (entries.map (inputs.slots k))) :
    (BatchFits cfg ((sortEntries entries).map s.request) → ∃ records,
      s.forward exp scale measure cfg contents entries inputs = .ok records ∧
        ForwardPass exp scale cfg s entries inputs records) ∧
    (s.layers ≠ [] → ¬ BatchFits cfg ((sortEntries entries).map s.request) →
      ∃ e, s.forward exp scale measure cfg contents entries inputs = .error e) := by
  refine ⟨?_, ?_⟩
  · intro hfits
    obtain ⟨records, hrun, hbefore, hsteps, hfull⟩ := forwardLayers_ok exp scale measure contents hfits
      (map_request_layerRows inputs _)
      (fun k hk outputs => h.rowsReady (hready k hk) outputs) s.layers [] h.holds (Nat.zero_add _)
    exact ⟨records, hrun, hbefore, hsteps, hfull⟩
  · intro hne hunfit
    obtain ⟨layer, layers, hlayers⟩ := List.exists_cons_of_ne_nil hne
    rw [GdnRunner.forward, hlayers]
    refine forwardLayers_error exp scale measure contents hunfit
      (map_request_layerRows inputs _) (h.rowsReady (hready 0 ?_)) ?_
    · rw [hlayers]
      exact Nat.succ_pos _
    · exact h.holds layer (by rw [hlayers]; exact List.mem_cons_self)

variable {exp scale measure contents}

/-- Either all layers reuse or none. -/
theorem RunnerInv.alike_reused (h : RunnerInv cfg s) {records : List (LayerRecord R HV V K H C)}
    (hpass : ForwardPass exp scale cfg s entries inputs records) :
    ∃ x, (∀ r ∈ records, r.before.sidecar.map GdnDeltaOperatorSidecar.index = x) ∧
      ∀ r ∈ records, r.after.reused = stepReuses cfg ((sortEntries entries).map s.request) x := by
  obtain ⟨x, hx⟩ := h.before hpass.before
  refine ⟨x, hx, ?_⟩
  intro r hr
  obtain ⟨hbatch, hstep⟩ := hpass.steps r hr
  rw [hstep.reused, hbatch, hx r hr]

/-- The layers after a forward pass keep the invariant. -/
theorem RunnerInv.after (h : RunnerInv cfg s) {records : List (LayerRecord R HV V K H C)}
    (hpass : ForwardPass exp scale cfg s entries inputs records) :
    RunnerInv cfg ({ s with layers := records.map LayerRecord.layerAfter } : GdnRunner R HV V K C) := by
  refine ⟨?_, ?_, h.hashes, h.plans, ?_⟩
  · intro layer hlayer
    obtain ⟨r, hr, rfl⟩ := List.mem_map.mp hlayer
    exact (hpass.steps r hr).2.keeps.holds
  · obtain ⟨x, hx⟩ := h.before hpass.before
    refine ⟨passIndex cfg ((sortEntries entries).map s.request) x, ?_⟩
    intro layer hlayer
    obtain ⟨r, hr, rfl⟩ := List.mem_map.mp hlayer
    obtain ⟨hbatch, hstep⟩ := hpass.steps r hr
    refine hstep.keeps.index.trans ?_
    rw [hbatch, hx r hr]
  · intro e he
    have hof := h.pending e he
    refine ⟨hof.plan, hof.preflight, hof.candidates, ?_⟩
    have hlen := congrArg List.length hpass.before
    rw [List.length_map] at hlen
    dsimp only
    rw [List.length_map, hlen]
    exact hof.layers

/-- A forward pass that returned. -/
theorem RunnerInv.forwardPass (h : RunnerInv cfg s)
    (hready : ∀ k < s.layers.length, BatchReady cfg.mambaBlockSize (entries.map (inputs.slots k)))
    {records : List (LayerRecord R HV V K H C)}
    (hrun : s.forward exp scale measure cfg contents entries inputs = .ok records) :
    ForwardPass exp scale cfg s entries inputs records := by
  obtain ⟨hok, herror⟩ := h.forward exp scale measure contents hready
  by_cases hlayers : s.layers = []
  · rw [GdnRunner.forward, hlayers] at hrun
    cases hrun
    refine ⟨hlayers.symm, fun _ h => (by cases h), ?_⟩
    rw [hlayers]
    exact fun _ => rfl
  · by_cases hfits : BatchFits cfg ((sortEntries entries).map s.request)
    · obtain ⟨records', hrun', hpass⟩ := hok hfits
      cases hrun.symm.trans hrun'
      exact hpass
    · obtain ⟨e, he⟩ := herror hlayers hfits
      cases hrun.symm.trans he

/-! ### Runs -/

theorem execute_eq_ok {x : List (String × GdnDeltaReuseMetrics C) × GdnRunner R HV V K C}
    (hrun : s.execute exp scale measure cfg contents entries inputs = .ok x) :
    ∃ records, s.forward exp scale measure cfg contents entries inputs = .ok records ∧ ∃ t,
      ({ s with layers := records.map LayerRecord.layerAfter } : GdnRunner R HV V K C).recordMetrics
        ((sortEntries entries).map StepEntry.reqId) = .ok t ∧
      t.takeMetrics ((sortEntries entries).map StepEntry.reqId) = x := by
  obtain ⟨records, hforward, hrun⟩ := Except.bind_eq_ok.mp hrun
  obtain ⟨t, hrecord, hrun⟩ := Except.bind_eq_ok.mp hrun
  exact ⟨records, hforward, t, hrecord, Except.ok.inj hrun⟩

omit [CommRing R] in
theorem RunnerInv.recordMetrics (h : RunnerInv cfg s) {reqIds : List String} {t : GdnRunner R HV V K C}
    (hrun : s.recordMetrics reqIds = .ok t) : RunnerInv cfg t := by
  obtain ⟨summaries, -, hrun⟩ := Except.bind_eq_ok.mp hrun
  cases hrun
  refine ⟨h.holds, h.alike, h.hashes, h.plans, ?_⟩
  intro e he
  obtain ⟨⟨reqId, metrics⟩, he₀, rfl⟩ := List.mem_map.mp he
  obtain ⟨hplan, hpreflight, hcandidates, hlayers⟩ := h.pending _ he₀
  dsimp only
  split
  · exact ⟨hplan, hpreflight, hcandidates, hlayers⟩
  · exact ⟨hplan, hpreflight, hcandidates, hlayers⟩

omit [CommRing R] in
theorem RunnerInv.takeMetrics (h : RunnerInv cfg s) (reqIds : List String) :
    RunnerInv cfg (s.takeMetrics reqIds).2 := by
  refine ⟨h.holds, h.alike, h.hashes, h.plans, ?_⟩
  intro e he
  obtain ⟨hplan, hpreflight, hcandidates, hlayers⟩ := h.pending e (List.mem_filter.mp he).1
  exact ⟨hplan, hpreflight, hcandidates, hlayers⟩

/-- **Every reached state has the invariant.** -/
theorem runnerInv_of_reachable {sha256 : List UInt8 → ContextualHash}
    (hsha : ∀ bytes, sha256 bytes ≠ []) {s₀ : GdnRunner R HV V K C} (h₀ : Initial s₀)
    (hs : ReachableWhen (runnerStep (H := H) exp scale measure cfg contents) (Served sha256 cfg) s₀ s) :
    RunnerInv cfg s := by
  refine ReachableWhen.invariant (RunnerInv cfg) h₀.runnerInv ?_ s hs
  intro s action s' h hserved hstep
  cases action with
  | addRequest reqId hashes plan =>
      obtain ⟨t, hadd, ht⟩ := h.addRequest hsha reqId hserved.1 hserved.2
      rw [runnerStep, hadd] at hstep
      cases hstep
      exact ht
  | removeRequest reqId =>
      cases hstep
      exact h.removeRequest reqId
  | execute entries inputs =>
      rw [runnerStep] at hstep
      cases hrun : s.execute exp scale measure cfg contents entries inputs with
      | error e =>
          rw [hrun] at hstep
          cases hstep
      | ok x =>
          rw [hrun] at hstep
          cases hstep
          obtain ⟨records, hforward, t, hrecord, rfl⟩ := execute_eq_ok hrun
          exact ((h.after (h.forwardPass hserved.2 hforward)).recordMetrics hrecord).takeMetrics _

omit [CommRing R] in
/-- The operators that a reused pass needs are resident. -/
theorem resident_of_stepReuses {batch : List ScheduledRequest}
    {sidecar : Option (GdnDeltaOperatorSidecar R HV V K)}
    (h : stepReuses cfg batch (sidecar.map GdnDeltaOperatorSidecar.index) = true) :
    attemptHashes cfg batch ≠ [] ∧
      ∃ s, sidecar = some s ∧ s.containsMany (attemptHashes cfg batch) = true := by
  rw [stepReuses, passReuses, Bool.and_eq_true, Bool.not_eq_true', List.isEmpty_eq_false_iff] at h
  refine ⟨h.1, ?_⟩
  cases sidecar with
  | some s => exact ⟨s, rfl, h.2⟩
  | none =>
      obtain ⟨k, hashes, hk⟩ := List.exists_cons_of_ne_nil h.1
      rw [hk] at h
      cases h.2

end

end CacheSelect.Gdn

import CacheSelect.Engine.CopyTargets
import CacheSelect.Worker.MlpRepairSelector

/-! # Which plans the worker accepts

The worker's `add_requests` resolves the target blocks of every forwarded plan and builds its copies,
repairs and metrics.  For the plans of the scheduler none of these steps can raise, but for the
selection of the repairs.

Blocks that a later chunk allocates are passed over when the targets are resolved, but not by the counterfactual
selection: it wants its block among the resolved candidates, and raises when the first chunk ends before it.
The other exception that gets through is that of a loaded model with a row of weights that ends too early.
-/

namespace CacheSelect.Engine

open CacheSelect.Core CacheSelect.Worker Transition

/-- The forwarded plan of a scheduled request, with the candidates whose target block is allocated. -/
def forwardedCandidates (s : SchedulerState) (e : ScheduledRequest) :
    List ResolvedPartialReuseCandidate :=
  match e.partialReusePlan with
  | none => []
  | some plan => allocatedCandidates (s.manager.reqToBlocks e.reqId) plan.candidates

/-- The repair selection of a plan finds its counterfactual block among the candidates, or, without one, no row of the
loaded model ends too early for a candidate that has its features. -/
def SelectionFits (ops : FloatOps) (selectorName : String) (mlpModel : Option (List (String × PyValue)))
    (plan : PartialReusePlan) (candidates : List ResolvedPartialReuseCandidate) : Prop :=
  match plan.counterfactualReuseBlockIndex with
  | some i => (candidates.filter fun c => c.targetBlockIndex == i).length = 1
  | none => ∀ m, LoadedModel ops selectorName mlpModel m →
      MLPRepairModel.BeyondRow ops m.layers m.featureNames.length →
        ∀ c ∈ candidates, c.requiresRepair = true → ∀ xs, ¬ m.Standardized ops
          (OrderedDict.ofPairs (MLPRepairSelector.rationalFeatures c.selectorFeatures)) xs

theorem not_selectionRaises_iff {cfg : WorkerConfig} {ops : FloatOps} {selectorName : String}
    {editRadius : Int} {mlpModel : Option (List (String × PyValue))}
    (h : createRepairSelector ops selectorName editRadius mlpModel = .ok cfg.repairSelector)
    (plan : PartialReusePlan) (candidates : List ResolvedPartialReuseCandidate) :
    ¬ SelectionRaises cfg plan candidates ↔ SelectionFits ops selectorName mlpModel plan candidates := by
  rw [SelectionRaises, SelectionFits]
  cases plan.counterfactualReuseBlockIndex with
  | some i => exact not_not
  | none =>
      show ¬ cfg.repairSelector.Raises candidates ↔ _
      rw [raises_of_createRepairSelector h]
      push Not
      exact Iff.rfl

/-- The worker adds the requests of every step unless the repair selection of one of the plans raises. -/
theorem addedRequests_returns_iff {K : Type} {cfg : EngineConfig} {compute : List K → Nat → K}
    {kv : KVMemory K} {s : State K} (hs : Reachable (step cfg compute) (State.init cfg kv) s) :
    (∃ added, addedRequests cfg s.scheduler s.worker = .ok added) ↔
      ∀ e ∈ s.scheduler.scheduled, ∀ plan, e.partialReusePlan = some plan →
        ¬ SelectionRaises cfg.toWorkerConfig plan (forwardedCandidates s.scheduler e) := by
  have hinv := inv_of_reachable hs
  have hp := plans_of_reachable hs
  have hwork : ∀ e ∈ s.scheduler.scheduled, ∀ r, s.scheduler.requests e.reqId = some r →
      ∀ plan, e.partialReusePlan = some plan →
      ((∃ x, buildReuseWork cfg.toWorkerConfig (s.scheduler.newRequestData e r) plan = .ok x) ↔
        ¬ SelectionRaises cfg.toWorkerConfig plan (forwardedCandidates s.scheduler e)) := by
    intro e he r hr plan hplan
    rw [forwardedCandidates, hplan]
    exact buildReuseWork_ok_iff cfg.toWorkerConfig (planFits_of_entry hp he hr hplan).1 rfl
  rw [addedRequests, addRequests_ok_iff]
  constructor
  · intro h e he plan hplan
    obtain ⟨r, hr, -⟩ := hinv.entry e he
    rw [← hwork e he r hr plan hplan]
    exact h _ (mem_newRequests.mpr ⟨e, r, he, hr, (hp.entry e he plan hplan).1, rfl⟩) plan hplan
  · intro h d hd plan hplan
    obtain ⟨e, r, he, hr, -, rfl⟩ := mem_newRequests.mp hd
    exact (hwork e he r hr plan hplan).mpr (h e he plan hplan)

/-- **The worker adds the requests of every step**, whatever the scheduler forwards, unless the repair
selection of one of the plans raises on the candidates that are left; for a selector that the server configures,
unless it does not fit them. -/
theorem addedRequests_ok_iff {K : Type} {cfg : EngineConfig} {compute : List K → Nat → K}
    {kv : KVMemory K} {s : State K} (hs : Reachable (step cfg compute) (State.init cfg kv) s) :
    ((∃ added, addedRequests cfg s.scheduler s.worker = .ok added) ↔
      ∀ e ∈ s.scheduler.scheduled, ∀ plan, e.partialReusePlan = some plan →
        ¬ SelectionRaises cfg.toWorkerConfig plan (forwardedCandidates s.scheduler e)) ∧
    ∀ (ops : FloatOps) (selectorName : String) (editRadius : Int)
      (mlpModel : Option (List (String × PyValue))),
      createRepairSelector ops selectorName editRadius mlpModel = .ok cfg.repairSelector →
      ((∃ added, addedRequests cfg s.scheduler s.worker = .ok added) ↔
        ∀ e ∈ s.scheduler.scheduled, ∀ plan, e.partialReusePlan = some plan →
          SelectionFits ops selectorName mlpModel plan (forwardedCandidates s.scheduler e)) := by
  refine ⟨addedRequests_returns_iff hs, fun ops selectorName editRadius mlpModel h => ?_⟩
  rw [addedRequests_returns_iff hs]
  have hworker : createRepairSelector ops selectorName editRadius mlpModel
      = .ok cfg.toWorkerConfig.repairSelector := h
  exact forall₂_congr fun e _ => forall₂_congr fun plan _ => not_selectionRaises_iff hworker plan _

/-- The run of `reusingRun` for a target that asks for the reuse of its block 1 alone. -/
def counterfactualRun : List Action :=
  serve { requestId := "source", promptTokenIds := some [1, 2, 7] } ++
    [.addRequest {
      requestId := "target"
      promptTokenIds := some [5, 6, 1, 2, 7]
      cacheselectSourceRequestId := some "source"
      cacheselectCounterfactualReuseBlockIndex := some 1 },
    .beginSchedule, .beginWaiting, .lookup "target"]

/-- A server with the model of a file, and the opcodes that turn the source's prompt into the target's. -/
def mlpConfig (payload : List (String × PyValue)) : EngineConfig :=
  { reusingConfig with
    collectSelectorFeatures := true
    opcodes := fun _ _ => [⟨false, 0, 0, 0, 2⟩, ⟨true, 0, 3, 2, 5⟩]
    repairSelector := ((createRepairSelector MLPRepairSelector.exactOps "mlp" 0 (some payload)).toOption).getD
      .fullBlock }

/-- A model file with two biases and a single row of one weight. -/
def shortRowPayload : List (String × PyValue) :=
  MLPRepairSelector.oneFeaturePayload "source_displacement_blocks" [[1]] [0, 0] (.fin (1 / 2))

/-- **A first chunk before the counterfactual block** takes the worker down: the plan is forwarded,
and its only candidate has no target block yet.  So does a model file with a row of weights that is too short, in a plan
without a counterfactual block. -/
theorem counterfactual_outside_first_chunk :
    (∃ s : State Unit,
      Reachable (step reusingConfig fun _ _ => ()) (State.init reusingConfig fun _ _ => ()) s ∧
      (∃ e ∈ s.scheduler.scheduled, e.partialReusePlan.isSome = true) ∧
      ¬ ∃ added, addedRequests reusingConfig s.scheduler s.worker = .ok added) ∧
    createRepairSelector MLPRepairSelector.exactOps "mlp" 0 (some shortRowPayload)
      = .ok (mlpConfig shortRowPayload).repairSelector ∧
    ∃ s : State Unit,
      Reachable (step (mlpConfig shortRowPayload) fun _ _ => ())
        (State.init (mlpConfig shortRowPayload) fun _ _ => ()) s ∧
      (∃ e ∈ s.scheduler.scheduled, ∃ plan, e.partialReusePlan = some plan ∧
        plan.counterfactualReuseBlockIndex = none) ∧
      ¬ ∃ added, addedRequests (mlpConfig shortRowPayload) s.scheduler s.worker = .ok added := by
  refine ⟨?_, rfl, ?_⟩
  · obtain ⟨s, hs, hP⟩ := exists_reachableWhen (step reusingConfig fun _ _ => ())
      (fun _ _ => True) (State.init reusingConfig fun _ _ => ())
      (counterfactualRun ++ [.admitWaiting "target" { numNewTokens := 2 }])
      (fun s => s.scheduler.scheduled.any (fun e => e.partialReusePlan.isSome) &&
        !(addedRequests reusingConfig s.scheduler s.worker).toBool) (by decide +kernel)
    rw [Bool.and_eq_true, List.any_eq_true, Bool.not_eq_true'] at hP
    refine ⟨s, hs, hP.1, ?_⟩
    rintro ⟨added, ha⟩
    have := hP.2
    rw [ha] at this
    cases this
  · obtain ⟨s, hs, hP⟩ := exists_reachableWhen (step (mlpConfig shortRowPayload) fun _ _ => ())
      (fun _ _ => True) (State.init (mlpConfig shortRowPayload) fun _ _ => ())
      (reusingRun ++ [.admitWaiting "target" { numNewTokens := 5 }])
      (fun s => s.scheduler.scheduled.any (fun e => e.partialReusePlan.any fun plan =>
          plan.counterfactualReuseBlockIndex == none) &&
        !(addedRequests (mlpConfig shortRowPayload) s.scheduler s.worker).toBool) (by decide +kernel)
    rw [Bool.and_eq_true, List.any_eq_true, Bool.not_eq_true'] at hP
    obtain ⟨⟨e, he, hplan⟩, hfail⟩ := hP
    obtain ⟨plan, hplan, hnone⟩ := (Option.any_eq_true _ _).mp hplan
    refine ⟨s, hs, ⟨e, he, plan, hplan, beq_iff_eq.mp hnone⟩, ?_⟩
    rintro ⟨added, ha⟩
    rw [ha] at hfail
    cases hfail

/-- With the whole prompt in the first chunk the counterfactual block is resolved. -/
theorem counterfactual_inside_first_chunk :
    ∃ s : State Unit,
      Reachable (step reusingConfig fun _ _ => ()) (State.init reusingConfig fun _ _ => ()) s ∧
      (∃ e ∈ s.scheduler.scheduled, e.partialReusePlan.isSome = true) ∧
      ∃ added, addedRequests reusingConfig s.scheduler s.worker = .ok added := by
  obtain ⟨s, hs, hP⟩ := exists_reachableWhen (step reusingConfig fun _ _ => ())
    (fun _ _ => True) (State.init reusingConfig fun _ _ => ())
    (counterfactualRun ++ [.admitWaiting "target" { numNewTokens := 5 }])
    (fun s => s.scheduler.scheduled.any (fun e => e.partialReusePlan.isSome) &&
      s.scheduler.scheduled.all fun e => (forwardedCandidates s.scheduler e).length == 1 &&
        e.partialReusePlan.all fun plan => plan.counterfactualReuseBlockIndex == some 1 &&
          (forwardedCandidates s.scheduler e).all fun c => c.targetBlockIndex == 1)
    (by decide +kernel)
  rw [Bool.and_eq_true, List.any_eq_true, List.all_eq_true] at hP
  refine ⟨s, hs, hP.1, (addedRequests_ok_iff hs).1.mpr ?_⟩
  intro e he plan hplan
  have h := hP.2 e he
  rw [hplan] at h
  simp only [Bool.and_eq_true, beq_iff_eq, Option.all_some, List.all_eq_true] at h
  rw [SelectionRaises, h.2.1, not_not, List.filter_eq_self.mpr fun c hc => by
    rw [beq_iff_eq]; exact h.2.2 c hc]
  exact h.1

end CacheSelect.Engine

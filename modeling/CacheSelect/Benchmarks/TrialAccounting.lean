import CacheSelect.Benchmarks.Consolidation

/-! # Every trial is counted once

`runDatasetWorkflow` is the workflow of one transition with the expectations of its callers: the case runner expects
the blocks of its plan, the command line expects nothing.  It scores each trial, withholds the
decision of a trial that was cut off, writes a row for each label, and counts rows, invalid and abstained trials by
separate expressions.

What happens to a trial follows from five facts (`TrialOutcome`).  A finished workflow writes a row exactly for the
trials these facts admit, and its counts add up, so the consolidation accepts them.
-/

namespace CacheSelect.Benchmarks

open Features

/-! ### The workflow of a transition -/

/-- What a caller of the workflow expects of the server, and the blocks it plans. -/
structure ExpectedPlan where
  blockSize : Option Int := none
  candidateBlockIndices : Option (List Int) := none
  testableBlockIndices : Option (List Int) := none
  selectedBlockIndices : Option (List Int) := none

def expectIndices (expected : Option (List Int)) (found : List Int) : Except Raised Unit :=
  match expected with
  | none => .ok ()
  | some expected => sameIndices expected found

/-- `run_counterfactual_dataset_workflow`, on the transition of a case. -/
def runDatasetWorkflow (c : MtragCase) (w : CaseWorld) (approvedOutput : Option String)
    (options : RunOptions) (plan : ExpectedPlan) : Except Raised WorkflowRun := do
  let run ← runCandidateDiscovery c w approvedOutput options
  let discovery := run.discovery
  if discovery.blockSize ≠ plan.blockSize.getD discovery.blockSize then
    .error (.runtimeError "live vLLM block size differs from the frozen pilot")
  else do
    expectIndices plan.candidateBlockIndices discovery.candidateBlockIndices
    expectIndices plan.testableBlockIndices discovery.testableBlockIndices
    if discovery.testableBlockIndices = [] then
      .error (.runtimeError "transition has no full candidate blocks safe to test")
    else
      let freshReferenceOutput := run.edited.outputText.getD ""
      if freshReferenceOutput = "" then
        .error (.runtimeError "discovery produced no full-compute reference output")
      else
        let selected := plan.selectedBlockIndices.getD discovery.testableBlockIndices
        if selected = [] ∨ sortedAndUnique selected = false ∨
            selected.any (· ∉ discovery.testableBlockIndices) then
          .error (.runtimeError "planned blocks are not a valid live candidate subset")
        else do
          let batch ← runDiscoveredTrials c w discovery selected run.edited freshReferenceOutput options
          let rows ← trainingDataset batch c.split
          .ok {
            batch, rows
            summary := {
              discoveryId := some w.discoveryId
              trialCount := some batch.trials.length
              validTrainingRows := some rows.length
              invalidTrials := some batch.invalid.length
              abstainedTrials := some batch.abstained.length
              referenceDriftTrials := some (batch.trials.countP fun t => !t.referenceOutputExactMatch)
              repairLabels := some (batch.labels .repair)
              reuseLabels := some (batch.labels .reuse)
              traceId := some c.traceId
              transitionId := some c.transitionId
              split := some c.split } }

/-- What the case runner adds to the summary of a finished workflow. -/
def WorkflowRun.completed (c : MtragCase) (run : WorkflowRun) : WorkflowRun :=
  { run with summary := { run.summary with
      status := some "completed"
      skippedTargetBlocks := some 0
      collection := some c.collection
      currentTaskId := some c.edited.requestId } }

def MtragCase.plan (c : MtragCase) : ExpectedPlan where
  blockSize := some c.blockSize
  candidateBlockIndices := some c.expectedCandidateBlockIndices
  testableBlockIndices := some c.expectedTestableBlockIndices
  selectedBlockIndices := some c.targetBlockIndices

/-- The workflow of the case runner is this one, with the plan of the case. -/
theorem runWorkflow_eq (c : MtragCase) (w : CaseWorld) (approvedOutput : Option String)
    (options : RunOptions) :
    runWorkflow c w approvedOutput options
      = (runDatasetWorkflow c w approvedOutput options c.plan).map (WorkflowRun.completed c) := by
  rw [runWorkflow, runDatasetWorkflow]
  cases runCandidateDiscovery c w approvedOutput options with
  | error e => rfl
  | ok run =>
      show (if run.discovery.blockSize ≠ c.blockSize then _ else _)
        = Except.map _ (if run.discovery.blockSize ≠ c.blockSize then _ else _)
      by_cases hsize : run.discovery.blockSize ≠ c.blockSize
      · rw [if_pos hsize, if_pos hsize]
        rfl
      · rw [if_neg hsize, if_neg hsize]
        show (sameIndices c.expectedCandidateBlockIndices run.discovery.candidateBlockIndices >>= _)
          = Except.map _
            (sameIndices c.expectedCandidateBlockIndices run.discovery.candidateBlockIndices >>= _)
        cases sameIndices c.expectedCandidateBlockIndices run.discovery.candidateBlockIndices with
        | error e => rfl
        | ok _ =>
        show (sameIndices c.expectedTestableBlockIndices run.discovery.testableBlockIndices >>= _)
          = Except.map _
            (sameIndices c.expectedTestableBlockIndices run.discovery.testableBlockIndices >>= _)
        cases sameIndices c.expectedTestableBlockIndices run.discovery.testableBlockIndices with
        | error e => rfl
        | ok _ =>
        show (if run.discovery.testableBlockIndices = [] then _ else _)
          = Except.map _ (if run.discovery.testableBlockIndices = [] then _ else _)
        split
        · rfl
        show (if run.edited.outputText.getD "" = "" then _ else _)
          = Except.map _ (if run.edited.outputText.getD "" = "" then _ else _)
        split
        · rfl
        show (if c.targetBlockIndices = [] ∨ sortedAndUnique c.targetBlockIndices = false ∨
            c.targetBlockIndices.any (· ∉ run.discovery.testableBlockIndices) then _ else _)
          = Except.map _ (if c.targetBlockIndices = [] ∨ sortedAndUnique c.targetBlockIndices = false ∨
            c.targetBlockIndices.any (· ∉ run.discovery.testableBlockIndices) then _ else _)
        split
        · rfl
        show (runDiscoveredTrials c w run.discovery c.targetBlockIndices run.edited
            (run.edited.outputText.getD "") options >>= _)
          = Except.map _ (runDiscoveredTrials c w run.discovery c.targetBlockIndices run.edited
            (run.edited.outputText.getD "") options >>= _)
        cases runDiscoveredTrials c w run.discovery c.targetBlockIndices run.edited
            (run.edited.outputText.getD "") options with
        | error e => rfl
        | ok batch =>
        show (trainingDataset batch c.split >>= _)
          = Except.map _ (trainingDataset batch c.split >>= _)
        cases trainingDataset batch c.split <;> rfl

/-! ### What decides about a trial -/

structure TrialOutcome where
  referenceValid : Bool
  executionValid : Bool
  truncated : Bool
  exactMatch : Bool
  answerFails : Bool
deriving DecidableEq, Repr

/-- The facts about a trial, from its observations, the check of its execution and the comparison of the answers. -/
def outcomeOf (evidence : CounterfactualExecutionEvidence) (comparison : QualityComparison)
    (reference active : TrialObservation) : TrialOutcome where
  referenceValid := reference.outputText.getD "" ≠ "" && comparison.validReference
  executionValid := evidence.valid
  truncated := active.finishReason ≠ some "stop"
  exactMatch := reference.outputText.getD "" = active.outputText.getD ""
  answerFails := active.outputText.getD "" = "" || !comparison.passed

namespace TrialOutcome

/-- The trial has a decision: it is valid, was not cut off and is not withheld by the rule for equal answers. -/
def decides (o : TrialOutcome) (requireExactOutputMatch : Bool) : Bool :=
  o.referenceValid && o.executionValid && !o.truncated && (!requireExactOutputMatch || o.exactMatch)

def decision (o : TrialOutcome) (requireExactOutputMatch : Bool) : Option RepairDecision :=
  if o.decides requireExactOutputMatch then some (if o.answerFails then .repair else .reuse) else none

end TrialOutcome

/-- The result of a trial, truncated or not. -/
def trialResult (evidence : CounterfactualExecutionEvidence) (comparison : QualityComparison)
    (reference active : TrialObservation) (requireExactOutputMatch : Bool) : CounterfactualLabelResult :=
  let scored := scoreSingleBlockIntervention evidence reference.outputText active.outputText
    comparison.validReference comparison.passed requireExactOutputMatch
  if active.finishReason ≠ some "stop" then scored.withheld else scored

section

variable (evidence : CounterfactualExecutionEvidence) (comparison : QualityComparison)
  (reference active : TrialObservation) (exact : Bool)

/-- The score that a trial gets before the override. -/
theorem score_eq :
    (scoreSingleBlockIntervention evidence reference.outputText active.outputText
        comparison.validReference comparison.passed exact).validReference
        = (outcomeOf evidence comparison reference active).referenceValid ∧
      (scoreSingleBlockIntervention evidence reference.outputText active.outputText
        comparison.validReference comparison.passed exact).validExecution
        = (outcomeOf evidence comparison reference active).executionValid ∧
      (scoreSingleBlockIntervention evidence reference.outputText active.outputText
        comparison.validReference comparison.passed exact).decision
        = TrialOutcome.decision { outcomeOf evidence comparison reference active with truncated := false }
          exact := by
  rw [scoreSingleBlockIntervention]
  dsimp only
  by_cases h : reference.outputText.getD "" = "" ∨ comparison.validReference = false
  · have hreference : (outcomeOf evidence comparison reference active).referenceValid = false := by
      rcases h with h | h <;> simp [outcomeOf, h]
    rw [if_pos h]
    refine ⟨hreference.symm, rfl, ?_⟩
    rw [TrialOutcome.decision, TrialOutcome.decides]
    dsimp only
    rw [hreference]
    rfl
  rw [if_neg h]
  obtain ⟨hr, hq⟩ := not_or.mp h
  rw [Bool.not_eq_false] at hq
  have hreference : (outcomeOf evidence comparison reference active).referenceValid = true := by
    simp [outcomeOf, hr, hq]
  by_cases hv : evidence.valid = false
  · have hexecution : (outcomeOf evidence comparison reference active).executionValid = false := hv
    rw [if_pos hv]
    refine ⟨hreference.symm, hv.symm, ?_⟩
    rw [TrialOutcome.decision, TrialOutcome.decides]
    dsimp only
    rw [hexecution, Bool.and_false]
    rfl
  rw [if_neg hv]
  rw [Bool.not_eq_false] at hv
  have hexecution : (outcomeOf evidence comparison reference active).executionValid = true := hv
  have hmatch : decide (reference.outputText.getD "" ≠ "" ∧
      reference.outputText.getD "" = active.outputText.getD "")
        = (outcomeOf evidence comparison reference active).exactMatch := by
    simp [outcomeOf, hr]
  rw [hmatch]
  by_cases hx : exact = true ∧ (outcomeOf evidence comparison reference active).exactMatch = false
  · rw [if_pos hx]
    refine ⟨hreference.symm, hv.symm, ?_⟩
    rw [TrialOutcome.decision, TrialOutcome.decides]
    dsimp only
    rw [hx.1, hx.2, Bool.not_true, Bool.or_false, Bool.and_false]
    rfl
  rw [if_neg hx]
  have hallowed : (!exact || (outcomeOf evidence comparison reference active).exactMatch) = true := by
    cases exact with
    | false => rfl
    | true => simpa using hx
  have hdecides : TrialOutcome.decides
      { outcomeOf evidence comparison reference active with truncated := false } exact = true := by
    rw [TrialOutcome.decides]
    dsimp only
    rw [hreference, hexecution, hallowed]
    rfl
  rw [TrialOutcome.decision, if_pos hdecides]
  by_cases ha : active.outputText.getD "" = "" ∨ comparison.passed = false
  · have hfails : (outcomeOf evidence comparison reference active).answerFails = true := by
      rcases ha with ha | ha <;> simp [outcomeOf, ha]
    rw [if_pos ha]
    dsimp only
    rw [if_pos hfails]
    exact ⟨hreference.symm, hv.symm, rfl⟩
  · have hfails : (outcomeOf evidence comparison reference active).answerFails = false := by
      simpa [outcomeOf] using ha
    rw [if_neg ha]
    dsimp only
    rw [hfails]
    exact ⟨hreference.symm, hv.symm, rfl⟩

/-- **The result of a trial by its outcome**: the score and the later override agree with the five facts. -/
theorem trialResult_eq :
    (trialResult evidence comparison reference active exact).validReference
        = (outcomeOf evidence comparison reference active).referenceValid ∧
      (trialResult evidence comparison reference active exact).validExecution
        = (outcomeOf evidence comparison reference active).executionValid ∧
      (trialResult evidence comparison reference active exact).decision
        = (outcomeOf evidence comparison reference active).decision exact := by
  obtain ⟨hreference, hexecution, hdecision⟩ := score_eq evidence comparison reference active exact
  rw [trialResult]
  by_cases hstop : active.finishReason = some "stop"
  · have hwhole : (outcomeOf evidence comparison reference active).truncated = false := by
      simp [outcomeOf, hstop]
    rw [if_neg (not_not.mpr hstop), hdecision]
    refine ⟨hreference, hexecution, ?_⟩
    rw [← hwhole]
  · have hcut : (outcomeOf evidence comparison reference active).truncated = true := by
      simp [outcomeOf, hstop]
    rw [if_pos hstop]
    refine ⟨hreference, hexecution, ?_⟩
    rw [TrialOutcome.decision, TrialOutcome.decides, hcut, Bool.not_true, Bool.and_false, Bool.false_and]
    rfl

end

/-! ### Trials and their rows -/

/-- The outcome of a trial of a batch. -/
def IsOutcome (c : MtragCase) (blockSize : Int) (reference : TrialObservation)
    (t : CounterfactualTrialResult) (o : TrialOutcome) : Prop :=
  ∃ evidence comparison,
    validateCounterfactualExecution t.intervention blockSize t.interventionObservation.serverMetrics
      = .ok evidence ∧
    compareResponseQuality reference.quality t.interventionObservation.quality c.edited.expectedAnswer
      c.edited.gate = .ok comparison ∧
    o = outcomeOf evidence comparison reference t.interventionObservation

/-- What is recorded of a trial with an outcome. -/
structure Records (t : CounterfactualTrialResult) (o : TrialOutcome) (exact : Bool) : Prop where
  valid : t.labelResult.valid = (o.referenceValid && o.executionValid)
  decision : t.labelResult.decision = o.decision exact
  label : t.label.map BlockRepairLabel.decision = o.decision exact

theorem labelOf_eq_ok {r : CounterfactualLabelResult} {label : Option BlockRepairLabel}
    (h : labelOf r = .ok label) : label.map BlockRepairLabel.decision = r.decision := by
  rw [labelOf] at h
  split at h
  · next hnone =>
    cases h
    exact hnone.symm
  · next d hd =>
    obtain ⟨l, hl, rfl⟩ := Except.map_eq_ok.mp h
    rw [counterfactualBlockLabel] at hl
    split at hl
    · cases hl
    · rw [hd] at hl
      cases hl
      exact hd.symm

theorem records_of_trial {c : MtragCase} {blockSize : Int} {reference : TrialObservation}
    {required : String} {options : RunOptions} {i : SingleBlockIntervention} {w : TrialWorld}
    {t : CounterfactualTrialResult}
    (h : runSingleBlockTrial c blockSize reference required options i w = .ok t) :
    t.intervention = i ∧ ∃ o, IsOutcome c blockSize reference t o ∧
      Records t o options.requireExactOutputMatch := by
  rw [runSingleBlockTrial] at h
  iterate 4
    split at h
    · cases h
  dsimp only at h
  split at h
  · cases h
  · simp only [Except.bind_eq_ok] at h
    obtain ⟨_, -, evidence, hevidence, comparison, hcomparison, label, hlabel, h⟩ := h
    obtain ⟨hreference, hexecution, hdecision⟩ := trialResult_eq evidence comparison reference
      (c.observeIntervention i reference w).1 options.requireExactOutputMatch
    cases h
    refine ⟨rfl, _, ⟨evidence, comparison, hevidence, hcomparison, rfl⟩, ?_⟩
    refine { valid := ?_, decision := hdecision, label := ?_ }
    · rw [← hreference, ← hexecution]
      rfl
    · rw [← hdecision]
      exact labelOf_eq_ok hlabel

theorem candidateBlockIndex_of_feature {t : CounterfactualTrialResult} {blockSize : Int}
    {f : CandidateBlockFeatures} (h : extractTrialFeature t blockSize = .ok f) :
    (f.candidateBlockIndex : Int) = t.intervention.reusedBlockIndex := by
  rw [extractTrialFeature] at h
  simp only [Except.bind_eq_ok] at h
  obtain ⟨previous, -, current, -, h⟩ := h
  split at h
  · cases h
  · split at h
    · cases h
    · split at h
      · cases h
      · simp only [Except.bind_eq_ok] at h
        obtain ⟨opportunity, -, features, -, h⟩ := h
        split at h
        · next feature hfeature =>
          cases h
          have hmem : f ∈ features.filter fun f =>
              (f.candidateBlockIndex : Int) = t.intervention.reusedBlockIndex := by
            rw [hfeature]
            exact List.mem_cons_self
          exact of_decide_eq_true (List.mem_filter.mp hmem).2
        · cases h

/-- **A row has the decision of its trial**, and a trial has a row if it has a decision and the reference was stable. -/
theorem trainingRow_eq_ok {batch : CounterfactualTrialBatch} {split : String}
    {t : CounterfactualTrialResult} {row : Option TrainingRow} (h : trainingRow batch split t = .ok row) :
    row.map TrainingRow.decision
        = (if batch.referenceStable then t.label.map BlockRepairLabel.decision else none) ∧
      ∀ r, row = some r → (r.features.candidateBlockIndex : Int) = t.intervention.reusedBlockIndex := by
  rw [trainingRow] at h
  split at h
  · cases h
  · split at h
    · next hstable =>
      rw [Except.ok.injEq] at h
      rw [hstable, ← h]
      refine ⟨rfl, ?_⟩
      intro r hr
      cases hr
    · next hstable =>
      rw [Bool.not_eq_false] at hstable
      rw [if_pos hstable]
      split at h
      · next hlabel =>
        rw [Except.ok.injEq] at h
        rw [hlabel, ← h]
        refine ⟨rfl, ?_⟩
        intro r hr
        cases hr
      · next label hlabel =>
        split at h
        · cases h
        · obtain ⟨features, hfeatures, h⟩ := Except.bind_eq_ok.mp h
          rw [Except.ok.injEq] at h
          rw [hlabel, ← h]
          refine ⟨rfl, ?_⟩
          intro r hr
          rw [Option.some.injEq] at hr
          rw [← hr]
          exact candidateBlockIndex_of_feature hfeatures

/-! ### The counts -/

/-- A row for the trial, or none. -/
structure Accounted (stable exact : Bool) (t : CounterfactualTrialResult) (row : Option TrainingRow)
    (o : TrialOutcome) : Prop where
  records : Records t o exact
  decision : row.map TrainingRow.decision = (if stable then o.decision exact else none)
  block : ∀ r, row = some r → (r.features.candidateBlockIndex : Int) = t.intervention.reusedBlockIndex

/-- A trial is a row, invalid or abstained, and only one of them. -/
theorem counted_once : ∀ (o : TrialOutcome) (exact stable : Bool),
    (if stable && (o.decision exact).isSome then 1 else 0)
      + (if !(o.referenceValid && o.executionValid) then 1 else 0)
      + (if (o.referenceValid && o.executionValid) && (!stable || (o.decision exact).isNone) then 1 else 0)
      = 1 := by
  rintro ⟨rv, ev, tr, em, af⟩
  revert rv ev tr em af
  decide

theorem counts_of_accounted {stable exact : Bool} {ts : List CounterfactualTrialResult}
    {rows : List (Option TrainingRow)}
    (h : List.Forall₂ (fun t row => ∃ o, Accounted stable exact t row o) ts rows) :
    (rows.filterMap id).length + (ts.filter fun t => !t.labelResult.valid).length
        + (ts.filter fun t => t.labelResult.valid && (!stable || t.labelResult.decision.isNone)).length
      = ts.length ∧
    ∀ d, (rows.filterMap id).countP (fun r => decide (r.decision = d))
      = ts.countP fun t => stable && decide (t.label.map BlockRepairLabel.decision = some d) := by
  induction h with
  | nil => exact ⟨rfl, fun _ => rfl⟩
  | @cons t row ts rows hhead _ ih =>
      obtain ⟨o, ⟨hvalid, hdecision, hlabel⟩, hrow, -⟩ := hhead
      obtain ⟨hlength, hlabels⟩ := ih
      have honce := counted_once o exact stable
      have hsome : row.isSome = (stable && (o.decision exact).isSome) := by
        rw [← Option.isSome_map, hrow]
        cases stable <;> rfl
      constructor
      · have hrows : ((row :: rows).filterMap id).length
            = (rows.filterMap id).length + if stable && (o.decision exact).isSome then 1 else 0 := by
          rw [← hsome]
          cases row <;> simp
        rw [hrows, List.filter_cons, List.filter_cons, hvalid, hdecision, List.length_cons]
        split_ifs at honce ⊢ <;> first | omega | (simp only [List.length_cons]; omega)
      · intro d
        rw [List.countP_cons, ← hlabels d, hlabel]
        cases row with
        | none =>
            rw [Option.map_none] at hrow
            cases stable with
            | false => simp
            | true =>
                rw [if_pos rfl] at hrow
                simp [← hrow]
        | some r =>
            rw [Option.map_some] at hrow
            cases stable with
            | false => cases hrow
            | true =>
                rw [if_pos rfl] at hrow
                rw [← hrow]
                simp [List.countP_cons]

/-- Every row has one of the two decisions. -/
theorem length_eq_decisions (rows : List TrainingRow) :
    rows.countP (fun r => decide (r.decision = .repair)) + rows.countP (fun r => decide (r.decision = .reuse))
      = rows.length := by
  rw [List.length_eq_countP_add_countP (fun r => decide (r.decision = .repair)) (l := rows)]
  congr 1
  refine List.countP_congr ?_
  intro r _
  cases r.decision <;> simp

/-! ### Batches -/

theorem reused_of_buildInterventions {d : CounterfactualCandidateDiscovery} {selected : List Int}
    {interventions : List SingleBlockIntervention} (h : buildInterventions d selected = .ok interventions) :
    interventions.map SingleBlockIntervention.reusedBlockIndex = selected := by
  rw [buildInterventions] at h
  iterate 9
    split at h
    · cases h
  cases h
  rw [List.map_map]
  exact List.map_id _

theorem batch_of_trials {c : MtragCase} {w : CaseWorld} {d : CounterfactualCandidateDiscovery}
    {selected : List Int} {reference : TrialObservation} {required : String} {options : RunOptions}
    {b : CounterfactualTrialBatch}
    (h : runDiscoveredTrials c w d selected reference required options = .ok b) :
    b.discovery = d ∧
      b.trials.map (fun t => t.intervention.reusedBlockIndex) = selected ∧
      (b.referenceStable = true ↔ (c.observeStability reference w).1.finishReason = some "stop" ∧
        (c.observeStability reference w).1.outputText = reference.outputText) ∧
      ∀ t ∈ b.trials, ∃ o, IsOutcome c d.blockSize reference t o ∧
        Records t o options.requireExactOutputMatch := by
  rw [runDiscoveredTrials] at h
  simp only [Except.bind_eq_ok] at h
  obtain ⟨interventions, hinterventions, trials, htrials, _, -, h⟩ := h
  cases h
  have hmap : trials.map CounterfactualTrialResult.intervention = interventions := by
    have := Except.map_eq_map_of_mapM (g := CounterfactualTrialResult.intervention) (h := Prod.fst)
      (fun a t ht => (records_of_trial ht).1) htrials
    rw [this, List.zipIdx_map_fst]
  refine ⟨rfl, ?_, decide_eq_true_iff, ?_⟩
  · rw [← reused_of_buildInterventions hinterventions, ← hmap, List.map_map]
    rfl
  · intro t ht
    obtain ⟨n, hn, rfl⟩ := List.mem_iff_getElem.mp ht
    obtain ⟨i, -, hi⟩ := Except.exists_ok_of_mapM_zipIdx htrials (trials[n], n)
      (List.mem_zipIdx_iff_getElem?.mpr (List.getElem?_eq_getElem hn))
    exact (records_of_trial hi).2

/-- The rows of a table, one place for each trial of the batch. -/
theorem accounted_of_dataset {b : CounterfactualTrialBatch} {split : String} {rows : List TrainingRow}
    {c : MtragCase} {blockSize : Int} {reference : TrialObservation} {exact : Bool}
    (hrows : trainingDataset b split = .ok rows)
    (htrials : ∀ t ∈ b.trials, ∃ o, IsOutcome c blockSize reference t o ∧ Records t o exact) :
    ∃ places : List (Option TrainingRow), rows = places.filterMap id ∧
      List.Forall₂ (fun t row => ∃ o, IsOutcome c blockSize reference t o ∧
        Accounted b.referenceStable exact t row o) b.trials places := by
  rw [trainingDataset] at hrows
  split at hrows
  · cases hrows
  · obtain ⟨places, hplaces, h⟩ := Except.bind_eq_ok.mp hrows
    cases h
    refine ⟨places, rfl, ?_⟩
    have hall := Except.mapM_eq_ok_iff.mp hplaces
    clear hplaces hrows
    generalize b.trials = trials at htrials hall ⊢
    induction hall with
    | nil => exact List.Forall₂.nil
    | @cons t row ts places hrow _ ih =>
        obtain ⟨o, houtcome, hrecords⟩ := htrials t List.mem_cons_self
        obtain ⟨hdecision, hblock⟩ := trainingRow_eq_ok hrow
        refine List.Forall₂.cons ⟨o, houtcome, ⟨hrecords, ?_, hblock⟩⟩
          (ih fun t' ht' => htrials t' (List.mem_cons_of_mem _ ht'))
        rw [hdecision, hrecords.label]

/-! ### Finished workflows -/

/-- The conditions under which a trial gets a row. -/
def TrialOutcome.Trains (o : TrialOutcome) (exact stable : Bool) : Prop :=
  o.referenceValid = true ∧ o.executionValid = true ∧ o.truncated = false ∧ stable = true ∧
    ¬ (exact = true ∧ o.exactMatch = false)

theorem TrialOutcome.trains_iff (o : TrialOutcome) (exact stable : Bool) :
    o.Trains exact stable ↔ stable = true ∧ (o.decision exact).isSome = true := by
  rw [Trains, decision, decides]
  cases o.referenceValid <;> cases o.executionValid <;> cases o.truncated <;> cases stable <;>
    cases exact <;> cases o.exactMatch <;> simp

/-- The row of a trial: it is there if the outcome admits it, and it repairs if the answer fails. -/
def RowOf (exact stable : Bool) (t : CounterfactualTrialResult) (row : Option TrainingRow)
    (o : TrialOutcome) : Prop :=
  (row.isSome = true ↔ o.Trains exact stable) ∧
    ∀ r, row = some r → (r.features.candidateBlockIndex : Int) = t.intervention.reusedBlockIndex ∧
      (r.decision = .repair ↔ o.answerFails = true)

theorem Accounted.rowOf {exact stable : Bool} {t : CounterfactualTrialResult} {row : Option TrainingRow}
    {o : TrialOutcome} (h : Accounted stable exact t row o) : RowOf exact stable t row o := by
  constructor
  · rw [o.trains_iff, ← Option.isSome_map, h.decision]
    cases stable <;> simp
  · intro r hr
    refine ⟨h.block r hr, ?_⟩
    have hdecision := h.decision
    rw [hr, Option.map_some] at hdecision
    split at hdecision
    · rw [TrialOutcome.decision] at hdecision
      split at hdecision
      · rw [Option.some.inj hdecision]
        cases o.answerFails <;> simp
      · cases hdecision
    · cases hdecision

/-- The counts of a summary are those of its batch and of its rows. -/
structure CountsOf (run : WorkflowRun) : Prop where
  trials : run.summary.trialCount = some (run.batch.trials.length : Int)
  rows : run.summary.validTrainingRows = some (run.rows.length : Int)
  invalid : run.summary.invalidTrials = some (run.batch.invalid.length : Int)
  abstained : run.summary.abstainedTrials = some (run.batch.abstained.length : Int)
  repair : run.summary.repairLabels = some (run.batch.labels .repair : Int)
  reuse : run.summary.reuseLabels = some (run.batch.labels .reuse : Int)

/-- A finished workflow: its trials are those of the planned blocks, each has its row or none, and the counts add up. -/
structure Balanced (c : MtragCase) (w : CaseWorld) (options : RunOptions) (run : WorkflowRun) : Prop where
  stable : run.batch.referenceStable = true ↔
    (c.observeStability (c.observeEdited w).1 w).1.finishReason = some "stop" ∧
      (c.observeStability (c.observeEdited w).1 w).1.outputText = (c.observeEdited w).1.outputText
  places : ∃ places : List (Option TrainingRow), run.rows = places.filterMap id ∧
    List.Forall₂ (fun t row => ∃ o, IsOutcome c run.batch.discovery.blockSize (c.observeEdited w).1 t o ∧
      RowOf options.requireExactOutputMatch run.batch.referenceStable t row o) run.batch.trials places
  total : run.rows.length + run.batch.invalid.length + run.batch.abstained.length
    = run.batch.trials.length
  labels : run.batch.labels .repair + run.batch.labels .reuse = run.rows.length
  decisions : ∀ d, run.rows.countP (fun r => decide (r.decision = d)) = run.batch.labels d
  counts : CountsOf run

theorem balanced_of_workflow {c : MtragCase} {w : CaseWorld} {approvedOutput : Option String}
    {options : RunOptions} {plan : ExpectedPlan} {run : WorkflowRun}
    (h : runDatasetWorkflow c w approvedOutput options plan = .ok run) :
    Balanced c w options run ∧ run.batch.trials.map (fun t => t.intervention.reusedBlockIndex)
      = plan.selectedBlockIndices.getD run.batch.discovery.testableBlockIndices := by
  rw [runDatasetWorkflow] at h
  obtain ⟨discovery, hdiscovery, h⟩ := Except.bind_eq_ok.mp h
  have hedited := edited_of_discovery hdiscovery
  dsimp only at h
  split at h
  · cases h
  · simp only [Except.bind_eq_ok] at h
    obtain ⟨_, -, _, -, h⟩ := h
    iterate 3
      split at h
      · cases h
    simp only [Except.bind_eq_ok] at h
    obtain ⟨batch, hbatch, rows, hrows, h⟩ := h
    rw [hedited] at hbatch
    obtain ⟨hdisc, hselected, hstable, htrials⟩ := batch_of_trials hbatch
    obtain ⟨places, hplaces, hall⟩ := accounted_of_dataset hrows htrials
    obtain ⟨htotal, hlabels⟩ := counts_of_accounted
      (hall.imp fun t row ⟨o, _, ho⟩ => ⟨o, ho⟩)
    cases h
    rw [← hplaces] at htotal hlabels
    refine ⟨{
      stable := hstable
      places := ⟨places, hplaces, hall.imp fun t row ⟨o, houtcome, ho⟩ =>
        ⟨o, by rwa [hdisc], ho.rowOf⟩⟩
      total := htotal
      labels := ?_
      decisions := hlabels
      counts := ⟨rfl, rfl, rfl, rfl, rfl, rfl⟩ }, ?_⟩
    · have hsum := length_eq_decisions rows
      rw [hlabels, hlabels] at hsum
      exact hsum
    · rw [hselected, hdisc]

/-! ### Consolidation -/

theorem consistent_of_counts {run : WorkflowRun} {c : MtragCase} {w : CaseWorld} {options : RunOptions}
    (h : Balanced c w options run) :
    consistentCounts run.summary.toCountRecord = true ∧ checkRows run.summary run.rows = .ok () := by
  obtain ⟨htrials, hrows, hinvalid, habstained, hrepair, hreuse⟩ := h.counts
  have htotal := h.total
  have hlabels := h.labels
  constructor
  · rw [consistentCounts, decide_eq_true_iff, hrows, hinvalid, habstained, htrials, hrepair, hreuse]
    simp only [Option.getD_some]
    omega
  · have hchecks : ¬ ((run.rows.length : Int) ≠ run.summary.validTrainingRows.getD 0 ∨
        ((run.rows.countP fun r => decide (r.decision = .repair) : Nat) : Int)
          ≠ run.summary.repairLabels.getD 0 ∨
        ((run.rows.countP fun r => decide (r.decision = .reuse) : Nat) : Int)
          ≠ run.summary.reuseLabels.getD 0) := by
      rw [hrows, hrepair, hreuse, h.decisions, h.decisions]
      simp
    rw [checkRows, if_neg hchecks]

theorem Balanced.completed {c : MtragCase} {w : CaseWorld} {options : RunOptions} {run : WorkflowRun}
    (h : Balanced c w options run) : Balanced c w options (run.completed c) where
  stable := h.stable
  places := h.places
  total := h.total
  labels := h.labels
  decisions := h.decisions
  counts := ⟨h.counts.trials, h.counts.rows, h.counts.invalid, h.counts.abstained, h.counts.repair,
    h.counts.reuse⟩

/-- **The workflow accounts for every trial**, whatever the server answers and for any planned blocks; and what the
case runner leaves of a case passes the checks of the consolidation. -/
theorem trials_accounted (c : MtragCase) (w : CaseWorld) (approvedOutput : Option String)
    (options : RunOptions) :
    (∀ plan run, runDatasetWorkflow c w approvedOutput options plan = .ok run →
      Balanced c w options run ∧
      run.batch.trials.map (fun t => t.intervention.reusedBlockIndex)
        = plan.selectedBlockIndices.getD run.batch.discovery.testableBlockIndices ∧
      consistentCounts run.summary.toCountRecord = true ∧ checkRows run.summary run.rows = .ok ()) ∧
    ∀ index r, runMtragCase c w approvedOutput options index = .ok r →
      consistentCounts r.summary.toCountRecord = true ∧ checkRows r.summary r.rows = .ok () := by
  constructor
  · intro plan run hrun
    obtain ⟨hbalanced, hselected⟩ := balanced_of_workflow hrun
    exact ⟨hbalanced, hselected, consistent_of_counts hbalanced⟩
  · intro index r hr
    rw [runMtragCase, runWorkflow_eq] at hr
    cases hworkflow : runDatasetWorkflow c w approvedOutput options c.plan with
    | ok run =>
        rw [hworkflow] at hr
        cases hr
        exact consistent_of_counts (balanced_of_workflow hworkflow).1.completed
    | error e =>
        rw [hworkflow] at hr
        change (if e ≠ qualityError then _ else _) = _ at hr
        split at hr
        · cases hr
        · cases hr
          exact ⟨rfl, rfl⟩

/-- The plan of the server for four candidate blocks, with the block of an intervention. -/
def outcomesPlan (block : Option Int) : ServerPlan where
  transitionId := some "x"
  blockSize := some 1
  nativeCachedTokens := some 0
  counterfactualReuseBlockIndex := block
  candidateBlockCount := some 4
  candidateTokenCount := some 4
  candidates := some ([3, 1, 0, 2].map fun target =>
    some { targetBlockIndex := some target, sourceResident := some true })

/-- The metrics of the intervention at a block. -/
def outcomesMetrics (block : Int) : ServerMetrics :=
  { interventionMetrics with
    partialReusePlan := some (outcomesPlan (some block))
    candidateTokens := some 4
    repairTokens := some 3
    copiedBlocks := some 4
    copiedTokens := some 4 }

def outcomesAnswer (ledgerId text finishReason : String) (metrics : ServerMetrics) : Answer :=
  { ledgerId := ledgerId
    reply := { (sampleAnswer ledgerId text finishReason metrics).reply with
      promptTokenIds := some [1, 2, 3, 4, 5]
      promptTokenCount := some 5 } }

/-- Four interventions: one keeps the answer, one gives another that fails, one is cut off, and in the last the server
copies a block too few. -/
def outcomesTrial : Nat → Answer
  | 0 => outcomesAnswer "4" "a" "stop" (outcomesMetrics 0)
  | 1 =>
      let answer := outcomesAnswer "6" "b" "stop" (outcomesMetrics 1)
      { answer with reply := { answer.reply with quality := { mode := "requirements", passed := false } } }
  | 2 => outcomesAnswer "8" "a" "length" (outcomesMetrics 2)
  | _ => outcomesAnswer "10" "a" "stop" { outcomesMetrics 3 with copiedBlocks := some 3 }

def outcomesWorld : CaseWorld where
  discoveryId := "d"
  source := outcomesAnswer "1" "s" "stop" {}
  edited := outcomesAnswer "2" "a" "stop" { discoveryMetrics with
    partialReusePlan := some (outcomesPlan none)
    candidateTokens := some 4
    repairTokens := some 4 }
  trial := fun n => ⟨"t", outcomesAnswer "3" "s" "stop" {}, outcomesTrial n⟩
  checkId := "c"
  stability := outcomesAnswer "11" "a" "stop" {}

/-- One trial of each kind, where the answers need not be equal. -/
theorem trials_accounted_outcomes : ∃ run,
    runDatasetWorkflow sampleCase outcomesWorld none { requireExactOutputMatch := false } {} = .ok run ∧
      Balanced sampleCase outcomesWorld { requireExactOutputMatch := false } run ∧
      run.rows.map TrainingRow.decision = [.reuse, .repair] ∧ run.batch.abstained.length = 1 ∧
      run.batch.invalid.length = 1 := by
  obtain ⟨run, hrun, hp⟩ := @Except.exists_ok_of_any _ _
    (runDatasetWorkflow sampleCase outcomesWorld none { requireExactOutputMatch := false } {})
    (fun run => decide (run.rows.map TrainingRow.decision = [.reuse, .repair] ∧ run.batch.abstained.length = 1 ∧
      run.batch.invalid.length = 1)) (by decide +kernel)
  have hall := trials_accounted sampleCase outcomesWorld none { requireExactOutputMatch := false }
  exact ⟨run, hrun, (hall.1 {} run hrun).1, of_decide_eq_true hp⟩

end CacheSelect.Benchmarks

import CacheSelect.Benchmarks.CounterfactualWorkflow
import Mathlib.Data.List.Flatten

/-! # Which trials are reviewed

The workflow counts a valid trial as abstained where its intervention was cut off or answers differently, or where
the reference was not stable.  `prepareMtragReview` reconstructs these trials from the ledger, by the texts and by
the finish reason of the stability check, and raises where their number is not the one of the summary.

`review_of_run` says for which answers of the server the two agree.
-/

namespace CacheSelect.Benchmarks

open OrderedDict

/-! ### The trials of a ledger -/

/-- The references of the cases whose trials are all invalid. -/
def caseInvalidReference (case : CaseSummary) : Except Raised (Option String) :=
  if case.invalidTrials.getD 0 = 0 then .ok none
  else
    match case.discoveryId with
    | none => .error (.valueError "invalid MTRAG case is not wholly rejected")
    | some discoveryId =>
        if case.invalidTrials ≠ case.trialCount ∨ discoveryId = "" then
          .error (.valueError "invalid MTRAG case is not wholly rejected")
        else .ok (some (discoveryId ++ ":edited"))

/-- The requests of a trial. -/
structure TrialRoles where
  reference : Option StartedRequest := none
  intervention : Option StartedRequest := none

/-- The body of the loop that collects the requests of the trials. -/
def addTrialRole (trials : List (String × TrialRoles)) (r : StartedRequest) :
    Except Raised (List (String × TrialRoles)) :=
  if r.role ≠ some "reference" ∧ r.role ≠ some "intervention" then .ok trials
  else
    match r.trialId with
    | none => .error (.valueError "MTRAG ledger has duplicate or invalid trial roles")
    | some trialId =>
        let roles := (get trials trialId).getD {}
        if r.role = some "reference" then
          if roles.reference.isSome then
            .error (.valueError "MTRAG ledger has duplicate or invalid trial roles")
          else .ok (assign trials trialId { roles with reference := some r })
        else if roles.intervention.isSome then
          .error (.valueError "MTRAG ledger has duplicate or invalid trial roles")
        else .ok (assign trials trialId { roles with intervention := some r })

/-- A trial without a reference of its own has the request that its intervention names. -/
def completeRoles (byBenchmarkId : List (Option String × StartedRequest)) (roles : TrialRoles) :
    TrialRoles :=
  match roles.reference, roles.intervention with
  | none, some intervention =>
      { roles with reference := get byBenchmarkId intervention.referenceRequestId }
  | _, _ => roles

/-- A trial with both requests. -/
structure PlannedTrial where
  trialId : String
  reference : StartedRequest
  intervention : StartedRequest

def plannedTrial (trial : String × TrialRoles) : Except Raised PlannedTrial :=
  match trial.2.reference, trial.2.intervention with
  | some reference, some intervention => .ok { trialId := trial.1, reference, intervention }
  | _, _ => .error (.valueError "MTRAG ledger does not contain every planned trial")

/-- The trials of a ledger. -/
def plannedTrials (l : TrialLedger) (trialCount : Int) : Except Raised (List PlannedTrial) := do
  let byBenchmarkId := ofPairs (l.requests.map fun r => (r.benchmarkRequestId, r))
  let trials ← l.requests.foldlM addTrialRole []
  let planned ← (mapValues (completeRoles byBenchmarkId) trials).mapM plannedTrial
  if (planned.length : Int) ≠ trialCount then
    .error (.valueError "MTRAG ledger does not contain every planned trial")
  else .ok planned

/-- The checks of the stability of the references. -/
def stabilityChecks (l : TrialLedger) : List (Option String × StartedRequest) :=
  ofPairs ((l.requests.filter fun r => r.role = some "stability_reference").map fun r =>
    (r.referenceRequestId, r))

/-- The answer of the stability check, if there is one. -/
def stabilityDone (l : TrialLedger) (reference : StartedRequest) : Option CompletedRequest :=
  (get (stabilityChecks l) reference.benchmarkRequestId).bind fun start =>
    get l.completed start.requestId

/-- The answer of the stability check has a text that is another one, or that was cut off. -/
def unstableReference (stability : Option CompletedRequest) (referenceText : Option String) : Bool :=
  match stability with
  | none => false
  | some done => done.text.isSome &&
      (decide (done.text ≠ referenceText) ||
        decide (done.finishReason ≠ none ∧ done.finishReason ≠ some "stop"))

/-- What reviewers need to see of a trial that awaits review. -/
def reviewEvidence (t : PlannedTrial) (referenceText interventionText stability : Option String) :
    Except Raised AbstainedTrial :=
  match t.intervention.queries, t.intervention.expectedAnswer, referenceText, interventionText,
    t.intervention.reuseBlockIndex with
  | [some question], some expectedAnswer, some reference, some intervention, some blockIndex =>
      if expectedAnswer = "" then .error (.valueError "MTRAG abstention lacks review evidence")
      else .ok {
        trialId := t.trialId
        blockIndex, question, expectedAnswer, reference, intervention, stability }
  | _, _, _, _, _ => .error (.valueError "MTRAG abstention lacks review evidence")

/-- The trial, if it awaits review. -/
def abstainedTrial (l : TrialLedger) (invalidReferences : List String) (t : PlannedTrial) :
    Except Raised (Option AbstainedTrial) := do
  let referenceDone ← l.response t.reference.requestId
  let interventionDone ← l.response t.intervention.requestId
  if invalidReferences.any fun id => t.reference.benchmarkRequestId = some id then .ok none
  else
    let stability := stabilityDone l t.reference
    let unstable := unstableReference stability referenceDone.text
    if referenceDone.text = interventionDone.text ∧ unstable = false then .ok none
    else (reviewEvidence t referenceDone.text interventionDone.text
      (if unstable then stability.bind CompletedRequest.text else none)).map some

/-- `prepare_mtrag_counterfactual_review`. -/
def prepareMtragReview (h : Hashes) (path : String) (events : List TrialEvent) (summary : RunSummary) :
    Except Raised (List ReviewRow × List KeyRow) :=
  match summary.trialCount, summary.invalidTrials, summary.abstainedTrials with
  | some trialCount, some invalidCount, some abstainedCount => do
      let invalidReferences ← summary.cases.mapM caseInvalidReference
      let rejectedTrials := (summary.cases.map fun case => case.invalidTrials.getD 0).sum
      if rejectedTrials ≠ invalidCount then
        .error (.valueError "invalid trials do not match rejected reference cases")
      else do
        let l ← loadLedger path events
        let planned ← plannedTrials l trialCount
        let abstained ← planned.mapM (abstainedTrial l (invalidReferences.filterMap id))
        let abstained := abstained.filterMap id
        if (abstained.length : Int) ≠ abstainedCount then
          .error (.valueError "non-exact ledger trials do not match recorded abstentions")
        else .ok (prepareReview h abstained)
  | _, _, _ => .error (.valueError "MTRAG result has invalid trial counts")

/-! ### Ledgers of cases -/

namespace CaseParts

/-- The metadata of the requests say what they are for. -/
structure Ok (p : CaseParts) : Prop where
  source : p.source.1.role = some "discovery_source"
  edited : p.edited.1.role = some "discovery_edit"
  donor : ∀ t ∈ p.trials, t.1.1.role = some "donor"
  intervention : ∀ t ∈ p.trials, t.2.1.role = some "intervention" ∧ t.2.1.trialId.isSome = true ∧
    t.2.1.referenceRequestId = p.edited.1.benchmarkRequestId
  stability : ∀ r ∈ p.stability, r.1.role = some "stability_reference" ∧
    r.1.referenceRequestId = p.edited.1.benchmarkRequestId

theorem filter_intervention {p : CaseParts} (h : p.Ok) :
    (p.requests.map Prod.fst).filter (fun r => r.role = some "intervention")
      = p.trials.map fun t => t.2.1 := by
  have htrials : ((p.trials.flatMap fun t => [t.1, t.2]).map Prod.fst).filter
      (fun r => r.role = some "intervention") = p.trials.map fun t => t.2.1 := by
    rw [List.map_flatMap, List.filter_flatMap, List.map_eq_flatMap]
    refine List.flatMap_congr fun t ht => ?_
    simp [h.donor t ht, (h.intervention t ht).1]
  have hstability : (p.stability.toList.map Prod.fst).filter
      (fun r => r.role = some "intervention") = [] := by
    refine List.filter_eq_nil_iff.mpr ?_
    rw [List.forall_mem_map]
    intro r hr
    simp [(h.stability r (Option.mem_toList.mp hr)).1]
  rw [requests, List.map_append, List.filter_append, List.map_append, List.filter_append, htrials,
    hstability, List.append_nil]
  simp [h.source, h.edited]

theorem filter_reference {p : CaseParts} (h : p.Ok) :
    ∀ r ∈ p.requests.map Prod.fst, r.role ≠ some "reference" := by
  rw [List.forall_mem_map]
  intro r hr
  rw [requests, List.mem_append, List.mem_append, List.mem_flatMap] at hr
  rcases hr with (hr | ⟨t, ht, hr⟩) | hr
  · rcases List.mem_cons.mp hr with rfl | hr
    · simp [h.source]
    · rw [List.mem_singleton.mp hr, h.edited]
      decide
  · rcases List.mem_cons.mp hr with rfl | hr
    · simp [h.donor t ht]
    · rw [List.mem_singleton.mp hr, (h.intervention t ht).1]
      decide
  · rw [(h.stability r (Option.mem_toList.mp hr)).1]
    decide

theorem filter_stability {p : CaseParts} (h : p.Ok) :
    (p.requests.map Prod.fst).filter (fun r => r.role = some "stability_reference")
      = p.stability.toList.map Prod.fst := by
  have htrials : ((p.trials.flatMap fun t => [t.1, t.2]).map Prod.fst).filter
      (fun r => r.role = some "stability_reference") = [] := by
    rw [List.filter_eq_nil_iff, List.forall_mem_map]
    intro r hr
    obtain ⟨t, ht, hr⟩ := List.mem_flatMap.mp hr
    rcases List.mem_cons.mp hr with rfl | hr
    · simp [h.donor t ht]
    · rw [List.mem_singleton.mp hr, (h.intervention t ht).1]
      decide
  have hstability : (p.stability.toList.map Prod.fst).filter
      (fun r => r.role = some "stability_reference") = p.stability.toList.map Prod.fst := by
    refine List.filter_eq_self.mpr ?_
    rw [List.forall_mem_map]
    intro r hr
    simp [(h.stability r (Option.mem_toList.mp hr)).1]
  rw [requests, List.map_append, List.filter_append, List.map_append, List.filter_append, htrials,
    hstability, List.append_nil]
  simp [h.source, h.edited]

end CaseParts

/-- **Trials that have only interventions** are collected in the order of these. -/
theorem foldlM_addTrialRole : ∀ (rs : List StartedRequest) (d : List (String × TrialRoles)),
    (∀ r ∈ rs, r.role ≠ some "reference") →
    (∀ r ∈ rs, r.role = some "intervention" → r.trialId.isSome = true) →
    (keys d ++ (rs.filter fun r => r.role = some "intervention").map fun r => r.trialId.getD "").Nodup →
    rs.foldlM addTrialRole d = .ok (d ++ (rs.filter fun r => r.role = some "intervention").map fun r =>
      (r.trialId.getD "", { intervention := some r })) := by
  intro rs
  induction rs with
  | nil =>
      intro d _ _ _
      rw [List.filter_nil, List.map_nil, List.append_nil]
      rfl
  | cons r rs ih =>
      intro d href hid hnd
      rw [List.foldlM_cons]
      have href' := fun r' hr' => href r' (List.mem_cons_of_mem _ hr')
      have hid' := fun r' hr' => hid r' (List.mem_cons_of_mem _ hr')
      by_cases hrole : r.role = some "intervention"
      · obtain ⟨trialId, htrial⟩ := Option.isSome_iff_exists.mp (hid r List.mem_cons_self hrole)
        have hcons : (r :: rs).filter (fun r => decide (r.role = some "intervention"))
            = r :: rs.filter fun r => decide (r.role = some "intervention") :=
          List.filter_cons_of_pos (by simpa using hrole)
        rw [hcons, List.map_cons] at hnd ⊢
        have hnew : trialId ∉ keys d := by
          intro hin
          refine (List.nodup_append.mp hnd).2.2 trialId hin trialId ?_ rfl
          rw [htrial]
          exact List.mem_cons_self
        have hnone : get d trialId = none := get_eq_none_iff.mpr hnew
        have hstep : addTrialRole d r = .ok (d ++ [(trialId, { intervention := some r })]) := by
          rw [addTrialRole, if_neg (fun h => h.2 hrole), htrial]
          dsimp only
          rw [if_neg (href r List.mem_cons_self), hnone]
          exact congrArg Except.ok (assign_of_not_mem hnew _)
        rw [hstep]
        change rs.foldlM addTrialRole _ = _
        rw [ih _ href' hid', List.append_assoc, htrial]
        · rfl
        · have hkeys : keys (d ++ [(trialId, ({ intervention := some r } : TrialRoles))])
              = keys d ++ [trialId] := List.map_append
          rw [hkeys, List.append_assoc]
          rw [htrial] at hnd
          exact hnd
      · have hcons : (r :: rs).filter (fun r => decide (r.role = some "intervention"))
            = rs.filter fun r => decide (r.role = some "intervention") :=
          List.filter_cons_of_neg (by simpa using hrole)
        rw [hcons] at hnd ⊢
        have hstep : addTrialRole d r = .ok d :=
          if_pos ⟨href r List.mem_cons_self, hrole⟩
        rw [hstep]
        exact ih d href' hid' hnd

/-- The ledger of requests that were answered. -/
def ledgerOf (requests : List RecordedRequest) : TrialLedger where
  started := requests.map fun r => (r.1.requestId, r.1)
  completed := requests.map fun r => (r.1.requestId, r.2)

theorem filterMap_eventsOf {α : Type} (f : TrialEvent → Option α) (requests : List RecordedRequest) :
    (eventsOf requests).filterMap f = requests.flatMap fun r =>
      ([.started r.1, .completed r.1.requestId r.2] : List TrialEvent).filterMap f :=
  List.filterMap_flatMap ..

theorem requests_ledgerOf (requests : List RecordedRequest) :
    (ledgerOf requests).requests = requests.map Prod.fst := by
  rw [TrialLedger.requests, ledgerOf, List.map_map]
  rfl

theorem loadLedger_eventsOf (path : String) {requests : List RecordedRequest}
    (hids : ∀ r ∈ requests, r.1.requestId ≠ "")
    (hnd : (requests.map fun r => r.1.requestId).Nodup) :
    loadLedger path (eventsOf requests) = .ok (ledgerOf requests) := by
  have hstarted : (eventsOf requests).filterMap TrialEvent.startedId
      = requests.map fun r => r.1.requestId := by
    rw [filterMap_eventsOf, List.map_eq_flatMap]
    rfl
  have hcompleted : (eventsOf requests).filterMap TrialEvent.completedId
      = requests.map fun r => r.1.requestId := by
    rw [filterMap_eventsOf, List.map_eq_flatMap]
    rfl
  refine loadLedger_eq_ok.mpr ⟨{ noFailure := ?_, ids := ?_, nodup := ?_, matched := ?_ }, ?_⟩
  · intro id hid
    obtain ⟨r, -, hr⟩ := List.mem_flatMap.mp hid
    simp at hr
  · rw [hstarted, List.forall_mem_map]
    exact hids
  · rw [hstarted]
    exact hnd
  · rw [hstarted, hcompleted]
  · rw [filterMap_eventsOf, filterMap_eventsOf, ledgerOf, List.map_eq_flatMap, List.map_eq_flatMap]
    rfl

theorem get_completed {requests : List RecordedRequest}
    (hnd : (requests.map fun r => r.1.requestId).Nodup) {r : RecordedRequest} (hr : r ∈ requests) :
    get (ledgerOf requests).completed r.1.requestId = some r.2 := by
  refine get_of_mem ?_ (List.mem_map_of_mem hr)
  rw [keys, ledgerOf, List.map_map]
  exact hnd

/-- The trials of the cases, each with its case. -/
def itemsOf (ps : List CaseParts) : List (CaseParts × RecordedRequest) :=
  ps.flatMap fun p => p.trials.map fun t => (p, t.2)

/-- A ledger of cases: no id is used twice. -/
structure CasesOk (ps : List CaseParts) : Prop where
  parts : ∀ p ∈ ps, p.Ok
  ids : ∀ r ∈ ps.flatMap CaseParts.requests, r.1.requestId ≠ ""
  nodupIds : ((ps.flatMap CaseParts.requests).map fun r => r.1.requestId).Nodup
  nodupBenchmarkIds : ((ps.flatMap CaseParts.requests).map fun r => r.1.benchmarkRequestId).Nodup
  nodupTrialIds : ((itemsOf ps).map fun i => i.2.1.trialId.getD "").Nodup

theorem mem_itemsOf {ps : List CaseParts} {i : CaseParts × RecordedRequest} (hi : i ∈ itemsOf ps) :
    i.1 ∈ ps ∧ ∃ donor, (donor, i.2) ∈ i.1.trials := by
  obtain ⟨p, hp, hi⟩ := List.mem_flatMap.mp hi
  obtain ⟨t, ht, rfl⟩ := List.mem_map.mp hi
  exact ⟨hp, t.1, ht⟩

theorem mem_requests_intervention {p : CaseParts} {donor r : RecordedRequest}
    (h : (donor, r) ∈ p.trials) : r ∈ p.requests := by
  rw [CaseParts.requests, List.mem_append, List.mem_append, List.mem_flatMap]
  exact Or.inl (Or.inr ⟨_, h, by simp⟩)

theorem mem_requests_edited (p : CaseParts) : p.edited ∈ p.requests := by
  simp [CaseParts.requests]

/-- What the review makes of a trial of a case. -/
def planned (i : CaseParts × RecordedRequest) : PlannedTrial where
  trialId := i.2.1.trialId.getD ""
  reference := i.1.edited.1
  intervention := i.2.1

namespace CasesOk

variable {ps : List CaseParts}

theorem interventions (h : CasesOk ps) :
    ((ps.flatMap CaseParts.requests).map Prod.fst).filter (fun r => r.role = some "intervention")
      = (itemsOf ps).map fun i => i.2.1 := by
  rw [List.map_flatMap, List.filter_flatMap, itemsOf, List.map_flatMap]
  refine List.flatMap_congr fun p hp => ?_
  rw [CaseParts.filter_intervention (h.parts p hp), List.map_map]
  rfl

/-- **The trials that are found** are those of the cases, with the discovery's answer as reference. -/
theorem plannedTrials_eq (h : CasesOk ps) : plannedTrials (ledgerOf (ps.flatMap CaseParts.requests))
    (itemsOf ps).length = .ok ((itemsOf ps).map planned) := by
  let requests := ps.flatMap CaseParts.requests
  have hreference : ∀ r ∈ requests.map Prod.fst, r.role ≠ some "reference" := by
    rw [List.map_flatMap]
    intro r hr
    obtain ⟨p, hp, hr⟩ := List.mem_flatMap.mp hr
    exact CaseParts.filter_reference (h.parts p hp) r hr
  have htrialId : ∀ r ∈ requests.map Prod.fst, r.role = some "intervention" →
      r.trialId.isSome = true := by
    intro r hr hrole
    have hin : r ∈ (itemsOf ps).map fun i => i.2.1 := by
      rw [← h.interventions]
      exact List.mem_filter.mpr ⟨hr, decide_eq_true hrole⟩
    obtain ⟨i, hi, rfl⟩ := List.mem_map.mp hin
    obtain ⟨hp, donor, ht⟩ := mem_itemsOf hi
    exact ((h.parts _ hp).intervention _ ht).2.1
  have hfold := foldlM_addTrialRole (requests.map Prod.fst) [] hreference htrialId (by
    rw [h.interventions, List.map_map]
    exact h.nodupTrialIds)
  rw [h.interventions, List.map_map, List.nil_append] at hfold
  have hbyId : ofPairs (requests.map fun r => (r.1.benchmarkRequestId, r.1))
      = requests.map fun r => (r.1.benchmarkRequestId, r.1) := by
    refine ofPairs_of_nodup ?_
    rw [keys, List.map_map]
    exact h.nodupBenchmarkIds
  have hplan : ∀ i ∈ itemsOf ps, plannedTrial (i.2.1.trialId.getD "",
      completeRoles (requests.map fun r => (r.1.benchmarkRequestId, r.1)) { intervention := some i.2.1 })
        = .ok (planned i) := by
    intro i hi
    obtain ⟨hp, donor, ht⟩ := mem_itemsOf hi
    have hget : get (requests.map fun r => (r.1.benchmarkRequestId, r.1)) i.2.1.referenceRequestId
        = some i.1.edited.1 := by
      rw [((h.parts _ hp).intervention _ ht).2.2]
      refine get_of_mem ?_ (List.mem_map.mpr ⟨i.1.edited, ?_, rfl⟩)
      · rw [keys, List.map_map]
        exact h.nodupBenchmarkIds
      · exact List.mem_flatMap.mpr ⟨i.1, hp, mem_requests_edited i.1⟩
    rw [completeRoles]
    dsimp only
    rw [hget]
    rfl
  have hmap : (mapValues (completeRoles (requests.map fun r => (r.1.benchmarkRequestId, r.1)))
      ((itemsOf ps).map fun i => (i.2.1.trialId.getD "", ({ intervention := some i.2.1 } : TrialRoles)))).mapM
        plannedTrial = .ok ((itemsOf ps).map planned) := by
    rw [mapValues, List.map_map]
    refine Except.mapM_eq_ok_iff.mpr ?_
    rw [List.forall₂_map_left_iff, List.forall₂_map_right_iff, List.forall₂_same]
    exact hplan
  rw [plannedTrials, requests_ledgerOf, List.map_map]
  change (((requests.map Prod.fst).foldlM addTrialRole [] : Except Raised _) >>= fun trials =>
    ((mapValues (completeRoles (ofPairs (requests.map fun r => (r.1.benchmarkRequestId, r.1)))) trials).mapM
      plannedTrial) >>= _) = _
  rw [hfold]
  change ((mapValues (completeRoles (ofPairs (requests.map fun r => (r.1.benchmarkRequestId, r.1))))
    ((itemsOf ps).map fun i => (i.2.1.trialId.getD "", ({ intervention := some i.2.1 } : TrialRoles)))).mapM
      plannedTrial >>= _) = _
  rw [hbyId, hmap]
  refine if_neg (not_not.mpr ?_)
  rw [List.length_map]

theorem nodup_edited (h : CasesOk ps) : (ps.map fun p => p.edited.1.benchmarkRequestId).Nodup := by
  refine List.Sublist.nodup ?_ h.nodupBenchmarkIds
  rw [List.map_flatMap, List.map_eq_flatMap]
  refine List.Sublist.flatMap_right _ fun p _ => ?_
  rw [List.singleton_sublist]
  exact List.mem_map_of_mem (mem_requests_edited p)

theorem stabilityChecks_eq (h : CasesOk ps) :
    stabilityChecks (ledgerOf (ps.flatMap CaseParts.requests))
      = ps.flatMap fun p => p.stability.toList.map fun r => (p.edited.1.benchmarkRequestId, r.1) := by
  have hpairs : (((ps.flatMap CaseParts.requests).map Prod.fst).filter fun r =>
      r.role = some "stability_reference").map (fun r => (r.referenceRequestId, r))
        = ps.flatMap fun p => p.stability.toList.map fun r => (p.edited.1.benchmarkRequestId, r.1) := by
    rw [List.map_flatMap, List.filter_flatMap, List.map_flatMap]
    refine List.flatMap_congr fun p hp => ?_
    rw [CaseParts.filter_stability (h.parts p hp), List.map_map]
    refine List.map_congr_left fun r hr => ?_
    exact Prod.ext ((h.parts p hp).stability r (Option.mem_toList.mp hr)).2 rfl
  rw [stabilityChecks, requests_ledgerOf, hpairs]
  refine ofPairs_of_nodup (List.Sublist.nodup ?_ h.nodup_edited)
  rw [keys, List.map_flatMap, List.map_eq_flatMap (l := ps)]
  refine List.Sublist.flatMap_right _ fun p _ => ?_
  cases p.stability with
  | none => exact List.nil_sublist _
  | some r => exact List.Sublist.refl _

/-- The check of a case is found by its reference. -/
theorem stabilityDone_eq (h : CasesOk ps) {p : CaseParts} (hp : p ∈ ps) :
    stabilityDone (ledgerOf (ps.flatMap CaseParts.requests)) p.edited.1 = p.stability.map Prod.snd := by
  rw [stabilityDone, h.stabilityChecks_eq]
  have hkey : ∀ p' ∈ ps, p'.edited.1.benchmarkRequestId = p.edited.1.benchmarkRequestId → p' = p :=
    fun p' hp' heq => List.inj_on_of_nodup_map h.nodup_edited hp' hp heq
  cases hs : p.stability with
  | none =>
      have hnone : get (ps.flatMap fun p => p.stability.toList.map fun r =>
          (p.edited.1.benchmarkRequestId, r.1)) p.edited.1.benchmarkRequestId = none := by
        rw [get_eq_none_iff]
        intro hin
        obtain ⟨e, he, heq⟩ := List.mem_map.mp hin
        obtain ⟨p', hp', he⟩ := List.mem_flatMap.mp he
        obtain ⟨r, hr, rfl⟩ := List.mem_map.mp he
        rw [hkey p' hp' heq, hs] at hr
        cases hr
      rw [hnone]
      rfl
  | some r =>
      have hr : r ∈ ps.flatMap CaseParts.requests := by
        refine List.mem_flatMap.mpr ⟨p, hp, ?_⟩
        rw [CaseParts.requests, hs]
        simp
      have hget : get (ps.flatMap fun p => p.stability.toList.map fun r =>
          (p.edited.1.benchmarkRequestId, r.1)) p.edited.1.benchmarkRequestId = some r.1 := by
        refine get_of_mem ?_ ?_
        · rw [← h.stabilityChecks_eq]
          exact nodup_keys_ofPairs _
        · refine List.mem_flatMap.mpr ⟨p, hp, ?_⟩
          rw [hs]
          exact List.mem_singleton_self _
      rw [hget]
      exact get_completed h.nodupIds hr

/-- What a trial of the ledger comes to. -/
theorem abstainedTrial_eq (h : CasesOk ps) (invalidReferences : List String)
    {i : CaseParts × RecordedRequest} (hi : i ∈ itemsOf ps) :
    abstainedTrial (ledgerOf (ps.flatMap CaseParts.requests)) invalidReferences (planned i)
      = if invalidReferences.any fun id => i.1.edited.1.benchmarkRequestId = some id then .ok none
        else if i.1.edited.2.text = i.2.2.text ∧
            unstableReference (i.1.stability.map Prod.snd) i.1.edited.2.text = false then .ok none
        else (reviewEvidence (planned i) i.1.edited.2.text i.2.2.text
          (if unstableReference (i.1.stability.map Prod.snd) i.1.edited.2.text then
            (i.1.stability.map Prod.snd).bind CompletedRequest.text else none)).map some := by
  obtain ⟨hp, donor, ht⟩ := mem_itemsOf hi
  have hedited : (ledgerOf (ps.flatMap CaseParts.requests)).response i.1.edited.1.requestId
      = .ok i.1.edited.2 :=
    TrialLedger.response_eq_ok.mpr (get_completed h.nodupIds
      (List.mem_flatMap.mpr ⟨i.1, hp, mem_requests_edited i.1⟩))
  have hintervention : (ledgerOf (ps.flatMap CaseParts.requests)).response i.2.1.requestId = .ok i.2.2 :=
    TrialLedger.response_eq_ok.mpr (get_completed h.nodupIds
      (List.mem_flatMap.mpr ⟨i.1, hp, mem_requests_intervention ht⟩))
  have hstability := h.stabilityDone_eq hp
  change ((ledgerOf _).response i.1.edited.1.requestId >>= fun referenceDone =>
    (ledgerOf _).response i.2.1.requestId >>= fun interventionDone => _) = _
  rw [hedited, hintervention]
  change (if invalidReferences.any fun id => i.1.edited.1.benchmarkRequestId = some id then _ else _) = _
  rw [show (planned i).reference = i.1.edited.1 from rfl, hstability]

end CasesOk

/-! ### What a case leaves -/

/-- **A valid trial has no decision** where its intervention was cut off or answers differently. -/
theorem decision_of_trial {c : MtragCase} {blockSize : Int} {reference : TrialObservation} {required : String}
    {options : RunOptions} {i : SingleBlockIntervention} {w : TrialWorld} {t : CounterfactualTrialResult}
    (h : runSingleBlockTrial c blockSize reference required options i w = .ok t)
    (hexact : options.requireExactOutputMatch = true) (href : reference.outputText = some required)
    (hne : required ≠ "") : t.trialId = w.trialId ∧ (t.labelResult.valid = true →
      (t.labelResult.decision = none ↔ w.intervention.reply.finishReason ≠ some "stop" ∨
        w.intervention.reply.outputText ≠ some required)) := by
  rw [runSingleBlockTrial] at h
  iterate 4
    split at h
    · cases h
  dsimp only at h
  split at h
  · cases h
  · simp only [Except.bind_eq_ok] at h
    obtain ⟨_, -, evidence, -, comparison, -, label, -, h⟩ := h
    cases h
    refine ⟨rfl, ?_⟩
    have hactive : (c.observeIntervention i reference w).1.toReply = w.intervention.reply := rfl
    dsimp only
    rw [hactive, href, hexact]
    by_cases hstop : w.intervention.reply.finishReason = some "stop"
    · rw [if_neg (not_not.mpr hstop)]
      intro hvalid
      rw [decision_eq_none_iff hne hvalid]
      exact ⟨Or.inr, fun h => h.elim (absurd hstop) id⟩
    · rw [if_pos hstop]
      intro _
      exact ⟨fun _ => Or.inl hstop, fun _ => rfl⟩

/-- What the answers of a case say about its batch. -/
structure BatchOk (w : CaseWorld) (b : CounterfactualTrialBatch) : Prop where
  reference : ∃ text, text ≠ "" ∧ w.edited.reply.outputText = some text
  nonempty : b.trials ≠ []
  stable : b.referenceStable = true ↔ w.stability.reply.finishReason = some "stop" ∧
    w.stability.reply.outputText = w.edited.reply.outputText
  trials : ∀ p ∈ b.trials.zipIdx, p.1.trialId = (w.trial p.2).trialId ∧ (p.1.labelResult.valid = true →
    (p.1.labelResult.decision = none ↔ (w.trial p.2).intervention.reply.finishReason ≠ some "stop" ∨
      (w.trial p.2).intervention.reply.outputText ≠ w.edited.reply.outputText))

theorem edited_of_discovery {c : MtragCase} {w : CaseWorld} {approvedOutput : Option String}
    {options : RunOptions} {run : DiscoveryRun}
    (h : runCandidateDiscovery c w approvedOutput options = .ok run) :
    run.edited = (c.observeEdited w).1 := by
  rw [runCandidateDiscovery] at h
  obtain ⟨_, -, h⟩ := Except.bind_eq_ok.mp h
  dsimp only at h
  split at h
  · cases h
  · simp only [Except.bind_eq_ok] at h
    obtain ⟨discovery, -, _, -, h⟩ := h
    split at h
    · cases h
    · cases h
      rfl

theorem batchOk_of_trials {c : MtragCase} {w : CaseWorld} {d : CounterfactualCandidateDiscovery}
    {selected : List Int} {required : String} {options : RunOptions} {b : CounterfactualTrialBatch}
    (h : runDiscoveredTrials c w d selected (c.observeEdited w).1 required options = .ok b)
    (hexact : options.requireExactOutputMatch = true) (href : w.edited.reply.outputText = some required)
    (hne : required ≠ "") (hnonempty : b.trials ≠ []) : BatchOk w b := by
  rw [runDiscoveredTrials] at h
  simp only [Except.bind_eq_ok] at h
  obtain ⟨interventions, -, trials, htrials, _, -, h⟩ := h
  cases h
  refine { reference := ⟨required, hne, href⟩, nonempty := hnonempty, stable := ?_, trials := ?_ }
  · dsimp only
    rw [decide_eq_true_eq]
    rfl
  · intro p hp
    obtain ⟨i, -, hi⟩ := Except.exists_ok_of_mapM_zipIdx htrials p hp
    rw [href]
    exact decision_of_trial hi hexact href hne

/-- **A completed case** has the counts of its batch in its summary. -/
theorem runWorkflow_ok {c : MtragCase} {w : CaseWorld} {approvedOutput : Option String}
    {options : RunOptions} {run : WorkflowRun} (h : runWorkflow c w approvedOutput options = .ok run)
    (hexact : options.requireExactOutputMatch = true) :
    BatchOk w run.batch ∧ run.summary.discoveryId = some w.discoveryId ∧
      run.summary.trialCount = some (run.batch.trials.length : Int) ∧
      run.summary.invalidTrials = some (run.batch.invalid.length : Int) ∧
      run.summary.abstainedTrials = some (run.batch.abstained.length : Int) := by
  rw [runWorkflow] at h
  obtain ⟨discovery, hdiscovery, h⟩ := Except.bind_eq_ok.mp h
  have hedited := edited_of_discovery hdiscovery
  dsimp only at h
  split at h
  · cases h
  · simp only [Except.bind_eq_ok] at h
    obtain ⟨_, -, _, -, h⟩ := h
    split at h
    · cases h
    · split at h
      · cases h
      · next hfresh =>
        split at h
        · cases h
        · simp only [Except.bind_eq_ok] at h
          obtain ⟨batch, hbatch, rows, hrows, h⟩ := h
          cases h
          refine ⟨?_, rfl, rfl, rfl, rfl⟩
          rw [hedited] at hbatch hfresh
          have htext : w.edited.reply.outputText
              = some (((c.observeEdited w).1.outputText).getD "") := by
            change w.edited.reply.outputText = some (w.edited.reply.outputText.getD "")
            change ¬ w.edited.reply.outputText.getD "" = "" at hfresh
            cases hout : w.edited.reply.outputText with
            | none =>
                rw [hout] at hfresh
                exact absurd rfl hfresh
            | some text => rfl
          refine batchOk_of_trials hbatch hexact htext hfresh ?_
          intro hnil
          rw [trainingDataset, hnil] at hrows
          cases hrows

/-! ### Runs -/

/-- What the summary of a case says. -/
structure CaseRun.Ok (r : CaseRun) : Prop where
  skipped : r.batch = none → r.summary.trialCount = some 0 ∧ r.summary.invalidTrials = some 0 ∧
    r.summary.abstainedTrials = some 0
  completed : ∀ b, r.batch = some b → BatchOk r.world b ∧
    r.summary.discoveryId = some r.world.discoveryId ∧
    r.summary.trialCount = some (b.trials.length : Int) ∧
    r.summary.invalidTrials = some (b.invalid.length : Int) ∧
    r.summary.abstainedTrials = some (b.abstained.length : Int)

theorem runMtragCase_ok {c : MtragCase} {w : CaseWorld} {approvedOutput : Option String}
    {options : RunOptions} {index : Int} {run : CaseRun}
    (h : runMtragCase c w approvedOutput options index = .ok run)
    (hexact : options.requireExactOutputMatch = true) : run.Ok := by
  rw [runMtragCase] at h
  split at h
  · next run' hrun =>
    cases h
    refine { skipped := nofun, completed := ?_ }
    rintro b hb
    cases hb
    exact runWorkflow_ok hrun hexact
  · split at h
    · cases h
    · cases h
      exact { skipped := fun _ => ⟨rfl, rfl, rfl⟩, completed := nofun }

theorem runCases_ok {path : String} {approved : Option (String → Option String)} {options : RunOptions}
    (hexact : options.requireExactOutputMatch = true) :
    ∀ {cases : List (MtragCase × CaseWorld)} {requests : List RecordedRequest} {index : Int}
      {runs : List CaseRun}, runCases path approved options requests index cases = .ok runs →
      ∀ run ∈ runs, run.Ok := by
  intro cases
  induction cases with
  | nil =>
      intro requests index runs h run hrun
      cases h
      cases hrun
  | cons e cases ih =>
      intro requests index runs h
      obtain ⟨c, w⟩ := e
      rw [runCases] at h
      simp only [Except.bind_eq_ok] at h
      obtain ⟨approvedOutput, -, run, hrun, _, -, runs', hruns, h⟩ := h
      cases h
      exact List.forall_mem_cons.mpr ⟨runMtragCase_ok hrun hexact, ih hruns⟩

/-- A trial of a run. -/
structure TrialEntry where
  run : CaseRun
  batch : CounterfactualTrialBatch
  trial : CounterfactualTrialResult
  index : Nat

def CaseRun.entries (r : CaseRun) : List TrialEntry :=
  match r.batch with
  | none => []
  | some b => b.trials.zipIdx.map fun p => { run := r, batch := b, trial := p.1, index := p.2 }

theorem CaseRun.mem_entries {r : CaseRun} {e : TrialEntry} (h : e ∈ r.entries) :
    e.run = r ∧ r.batch = some e.batch ∧ (e.trial, e.index) ∈ e.batch.trials.zipIdx := by
  rw [CaseRun.entries] at h
  split at h
  · cases h
  · next b hb =>
    obtain ⟨p, hp, rfl⟩ := List.mem_map.mp h
    exact ⟨rfl, hb, hp⟩

namespace TrialEntry

/-- The trial as the ledger has it. -/
def item (e : TrialEntry) : CaseParts × RecordedRequest :=
  (e.run.parts, (e.run.trialRequests e.trial e.index).2)

/-- The trial is counted as abstained. -/
def live (e : TrialEntry) : Bool :=
  e.trial.labelResult.valid && (!e.batch.referenceStable || e.trial.labelResult.decision.isNone)

def reply (e : TrialEntry) : Reply :=
  (e.run.world.trial e.index).intervention.reply

def referenceText (e : TrialEntry) : Option String :=
  e.run.world.edited.reply.outputText

end TrialEntry

theorem trials_parts (r : CaseRun) :
    r.parts.trials = r.entries.map fun e => r.trialRequests e.trial e.index := by
  rw [CaseRun.entries, CaseRun.parts]
  cases r.batch with
  | none => rfl
  | some b =>
      dsimp only
      rw [List.map_map]
      rfl

theorem itemsOf_parts (runs : List CaseRun) :
    itemsOf (runs.map CaseRun.parts) = (runs.flatMap CaseRun.entries).map TrialEntry.item := by
  rw [itemsOf, List.flatMap_map, List.map_flatMap]
  refine List.flatMap_congr fun r _ => ?_
  rw [trials_parts, List.map_map]
  refine List.map_congr_left fun e he => ?_
  obtain ⟨rfl, -, -⟩ := CaseRun.mem_entries he
  rfl

/-- The trials that the workflow counts as abstained. -/
def CaseRun.abstained (r : CaseRun) : List String :=
  match r.batch with
  | none => []
  | some b => b.abstained.map CounterfactualTrialResult.trialId

theorem abstained_eq (r : CaseRun) :
    r.abstained = (r.entries.filter TrialEntry.live).map fun e => e.trial.trialId := by
  rw [CaseRun.abstained, CaseRun.entries]
  cases r.batch with
  | none => rfl
  | some b =>
      dsimp only
      rw [List.filter_map, List.map_map, CounterfactualTrialBatch.abstained]
      have hfst : b.trials = b.trials.zipIdx.map Prod.fst := (List.zipIdx_map_fst 0 _).symm
      conv_lhs => rw [hfst, List.filter_map, List.map_map]
      rfl

/-! ### Ids -/

/-- The ids that a case makes up, each with the endings of the requests that are named by it. -/
def CaseRun.uses (r : CaseRun) : List (String × List String) :=
  (r.world.discoveryId, [":source", ":edited"]) ::
    match r.batch with
    | none => []
    | some b => (b.trials.zipIdx.map fun p => ((r.world.trial p.2).trialId, [":donor", ":intervention"])) ++
        [(r.world.checkId, [":stability_reference"])]

/-- No id is made up twice or is empty, and the ids of the cases are of one length, as those of `uuid4`. -/
structure FreshIds (runs : List CaseRun) : Prop where
  ledgerIds_ne : ∀ r ∈ runs.flatMap CaseRun.requests, r.1.requestId ≠ ""
  ledgerIds : ((runs.flatMap CaseRun.requests).map fun r => r.1.requestId).Nodup
  uuids : ((runs.flatMap CaseRun.uses).map Prod.fst).Nodup
  uuids_ne : ∀ u ∈ (runs.flatMap CaseRun.uses).map Prod.fst, u ≠ ""
  sameLength : ∀ u ∈ (runs.flatMap CaseRun.uses).map Prod.fst,
    ∀ v ∈ (runs.flatMap CaseRun.uses).map Prod.fst, u.length = v.length

theorem benchmarkIds_eq (r : CaseRun) : r.requests.map (fun q => q.1.benchmarkRequestId)
    = r.uses.flatMap fun u => u.2.map fun ending => some (u.1 ++ ending) := by
  rw [CaseRun.requests, CaseParts.requests, CaseRun.parts, CaseRun.uses]
  cases r.batch with
  | none => rfl
  | some b =>
      rw [List.flatMap_cons, List.flatMap_append, List.flatMap_map, List.flatMap_map, List.map_append,
        List.map_append, List.map_flatMap]
      rfl

theorem append_eq_append {a b s t : String} (hlen : a.length = b.length) (h : a ++ s = b ++ t) :
    a = b ∧ s = t := by
  have htoList := congrArg String.toList h
  rw [String.toList_append, String.toList_append] at htoList
  obtain ⟨hab, hst⟩ := List.append_inj htoList (by rwa [String.length_toList, String.length_toList])
  exact ⟨String.toList_inj.mp hab, String.toList_inj.mp hst⟩

theorem FreshIds.nodupBenchmarkIds {runs : List CaseRun} (h : FreshIds runs) :
    ((runs.flatMap CaseRun.requests).map fun q => q.1.benchmarkRequestId).Nodup := by
  have heq : (runs.flatMap CaseRun.requests).map (fun q => q.1.benchmarkRequestId)
      = (runs.flatMap CaseRun.uses).flatMap fun u => u.2.map fun ending => some (u.1 ++ ending) := by
    rw [List.map_flatMap, List.flatMap_assoc]
    exact List.flatMap_congr fun r _ => benchmarkIds_eq r
  rw [heq, List.nodup_flatMap]
  constructor
  · intro u hu
    have hendings : u.2.Nodup := by
      obtain ⟨r, -, hu⟩ := List.mem_flatMap.mp hu
      rw [CaseRun.uses] at hu
      rcases List.mem_cons.mp hu with rfl | hu
      · show [":source", ":edited"].Nodup
        decide
      · split at hu
        · cases hu
        · rcases List.mem_append.mp hu with hu | hu
          · obtain ⟨p, -, rfl⟩ := List.mem_map.mp hu
            show [":donor", ":intervention"].Nodup
            decide
          · rw [List.mem_singleton.mp hu]
            exact List.nodup_singleton _
    refine hendings.map fun s t hst => (append_eq_append rfl (Option.some.inj hst)).2
  · have hne := List.pairwise_map.mp h.uuids
    refine List.Pairwise.imp_of_mem ?_ hne
    intro u v hu hv hne o ho ho'
    obtain ⟨s, -, rfl⟩ := List.mem_map.mp ho
    obtain ⟨t, -, ht⟩ := List.mem_map.mp ho'
    have hlen := h.sameLength _ (List.mem_map_of_mem hu) _ (List.mem_map_of_mem hv)
    exact hne (append_eq_append hlen (Option.some.inj ht).symm).1

theorem parts_ok (r : CaseRun) : r.parts.Ok where
  source := rfl
  edited := rfl
  donor := by
    intro t ht
    rw [trials_parts] at ht
    obtain ⟨e, -, rfl⟩ := List.mem_map.mp ht
    rfl
  intervention := by
    intro t ht
    rw [trials_parts] at ht
    obtain ⟨e, -, rfl⟩ := List.mem_map.mp ht
    exact ⟨rfl, rfl, rfl⟩
  stability := by
    intro q hq
    obtain ⟨b, -, rfl⟩ := Option.map_eq_some_iff.mp hq
    exact ⟨rfl, rfl⟩

/-- The id of the trial in the world of its case. -/
def TrialEntry.trialId (e : TrialEntry) : String :=
  (e.run.world.trial e.index).trialId

theorem FreshIds.nodupTrialIds {runs : List CaseRun} (h : FreshIds runs) :
    ((runs.flatMap CaseRun.entries).map TrialEntry.trialId).Nodup := by
  refine List.Sublist.nodup ?_ h.uuids
  rw [List.map_flatMap, List.map_flatMap]
  refine List.Sublist.flatMap_right _ fun r _ => ?_
  rw [CaseRun.entries, CaseRun.uses]
  cases r.batch with
  | none => exact List.nil_sublist _
  | some b =>
      rw [List.map_cons, List.map_append, List.map_map, List.map_map]
      exact (List.sublist_append_left _ _).cons _

theorem FreshIds.casesOk {runs : List CaseRun} (h : FreshIds runs) : CasesOk (runs.map CaseRun.parts) := by
  have hrequests : (runs.map CaseRun.parts).flatMap CaseParts.requests = runs.flatMap CaseRun.requests :=
    List.flatMap_map ..
  refine {
    parts := List.forall_mem_map.mpr fun r _ => parts_ok r
    ids := hrequests ▸ h.ledgerIds_ne
    nodupIds := hrequests ▸ h.ledgerIds
    nodupBenchmarkIds := hrequests ▸ h.nodupBenchmarkIds
    nodupTrialIds := ?_ }
  rw [itemsOf_parts, List.map_map]
  exact h.nodupTrialIds

/-! ### The two abstention rules -/

/-- The check of the reference, as the workflow judges it. -/
def CaseWorld.Stable (w : CaseWorld) : Prop :=
  w.stability.reply.finishReason = some "stop" ∧
    w.stability.reply.outputText = w.edited.reply.outputText

/-- The check of the reference, as the review judges it. -/
def CaseWorld.seenUnstable (w : CaseWorld) : Bool :=
  unstableReference (some w.stability.reply.completed) w.edited.reply.outputText

/-- The answers to a trial on which the two rules agree: the intervention has a text, and where it is that of the
reference, the intervention came to its end and the reference was stable, or the review sees that it was not. -/
structure CaseWorld.Reviewable (w : CaseWorld) (n : Nat) : Prop where
  hasText : (w.trial n).intervention.reply.outputText ≠ none
  equal : (w.trial n).intervention.reply.outputText = w.edited.reply.outputText →
    w.seenUnstable = true ∨ (w.trial n).intervention.reply.finishReason = some "stop" ∧ w.Stable

/-- The trials of the case are invalid. -/
def CaseRun.rejected (r : CaseRun) : Bool :=
  r.batch.any fun b => !b.invalid.isEmpty

namespace TrialEntry

/-- The trial is one that the review selects. -/
def reviewed (e : TrialEntry) : Bool :=
  !e.run.rejected && (decide (e.reply.outputText ≠ e.referenceText) || e.run.world.seenUnstable)

/-- What reviewers see of the trial. -/
def abstainedTrial (e : TrialEntry) : AbstainedTrial where
  trialId := e.trialId
  blockIndex := e.trial.intervention.reusedBlockIndex
  question := e.run.case.edited.query
  expectedAnswer := e.run.case.edited.expectedAnswer
  reference := e.referenceText.getD ""
  intervention := e.reply.outputText.getD ""
  stability := if e.run.world.seenUnstable then e.run.world.stability.reply.outputText else none

end TrialEntry

/-- A reference that the review sees as unstable was not stable. -/
theorem not_stable_of_seenUnstable {w : CaseWorld} (h : w.seenUnstable = true) : ¬ w.Stable := by
  rintro ⟨hstop, htext⟩
  have hfinish : w.stability.reply.completed.finishReason = some "stop" := hstop
  have hsame : w.stability.reply.completed.text = w.edited.reply.outputText := htext
  rw [CaseWorld.seenUnstable, unstableReference, hfinish, hsame] at h
  simp at h

section Entries

variable {r : CaseRun} {e : TrialEntry}

theorem live_of_rejected (he : e ∈ r.entries)
    (hwholly : ∀ b, r.batch = some b → b.invalid = [] ∨ b.invalid = b.trials)
    (hrejected : r.rejected = true) : e.live = false := by
  obtain ⟨rfl, hb, hmem⟩ := CaseRun.mem_entries he
  rw [CaseRun.rejected, hb] at hrejected
  have htrial : e.trial ∈ e.batch.trials := by
    rw [← List.zipIdx_map_fst 0 e.batch.trials]
    exact List.mem_map_of_mem hmem
  rcases hwholly _ hb with hnil | hall
  · rw [Option.any_some, hnil] at hrejected
    cases hrejected
  · rw [← hall] at htrial
    have hinvalid : e.trial.labelResult.valid = false := by
      simpa using (List.mem_filter.mp htrial).2
    rw [TrialEntry.live, hinvalid, Bool.false_and]

/-- **Which trials are counted as abstained** in a case without invalid trials. -/
theorem live_iff (hr : r.Ok) (he : e ∈ r.entries) (hvalid : r.rejected = false) :
    e.live = true ↔ ¬ e.run.world.Stable ∨ e.reply.finishReason ≠ some "stop" ∨
      e.reply.outputText ≠ e.referenceText := by
  obtain ⟨rfl, hb, hmem⟩ := CaseRun.mem_entries he
  obtain ⟨hok, -⟩ := hr.completed _ hb
  have htrial : e.trial ∈ e.batch.trials := by
    rw [← List.zipIdx_map_fst 0 e.batch.trials]
    exact List.mem_map_of_mem hmem
  have hv : e.trial.labelResult.valid = true := by
    rw [CaseRun.rejected, hb, Option.any_some, Bool.not_eq_false', List.isEmpty_iff] at hvalid
    have hnot := List.filter_eq_nil_iff.mp hvalid _ htrial
    simpa using hnot
  have hdecision := (hok.trials _ hmem).2 hv
  rw [TrialEntry.live, hv, Bool.true_and, Bool.or_eq_true, Bool.not_eq_true', Option.isNone_iff_eq_none,
    hdecision, ← Bool.not_eq_true, hok.stable]
  rfl

theorem live_eq_reviewed (hr : r.Ok) (he : e ∈ r.entries) (hvalid : r.rejected = false) :
    e.live = e.reviewed ∧ e.reply.outputText ≠ none ↔ e.run.world.Reviewable e.index := by
  have hlive := live_iff hr he hvalid
  obtain ⟨rfl, -, -⟩ := CaseRun.mem_entries he
  have hreviewed : e.reviewed = true ↔ e.reply.outputText ≠ e.referenceText ∨
      e.run.world.seenUnstable = true := by
    rw [TrialEntry.reviewed, hvalid, Bool.not_false, Bool.true_and, Bool.or_eq_true, decide_eq_true_eq]
  rw [Bool.eq_iff_iff, hlive, hreviewed]
  constructor
  · rintro ⟨hsame, htext⟩
    refine { hasText := htext, equal := fun heq => ?_ }
    by_cases hseen : e.run.world.seenUnstable = true
    · exact Or.inl hseen
    · right
      have hno := mt hsame.mp (not_or.mpr ⟨not_not.mpr heq, hseen⟩)
      rw [not_or, not_or, not_not, not_not] at hno
      exact ⟨hno.2.1, hno.1⟩
  · intro h
    refine ⟨⟨fun hl => ?_, fun hs => ?_⟩, h.hasText⟩
    · by_cases heq : e.reply.outputText = e.referenceText
      · rcases h.equal heq with hseen | ⟨hstop, hstable⟩
        · exact Or.inr hseen
        · rcases hl with hl | hl | hl
          · exact absurd hstable hl
          · exact absurd hstop hl
          · exact Or.inl hl
      · exact Or.inl heq
    · rcases hs with hne | hseen
      · exact Or.inr (Or.inr hne)
      · exact Or.inl (not_stable_of_seenUnstable hseen)

end Entries

/-! ### The review of a run -/

theorem prepareMtragReview_eq {h : Hashes} {path : String} {events : List TrialEvent} {summary : RunSummary}
    {trialCount invalidCount abstainedCount : Int} {references : List (Option String)} {l : TrialLedger}
    {trials : List PlannedTrial} (htrial : summary.trialCount = some trialCount)
    (hinvalid : summary.invalidTrials = some invalidCount)
    (habstained : summary.abstainedTrials = some abstainedCount)
    (hreferences : summary.cases.mapM caseInvalidReference = .ok references)
    (hrejected : (summary.cases.map fun case => case.invalidTrials.getD 0).sum = invalidCount)
    (hload : loadLedger path events = .ok l) (hplanned : plannedTrials l trialCount = .ok trials) :
    prepareMtragReview h path events summary
      = (trials.mapM (abstainedTrial l (references.filterMap id)) >>= fun abstained =>
          if ((abstained.filterMap id).length : Int) ≠ abstainedCount then
            .error (.valueError "non-exact ledger trials do not match recorded abstentions")
          else .ok (prepareReview h (abstained.filterMap id))) := by
  rw [prepareMtragReview, htrial, hinvalid, habstained]
  dsimp only
  rw [hreferences]
  change (if (summary.cases.map fun case => case.invalidTrials.getD 0).sum ≠ invalidCount then _ else _) = _
  rw [if_neg (not_not.mpr hrejected), hload]
  change (plannedTrials l trialCount >>= _) = _
  rw [hplanned]
  rfl

/-- The reference of a case whose trials are invalid. -/
def CaseRun.rejectedReference (r : CaseRun) : Option String :=
  if r.rejected then some (r.world.discoveryId ++ ":edited") else none

theorem caseInvalidReference_eq {r : CaseRun} (hr : r.Ok) (hid : r.world.discoveryId ≠ "")
    (hwholly : ∀ b, r.batch = some b → b.invalid = [] ∨ b.invalid = b.trials) :
    caseInvalidReference r.summary = .ok r.rejectedReference := by
  rw [caseInvalidReference, CaseRun.rejectedReference, CaseRun.rejected]
  cases hb : r.batch with
  | none =>
      rw [(hr.skipped hb).2.1]
      rfl
  | some b =>
      obtain ⟨-, hdiscovery, htrial, hinvalid, -⟩ := hr.completed b hb
      rw [hinvalid, htrial, hdiscovery, Option.any_some]
      by_cases hnil : b.invalid = []
      · rw [hnil]
        rfl
      · have hall := (hwholly b hb).resolve_left hnil
        have hzero : ¬ ((some (b.invalid.length : Int)).getD 0 = 0) := by
          simpa using hnil
        have hne : ¬ (some (b.invalid.length : Int) ≠ some (b.trials.length : Int) ∨
            r.world.discoveryId = "") := by
          rw [hall]
          exact not_or.mpr ⟨fun h => h rfl, hid⟩
        rw [if_neg hzero, if_pos (by simpa using hnil)]
        exact if_neg hne

/-- A count of the run is the number of its trials of a kind. -/
theorem totalOf_eq {count : CountRecord → Option Int} {runs : List CaseRun} {p : TrialEntry → Bool}
    (h : ∀ r ∈ runs, count r.summary.toCountRecord = some ((r.entries.filter p).length : Int)) :
    totalOf count runs = some (((runs.flatMap CaseRun.entries).filter p).length : Int) := by
  rw [totalOf, List.filter_flatMap, List.length_flatMap]
  refine congrArg some ?_
  induction runs with
  | nil => rfl
  | cons r runs ih =>
      rw [List.map_cons, List.sum_cons, List.map_cons, List.sum_cons, h r List.mem_cons_self,
        ih fun r' hr' => h r' (List.mem_cons_of_mem _ hr'), Nat.cast_add]
      rfl

theorem length_entries {r : CaseRun} (hr : r.Ok) :
    r.summary.trialCount = some ((r.entries.filter fun _ => true).length : Int) := by
  rw [List.filter_true, CaseRun.entries]
  cases hb : r.batch with
  | none => exact (hr.skipped hb).1
  | some b =>
      dsimp only
      rw [List.length_map, List.length_zipIdx]
      exact (hr.completed b hb).2.2.1

theorem length_live {r : CaseRun} (hr : r.Ok) :
    r.summary.abstainedTrials = some ((r.entries.filter TrialEntry.live).length : Int) := by
  have hlen : (r.entries.filter TrialEntry.live).length = r.abstained.length := by
    rw [abstained_eq, List.length_map]
  rw [hlen, CaseRun.abstained]
  cases hb : r.batch with
  | none => exact (hr.skipped hb).2.2
  | some b =>
      dsimp only
      rw [List.length_map]
      exact (hr.completed b hb).2.2.2.2

theorem FreshIds.discoveryId_inj {runs : List CaseRun} (h : FreshIds runs) {r r' : CaseRun} (hr : r ∈ runs)
    (hr' : r' ∈ runs) (heq : r.world.discoveryId = r'.world.discoveryId) : r = r' := by
  have hnd : (runs.map fun r => r.world.discoveryId).Nodup := by
    refine List.Sublist.nodup ?_ h.uuids
    rw [List.map_flatMap, List.map_eq_flatMap]
    refine List.Sublist.flatMap_right _ fun r _ => ?_
    rw [List.singleton_sublist, CaseRun.uses, List.map_cons]
    exact List.mem_cons_self
  exact List.inj_on_of_nodup_map hnd hr hr' heq

theorem mem_uuids_discoveryId {runs : List CaseRun} {r : CaseRun} (hr : r ∈ runs) :
    r.world.discoveryId ∈ (runs.flatMap CaseRun.uses).map Prod.fst := by
  rw [List.map_flatMap]
  refine List.mem_flatMap.mpr ⟨r, hr, ?_⟩
  rw [CaseRun.uses, List.map_cons]
  exact List.mem_cons_self

theorem rejected_eq {runs : List CaseRun} (h : FreshIds runs) {r : CaseRun} (hr : r ∈ runs) :
    (((runs.map CaseRun.rejectedReference).filterMap id).any fun id =>
      some (r.world.discoveryId ++ ":edited") = some id) = r.rejected := by
  rw [Bool.eq_iff_iff, List.any_eq_true]
  constructor
  · rintro ⟨id, hid, heq⟩
    obtain ⟨o, ho, rfl⟩ := List.mem_filterMap.mp hid
    obtain ⟨r', hr', hreference⟩ := List.mem_map.mp ho
    rw [CaseRun.rejectedReference] at hreference
    split at hreference
    · next hrejected =>
      have hid := Option.some.inj (hreference.trans (of_decide_eq_true heq).symm)
      have hlen := h.sameLength _ (mem_uuids_discoveryId hr') _ (mem_uuids_discoveryId hr)
      rw [← h.discoveryId_inj hr' hr (append_eq_append hlen hid).1]
      exact hrejected
    · cases hreference
  · intro hrejected
    refine ⟨r.world.discoveryId ++ ":edited", List.mem_filterMap.mpr ⟨_, ?_, rfl⟩, decide_eq_true rfl⟩
    refine List.mem_map.mpr ⟨r, hr, ?_⟩
    rw [CaseRun.rejectedReference, if_pos hrejected]

/-- **A trial of a run in the review.** -/
theorem abstainedTrial_entry {runs : List CaseRun} (h : FreshIds runs) (hok : ∀ r ∈ runs, r.Ok)
    {e : TrialEntry} (he : e ∈ runs.flatMap CaseRun.entries) :
    (abstainedTrial (ledgerOf (runs.flatMap CaseRun.requests))
        ((runs.map CaseRun.rejectedReference).filterMap id) (planned e.item)).toOption
      = if e.reviewed = true ∧ e.reply.outputText = none then none
        else some (if e.reviewed then some e.abstainedTrial else none) := by
  obtain ⟨r, hr, he⟩ := List.mem_flatMap.mp he
  obtain ⟨rfl, hb, -⟩ := CaseRun.mem_entries he
  obtain ⟨⟨text, -, href⟩, -⟩ := ((hok _ hr).completed _ hb).1
  have hrequests : (runs.map CaseRun.parts).flatMap CaseParts.requests = runs.flatMap CaseRun.requests :=
    List.flatMap_map ..
  have hitem : e.item ∈ itemsOf (runs.map CaseRun.parts) := by
    rw [itemsOf_parts]
    exact List.mem_map_of_mem (List.mem_flatMap.mpr ⟨e.run, hr, he⟩)
  have heq := h.casesOk.abstainedTrial_eq ((runs.map CaseRun.rejectedReference).filterMap id) hitem
  have hstability : e.item.1.stability.map Prod.snd = some e.run.world.stability.reply.completed := by
    rw [TrialEntry.item, CaseRun.parts, hb]
    rfl
  rw [hrequests, hstability] at heq
  rw [heq]
  change (if ((runs.map CaseRun.rejectedReference).filterMap id).any (fun id =>
    some (e.run.world.discoveryId ++ ":edited") = some id) = true then _ else _ : Except _ _).toOption = _
  rw [rejected_eq h hr]
  change (if e.run.rejected = true then _ else
    if e.referenceText = e.reply.outputText ∧ e.run.world.seenUnstable = false then _ else
      (reviewEvidence (planned e.item) e.referenceText e.reply.outputText
        (if e.run.world.seenUnstable then e.run.world.stability.reply.outputText else none)).map some :
      Except _ _).toOption = _
  have hreference : e.referenceText = some text := href
  rw [TrialEntry.reviewed]
  cases hrejected : e.run.rejected with
  | true => rfl
  | false =>
      rw [if_neg (by decide)]
      by_cases hskip : e.referenceText = e.reply.outputText ∧ e.run.world.seenUnstable = false
      · rw [if_pos hskip, hskip.2, ← hskip.1]
        simp [Except.toOption]
      · have hreviewed : (!false && (decide (e.reply.outputText ≠ e.referenceText) ||
            e.run.world.seenUnstable)) = true := by
          rw [Bool.not_false, Bool.true_and, Bool.or_eq_true, decide_eq_true_eq]
          by_cases hne : e.reply.outputText = e.referenceText
          · exact Or.inr (by simpa using fun hseen => hskip ⟨hne.symm, hseen⟩)
          · exact Or.inl hne
        rw [if_neg hskip, hreviewed]
        cases htext : e.reply.outputText with
        | none =>
            rw [hreference]
            rfl
        | some answer =>
            have hevidence : reviewEvidence (planned e.item) e.referenceText (some answer)
                (if e.run.world.seenUnstable then e.run.world.stability.reply.outputText else none)
                  = .ok e.abstainedTrial := by
              rw [TrialEntry.abstainedTrial, hreference, htext]
              exact if_neg e.run.case.edited.expectedAnswer_ne
            rw [hevidence]
            rfl

/-- The review succeeds, with a row for each of these trials. -/
def ReviewsExactly (h : Hashes) (path : String) (events : List TrialEvent) (summary : RunSummary)
    (trialIds : List String) : Prop :=
  ∃ review key, prepareMtragReview h path events summary = .ok (review, key) ∧
    review.map ReviewRow.reviewId = key.map KeyRow.reviewId ∧
    (key.map KeyRow.trialId).Perm (trialIds.map some)

theorem prepareReview_ids (h : Hashes) (trials : List AbstainedTrial) :
    (prepareReview h trials).1.map ReviewRow.reviewId = (prepareReview h trials).2.map KeyRow.reviewId ∧
      ((prepareReview h trials).2.map KeyRow.trialId).Perm
        ((trials.map AbstainedTrial.trialId).map some) := by
  constructor
  · rw [prepareReview, List.map_map, List.map_map]
    rfl
  · have hids : (prepareReview h trials).2.map KeyRow.trialId
        = ((((orderedTrials h trials).zipIdx 1).map Prod.fst).map AbstainedTrial.trialId).map some := by
      rw [prepareReview, List.map_map, List.map_map, List.map_map]
      rfl
    rw [hids, List.zipIdx_map_fst]
    exact ((List.mergeSort_perm ..).map _).map _

section Review

variable {runs : List CaseRun}

theorem abstained_runs (hok : ∀ r ∈ runs, r.Ok) : runs.flatMap CaseRun.abstained
    = ((runs.flatMap CaseRun.entries).filter TrialEntry.live).map TrialEntry.trialId := by
  rw [List.filter_flatMap, List.map_flatMap]
  refine List.flatMap_congr fun r hr => ?_
  rw [abstained_eq]
  refine List.map_congr_left fun e he => ?_
  obtain ⟨rfl, hb, hmem⟩ := CaseRun.mem_entries (List.mem_filter.mp he).1
  exact (((hok _ hr).completed _ hb).1.trials _ hmem).1

/-- The trials that the review of the run selects, where it does not raise. -/
theorem selected_runs (hfresh : FreshIds runs) (hok : ∀ r ∈ runs, r.Ok)
    (htext : ∀ e ∈ runs.flatMap CaseRun.entries, ¬ (e.reviewed = true ∧ e.reply.outputText = none)) :
    ∃ abstained, ((runs.flatMap CaseRun.entries).map fun e => planned e.item).mapM
        (abstainedTrial (ledgerOf (runs.flatMap CaseRun.requests))
          ((runs.map CaseRun.rejectedReference).filterMap id)) = .ok abstained ∧
      abstained.filterMap id = ((runs.flatMap CaseRun.entries).filter TrialEntry.reviewed).map
        TrialEntry.abstainedTrial := by
  rw [List.mapM_map]
  refine Except.mapM_filter fun e he => ?_
  have heq := abstainedTrial_entry hfresh hok he
  rw [if_neg (htext e he)] at heq
  change abstainedTrial _ _ (planned e.item) = _
  cases hres : abstainedTrial (ledgerOf (runs.flatMap CaseRun.requests))
      ((runs.map CaseRun.rejectedReference).filterMap id) (planned e.item) with
  | error e =>
      rw [hres] at heq
      cases heq
  | ok o =>
      rw [hres] at heq
      exact congrArg Except.ok (Option.some.inj heq)

/-- **The review of a run of cases.** -/
theorem reviewsExactly_iff (h : Hashes) (path : String) (start count : Int) (hfresh : FreshIds runs)
    (hok : ∀ r ∈ runs, r.Ok)
    (hwholly : ∀ r ∈ runs, ∀ b, r.batch = some b → b.invalid = [] ∨ b.invalid = b.trials) :
    ReviewsExactly h path (eventsOf (runs.flatMap CaseRun.requests)) (runSummary start count runs)
        (runs.flatMap CaseRun.abstained) ↔
      ∀ e ∈ runs.flatMap CaseRun.entries, e.live = e.reviewed ∧
        ¬ (e.reviewed = true ∧ e.reply.outputText = none) := by
  let es := runs.flatMap CaseRun.entries
  let trials := es.map fun e => planned e.item
  let select := abstainedTrial (ledgerOf (runs.flatMap CaseRun.requests))
    ((runs.map CaseRun.rejectedReference).filterMap id)
  have hplanned : plannedTrials (ledgerOf (runs.flatMap CaseRun.requests)) (es.filter fun _ => true).length
      = .ok trials := by
    have := hfresh.casesOk.plannedTrials_eq
    rw [List.flatMap_map, itemsOf_parts, List.length_map, List.map_map] at this
    rw [List.filter_true]
    exact this
  have hreferences : (runSummary start count runs).cases.mapM caseInvalidReference
      = .ok (runs.map CaseRun.rejectedReference) := by
    change (runs.map CaseRun.summary).mapM caseInvalidReference = _
    rw [List.mapM_map]
    exact Except.mapM_eq_ok_map fun r hr => caseInvalidReference_eq (hok r hr)
      (hfresh.uuids_ne _ (mem_uuids_discoveryId hr)) (hwholly r hr)
  have hrejected : ((runSummary start count runs).cases.map fun case => case.invalidTrials.getD 0).sum
      = (runs.map fun r => r.summary.invalidTrials.getD 0).sum := by
    change ((runs.map CaseRun.summary).map _).sum = _
    rw [List.map_map]
    rfl
  have hprepare := @prepareMtragReview_eq h path (eventsOf (runs.flatMap CaseRun.requests))
    (runSummary start count runs) _ _ _ _ _ _ (totalOf_eq fun r hr => length_entries (hok r hr)) rfl
    (totalOf_eq fun r hr => length_live (hok r hr)) hreferences hrejected
    (loadLedger_eventsOf path hfresh.ledgerIds_ne hfresh.ledgerIds) hplanned
  have hids := abstained_runs hok
  rw [ReviewsExactly, hprepare]
  constructor
  · rintro ⟨review, key, hres, -, hperm⟩
    obtain ⟨abstained, habstained, hres⟩ := Except.bind_eq_ok.mp hres
    have htext : ∀ e ∈ es, ¬ (e.reviewed = true ∧ e.reply.outputText = none) := by
      intro e he hraise
      obtain ⟨o, -, ho⟩ := Except.exists_ok_of_mapM habstained (List.mem_map_of_mem he)
      have heq := abstainedTrial_entry hfresh hok he
      rw [if_pos hraise, ho] at heq
      cases heq
    obtain ⟨abstained', habstained', hselected⟩ := selected_runs hfresh hok htext
    have hsame := Except.ok.inj (habstained.symm.trans habstained')
    subst hsame
    split at hres
    · cases hres
    · cases hres
      have hkey := (prepareReview_ids h (abstained.filterMap id)).2.symm.trans hperm
      rw [List.map_perm_map_iff (Option.some_injective _), hselected, hids, List.map_map] at hkey
      have hsub : ∀ e ∈ es, e.reviewed = true ↔ e.live = true := by
        intro e he
        have hinj : ∀ e' ∈ es, e'.trialId = e.trialId → e' = e :=
          fun e' he' heq => List.inj_on_of_nodup_map hfresh.nodupTrialIds he' he heq
        constructor
        · intro hr
          have hin := hkey.mem_iff.mp (List.mem_map.mpr ⟨e, List.mem_filter.mpr ⟨he, hr⟩, rfl⟩)
          obtain ⟨e', he', heq⟩ := List.mem_map.mp hin
          obtain ⟨he', hl⟩ := List.mem_filter.mp he'
          exact hinj e' he' heq ▸ hl
        · intro hl
          have hin := hkey.mem_iff.mpr (List.mem_map.mpr ⟨e, List.mem_filter.mpr ⟨he, hl⟩, rfl⟩)
          obtain ⟨e', he', heq⟩ := List.mem_map.mp hin
          obtain ⟨he', hr⟩ := List.mem_filter.mp he'
          exact hinj e' he' heq ▸ hr
      exact fun e he => ⟨Bool.eq_iff_iff.mpr (hsub e he).symm, htext e he⟩
  · intro hall
    obtain ⟨abstained, habstained, hselected⟩ := selected_runs hfresh hok fun e he => (hall e he).2
    have hfilter : es.filter TrialEntry.reviewed = es.filter TrialEntry.live :=
      List.filter_congr fun e he => (hall e he).1.symm
    refine ⟨_, _, Except.bind_eq_ok.mpr ⟨abstained, habstained, ?_⟩,
      (prepareReview_ids h (abstained.filterMap id)).1, ?_⟩
    · refine if_neg (not_not.mpr ?_)
      rw [hselected, List.length_map, hfilter]
    · refine (prepareReview_ids h (abstained.filterMap id)).2.trans ?_
      have hrowIds : ((es.filter TrialEntry.live).map TrialEntry.abstainedTrial).map AbstainedTrial.trialId
          = (es.filter TrialEntry.live).map TrialEntry.trialId := by
        rw [List.map_map]
        rfl
      rw [hselected, hids, hfilter, hrowIds]

end Review

/-- **When the review set is the abstention set.**  For every completed run that wants equal outputs and whose
cases have no invalid trial or only invalid ones, the review succeeds with a row for exactly the trials that were
counted as abstained iff the answers to every valid trial are ones on which the two rules agree. -/
theorem review_of_run : ∀ (h : Hashes) (path : String) (approved : Option (String → Option String))
    (options : RunOptions) (start count : Int) (cases : List (MtragCase × CaseWorld)) (runs : List CaseRun),
    options.requireExactOutputMatch = true →
    runMtragCounterfactualCases path approved options start cases = .ok runs → FreshIds runs →
    (∀ r ∈ runs, ∀ b, r.batch = some b → b.invalid = [] ∨ b.invalid = b.trials) →
    (ReviewsExactly h path (eventsOf (runs.flatMap CaseRun.requests)) (runSummary start count runs)
        (runs.flatMap CaseRun.abstained) ↔
      ∀ r ∈ runs, ∀ b, r.batch = some b → b.invalid = [] → ∀ n < b.trials.length,
        r.world.Reviewable n) := by
  intro h path approved options start count cases runs hexact hrun hfresh hwholly
  have hok : ∀ r ∈ runs, r.Ok := by
    rw [runMtragCounterfactualCases] at hrun
    split at hrun
    · cases hrun
    · split at hrun
      · cases hrun
      · simp only [Except.bind_eq_ok] at hrun
        obtain ⟨runs', hruns, _, -, hsame⟩ := hrun
        cases hsame
        exact runCases_ok hexact hruns
  rw [reviewsExactly_iff h path start count hfresh hok hwholly]
  constructor
  · intro hall r hr b hb hvalid n hn
    have hrejected : r.rejected = false := by
      rw [CaseRun.rejected, hb, Option.any_some, hvalid]
      rfl
    let e : TrialEntry := { run := r, batch := b, trial := b.trials[n], index := n }
    have he : e ∈ r.entries := by
      rw [CaseRun.entries, hb]
      exact List.mem_map.mpr ⟨(b.trials[n], n), List.mem_zipIdx_iff_getElem?.mpr (by simp [hn]), rfl⟩
    obtain ⟨hlive, htext⟩ := hall e (List.mem_flatMap.mpr ⟨r, hr, he⟩)
    refine (live_eq_reviewed (hok r hr) he hrejected).mp ⟨hlive, fun hnone => htext ⟨?_, hnone⟩⟩
    obtain ⟨text, -, href⟩ := ((hok r hr).completed b hb).1.reference
    rw [TrialEntry.reviewed, hrejected, hnone]
    change (true && (decide (none ≠ r.world.edited.reply.outputText) || _)) = true
    rw [href]
    rfl
  · intro hall e he
    obtain ⟨r, hr, he⟩ := List.mem_flatMap.mp he
    cases hrejected : r.rejected with
    | true =>
        have hnot : e.reviewed = false := by
          rw [TrialEntry.reviewed, (CaseRun.mem_entries he).1, hrejected]
          rfl
        rw [hnot]
        exact ⟨live_of_rejected he (hwholly r hr) hrejected, fun h => nomatch h.1⟩
    | false =>
        obtain ⟨rfl, hb, hmem⟩ := CaseRun.mem_entries he
        have hvalid : e.batch.invalid = [] := by
          rw [CaseRun.rejected, hb, Option.any_some, Bool.not_eq_false', List.isEmpty_iff] at hrejected
          exact hrejected
        have hn : e.index < e.batch.trials.length :=
          (List.getElem?_eq_some_iff.mp (List.mem_zipIdx_iff_getElem?.mp hmem)).1
        obtain ⟨hsame, htext⟩ := (live_eq_reviewed (hok _ hr) he hrejected).mpr
          (hall e.run hr e.batch hb hvalid e.index hn)
        exact ⟨hsame, fun h => htext h.2⟩

/-! ### Examples -/

instance (runs : List CaseRun) : Decidable (FreshIds runs) :=
  decidable_of_iff
    ((∀ r ∈ runs.flatMap CaseRun.requests, r.1.requestId ≠ "") ∧
      ((runs.flatMap CaseRun.requests).map fun r => r.1.requestId).Nodup ∧
      ((runs.flatMap CaseRun.uses).map Prod.fst).Nodup ∧
      (∀ u ∈ (runs.flatMap CaseRun.uses).map Prod.fst, u ≠ "") ∧
      ∀ u ∈ (runs.flatMap CaseRun.uses).map Prod.fst,
        ∀ v ∈ (runs.flatMap CaseRun.uses).map Prod.fst, u.length = v.length)
    ⟨fun ⟨h₁, h₂, h₃, h₄, h₅⟩ => ⟨h₁, h₂, h₃, h₄, h₅⟩,
      fun h => ⟨h.ledgerIds_ne, h.ledgerIds, h.uuids, h.uuids_ne, h.sameLength⟩⟩

instance (w : CaseWorld) : Decidable w.Stable :=
  inferInstanceAs (Decidable (_ ∧ _))

instance (w : CaseWorld) (n : Nat) : Decidable (w.Reviewable n) :=
  decidable_of_iff
    ((w.trial n).intervention.reply.outputText ≠ none ∧
      ((w.trial n).intervention.reply.outputText = w.edited.reply.outputText →
        w.seenUnstable = true ∨ (w.trial n).intervention.reply.finishReason = some "stop" ∧ w.Stable))
    ⟨fun ⟨h₁, h₂⟩ => ⟨h₁, h₂⟩, fun h => ⟨h.hasText, h.equal⟩⟩

/-- A request of the sample case. -/
def sampleRequest (requestId : String) : CaseRequest where
  requestId := requestId
  query := "q"
  expectedAnswer := "e"
  expectedAnswer_ne := by decide
  gate := none

/-- One transition whose first block is a candidate. -/
def sampleCase : MtragCase where
  traceId := "r"
  transitionId := "x"
  source := sampleRequest "1"
  edited := sampleRequest "2"
  split := "train"
  collection := "c"
  blockSize := 1
  expectedCandidateBlockIndices := [0]
  expectedTestableBlockIndices := [0]
  targetBlockIndices := [0]

/-- The plan of the server, with the block of an intervention. -/
def samplePlan (block : Option Int) : ServerPlan where
  transitionId := some "x"
  blockSize := some 1
  nativeCachedTokens := some 0
  counterfactualReuseBlockIndex := block
  candidateBlockCount := some 1
  candidateTokenCount := some 1
  candidates := some [some { targetBlockIndex := some 0, sourceResident := some true }]

/-- The metrics of a discovery, and those of an intervention. -/
def discoveryMetrics : ServerMetrics where
  partialReusePlan := some (samplePlan none)
  repairSelector := some "full_block"
  candidateTokens := some 1
  repairTokens := some 1
  skippedRepairTokens := some 0

def interventionMetrics : ServerMetrics where
  partialReusePlan := some (samplePlan (some 0))
  repairSelector := some "counterfactual_single_block"
  candidateTokens := some 1
  repairTokens := some 0
  skippedRepairTokens := some 1
  copiedBlocks := some 1
  copiedTokens := some 1
  reusedBatchRows := some 1
  executionEligible := some true
  executionReason := some "eligible"
  compactedBatchBuilt := some true
  spanMetadataBuilt := some true
  compactedBatchExecuted := some true

def sampleAnswer (ledgerId text finishReason : String) (metrics : ServerMetrics) : Answer where
  ledgerId := ledgerId
  reply := {
    outputText := some text
    finishReason := some finishReason
    cachedTokens := some 0
    policy := some "FULL_RECOMPUTE"
    quality := { mode := "requirements", passed := true }
    serverMetrics := metrics
    promptTokenIds := some [1, 2, 3]
    promptTokenCount := some 3 }

/-- A world in which the intervention gives some text and ends for some reason. -/
def interventionWorld (text finishReason : String) : CaseWorld where
  discoveryId := "d"
  source := sampleAnswer "1" "s" "stop" {}
  edited := sampleAnswer "2" "a" "stop" discoveryMetrics
  trial := fun _ => {
    trialId := "t"
    donor := sampleAnswer "3" "s" "stop" {}
    intervention := sampleAnswer "4" text finishReason interventionMetrics }
  checkId := "c"
  stability := sampleAnswer "5" "a" "stop" {}

/-- The run of the sample case, with what can be computed of it. -/
theorem exists_sampleRun {w : CaseWorld} {p : List CaseRun → Bool}
    (h : (runMtragCounterfactualCases "" none {} 1 [(sampleCase, w)]).toOption.any p = true) :
    ∃ runs, runMtragCounterfactualCases "" none {} 1 [(sampleCase, w)] = .ok runs ∧ p runs = true := by
  cases hrun : runMtragCounterfactualCases "" none {} 1 [(sampleCase, w)] with
  | error e =>
      rw [hrun] at h
      cases h
  | ok runs =>
      rw [hrun] at h
      exact ⟨runs, rfl, h⟩

/-- No trial of the case is invalid. -/
def CaseRun.valid (r : CaseRun) : Bool :=
  r.batch.all fun b => b.invalid.isEmpty

theorem invalid_of_valid {runs : List CaseRun} (h : runs.all CaseRun.valid = true) :
    ∀ r ∈ runs, ∀ b, r.batch = some b → b.invalid = [] := by
  intro r hr b hb
  have hvalid := List.all_eq_true.mp h r hr
  rw [CaseRun.valid, hb] at hvalid
  exact List.isEmpty_iff.mp hvalid

/-- The review of a run whose intervention gives another answer. -/
theorem other_answer_reviewed : ∃ runs,
    runMtragCounterfactualCases "" none {} 1 [(sampleCase, interventionWorld "b" "stop")] = .ok runs ∧
      ReviewsExactly sampleHashes "" (eventsOf (runs.flatMap CaseRun.requests)) (runSummary 1 1 runs)
        (runs.flatMap CaseRun.abstained) := by
  obtain ⟨runs, hrun, hp⟩ := @exists_sampleRun (interventionWorld "b" "stop")
    (fun runs => decide (FreshIds runs) && (runs.all CaseRun.valid && runs.all fun r => r.batch.all fun b =>
      (List.range b.trials.length).all fun n => decide (r.world.Reviewable n))) (by decide +kernel)
  rw [Bool.and_eq_true, Bool.and_eq_true] at hp
  obtain ⟨hfresh, hvalid, hreviewable⟩ := hp
  have hinvalid := invalid_of_valid hvalid
  refine ⟨runs, hrun, (review_of_run sampleHashes "" none {} 1 1 _ runs rfl hrun (of_decide_eq_true hfresh)
    fun r hr b hb => Or.inl (hinvalid r hr b hb)).mpr ?_⟩
  intro r hr b hb _ n hn
  have hall := List.all_eq_true.mp hreviewable r hr
  rw [hb] at hall
  exact of_decide_eq_true (List.all_eq_true.mp hall n (List.mem_range.mpr hn))

/-- **A cut-off intervention with the answer of the reference** is counted as abstained, and the review raises. -/
theorem cut_off_not_reviewed : ¬ ∀ (h : Hashes) (path : String)
    (approved : Option (String → Option String)) (options : RunOptions) (start count : Int)
    (cases : List (MtragCase × CaseWorld)) (runs : List CaseRun),
    options.requireExactOutputMatch = true →
    runMtragCounterfactualCases path approved options start cases = .ok runs → FreshIds runs →
    (∀ r ∈ runs, ∀ b, r.batch = some b → b.invalid = [] ∨ b.invalid = b.trials) →
    ReviewsExactly h path (eventsOf (runs.flatMap CaseRun.requests)) (runSummary start count runs)
      (runs.flatMap CaseRun.abstained) := by
  intro hall
  obtain ⟨runs, hrun, hp⟩ := @exists_sampleRun (interventionWorld "a" "length")
    (fun runs => decide (FreshIds runs) && (runs.all CaseRun.valid &&
      (prepareMtragReview sampleHashes "" (eventsOf (runs.flatMap CaseRun.requests))
        (runSummary 1 1 runs)).toOption.isNone)) (by decide +kernel)
  rw [Bool.and_eq_true, Bool.and_eq_true] at hp
  obtain ⟨hfresh, hvalid, hraises⟩ := hp
  obtain ⟨review, key, hok, -⟩ := hall sampleHashes "" none {} 1 1 _ runs rfl hrun (of_decide_eq_true hfresh)
    fun r hr b hb => Or.inl (invalid_of_valid hvalid r hr b hb)
  rw [hok] at hraises
  cases hraises

end CacheSelect.Benchmarks

import CacheSelect.Benchmarks.ReviewSelection

/-! # Consolidation of counterfactual runs

A run writes a summary for every case that is over and at its end a summary of its own; its requests are in one
ledger.  When it is stopped, the summary of the run is missing and the ledger goes on into a case without a summary.
`assembleResults` puts runs together that were stopped and resumed: it indexes their cases by the cases of the plan,
merges the tables and copies of each ledger what belongs to the cases that are over.

`RunLeft` is a run as it was left, `RunLeft.directory` what it wrote.  The ledger of a stopped run is judged before
its tail is cut off, so that a run with a request in flight or failed cannot be assembled (`assembled_runs`).
-/

namespace CacheSelect.Benchmarks

open OrderedDict Observability

/-! ### Directories -/

/-- The table of a case. -/
inductive DatasetFile
  | missing
  | otherSchema
  | rows (rows : List TrainingRow)

/-- The directory of a case that has a summary; its name has a number. -/
structure CaseDirectory where
  localIndex : Int
  summary : CaseSummary
  dataset : DatasetFile

structure RunDirectory where
  path : String
  cases : List CaseDirectory
  summary : Option RunSummary
  ledgers : List (List TrialEvent)

/-! ### Loading runs -/

/-- `_count`. -/
def countOf (value : Option Int) (name : String) : Except Raised Int :=
  match value with
  | none => .error (.valueError s!"{name} must be a non-negative integer")
  | some n =>
      if n < 0 then .error (.valueError s!"{name} must be a non-negative integer") else .ok n

/-- `COUNT_FIELDS`. -/
def countFields : List (String × (CountRecord → Option Int)) :=
  [("trial_count", CountRecord.trialCount),
   ("valid_training_rows", CountRecord.validTrainingRows),
   ("invalid_trials", CountRecord.invalidTrials),
   ("abstained_trials", CountRecord.abstainedTrials),
   ("reference_drift_trials", CountRecord.referenceDriftTrials),
   ("repair_labels", CountRecord.repairLabels),
   ("reuse_labels", CountRecord.reuseLabels)]

/-- The counts of a record, in the order of the fields. -/
def countsOf (record : CountRecord) : Except Raised (List Int) :=
  countFields.mapM fun f => countOf (f.2 record) f.1

def addCounts (totals counts : List Int) : List Int :=
  List.zipWith (· + ·) totals counts

def noCounts : List Int :=
  List.replicate countFields.length 0

/-- `SUPPORTED_EXPERIMENTS`. -/
def supportedExperiments : List String :=
  ["mtrag-counterfactual-pilot", "qwen3-live-reference-mtrag-counterfactual",
    "qwen3-reviewed-mtrag-counterfactual"]

/-- One case of the loop in `_load_run_cases`: it has to be as the summary of the run has it. -/
def loadCase (start : Int) (listed : Option (List CaseSummary)) (c : CaseDirectory × Nat) :
    Except Raised (Int × CaseDirectory) :=
  let loaded := (c.1.summary.sourceCaseIndex.getD (start + c.2), c.1)
  match listed with
  | none => .ok loaded
  | some summaries =>
      match summaries[c.2]? with
      | none => .error .indexError
      | some summary =>
          if c.1.summary ≠ summary then
            .error (.valueError "top-level and per-case MTRAG summaries disagree")
          else .ok loaded

/-- The totals of a run are those of its cases. -/
def checkTotals (s : RunSummary) (cases : List CaseDirectory) : Except Raised Unit := do
  let counts ← cases.mapM fun c => countsOf c.summary.toCountRecord
  let totals ← countsOf s.toCountRecord
  if totals ≠ counts.foldl addCounts noCounts then
    .error (.valueError "MTRAG run totals do not match its cases")
  else .ok ()

/-- The part of `_load_run_cases` for a run with a summary. -/
def loadFinished (s : RunSummary) (cases : List CaseDirectory) :
    Except Raised (List (Int × CaseDirectory) × Option Int) := do
  let caseCount ← countOf s.caseCount "case_count"
  if (s.experiment.all fun e => e ∉ supportedExperiments) ∨ caseCount ≠ cases.length then
    .error (.valueError "input is not a complete MTRAG counterfactual summary")
  else if s.sourceCaseStart.getD 1 < 1 then
    .error (.valueError "MTRAG run has an invalid source case start")
  else do
    let loaded ← cases.zipIdx.mapM (loadCase (s.sourceCaseStart.getD 1) (some s.cases))
    checkTotals s cases
    if s.sourceCaseCount.any fun n => n < 1 then
      .error (.valueError "MTRAG run has an invalid source case count")
    else .ok (loaded, s.sourceCaseCount)

/-- `_load_run_cases`. -/
def loadRunCases (d : RunDirectory) : Except Raised (List (Int × CaseDirectory) × Option Int) :=
  let cases := d.cases.mergeSort fun a b => decide (a.localIndex ≤ b.localIndex)
  if cases = [] then .error (.valueError "MTRAG run contains no completed case summaries")
  else if cases.map CaseDirectory.localIndex ≠ (List.range cases.length).map (fun (n : Nat) => (n : Int) + 1) then
    .error (.valueError "MTRAG run has a gap in its completed local cases")
  else
    match d.summary with
    | none => (cases.zipIdx.mapM (loadCase 1 none)).map fun loaded => (loaded, none)
    | some s => loadFinished s cases

/-- One case of the loop in `_index_cases`. -/
def indexCase (indexed : List (Int × CaseDirectory)) (c : Int × CaseDirectory) :
    Except Raised (List (Int × CaseDirectory)) :=
  if c.1 ∈ keys indexed then .error (.valueError s!"duplicate MTRAG source case {c.1}")
  else .ok (indexed ++ [c])

/-- One run of that loop. -/
def indexRun (state : List (Int × CaseDirectory) × List Int) (d : RunDirectory) :
    Except Raised (List (Int × CaseDirectory) × List Int) := do
  let loaded ← loadRunCases d
  let indexed ← loaded.1.foldlM indexCase state.1
  .ok (indexed, state.2 ++ loaded.2.toList)

/-- The indices of the first source cases. -/
def firstIndices (count : Int) : List Int :=
  (List.range count.toNat).map fun (n : Nat) => (n : Int) + 1

/-- The indexed cases are those of a plan of some length. -/
def requireCoverage (indexed : List (Int × CaseDirectory)) (count : Int) : Except Raised Unit :=
  let missing := (firstIndices count).filter fun i => i ∉ keys indexed
  let unexpected := sortedInts ((keys indexed).filter fun i => i ∉ firstIndices count)
  if missing ≠ [] then .error (.valueError s!"MTRAG runs are missing source cases: {missing}")
  else if unexpected ≠ [] then
    .error (.valueError s!"MTRAG runs contain unexpected source cases: {unexpected}")
  else .ok ()

/-- The length of the plan: what the finished runs say, else the last case there is. -/
def sourceCountOf (counts : List Int) (indices : List Int) : Except Raised Int :=
  match indices.max? with
  | none => .error (.valueError "max() iterable argument is empty")
  | some last => .ok (counts.head?.getD last)

/-- `_index_cases`. -/
def indexCases (dirs : List RunDirectory) (expectedCaseCount : Option Int) :
    Except Raised (List (Int × CaseDirectory) × Int) :=
  if dirs = [] then .error (.valueError "at least one MTRAG run is required")
  else do
    let (indexed, counts) ← dirs.foldlM indexRun ([], [])
    if counts.any fun n => some n ≠ counts.head? then
      .error (.valueError "MTRAG runs disagree on the source case count")
    else do
      let sourceCount ← sourceCountOf counts (keys indexed)
      let expectedCount := expectedCaseCount.getD sourceCount
      if expectedCount < 1 ∨ sourceCount < expectedCount then
        .error (.valueError "expected case count exceeds the source plan")
      else do
        requireCoverage indexed expectedCount
        .ok (indexed, expectedCount)

/-! ### Merging the tables -/

/-- `task_id.split("<::>", 1)[0]`, where the marker is in the text. -/
def beforeMarker (marker : List Char) : List Char → Option (List Char)
  | [] => if marker = [] then some [] else none
  | c :: text =>
      if marker.isPrefixOf (c :: text) then some []
      else (beforeMarker marker text).map fun before => c :: before

structure MergedRow where
  row : TrainingRow
  mtragCaseIndex : Int
  mtragCollection : String
  mtragConversationId : String
  mtragCurrentTaskId : String
deriving DecidableEq

structure Merge where
  totals : List Int := noCounts
  merged : List MergedRow := []
  seen : List (String × String × Nat) := []
  skippedIndices : List Int := []
deriving DecidableEq

/-- The counts of a case fit together. -/
def consistentCounts (r : CountRecord) : Bool :=
  decide (r.validTrainingRows.getD 0 + r.invalidTrials.getD 0 + r.abstainedTrials.getD 0
      = r.trialCount.getD 0 ∧
    r.validTrainingRows.getD 0 = r.repairLabels.getD 0 + r.reuseLabels.getD 0)

/-- One row of a table. -/
def mergeRow (index : Int) (c : CaseSummary) (collection conversationId taskId : String) (m : Merge)
    (row : TrainingRow) : Except Raised Merge :=
  let key := (row.traceId, row.transitionId, row.features.candidateBlockIndex)
  if some row.traceId ≠ c.traceId ∨ some row.transitionId ≠ c.transitionId then
    .error (.valueError "MTRAG training row belongs to a different case")
  else if key ∈ m.seen then .error (.valueError "MTRAG pilot contains a duplicate block label")
  else .ok { m with
    seen := key :: m.seen
    merged := m.merged ++ [{
      row := row
      mtragCaseIndex := index
      mtragCollection := collection
      mtragConversationId := conversationId
      mtragCurrentTaskId := taskId }] }

/-- The table of a case is the one its summary counts. -/
def checkRows (c : CaseSummary) (rows : List TrainingRow) : Except Raised Unit :=
  if (rows.length : Int) ≠ c.validTrainingRows.getD 0 ∨
      ((rows.countP fun r => decide (r.decision = .repair) : Nat) : Int) ≠ c.repairLabels.getD 0 ∨
      ((rows.countP fun r => decide (r.decision = .reuse) : Nat) : Int) ≠ c.reuseLabels.getD 0 then
    .error (.valueError "MTRAG case dataset rows do not match its summary")
  else .ok ()

/-- The identity of a case: its collection, its task and the conversation of the task. -/
def caseIdentity (c : CaseSummary) : Except Raised (String × String × String) :=
  match c.collection with
  | none => .error (.valueError "MTRAG case has no collection")
  | some collection =>
      if collection = "" then .error (.valueError "MTRAG case has no collection")
      else
        match c.currentTaskId with
        | none => .error (.valueError "MTRAG case has no valid current task ID")
        | some taskId =>
            match beforeMarker "<::>".toList taskId.toList with
            | none => .error (.valueError "MTRAG case has no valid current task ID")
            | some conversation => .ok (collection, taskId, String.ofList conversation)

/-- The rows of a case that is not skipped. -/
def mergeRows (index : Int) (d : CaseDirectory) (identity : String × String × String) (m : Merge) :
    Except Raised Merge :=
  match d.dataset with
  | .missing => .error (.other "FileNotFoundError")
  | .otherSchema => .error (.valueError "MTRAG case dataset has an unexpected schema")
  | .rows rows => do
      checkRows d.summary rows
      rows.foldlM (mergeRow index d.summary identity.1 identity.2.2 identity.2.1) m

/-- One case of the loop in `consolidate_mtrag_counterfactual_results`. -/
def mergeCase (indexed : List (Int × CaseDirectory)) (m : Merge) (index : Int) : Except Raised Merge :=
  match get indexed index with
  | none => .error .keyError
  | some d => do
      let counts ← countsOf d.summary.toCountRecord
      if consistentCounts d.summary.toCountRecord = false then
        .error (.valueError "MTRAG case trial counts are inconsistent")
      else do
        let identity ← caseIdentity d.summary
        let m := { m with totals := addCounts m.totals counts }
        if d.summary.status.getD "completed" = "skipped_reference_quality" then
          if counts.any (· ≠ 0) then .error (.valueError "skipped MTRAG case contains trial results")
          else .ok { m with skippedIndices := m.skippedIndices ++ [index] }
        else if d.summary.status.getD "completed" ≠ "completed" then
          .error (.valueError "MTRAG case has an unknown status")
        else mergeRows index d identity m

/-- `consolidate_mtrag_counterfactual_results`, for the indexed cases. -/
def consolidateCases (indexed : List (Int × CaseDirectory)) (count : Int) : Except Raised Merge :=
  (firstIndices count).foldlM (mergeCase indexed) {}

/-! ### Merging the ledgers -/

/-- The event starts the first request of a case. -/
def startsCase : TrialEvent → Bool
  | .started request => request.role = some "discovery_source"
  | _ => false

/-- The loop of `_copy_completed_ledger` over an interrupted ledger: what is written, and how many cases were
discovered. -/
def trimLedger (completedCaseCount : Nat) : Nat → List TrialEvent → List TrialEvent × Nat
  | discovered, [] => ([], discovered)
  | discovered, event :: events =>
      let discovered := if startsCase event then discovered + 1 else discovered
      let rest := trimLedger completedCaseCount discovered events
      (if discovered ≤ completedCaseCount then event :: rest.1 else rest.1, rest.2)

/-- `_copy_completed_ledger`. -/
def copyCompletedLedger (d : RunDirectory) (events : List TrialEvent) (completedCaseCount : Nat) :
    Except Raised (List TrialEvent) :=
  if d.summary.isSome then .ok events
  else
    let trimmed := trimLedger completedCaseCount 0 events
    if trimmed.2 < completedCaseCount then
      .error (.valueError "interrupted ledger has fewer cases than its summaries")
    else .ok trimmed.1

/-- The ledger is complete, and no request of it failed. -/
def requireSuccessful (path message : String) (events : List TrialEvent) : Except Raised LedgerSummary :=
  match validateLedger path (events.map TrialEvent.line) with
  | .error e => .error (.valueError (e.message (fun _ => "") path))
  | .ok ledger =>
      if ledger.isComplete = false ∨ ledger.failed ≠ 0 then .error (.valueError message) else .ok ledger

/-- The one ledger of a run, as far as its cases are over. -/
def completedLedger (d : RunDirectory) (completedCaseCount : Nat) : Except Raised (List TrialEvent) :=
  match d.ledgers with
  | [events] => do
      let _ ← requireSuccessful d.path "MTRAG source request ledger is not fully successful" events
      copyCompletedLedger d events completedCaseCount
  | _ => .error (.valueError "each MTRAG run must contain exactly one request ledger")

/-- What a run adds to the merged ledger. -/
def sourceLedger (d : RunDirectory) : Except Raised (List TrialEvent) := do
  let completed ← loadRunCases d
  completedLedger d completed.1.length

/-! ### Assembling -/

structure AssembledResults where
  caseCount : Int
  rows : List MergedRow
  totals : List Int
  skippedIndices : List Int
  ledger : List TrialEvent
  recordedRequests : Nat
  cases : List CaseSummary
  skippedTargetBlocks : Int
deriving DecidableEq

/-- A case as the assembled summary has it. -/
def assembledCase (indexed : List (Int × CaseDirectory)) (index : Int) : Except Raised CaseSummary :=
  match get indexed index with
  | none => .error .keyError
  | some d => .ok { d.summary with
      sourceCaseIndex := some (d.summary.sourceCaseIndex.getD index)
      status := some (d.summary.status.getD "completed") }

/-- `assemble_mtrag_counterfactual_results`. -/
def assembleResults (outputPath : String) (dirs : List RunDirectory) (expectedCaseCount : Option Int) :
    Except Raised AssembledResults := do
  let (indexed, count) ← indexCases dirs expectedCaseCount
  if dirs.any fun d => d.path = outputPath then
    .error (.valueError "assembled output must be separate from its source runs")
  else do
    let merge ← consolidateCases indexed count
    let ledgers ← dirs.mapM sourceLedger
    let ledger ← requireSuccessful outputPath "merged MTRAG request ledger is not fully successful"
      ledgers.flatten
    let cases ← (firstIndices count).mapM (assembledCase indexed)
    .ok {
      caseCount := count
      rows := merge.merged
      totals := merge.totals
      skippedIndices := merge.skippedIndices
      ledger := ledgers.flatten
      recordedRequests := ledger.started
      cases := cases
      skippedTargetBlocks := (cases.map fun c => c.skippedTargetBlocks.getD 0).sum }

/-! ### Runs as they were left -/

/-- The requests of a case with some interventions, in the order in which they are made. -/
def MtragCase.requests (c : MtragCase) (w : CaseWorld) (interventions : List SingleBlockIntervention) :
    List RecordedRequest :=
  let reference := (c.observeEdited w).1
  [(c.observeSource w).2, (c.observeEdited w).2] ++
    (interventions.zipIdx.flatMap fun (i, n) =>
      [(c.observeDonor i (w.trial n)).2, (c.observeIntervention i reference (w.trial n)).2]) ++
    [(c.observeStability reference w).2]

inductive OpenRequest
  | inFlight
  | failed
deriving DecidableEq

/-- A case in which a run was stopped: so many of its requests were answered, and one more may be open. -/
structure CaseInProgress where
  case : MtragCase
  world : CaseWorld
  interventions : List SingleBlockIntervention
  answered : Nat
  last : Option OpenRequest

namespace CaseInProgress

def requests (c : CaseInProgress) : List RecordedRequest :=
  c.case.requests c.world c.interventions

/-- The request that was started without an answer. -/
def openRequest (c : CaseInProgress) : Option (OpenRequest × StartedRequest) :=
  match c.last, c.requests[c.answered]? with
  | some last, some request => some (last, request.1)
  | _, _ => none

def openEvents (c : CaseInProgress) : List TrialEvent :=
  match c.openRequest with
  | none => []
  | some (.inFlight, request) => [.started request]
  | some (.failed, request) => [.started request, .failed request.requestId]

def events (c : CaseInProgress) : List TrialEvent :=
  eventsOf (c.requests.take c.answered) ++ c.openEvents

end CaseInProgress

/-- How a run ended: with its summary, or between two cases or inside one. -/
inductive RunEnd
  | finished
  | stopped (inProgress : Option CaseInProgress)

structure RunLeft where
  path : String
  start : Int
  completed : List CaseRun
  ending : RunEnd

namespace RunLeft

/-- The events of the cases that are over. -/
def completedEvents (r : RunLeft) : List TrialEvent :=
  eventsOf (r.completed.flatMap CaseRun.requests)

/-- What the ledger has behind them. -/
def tail (r : RunLeft) : List TrialEvent :=
  match r.ending with
  | .stopped (some c) => c.events
  | _ => []

def caseDirectory (c : CaseRun × Nat) : CaseDirectory where
  localIndex := c.2 + 1
  summary := c.1.summary
  dataset := if c.1.batch.isSome then .rows c.1.rows else .missing

/-- The files of the run, for a plan with some number of cases. -/
def directory (sourceCaseCount : Int) (r : RunLeft) : RunDirectory where
  path := r.path
  cases := r.completed.zipIdx.map caseDirectory
  summary := match r.ending with
    | .finished => some (runSummary r.start sourceCaseCount r.completed)
    | .stopped _ => none
  ledgers := [r.completedEvents ++ r.tail]

/-- No request was in flight or had failed when the run ended. -/
def Answered (r : RunLeft) : Prop :=
  ∀ c, r.ending = .stopped (some c) → c.openRequest = none

/-- The run over the same cases that was not stopped. -/
def finish (r : RunLeft) : RunLeft :=
  { r with ending := .finished }

/-- A run of the program: its cases are over, and its request ids are new and not empty. -/
structure Ok (r : RunLeft) : Prop where
  ran : ∃ approved options cases, runCases r.path approved options [] r.start cases = .ok r.completed
  ids : ∀ id ∈ (r.completedEvents ++ r.tail).filterMap TrialEvent.startedId, id ≠ ""
  nodup : ((r.completedEvents ++ r.tail).filterMap TrialEvent.startedId).Nodup

end RunLeft

/-- The uninterrupted set of runs: every run over the cases it completed, if there are any. -/
def uninterrupted (runs : List RunLeft) : List RunLeft :=
  (runs.filter fun r => !r.completed.isEmpty).map RunLeft.finish

/-! ### The ledger of a stopped run -/

theorem trimLedger_append (k : Nat) : ∀ (xs ys : List TrialEvent) (n : Nat),
    trimLedger k n (xs ++ ys)
      = ((trimLedger k n xs).1 ++ (trimLedger k (trimLedger k n xs).2 ys).1,
          (trimLedger k (trimLedger k n xs).2 ys).2) := by
  intro xs
  induction xs with
  | nil => intro ys n; rfl
  | cons e xs ih =>
      intro ys n
      rw [List.cons_append, trimLedger, trimLedger]
      dsimp only
      rw [ih]
      by_cases hle : (if startsCase e then n + 1 else n) ≤ k
      · rw [if_pos hle, if_pos hle]
        rfl
      · rw [if_neg hle, if_neg hle]

/-- Events that start no case are written or not as the case they belong to. -/
theorem trimLedger_of_noStart (k : Nat) : ∀ {es : List TrialEvent}, (∀ e ∈ es, startsCase e = false) →
    ∀ n, trimLedger k n es = (if n ≤ k then es else [], n) := by
  intro es
  induction es with
  | nil => intro _ n; simp [trimLedger]
  | cons e es ih =>
      intro h n
      obtain ⟨he, hes⟩ := List.forall_mem_cons.mp h
      have hstep : (if startsCase e then n + 1 else n) = n := by rw [he]; rfl
      rw [trimLedger, hstep, ih hes n]
      by_cases hle : n ≤ k
      · simp only [if_pos hle]
      · simp only [if_neg hle]

theorem trimLedger_case (k n : Nat) {e : TrialEvent} {es : List TrialEvent} (he : startsCase e = true)
    (hes : ∀ e ∈ es, startsCase e = false) :
    trimLedger k n (e :: es) = (if n + 1 ≤ k then e :: es else [], n + 1) := by
  have hstep : (if startsCase e then n + 1 else n) = n + 1 := by rw [he]; rfl
  rw [trimLedger, hstep, trimLedger_of_noStart k hes]
  by_cases hle : n + 1 ≤ k
  · simp only [if_pos hle]
  · simp only [if_neg hle]

theorem noStart_eventsOf {requests : List RecordedRequest}
    (h : ∀ r ∈ requests, r.1.role ≠ some "discovery_source") :
    ∀ e ∈ eventsOf requests, startsCase e = false := by
  intro e he
  obtain ⟨r, hr, he⟩ := List.mem_flatMap.mp he
  rcases List.mem_pair.mp he with rfl | rfl
  · exact decide_eq_false (h r hr)
  · rfl

/-- Only the first request of a case is for the source of the discovery. -/
theorem role_ne_of_mem_tail {p : CaseParts} (h : p.Ok) :
    ∀ r ∈ p.requests.tail, r.1.role ≠ some "discovery_source" := by
  intro r hr
  rw [CaseParts.requests, List.append_assoc, List.cons_append, List.tail_cons, List.cons_append, List.nil_append,
    List.mem_cons, List.mem_append, List.mem_flatMap] at hr
  rcases hr with rfl | ⟨t, ht, hr⟩ | hr
  · rw [h.edited]
    decide
  · rcases List.mem_pair.mp hr with rfl | rfl
    · rw [h.donor t ht]
      decide
    · rw [(h.intervention t ht).1]
      decide
  · rw [(h.stability r (Option.mem_toList.mp hr)).1]
    decide

/-- The events of a completed case are written or not as a whole. -/
theorem trimLedger_caseRun (k n : Nat) (r : CaseRun) :
    trimLedger k n (eventsOf r.requests) = (if n + 1 ≤ k then eventsOf r.requests else [], n + 1) := by
  have hsource := (parts_ok r).source
  have htail := noStart_eventsOf (role_ne_of_mem_tail (parts_ok r))
  have hevents : eventsOf r.requests = .started r.parts.source.1 ::
      .completed r.parts.source.1.requestId r.parts.source.2 :: eventsOf r.parts.requests.tail := rfl
  rw [hevents]
  refine trimLedger_case k n (decide_eq_true hsource) ?_
  exact List.forall_mem_cons.mpr ⟨rfl, htail⟩

theorem trimLedger_completed (k : Nat) : ∀ (runs : List CaseRun) (n : Nat), n + runs.length ≤ k →
    trimLedger k n (eventsOf (runs.flatMap CaseRun.requests))
      = (eventsOf (runs.flatMap CaseRun.requests), n + runs.length) := by
  intro runs
  induction runs with
  | nil => intro n _; rfl
  | cons r runs ih =>
      intro n hn
      rw [List.length_cons] at hn
      have hsplit : eventsOf ((r :: runs).flatMap CaseRun.requests)
          = eventsOf r.requests ++ eventsOf (runs.flatMap CaseRun.requests) := by
        rw [List.flatMap_cons, eventsOf, List.flatMap_append]
        rfl
      rw [hsplit, trimLedger_append, trimLedger_caseRun, ih (n + 1) (by omega), if_pos (by omega),
        List.length_cons]
      dsimp only
      rw [show n + 1 + runs.length = n + (runs.length + 1) by omega]

namespace CaseInProgress

/-- Only the first request of an unfinished case is for the source of the discovery. -/
theorem role_of_requests (c : CaseInProgress) :
    ∃ r rs, c.requests = r :: rs ∧ r.1.role = some "discovery_source" ∧
      ∀ q ∈ rs, q.1.role ≠ some "discovery_source" := by
  let reference := (c.case.observeEdited c.world).1
  refine ⟨(c.case.observeSource c.world).2,
    (c.case.observeEdited c.world).2 :: ((c.interventions.zipIdx.flatMap fun (i, n) =>
      [(c.case.observeDonor i (c.world.trial n)).2,
        (c.case.observeIntervention i reference (c.world.trial n)).2]) ++
      [(c.case.observeStability reference c.world).2]), rfl, rfl, ?_⟩
  intro q hq
  rw [List.mem_cons, List.mem_append, List.mem_flatMap, List.mem_singleton] at hq
  rcases hq with rfl | ⟨i, -, hq⟩ | rfl
  · exact fun h => absurd (Option.some.inj h) (by decide)
  · rcases List.mem_pair.mp hq with rfl | rfl
    · exact fun h => absurd (Option.some.inj h) (by decide)
    · exact fun h => absurd (Option.some.inj h) (by decide)
  · exact fun h => absurd (Option.some.inj h) (by decide)

theorem openRequest_eq_some {c : CaseInProgress} {last : OpenRequest} {request : StartedRequest}
    (h : c.openRequest = some (last, request)) :
    c.last = some last ∧ ∃ q, c.requests[c.answered]? = some q ∧ q.1 = request := by
  rw [openRequest] at h
  split at h
  · next last' q hlast hq =>
      cases h
      exact ⟨hlast, q, hq, rfl⟩
  · cases h

/-- An open request leaves its start, and nothing behind it starts a case. -/
theorem openEvents_cases (c : CaseInProgress) :
    c.openRequest = none ∧ c.openEvents = [] ∨ ∃ q es, c.requests[c.answered]? = some q ∧
      c.openEvents = .started q.1 :: es ∧ (es = [] ∨ es = [.failed q.1.requestId]) := by
  rw [openEvents]
  cases h : c.openRequest with
  | none => exact Or.inl ⟨rfl, rfl⟩
  | some o =>
      obtain ⟨last, request⟩ := o
      obtain ⟨-, q, hq, rfl⟩ := openRequest_eq_some h
      cases last with
      | inFlight => exact Or.inr ⟨q, [], hq, rfl, Or.inl rfl⟩
      | failed => exact Or.inr ⟨q, _, hq, rfl, Or.inr rfl⟩

/-- The events of an unfinished case begin with the start of its first request. -/
theorem events_cases (c : CaseInProgress) :
    c.events = [] ∨ ∃ e es, c.events = e :: es ∧ startsCase e = true ∧ ∀ e ∈ es, startsCase e = false := by
  obtain ⟨r, rs, hrequests, hr, hrs⟩ := c.role_of_requests
  have hfailed : ∀ {q : RecordedRequest} {es : List TrialEvent},
      es = [] ∨ es = [.failed q.1.requestId] → ∀ e ∈ es, startsCase e = false := by
    rintro q es (rfl | rfl)
    · exact nofun
    · exact List.forall_mem_singleton.mpr rfl
  rw [events, hrequests]
  cases ha : c.answered with
  | zero =>
      rcases c.openEvents_cases with ⟨-, hopen⟩ | ⟨q, es, hq, hopen, hes⟩
      · exact Or.inl (by rw [hopen]; rfl)
      · rw [hrequests, ha, List.getElem?_cons_zero, Option.some.injEq] at hq
        subst hq
        exact Or.inr ⟨.started r.1, es, by rw [hopen]; rfl, decide_eq_true hr, hfailed hes⟩
  | succ a =>
      have hanswered := noStart_eventsOf fun q (hq : q ∈ rs.take a) => hrs q (List.mem_of_mem_take hq)
      refine Or.inr ⟨.started r.1, .completed r.1.requestId r.2 :: (eventsOf (rs.take a) ++ c.openEvents), rfl,
        decide_eq_true hr, List.forall_mem_cons.mpr ⟨rfl, ?_⟩⟩
      rcases c.openEvents_cases with ⟨-, hopen⟩ | ⟨q, es, hq, hopen, hes⟩
      · rw [hopen, List.append_nil]
        exact hanswered
      · rw [hrequests, ha, List.getElem?_cons_succ] at hq
        have hq' : startsCase (.started q.1) = false := decide_eq_false (hrs q (List.mem_of_getElem? hq))
        rw [hopen, List.forall_mem_append, List.forall_mem_cons]
        exact ⟨hanswered, hq', hfailed hes⟩

end CaseInProgress

namespace RunLeft

/-- **What is copied of a stopped run**: the events of the completed cases. -/
theorem trimLedger_run (r : RunLeft) :
    (trimLedger r.completed.length 0 (r.completedEvents ++ r.tail)).1 = r.completedEvents ∧
      r.completed.length ≤ (trimLedger r.completed.length 0 (r.completedEvents ++ r.tail)).2 := by
  have htail : r.tail = [] ∨ ∃ e es, r.tail = e :: es ∧ startsCase e = true ∧
      ∀ e ∈ es, startsCase e = false := by
    rw [tail]
    split
    · next c _ => exact c.events_cases
    · exact Or.inl rfl
  rw [trimLedger_append, completedEvents, trimLedger_completed r.completed.length r.completed 0 (by omega)]
  dsimp only
  rw [Nat.zero_add]
  rcases htail with htail | ⟨e, es, htail, he, hes⟩
  · rw [htail]
    exact ⟨List.append_nil _, le_rfl⟩
  · rw [htail, trimLedger_case _ _ he hes, if_neg (by omega)]
    exact ⟨List.append_nil _, Nat.le_succ _⟩

end RunLeft

/-! ### Loading what a run left -/

/-- The cases of a run with their places in the plan. -/
def loadedCases (start : Int) (cases : List CaseDirectory) : List (Int × CaseDirectory) :=
  cases.zipIdx.map fun c => (c.1.summary.sourceCaseIndex.getD (start + c.2), c.1)

theorem mapM_loadCase_none (start : Int) (cases : List CaseDirectory) :
    cases.zipIdx.mapM (loadCase start none) = .ok (loadedCases start cases) :=
  Except.mapM_eq_ok_map fun _ _ => rfl

theorem mapM_loadCase_some {start : Int} {summaries : List CaseSummary} {cases : List CaseDirectory}
    {loaded : List (Int × CaseDirectory)}
    (h : cases.zipIdx.mapM (loadCase start (some summaries)) = .ok loaded) :
    loaded = loadedCases start cases := by
  have hmap := Except.map_eq_map_of_mapM (g := id) (h := fun c : CaseDirectory × Nat =>
    (c.1.summary.sourceCaseIndex.getD (start + c.2), c.1)) ?_ h
  · rwa [List.map_id] at hmap
  · intro c b hb
    rw [loadCase] at hb
    split at hb
    · cases hb
    · split at hb
      · cases hb
      · cases hb
        rfl

theorem loadFinished_eq_ok {s : RunSummary} {cases : List CaseDirectory}
    {x : List (Int × CaseDirectory) × Option Int} (h : loadFinished s cases = .ok x) :
    x = (loadedCases (s.sourceCaseStart.getD 1) cases, s.sourceCaseCount) := by
  rw [loadFinished, Except.bind_eq_ok] at h
  obtain ⟨caseCount, -, h⟩ := h
  split at h
  · cases h
  · split at h
    · cases h
    · simp only [Except.bind_eq_ok] at h
      obtain ⟨loaded, hloaded, _, -, h⟩ := h
      split at h
      · cases h
      · cases h
        rw [mapM_loadCase_some hloaded]

theorem sourceCaseIndex_of_runMtragCase {c : MtragCase} {w : CaseWorld} {approvedOutput : Option String}
    {options : RunOptions} {index : Int} {run : CaseRun}
    (h : runMtragCase c w approvedOutput options index = .ok run) :
    run.summary.sourceCaseIndex = some index := by
  rw [runMtragCase] at h
  split at h
  · cases h
    rfl
  · split at h
    · cases h
    · cases h
      rfl

/-- Every case that is over has its place in its summary. -/
theorem sourceCaseIndex_of_runCases {path : String} {approved : Option (String → Option String)}
    {options : RunOptions} : ∀ {cases : List (MtragCase × CaseWorld)} {requests : List RecordedRequest}
      {index : Int} {runs : List CaseRun}, runCases path approved options requests index cases = .ok runs →
      ∀ r ∈ runs, r.summary.sourceCaseIndex.isSome = true := by
  intro cases
  induction cases with
  | nil =>
      intro requests index runs h r hr
      cases h
      cases hr
  | cons e cases ih =>
      intro requests index runs h
      obtain ⟨c, w⟩ := e
      rw [runCases] at h
      simp only [Except.bind_eq_ok] at h
      obtain ⟨approvedOutput, -, run, hrun, _, -, runs', hruns, h⟩ := h
      cases h
      refine List.forall_mem_cons.mpr ⟨?_, ih hruns⟩
      rw [sourceCaseIndex_of_runMtragCase hrun]
      rfl

namespace RunLeft

/-- The cases of the run, each under its place in the plan. -/
def loaded (r : RunLeft) : List (Int × CaseDirectory) :=
  loadedCases r.start (r.completed.zipIdx.map caseDirectory)

theorem length_loaded (r : RunLeft) : r.loaded.length = r.completed.length := by
  rw [loaded, loadedCases, List.length_map, List.length_zipIdx, List.length_map, List.length_zipIdx]

theorem loaded_eq {r : RunLeft} (h : r.Ok) (start : Int) :
    loadedCases start (r.completed.zipIdx.map caseDirectory) = r.loaded := by
  obtain ⟨approved, options, cases, hcases⟩ := h.ran
  have hindex := sourceCaseIndex_of_runCases hcases
  refine List.map_congr_left fun c hc => ?_
  obtain ⟨n, hn⟩ : ∃ n, (c.1, n) ∈ (r.completed.zipIdx.map caseDirectory).zipIdx := ⟨c.2, hc⟩
  have hmem := List.fst_mem_of_mem_zipIdx hn
  obtain ⟨p, hp, hcp⟩ := List.mem_map.mp hmem
  have hsome := hindex p.1 (List.fst_mem_of_mem_zipIdx hp)
  obtain ⟨k, hk⟩ := Option.isSome_iff_exists.mp hsome
  have hk' : c.1.summary.sourceCaseIndex = some k := by rw [← hcp]; exact hk
  rw [hk', Option.getD_some, Option.getD_some]

/-- The case directories are numbered in order. -/
theorem sorted_cases (r : RunLeft) :
    (r.completed.zipIdx.map caseDirectory).mergeSort (fun a b => decide (a.localIndex ≤ b.localIndex))
      = r.completed.zipIdx.map caseDirectory := by
  refine List.mergeSort_of_pairwise (List.pairwise_map.mpr ?_)
  rw [List.pairwise_iff_getElem]
  intro i j hi hj hij
  rw [List.getElem_zipIdx, List.getElem_zipIdx]
  refine decide_eq_true ?_
  change ((0 + i : Nat) : Int) + 1 ≤ ((0 + j : Nat) : Int) + 1
  omega

theorem localIndices (r : RunLeft) :
    (r.completed.zipIdx.map caseDirectory).map CaseDirectory.localIndex
      = (List.range (r.completed.zipIdx.map caseDirectory).length).map fun (n : Nat) => (n : Int) + 1 := by
  refine List.ext_getElem (by simp) ?_
  intro i hi hi'
  simp only [List.getElem_map, List.getElem_zipIdx, List.getElem_range, Nat.zero_add]
  rfl

/-- What the directory of a run begins with, when it is loaded. -/
theorem loadRunCases_directory (count : Int) (r : RunLeft) :
    loadRunCases (r.directory count)
      = if r.completed = [] then .error (.valueError "MTRAG run contains no completed case summaries")
        else match (r.directory count).summary with
          | none => ((r.completed.zipIdx.map caseDirectory).zipIdx.mapM (loadCase 1 none)).map fun x => (x, none)
          | some s => loadFinished s (r.completed.zipIdx.map caseDirectory) := by
  have hcases : (r.directory count).cases = r.completed.zipIdx.map caseDirectory := rfl
  have hnil : r.completed.zipIdx.map caseDirectory = [] ↔ r.completed = [] := by
    rw [List.map_eq_nil_iff, List.zipIdx_eq_nil_iff]
  rw [loadRunCases, hcases, sorted_cases, ← localIndices]
  by_cases h : r.completed = []
  · rw [if_pos (hnil.mpr h), if_pos h]
  · rw [if_neg (mt hnil.mp h), if_neg h, if_neg (not_not.mpr rfl)]

/-- The number of source cases that the run tells. -/
def sourceCount (count : Int) (r : RunLeft) : Option Int :=
  match r.ending with
  | .finished => some count
  | .stopped _ => none

theorem loadRunCases_finish {r : RunLeft} {count : Int} {x : List (Int × CaseDirectory) × Option Int}
    (hx : loadRunCases (r.finish.directory count) = .ok x) :
    r.completed ≠ [] ∧ x = (r.loaded, some count) := by
  rw [loadRunCases_directory] at hx
  split at hx
  · cases hx
  · next hne =>
      have hload := loadFinished_eq_ok (s := runSummary r.start count r.completed) hx
      exact ⟨hne, hload⟩

/-- A run is loaded as it would be if it had been finished; only a finished run tells the number of cases. -/
theorem loadRunCases_left {r : RunLeft} (h : r.Ok) {count : Int}
    (hfinish : loadRunCases (r.finish.directory count) = .ok (r.loaded, some count)) :
    loadRunCases (r.directory count) = .ok (r.loaded, r.sourceCount count) := by
  have hne := (loadRunCases_finish hfinish).1
  cases hending : r.ending with
  | finished =>
      have hsame : r.finish = r := by rw [finish, ← hending]
      rw [hsame] at hfinish
      rw [sourceCount, hending]
      exact hfinish
  | stopped inProgress =>
      have hsummary : (r.directory count).summary = none := by rw [directory, hending]
      rw [loadRunCases_directory, if_neg hne, hsummary, sourceCount, hending, mapM_loadCase_none, loaded_eq h]
      rfl

end RunLeft

/-! ### Indexing -/

theorem foldlM_indexCase : ∀ {cases indexed result : List (Int × CaseDirectory)},
    cases.foldlM indexCase indexed = .ok result → (keys indexed).Nodup →
      result = indexed ++ cases ∧ (keys result).Nodup := by
  intro cases
  induction cases with
  | nil =>
      intro indexed result h hnd
      cases h
      exact ⟨(List.append_nil _).symm, hnd⟩
  | cons c cases ih =>
      intro indexed result h hnd
      rw [List.foldlM_cons, Except.bind_eq_ok] at h
      obtain ⟨indexed', hc, h⟩ := h
      rw [indexCase] at hc
      split at hc
      · cases hc
      · next hnew =>
          cases hc
          have hnd' : (keys (indexed ++ [c])).Nodup := by
            rw [keys, List.map_append, List.map_singleton, List.nodup_append]
            refine ⟨hnd, List.nodup_singleton _, ?_⟩
            rintro a ha b hb rfl
            exact hnew (List.mem_singleton.mp hb ▸ ha)
          obtain ⟨hresult, hkeys⟩ := ih h hnd'
          exact ⟨by rw [hresult, List.append_assoc]; rfl, hkeys⟩

/-- The loop over the runs: all of them are loaded, and their cases are indexed one after the other. -/
theorem foldlM_indexRun : ∀ {dirs : List RunDirectory} {indexed : List (Int × CaseDirectory)} {counts : List Int}
    {result : List (Int × CaseDirectory) × List Int},
    dirs.foldlM indexRun (indexed, counts) = .ok result ↔
      ∃ loaded, dirs.mapM loadRunCases = .ok loaded ∧
        (loaded.flatMap Prod.fst).foldlM indexCase indexed = .ok result.1 ∧
        result.2 = counts ++ loaded.flatMap fun x => x.2.toList := by
  intro dirs
  induction dirs with
  | nil =>
      intro indexed counts result
      constructor
      · intro h
        cases h
        exact ⟨[], rfl, rfl, (List.append_nil _).symm⟩
      · rintro ⟨loaded, hloaded, h, hcounts⟩
        cases hloaded
        cases h
        have hsame : result.2 = counts := by rw [hcounts]; exact List.append_nil counts
        rw [← hsame]
        rfl
  | cons d dirs ih =>
      intro indexed counts result
      rw [List.foldlM_cons, List.mapM_cons, Except.bind_eq_ok]
      constructor
      · rintro ⟨⟨indexed', counts'⟩, hd, h⟩
        rw [indexRun, Except.bind_eq_ok] at hd
        obtain ⟨x, hx, hd⟩ := hd
        rw [Except.bind_eq_ok] at hd
        obtain ⟨indexed'', hindexed, hd⟩ := hd
        cases hd
        obtain ⟨loaded, hloaded, hfold, hcounts⟩ := ih.mp h
        refine ⟨x :: loaded, by rw [hx, hloaded]; rfl, ?_, ?_⟩
        · rw [List.flatMap_cons, List.foldlM_append, hindexed]
          exact hfold
        · rw [hcounts, List.flatMap_cons, List.append_assoc]
      · rintro ⟨loaded', hloaded', hfold, hcounts⟩
        rw [Except.bind_eq_ok] at hloaded'
        obtain ⟨x, hx, hloaded'⟩ := hloaded'
        rw [Except.bind_eq_ok] at hloaded'
        obtain ⟨loaded, hloaded, hcons⟩ := hloaded'
        cases hcons
        rw [List.flatMap_cons, List.foldlM_append, Except.bind_eq_ok] at hfold
        obtain ⟨indexed', hindexed, hfold⟩ := hfold
        refine ⟨(indexed', counts ++ x.2.toList), ?_, ih.mpr ⟨loaded, hloaded, hfold, ?_⟩⟩
        · rw [indexRun, hx]
          change (x.1.foldlM indexCase indexed >>= _) = _
          rw [hindexed]
          rfl
        · rw [hcounts, List.flatMap_cons, List.append_assoc]

theorem mem_firstIndices {count i : Int} : i ∈ firstIndices count ↔ 1 ≤ i ∧ i ≤ count := by
  rw [firstIndices, List.mem_map]
  constructor
  · rintro ⟨n, hn, rfl⟩
    rw [List.mem_range] at hn
    omega
  · rintro ⟨h1, h2⟩
    exact ⟨(i - 1).toNat, by rw [List.mem_range]; omega, by omega⟩

theorem requireCoverage_eq_ok {indexed : List (Int × CaseDirectory)} {count : Int} :
    requireCoverage indexed count = .ok () ↔ ∀ i, i ∈ keys indexed ↔ 1 ≤ i ∧ i ≤ count := by
  have hmissing : (firstIndices count).filter (fun i => i ∉ keys indexed) = [] ↔
      ∀ i, 1 ≤ i ∧ i ≤ count → i ∈ keys indexed := by
    rw [List.filter_eq_nil_iff]
    simp only [mem_firstIndices, decide_eq_true_eq, not_not]
  have hunexpected : sortedInts ((keys indexed).filter fun i => i ∉ firstIndices count) = [] ↔
      ∀ i ∈ keys indexed, 1 ≤ i ∧ i ≤ count := by
    rw [sortedInts, ← List.length_eq_zero_iff, List.length_insertionSort, List.length_eq_zero_iff,
      List.filter_eq_nil_iff]
    simp only [mem_firstIndices, decide_eq_true_eq, not_not]
  rw [requireCoverage]
  by_cases h1 : (firstIndices count).filter (fun i => i ∉ keys indexed) = []
  · rw [if_neg (not_not.mpr h1)]
    by_cases h2 : sortedInts ((keys indexed).filter fun i => i ∉ firstIndices count) = []
    · rw [if_neg (not_not.mpr h2)]
      exact ⟨fun _ i => ⟨hunexpected.mp h2 i, hmissing.mp h1 i⟩, fun _ => rfl⟩
    · rw [if_pos h2]
      exact ⟨nofun, fun h => absurd (hunexpected.mpr fun i hi => (h i).mp hi) h2⟩
  · rw [if_pos h1]
    exact ⟨nofun, fun h => absurd (hmissing.mpr fun i hi => (h i).mpr hi) h1⟩

/-- The cases that are indexed are those of the plan, as far as its length is told. -/
structure PlanCovered (counts : List Int) (indexed : List (Int × CaseDirectory)) (expected : Option Int)
    (count : Int) : Prop where
  agree : ∀ n ∈ counts, some n = counts.head?
  length : ∃ sourceCount, sourceCountOf counts (keys indexed) = .ok sourceCount ∧
    count = expected.getD sourceCount ∧ count ≤ sourceCount
  pos : 1 ≤ count
  covered : ∀ i, i ∈ keys indexed ↔ 1 ≤ i ∧ i ≤ count

theorem indexCases_eq_ok {dirs : List RunDirectory} {expected : Option Int}
    {indexed : List (Int × CaseDirectory)} {count : Int} :
    indexCases dirs expected = .ok (indexed, count) ↔ dirs ≠ [] ∧ ∃ loaded,
      dirs.mapM loadRunCases = .ok loaded ∧ (loaded.flatMap Prod.fst).foldlM indexCase [] = .ok indexed ∧
      PlanCovered (loaded.flatMap fun x => x.2.toList) indexed expected count := by
  rw [indexCases]
  by_cases hnil : dirs = []
  · rw [if_pos hnil]
    exact ⟨nofun, fun h => absurd hnil h.1⟩
  · rw [if_neg hnil, Except.bind_eq_ok, and_iff_right hnil]
    constructor
    · rintro ⟨⟨indexed', counts⟩, hfold, h⟩
      obtain ⟨loaded, hloaded, hindexed, hcounts⟩ := foldlM_indexRun.mp hfold
      rw [List.nil_append] at hcounts
      dsimp only at h hcounts hindexed
      subst hcounts
      split at h
      · cases h
      · next hagree =>
          rw [Except.bind_eq_ok] at h
          obtain ⟨sourceCount, hsource, h⟩ := h
          split at h
          · cases h
          · next hbound =>
              rw [Except.bind_eq_ok] at h
              obtain ⟨_, hcover, h⟩ := h
              cases h
              refine ⟨loaded, hloaded, hindexed, ?_, ⟨sourceCount, hsource, rfl, by omega⟩, by omega,
                requireCoverage_eq_ok.mp hcover⟩
              intro n hn
              by_contra hne
              exact hagree (List.any_eq_true.mpr ⟨n, hn, decide_eq_true hne⟩)
    · rintro ⟨loaded, hloaded, hindexed, hplan⟩
      obtain ⟨sourceCount, hsource, hcount, hle⟩ := hplan.length
      refine ⟨(indexed, loaded.flatMap fun x => x.2.toList), foldlM_indexRun.mpr ⟨loaded, hloaded, hindexed,
        (List.nil_append _).symm⟩, ?_⟩
      have hpos := hplan.pos
      dsimp only
      rw [if_neg, hsource]
      · change (if _ then _ else _) = _
        rw [← hcount, if_neg (by omega), requireCoverage_eq_ok.mpr hplan.covered]
        rfl
      · intro hany
        obtain ⟨n, hn, hne⟩ := List.any_eq_true.mp hany
        exact of_decide_eq_true hne (hplan.agree n hn)

/-- **Overlapping and missing source cases are rejected**: the cases that were loaded are those of the plan, each of
them once. -/
theorem perm_of_indexCases {dirs : List RunDirectory} {expected : Option Int}
    {indexed : List (Int × CaseDirectory)} {count : Int}
    (h : indexCases dirs expected = .ok (indexed, count)) : ∃ loaded,
      dirs.mapM loadRunCases = .ok loaded ∧ indexed = loaded.flatMap Prod.fst ∧
      (keys (loaded.flatMap Prod.fst)).Perm (firstIndices count) := by
  obtain ⟨-, loaded, hloaded, hindexed, hplan⟩ := indexCases_eq_ok.mp h
  obtain ⟨hsame, hnd⟩ := foldlM_indexCase hindexed List.nodup_nil
  rw [List.nil_append] at hsame
  subst hsame
  refine ⟨loaded, hloaded, rfl, (List.perm_ext_iff_of_nodup hnd ?_).mpr fun i => ?_⟩
  · rw [firstIndices]
    exact List.Nodup.map (fun a b hab => by simpa using hab) List.nodup_range
  · rw [hplan.covered, mem_firstIndices]

/-- Where the finished runs tell the length of the plan, leaving some of them unfinished changes nothing: the
cases that are there tell as much. -/
theorem PlanCovered.leave {counts counts' : List Int} {n : Int} {indexed : List (Int × CaseDirectory)}
    {expected : Option Int} {count : Int} (h : PlanCovered counts indexed expected count)
    (hne : counts ≠ []) (hcounts : ∀ m ∈ counts, m = n) (hcounts' : ∀ m ∈ counts', m = n) :
    PlanCovered counts' indexed expected count := by
  obtain ⟨sourceCount, hsource, hcount, hle⟩ := h.length
  have hmem : count ∈ keys indexed := (h.covered count).mpr ⟨h.pos, le_rfl⟩
  have hmax : (keys indexed).max? = some count :=
    List.max?_eq_some_iff.mpr ⟨hmem, fun i hi => ((h.covered i).mp hi).2⟩
  have hhead : ∀ {cs : List Int}, cs ≠ [] → (∀ m ∈ cs, m = n) → cs.head? = some n := by
    intro cs hcs hall
    obtain ⟨m, ms, rfl⟩ := List.exists_cons_of_ne_nil hcs
    exact congrArg some (hall m List.mem_cons_self)
  rw [sourceCountOf, hmax] at hsource
  dsimp only at hsource
  rw [hhead hne hcounts, Option.getD_some, Except.ok.injEq] at hsource
  subst hsource
  refine { agree := ?_, length := ?_, pos := h.pos, covered := h.covered }
  · intro m hm
    rw [hhead (List.ne_nil_of_mem hm) hcounts', hcounts' m hm]
  · rw [sourceCountOf, hmax]
    by_cases hnil : counts' = []
    · refine ⟨count, by rw [hnil]; rfl, ?_, le_rfl⟩
      cases expected with
      | none => rfl
      | some e => exact hcount
    · refine ⟨n, ?_, hcount, hle⟩
      dsimp only
      rw [hhead hnil hcounts']
      rfl

/-! ### The ledgers -/

/-- The audit of a ledger succeeds for the complete ones. -/
theorem requireSuccessful_isOk (path message : String) (events : List TrialEvent) :
    (∃ ledger, requireSuccessful path message events = .ok ledger) ↔ Complete events := by
  have hload : (∃ l, loadLedger path events = .ok l) ↔ Complete events := by
    constructor
    · rintro ⟨l, hl⟩
      exact (loadLedger_eq_ok.mp hl).1
    · intro h
      exact ⟨_, loadLedger_eq_ok.mpr ⟨h, rfl⟩⟩
  rw [← hload, requireSuccessful, loadLedger]
  cases validateLedger path (events.map TrialEvent.line) with
  | error e =>
      constructor
      · rintro ⟨_, h⟩
        cases h
      · rintro ⟨_, h⟩
        cases h
  | ok ledger =>
      dsimp only
      by_cases hc : ledger.isComplete = false ∨ ledger.failed ≠ 0
      · rw [if_pos hc, if_pos hc]
        constructor
        · rintro ⟨_, h⟩
          cases h
        · rintro ⟨_, h⟩
          cases h
      · rw [if_neg hc, if_neg hc]
        exact ⟨fun _ => ⟨_, rfl⟩, fun _ => ⟨_, rfl⟩⟩

theorem startedIds_eventsOf (requests : List RecordedRequest) :
    (eventsOf requests).filterMap TrialEvent.startedId = requests.map fun r => r.1.requestId := by
  rw [filterMap_eventsOf, List.map_eq_flatMap]
  rfl

theorem completedIds_eventsOf (requests : List RecordedRequest) :
    (eventsOf requests).filterMap TrialEvent.completedId = requests.map fun r => r.1.requestId := by
  rw [filterMap_eventsOf, List.map_eq_flatMap]
  rfl

theorem complete_eventsOf {requests : List RecordedRequest} (hids : ∀ r ∈ requests, r.1.requestId ≠ "")
    (hnd : (requests.map fun r => r.1.requestId).Nodup) : Complete (eventsOf requests) :=
  (loadLedger_eq_ok.mp (loadLedger_eventsOf "" hids hnd)).1

/-- An open request makes a ledger incomplete or failed. -/
theorem not_complete_of_open {requests : List RecordedRequest} {q : StartedRequest} {es : List TrialEvent}
    (hes : es = [] ∨ es = [.failed q.requestId]) :
    ¬ Complete (eventsOf requests ++ .started q :: es) := by
  intro h
  rcases hes with rfl | rfl
  · have hlength := h.matched.length_eq
    have hstarted : [TrialEvent.started q].filterMap TrialEvent.startedId = [q.requestId] := rfl
    have hcompleted : [TrialEvent.started q].filterMap TrialEvent.completedId = [] := rfl
    rw [List.filterMap_append, List.filterMap_append, startedIds_eventsOf, completedIds_eventsOf, hstarted,
      hcompleted, List.append_nil, List.length_append, List.length_singleton] at hlength
    omega
  · exact h.noFailure q.requestId (List.mem_append_right _ (List.mem_cons_of_mem _ List.mem_cons_self))

namespace RunLeft

/-- The answered requests of a run. -/
def answeredRequests (r : RunLeft) : List RecordedRequest :=
  r.completed.flatMap CaseRun.requests ++
    match r.ending with
    | .stopped (some c) => c.requests.take c.answered
    | _ => []

/-- The ledger: the answered requests, and the open one if there is one. -/
theorem ledger_cases (r : RunLeft) :
    r.Answered ∧ r.completedEvents ++ r.tail = eventsOf r.answeredRequests ∨
      ¬ r.Answered ∧ ∃ q es, r.completedEvents ++ r.tail = eventsOf r.answeredRequests ++ .started q :: es ∧
        (es = [] ∨ es = [.failed q.requestId]) := by
  have happend : ∀ xs ys : List RecordedRequest, eventsOf (xs ++ ys) = eventsOf xs ++ eventsOf ys := by
    intro xs ys
    exact List.flatMap_append
  rw [tail, answeredRequests, completedEvents, Answered]
  cases hending : r.ending with
  | finished =>
      refine Or.inl ⟨fun c hc => ?_, by rw [happend]; rfl⟩
      cases hc
  | stopped inProgress =>
      cases inProgress with
      | none =>
          refine Or.inl ⟨fun c hc => ?_, by rw [happend]; rfl⟩
          cases hc
      | some c =>
          dsimp only
          rw [CaseInProgress.events, happend, ← List.append_assoc]
          rcases c.openEvents_cases with ⟨hnone, hopen⟩ | ⟨q, es, hq, hopen, hes⟩
          · refine Or.inl ⟨?_, by rw [hopen, List.append_nil]⟩
            rintro _ ⟨⟩
            exact hnone
          · refine Or.inr ⟨fun hall => ?_, q.1, es, by rw [hopen], hes⟩
            rw [CaseInProgress.openEvents, hall c rfl] at hopen
            cases hopen

/-- **The audit of a run's ledger** succeeds when no request was in flight or had failed. -/
theorem complete_iff {r : RunLeft} (h : r.Ok) :
    Complete (r.completedEvents ++ r.tail) ↔ r.Answered := by
  rcases r.ledger_cases with ⟨hanswered, hledger⟩ | ⟨hopen, q, es, hledger, hes⟩
  · refine iff_of_true ?_ hanswered
    have hids := h.ids
    have hnd := h.nodup
    rw [hledger, startedIds_eventsOf] at hids hnd
    rw [hledger]
    exact complete_eventsOf (fun q hq => hids q.1.requestId (List.mem_map_of_mem hq)) hnd
  · refine iff_of_false ?_ hopen
    rw [hledger]
    exact not_complete_of_open hes

/-- A ledger that is copied passed the audit. -/
theorem complete_of_completedLedger {r : RunLeft} {count : Int} {n : Nat} {ledger : List TrialEvent}
    (h : completedLedger (r.directory count) n = .ok ledger) : Complete (r.completedEvents ++ r.tail) := by
  have hledgers : (r.directory count).ledgers = [r.completedEvents ++ r.tail] := rfl
  rw [completedLedger, hledgers] at h
  dsimp only at h
  rw [Except.bind_eq_ok] at h
  obtain ⟨summary, hsummary, -⟩ := h
  exact (requireSuccessful_isOk _ _ _).mp ⟨summary, hsummary⟩

/-- What a run adds to the merged ledger. -/
theorem sourceLedger_directory {r : RunLeft} (count : Int) {x : List (Int × CaseDirectory) × Option Int}
    (hlength : x.1.length = r.completed.length) (hx : loadRunCases (r.directory count) = .ok x)
    (hcomplete : Complete (r.completedEvents ++ r.tail)) :
    sourceLedger (r.directory count) = .ok r.completedEvents := by
  have hcopy : copyCompletedLedger (r.directory count) (r.completedEvents ++ r.tail) r.completed.length
      = .ok r.completedEvents := by
    rw [copyCompletedLedger]
    cases hending : r.ending with
    | finished =>
        have hsome : (r.directory count).summary.isSome = true := by rw [directory, hending]; rfl
        have htail : r.tail = [] := by rw [tail, hending]
        rw [if_pos hsome, htail, List.append_nil]
    | stopped inProgress =>
        have hnone : (r.directory count).summary.isSome = false := by rw [directory, hending]; rfl
        obtain ⟨hevents, hle⟩ := r.trimLedger_run
        rw [hnone, if_neg Bool.false_ne_true]
        dsimp only
        rw [if_neg (by omega), hevents]
  have hledgers : (r.directory count).ledgers = [r.completedEvents ++ r.tail] := rfl
  obtain ⟨summary, hsummary⟩ := (requireSuccessful_isOk (r.directory count).path
    "MTRAG source request ledger is not fully successful" _).mpr hcomplete
  rw [sourceLedger, hx]
  change completedLedger (r.directory count) x.1.length = _
  rw [completedLedger, hledgers]
  dsimp only
  rw [hsummary, hlength]
  exact hcopy

end RunLeft

/-! ### Assembling what was left -/

theorem assembleResults_congr {outputPath : String} {dirs dirs' : List RunDirectory} {expected : Option Int}
    (hindex : indexCases dirs expected = indexCases dirs' expected)
    (hpath : dirs.map RunDirectory.path = dirs'.map RunDirectory.path)
    (hledgers : dirs.mapM sourceLedger = dirs'.mapM sourceLedger) :
    assembleResults outputPath dirs expected = assembleResults outputPath dirs' expected := by
  have hany : (dirs.any fun d => decide (d.path = outputPath)) = dirs'.any fun d => decide (d.path = outputPath) := by
    have h := congrArg (fun paths => paths.any fun path => decide (path = outputPath)) hpath
    rwa [List.any_map, List.any_map] at h
  rw [assembleResults, assembleResults, hindex, hledgers, hany]

theorem assembleResults_eq_ok {outputPath : String} {dirs : List RunDirectory} {expected : Option Int}
    {results : AssembledResults} (h : assembleResults outputPath dirs expected = .ok results) :
    (∃ indexed, indexCases dirs expected = .ok (indexed, results.caseCount)) ∧
      ∃ ledgers, dirs.mapM sourceLedger = .ok ledgers ∧ results.ledger = ledgers.flatten := by
  rw [assembleResults, Except.bind_eq_ok] at h
  obtain ⟨⟨indexed, count⟩, hindex, h⟩ := h
  dsimp only at h
  split at h
  · cases h
  · simp only [Except.bind_eq_ok] at h
    obtain ⟨merge, -, ledgers, hledgers, ledger, -, cases, -, h⟩ := h
    cases h
    exact ⟨⟨indexed, hindex⟩, ledgers, hledgers, rfl⟩

/-- Runs that all completed a case are each finished in the uninterrupted set. -/
theorem uninterrupted_of_completed {runs : List RunLeft} (h : ∀ r ∈ runs, r.completed ≠ []) :
    uninterrupted runs = runs.map RunLeft.finish := by
  rw [uninterrupted, List.filter_eq_self.mpr]
  intro r hr
  rw [Bool.not_eq_true', List.isEmpty_eq_false_iff]
  exact h r hr

section Left

variable {count : Int} {expected : Option Int} {runs : List RunLeft}

/-- Where the finished runs are indexed, so are the runs that were left. -/
theorem indexCases_left (hok : ∀ r ∈ runs, r.Ok) {indexed : List (Int × CaseDirectory)} {n : Int}
    (h : indexCases ((runs.map RunLeft.finish).map (RunLeft.directory count)) expected = .ok (indexed, n)) :
    (∀ r ∈ runs, loadRunCases (r.finish.directory count) = .ok (r.loaded, some count)) ∧
      indexCases (runs.map (RunLeft.directory count)) expected = .ok (indexed, n) := by
  obtain ⟨hne, loaded, hloaded, hindexed, hplan⟩ := indexCases_eq_ok.mp h
  rw [List.map_map, List.mapM_map] at hloaded
  have hfinish : ∀ r ∈ runs, loadRunCases (r.finish.directory count) = .ok (r.loaded, some count) := by
    intro r hr
    obtain ⟨x, -, hx⟩ := Except.exists_ok_of_mapM hloaded hr
    have hx' : loadRunCases (r.finish.directory count) = .ok x := hx
    rw [(RunLeft.loadRunCases_finish hx').2] at hx'
    exact hx'
  have hloaded' : loaded = runs.map fun r => (r.loaded, some count) :=
    Except.ok.inj (hloaded.symm.trans (Except.mapM_eq_ok_map hfinish))
  have hleft : (runs.map (RunLeft.directory count)).mapM loadRunCases
      = .ok (runs.map fun r => (r.loaded, r.sourceCount count)) := by
    rw [List.mapM_map]
    exact Except.mapM_eq_ok_map fun r hr => RunLeft.loadRunCases_left (hok r hr) (hfinish r hr)
  have hruns : runs ≠ [] := by
    rintro rfl
    exact hne rfl
  refine ⟨hfinish, indexCases_eq_ok.mpr ⟨by simpa using hruns, _, hleft, ?_, ?_⟩⟩
  · rw [hloaded', List.flatMap_map] at hindexed
    rw [List.flatMap_map]
    exact hindexed
  · refine hplan.leave ?_ ?_ ?_ (n := count)
    · obtain ⟨r, rs, rfl⟩ := List.exists_cons_of_ne_nil hruns
      rw [hloaded']
      exact List.cons_ne_nil _ _
    · intro m hm
      rw [hloaded', List.flatMap_map, List.mem_flatMap] at hm
      obtain ⟨r, -, hm⟩ := hm
      exact List.mem_singleton.mp hm
    · intro m hm
      rw [List.flatMap_map, List.mem_flatMap] at hm
      obtain ⟨r, -, hm⟩ := hm
      rw [Option.mem_toList, RunLeft.sourceCount] at hm
      split at hm
      · exact (Option.some.inj hm).symm
      · cases hm

end Left

/-- **Assembling runs that were stopped.**  Where the uninterrupted set of runs is assembled, the runs as they were
left give the same results, with the events of the completed cases, iff every one of them completed a case and none
was stopped with a request in flight or failed.  And whatever is assembled, the cases are those of the plan, each
once. -/
theorem assembled_runs : ∀ (outputPath : String) (expected : Option Int),
    (∀ (count : Int) (runs : List RunLeft) (results : AssembledResults), (∀ r ∈ runs, r.Ok) →
      assembleResults outputPath ((uninterrupted runs).map (RunLeft.directory count)) expected = .ok results →
      (assembleResults outputPath (runs.map (RunLeft.directory count)) expected = .ok results ∧
          results.ledger = runs.flatMap RunLeft.completedEvents ↔
        ∀ r ∈ runs, r.completed ≠ [] ∧ r.Answered)) ∧
      ∀ (dirs : List RunDirectory) (results : AssembledResults),
        assembleResults outputPath dirs expected = .ok results →
        ∃ loaded, dirs.mapM loadRunCases = .ok loaded ∧
          (keys (loaded.flatMap Prod.fst)).Perm (firstIndices results.caseCount) := by
  intro outputPath expected
  constructor
  · intro count runs results hok hresults
    constructor
    · rintro ⟨hleft, -⟩ r hr
      obtain ⟨-, ledgers, hledgers, -⟩ := assembleResults_eq_ok hleft
      obtain ⟨ledger, -, hledger⟩ := Except.exists_ok_of_mapM hledgers (List.mem_map_of_mem hr)
      rw [sourceLedger, Except.bind_eq_ok] at hledger
      obtain ⟨x, hx, hledger⟩ := hledger
      refine ⟨?_, (RunLeft.complete_iff (hok r hr)).mp (RunLeft.complete_of_completedLedger hledger)⟩
      intro hnil
      rw [RunLeft.loadRunCases_directory, if_pos hnil] at hx
      cases hx
    · intro hall
      rw [uninterrupted_of_completed fun r hr => (hall r hr).1] at hresults
      obtain ⟨⟨indexed, hindex⟩, ledgers, hledgers, hflat⟩ := assembleResults_eq_ok hresults
      obtain ⟨hfinish, hindex'⟩ := indexCases_left hok hindex
      have hcompleteAll : ∀ r ∈ runs, Complete (r.completedEvents ++ r.tail) := fun r hr =>
        (RunLeft.complete_iff (hok r hr)).mpr (hall r hr).2
      have hleft : (runs.map (RunLeft.directory count)).mapM sourceLedger
          = .ok (runs.map RunLeft.completedEvents) := by
        rw [List.mapM_map]
        exact Except.mapM_eq_ok_map fun r hr => RunLeft.sourceLedger_directory count r.length_loaded
          (RunLeft.loadRunCases_left (hok r hr) (hfinish r hr)) (hcompleteAll r hr)
      have hfinished : ((runs.map RunLeft.finish).map (RunLeft.directory count)).mapM sourceLedger
          = .ok (runs.map RunLeft.completedEvents) := by
        rw [List.map_map, List.mapM_map]
        refine Except.mapM_eq_ok_map fun r hr => ?_
        obtain ⟨ledger, -, hledger⟩ := Except.exists_ok_of_mapM hledgers
          (List.mem_map_of_mem (f := RunLeft.directory count) (List.mem_map_of_mem hr))
        rw [sourceLedger, Except.bind_eq_ok] at hledger
        obtain ⟨x, -, hledger⟩ := hledger
        exact RunLeft.sourceLedger_directory (r := r.finish) count r.length_loaded (hfinish r hr)
          (RunLeft.complete_of_completedLedger hledger)
      have hpaths : (runs.map (RunLeft.directory count)).map RunDirectory.path
          = ((runs.map RunLeft.finish).map (RunLeft.directory count)).map RunDirectory.path := by
        simp only [List.map_map]
        rfl
      refine ⟨?_, ?_⟩
      · rw [assembleResults_congr (hindex'.trans hindex.symm) hpaths (hleft.trans hfinished.symm)]
        exact hresults
      · rw [hflat, Except.ok.inj (hledgers.symm.trans hfinished), List.flatMap_def]
  · intro dirs results h
    obtain ⟨⟨indexed, hindex⟩, -⟩ := assembleResults_eq_ok h
    obtain ⟨loaded, hloaded, -, hperm⟩ := perm_of_indexCases hindex
    exact ⟨loaded, hloaded, hperm⟩

/-! ### Examples -/

/-- A case of a plan, by its number. -/
def planCase (n : String) : MtragCase :=
  { sampleCase with
    traceId := n
    edited := sampleRequest (n ++ "<::>2") }

/-- The answers to a case, with the number in the ids of its requests. -/
def planWorld (n : String) : CaseWorld where
  discoveryId := "d"
  source := sampleAnswer (n ++ "1") "s" "stop" {}
  edited := sampleAnswer (n ++ "2") "a" "stop" discoveryMetrics
  trial := fun _ => {
    trialId := "t"
    donor := sampleAnswer (n ++ "3") "s" "stop" {}
    intervention := sampleAnswer (n ++ "4") "b" "stop" interventionMetrics }
  checkId := "c"
  stability := sampleAnswer (n ++ "5") "a" "stop" {}

def planRun (path n : String) (start : Int) (ending : RunEnd) : RunLeft where
  path := path
  start := start
  completed := (runCases path none {} [] start [(planCase n, planWorld n)]).toOption.getD []
  ending := ending

theorem planRun_ok {path n : String} {start : Int} {ending : RunEnd}
    (hrun : (runCases path none {} [] start [(planCase n, planWorld n)]).toOption.isSome = true)
    (hids : ∀ id ∈ ((planRun path n start ending).completedEvents ++ (planRun path n start ending).tail).filterMap
      TrialEvent.startedId, id ≠ "")
    (hnd : (((planRun path n start ending).completedEvents ++ (planRun path n start ending).tail).filterMap
      TrialEvent.startedId).Nodup) : (planRun path n start ending).Ok := by
  refine { ran := ⟨none, {}, [(planCase n, planWorld n)], ?_⟩, ids := hids, nodup := hnd }
  rw [planRun]
  dsimp only
  cases h : runCases path none {} [] start [(planCase n, planWorld n)] with
  | error e =>
      rw [h] at hrun
      cases hrun
  | ok runs => rfl

/-- A run over the first case that went on with the second one, and a run that resumed it. -/
def resumedRuns (last : Option OpenRequest) : List RunLeft :=
  [planRun "prefix" "1" 1 (.stopped (some {
      case := planCase "2"
      world := planWorld "3"
      interventions := []
      answered := 1
      last := last })),
    planRun "resumed" "2" 2 .finished]

theorem resumedRuns_ok : ∀ last, ∀ r ∈ resumedRuns last, r.Ok := by
  intro last r hr
  rcases List.mem_pair.mp hr with rfl | rfl
  · rcases last with _ | _ | _
    all_goals exact planRun_ok (by decide +kernel) (by decide +kernel) (by decide +kernel)
  · exact planRun_ok (by decide +kernel) (by decide +kernel) (by decide +kernel)

/-- Stopped after an answer, the run is assembled: the request of the second case is left out. -/
theorem resumed_assembled : ∃ results,
    assembleResults "out" ((resumedRuns none).map (RunLeft.directory 2)) none = .ok results ∧
      results.recordedRequests = 10 := by
  obtain ⟨results, hresults, hp⟩ := @Except.exists_ok_of_any _ _
    (assembleResults "out" ((uninterrupted (resumedRuns none)).map (RunLeft.directory 2)) none)
    (fun results => decide (results.recordedRequests = 10)) (by decide +kernel)
  refine ⟨results, (((assembled_runs "out" none).1 2 (resumedRuns none) results (resumedRuns_ok none)
    hresults).mpr ?_).1, of_decide_eq_true hp⟩
  intro r hr
  rcases List.mem_pair.mp hr with rfl | rfl
  · refine ⟨List.ne_nil_of_length_pos (by decide +kernel), ?_⟩
    rintro c ⟨⟩
    rfl
  · refine ⟨List.ne_nil_of_length_pos (by decide +kernel), ?_⟩
    rintro c ⟨⟩

/-- **A run that was stopped with a request in flight is not assembled**, though its completed case and the resumed
run cover the plan. -/
theorem in_flight_not_assembled : ¬ ∀ (outputPath : String) (expected : Option Int) (count : Int)
    (runs : List RunLeft) (results : AssembledResults), (∀ r ∈ runs, r.Ok) →
    assembleResults outputPath ((uninterrupted runs).map (RunLeft.directory count)) expected = .ok results →
    assembleResults outputPath (runs.map (RunLeft.directory count)) expected = .ok results := by
  intro hall
  obtain ⟨results, hresults, -⟩ := @Except.exists_ok_of_any _ _
    (assembleResults "out" ((uninterrupted (resumedRuns (some .inFlight))).map (RunLeft.directory 2)) none)
    (fun _ => true) (by decide +kernel)
  have hleft := hall "out" none 2 (resumedRuns (some .inFlight)) results (resumedRuns_ok _) hresults
  have hraises : (assembleResults "out" ((resumedRuns (some .inFlight)).map (RunLeft.directory 2))
      none).toOption.isNone = true := by decide +kernel
  rw [hleft] at hraises
  cases hraises

end CacheSelect.Benchmarks

import CacheSelect.Lib.Json
import CacheSelect.Observability.RequestLedger

/-! # Ledgers of counterfactual trials

The requests of a counterfactual run carry in their metadata which role they have in which trial.  The review of a
run and the curation of its labels read them back from the ledger, together with the summary of the run.

The records hold what these programs read of an event; a field is `none` where it is missing or not of the kind
that they ask for.
-/

namespace CacheSelect.Benchmarks

open OrderedDict Observability

/-! ### Events -/

/-- What a `request_started` event tells about a request: its metadata, the contents of its query segments and the
expected answer. -/
structure StartedRequest where
  requestId : String
  benchmarkRequestId : Option String := none
  role : Option String := none
  trialId : Option String := none
  referenceRequestId : Option String := none
  reuseBlockIndex : Option Int := none
  queries : List (Option String) := []
  expectedAnswer : Option String := none
deriving DecidableEq, Repr

structure ReportedPlan where
  transitionId : Option String := none
  blockSize : Option Int := none
  nativeCachedTokens : Option Int := none
deriving DecidableEq, Repr

/-- The field `cacheselect_partial_reuse_plan` of the server's metrics. -/
inductive PlanField
  | missing
  | notObject
  | plan (p : ReportedPlan)
deriving DecidableEq, Repr

/-- What a `request_completed` event tells about the response. -/
structure CompletedRequest where
  text : Option String := none
  finishReason : Option String := none
  promptTokenIds : Option (List Nat) := none
  plan : PlanField := .missing
deriving DecidableEq, Repr

inductive TrialEvent
  | started (request : StartedRequest)
  | completed (requestId : String) (response : CompletedRequest)
  | failed (requestId : String)
deriving DecidableEq, Repr

namespace TrialEvent

/-- The line of the event, as the audit of the ledger reads it. -/
def line : TrialEvent → LedgerLine
  | started request => .event (some request.requestId) (some "request_started")
  | completed requestId _ => .event (some requestId) (some "request_completed")
  | failed requestId => .event (some requestId) (some "request_failed")

def startedPair : TrialEvent → Option (String × StartedRequest)
  | started request => some (request.requestId, request)
  | _ => none

def completedPair : TrialEvent → Option (String × CompletedRequest)
  | completed requestId response => some (requestId, response)
  | _ => none

end TrialEvent

/-! ### Ledgers -/

/-- The events of a ledger by their request ids. -/
structure TrialLedger where
  started : List (String × StartedRequest)
  completed : List (String × CompletedRequest)

/-- `_load_ledger`. -/
def loadLedger (path : String) (events : List TrialEvent) : Except Raised TrialLedger :=
  match validateLedger path (events.map TrialEvent.line) with
  | .error e => .error (.valueError (e.message (fun _ => "") path))
  | .ok validation =>
      if validation.isComplete = false ∨ validation.failed ≠ 0 then
        .error (.valueError "MTRAG review requires a complete successful request ledger")
      else .ok {
        started := ofPairs (events.filterMap TrialEvent.startedPair)
        completed := ofPairs (events.filterMap TrialEvent.completedPair) }

namespace TrialLedger

/-- `started.values()`. -/
def requests (l : TrialLedger) : List StartedRequest :=
  l.started.map Prod.snd

/-- `completed[request_id]`. -/
def response (l : TrialLedger) (requestId : String) : Except Raised CompletedRequest :=
  match get l.completed requestId with
  | none => .error .keyError
  | some response => .ok response

/-- The requests of a trial by their roles. -/
def roles (l : TrialLedger) (trialId : Option String) : List (Option String × StartedRequest) :=
  ofPairs ((l.requests.filter fun r => r.trialId = trialId).map fun r => (r.role, r))

end TrialLedger

/-! ### Summaries -/

/-- The counts that the summaries of cases and of runs have. -/
structure CountRecord where
  trialCount : Option Int := none
  validTrainingRows : Option Int := none
  invalidTrials : Option Int := none
  abstainedTrials : Option Int := none
  referenceDriftTrials : Option Int := none
  repairLabels : Option Int := none
  reuseLabels : Option Int := none
deriving DecidableEq, Repr

/-- What is read of the summary of a case. -/
structure CaseSummary extends CountRecord where
  status : Option String := none
  sourceCaseIndex : Option Int := none
  discoveryId : Option String := none
  skippedTargetBlocks : Option Int := none
  traceId : Option String := none
  transitionId : Option String := none
  split : Option String := none
  collection : Option String := none
  currentTaskId : Option String := none
deriving DecidableEq, Repr

structure RunSummary extends CountRecord where
  experiment : Option String := none
  caseCount : Option Int := none
  sourceCaseStart : Option Int := none
  sourceCaseCount : Option Int := none
  cases : List CaseSummary := []
deriving DecidableEq, Repr

/-- `record[key]`. -/
def required {α : Type} : Option α → Except Raised α
  | none => .error .keyError
  | some a => .ok a

theorem TrialLedger.response_eq_ok {l : TrialLedger} {requestId : String} {r : CompletedRequest} :
    l.response requestId = .ok r ↔ get l.completed requestId = some r := by
  rw [TrialLedger.response]
  cases get l.completed requestId with
  | none => exact ⟨nofun, nofun⟩
  | some b => simp

/-! ### Ledgers that are loaded -/

namespace TrialEvent

def startedId : TrialEvent → Option String
  | started request => some request.requestId
  | _ => none

def completedId : TrialEvent → Option String
  | completed requestId _ => some requestId
  | _ => none

/-- The request that the event ends. -/
def endedId : TrialEvent → Option String
  | started _ => none
  | completed requestId _ => some requestId
  | failed requestId => some requestId

theorem startOf_trialLine (e : TrialEvent) : e.line.startOf = e.startedId := by
  cases e <;> rfl

theorem endOf_trialLine (e : TrialEvent) : e.line.endOf = e.endedId := by
  cases e <;> rfl

theorem keys_startedPair (events : List TrialEvent) :
    keys (events.filterMap startedPair) = events.filterMap startedId := by
  rw [keys, List.map_filterMap]
  refine List.filterMap_congr fun e _ => ?_
  cases e <;> rfl

theorem keys_completedPair (events : List TrialEvent) :
    keys (events.filterMap completedPair) = events.filterMap completedId := by
  rw [keys, List.map_filterMap]
  refine List.filterMap_congr fun e _ => ?_
  cases e <;> rfl

end TrialEvent

open TrialEvent

/-- Every request has one start and one completion, and nothing else is in the ledger. -/
structure Complete (events : List TrialEvent) : Prop where
  noFailure : ∀ id, failed id ∉ events
  ids : ∀ id ∈ events.filterMap startedId, id ≠ ""
  nodup : (events.filterMap startedId).Nodup
  matched : (events.filterMap completedId).Perm (events.filterMap startedId)

theorem endedIds_eq {events : List TrialEvent} (h : ∀ id, failed id ∉ events) :
    events.filterMap endedId = events.filterMap completedId := by
  refine List.filterMap_congr fun e he => ?_
  cases e with
  | started r => rfl
  | completed id r => rfl
  | failed id => exact absurd he (h id)

theorem failed_eq_zero (path : String) (events : List TrialEvent) :
    (summaryOf path (events.map line)).failed = 0 ↔ ∀ id, failed id ∉ events := by
  rw [summaryOf, List.countP_eq_zero, List.forall_mem_map]
  constructor
  · intro h id hid
    exact h _ hid rfl
  · intro h e he
    cases e with
    | started r =>
        intro hfailed
        cases hfailed
    | completed id r =>
        intro hfailed
        have : "request_completed" = "request_failed" := of_decide_eq_true hfailed
        revert this
        decide
    | failed id => exact absurd he (h id)

theorem isComplete_iff (path : String) (lines : List LedgerLine) :
    (summaryOf path lines).isComplete = true ↔
      ∀ id ∈ lines.filterMap LedgerLine.startOf, id ∈ lines.filterMap LedgerLine.endOf := by
  rw [LedgerSummary.isComplete, summaryOf, List.isEmpty_iff, List.eq_nil_iff_forall_not_mem]
  simp only [mem_sortedDifference, not_and, not_not]

/-- **The ledgers that are loaded** are the complete ones. -/
theorem loadLedger_eq_ok {path : String} {events : List TrialEvent} {l : TrialLedger} :
    loadLedger path events = .ok l ↔ Complete events ∧
      l = { started := events.filterMap startedPair, completed := events.filterMap completedPair } := by
  have hstarts : (events.map line).filterMap LedgerLine.startOf = events.filterMap startedId := by
    rw [List.filterMap_map]
    exact List.filterMap_congr fun e _ => startOf_trialLine e
  have hends : (events.map line).filterMap LedgerLine.endOf = events.filterMap endedId := by
    rw [List.filterMap_map]
    exact List.filterMap_congr fun e _ => endOf_trialLine e
  have hload : Complete events ↔ Paired (events.map line) ∧
      (summaryOf path (events.map line)).isComplete = true ∧
      (summaryOf path (events.map line)).failed = 0 := by
    rw [← accepted_iff_paired, isComplete_iff, failed_eq_zero, hstarts, hends]
    constructor
    · intro h
      have hended := endedIds_eq h.noFailure
      refine ⟨{ isEvent := ?_, nodupStarts := ?_, nodupEnds := ?_, started := ?_ }, ?_, h.noFailure⟩
      · refine List.forall_mem_map.mpr fun e he => ?_
        cases e with
        | started r => exact ⟨r.requestId, h.ids _ (List.mem_filterMap.mpr ⟨_, he, rfl⟩), Or.inl rfl⟩
        | completed id r =>
            have hid : id ∈ events.filterMap completedId := List.mem_filterMap.mpr ⟨_, he, rfl⟩
            exact ⟨id, h.ids id (h.matched.mem_iff.mp hid), Or.inr rfl⟩
        | failed id => exact absurd he (h.noFailure id)
      · rw [hstarts]
        exact h.nodup
      · rw [hends, hended]
        exact h.matched.nodup_iff.mpr h.nodup
      · rw [hstarts, hends, hended]
        exact fun id => h.matched.mem_iff.mp
      · rw [hended]
        exact fun id => h.matched.mem_iff.mpr
    · rintro ⟨h, hcomplete, hfailed⟩
      have hended := endedIds_eq hfailed
      have hndStarts := h.nodupStarts
      have hndEnds := h.nodupEnds
      have hstarted := h.started
      rw [hstarts] at hndStarts
      rw [hends, hended] at hndEnds
      rw [hstarts, hends, hended] at hstarted
      rw [hended] at hcomplete
      refine { noFailure := hfailed, ids := ?_, nodup := hndStarts, matched := ?_ }
      · intro id hid
        obtain ⟨e, he, hof⟩ := List.mem_filterMap.mp hid
        obtain ⟨id', hne, hid'⟩ := h.isEvent _ (List.mem_map_of_mem he)
        rw [startOf_trialLine, endOf_trialLine] at hid'
        rcases hid' with hid' | hid'
        · rw [hof] at hid'
          exact Option.some.inj hid' ▸ hne
        · cases e with
          | started r => cases hid'
          | completed id r => cases hof
          | failed id => cases hof
      · refine (List.perm_ext_iff_of_nodup hndEnds hndStarts).mpr fun id => ?_
        exact ⟨hstarted id, hcomplete id⟩
  rw [loadLedger]
  cases hv : validateLedger path (events.map line) with
  | error e =>
      refine ⟨nofun, ?_⟩
      rintro ⟨h, -⟩
      have hok : validateLedger path (events.map line) = .ok (summaryOf path (events.map line)) :=
        validateLedger_eq_ok.mpr ⟨(hload.mp h).1, rfl⟩
      rw [hv] at hok
      cases hok
  | ok v =>
      obtain ⟨hpaired, rfl⟩ := validateLedger_eq_ok.mp hv
      dsimp only
      by_cases hok : (summaryOf path (events.map line)).isComplete = true ∧
          (summaryOf path (events.map line)).failed = 0
      · have hif : ¬ ((summaryOf path (events.map line)).isComplete = false ∨
            (summaryOf path (events.map line)).failed ≠ 0) := by
          rw [not_or, Bool.not_eq_false, not_not]
          exact hok
        have hc := hload.mpr ⟨hpaired, hok⟩
        have hstartedKeys : (keys (events.filterMap startedPair)).Nodup := by
          rw [keys_startedPair]
          exact hc.nodup
        have hcompletedKeys : (keys (events.filterMap completedPair)).Nodup := by
          rw [keys_completedPair]
          exact hc.matched.nodup_iff.mpr hc.nodup
        rw [if_neg hif, ofPairs_of_nodup hstartedKeys, ofPairs_of_nodup hcompletedKeys, Except.ok.injEq,
          eq_comm, and_iff_right hc]
      · have hif : (summaryOf path (events.map line)).isComplete = false ∨
            (summaryOf path (events.map line)).failed ≠ 0 := by
          rw [not_and_or, Bool.not_eq_true] at hok
          exact hok
        rw [if_pos hif]
        exact ⟨nofun, fun h => absurd (hload.mp h.1).2 hok⟩

end CacheSelect.Benchmarks

import CacheSelect.Benchmarks.BlindedReview
import CacheSelect.Benchmarks.BlockDataset
import CacheSelect.Benchmarks.TrialLedger
import CacheSelect.Features.SelectorFeatures
import CacheSelect.Lib.TextSpans

/-! # The curated dataset

`curate` merges the labels of the trials with equal answers, which the automatic table has, with the decisions of
the unblinded review.  A trial is named by its transition and the block that its intervention reused.

The coverage of the trials is checked by two counts: `unblind` wants as many decisions as the identity key has
rows, and `curate` as many rows as there are valid trials without an abstention.  `curation_covers` says when a
directory that passes both has every trial once.
-/

namespace CacheSelect.Benchmarks

open OrderedDict Features

/-! ### Features of a trial -/

/-- The exception of the feature code. -/
def ofPyError : Core.PyError → Raised
  | .valueError message => .valueError message
  | .runtimeError message => .runtimeError message
  | .assertionError => .other "AssertionError"
  | .indexError => .indexError
  | .keyError => .keyError
  | .typeError => .typeError
  | .overflowError => .other "OverflowError"
  | .zeroDivisionError => .other "ZeroDivisionError"

def liftPy {α : Type} : Except Core.PyError α → Except Raised α
  | .error e => .error (ofPyError e)
  | .ok a => .ok a

/-- What the curation uses of the language and its library: `!r`, `int` of a text, the digest of a text, and the
opcodes of `difflib`. -/
structure CurationTools where
  repr : Option String → String
  parseInt : String → Option Int
  sha256 : String → HexDigest
  opcodes : List Nat → List Nat → List Opcode

/-- `_prompt_tokens`. -/
def promptTokens (response : CompletedRequest) (role : String) : Except Raised (List Nat) :=
  match response.promptTokenIds with
  | none => .error (.valueError s!"{role} request has invalid prompt token IDs")
  | some tokens =>
      if tokens = [] then .error (.valueError s!"{role} request has invalid prompt token IDs")
      else .ok tokens

/-- `analyze_reuse_opportunity` for the geometry of a plan. -/
def analyzePlan (previous current : List Nat) (nativeTokens blockSize : Int) :
    Except Raised ReuseOpportunity :=
  if blockSize < 1 then .error (.valueError "block_size must be positive")
  else if nativeTokens < 0 then
    .error (.valueError "native_cached_tokens must be between zero and current token count")
  else liftPy (analyzeReuseOpportunity previous current nativeTokens.toNat blockSize.toNat)

structure TrialEvidence where
  previous : List Nat
  current : List Nat
  opportunity : ReuseOpportunity
  transitionId : Option String

/-- What `_reviewed_feature` and `_context_feature` read of a trial before they extract features. -/
def trialEvidence (t : CurationTools) (l : TrialLedger) (trialId : Option String) (lacking : String) :
    Except Raised TrialEvidence :=
  match get (l.roles trialId) (some "donor"), get (l.roles trialId) (some "intervention") with
  | some donor, some intervention => do
      let donor ← l.response donor.requestId
      let intervention ← l.response intervention.requestId
      match intervention.plan with
      | .plan plan =>
          match plan.blockSize, plan.nativeCachedTokens with
          | some blockSize, some nativeTokens => do
              let previous ← promptTokens donor "donor"
              let current ← promptTokens intervention "intervention"
              let opportunity ← analyzePlan previous current nativeTokens blockSize
              .ok { previous, current, opportunity, transitionId := plan.transitionId }
          | _, _ => .error (.valueError s!"trial {t.repr trialId} has invalid cache geometry")
      | _ => .error (.valueError s!"trial {t.repr trialId} has no partial-reuse plan")
  | _, _ => .error (.valueError s!"trial {t.repr trialId} lacks {lacking}")

/-- The only match, of a transition that is a text. -/
def uniqueMatch {α : Type} (missing : String) (transitionId : Option String) :
    List α → Except Raised (α × String)
  | [a] => match transitionId with
      | some transitionId => .ok (a, transitionId)
      | none => .error (.valueError missing)
  | _ => .error (.valueError missing)

/-- `_reviewed_feature`. -/
def reviewedFeature (t : CurationTools) (l : TrialLedger) (d : DecisionRow) :
    Except Raised (CandidateBlockFeatures × String) := do
  let e ← trialEvidence t l d.trialId "donor or intervention evidence"
  let features ← liftPy (extractCandidateBlockFeatures e.previous e.current e.opportunity)
  uniqueMatch s!"trial {t.repr d.trialId} has no unique feature row" e.transitionId
    (features.filter fun f => some (f.candidateBlockIndex : Int) = d.blockIndex)

/-- `_context_feature`. -/
def contextFeature (t : CurationTools) (l : TrialLedger) (trialId : Option String) (blockIndex : Int) :
    Except Raised (CandidateContextFeatures × String) := do
  let e ← trialEvidence t l trialId "context-feature evidence"
  let contexts ← liftPy (extractCandidateContextFeatures t.opcodes e.previous e.current e.opportunity)
  uniqueMatch s!"trial {t.repr trialId} has no unique context feature row" e.transitionId
    (((e.opportunity.candidateBlocks.zip contexts).filter fun p =>
      (p.1.currentBlockIndex : Int) = blockIndex).map Prod.snd)

/-! ### The tables -/

/-- A trial is named by its transition and the block that it tests. -/
abbrev Trial := String × String

/-- `str` of a field. -/
def strOf {α : Type} [ToString α] : Option α → String
  | none => "None"
  | some a => toString a

/-- `plan.get("transition_id")`, where a missing plan is an empty one. -/
def PlanField.transitionId : PlanField → Except Raised (Option String)
  | .missing => .ok none
  | .notObject => .error .attributeError
  | .plan p => .ok p.transitionId

/-- `_trial_ids_by_block`: a pair for each intervention. -/
def trialPair (l : TrialLedger) (r : StartedRequest) : Except Raised (Trial × Option String) := do
  let response ← l.response r.requestId
  let transitionId ← response.plan.transitionId
  .ok ((strOf transitionId, strOf r.reuseBlockIndex), r.trialId)

def trialIdsByBlock (l : TrialLedger) : Except Raised (List (Trial × Option String)) := do
  let pairs ← (l.requests.filter fun r => r.role = some "intervention").mapM (trialPair l)
  if (keys pairs).Nodup then .ok pairs
  else .error (.valueError "request ledger contains a duplicate block trial")

/-- A row of the automatic table, without the other columns of features. -/
structure AutomaticRow where
  traceId : String
  transitionId : String
  split : String
  decision : String
  labelSource : String
  labelReason : String
  candidateBlockIndex : String
  caseIndex : String
  collection : String
  conversationId : String
  currentTaskId : String
deriving DecidableEq, Repr

def AutomaticRow.trial (row : AutomaticRow) : Trial :=
  (row.transitionId, row.candidateBlockIndex)

/-- A row of the curated table; a row of the review brings its block features, and every row gets its context
features. -/
structure CuratedRow extends AutomaticRow where
  trialId : Option String
  adjudication : String
  reviewId : Option String
  reviewVerdict : Option Verdict
  reviewReason : String
  features : Option CandidateBlockFeatures
  context : Option CandidateContextFeatures := none
deriving DecidableEq

def CuratedRow.trial (row : CuratedRow) : Trial :=
  row.toAutomaticRow.trial

/-- The completed cases by their transitions. -/
def casesByTransition (summary : RunSummary) : Except Raised (List (String × Int × CaseSummary)) := do
  let completed := (summary.cases.zipIdx 1).filter fun c => c.1.status.getD "completed" = "completed"
  let pairs ← completed.mapM fun (case, index) => do
    let transitionId ← required case.transitionId
    .ok (transitionId, case.sourceCaseIndex.getD index, case)
  .ok (ofPairs pairs)

/-- A row of the automatic table with the id of its trial. -/
def exactRow (trialIds : List (Trial × Option String)) (row : AutomaticRow) : Except Raised CuratedRow := do
  let trialId ← required (get trialIds row.trial)
  .ok { row with
    trialId := trialId
    adjudication := "exact_output_match"
    reviewId := some ""
    reviewVerdict := none
    reviewReason := ""
    features := none }

/-- `task_id.split("<::>", 1)[0]`. -/
def conversationOf (taskId : String) : String :=
  match TextSpans.find taskId.toList "<::>".toList 0 with
  | none => taskId
  | some p => String.ofList (taskId.toList.take p)

def Decision.value : Decision → String
  | .reuse => "reuse"
  | .repair => "repair"
  | .abstain => "abstain"

/-- The row of a decision of the review. -/
def reviewedRow (t : CurationTools) (l : TrialLedger) (cases : List (String × Int × CaseSummary))
    (d : DecisionRow) : Except Raised CuratedRow := do
  let (features, transitionId) ← reviewedFeature t l d
  let (caseIndex, case) ← required (get cases transitionId)
  let traceId ← required case.traceId
  let split ← required case.split
  let collection ← required case.collection
  let currentTaskId ← required case.currentTaskId
  .ok {
    traceId, transitionId, split
    decision := d.decision.value
    labelSource := "counterfactual_execution"
    labelReason := s!"Blinded semantic review: {d.reason}"
    candidateBlockIndex := toString (features.candidateBlockIndex : Int)
    caseIndex := toString caseIndex
    collection
    conversationId := conversationOf currentTaskId
    currentTaskId
    trialId := d.trialId
    adjudication := "blinded_semantic_review"
    reviewId := d.reviewId
    reviewVerdict := some d.blindVerdict
    reviewReason := d.reason
    features := some features }

/-- `int(text)`. -/
def intOf (t : CurationTools) (text : String) : Except Raised Int :=
  match t.parseInt text with
  | none => .error (.valueError s!"invalid literal for int() with base 10: {t.repr (some text)}")
  | some n => .ok n

/-- `SELECTOR_SPLIT_SEED`. -/
def selectorSplitSeed : String :=
  "cacheselect-mtrag-selector-v1"

/-- The row with its split and its context features. -/
def withContext (t : CurationTools) (l : TrialLedger) (row : CuratedRow) : Except Raised CuratedRow := do
  let split ← mtragConversationSplit t.sha256 row.conversationId selectorSplitSeed
  let blockIndex ← intOf t row.candidateBlockIndex
  let (context, transitionId) ← contextFeature t l row.trialId blockIndex
  if transitionId ≠ row.transitionId then
    .error (.valueError "context features belong to a different transition")
  else .ok { row with split := split.value, context := some context }

/-- `summary.get("trial_count") - summary.get("invalid_trials", 0) - abstention_count`. -/
def expectedRows (summary : RunSummary) (abstentions : Nat) : Except Raised Int :=
  match summary.trialCount with
  | none => .error .typeError
  | some trialCount => .ok (trialCount - summary.invalidTrials.getD 0 - abstentions)

/-- The rows ordered by case and block. -/
def sortRows (t : CurationTools) (rows : List CuratedRow) : Except Raised (List CuratedRow) := do
  let keyed ← rows.mapM fun row => do
    let caseIndex ← intOf t row.caseIndex
    let blockIndex ← intOf t row.candidateBlockIndex
    .ok (toLex (caseIndex, blockIndex), row)
  .ok ((keyed.mergeSort fun a b => decide (a.1 ≤ b.1)).map Prod.snd)

structure CurationReport where
  sourceTrialCount : Option Int
  rowCount : Nat
  exactMatchRows : Nat
  semanticReviewRows : Int
  abstainedTrials : Nat
  reuseLabels : Nat
  repairLabels : Nat
deriving DecidableEq, Repr

/-- `curate_mtrag_counterfactual_dataset`, for the audit of the same review, key and ledger. -/
def curate (t : CurationTools) (l : TrialLedger) (summary : RunSummary) (automatic : List AutomaticRow)
    (audit : ReviewAudit) : Except Raised (List CuratedRow × CurationReport) := do
  let cases ← casesByTransition summary
  let trialIds ← trialIdsByBlock l
  let exact ← automatic.mapM (exactRow trialIds)
  -- unresolved trials stay in the audit and never become labels
  let reviewed ← (audit.rows.filter fun d => d.decision ≠ .abstain).mapM (reviewedRow t l cases)
  let rows ← (exact ++ reviewed).mapM (withContext t l)
  let expected ← expectedRows summary audit.abstentions
  if ¬ (rows.map CuratedRow.trial).Nodup ∨ (rows.length : Int) ≠ expected then
    .error (.valueError "curated rows do not cover every resolved pilot trial")
  else do
    let sorted ← sortRows t rows
    .ok (sorted, {
      sourceTrialCount := summary.trialCount
      rowCount := rows.length
      exactMatchRows := exact.length
      semanticReviewRows := (audit.reviewedTrials : Int) - audit.abstentions
      abstainedTrials := audit.abstentions
      reuseLabels := rows.countP fun row => row.decision = "reuse"
      repairLabels := rows.countP fun row => row.decision = "repair" })

/-- The files that the two programs read. -/
structure ResultDirectory where
  events : List TrialEvent
  summary : RunSummary
  automatic : List AutomaticRow
  review : List ReviewRow
  key : List KeyRow

/-- What the two programs leave behind. -/
structure Curated where
  ledger : TrialLedger
  audit : ReviewAudit
  rows : List CuratedRow
  report : CurationReport

/-- Unblinding and curation of one directory. -/
def ResultDirectory.curate (t : CurationTools) (path : String) (d : ResultDirectory) :
    Except Raised Curated := do
  let audit ← unblind t.repr d.review d.key
  let ledger ← loadLedger path d.events
  let (rows, report) ← Benchmarks.curate t ledger d.summary d.automatic audit
  .ok { ledger, audit, rows, report }

/-! ### Trials -/

/-- The trial that an id and a block name. -/
def trialOf (l : TrialLedger) (trialId : Option String) (blockIndex : Option Int) : Option Trial :=
  match get (l.roles trialId) (some "intervention") with
  | none => none
  | some intervention =>
      match get l.completed intervention.requestId with
      | some { plan := .plan plan, .. } =>
          match plan.transitionId, blockIndex with
          | some transitionId, some blockIndex => some (transitionId, toString blockIndex)
          | _, _ => none
      | _ => none

def DecisionRow.trial (l : TrialLedger) (d : DecisionRow) : Option Trial :=
  trialOf l d.trialId d.blockIndex

def KeyRow.trial (l : TrialLedger) (k : KeyRow) : Option Trial :=
  trialOf l k.trialId k.blockIndex

/-- The trials of the interventions of a ledger. -/
def trialsOf (l : TrialLedger) : List Trial :=
  match trialIdsByBlock l with
  | .ok trialIds => keys trialIds
  | .error _ => []

theorem uniqueMatch_eq_ok {α : Type} {missing : String} {transitionId : Option String} {as : List α}
    {a : α} {id : String} :
    uniqueMatch missing transitionId as = .ok (a, id) ↔ as = [a] ∧ transitionId = some id := by
  rw [uniqueMatch.eq_def]
  rcases as with _ | ⟨b, _ | ⟨c, as⟩⟩
  · exact ⟨nofun, nofun⟩
  · cases transitionId <;> simp
  · exact ⟨nofun, nofun⟩

theorem trialEvidence_trial {t : CurationTools} {l : TrialLedger} {trialId : Option String}
    {lacking transitionId : String} {e : TrialEvidence} (h : trialEvidence t l trialId lacking = .ok e)
    (hid : e.transitionId = some transitionId) (blockIndex : Int) :
    trialOf l trialId (some blockIndex) = some (transitionId, toString blockIndex) := by
  rw [trialEvidence] at h
  split at h
  · next donor intervention hdonor hintervention =>
    obtain ⟨donorResponse, -, h⟩ := Except.bind_eq_ok.mp h
    obtain ⟨response, hresponse, h⟩ := Except.bind_eq_ok.mp h
    rw [TrialLedger.response_eq_ok] at hresponse
    split at h
    · next plan hplan =>
      split at h
      · obtain ⟨previous, -, h⟩ := Except.bind_eq_ok.mp h
        obtain ⟨current, -, h⟩ := Except.bind_eq_ok.mp h
        obtain ⟨opportunity, -, h⟩ := Except.bind_eq_ok.mp h
        cases h
        obtain ⟨text, finishReason, tokens, plan'⟩ := response
        change plan' = _ at hplan
        subst hplan
        change plan.transitionId = _ at hid
        rw [trialOf, hintervention]
        dsimp only
        rw [hresponse]
        dsimp only
        rw [hid]
      · cases h
    · cases h
  · cases h

/-- **The row of a decision** is about the trial that the decision names. -/
theorem reviewedRow_trial {t : CurationTools} {l : TrialLedger} {cases : List (String × Int × CaseSummary)}
    {d : DecisionRow} {row : CuratedRow} (h : reviewedRow t l cases d = .ok row) :
    d.trial l = some row.trial := by
  rw [reviewedRow] at h
  simp only [Except.bind_eq_ok] at h
  obtain ⟨⟨features, transitionId⟩, hfeature, ⟨caseIndex, case⟩, -, traceId, -, split, -, collection, -,
    taskId, -, h⟩ := h
  cases h
  rw [reviewedFeature] at hfeature
  obtain ⟨e, he, hfeature⟩ := Except.bind_eq_ok.mp hfeature
  obtain ⟨all, -, hfeature⟩ := Except.bind_eq_ok.mp hfeature
  obtain ⟨honly, hid⟩ := uniqueMatch_eq_ok.mp hfeature
  have hmem : features ∈ all.filter fun f => some (f.candidateBlockIndex : Int) = d.blockIndex := by
    rw [honly]
    exact List.mem_singleton_self _
  have hblock := of_decide_eq_true (List.mem_filter.mp hmem).2
  rw [DecisionRow.trial, ← hblock]
  exact trialEvidence_trial he hid _

theorem withContext_trial {t : CurationTools} {l : TrialLedger} {row row' : CuratedRow}
    (h : withContext t l row = .ok row') : row'.trial = row.trial := by
  rw [withContext] at h
  simp only [Except.bind_eq_ok] at h
  obtain ⟨split, -, blockIndex, -, ⟨context, transitionId⟩, -, h⟩ := h
  split at h
  · cases h
  · cases h
    rfl

theorem exactRow_trial {trialIds : List (Trial × Option String)} {row : AutomaticRow} {row' : CuratedRow}
    (h : exactRow trialIds row = .ok row') : row'.trial = row.trial := by
  rw [exactRow] at h
  obtain ⟨trialId, -, h⟩ := Except.bind_eq_ok.mp h
  cases h
  rfl

theorem sortRows_perm {t : CurationTools} {rows sorted : List CuratedRow}
    (h : sortRows t rows = .ok sorted) : sorted.Perm rows := by
  rw [sortRows] at h
  obtain ⟨keyed, hkeyed, h⟩ := Except.bind_eq_ok.mp h
  cases h
  refine ((List.mergeSort_perm ..).map Prod.snd).trans ?_
  have hsnd : keyed.map Prod.snd = rows.map id := by
    refine Except.map_eq_map_of_mapM ?_ hkeyed
    intro row k hrow
    obtain ⟨caseIndex, -, hrow⟩ := Except.bind_eq_ok.mp hrow
    obtain ⟨blockIndex, -, hrow⟩ := Except.bind_eq_ok.mp hrow
    cases hrow
    rfl
  rw [hsnd, List.map_id]

/-! ### Coverage -/

theorem nodup_keys_trialIds {l : TrialLedger} {trialIds : List (Trial × Option String)}
    (h : trialIdsByBlock l = .ok trialIds) : (keys trialIds).Nodup := by
  rw [trialIdsByBlock] at h
  obtain ⟨pairs, -, h⟩ := Except.bind_eq_ok.mp h
  split at h
  · next hnd =>
    cases h
    exact hnd
  · cases h

theorem nodup_trialsOf (l : TrialLedger) : (trialsOf l).Nodup := by
  rw [trialsOf]
  cases h : trialIdsByBlock l with
  | error e => exact List.nodup_nil
  | ok trialIds => exact nodup_keys_trialIds h

/-- **The rows of a curated table** are those of the automatic table and of the decisions that are no
abstentions. -/
theorem curate_trials {t : CurationTools} {l : TrialLedger} {summary : RunSummary}
    {automatic : List AutomaticRow} {audit : ReviewAudit} {rows : List CuratedRow} {report : CurationReport}
    (h : curate t l summary automatic audit = .ok (rows, report)) :
    ((rows.map CuratedRow.trial).map some).Perm ((automatic.map AutomaticRow.trial).map some ++
      (audit.rows.filter fun d => d.decision ≠ .abstain).map (DecisionRow.trial l)) := by
  rw [curate] at h
  simp only [Except.bind_eq_ok] at h
  obtain ⟨cases, -, trialIds, -, exact, hexact, reviewed, hreviewed, merged, hmerged, expected, -, h⟩ := h
  split at h
  · cases h
  · obtain ⟨sorted, hsorted, h⟩ := Except.bind_eq_ok.mp h
    cases h
    have hreviewedTrials : (reviewed.map CuratedRow.trial).map some
        = (audit.rows.filter fun d => d.decision ≠ .abstain).map (DecisionRow.trial l) := by
      rw [List.map_map]
      exact Except.map_eq_map_of_mapM (fun _ _ hrow => (reviewedRow_trial hrow).symm) hreviewed
    refine (((sortRows_perm hsorted).map CuratedRow.trial).map some).trans ?_
    rw [Except.map_eq_map_of_mapM (fun _ _ => withContext_trial) hmerged, List.map_append,
      List.map_append, Except.map_eq_map_of_mapM (fun _ _ => exactRow_trial) hexact, hreviewedTrials]

/-- **The decisions of a review without repeated ids** are about the trials of the key. -/
theorem unblind_trials {t : CurationTools} {review : List ReviewRow} {key : List KeyRow}
    {audit : ReviewAudit} (l : TrialLedger) (h : unblind t.repr review key = .ok audit)
    (hnd : (review.map ReviewRow.reviewId).Nodup) :
    (review.map ReviewRow.reviewId).Perm (key.map KeyRow.reviewId) ∧
      (audit.rows.map (DecisionRow.trial l)).Perm (key.map (KeyRow.trial l)) := by
  obtain ⟨hkeys, hrows, hlen, -⟩ := unblind_eq_ok.mp h
  let byId : List (Option String × KeyRow) := key.map fun row => (row.reviewId, row)
  have hbyId : keys byId = key.map KeyRow.reviewId := by
    rw [keys, List.map_map]
    rfl
  have hids : (review.map ReviewRow.reviewId).Perm (key.map KeyRow.reviewId) := by
    have hsub : review.map ReviewRow.reviewId ⊆ key.map KeyRow.reviewId := by
      intro id hid
      obtain ⟨row, hrow, rfl⟩ := List.mem_map.mp hid
      obtain ⟨d, -, hd⟩ := Except.exists_ok_of_mapM hrows hrow
      obtain ⟨verdict, k, -, -, hk, -⟩ := decideRow_eq_ok.mp hd
      rw [← hbyId]
      exact mem_keys_iff_get.mpr (Option.isSome_iff_exists.mpr ⟨k, hk⟩)
    exact (hnd.subperm hsub).perm_of_length_le (by rw [List.length_map, List.length_map, hlen])
  refine ⟨hids, ?_⟩
  let trialOfId : Option String → Option Trial := fun id => (get byId id).bind (KeyRow.trial l)
  have hdecisions : audit.rows.map (DecisionRow.trial l)
      = review.map fun row => trialOfId row.reviewId := by
    refine Except.map_eq_map_of_mapM ?_ hrows
    intro row d hd
    obtain ⟨verdict, k, -, -, hk, rfl⟩ := decideRow_eq_ok.mp hd
    change _ = (get byId row.reviewId).bind _
    rw [hk]
    rfl
  have hkeyTrials : key.map (KeyRow.trial l) = key.map fun k => trialOfId k.reviewId := by
    refine List.map_congr_left fun k hk => ?_
    change _ = (get byId k.reviewId).bind _
    have hget : get byId k.reviewId = some k :=
      get_of_mem (hbyId.symm ▸ hkeys) (List.mem_map.mpr ⟨k, hk, rfl⟩)
    rw [hget]
    rfl
  rw [hdecisions, hkeyTrials]
  have := hids.map trialOfId
  rwa [List.map_map, List.map_map] at this

/-- A decision of the review leaves the trial without a label. -/
def abstains (l : TrialLedger) (decisions : List DecisionRow) (t : Trial) : Bool :=
  decisions.any fun d => d.decision = .abstain ∧ d.trial l = some t

/-- **Abstentions are counted once.**  Where the decisions are about different valid trials, the table has the
valid trials without an abstention iff it has, with all decisions, the valid trials. -/
theorem table_perm_iff {l : TrialLedger} {decisions : List DecisionRow} {valid : List Trial}
    {automatic rows : List Trial} (hvalid : valid.Nodup)
    (hnd : (decisions.map (DecisionRow.trial l)).Nodup)
    (hin : ∀ t ∈ decisions.map (DecisionRow.trial l), t ∈ valid.map some)
    (hrows : (rows.map some).Perm (automatic.map some ++
      (decisions.filter fun d => d.decision ≠ .abstain).map (DecisionRow.trial l))) :
    rows.Perm (valid.filter fun t => !abstains l decisions t) ↔
      (automatic.map some ++ decisions.map (DecisionRow.trial l)).Perm (valid.map some) := by
  let labelled := (decisions.filter fun d => d.decision ≠ .abstain).map (DecisionRow.trial l)
  let abstained := (decisions.filter fun d => !decide (d.decision ≠ .abstain)).map (DecisionRow.trial l)
  have hsplit : (labelled ++ abstained).Perm (decisions.map (DecisionRow.trial l)) := by
    have := (List.filter_append_perm (fun d : DecisionRow => decide (d.decision ≠ .abstain)) decisions).map
      (DecisionRow.trial l)
    rwa [List.map_append] at this
  have habstained : abstained.Perm ((valid.filter fun t => !!abstains l decisions t).map some) := by
    have hsub : abstained.Nodup := (List.nodup_append.mp (hsplit.nodup_iff.mpr hnd)).2.1
    refine (List.perm_ext_iff_of_nodup hsub ((hvalid.filter _).map (Option.some_injective _))).mpr ?_
    intro o
    simp only [abstained, List.mem_map, List.mem_filter, Bool.not_not, abstains, List.any_eq_true,
      decide_eq_true_eq, Bool.not_eq_true', decide_eq_false_iff_not, not_not]
    constructor
    · rintro ⟨d, ⟨hd, habstain⟩, rfl⟩
      obtain ⟨t, ht, heq⟩ := List.mem_map.mp (hin _ (List.mem_map_of_mem hd))
      exact ⟨t, ⟨ht, d, hd, habstain, heq.symm⟩, heq⟩
    · rintro ⟨t, ⟨-, d, hd, habstain, heq⟩, rfl⟩
      exact ⟨d, ⟨hd, habstain⟩, heq⟩
  have hall : ((valid.filter fun t => !abstains l decisions t).map some ++ abstained).Perm
      (valid.map some) := by
    have := (List.filter_append_perm (fun t => !abstains l decisions t) valid).map some
    rw [List.map_append] at this
    exact (habstained.append_left _).trans this
  calc rows.Perm (valid.filter fun t => !abstains l decisions t)
      ↔ (rows.map some).Perm ((valid.filter fun t => !abstains l decisions t).map some) :=
        (List.map_perm_map_iff (Option.some_injective _)).symm
    _ ↔ (automatic.map some ++ labelled).Perm ((valid.filter fun t => !abstains l decisions t).map some) :=
        ⟨hrows.symm.trans, hrows.trans⟩
    _ ↔ (automatic.map some ++ labelled ++ abstained).Perm
          ((valid.filter fun t => !abstains l decisions t).map some ++ abstained) :=
        (List.perm_append_right_iff _).symm
    _ ↔ (automatic.map some ++ decisions.map (DecisionRow.trial l)).Perm (valid.map some) := by
        rw [List.append_assoc]
        exact ⟨fun h => ((hsplit.append_left _).symm.trans h).trans hall,
          fun h => ((hsplit.append_left _).trans h).trans hall.symm⟩

/-- What the two programs are for: the rows of review and key correspond by their ids, each reviewed trial is a
valid one and has one decision, and the table has one row for each valid trial without an abstention. -/
structure Covers (valid : Trial → Bool) (d : ResultDirectory) (c : Curated) : Prop where
  keyIds : (d.key.map KeyRow.reviewId).Nodup
  reviewIds : (d.review.map ReviewRow.reviewId).Perm (d.key.map KeyRow.reviewId)
  decided : ∀ k ∈ d.key, ∃ t ∈ trialsOf c.ledger, valid t = true ∧ k.trial c.ledger = some t ∧
    c.audit.rows.countP (fun r => r.trial c.ledger = some t) = 1
  table : (c.rows.map CuratedRow.trial).Perm ((trialsOf c.ledger).filter fun t =>
    valid t && !abstains c.ledger c.audit.rows t)

/-- The review has no id twice, and the automatic table and the key name each valid trial once. -/
structure NamesOnce (valid : Trial → Bool) (d : ResultDirectory) (l : TrialLedger) : Prop where
  reviewIds : (d.review.map ReviewRow.reviewId).Nodup
  trials : ((d.automatic.map AutomaticRow.trial).map some ++ d.key.map (KeyRow.trial l)).Perm
    (((trialsOf l).filter valid).map some)

/-- **When curated labels cover the trials.**  Whichever trials count as valid, a directory that unblinding and
curation accept is covered iff its review repeats no id and its automatic table and its key name every valid
trial once. -/
theorem curation_covers : ∀ (t : CurationTools) (path : String) (d : ResultDirectory) (c : Curated)
    (valid : Trial → Bool), d.curate t path = .ok c → (Covers valid d c ↔ NamesOnce valid d c.ledger) := by
  intro t path d c valid h
  rw [ResultDirectory.curate] at h
  simp only [Except.bind_eq_ok] at h
  obtain ⟨audit, haudit, ledger, -, ⟨rows, report⟩, hcurate, h⟩ := h
  cases h
  have hkeys := (unblind_eq_ok.mp haudit).1
  have hrows := curate_trials hcurate
  have hvalid : ((trialsOf ledger).filter valid).Nodup := (nodup_trialsOf ledger).filter _
  have hfilter : (trialsOf ledger).filter (fun u => valid u && !abstains ledger audit.rows u)
      = ((trialsOf ledger).filter valid).filter fun u => !abstains ledger audit.rows u := by
    rw [List.filter_filter]
    refine List.filter_congr fun u _ => Bool.and_comm ..
  have hcount : ∀ u, audit.rows.countP (fun r => r.trial ledger = some u)
      = (audit.rows.map (DecisionRow.trial ledger)).count (some u) := by
    intro u
    rw [List.count, List.countP_map]
    refine List.countP_congr fun r _ => ?_
    simp
  constructor
  · intro hc
    have hnd : (d.review.map ReviewRow.reviewId).Nodup := hc.reviewIds.nodup_iff.mpr hkeys
    obtain ⟨-, htrials⟩ := unblind_trials ledger haudit hnd
    have hin : ∀ u ∈ audit.rows.map (DecisionRow.trial ledger),
        u ∈ ((trialsOf ledger).filter valid).map some := by
      intro u hu
      obtain ⟨k, hk, rfl⟩ := List.mem_map.mp (htrials.mem_iff.mp hu)
      obtain ⟨v, hv, hvalidv, hkv, -⟩ := hc.decided k hk
      exact hkv ▸ List.mem_map_of_mem (List.mem_filter.mpr ⟨hv, hvalidv⟩)
    have hndTrials : (audit.rows.map (DecisionRow.trial ledger)).Nodup := by
      refine List.nodup_iff_count_le_one.mpr fun u => ?_
      by_cases hu : u ∈ audit.rows.map (DecisionRow.trial ledger)
      · obtain ⟨k, hk, rfl⟩ := List.mem_map.mp (htrials.mem_iff.mp hu)
        obtain ⟨v, -, -, hkv, hone⟩ := hc.decided k hk
        rw [hkv, ← hcount]
        exact hone.le
      · rw [List.count_eq_zero.mpr hu]
        exact Nat.zero_le _
    refine { reviewIds := hnd, trials := ?_ }
    have htable := hc.table
    rw [hfilter, table_perm_iff hvalid hndTrials hin hrows] at htable
    exact (htrials.symm.append_left _).trans htable
  · intro hn
    obtain ⟨hids, htrials⟩ := unblind_trials ledger haudit hn.reviewIds
    have hall := (htrials.append_left ((d.automatic.map AutomaticRow.trial).map some)).trans hn.trials
    have hndAll := hall.nodup_iff.mpr (hvalid.map (Option.some_injective _))
    have hndTrials := (List.nodup_append.mp hndAll).2.1
    have hin : ∀ u ∈ audit.rows.map (DecisionRow.trial ledger),
        u ∈ ((trialsOf ledger).filter valid).map some :=
      fun u hu => hall.mem_iff.mp (List.mem_append_right _ hu)
    refine { keyIds := hkeys, reviewIds := hids, decided := ?_, table := ?_ }
    · intro k hk
      have hmem := htrials.mem_iff.mpr (List.mem_map_of_mem hk)
      obtain ⟨v, hv, hkv⟩ := List.mem_map.mp (hin _ hmem)
      obtain ⟨hv, hvalidv⟩ := List.mem_filter.mp hv
      refine ⟨v, hv, hvalidv, hkv.symm, ?_⟩
      rw [hcount, hkv]
      exact List.count_eq_one_of_mem hndTrials hmem
    · rw [hfilter, table_perm_iff hvalid hndTrials hin hrows]
      exact hall

/-! ### Examples -/

def donorTokens : List Nat := [1, 2, 3, 4, 5]

def interventionTokens : List Nat := [1, 2, 2, 3, 4, 5, 3, 4]

/-- The digits, the digest and the opcodes that the samples ask for. -/
def sampleTools : CurationTools where
  repr := fun _ => ""
  parseInt := get [("1", 1), ("2", 2), ("3", 3)]
  sha256 := fun text =>
    if text = "cacheselect-mtrag-selector-v1:chat" then [8, 10, 1, 7, 2, 4, 4, 5]
    else []
  opcodes := fun previous current =>
    if previous = donorTokens ∧ current = interventionTokens then
      [⟨true, 0, 1, 0, 1⟩, ⟨false, 1, 1, 1, 2⟩, ⟨true, 1, 5, 2, 6⟩, ⟨false, 5, 5, 6, 8⟩]
    else []

/-- The requests of a trial: the donor and the intervention. -/
def trialEvents (trialId donorId : String) (block : Int) : List TrialEvent :=
  [.started { requestId := donorId, role := some "donor", trialId := some trialId },
   .completed donorId { promptTokenIds := some donorTokens },
   .started {
    requestId := trialId
    role := some "intervention"
    trialId := some trialId
    reuseBlockIndex := some block },
   .completed trialId {
    promptTokenIds := some interventionTokens
    plan := .plan { transitionId := some "x", blockSize := some 2, nativeCachedTokens := some 2 } }]

def sampleRow (verdict : Verdict) (reviewId : String) : ReviewRow where
  reviewId := some reviewId
  question := "q"
  expectedAnswer := "e"
  answerA := "a"
  answerB := "b"
  independentNormalAnswer := none
  verdict := some verdict
  reason := "r"

/-- A run with two trials that await review, and a review of them in which every verdict is unclear. -/
def unclearDirectory (reviewIds : List String) : ResultDirectory where
  events := trialEvents "t1" "d1" 1 ++ trialEvents "t2" "d2" 2
  summary := { trialCount := some 2 }
  automatic := []
  review := reviewIds.map (sampleRow .unclear)
  key := [⟨some "review-001", some "t1", some 1, some "answer_a", some "answer_b"⟩,
    ⟨some "review-002", some "t2", some 2, some "answer_a", some "answer_b"⟩]

/-- A directory that is accepted, with what can be computed of the result. -/
theorem exists_curated {d : ResultDirectory} {p : Curated → Bool}
    (h : (d.curate sampleTools "").toOption.any p = true) :
    ∃ c, d.curate sampleTools "" = .ok c ∧ p c = true := by
  cases hc : d.curate sampleTools "" with
  | error e =>
      rw [hc] at h
      cases h
  | ok c =>
      rw [hc] at h
      exact ⟨c, rfl, h⟩

/-- A run of three trials: the first has a row in the automatic table, and of the two under review one gets a
label. -/
def labelledDirectory : ResultDirectory where
  events := trialEvents "t1" "d1" 1 ++ trialEvents "t2" "d2" 2 ++ trialEvents "t3" "d3" 3
  summary := {
    trialCount := some 3
    cases := [{
      traceId := some "trace"
      transitionId := some "x"
      split := some "train"
      collection := some "cloud"
      currentTaskId := some "chat<::>2" }] }
  automatic := [{
    traceId := "trace"
    transitionId := "x"
    split := "train"
    decision := "reuse"
    labelSource := "counterfactual_execution"
    labelReason := "Exact output match"
    candidateBlockIndex := "1"
    caseIndex := "1"
    collection := "cloud"
    conversationId := "chat"
    currentTaskId := "chat<::>2" }]
  review := [sampleRow .unclear "review-002", sampleRow .answerABetter "review-001"]
  key := [⟨some "review-001", some "t2", some 2, some "answer_a", some "answer_b"⟩,
    ⟨some "review-002", some "t3", some 3, some "answer_b", some "answer_a"⟩]

/-- The table has the trial of the automatic table and the reviewed one, and not the one that stays unclear. -/
theorem labelled_review_covers : ∃ c,
    labelledDirectory.curate sampleTools "" = .ok c ∧ Covers (fun _ => true) labelledDirectory c ∧
      c.report = {
        sourceTrialCount := some 3
        rowCount := 2
        exactMatchRows := 1
        semanticReviewRows := 1
        abstainedTrials := 1
        reuseLabels := 1
        repairLabels := 1 } := by
  obtain ⟨c, hc, hcomputed⟩ := @exists_curated labelledDirectory
    (fun c => trialsOf c.ledger = [("x", "1"), ("x", "2"), ("x", "3")] ∧
      labelledDirectory.key.map (KeyRow.trial c.ledger) = [some ("x", "2"), some ("x", "3")] ∧
      c.report = ⟨some 3, 2, 1, 1, 1, 1, 1⟩)
    (by decide +kernel)
  obtain ⟨htrials, hkey, hreport⟩ := of_decide_eq_true hcomputed
  refine ⟨c, hc, (curation_covers sampleTools "" _ c (fun _ => true) hc).mpr ?_, hreport⟩
  refine { reviewIds := by decide, trials := ?_ }
  rw [htrials, hkey]
  decide

/-- **A repeated id is accepted**: the other trial has no decision and no row, and both counts agree. -/
theorem repeated_id_accepted : ¬ ∀ (t : CurationTools) (path : String) (d : ResultDirectory) (c : Curated)
    (valid : Trial → Bool), d.curate t path = .ok c →
    ((d.automatic.map AutomaticRow.trial).map some ++ d.key.map (KeyRow.trial c.ledger)).Perm
      (((trialsOf c.ledger).filter valid).map some) → Covers valid d c := by
  intro hall
  obtain ⟨c, hc, hperm⟩ := @exists_curated (unclearDirectory ["review-001", "review-001"])
    (fun c => (unclearDirectory []).key.map (KeyRow.trial c.ledger)
      = ((trialsOf c.ledger).filter fun _ => true).map some) (by decide +kernel)
  have hcovers := hall sampleTools "" _ c (fun _ => true) hc (of_decide_eq_true hperm ▸ List.Perm.refl _)
  have hnd := hcovers.reviewIds.nodup_iff.mpr hcovers.keyIds
  revert hnd
  decide

end CacheSelect.Benchmarks

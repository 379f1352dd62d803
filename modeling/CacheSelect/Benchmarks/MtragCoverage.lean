import CacheSelect.Benchmarks.MtragPilot
import CacheSelect.Benchmarks.BlockDataset
import CacheSelect.Lib.OrderedDict
import Mathlib.Data.String.Basic

/-! # The coverage artifact

The tasks of the benchmark are grouped by conversation, each conversation is cut into pairs of adjacent turns, and
the coverage analysis compares the two rendered prompts of every pair.  The selections of later stages read its rows.

`analyzeMtragCoverage_ok` says what such an artifact is: one row for each analysed pair of tasks, all pairs of a
conversation in one collection.  On these rows `mtragTestableBlocks` never raises (`testableBlocks_row`).

The tokenizer with its chat template, and SHA-256, are parameters.
-/

namespace CacheSelect.Benchmarks

open CacheSelect.Core Features

/-! ### Tasks -/

structure MtragContext where
  documentId : String
  title : String
  text : String
deriving DecidableEq, Repr

structure MtragMessage where
  role : String
  content : String
deriving DecidableEq, Repr

/-- A task; `_parse_task` rejects a blank identity. -/
structure MtragTask where
  taskId : String
  conversationId : String
  turn : Nat
  collection : String
  contexts : List MtragContext
  messages : List MtragMessage
  targetText : String
  taskId_ne : taskId ≠ ""
  conversationId_ne : conversationId ≠ ""
  collection_ne : collection ≠ ""
deriving DecidableEq

def mtragSystemPrompt : String :=
  "Answer the current question using the retrieved passages and conversation "
    ++ "history. If the passages do not contain enough information, say so."

/-- The text of the passage with this number. -/
def passageText (index : Nat) (context : MtragContext) : String :=
  let title := if context.title = "" then "" else "\nTitle: " ++ context.title
  "[Passage " ++ toString index ++ "; document_id=" ++ context.documentId ++ "]" ++ title ++ "\n" ++ context.text

def renderMtragMessages (task : MtragTask) : Except PyError (List MtragMessage) :=
  match task.messages.getLast? with
  | none => .error .indexError
  | some question =>
      if question.role ≠ "user" then
        .error (.valueError "MTRAG generation input must end with a user message")
      else
        let passages := task.contexts.zipIdx.map fun c => passageText (c.2 + 1) c.1
        let augmentedQuestion := "Retrieved passages:\n\n" ++ "\n\n".intercalate passages
          ++ "\n\nCurrent question:\n" ++ question.content
        .ok (⟨"system", mtragSystemPrompt⟩ :: task.messages.dropLast ++ [⟨"user", augmentedQuestion⟩])

/-! ### Adjacent turns -/

def sortedNames (names : List String) : List String :=
  names.mergeSort fun a b => decide (a ≤ b)

theorem sortedNames_perm (names : List String) : (sortedNames names).Perm names :=
  List.mergeSort_perm _ _

theorem pairwise_sortedNames {names : List String} (h : names.Nodup) : (sortedNames names).Pairwise (· < ·) := by
  have hle : (sortedNames names).Pairwise fun a b => decide (a ≤ b) = true := by
    refine List.pairwise_mergeSort (fun a b c hab hbc => ?_) (fun a b => ?_) names
    · exact decide_eq_true (le_trans (of_decide_eq_true hab) (of_decide_eq_true hbc))
    · rw [Bool.or_eq_true, decide_eq_true_eq, decide_eq_true_eq]
      exact le_total a b
  have hne : (sortedNames names).Nodup := (sortedNames_perm names).nodup_iff.mpr h
  exact hle.imp₂ (fun _ _ hab hne => lt_of_le_of_ne (of_decide_eq_true hab) hne) hne

/-- The names that come out do not depend on the order. -/
theorem sortedNames_eq_of_perm {names names' : List String} (hn : names.Nodup) (h : names.Perm names') :
    sortedNames names = sortedNames names' := by
  have hperm := (sortedNames_perm names).trans (h.trans (sortedNames_perm names').symm)
  refine hperm.eq_of_pairwise (fun a b _ _ hab hba => absurd hab (lt_asymm hba)) (pairwise_sortedNames hn) ?_
  exact pairwise_sortedNames (h.nodup_iff.mp hn)

/-- A pair of tasks that follow each other in a conversation. -/
def adjacentPair (conversationId : String) (pair : MtragTask × MtragTask) : Except PyError (MtragTask × MtragTask) :=
  if pair.2.turn ≠ pair.1.turn + 1 then
    .error (.valueError ("conversation '" ++ conversationId ++ "' has a turn gap"))
  else .ok pair

def conversationTransitions (conversationId : String) (tasks : List MtragTask) :
    Except PyError (List (MtragTask × MtragTask)) :=
  let ordered := tasks.mergeSort fun a b => decide (a.turn ≤ b.turn)
  if ¬ (ordered.map MtragTask.turn).Nodup then
    .error (.valueError ("conversation '" ++ conversationId ++ "' has duplicate turns"))
  else (ordered.zip ordered.tail).mapM (adjacentPair conversationId)

def adjacentMtragTransitions (tasks : List MtragTask) : Except PyError (List (MtragTask × MtragTask)) := do
  let conversations := OrderedDict.grouped MtragTask.conversationId id tasks
  let transitions ← (sortedNames (OrderedDict.keys conversations)).mapM fun conversationId =>
    conversationTransitions conversationId ((OrderedDict.get conversations conversationId).getD [])
  .ok transitions.flatten

/-! ### The artifact -/

/-- A row of the artifact; a field is `none` where it is missing or of another type.  `candidateBlockCount` stands in
the reuse opportunity. -/
structure CoverageTransition extends CoverageRow where
  conversationId : Option String := none
  collection : Option String := none
  previousTaskId : Option String := none
  currentTaskId : Option String := none
  sharedDocumentIds : Option (List String) := none
  candidateBlockCount : Option Int := none
deriving DecidableEq, Repr

structure CoverageArtifact where
  schemaVersion : Option Int := none
  analysis : Option String := none
  promptTemplateVersion : Option Int := none
  blockSize : Option Int := none
  candidateTransitionCount : Option Int := none
  transitions : Option (List (Option CoverageTransition)) := none
  sourceSha256 : Option String := none
  model : Option String := none
  tokenizerClass : Option String := none
deriving DecidableEq, Repr

def CoverageArtifact.withProvenance (coverage : CoverageArtifact) (sourceSha256 model tokenizerClass : String) :
    CoverageArtifact :=
  { coverage with
    sourceSha256 := some sourceSha256
    model := some model
    tokenizerClass := some tokenizerClass }

def sharedDocumentIds (previous current : MtragTask) : List String :=
  let currentIds := current.contexts.map MtragContext.documentId
  sortedNames ((previous.contexts.map MtragContext.documentId).dedup.filter fun id => id ∈ currentIds)

section Analysis

variable (tokenizer : List MtragMessage → Except PyError RenderedPrompt) (blockSize : Nat)

/-- Two adjacent tasks with their rendered prompts. -/
structure AnalyzedTransition where
  previous : MtragTask
  current : MtragTask
  previousPrompt : RenderedPrompt
  currentPrompt : RenderedPrompt

def AnalyzedTransition.opportunity (t : AnalyzedTransition) : ReuseOpportunity :=
  reuseOpportunity t.previousPrompt.tokenIds t.currentPrompt.tokenIds
    (estimatedNativeCachedTokens t.previousPrompt t.currentPrompt blockSize) blockSize

/-- The row that the analysis writes for a pair. -/
def transitionRow (previous current : MtragTask) (opportunity : ReuseOpportunity) : CoverageTransition where
  toCoverageRow := coverageRow opportunity
  conversationId := some current.conversationId
  collection := some current.collection
  previousTaskId := some previous.taskId
  currentTaskId := some current.taskId
  sharedDocumentIds := some (sharedDocumentIds previous current)
  candidateBlockCount := some opportunity.candidateBlockCount

/-- `_analyze_transition`, from the two tasks. -/
def analyzeAdjacentTasks (pair : MtragTask × MtragTask) : Except PyError CoverageTransition := do
  if pair.1.collection ≠ pair.2.collection then
    .error (.valueError "one MTRAG conversation changed collection")
  else
    let previousTokens ← (← renderMtragMessages pair.1) |> tokenizer
    let currentTokens ← (← renderMtragMessages pair.2) |> tokenizer
    let opportunity ← analyzeReuseOpportunity previousTokens.tokenIds currentTokens.tokenIds
      (estimatedNativeCachedTokens previousTokens currentTokens blockSize) blockSize
    .ok (transitionRow pair.1 pair.2 opportunity)

def analyzeMtragCoverage (tasks : List MtragTask) : Except PyError CoverageArtifact := do
  if blockSize < 1 then .error (.valueError "block_size must be positive")
  else if tasks.isEmpty then .error (.valueError "MTRAG coverage requires at least one task")
  else
    let transitions ← adjacentMtragTransitions tasks
    let rows ← transitions.mapM (analyzeAdjacentTasks tokenizer blockSize)
    .ok {
      schemaVersion := some 1
      analysis := some "mtrag-natural-block-coverage"
      promptTemplateVersion := some 1
      blockSize := some blockSize
      candidateTransitionCount := some (rows.countP fun row => row.candidateBlockCount.any fun n => 0 < n : Nat)
      transitions := some (rows.map some) }

/-- The file that the analysis command writes: the analysis with its provenance. -/
def mtragCoverageFile (sourceSha256 model tokenizerClass : String) (tasks : List MtragTask) :
    Except PyError CoverageArtifact :=
  (analyzeMtragCoverage tokenizer blockSize tasks).map fun coverage =>
    coverage.withProvenance sourceSha256 model tokenizerClass

end Analysis

/-! ### What is analysed -/

/-- All tasks of a list have the collection of their neighbours. -/
theorem collection_eq_of_zip_tail : ∀ {tasks : List MtragTask},
    (∀ p ∈ tasks.zip tasks.tail, p.1.collection = p.2.collection) →
      ∀ a ∈ tasks, ∀ b ∈ tasks, a.collection = b.collection := by
  intro tasks
  induction tasks with
  | nil => intro _ a ha; cases ha
  | cons x rest ih =>
      intro h
      have hx : ∀ a ∈ x :: rest, a.collection = x.collection := by
        intro a ha
        cases rest with
        | nil => rw [List.mem_singleton.mp ha]
        | cons y rest =>
            rcases List.mem_cons.mp ha with rfl | ha
            · rfl
            · have hrest := ih fun p hp => h p (List.mem_cons_of_mem _ hp)
              rw [hrest a ha y List.mem_cons_self]
              exact (h (x, y) List.mem_cons_self).symm
      intro a ha b hb
      rw [hx a ha, hx b hb]

/-- The pairs of a conversation are the neighbours in the order of their turns. -/
theorem conversationTransitions_ok {conversationId : String} {tasks : List MtragTask}
    {pairs : List (MtragTask × MtragTask)} (h : conversationTransitions conversationId tasks = .ok pairs) :
    pairs = (tasks.mergeSort fun a b => decide (a.turn ≤ b.turn)).zip
      (tasks.mergeSort fun a b => decide (a.turn ≤ b.turn)).tail := by
  unfold conversationTransitions at h
  dsimp only at h
  split at h
  · cases h
  · have hsame : ∀ p q, adjacentPair conversationId p = .ok q → id q = id p := by
      intro p q hpq
      rw [adjacentPair] at hpq
      split at hpq
      · cases hpq
      · cases hpq
        rfl
    have hmap := Except.map_eq_map_of_mapM hsame h
    rwa [List.map_id, List.map_id] at hmap

/-- **Transitions stay inside a conversation.** -/
theorem adjacentMtragTransitions_ok {tasks : List MtragTask} {transitions : List (MtragTask × MtragTask)}
    (h : adjacentMtragTransitions tasks = .ok transitions) :
    ∃ ordered : String → List MtragTask, (∀ c, ∀ task ∈ ordered c, task.conversationId = c) ∧
      ∀ p, p ∈ transitions ↔ ∃ c, p ∈ (ordered c).zip (ordered c).tail := by
  obtain ⟨pairs, hpairs, h⟩ := Except.bind_eq_ok.mp h
  cases h
  refine ⟨fun c => ((OrderedDict.get (OrderedDict.grouped MtragTask.conversationId id tasks) c).getD []).mergeSort
    fun a b => decide (a.turn ≤ b.turn), ?_, ?_⟩
  · intro c task htask
    rw [List.mem_mergeSort, OrderedDict.get_grouped] at htask
    split at htask
    · rw [List.map_id, Option.getD_some, List.mem_filter, decide_eq_true_eq] at htask
      exact htask.2
    · cases htask
  · intro p
    have hmap := Except.map_eq_map_of_mapM (g := id) (fun c q hq => conversationTransitions_ok hq) hpairs
    rw [List.map_id] at hmap
    rw [hmap, List.mem_flatten]
    constructor
    · rintro ⟨l, hl, hp⟩
      obtain ⟨c, -, rfl⟩ := List.mem_map.mp hl
      exact ⟨c, hp⟩
    · rintro ⟨c, hp⟩
      refine ⟨_, List.mem_map.mpr ⟨c, ?_, rfl⟩, hp⟩
      rw [sortedNames, List.mem_mergeSort, OrderedDict.mem_keys_iff_get]
      rw [Option.isSome_iff_ne_none]
      intro hnone
      dsimp only at hp
      rw [hnone, Option.getD_none, List.mergeSort_nil] at hp
      cases hp

section Rows

variable {tokenizer : List MtragMessage → Except PyError RenderedPrompt} {blockSize : Nat}

def AnalyzedTransition.row (blockSize : Nat) (t : AnalyzedTransition) : CoverageTransition :=
  transitionRow t.previous t.current (t.opportunity blockSize)

/-- The artifact of analysed pairs. -/
def coverageOf (blockSize : Nat) (ts : List AnalyzedTransition) : CoverageArtifact where
  schemaVersion := some 1
  analysis := some "mtrag-natural-block-coverage"
  promptTemplateVersion := some 1
  blockSize := some blockSize
  candidateTransitionCount := some (ts.countP fun t => 0 < (t.opportunity blockSize).candidateBlockCount : Nat)
  transitions := some (ts.map fun t => some (t.row blockSize))

theorem analyzeAdjacentTasks_ok {pair : MtragTask × MtragTask} {row : CoverageTransition}
    (h : analyzeAdjacentTasks tokenizer blockSize pair = .ok row) :
    pair.1.collection = pair.2.collection ∧
      ∃ t : AnalyzedTransition, (t.previous, t.current) = pair ∧ t.row blockSize = row := by
  unfold analyzeAdjacentTasks at h
  split at h
  · cases h
  · next hcollection =>
    obtain ⟨messages, -, h⟩ := Except.bind_eq_ok.mp h
    obtain ⟨previousTokens, -, h⟩ := Except.bind_eq_ok.mp h
    obtain ⟨messages', -, h⟩ := Except.bind_eq_ok.mp h
    obtain ⟨currentTokens, -, h⟩ := Except.bind_eq_ok.mp h
    obtain ⟨opportunity, hopportunity, h⟩ := Except.bind_eq_ok.mp h
    cases h
    refine ⟨not_not.mp hcollection, ⟨pair.1, pair.2, previousTokens, currentTokens⟩, rfl, ?_⟩
    unfold analyzeReuseOpportunity at hopportunity
    split at hopportunity
    · cases hopportunity
    · split at hopportunity
      · cases hopportunity
      · split at hopportunity
        · cases hopportunity
        · cases hopportunity
          rfl

theorem exists_analyzed : ∀ {pairs : List (MtragTask × MtragTask)} {rows : List CoverageTransition},
    pairs.mapM (analyzeAdjacentTasks tokenizer blockSize) = .ok rows →
      ∃ ts : List AnalyzedTransition, (ts.map fun t => (t.previous, t.current)) = pairs ∧
        ts.map (AnalyzedTransition.row blockSize) = rows ∧
        ∀ p ∈ pairs, p.1.collection = p.2.collection := by
  intro pairs rows h
  have hall := Except.mapM_eq_ok_iff.mp h
  clear h
  induction hall with
  | nil => exact ⟨[], rfl, rfl, fun p hp => absurd hp List.not_mem_nil⟩
  | @cons p row pairs rows hrow _ ih =>
      obtain ⟨hcollection, t, hpair, ht⟩ := analyzeAdjacentTasks_ok hrow
      obtain ⟨ts, hpairs, hrows, hall⟩ := ih
      refine ⟨t :: ts, by rw [List.map_cons, hpair, hpairs], by rw [List.map_cons, ht, hrows], ?_⟩
      intro q hq
      rcases List.mem_cons.mp hq with rfl | hq
      · exact hcollection
      · exact hall q hq

/-- A conversation has one collection. -/
def SameCollection (ts : List AnalyzedTransition) : Prop :=
  ∀ t ∈ ts, ∀ t' ∈ ts, t.current.conversationId = t'.current.conversationId →
    t.current.collection = t'.current.collection

/-- **What a coverage artifact is.** -/
theorem analyzeMtragCoverage_ok {tasks : List MtragTask} {coverage : CoverageArtifact}
    (h : analyzeMtragCoverage tokenizer blockSize tasks = .ok coverage) :
    0 < blockSize ∧ ∃ ts, coverage = coverageOf blockSize ts ∧ SameCollection ts := by
  unfold analyzeMtragCoverage at h
  split at h
  · cases h
  next hsize =>
  split at h
  · cases h
  obtain ⟨pairs, hpairs, h⟩ := Except.bind_eq_ok.mp h
  obtain ⟨rows, hrows, h⟩ := Except.bind_eq_ok.mp h
  cases h
  obtain ⟨ordered, hconversation, hmem⟩ := adjacentMtragTransitions_ok hpairs
  obtain ⟨ts, rfl, rfl, hcollection⟩ := exists_analyzed hrows
  refine ⟨by omega, ts, ?_, ?_⟩
  · rw [coverageOf, List.map_map, List.countP_map]
    congr 4
    funext t
    exact decide_eq_decide.mpr Int.natCast_pos
  · intro t ht t' ht' hsame
    have hin : ∀ u ∈ ts, u.current ∈ ordered u.current.conversationId := by
      intro u hu
      obtain ⟨c, hc⟩ := (hmem (u.previous, u.current)).mp (List.mem_map_of_mem hu)
      have hcurrent : u.current ∈ ordered c := List.mem_of_mem_tail (List.of_mem_zip hc).2
      rwa [hconversation c _ hcurrent]
    refine @collection_eq_of_zip_tail (ordered t.current.conversationId) ?_ _ (hin t ht) _ (hsame ▸ hin t' ht')
    exact fun p hp => hcollection p ((hmem p).mpr ⟨_, hp⟩)

/-! ### The blocks of a row -/

/-- The blocks of the later prompt that can be tested, with or without repacking. -/
def AnalyzedTransition.testableBlocks (blockSize : Nat) (repacking : Bool) (t : AnalyzedTransition) :
    TestableBlocks :=
  testableOf (reusableBlocks t.previousPrompt.tokenIds t.currentPrompt.tokenIds
    (estimatedNativeCachedTokens t.previousPrompt t.currentPrompt blockSize) blockSize repacking)
    t.currentPrompt.tokenIds.length blockSize

theorem testableBlocks_row (hsize : 0 < blockSize) (repacking : Bool) (t : AnalyzedTransition) :
    mtragTestableBlocks (t.row blockSize).toCoverageRow blockSize repacking
      = .ok (t.testableBlocks blockSize repacking) :=
  offline_blocks t.previousPrompt t.currentPrompt hsize _ repacking

end Rows

end CacheSelect.Benchmarks

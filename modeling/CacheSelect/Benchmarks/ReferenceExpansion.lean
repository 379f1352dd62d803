import CacheSelect.Benchmarks.MtragCoverage
import CacheSelect.Lib.RoundRobin
import CacheSelect.Lib.Segments
import Mathlib.Data.List.Lex
import Mathlib.Data.List.MinMax
import Mathlib.Data.Prod.Lex

/-! # Freezing the reference work

`freezeMtragFullReferenceSplits` freezes everything that is still to be run: it goes over the coverage once to count
what each split has to do, lets `selectMtragReferenceExpansion` find these tasks again for the manifest of each
split, and cuts the sorted transitions into batches.

The selection draws in rounds and would leave tasks out if it were asked for fewer; with the bounds of the first
pass it is asked for all that it finds eligible (`expansion_takes_all`).  It refuses a current task that it has seen
and it refuses to select nothing, and with it the freezing fails once one split has nothing left
(`fullReferenceSplits_iff`).
-/

namespace CacheSelect.Benchmarks

open CacheSelect.Core Features

/-! ### Candidates -/

structure TransitionIdentity where
  conversationId : String
  collection : String
  taskId : String
deriving DecidableEq, Repr

/-- A task of a manifest; the file has the value of the split. -/
structure ReferenceTask where
  taskId : String
  conversationId : String
  collection : String
  split : DatasetSplit
deriving DecidableEq, Repr

/-- The checks that both selections make of a row before they read it. -/
def transitionIdentity : Option CoverageTransition → Except Raised (CoverageTransition × TransitionIdentity)
  | none => .error (.valueError "coverage transition must be an object")
  | some row =>
      match row.conversationId, row.collection, row.currentTaskId with
      | some conversationId, some collection, some taskId =>
          if conversationId = "" ∨ collection = "" ∨ taskId = "" then
            .error (.valueError "coverage transition has invalid identity fields")
          else .ok (row, ⟨conversationId, collection, taskId⟩)
      | _, _, _ => .error (.valueError "coverage transition has invalid identity fields")

structure ExpansionOptions where
  split : DatasetSplit
  excludedTaskIds : List String
  priorConversationCounts : List (String × Int) := []
  taskCount : Int
  maxPromptTokens : Int := 7000
  maxTestableBlocks : Int := 64
  includeRepacking : Bool := false
  splitSeed : String := mtragSplitSeed

/-- Something to test, in a prompt that is not too long. -/
def withinBounds (testable : List Int) (promptTokens : Option Int) (maxPromptTokens maxTestableBlocks : Int) :
    Bool :=
  !testable.isEmpty && decide ((testable.length : Int) ≤ maxTestableBlocks)
    && promptTokens.any fun n => n ≤ maxPromptTokens

section Selection

variable (sha256 : String → HexDigest)

/-- The rest of the loop body of the selection: the candidate of a row, if it is eligible. -/
def expansionCandidate (blockSize : Nat) (o : ExpansionOptions) (row : CoverageTransition)
    (identity : TransitionIdentity) : Except Raised (Option ReferenceTask) :=
  match row.reuseOpportunity with
  | none => .error (.valueError "coverage transition has invalid reuse metadata")
  | some opportunity => do
      let blocks ← mtragTestableBlocks row.toCoverageRow blockSize o.includeRepacking
      if identity.taskId ∈ o.excludedTaskIds then .ok none
      else
        let split ← mtragConversationSplit sha256 identity.conversationId o.splitSeed
        if split = o.split
            ∧ withinBounds blocks.testable opportunity.currentTokenCount o.maxPromptTokens o.maxTestableBlocks then
          .ok (some ⟨identity.taskId, identity.conversationId, identity.collection, o.split⟩)
        else .ok none

/-- The loop over the rows, with the task ids that it has seen: the collection of each row and its candidate. -/
def expansionCandidates (blockSize : Nat) (o : ExpansionOptions) :
    List String → List (Option CoverageTransition) → Except Raised (List (String × Option ReferenceTask))
  | _, [] => .ok []
  | seenTaskIds, raw :: rows => do
      let (row, identity) ← transitionIdentity raw
      if identity.taskId ∈ seenTaskIds then .error (.valueError "coverage contains a duplicate current task")
      else
        let candidate ← expansionCandidate sha256 blockSize o row identity
        let rest ← expansionCandidates blockSize o (identity.taskId :: seenTaskIds) rows
        .ok ((identity.collection, candidate) :: rest)

/-! ### The draw -/

/-- The order of the counts, by which the draw is evaluated. -/
local instance usageOrder : Preorder Int := Int.instLinearOrder.toPreorder

/-- What a collection has left, how often a conversation has been used, and what is selected. -/
structure DrawState where
  available : String → List ReferenceTask
  usage : String → Int
  selected : List ReferenceTask

def expansionRank (seed taskId : String) : HexDigest :=
  sha256 (seed ++ ":expansion:" ++ taskId)

/-- The first of the least used and lowest ranked tasks that a collection has left goes over to the selection. -/
def takeTask (seed collection : String) (s : DrawState) : Option DrawState :=
  let chosen? := (s.available collection).argmin fun row =>
    toLex (s.usage row.conversationId, expansionRank sha256 seed row.taskId)
  chosen?.map fun chosen =>
    { available := Function.update s.available collection ((s.available collection).erase chosen)
      usage := Function.update s.usage chosen.conversationId (s.usage chosen.conversationId + 1)
      selected := s.selected ++ [chosen] }

/-- The rounds of the draw.  A round that takes nothing raises, so that `taskCount` rounds are enough. -/
def drawTasks (seed : String) (collections : List String) (taskCount : Nat) :
    Nat → DrawState → Except Raised DrawState
  | 0, s => .ok s
  | rounds + 1, s =>
      if taskCount ≤ s.selected.length then .ok s
      else
        let s' := RoundRobin.pass (takeTask sha256 seed) (fun s => s.selected.length) taskCount collections s
        if s'.selected.length = s.selected.length then
          .error (.valueError "collections cannot satisfy the requested task count")
        else drawTasks seed collections taskCount rounds s'

/-! ### The manifest -/

structure ReferenceManifest where
  sourcePromptTemplateVersion : Option Int
  sourceModel : Option String
  sourceTokenizerClass : Option String
  splitSeed : String
  split : DatasetSplit
  requestedTaskCount : Int
  maxPromptTokens : Int
  maxTestableBlocks : Int
  repackingEnabled : Option Bool
  taskCount : Nat
  collectionCount : Nat
  collectionTaskCounts : List (String × Nat)
  selectedConversationCount : Option Nat
  previouslyUnusedConversationCount : Option Nat
  tasks : List ReferenceTask
  sourceSha256 : Option String := none
deriving DecidableEq, Repr

/-- The number of selected tasks of each collection. -/
def collectionTaskCounts (collections : List String) (selected : List ReferenceTask) : List (String × Nat) :=
  collections.map fun collection => (collection, selected.countP fun row => row.collection = collection)

/-- The block size and the rows of an artifact of the right kind. -/
def coverageRows (coverage : CoverageArtifact) : Except Raised (Nat × List (Option CoverageTransition)) :=
  match coverage.blockSize, coverage.transitions with
  | some blockSize, some rows =>
      if blockSize < 1 then .error (.valueError "coverage block metadata is invalid")
      else .ok (blockSize.toNat, rows)
  | _, _ => .error (.valueError "coverage block metadata is invalid")

def isCoverageArtifact (coverage : CoverageArtifact) : Bool :=
  coverage.schemaVersion == some 1 && coverage.analysis == some "mtrag-natural-block-coverage"

/-- The manifest from the candidates of all rows. -/
def expansionManifest (coverage : CoverageArtifact) (o : ExpansionOptions)
    (entries : List (String × Option ReferenceTask)) : Except Raised ReferenceManifest :=
  let collections := sortedNames (entries.map Prod.fst).dedup
  let candidates := entries.filterMap Prod.snd
  if (candidates.length : Int) < o.taskCount then
    .error (.valueError "coverage has too few eligible unused tasks")
  else do
    let drawn ← drawTasks sha256 o.splitSeed collections o.taskCount.toNat o.taskCount.toNat
      { available := fun collection => candidates.filter fun row => row.collection = collection
        usage := fun conversation => (OrderedDict.get o.priorConversationCounts conversation).getD 0
        selected := [] }
    let conversations := (drawn.selected.map ReferenceTask.conversationId).dedup
    .ok {
      sourcePromptTemplateVersion := coverage.promptTemplateVersion
      sourceModel := coverage.model
      sourceTokenizerClass := coverage.tokenizerClass
      splitSeed := o.splitSeed
      split := o.split
      requestedTaskCount := o.taskCount
      maxPromptTokens := o.maxPromptTokens
      maxTestableBlocks := o.maxTestableBlocks
      repackingEnabled := some o.includeRepacking
      taskCount := drawn.selected.length
      collectionCount := collections.length
      collectionTaskCounts := collectionTaskCounts collections drawn.selected
      selectedConversationCount := some conversations.length
      previouslyUnusedConversationCount := some (conversations.countP fun conversation =>
        (OrderedDict.get o.priorConversationCounts conversation).getD 0 = 0)
      tasks := drawn.selected }

def selectMtragReferenceExpansion (coverage : CoverageArtifact) (o : ExpansionOptions) :
    Except Raised ReferenceManifest :=
  if isCoverageArtifact coverage = false then .error (.valueError "input is not an MTRAG coverage artifact")
  else if o.taskCount < 1 ∨ o.maxPromptTokens < 1 ∨ o.maxTestableBlocks < 1 then
    .error (.valueError "expansion selection bounds must be positive integers")
  else if "" ∈ o.excludedTaskIds then .error (.valueError "excluded task IDs must not be empty")
  else if o.priorConversationCounts.any fun entry => entry.1 = "" || entry.2 < 0 then
    .error (.valueError "prior conversation counts are invalid")
  else do
    let (blockSize, rows) ← coverageRows coverage
    let entries ← expansionCandidates sha256 blockSize o [] rows
    expansionManifest sha256 coverage o entries

/-! ### The transitions to run -/

structure FrozenTransition where
  split : DatasetSplit
  conversationId : String
  collection : String
  previousTaskId : String
  currentTaskId : String
  sharedDocumentIds : List String
  candidateBlockIndices : List Int
  testableBlockIndices : List Int
  targetBlockIndices : List Int
  excludedOutputBlockIndex : Option Int
deriving DecidableEq, Repr

/-- A counter with one more at a key. -/
def counted (counts : DatasetSplit → Nat) (split : DatasetSplit) : DatasetSplit → Nat :=
  Function.update counts split (counts split + 1)

/-- What the first pass counts and collects. -/
structure FreezeState where
  rawCounts : DatasetSplit → Nat := fun _ => 0
  executableCounts : DatasetSplit → Nat := fun _ => 0
  excludedCounts : DatasetSplit → Nat := fun _ => 0
  maxPromptTokens : Int := 0
  maxTestableBlocks : Int := 0
  transitions : List FrozenTransition := []

/-- What the first pass does with a transition that has candidates, once its split and its blocks are known. -/
def freezeTransition (excludedTaskIds : List String) (s : FreezeState) (row : CoverageTransition)
    (conversationId : String) (promptTokens : Int) (split : DatasetSplit) (blocks : TestableBlocks) :
    Except Raised FreezeState :=
  let raw := counted s.rawCounts split
  if blocks.testable = [] then .ok { s with rawCounts := raw }
  else
    let executable := counted s.executableCounts split
    match row.currentTaskId with
    | none => .error .keyError
    | some currentTaskId =>
        if currentTaskId ∈ excludedTaskIds then
          .ok { s with
            rawCounts := raw
            executableCounts := executable
            excludedCounts := counted s.excludedCounts split }
        else
          match row.collection, row.previousTaskId, row.sharedDocumentIds with
          | some collection, some previousTaskId, some sharedDocumentIds =>
              .ok { s with
                rawCounts := raw
                executableCounts := executable
                maxPromptTokens := max s.maxPromptTokens promptTokens
                maxTestableBlocks := max s.maxTestableBlocks blocks.testable.length
                transitions := s.transitions ++ [{
                  split, conversationId, collection, previousTaskId, currentTaskId, sharedDocumentIds
                  candidateBlockIndices := blocks.candidateBlocks
                  testableBlockIndices := blocks.testable
                  targetBlockIndices := blocks.testable
                  excludedOutputBlockIndex := blocks.excluded }] }
          | _, _, _ => .error .keyError

/-- The loop body of the first pass. -/
def freezeRow (blockSize : Nat) (excludedTaskIds : List String) (s : FreezeState) :
    Option CoverageTransition → Except Raised FreezeState
  | none => .error (.valueError "coverage transition must be an object")
  | some row =>
      match row.reuseOpportunity, row.conversationId with
      | some opportunity, some conversationId =>
          match row.candidateBlockCount, opportunity.currentTokenCount with
          | some candidateBlocks, some promptTokens =>
              if candidateBlocks = 0 then .ok s
              else do
                let split ← mtragConversationSplit sha256 conversationId mtragSplitSeed
                let blocks ← mtragTestableBlocks row.toCoverageRow blockSize true
                freezeTransition excludedTaskIds s row conversationId promptTokens split blocks
          | _, _ => .error (.valueError "coverage transition counts are invalid")
      | _, _ => .error (.valueError "coverage transition metadata is invalid")

end Selection

/-! ### Batches -/

structure Batch where
  batch : Nat
  split : Option DatasetSplit
  startCase : Nat
  caseCount : Nat
  targetBlockCount : Nat
deriving DecidableEq, Repr

/-- The closed batches, and the open one. -/
structure BatchState where
  batches : List Batch := []
  start : Nat := 0
  blocks : Nat := 0
  count : Nat := 0
  currentSplit : Option DatasetSplit := none

def BatchState.openBatch (s : BatchState) : Batch where
  batch := s.batches.length + 1
  split := s.currentSplit
  startCase := s.start + 1
  caseCount := s.count
  targetBlockCount := s.blocks

/-- A transition at an index closes the open batch if it does not fit, and goes into the open one. -/
def addToBatch (targetBlocksPerBatch : Int) (s : BatchState) (entry : FrozenTransition × Nat) : BatchState :=
  let rowBlocks := entry.1.targetBlockIndices.length
  let s :=
    if 0 < s.count ∧ (targetBlocksPerBatch < s.blocks + rowBlocks ∨ some entry.1.split ≠ s.currentSplit) then
      { s with batches := s.batches ++ [s.openBatch], start := entry.2, blocks := 0, count := 0 }
    else s
  { s with currentSplit := some entry.1.split, blocks := s.blocks + rowBlocks, count := s.count + 1 }

def transitionBatches (targetBlocksPerBatch : Int) (transitions : List FrozenTransition) : List Batch :=
  let s := transitions.zipIdx.foldl (addToBatch targetBlocksPerBatch) {}
  s.batches ++ [s.openBatch]

/-- The transitions of a batch. -/
def Batch.cases (transitions : List FrozenTransition) (b : Batch) : List FrozenTransition :=
  Segments.slice transitions (b.startCase - 1) (b.startCase - 1 + b.caseCount)

def targetBlockTotal (transitions : List FrozenTransition) : Nat :=
  (transitions.map fun t => t.targetBlockIndices.length).sum

/-- A batch is of one split, and keeps to the budget unless it is a single transition. -/
structure IsBatch (targetBlocksPerBatch : Int) (transitions : List FrozenTransition) (b : Batch) : Prop where
  inside : b.startCase - 1 + b.caseCount ≤ transitions.length
  split : ∀ t ∈ b.cases transitions, some t.split = b.split
  blocks : b.targetBlockCount = targetBlockTotal (b.cases transitions)
  budget : (b.targetBlockCount : Int) ≤ targetBlocksPerBatch ∨ b.caseCount = 1

/-- The batches stand in order and are consecutive intervals of the plan, none of them empty. -/
def Consecutive (batches : List Batch) (stop : Nat) : Prop :=
  Segments.Tiles (fun b : Batch => b.startCase - 1) (fun b => b.startCase - 1 + b.caseCount) 0 batches stop ∧
    batches.map Batch.batch = List.range' 1 batches.length

section Batching

variable {target : Int}

theorem IsBatch.append {transitions : List FrozenTransition} {b : Batch} (h : IsBatch target transitions b)
    (more : List FrozenTransition) : IsBatch target (transitions ++ more) b := by
  have hcases : b.cases (transitions ++ more) = b.cases transitions :=
    Segments.slice_append_of_le _ _ h.inside
  refine ⟨?_, ?_, ?_, h.budget⟩
  · rw [List.length_append]
    exact Nat.le_trans h.inside (Nat.le_add_right _ _)
  · rw [hcases]
    exact h.split
  · rw [hcases]
    exact h.blocks

/-- The batches after the transitions so far. -/
structure Batched (target : Int) (transitions : List FrozenTransition) (s : BatchState) : Prop where
  closed : ∀ b ∈ s.batches, IsBatch target transitions b
  consecutive : Consecutive s.batches s.start
  current : s.start + s.count = transitions.length
  isOpen : transitions ≠ [] → 0 < s.count
  fresh : s.count = 0 → s.blocks = 0
  openBatch : 0 < s.count → IsBatch target transitions s.openBatch

theorem Consecutive.close {s : BatchState} (h : Consecutive s.batches s.start) (hcount : 0 < s.count) :
    Consecutive (s.batches ++ [s.openBatch]) (s.start + s.count) := by
  constructor
  · refine h.1.append ⟨rfl, ?_, rfl⟩
    exact Nat.lt_add_of_pos_right hcount
  · rw [List.map_append, h.2, List.length_append, List.length_singleton, List.range'_concat, Nat.one_mul,
      Nat.add_comm 1]
    rfl

/-- A new open batch with a single transition. -/
theorem isBatch_single {transitions : List FrozenTransition} {x : FrozenTransition} {s : BatchState}
    (hstart : s.start = transitions.length) (hcount : s.count = 1) (hsplit : s.currentSplit = some x.split)
    (hblocks : s.blocks = x.targetBlockIndices.length) :
    IsBatch target (transitions ++ [x]) s.openBatch := by
  have hcases : s.openBatch.cases (transitions ++ [x]) = [x] := by
    change Segments.slice (transitions ++ [x]) s.start (s.start + s.count) = [x]
    rw [hstart, hcount, Segments.slice, List.drop_left, Nat.add_sub_cancel_left]
    rfl
  refine ⟨?_, ?_, ?_, Or.inr hcount⟩
  · change s.start + s.count ≤ _
    rw [hstart, hcount, List.length_append]
    exact Nat.le_refl _
  · intro t ht
    rw [hcases, List.mem_singleton] at ht
    rw [ht]
    exact hsplit.symm
  · rw [hcases]
    exact hblocks

/-- An open batch that takes in one more transition. -/
theorem IsBatch.grow {transitions : List FrozenTransition} {x : FrozenTransition} {s : BatchState}
    (h : IsBatch target transitions s.openBatch) (hcurrent : s.start + s.count = transitions.length)
    (hsplit : some x.split = s.currentSplit)
    (hfits : (s.blocks : Int) + x.targetBlockIndices.length ≤ target) :
    IsBatch target (transitions ++ [x])
      { s with
        currentSplit := some x.split
        blocks := s.blocks + x.targetBlockIndices.length
        count := s.count + 1 : BatchState }.openBatch := by
  have hold : s.openBatch.cases transitions = Segments.slice transitions s.start transitions.length := by
    rw [← hcurrent]
    rfl
  have hcases : Segments.slice (transitions ++ [x]) s.start (s.start + (s.count + 1))
      = s.openBatch.cases transitions ++ [x] := by
    have hle : s.start ≤ transitions.length := by omega
    rw [hold, ← Nat.add_assoc, hcurrent, ← Segments.slice_append _ hle (Nat.le_add_right _ 1),
      Segments.slice_append_of_le _ _ (Nat.le_refl _)]
    congr 1
    rw [Segments.slice, List.drop_left, Nat.add_sub_cancel_left]
    rfl
  refine ⟨?_, ?_, ?_, Or.inl ?_⟩
  · change s.start + (s.count + 1) ≤ _
    rw [List.length_append, List.length_singleton]
    omega
  · intro t ht
    change t ∈ Segments.slice (transitions ++ [x]) s.start (s.start + (s.count + 1)) at ht
    rw [hcases, List.mem_append, List.mem_singleton] at ht
    rcases ht with ht | rfl
    · exact (h.split t ht).trans hsplit.symm
    · rfl
  · change s.blocks + _ = targetBlockTotal (Segments.slice (transitions ++ [x]) s.start (s.start + (s.count + 1)))
    have hblocks : s.blocks = targetBlockTotal (s.openBatch.cases transitions) := h.blocks
    rw [hcases, hblocks, targetBlockTotal, targetBlockTotal, List.map_append, List.sum_append]
    rfl
  · change ((s.blocks + x.targetBlockIndices.length : Nat) : Int) ≤ target
    rw [Int.natCast_add]
    exact hfits

/-- **What one transition changes.** -/
theorem Batched.step {transitions : List FrozenTransition} {s : BatchState} (h : Batched target transitions s)
    (x : FrozenTransition) :
    Batched target (transitions ++ [x]) (addToBatch target s (x, transitions.length)) := by
  have hlength : (transitions ++ [x]).length = transitions.length + 1 := List.length_append
  have hcurrent := h.current
  unfold addToBatch
  dsimp only
  split
  · next hclose =>
    -- the open batch is closed and a new one begins
    have hend := h.consecutive.close hclose.1
    rw [hcurrent] at hend
    refine ⟨?_, hend, hlength.symm, fun _ => Nat.zero_lt_succ _, fun h0 => absurd h0 (Nat.succ_ne_zero _),
      fun _ => isBatch_single rfl rfl rfl (Nat.zero_add _)⟩
    · intro b hb
      rcases List.mem_append.mp hb with hb | hb
      · exact (h.closed b hb).append _
      · rw [List.mem_singleton.mp hb]
        exact (h.openBatch hclose.1).append _
  · next hkeep =>
    refine ⟨fun b hb => (h.closed b hb).append _, h.consecutive, ?_, fun _ => Nat.zero_lt_succ _,
      fun h0 => absurd h0 (Nat.succ_ne_zero _), fun _ => ?_⟩
    · rw [hlength]
      dsimp only
      omega
    · by_cases hcount : 0 < s.count
      · have hsame : some x.split = s.currentSplit :=
          not_not.mp fun hne => hkeep ⟨hcount, Or.inr hne⟩
        have hfits : (s.blocks : Int) + x.targetBlockIndices.length ≤ target :=
          not_lt.mp fun hlt => hkeep ⟨hcount, Or.inl hlt⟩
        exact (h.openBatch hcount).grow hcurrent hsame hfits
      · have hzero : s.count = 0 := Nat.eq_zero_of_not_pos hcount
        refine isBatch_single ?_ ?_ rfl ?_
        · dsimp only
          omega
        · dsimp only
          omega
        · dsimp only
          rw [h.fresh hzero, Nat.zero_add]

theorem batched (target : Int) (transitions : List FrozenTransition) :
    Batched target transitions (transitions.zipIdx.foldl (addToBatch target) {}) := by
  induction transitions using List.reverseRecOn with
  | nil =>
      exact ⟨fun b hb => absurd hb List.not_mem_nil, ⟨rfl, rfl⟩, rfl, fun h => absurd rfl h, fun _ => rfl,
        fun h => absurd h (Nat.lt_irrefl 0)⟩
  | append_singleton transitions x ih =>
      rw [List.zipIdx_append, List.foldl_append, Nat.zero_add, List.zipIdx_singleton]
      exact ih.step x

/-- **The batches partition the plan.** -/
theorem transitionBatches_spec (target : Int) {transitions : List FrozenTransition} (hne : transitions ≠ []) :
    (∀ b ∈ transitionBatches target transitions, IsBatch target transitions b) ∧
      Consecutive (transitionBatches target transitions) transitions.length := by
  have h := batched target transitions
  have hopen := h.isOpen hne
  constructor
  · intro b hb
    rcases List.mem_append.mp hb with hb | hb
    · exact h.closed b hb
    · rw [List.mem_singleton.mp hb]
      exact h.openBatch hopen
  · rw [← h.current]
    exact h.consecutive.close hopen

/-- The transitions of consecutive batches are those of the plan, in order. -/
theorem Consecutive.flatMap_cases {batches : List Batch} {transitions : List FrozenTransition}
    (h : Consecutive batches transitions.length) :
    (batches.flatMap fun b => b.cases transitions) = transitions := by
  have hjoin := h.1.flatMap_slice transitions
  rw [Segments.slice, List.drop_zero, Nat.sub_zero, List.take_length] at hjoin
  exact hjoin

/-- The case counts of the batches add up. -/
theorem Consecutive.sum_caseCount {batches : List Batch} {n : Nat} (h : Consecutive batches n) :
    (batches.map Batch.caseCount).sum = n := by
  have hsum := h.1.sum_lengths
  rw [Nat.sub_zero] at hsum
  rw [← hsum]
  refine congrArg List.sum (List.map_congr_left fun b _ => ?_)
  rw [Nat.add_sub_cancel_left]

/-- And so do their block counts. -/
theorem sum_targetBlockCount {target : Int} {batches : List Batch} {transitions : List FrozenTransition}
    (hbatches : ∀ b ∈ batches, IsBatch target transitions b) (h : Consecutive batches transitions.length) :
    (batches.map Batch.targetBlockCount).sum = targetBlockTotal transitions := by
  have hcounts : batches.map Batch.targetBlockCount
      = batches.map fun b => targetBlockTotal (b.cases transitions) :=
    List.map_congr_left fun b hb => (hbatches b hb).blocks
  conv_rhs => rw [← h.flatMap_cases, targetBlockTotal, List.map_flatMap, List.flatMap, List.sum_flatten,
    List.map_map]
  rw [hcounts]
  rfl

end Batching

/-! ### The whole plan -/

def DatasetSplit.order : DatasetSplit → Nat
  | .train => 0
  | .validation => 1
  | .test => 2

def datasetSplits : List DatasetSplit :=
  [.train, .validation, .test]

def sortedTransitions (transitions : List FrozenTransition) : List FrozenTransition :=
  transitions.mergeSort fun a b =>
    decide (toLex (a.split.order, a.currentTaskId) ≤ toLex (b.split.order, b.currentTaskId))

/-- The plan that is written, with the manifests and the counterfactual plan it names. -/
structure FullReferencePlan where
  manifests : List (DatasetSplit × ReferenceManifest)
  blockSize : Nat
  transitionCount : Nat
  totalTestableBlocks : Nat
  totalTargetBlocks : Nat
  targetBlocksPerBatch : Int
  batchCount : Nat
  batches : List Batch
  transitions : List FrozenTransition
  candidateTransitions : Nat
  candidateTransitionsBySplit : List (DatasetSplit × Nat)
  executableTransitions : Nat
  executableTransitionsBySplit : List (DatasetSplit × Nat)
  previouslyCompletedTransitions : Nat
  scheduledTransitions : Nat
  scheduledTransitionsBySplit : List (DatasetSplit × Int)
  structurallyExcludedTransitions : Int
  maxPromptTokens : Int
  maxTestableBlocks : Int

/-- The sum of a counter's values. -/
def countedTotal (counts : DatasetSplit → Nat) : Nat :=
  (datasetSplits.map counts).sum

/-- The options of the manifest of a split. -/
def expansionOptions (s : FreezeState) (excludedTaskIds : List String) (split : DatasetSplit) : ExpansionOptions where
  split := split
  excludedTaskIds := excludedTaskIds
  taskCount := (s.executableCounts split : Int) - s.excludedCounts split
  maxPromptTokens := s.maxPromptTokens
  maxTestableBlocks := s.maxTestableBlocks
  includeRepacking := true

def splitManifest (sha256 : String → HexDigest) (coverage : CoverageArtifact) (sourceSha256 : String)
    (s : FreezeState) (excludedTaskIds : List String) (split : DatasetSplit) :
    Except Raised (DatasetSplit × ReferenceManifest) := do
  let selected ← selectMtragReferenceExpansion sha256 coverage (expansionOptions s excludedTaskIds split)
  .ok (split, { selected with sourceSha256 := some sourceSha256 })

def fullReferencePlan (blockSize : Nat) (targetBlocksPerBatch : Int) (s : FreezeState)
    (manifests : List (DatasetSplit × ReferenceManifest)) : FullReferencePlan :=
  let transitions := sortedTransitions s.transitions
  let batches := transitionBatches targetBlocksPerBatch transitions
  { manifests
    blockSize
    transitionCount := transitions.length
    totalTestableBlocks := (transitions.map fun t => t.testableBlockIndices.length).sum
    totalTargetBlocks := targetBlockTotal transitions
    targetBlocksPerBatch
    batchCount := batches.length
    batches
    transitions
    candidateTransitions := countedTotal s.rawCounts
    candidateTransitionsBySplit := datasetSplits.map fun split => (split, s.rawCounts split)
    executableTransitions := countedTotal s.executableCounts
    executableTransitionsBySplit := datasetSplits.map fun split => (split, s.executableCounts split)
    previouslyCompletedTransitions := countedTotal s.excludedCounts
    scheduledTransitions := transitions.length
    scheduledTransitionsBySplit := datasetSplits.map fun split =>
      (split, (s.executableCounts split : Int) - s.excludedCounts split)
    structurallyExcludedTransitions := (countedTotal s.rawCounts : Int) - countedTotal s.executableCounts
    maxPromptTokens := s.maxPromptTokens
    maxTestableBlocks := s.maxTestableBlocks }

/-- `sourceSha256` is the digest of the dataset file. -/
def freezeMtragFullReferenceSplits (sha256 : String → HexDigest) (coverage : CoverageArtifact)
    (sourceSha256 : String) (excludedTaskIds : List String) (targetBlocksPerBatch : Int) :
    Except Raised FullReferencePlan :=
  if targetBlocksPerBatch < 1 then .error (.valueError "target blocks per batch must be positive")
  else
    match coverage.transitions with
    | none => .error (.valueError "coverage does not match the raw MTRAG source")
    | some rows =>
        if coverage.analysis ≠ some "mtrag-natural-block-coverage" ∨ coverage.sourceSha256 ≠ some sourceSha256 then
          .error (.valueError "coverage does not match the raw MTRAG source")
        else
          match coverage.blockSize with
          | none => .error (.valueError "coverage block size is invalid")
          | some blockSize => do
              let s ← rows.foldlM (freezeRow sha256 blockSize.toNat excludedTaskIds) {}
              if some (countedTotal s.rawCounts : Int) ≠ coverage.candidateTransitionCount then
                .error (.valueError "coverage candidate transition count is inconsistent")
              else
                let manifests ← datasetSplits.mapM (splitManifest sha256 coverage sourceSha256 s excludedTaskIds)
                .ok (fullReferencePlan blockSize.toNat targetBlocksPerBatch s manifests)

/-! ### The first pass -/

section FirstPass

variable (sha256 : String → HexDigest) (blockSize : Nat) (excludedTaskIds : List String)

namespace AnalyzedTransition

/-- The split of a pair's conversation. -/
def split (t : AnalyzedTransition) : DatasetSplit :=
  digestSplit (sha256 (mtragSplitSeed ++ ":" ++ t.current.conversationId))

/-- There is something to test in the pair. -/
def isExecutable (t : AnalyzedTransition) : Bool :=
  !(t.testableBlocks blockSize true).testable.isEmpty

def isScheduled (t : AnalyzedTransition) : Bool :=
  t.isExecutable blockSize && !decide (t.current.taskId ∈ excludedTaskIds)

/-- The entry of the counterfactual plan. -/
def frozen (t : AnalyzedTransition) : FrozenTransition where
  split := t.split sha256
  conversationId := t.current.conversationId
  collection := t.current.collection
  previousTaskId := t.previous.taskId
  currentTaskId := t.current.taskId
  sharedDocumentIds := sharedDocumentIds t.previous t.current
  candidateBlockIndices := (t.testableBlocks blockSize true).candidateBlocks
  testableBlockIndices := (t.testableBlocks blockSize true).testable
  targetBlockIndices := (t.testableBlocks blockSize true).testable
  excludedOutputBlockIndex := (t.testableBlocks blockSize true).excluded

variable {sha256 blockSize excludedTaskIds}

theorem conversationSplit_eq (t : AnalyzedTransition) :
    mtragConversationSplit sha256 t.current.conversationId mtragSplitSeed = .ok (t.split sha256) := by
  rw [mtragConversationSplit, if_neg]
  · rfl
  · rintro (h | h)
    · exact t.current.conversationId_ne h
    · exact absurd h (by decide)

theorem isExecutable_iff (t : AnalyzedTransition) :
    t.isExecutable blockSize = true ↔ (t.testableBlocks blockSize true).testable ≠ [] := by
  rw [isExecutable, Bool.not_eq_true', List.isEmpty_eq_false_iff]

/-- Without candidates there is nothing to test. -/
theorem isExecutable_of_count_eq_zero (hsize : 0 < blockSize) {t : AnalyzedTransition}
    (h : (t.opportunity blockSize).candidateBlockCount = 0) : t.isExecutable blockSize = false := by
  have hnone : candidateBlocksAfter t.previousPrompt.tokenIds t.currentPrompt.tokenIds
      (estimatedNativeCachedTokens t.previousPrompt t.currentPrompt blockSize) blockSize = [] :=
    List.length_eq_zero_iff.mp h
  rw [Bool.eq_false_iff, Ne, isExecutable_iff, not_not, testableBlocks,
    ← filter_isExecutable hsize true, hnone]
  rfl

end AnalyzedTransition

/-- The transitions that the first pass has collected, with the bounds that it has found for them. -/
structure Collected (ts : List AnalyzedTransition) (transitions : List FrozenTransition)
    (maxPromptTokens maxTestableBlocks : Int) : Prop where
  transitions : transitions
    = (ts.filter (AnalyzedTransition.isScheduled blockSize excludedTaskIds)).map
        (AnalyzedTransition.frozen sha256 blockSize)
  bounds : ∀ t ∈ ts, t.isScheduled blockSize excludedTaskIds = true →
    (t.currentPrompt.tokenIds.length : Int) ≤ maxPromptTokens ∧
      ((t.testableBlocks blockSize true).testable.length : Int) ≤ maxTestableBlocks

/-- What the first pass has counted and collected. -/
structure Counts (ts : List AnalyzedTransition) (s : FreezeState) : Prop where
  raw : ∀ sp, s.rawCounts sp
    = ts.countP fun t => decide (0 < (t.opportunity blockSize).candidateBlockCount) && (t.split sha256 == sp)
  executable : ∀ sp, s.executableCounts sp
    = ts.countP fun t => t.isExecutable blockSize && (t.split sha256 == sp)
  excluded : ∀ sp, s.excludedCounts sp = ts.countP fun t =>
    (t.isExecutable blockSize && decide (t.current.taskId ∈ excludedTaskIds)) && (t.split sha256 == sp)
  collected : Collected sha256 blockSize excludedTaskIds ts s.transitions s.maxPromptTokens s.maxTestableBlocks

variable {sha256 blockSize excludedTaskIds}

theorem counted_apply (counts : DatasetSplit → Nat) (split sp : DatasetSplit) :
    counted counts split sp = counts sp + if split == sp then 1 else 0 := by
  rw [counted, Function.update_apply]
  by_cases h : sp = split
  · subst h
    rw [if_pos rfl, if_pos (beq_self_eq_true sp)]
  · have hne : ¬ (split == sp) = true := fun hb => h (beq_iff_eq.mp hb).symm
    rw [if_neg h, if_neg hne, Nat.add_zero]

/-- A counter goes up with the transitions it counts. -/
theorem countP_snoc_pos {p : AnalyzedTransition → Bool} {ts : List AnalyzedTransition} {t : AnalyzedTransition}
    {counts : DatasetSplit → Nat} (hp : p t = true)
    (h : ∀ sp, counts sp = ts.countP fun t => p t && (t.split sha256 == sp)) (sp : DatasetSplit) :
    counted counts (t.split sha256) sp = (ts ++ [t]).countP fun t => p t && (t.split sha256 == sp) := by
  rw [counted_apply, List.countP_append, List.countP_singleton, h, hp, Bool.true_and]

theorem countP_snoc_neg {p : AnalyzedTransition → Bool} {ts : List AnalyzedTransition} {t : AnalyzedTransition}
    {counts : DatasetSplit → Nat} (hp : p t = false)
    (h : ∀ sp, counts sp = ts.countP fun t => p t && (t.split sha256 == sp)) (sp : DatasetSplit) :
    counts sp = (ts ++ [t]).countP fun t => p t && (t.split sha256 == sp) := by
  rw [List.countP_append, List.countP_singleton, ← h, hp, Bool.false_and, if_neg Bool.false_ne_true, Nat.add_zero]

theorem freezeRow_row (hsize : 0 < blockSize) (s : FreezeState) (t : AnalyzedTransition) :
    freezeRow sha256 blockSize excludedTaskIds s (some (t.row blockSize))
      = if (t.opportunity blockSize).candidateBlockCount = 0 then .ok s
        else freezeTransition excludedTaskIds s (t.row blockSize) t.current.conversationId
          t.currentPrompt.tokenIds.length (t.split sha256) (t.testableBlocks blockSize true) := by
  have hbind : freezeRow sha256 blockSize excludedTaskIds s (some (t.row blockSize))
      = if ((t.opportunity blockSize).candidateBlockCount : Int) = 0 then .ok s
        else mtragConversationSplit sha256 t.current.conversationId mtragSplitSeed >>= fun split =>
          mtragTestableBlocks (t.row blockSize).toCoverageRow blockSize true >>= fun blocks =>
            freezeTransition excludedTaskIds s (t.row blockSize) t.current.conversationId
              t.currentPrompt.tokenIds.length split blocks := rfl
  rw [hbind, t.conversationSplit_eq, testableBlocks_row hsize]
  exact if_congr Int.natCast_eq_zero rfl rfl

theorem mem_concat_cases {α : Type} {l : List α} {a b : α} (h : b ∈ l ++ [a]) : b ∈ l ∨ b = a := by
  rwa [List.mem_append, List.mem_singleton] at h

theorem Collected.skip {ts : List AnalyzedTransition} {transitions : List FrozenTransition} {prompt blocks : Int}
    (h : Collected sha256 blockSize excludedTaskIds ts transitions prompt blocks) {t : AnalyzedTransition}
    (ht : t.isScheduled blockSize excludedTaskIds = false) :
    Collected sha256 blockSize excludedTaskIds (ts ++ [t]) transitions prompt blocks := by
  constructor
  · rw [h.transitions, List.filter_append, List.filter_cons_of_neg (Bool.eq_false_iff.mp ht), List.filter_nil,
      List.append_nil]
  · intro t' ht' hscheduled
    rcases mem_concat_cases ht' with hmem | rfl
    · exact h.bounds t' hmem hscheduled
    · exact absurd (ht.symm.trans hscheduled) Bool.false_ne_true

theorem Collected.take {ts : List AnalyzedTransition} {transitions : List FrozenTransition} {prompt blocks : Int}
    (h : Collected sha256 blockSize excludedTaskIds ts transitions prompt blocks) {t : AnalyzedTransition}
    (ht : t.isScheduled blockSize excludedTaskIds = true) :
    Collected sha256 blockSize excludedTaskIds (ts ++ [t]) (transitions ++ [t.frozen sha256 blockSize])
      (max prompt t.currentPrompt.tokenIds.length)
      (max blocks (t.testableBlocks blockSize true).testable.length) := by
  constructor
  · rw [h.transitions, List.filter_append, List.filter_cons_of_pos ht, List.map_append]
    rfl
  · intro t' ht' hscheduled
    rcases mem_concat_cases ht' with hmem | rfl
    · have := h.bounds t' hmem hscheduled
      exact ⟨this.1.trans (le_max_left _ _), this.2.trans (le_max_left _ _)⟩
    · exact ⟨le_max_right _ _, le_max_right _ _⟩

/-- **What one row changes.** -/
theorem Counts.step (hsize : 0 < blockSize) {ts : List AnalyzedTransition} {s : FreezeState}
    (h : Counts sha256 blockSize excludedTaskIds ts s) (t : AnalyzedTransition) :
    ∃ s', freezeRow sha256 blockSize excludedTaskIds s (some (t.row blockSize)) = .ok s' ∧
      Counts sha256 blockSize excludedTaskIds (ts ++ [t]) s' := by
  have hskip : t.isExecutable blockSize = false → t.isScheduled blockSize excludedTaskIds = false := by
    intro hexecutable
    rw [AnalyzedTransition.isScheduled, hexecutable, Bool.false_and]
  rw [freezeRow_row hsize]
  by_cases hcount : (t.opportunity blockSize).candidateBlockCount = 0
  · -- no candidates
    have hexecutable := AnalyzedTransition.isExecutable_of_count_eq_zero hsize hcount
    rw [if_pos hcount]
    refine ⟨s, rfl, countP_snoc_neg ?_ h.raw, countP_snoc_neg hexecutable h.executable,
      countP_snoc_neg ?_ h.excluded, h.collected.skip (hskip hexecutable)⟩
    · rw [hcount]
      rfl
    · rw [hexecutable, Bool.false_and]
  rw [if_neg hcount, freezeTransition]
  have hraw := countP_snoc_pos (decide_eq_true (Nat.pos_of_ne_zero hcount)) h.raw
  by_cases htestable : (t.testableBlocks blockSize true).testable = []
  · -- nothing to test
    have hexecutable : t.isExecutable blockSize = false := by
      rw [Bool.eq_false_iff, Ne, t.isExecutable_iff, not_not]
      exact htestable
    rw [if_pos htestable]
    refine ⟨_, rfl, hraw, countP_snoc_neg hexecutable h.executable, countP_snoc_neg ?_ h.excluded,
      h.collected.skip (hskip hexecutable)⟩
    rw [hexecutable, Bool.false_and]
  have hexecutable := t.isExecutable_iff.mpr htestable
  rw [if_neg htestable]
  have htask : (t.row blockSize).currentTaskId = some t.current.taskId := rfl
  rw [htask]
  dsimp only
  by_cases hexcluded : t.current.taskId ∈ excludedTaskIds
  · -- run before
    rw [if_pos hexcluded]
    refine ⟨_, rfl, hraw, countP_snoc_pos hexecutable h.executable, countP_snoc_pos ?_ h.excluded,
      h.collected.skip ?_⟩
    · rw [hexecutable, decide_eq_true hexcluded, Bool.true_and]
    · rw [AnalyzedTransition.isScheduled, decide_eq_true hexcluded, Bool.not_true, Bool.and_false]
  · -- scheduled
    rw [if_neg hexcluded]
    refine ⟨_, rfl, hraw, countP_snoc_pos hexecutable h.executable, countP_snoc_neg ?_ h.excluded,
      h.collected.take ?_⟩
    · rw [decide_eq_false hexcluded, Bool.and_false]
    · rw [AnalyzedTransition.isScheduled, hexecutable, decide_eq_false hexcluded, Bool.not_false, Bool.true_and]

/-- **The first pass** over the rows of analysed pairs. -/
theorem freezeRows_counts (hsize : 0 < blockSize) (ts : List AnalyzedTransition) :
    ∃ s, (ts.map fun t => some (t.row blockSize)).foldlM (freezeRow sha256 blockSize excludedTaskIds) {} = .ok s ∧
      Counts sha256 blockSize excludedTaskIds ts s := by
  induction ts using List.reverseRecOn with
  | nil =>
      refine ⟨{}, rfl, fun _ => rfl, fun _ => rfl, fun _ => rfl, rfl, ?_⟩
      intro t ht
      cases ht
  | append_singleton ts t ih =>
      obtain ⟨s, hs, hcounts⟩ := ih
      obtain ⟨s', hs', hcounts'⟩ := hcounts.step hsize t
      refine ⟨s', ?_, hcounts'⟩
      rw [List.map_append, List.foldlM_append, hs]
      change freezeRow sha256 blockSize excludedTaskIds s (some (t.row blockSize)) >>= pure = _
      rw [hs']
      rfl

/-- Every transition counts in one split. -/
theorem sum_countP_splits (p : AnalyzedTransition → Bool) (ts : List AnalyzedTransition) :
    (datasetSplits.map fun sp => ts.countP fun t => p t && (t.split sha256 == sp)).sum = ts.countP p := by
  have hone : ∀ sp : DatasetSplit, (datasetSplits.map fun sp' => if sp == sp' then 1 else 0).sum = 1 := by
    intro sp
    cases sp with
    | train => rfl
    | validation => rfl
    | test => rfl
  induction ts with
  | nil => rfl
  | cons t ts ih =>
      have hstep : ∀ sp, (t :: ts).countP (fun t => p t && (t.split sha256 == sp))
          = ts.countP (fun t => p t && (t.split sha256 == sp))
            + if p t then (if t.split sha256 == sp then 1 else 0) else 0 := by
        intro sp
        rw [List.countP_cons]
        cases p t with
        | false => rw [Bool.false_and, if_neg Bool.false_ne_true, if_neg Bool.false_ne_true]
        | true => rw [Bool.true_and, if_pos rfl]
      simp only [hstep]
      rw [List.sum_map_add, ih, List.countP_cons]
      congr 1
      cases p t with
      | false => rfl
      | true => exact hone _

end FirstPass

/-! ### A draw of everything -/

section Draw

variable {sha256 : String → HexDigest} {seed : String}

/-- What a collection has left and what is selected of it are the candidates of the collection. -/
def Divides (all : List ReferenceTask) (s : DrawState) : Prop :=
  ∀ c, (s.available c ++ s.selected.filter fun row => row.collection = c).Perm
    (all.filter fun row => row.collection = c)

theorem takeTask_eq_some {collection : String} {s s' : DrawState} (h : takeTask sha256 seed collection s = some s') :
    ∃ chosen ∈ s.available collection, s'.selected = s.selected ++ [chosen] ∧
      s'.available = Function.update s.available collection ((s.available collection).erase chosen) := by
  obtain ⟨chosen, hchosen, rfl⟩ := Option.map_eq_some_iff.mp h
  exact ⟨chosen, List.argmin_mem hchosen, rfl, rfl⟩

theorem length_takeTask (collection : String) (s s' : DrawState) (h : takeTask sha256 seed collection s = some s') :
    s'.selected.length = s.selected.length + 1 := by
  obtain ⟨chosen, -, hselected, -⟩ := takeTask_eq_some h
  rw [hselected, List.length_append, List.length_singleton]

/-- A collection that has a task left gives one. -/
theorem isSome_takeTask {collection : String} {s : DrawState} (h : s.available collection ≠ []) :
    (takeTask sha256 seed collection s).isSome = true := by
  rw [takeTask, Option.isSome_map, Option.isSome_iff_ne_none, Ne, List.argmin_eq_none]
  exact h

theorem Divides.takeTask {all : List ReferenceTask} {collection : String} {s s' : DrawState} (hs : Divides all s)
    (h : takeTask sha256 seed collection s = some s') : Divides all s' := by
  obtain ⟨chosen, hchosen, hselected, havailable⟩ := takeTask_eq_some h
  have hcollection : chosen.collection = collection := by
    have hmem := (hs collection).mem_iff.mp (List.mem_append_left _ hchosen)
    exact of_decide_eq_true (List.mem_filter.mp hmem).2
  intro c
  rw [hselected, havailable, List.filter_append]
  by_cases hc : c = collection
  · subst hc
    have hone : [chosen].filter (fun row => row.collection = c) = [chosen] :=
      List.filter_cons_of_pos (decide_eq_true hcollection)
    rw [Function.update_self, hone]
    refine List.Perm.trans ?_ (hs c)
    rw [← List.append_assoc]
    refine List.perm_append_comm.trans ?_
    exact ((List.perm_cons_erase hchosen).append_right _).symm
  · have hnone : [chosen].filter (fun row => row.collection = c) = [] := by
      refine List.filter_cons_of_neg ?_
      rw [decide_eq_true_eq, hcollection]
      exact fun h' => hc h'.symm
    rw [Function.update_of_ne hc, hnone, List.append_nil]
    exact hs c

theorem count_filter_collection (l : List ReferenceTask) (a : ReferenceTask) :
    (l.filter fun row => row.collection = a.collection).count a = l.count a :=
  List.count_filter (decide_eq_true rfl)

/-- While something is missing, some collection has a task left. -/
theorem Divides.exists_available {all : List ReferenceTask} {s : DrawState} (h : Divides all s)
    (hlt : s.selected.length < all.length) : ∃ a ∈ all, s.available a.collection ≠ [] := by
  by_contra hnone
  push Not at hnone
  have hperm : all.Subperm s.selected := by
    refine List.subperm_ext_iff.mpr fun a ha => ?_
    have hcount := (h a.collection).count_eq a
    rw [hnone a ha, List.nil_append, count_filter_collection, count_filter_collection] at hcount
    exact Nat.le_of_eq hcount.symm
  have := hperm.length_le
  omega

/-- What is selected are candidates, and all of them once there are as many. -/
theorem Divides.perm {all : List ReferenceTask} {s : DrawState} (h : Divides all s)
    (hlen : all.length ≤ s.selected.length) : s.selected.Perm all := by
  have hsub : s.selected.Subperm all := by
    refine List.subperm_ext_iff.mpr fun a _ => ?_
    have hcount := (h a.collection).count_eq a
    rw [List.count_append, count_filter_collection, count_filter_collection] at hcount
    omega
  exact hsub.perm_of_length_le hlen

/-- **A draw of as many tasks as there are takes them all.** -/
theorem drawTasks_all {all : List ReferenceTask} {collections : List String}
    (hcollections : ∀ a ∈ all, a.collection ∈ collections) : ∀ {rounds : Nat} {s : DrawState}, Divides all s →
      s.selected.length ≤ all.length → all.length ≤ s.selected.length + rounds →
        ∃ s', drawTasks sha256 seed collections all.length rounds s = .ok s' ∧ s'.selected.Perm all := by
  intro rounds
  induction rounds with
  | zero => exact fun {s} hs _ hrounds => ⟨s, rfl, hs.perm hrounds⟩
  | succ rounds ih =>
      intro s hs hle hrounds
      rw [drawTasks]
      by_cases hdone : all.length ≤ s.selected.length
      · rw [if_pos hdone]
        exact ⟨s, rfl, hs.perm hdone⟩
      · rw [if_neg hdone]
        have hlt : s.selected.length < all.length := not_le.mp hdone
        obtain ⟨a, ha, havailable⟩ := hs.exists_available hlt
        set s₂ := RoundRobin.pass (takeTask sha256 seed) (fun s => s.selected.length) all.length collections s
        have hs₂ : Divides all s₂ := RoundRobin.pass_rec (fun _ _ _ h₁ h => h₁.takeTask h) collections s hs
        have hprogress : s.selected.length < s₂.selected.length :=
          RoundRobin.count_lt_pass length_takeTask
            ⟨a.collection, hcollections a ha, isSome_takeTask havailable⟩
        have hbound : s₂.selected.length ≤ all.length :=
          RoundRobin.count_pass_le length_takeTask collections hlt
        dsimp only
        rw [if_neg (by omega)]
        exact ih hs₂ hbound (by omega)

end Draw

/-! ### The manifest of a split -/

section Manifests

variable {sha256 : String → HexDigest} {blockSize : Nat} {excludedTaskIds : List String}

/-- The entry of a manifest. -/
def AnalyzedTransition.task (sha256 : String → HexDigest) (t : AnalyzedTransition) : ReferenceTask :=
  ⟨t.current.taskId, t.current.conversationId, t.current.collection, t.split sha256⟩

theorem transitionIdentity_row (t : AnalyzedTransition) :
    transitionIdentity (some (t.row blockSize))
      = .ok (t.row blockSize, ⟨t.current.conversationId, t.current.collection, t.current.taskId⟩) := by
  refine if_neg ?_
  rintro (h | h | h)
  · exact t.current.conversationId_ne h
  · exact t.current.collection_ne h
  · exact t.current.taskId_ne h

/-- The options of a split find the scheduled transitions eligible. -/
structure FindsScheduled (blockSize : Nat) (excludedTaskIds : List String) (o : ExpansionOptions)
    (ts : List AnalyzedTransition) : Prop where
  repacking : o.includeRepacking = true
  seed : o.splitSeed = mtragSplitSeed
  excluded : o.excludedTaskIds = excludedTaskIds
  bounds : ∀ t ∈ ts, t.isScheduled blockSize excludedTaskIds = true →
    (t.currentPrompt.tokenIds.length : Int) ≤ o.maxPromptTokens ∧
      ((t.testableBlocks blockSize true).testable.length : Int) ≤ o.maxTestableBlocks

/-- The scheduled transitions of a split. -/
def AnalyzedTransition.isScheduledIn (sha256 : String → HexDigest) (blockSize : Nat) (excludedTaskIds : List String)
    (sp : DatasetSplit) (t : AnalyzedTransition) : Bool :=
  t.isScheduled blockSize excludedTaskIds && (t.split sha256 == sp)

theorem withinBounds_row {o : ExpansionOptions} {ts : List AnalyzedTransition}
    (ho : FindsScheduled blockSize excludedTaskIds o ts) {t : AnalyzedTransition} (ht : t ∈ ts)
    (hexcluded : t.current.taskId ∉ excludedTaskIds) :
    withinBounds (t.testableBlocks blockSize true).testable (some (t.currentPrompt.tokenIds.length : Int))
        o.maxPromptTokens o.maxTestableBlocks
      = t.isScheduled blockSize excludedTaskIds := by
  have hscheduled : t.isScheduled blockSize excludedTaskIds = t.isExecutable blockSize := by
    rw [AnalyzedTransition.isScheduled, decide_eq_false hexcluded, Bool.not_false, Bool.and_true]
  rw [withinBounds, hscheduled]
  cases hexecutable : t.isExecutable blockSize with
  | false =>
      rw [AnalyzedTransition.isExecutable] at hexecutable
      rw [hexecutable, Bool.false_and, Bool.false_and]
  | true =>
      obtain ⟨hprompt, hblocks⟩ := ho.bounds t ht (hscheduled.trans hexecutable)
      rw [AnalyzedTransition.isExecutable] at hexecutable
      rw [hexecutable, decide_eq_true hblocks, Option.any_some, decide_eq_true hprompt]
      rfl

/-- **The loop body of the selection** finds the scheduled transitions of its split. -/
theorem expansionCandidate_row (hsize : 0 < blockSize) {o : ExpansionOptions} {ts : List AnalyzedTransition}
    (ho : FindsScheduled blockSize excludedTaskIds o ts) {t : AnalyzedTransition} (ht : t ∈ ts) :
    expansionCandidate sha256 blockSize o (t.row blockSize)
        ⟨t.current.conversationId, t.current.collection, t.current.taskId⟩
      = .ok (if t.isScheduledIn sha256 blockSize excludedTaskIds o.split then some (t.task sha256) else none) := by
  have hblocks : expansionCandidate sha256 blockSize o (t.row blockSize)
        ⟨t.current.conversationId, t.current.collection, t.current.taskId⟩
      = if t.current.taskId ∈ excludedTaskIds then .ok none
        else if t.split sha256 = o.split
            ∧ withinBounds (t.testableBlocks blockSize true).testable
                (some (t.currentPrompt.tokenIds.length : Int)) o.maxPromptTokens o.maxTestableBlocks then
          .ok (some ⟨t.current.taskId, t.current.conversationId, t.current.collection, o.split⟩)
        else .ok none := by
    have hbind : expansionCandidate sha256 blockSize o (t.row blockSize)
          ⟨t.current.conversationId, t.current.collection, t.current.taskId⟩
        = (mtragTestableBlocks (t.row blockSize).toCoverageRow blockSize o.includeRepacking >>= fun blocks =>
          if t.current.taskId ∈ o.excludedTaskIds then .ok none
          else mtragConversationSplit sha256 t.current.conversationId o.splitSeed >>= fun split =>
            if split = o.split
                ∧ withinBounds blocks.testable (some (t.currentPrompt.tokenIds.length : Int))
                    o.maxPromptTokens o.maxTestableBlocks then
              .ok (some ⟨t.current.taskId, t.current.conversationId, t.current.collection, o.split⟩)
            else .ok none) := rfl
    rw [hbind, ho.repacking, ho.seed, ho.excluded, testableBlocks_row hsize, t.conversationSplit_eq]
    rfl
  rw [hblocks, AnalyzedTransition.isScheduledIn]
  by_cases hexcluded : t.current.taskId ∈ excludedTaskIds
  · have hscheduled : t.isScheduled blockSize excludedTaskIds = false := by
      rw [AnalyzedTransition.isScheduled, decide_eq_true hexcluded, Bool.not_true, Bool.and_false]
    rw [if_pos hexcluded, hscheduled, Bool.false_and, if_neg Bool.false_ne_true]
  · rw [if_neg hexcluded, withinBounds_row ho ht hexcluded]
    by_cases hsplit : t.split sha256 = o.split
    · rw [← hsplit, beq_self_eq_true, Bool.and_true]
      cases t.isScheduled blockSize excludedTaskIds with
      | false => rw [if_neg (fun h => Bool.false_ne_true h.2), if_neg Bool.false_ne_true]
      | true =>
          rw [if_pos ⟨rfl, rfl⟩, if_pos rfl]
          rfl
    · rw [if_neg (fun h => hsplit h.1), beq_eq_false_iff_ne.mpr hsplit, Bool.and_false,
        if_neg Bool.false_ne_true]

/-- The loop over the rows of distinct tasks. -/
theorem expansionCandidates_rows (hsize : 0 < blockSize) {o : ExpansionOptions} :
    ∀ {ts : List AnalyzedTransition} {seen : List String}, FindsScheduled blockSize excludedTaskIds o ts →
      (ts.map fun t => t.current.taskId).Nodup → (∀ t ∈ ts, t.current.taskId ∉ seen) →
        expansionCandidates sha256 blockSize o seen (ts.map fun t => some (t.row blockSize))
          = .ok (ts.map fun t => (t.current.collection,
              if t.isScheduledIn sha256 blockSize excludedTaskIds o.split then some (t.task sha256) else none)) := by
  intro ts
  induction ts with
  | nil => exact fun _ _ _ => rfl
  | cons t ts ih =>
      intro seen ho hn hseen
      obtain ⟨hfresh, hn⟩ := List.nodup_cons.mp hn
      have hrest : FindsScheduled blockSize excludedTaskIds o ts :=
        ⟨ho.repacking, ho.seed, ho.excluded, fun t ht => ho.bounds t (List.mem_cons_of_mem _ ht)⟩
      have hih := @ih (t.current.taskId :: seen) hrest hn ?_
      · rw [List.map_cons, expansionCandidates, transitionIdentity_row]
        change (if t.current.taskId ∈ seen then _ else _) = _
        rw [if_neg (hseen t List.mem_cons_self), expansionCandidate_row hsize ho List.mem_cons_self]
        change (expansionCandidates _ _ _ _ _ >>= _) = _
        rw [hih]
        rfl
      · intro t' ht' hmem
        rcases List.mem_cons.mp hmem with heq | hmem
        · exact hfresh (List.mem_map.mpr ⟨t', ht', heq⟩)
        · exact hseen t' (List.mem_cons_of_mem _ ht') hmem

/-- The loop over the rows accepts no task twice. -/
theorem nodup_of_expansionCandidates {o : ExpansionOptions} :
    ∀ {ts : List AnalyzedTransition} {seen : List String} {entries : List (String × Option ReferenceTask)},
      expansionCandidates sha256 blockSize o seen (ts.map fun t => some (t.row blockSize)) = .ok entries →
        (ts.map fun t => t.current.taskId).Nodup ∧ ∀ t ∈ ts, t.current.taskId ∉ seen := by
  intro ts
  induction ts with
  | nil => exact fun _ => ⟨List.nodup_nil, fun t ht => absurd ht List.not_mem_nil⟩
  | cons t ts ih =>
      intro seen entries h
      rw [List.map_cons, expansionCandidates, transitionIdentity_row] at h
      change (if t.current.taskId ∈ seen then _ else _) = _ at h
      split at h
      · cases h
      · next hseen =>
        obtain ⟨candidate, -, h⟩ := Except.bind_eq_ok.mp h
        obtain ⟨rest, hrest, -⟩ := Except.bind_eq_ok.mp h
        obtain ⟨hnodup, hfresh⟩ := ih hrest
        refine ⟨List.nodup_cons.mpr ⟨fun hmem => ?_, hnodup⟩, fun t' ht' hmem => ?_⟩
        · obtain ⟨t', ht', heq⟩ := List.mem_map.mp hmem
          exact hfresh t' ht' (List.mem_cons.mpr (.inl heq))
        · rcases List.mem_cons.mp ht' with rfl | ht'
          · exact hseen hmem
          · exact hfresh t' ht' (List.mem_cons_of_mem _ hmem)

theorem filterMap_candidates (p : AnalyzedTransition → Bool) (ts : List AnalyzedTransition) :
    (ts.map fun t => (t.current.collection, if p t then some (t.task sha256) else none)).filterMap Prod.snd
      = (ts.filter p).map (AnalyzedTransition.task sha256) := by
  rw [List.filterMap_map, ← List.filterMap_eq_filter, List.map_filterMap]
  refine List.filterMap_congr fun t _ => ?_
  rw [Function.comp_apply]
  cases hp : p t with
  | false => simp [hp]
  | true => simp [hp]

/-- The tasks still to be run in a split are the executable ones less those run before. -/
theorem Counts.scheduled {ts : List AnalyzedTransition} {s : FreezeState}
    (h : Counts sha256 blockSize excludedTaskIds ts s) (sp : DatasetSplit) :
    s.executableCounts sp
      = ts.countP (AnalyzedTransition.isScheduledIn sha256 blockSize excludedTaskIds sp) + s.excludedCounts sp := by
  rw [h.executable, h.excluded]
  clear h
  induction ts with
  | nil => rfl
  | cons t ts ih =>
      rw [List.countP_cons, List.countP_cons, List.countP_cons, ih, AnalyzedTransition.isScheduledIn,
        AnalyzedTransition.isScheduled]
      cases t.isExecutable blockSize with
      | false =>
          simp only [Bool.false_and, Bool.false_eq_true, if_false]
          omega
      | true =>
          cases decide (t.current.taskId ∈ excludedTaskIds) with
          | false =>
              simp only [Bool.true_and, Bool.not_false, Bool.false_and, Bool.false_eq_true, if_false]
              omega
          | true =>
              simp only [Bool.true_and, Bool.not_true, Bool.false_and, Bool.false_eq_true, if_false]
              omega

theorem Counts.findsScheduled {ts : List AnalyzedTransition} {s : FreezeState}
    (h : Counts sha256 blockSize excludedTaskIds ts s) (sp : DatasetSplit) :
    FindsScheduled blockSize excludedTaskIds (expansionOptions s excludedTaskIds sp) ts :=
  ⟨rfl, rfl, rfl, h.collected.bounds⟩

theorem Counts.taskCount {ts : List AnalyzedTransition} {s : FreezeState}
    (h : Counts sha256 blockSize excludedTaskIds ts s) (sp : DatasetSplit) :
    (expansionOptions s excludedTaskIds sp).taskCount
      = ts.countP (AnalyzedTransition.isScheduledIn sha256 blockSize excludedTaskIds sp) := by
  change (s.executableCounts sp : Int) - s.excludedCounts sp = _
  rw [h.scheduled sp, Int.natCast_add, Int.add_sub_cancel]

/-- A split with nothing left is refused. -/
theorem select_exhausted {ts : List AnalyzedTransition} {s : FreezeState}
    (h : Counts sha256 blockSize excludedTaskIds ts s) {sp : DatasetSplit} {coverage : CoverageArtifact}
    (hnone : ∀ t ∈ ts, t.isScheduledIn sha256 blockSize excludedTaskIds sp = false) :
    ∃ e, selectMtragReferenceExpansion sha256 coverage (expansionOptions s excludedTaskIds sp) = .error e := by
  have hcount : (expansionOptions s excludedTaskIds sp).taskCount = 0 := by
    rw [h.taskCount, List.countP_eq_zero.mpr fun t ht => Bool.eq_false_iff.mp (hnone t ht)]
    rfl
  rw [selectMtragReferenceExpansion]
  split
  · exact ⟨_, rfl⟩
  · rw [if_pos (Or.inl (by omega))]
    exact ⟨_, rfl⟩

/-- Asked for all its candidates, the selection takes them. -/
theorem expansionManifest_all {coverage : CoverageArtifact} {o : ExpansionOptions}
    {entries : List (String × Option ReferenceTask)}
    (hcount : o.taskCount = (entries.filterMap Prod.snd).length)
    (hcollections : ∀ a ∈ entries.filterMap Prod.snd, a.collection ∈ entries.map Prod.fst) :
    ∃ m, expansionManifest sha256 coverage o entries = .ok m ∧ m.split = o.split ∧
      m.taskCount = m.tasks.length ∧ m.tasks.Perm (entries.filterMap Prod.snd) := by
  set all := entries.filterMap Prod.snd
  obtain ⟨drawn, hdrawn, hperm⟩ := @drawTasks_all sha256 o.splitSeed all
    (sortedNames (entries.map Prod.fst).dedup)
    (fun a ha => List.mem_mergeSort.mpr (List.mem_dedup.mpr (hcollections a ha))) all.length
    { available := fun collection => all.filter fun row => row.collection = collection
      usage := fun conversation => (OrderedDict.get o.priorConversationCounts conversation).getD 0
      selected := [] }
    (fun c => by rw [List.filter_nil, List.append_nil]) (Nat.zero_le _) (Nat.le_add_left _ _)
  have htoNat : o.taskCount.toNat = all.length := by
    rw [hcount, Int.toNat_natCast]
  unfold expansionManifest
  dsimp only
  rw [if_neg (by rw [hcount]; exact Int.lt_irrefl _), htoNat, hdrawn]
  exact ⟨_, rfl, rfl, rfl, hperm⟩

/-- The checks of the selection pass for a split that has something scheduled. -/
theorem Counts.bounds {ts : List AnalyzedTransition} {s : FreezeState}
    (h : Counts sha256 blockSize excludedTaskIds ts s) {sp : DatasetSplit}
    (hsome : ∃ t ∈ ts, t.isScheduledIn sha256 blockSize excludedTaskIds sp = true) :
    1 ≤ (expansionOptions s excludedTaskIds sp).taskCount ∧
      1 ≤ (expansionOptions s excludedTaskIds sp).maxPromptTokens ∧
      1 ≤ (expansionOptions s excludedTaskIds sp).maxTestableBlocks := by
  have hpositive := List.countP_pos_iff.mpr hsome
  obtain ⟨t, ht, hscheduledIn⟩ := hsome
  have hscheduled := (Bool.and_eq_true_iff.mp hscheduledIn).1
  obtain ⟨hprompt, hblocks⟩ := h.collected.bounds t ht hscheduled
  have hprompt_pos : 0 < t.currentPrompt.tokenIds.length := List.length_pos_iff.mpr t.currentPrompt.tokenIds_ne
  have hblocks_pos : 0 < (t.testableBlocks blockSize true).testable.length :=
    List.length_pos_iff.mpr (t.isExecutable_iff.mp (Bool.and_eq_true_iff.mp hscheduled).1)
  refine ⟨?_, ?_, ?_⟩
  · rw [h.taskCount]
    omega
  · change 1 ≤ s.maxPromptTokens
    omega
  · change 1 ≤ s.maxTestableBlocks
    omega

/-- **The selection takes all scheduled transitions of a split** that has some. -/
theorem expansion_takes_all (hsize : 0 < blockSize) {ts : List AnalyzedTransition} {s : FreezeState}
    (h : Counts sha256 blockSize excludedTaskIds ts s) (hids : (ts.map fun t => t.current.taskId).Nodup)
    (hexcluded : "" ∉ excludedTaskIds) {sp : DatasetSplit} {coverage : CoverageArtifact}
    (hkind : isCoverageArtifact coverage = true)
    (hrows : coverageRows coverage = .ok (blockSize, ts.map fun t => some (t.row blockSize)))
    (hsome : ∃ t ∈ ts, t.isScheduledIn sha256 blockSize excludedTaskIds sp = true) :
    ∃ m, selectMtragReferenceExpansion sha256 coverage (expansionOptions s excludedTaskIds sp) = .ok m ∧
      m.split = sp ∧ m.taskCount = m.tasks.length ∧
      m.tasks.Perm ((ts.filter (AnalyzedTransition.isScheduledIn sha256 blockSize excludedTaskIds sp)).map
        (AnalyzedTransition.task sha256)) := by
  obtain ⟨htask, hprompt, hblocks⟩ := h.bounds hsome
  have hcandidates := @filterMap_candidates sha256
    (AnalyzedTransition.isScheduledIn sha256 blockSize excludedTaskIds sp) ts
  have hselect : selectMtragReferenceExpansion sha256 coverage (expansionOptions s excludedTaskIds sp)
      = expansionManifest sha256 coverage (expansionOptions s excludedTaskIds sp)
          (ts.map fun t => (t.current.collection,
            if t.isScheduledIn sha256 blockSize excludedTaskIds sp then some (t.task sha256) else none)) := by
    have hentries := @expansionCandidates_rows sha256 _ _ hsize _ _ [] (h.findsScheduled sp) hids
      (fun _ _ => List.not_mem_nil)
    have hexcluded' : "" ∉ (expansionOptions s excludedTaskIds sp).excludedTaskIds := hexcluded
    have hprior : ¬ ((expansionOptions s excludedTaskIds sp).priorConversationCounts.any fun entry =>
        entry.1 = "" || entry.2 < 0) = true := Bool.false_ne_true
    rw [selectMtragReferenceExpansion, if_neg (by rw [hkind]; exact Bool.false_ne_true.symm),
      if_neg (by omega), if_neg hexcluded', if_neg hprior, hrows]
    change (expansionCandidates _ _ _ _ _ >>= _) = _
    rw [hentries]
    rfl
  rw [hselect, ← hcandidates]
  refine expansionManifest_all ?_ ?_
  · rw [hcandidates, List.length_map, ← List.countP_eq_length_filter]
    exact h.taskCount sp
  · intro a ha
    rw [hcandidates] at ha
    obtain ⟨t, ht, rfl⟩ := List.mem_map.mp ha
    rw [List.map_map]
    exact List.mem_map_of_mem (f := fun t : AnalyzedTransition => t.current.collection) (List.mem_filter.mp ht).1

end Manifests

/-! ### The frozen work -/

def CoverageArtifact.rows (coverage : CoverageArtifact) : List CoverageTransition :=
  (coverage.transitions.getD []).reduceOption

def FrozenTransition.task (t : FrozenTransition) : ReferenceTask :=
  ⟨t.currentTaskId, t.conversationId, t.collection, t.split⟩

/-- The entry of the plan for a row that is executable and not excluded, in the split of its conversation. -/
structure Scheduled (sha256 : String → HexDigest) (blockSize : Nat) (excludedTaskIds : List String)
    (row : CoverageTransition) (t : FrozenTransition) : Prop where
  conversationId : row.conversationId = some t.conversationId
  collection : row.collection = some t.collection
  previousTaskId : row.previousTaskId = some t.previousTaskId
  currentTaskId : row.currentTaskId = some t.currentTaskId
  sharedDocumentIds : row.sharedDocumentIds = some t.sharedDocumentIds
  split : mtragConversationSplit sha256 t.conversationId mtragSplitSeed = .ok t.split
  blocks : mtragTestableBlocks row.toCoverageRow blockSize true
    = .ok ⟨t.candidateBlockIndices, t.testableBlockIndices, t.excludedOutputBlockIndex⟩
  target : t.targetBlockIndices = t.testableBlockIndices
  executable : t.testableBlockIndices ≠ []
  notExcluded : t.currentTaskId ∉ excludedTaskIds

/-- What a frozen plan promises: its transitions, its manifests and its batches are the same work. -/
structure PartitionsWork (sha256 : String → HexDigest) (coverage : CoverageArtifact) (blockSize : Nat)
    (excludedTaskIds : List String) (targetBlocksPerBatch : Int) (plan : FullReferencePlan) : Prop where
  transitions : ∀ t, t ∈ plan.transitions ↔ ∃ row ∈ coverage.rows, Scheduled sha256 blockSize excludedTaskIds row t
  once : (plan.transitions.map FrozenTransition.currentTaskId).Nodup
  splits : plan.manifests.map Prod.fst = datasetSplits
  manifests : ∀ m ∈ plan.manifests, m.2.split = m.1 ∧ m.2.taskCount = m.2.tasks.length ∧
    m.2.tasks.Perm ((plan.transitions.filter fun t => t.split = m.1).map FrozenTransition.task)
  batches : ∀ b ∈ plan.batches, IsBatch targetBlocksPerBatch plan.transitions b
  consecutive : Consecutive plan.batches plan.transitions.length
  transitionCount : plan.transitionCount = plan.transitions.length
  caseTotal : (plan.batches.map Batch.caseCount).sum = plan.transitionCount
  blockTotal : (plan.batches.map Batch.targetBlockCount).sum = plan.totalTargetBlocks
  batchCount : plan.batchCount = plan.batches.length

section Freeze

variable {sha256 : String → HexDigest} {blockSize : Nat} {excludedTaskIds : List String}

/-- The rows of analysed pairs that are scheduled. -/
theorem scheduled_row_iff (hsize : 0 < blockSize) {t : AnalyzedTransition} {f : FrozenTransition} :
    Scheduled sha256 blockSize excludedTaskIds (t.row blockSize) f ↔
      t.isScheduled blockSize excludedTaskIds = true ∧ f = t.frozen sha256 blockSize := by
  constructor
  · intro h
    have hconversation := Option.some.inj h.conversationId
    have htask := Option.some.inj h.currentTaskId
    have hsplit := h.split
    rw [← hconversation, t.conversationSplit_eq] at hsplit
    have hblocks := Except.ok.inj ((testableBlocks_row hsize true t).symm.trans h.blocks)
    have hexecutable : t.isExecutable blockSize = true := by
      rw [t.isExecutable_iff, hblocks]
      exact h.executable
    have hnot : t.current.taskId ∉ excludedTaskIds := by
      rw [htask]
      exact h.notExcluded
    refine ⟨?_, ?_⟩
    · rw [AnalyzedTransition.isScheduled, hexecutable, decide_eq_false hnot]
      rfl
    · rw [AnalyzedTransition.frozen, hblocks, Except.ok.inj hsplit, hconversation, htask,
        Option.some.inj h.collection, Option.some.inj h.previousTaskId, Option.some.inj h.sharedDocumentIds]
      cases f
      congr 1
      exact h.target
  · rintro ⟨hscheduled, rfl⟩
    obtain ⟨hexecutable, hnot⟩ := Bool.and_eq_true_iff.mp hscheduled
    rw [Bool.not_eq_true', decide_eq_false_iff_not] at hnot
    exact ⟨rfl, rfl, rfl, rfl, rfl, t.conversationSplit_eq, testableBlocks_row hsize true t, rfl,
      t.isExecutable_iff.mp hexecutable, hnot⟩

/-- What is frozen for a split. -/
theorem filter_frozen (ts : List AnalyzedTransition) (sp : DatasetSplit) :
    ((((ts.filter (AnalyzedTransition.isScheduled blockSize excludedTaskIds)).map
        (AnalyzedTransition.frozen sha256 blockSize)).filter fun f => f.split = sp).map FrozenTransition.task)
      = (ts.filter (AnalyzedTransition.isScheduledIn sha256 blockSize excludedTaskIds sp)).map
          (AnalyzedTransition.task sha256) := by
  rw [List.filter_map, List.filter_filter, List.map_map]
  have hfilter : ts.filter (fun t => ((fun f : FrozenTransition => decide (f.split = sp)) ∘
        AnalyzedTransition.frozen sha256 blockSize) t && t.isScheduled blockSize excludedTaskIds)
      = ts.filter (AnalyzedTransition.isScheduledIn sha256 blockSize excludedTaskIds sp) := by
    refine List.filter_congr fun t _ => ?_
    rw [AnalyzedTransition.isScheduledIn, Bool.and_comm]
    rfl
  rw [hfilter]
  rfl

/-- **The freezing of an analysed artifact**: the plan of what the first pass has found, once every split has its
manifest. -/
theorem freeze_eq (hsize : 0 < blockSize) {ts : List AnalyzedTransition} {coverage : CoverageArtifact}
    {sourceSha256 model tokenizerClass : String}
    (hcoverage : coverage = (coverageOf blockSize ts).withProvenance sourceSha256 model tokenizerClass)
    {target : Int} (htarget : 1 ≤ target) :
    ∃ s, Counts sha256 blockSize excludedTaskIds ts s ∧
      freezeMtragFullReferenceSplits sha256 coverage sourceSha256 excludedTaskIds target
        = (datasetSplits.mapM (splitManifest sha256 coverage sourceSha256 s excludedTaskIds)).map
            (fullReferencePlan blockSize target s) := by
  obtain ⟨s, hs, hcounts⟩ := @freezeRows_counts sha256 blockSize excludedTaskIds hsize ts
  refine ⟨s, hcounts, ?_⟩
  have hraw : some (countedTotal s.rawCounts : Int) = coverage.candidateTransitionCount := by
    have htotal : countedTotal s.rawCounts
        = ts.countP fun t => decide (0 < (t.opportunity blockSize).candidateBlockCount) := by
      rw [countedTotal, funext hcounts.raw]
      exact sum_countP_splits _ ts
    rw [htotal, hcoverage]
    rfl
  have hrows : coverage.transitions = some (ts.map fun t => some (t.row blockSize)) := by
    rw [hcoverage]
    rfl
  have hblock : coverage.blockSize = some (blockSize : Int) := by
    rw [hcoverage]
    rfl
  have hsource : ¬ (coverage.analysis ≠ some "mtrag-natural-block-coverage" ∨
      coverage.sourceSha256 ≠ some sourceSha256) := by
    rw [hcoverage]
    rintro (h | h)
    · exact h rfl
    · exact h rfl
  unfold freezeMtragFullReferenceSplits
  rw [if_neg (by omega), hrows]
  dsimp only
  rw [if_neg hsource, hblock]
  dsimp only
  rw [Int.toNat_natCast, hs]
  change (if _ then _ else _) = _
  rw [if_neg (not_not.mpr hraw)]
  rfl

/-- A plan is only written if every split has something scheduled. -/
theorem scheduled_of_manifests {ts : List AnalyzedTransition} {s : FreezeState}
    (h : Counts sha256 blockSize excludedTaskIds ts s) {coverage : CoverageArtifact} {sourceSha256 : String}
    {manifests : List (DatasetSplit × ReferenceManifest)}
    (hok : datasetSplits.mapM (splitManifest sha256 coverage sourceSha256 s excludedTaskIds) = .ok manifests)
    (sp : DatasetSplit) : ∃ t ∈ ts, t.isScheduledIn sha256 blockSize excludedTaskIds sp = true := by
  have hsp : sp ∈ datasetSplits := by
    cases sp with
    | train => decide
    | validation => decide
    | test => decide
  obtain ⟨m, -, hm⟩ := Except.exists_ok_of_mapM hok hsp
  obtain ⟨selected, hselected, -⟩ := Except.bind_eq_ok.mp hm
  by_contra hnone
  push Not at hnone
  obtain ⟨e, he⟩ : ∃ e, selectMtragReferenceExpansion sha256 coverage (expansionOptions s excludedTaskIds sp)
      = .error e := select_exhausted h fun t ht => Bool.eq_false_iff.mpr (hnone t ht)
  rw [he] at hselected
  cases hselected

/-- No manifest is made from rows with a task twice. -/
theorem nodup_of_manifests {ts : List AnalyzedTransition} {s : FreezeState} {coverage : CoverageArtifact}
    {sourceSha256 : String} (hkind : isCoverageArtifact coverage = true)
    (hrows : coverageRows coverage = .ok (blockSize, ts.map fun t => some (t.row blockSize)))
    {manifests : List (DatasetSplit × ReferenceManifest)}
    (hok : datasetSplits.mapM (splitManifest sha256 coverage sourceSha256 s excludedTaskIds) = .ok manifests) :
    (ts.map fun t => t.current.taskId).Nodup := by
  have htrain : DatasetSplit.train ∈ datasetSplits := by decide
  obtain ⟨m, -, hm⟩ := Except.exists_ok_of_mapM hok htrain
  obtain ⟨selected, hselected, -⟩ := Except.bind_eq_ok.mp hm
  unfold selectMtragReferenceExpansion at hselected
  rw [hkind, if_neg Bool.noConfusion] at hselected
  split at hselected
  · cases hselected
  · split at hselected
    · cases hselected
    · split at hselected
      · cases hselected
      · rw [hrows] at hselected
        obtain ⟨entry, hentry, hselected⟩ := Except.bind_eq_ok.mp hselected
        cases hentry
        obtain ⟨entries, hentries, -⟩ := Except.bind_eq_ok.mp hselected
        exact (nodup_of_expansionCandidates hentries).1

/-- The manifests of the splits, where each has something scheduled. -/
theorem manifests_ok (hsize : 0 < blockSize) {ts : List AnalyzedTransition} {s : FreezeState}
    (h : Counts sha256 blockSize excludedTaskIds ts s) (hids : (ts.map fun t => t.current.taskId).Nodup)
    (hexcluded : "" ∉ excludedTaskIds) {coverage : CoverageArtifact} {sourceSha256 : String}
    (hkind : isCoverageArtifact coverage = true)
    (hrows : coverageRows coverage = .ok (blockSize, ts.map fun t => some (t.row blockSize)))
    (hsome : ∀ sp, ∃ t ∈ ts, t.isScheduledIn sha256 blockSize excludedTaskIds sp = true) :
    ∃ manifests, datasetSplits.mapM (splitManifest sha256 coverage sourceSha256 s excludedTaskIds) = .ok manifests ∧
      manifests.map Prod.fst = datasetSplits ∧
      ∀ m ∈ manifests, m.2.split = m.1 ∧ m.2.taskCount = m.2.tasks.length ∧
        m.2.tasks.Perm ((ts.filter (AnalyzedTransition.isScheduledIn sha256 blockSize excludedTaskIds m.1)).map
          (AnalyzedTransition.task sha256)) := by
  have hmanifest : ∀ sp, ∃ m, splitManifest sha256 coverage sourceSha256 s excludedTaskIds sp = .ok (sp, m) ∧
      m.split = sp ∧ m.taskCount = m.tasks.length ∧
      m.tasks.Perm ((ts.filter (AnalyzedTransition.isScheduledIn sha256 blockSize excludedTaskIds sp)).map
        (AnalyzedTransition.task sha256)) := by
    intro sp
    obtain ⟨m, hm, hspec⟩ := expansion_takes_all hsize h hids hexcluded hkind hrows (hsome sp)
    refine ⟨{ m with sourceSha256 := some sourceSha256 }, ?_, hspec⟩
    rw [splitManifest, hm]
    rfl
  obtain ⟨manifests, hmanifests, -⟩ := Except.mapM_eq_ok_of_forall
    fun sp (_ : sp ∈ datasetSplits) => ⟨_, (hmanifest sp).choose_spec.1⟩
  refine ⟨manifests, hmanifests, ?_, ?_⟩
  · have hfst : ∀ sp m, splitManifest sha256 coverage sourceSha256 s excludedTaskIds sp = .ok m →
        Prod.fst m = id sp := by
      intro sp m hm
      obtain ⟨m', hm', -⟩ := hmanifest sp
      rw [hm'] at hm
      cases hm
      rfl
    rw [Except.map_eq_map_of_mapM hfst hmanifests, List.map_id]
  · intro m hm
    obtain ⟨sp, -, hsp⟩ := Except.exists_of_mem_mapM hmanifests hm
    obtain ⟨m', hm', hspec⟩ := hmanifest sp
    rw [hm'] at hsp
    cases hsp
    exact hspec

end Freeze

section Freeze

variable {sha256 : String → HexDigest} {blockSize : Nat} {excludedTaskIds : List String}

theorem exists_scheduled_iff (hsize : 0 < blockSize) {ts : List AnalyzedTransition} (sp : DatasetSplit) :
    (∃ row ∈ ts.map (AnalyzedTransition.row blockSize), ∃ t,
        Scheduled sha256 blockSize excludedTaskIds row t ∧ t.split = sp) ↔
      ∃ t ∈ ts, t.isScheduledIn sha256 blockSize excludedTaskIds sp = true := by
  constructor
  · rintro ⟨row, hrow, f, hf, rfl⟩
    obtain ⟨t, ht, rfl⟩ := List.mem_map.mp hrow
    obtain ⟨hscheduled, rfl⟩ := (scheduled_row_iff hsize).mp hf
    exact ⟨t, ht, Bool.and_eq_true_iff.mpr ⟨hscheduled, beq_self_eq_true _⟩⟩
  · rintro ⟨t, ht, hscheduled⟩
    obtain ⟨hscheduled, hsplit⟩ := Bool.and_eq_true_iff.mp hscheduled
    exact ⟨_, List.mem_map_of_mem ht, _, (scheduled_row_iff hsize).mpr ⟨hscheduled, rfl⟩, beq_iff_eq.mp hsplit⟩

/-- **The plan of a successful freezing.** -/
theorem partitionsWork (hsize : 0 < blockSize) {ts : List AnalyzedTransition} {s : FreezeState}
    (h : Counts sha256 blockSize excludedTaskIds ts s) (hids : (ts.map fun t => t.current.taskId).Nodup)
    {coverage : CoverageArtifact} (hrows : coverage.rows = ts.map (AnalyzedTransition.row blockSize))
    {manifests : List (DatasetSplit × ReferenceManifest)} (hsplits : manifests.map Prod.fst = datasetSplits)
    (hmanifests : ∀ m ∈ manifests, m.2.split = m.1 ∧ m.2.taskCount = m.2.tasks.length ∧
      m.2.tasks.Perm ((ts.filter (AnalyzedTransition.isScheduledIn sha256 blockSize excludedTaskIds m.1)).map
        (AnalyzedTransition.task sha256))) (target : Int)
    (hsome : ∃ t ∈ ts, t.isScheduled blockSize excludedTaskIds = true) :
    PartitionsWork sha256 coverage blockSize excludedTaskIds target
      (fullReferencePlan blockSize target s manifests) := by
  have hperm : (sortedTransitions s.transitions).Perm
      ((ts.filter (AnalyzedTransition.isScheduled blockSize excludedTaskIds)).map
        (AnalyzedTransition.frozen sha256 blockSize)) := by
    rw [← h.collected.transitions]
    exact List.mergeSort_perm _ _
  have hne : sortedTransitions s.transitions ≠ [] := by
    obtain ⟨t, ht, hscheduled⟩ := hsome
    have hmem := hperm.mem_iff.mpr (List.mem_map_of_mem (List.mem_filter.mpr ⟨ht, hscheduled⟩))
    exact List.ne_nil_of_mem hmem
  obtain ⟨hbatches, hconsecutive⟩ := transitionBatches_spec target hne
  refine ⟨?_, ?_, hsplits, ?_, hbatches, hconsecutive, rfl, hconsecutive.sum_caseCount,
    sum_targetBlockCount hbatches hconsecutive, rfl⟩
  · intro f
    change f ∈ sortedTransitions s.transitions ↔ _
    rw [hperm.mem_iff, List.mem_map, hrows]
    constructor
    · rintro ⟨t, ht, rfl⟩
      obtain ⟨ht, hscheduled⟩ := List.mem_filter.mp ht
      exact ⟨_, List.mem_map_of_mem ht, (scheduled_row_iff hsize).mpr ⟨hscheduled, rfl⟩⟩
    · rintro ⟨row, hrow, hf⟩
      obtain ⟨t, ht, rfl⟩ := List.mem_map.mp hrow
      obtain ⟨hscheduled, rfl⟩ := (scheduled_row_iff hsize).mp hf
      exact ⟨t, List.mem_filter.mpr ⟨ht, hscheduled⟩, rfl⟩
  · change ((sortedTransitions s.transitions).map FrozenTransition.currentTaskId).Nodup
    rw [(hperm.map FrozenTransition.currentTaskId).nodup_iff, List.map_map]
    exact hids.sublist (List.filter_sublist.map _)
  · intro m hm
    obtain ⟨hsplit, hcount, htasks⟩ := hmanifests m hm
    refine ⟨hsplit, hcount, ?_⟩
    rw [← filter_frozen] at htasks
    exact htasks.trans ((hperm.filter _).map _).symm

end Freeze

theorem rows_coverageOf {blockSize : Nat} {ts : List AnalyzedTransition} (sourceSha256 model tokenizerClass : String) :
    ((coverageOf blockSize ts).withProvenance sourceSha256 model tokenizerClass).rows
      = ts.map (AnalyzedTransition.row blockSize) := by
  rw [CoverageArtifact.rows, CoverageArtifact.withProvenance, coverageOf, Option.getD_some]
  change ((ts.map fun t => some (t.row blockSize)).filterMap id) = _
  rw [List.filterMap_map]
  exact congrFun List.filterMap_eq_map' ts

theorem currentTaskIds_coverageOf {blockSize : Nat} {ts : List AnalyzedTransition}
    (sourceSha256 model tokenizerClass : String) :
    ((coverageOf blockSize ts).withProvenance sourceSha256 model tokenizerClass).rows.filterMap
        CoverageTransition.currentTaskId = ts.map fun t => t.current.taskId := by
  rw [rows_coverageOf, List.filterMap_map]
  exact congrFun List.filterMap_eq_map' ts

theorem coverageRows_coverageOf {blockSize : Nat} (hsize : 0 < blockSize) {ts : List AnalyzedTransition}
    (sourceSha256 model tokenizerClass : String) :
    coverageRows ((coverageOf blockSize ts).withProvenance sourceSha256 model tokenizerClass)
      = .ok (blockSize, ts.map fun t => some (t.row blockSize)) := by
  have hpositive : ¬ (blockSize : Int) < 1 := by omega
  exact if_neg hpositive

/-- A plan is only written if no task is there twice and every split has something left. -/
theorem scheduled_of_frozen {sha256 : String → HexDigest}
    {tokenizer : List MtragMessage → Except PyError RenderedPrompt} {blockSize : Nat}
    {sourceSha256 model tokenizerClass : String} {tasks : List MtragTask} {coverage : CoverageArtifact}
    (hcoverage : mtragCoverageFile tokenizer blockSize sourceSha256 model tokenizerClass tasks = .ok coverage)
    {excludedTaskIds : List String} {target : Int} (htarget : 1 ≤ target) {plan : FullReferencePlan}
    (hplan : freezeMtragFullReferenceSplits sha256 coverage sourceSha256 excludedTaskIds target = .ok plan) :
    (coverage.rows.filterMap CoverageTransition.currentTaskId).Nodup ∧
      ∀ split, ∃ row ∈ coverage.rows, ∃ t, Scheduled sha256 blockSize excludedTaskIds row t ∧ t.split = split := by
  obtain ⟨analysis, hanalysis, rfl⟩ := Except.map_eq_ok.mp hcoverage
  obtain ⟨hsize, ts, rfl, -⟩ := analyzeMtragCoverage_ok hanalysis
  obtain ⟨s, hcounts, hfreeze⟩ := @freeze_eq sha256 blockSize excludedTaskIds hsize ts _ _ _ _ rfl target htarget
  rw [hfreeze] at hplan
  obtain ⟨manifests, hmanifests, -⟩ := Except.map_eq_ok.mp hplan
  refine ⟨?_, fun split => ?_⟩
  · rw [currentTaskIds_coverageOf]
    exact nodup_of_manifests rfl (coverageRows_coverageOf hsize ..) hmanifests
  · rw [rows_coverageOf, exists_scheduled_iff hsize]
    exact scheduled_of_manifests hcounts hmanifests split

/-- **What is frozen is all the work there is**, once and in its split, and the plan is written exactly if no current
task is there twice and every split has something left. -/
theorem fullReferenceSplits_iff (sha256 : String → HexDigest)
    {tokenizer : List MtragMessage → Except PyError RenderedPrompt} {blockSize : Nat}
    {sourceSha256 model tokenizerClass : String} {tasks : List MtragTask} {coverage : CoverageArtifact}
    (hcoverage : mtragCoverageFile tokenizer blockSize sourceSha256 model tokenizerClass tasks = .ok coverage)
    {excludedTaskIds : List String} (hexcluded : "" ∉ excludedTaskIds) {targetBlocksPerBatch : Int}
    (htarget : 1 ≤ targetBlocksPerBatch) :
    (∃ plan, freezeMtragFullReferenceSplits sha256 coverage sourceSha256 excludedTaskIds targetBlocksPerBatch
        = .ok plan ∧
      PartitionsWork sha256 coverage blockSize excludedTaskIds targetBlocksPerBatch plan) ↔
      (coverage.rows.filterMap CoverageTransition.currentTaskId).Nodup ∧
        ∀ split, ∃ row ∈ coverage.rows, ∃ t, Scheduled sha256 blockSize excludedTaskIds row t ∧ t.split = split := by
  constructor
  · rintro ⟨plan, hplan, -⟩
    exact scheduled_of_frozen hcoverage htarget hplan
  · rintro ⟨hids, hsome⟩
    obtain ⟨analysis, hanalysis, rfl⟩ := Except.map_eq_ok.mp hcoverage
    obtain ⟨hsize, ts, rfl, -⟩ := analyzeMtragCoverage_ok hanalysis
    obtain ⟨s, hcounts, hfreeze⟩ :=
      @freeze_eq sha256 blockSize excludedTaskIds hsize ts _ _ _ _ rfl targetBlocksPerBatch htarget
    simp only [rows_coverageOf, exists_scheduled_iff hsize] at hsome
    rw [currentTaskIds_coverageOf] at hids
    obtain ⟨manifests, hmanifests, hfst, hspec⟩ :=
      @manifests_ok _ _ _ hsize _ _ hcounts hids hexcluded _ sourceSha256 rfl (coverageRows_coverageOf hsize ..) hsome
    obtain ⟨t, ht, hscheduled⟩ := hsome .train
    refine ⟨fullReferencePlan blockSize targetBlocksPerBatch s manifests, ?_, ?_⟩
    · rw [hfreeze, hmanifests]
      rfl
    · exact partitionsWork hsize hcounts hids (rows_coverageOf ..) hfst hspec targetBlocksPerBatch
        ⟨t, ht, (Bool.and_eq_true_iff.mp hscheduled).1⟩

/-- Two turns of a conversation. -/
def sampleTask (collection conversationId taskId : String) (turn : Nat) (hcollection : collection ≠ "")
    (hconversation : conversationId ≠ "") (htask : taskId ≠ "") : MtragTask where
  taskId := taskId
  conversationId := conversationId
  turn := turn
  collection := collection
  contexts := []
  messages := if turn = 1 then [⟨"user", "What?"⟩] else [⟨"user", "What?"⟩, ⟨"assistant", "This."⟩, ⟨"user", "Why?"⟩]
  targetText := "Because."
  taskId_ne := htask
  conversationId_ne := hconversation
  collection_ne := hcollection

/-- The system message and a question, or a longer prompt. -/
def sampleTokenizer (messages : List MtragMessage) : Except PyError RenderedPrompt :=
  .ok (if messages.length = 2 then pilotSource else pilotTarget)

def digitsOf (digits : List Nat) : HexDigest :=
  digits.map fun n => ⟨n % 16, Nat.mod_lt n (Nat.succ_pos 15)⟩

/-- The first digits of three digests; those of the other texts are not read. -/
def sampleSha256 (text : String) : HexDigest :=
  if text = "cacheselect-mtrag-v1:chat" then digitsOf [3, 12, 15, 0, 14, 1, 15, 14]
  else if text = "cacheselect-mtrag-v1:a" then digitsOf [8, 14, 13, 5, 10, 0, 11, 2]
  else if text = "cacheselect-mtrag-v1:b" then digitsOf [2, 5, 9, 1, 7, 12, 14, 11]
  else []

/-- The two turns of a conversation, if none of its names is empty. -/
def samplePair (collection conversationId taskId taskId' : String) : Option AnalyzedTransition :=
  if h : collection ≠ "" ∧ conversationId ≠ "" ∧ taskId ≠ "" ∧ taskId' ≠ "" then
    some ⟨sampleTask collection conversationId taskId 1 h.1 h.2.1 h.2.2.1,
      sampleTask collection conversationId taskId' 2 h.1 h.2.1 h.2.2.2, pilotSource, pilotTarget⟩
  else none

/-- Two turns of each conversation, given with its collection and the id of its second task. -/
def samplePairsOf (conversations : List (String × String × String)) : List AnalyzedTransition :=
  conversations.filterMap fun c => samplePair c.1 c.2.1 (c.2.1 ++ "<::>1") c.2.2

def samplePairs : List AnalyzedTransition :=
  samplePairsOf [("cloud", "a", "a<::>2"), ("cloud", "b", "b<::>2"), ("cloud", "chat", "chat<::>2")]

def sampleTasks : List MtragTask :=
  samplePairs.flatMap fun t => [t.previous, t.current]

theorem conversationTransitions_pair {conversationId : String} {x y : MtragTask} (h : y.turn = x.turn + 1) :
    conversationTransitions conversationId [x, y] = .ok [(x, y)] := by
  have hsorted : [x, y].mergeSort (fun a b => decide (a.turn ≤ b.turn)) = [x, y] := by
    refine List.mergeSort_of_pairwise (List.pairwise_pair.mpr ?_)
    rw [decide_eq_true_eq]
    omega
  have hnodup : ([x, y].map MtragTask.turn).Nodup := by
    refine List.nodup_cons.mpr ⟨?_, List.nodup_singleton _⟩
    rw [List.map_singleton, List.mem_singleton]
    omega
  unfold conversationTransitions
  rw [hsorted]
  dsimp only
  rw [if_neg (not_not.mpr hnodup)]
  change ((adjacentPair conversationId (x, y)) >>= _) = _
  rw [adjacentPair, if_neg (not_not.mpr h)]
  rfl

/-- Two turns of every conversation, the conversations in order, make one transition each. -/
theorem adjacent_pairs {ts : List AnalyzedTransition}
    (hkeys : OrderedDict.keys (OrderedDict.grouped MtragTask.conversationId id
      (ts.flatMap fun t => [t.previous, t.current])) = ts.map fun t => t.current.conversationId)
    (hsorted : (ts.map fun t => t.current.conversationId).Pairwise fun a b => decide (a ≤ b) = true)
    (hgroup : ∀ t ∈ ts, (OrderedDict.get (OrderedDict.grouped MtragTask.conversationId id
        (ts.flatMap fun t => [t.previous, t.current])) t.current.conversationId).getD [] = [t.previous, t.current] ∧
      t.current.turn = t.previous.turn + 1) :
    adjacentMtragTransitions (ts.flatMap fun t => [t.previous, t.current])
      = .ok (ts.map fun t => (t.previous, t.current)) := by
  have hpairs : ∀ t ∈ ts, conversationTransitions t.current.conversationId
      ((OrderedDict.get (OrderedDict.grouped MtragTask.conversationId id
        (ts.flatMap fun t => [t.previous, t.current])) t.current.conversationId).getD [])
      = .ok [(t.previous, t.current)] := by
    intro t ht
    rw [(hgroup t ht).1, conversationTransitions_pair (hgroup t ht).2]
  have hnames : sortedNames (ts.map fun t => t.current.conversationId) = ts.map fun t => t.current.conversationId :=
    List.mergeSort_of_pairwise hsorted
  unfold adjacentMtragTransitions
  dsimp only
  rw [hkeys, hnames, List.mapM_map, Function.comp_def, Except.mapM_eq_ok_map hpairs]
  change Except.ok (ts.map fun t => [(t.previous, t.current)]).flatten = _
  rw [← List.flatMap_def, ← List.map_eq_flatMap]

theorem analyzed_pairs {tokenizer : List MtragMessage → Except PyError RenderedPrompt} {blockSize : Nat}
    {ts : List AnalyzedTransition} (hsize : ¬ blockSize < 1)
    (hsome : ¬ (ts.flatMap fun t => [t.previous, t.current]).isEmpty = true)
    (hadjacent : adjacentMtragTransitions (ts.flatMap fun t => [t.previous, t.current])
      = .ok (ts.map fun t => (t.previous, t.current)))
    (hrows : ∀ t ∈ ts, analyzeAdjacentTasks tokenizer blockSize (t.previous, t.current) = .ok (t.row blockSize))
    (sourceSha256 model tokenizerClass : String) :
    mtragCoverageFile tokenizer blockSize sourceSha256 model tokenizerClass
        (ts.flatMap fun t => [t.previous, t.current])
      = .ok ((coverageOf blockSize ts).withProvenance sourceSha256 model tokenizerClass) := by
  have hanalyzed : (ts.map fun t => (t.previous, t.current)).mapM (analyzeAdjacentTasks tokenizer blockSize)
      = .ok (ts.map (AnalyzedTransition.row blockSize)) := by
    rw [List.mapM_map, Function.comp_def, Except.mapM_eq_ok_map hrows]
  refine Except.map_eq_ok.mpr ⟨coverageOf blockSize ts, ?_, rfl⟩
  rw [analyzeMtragCoverage, if_neg hsize, if_neg hsome]
  refine Except.bind_eq_ok.mpr ⟨_, hadjacent, Except.bind_eq_ok.mpr ⟨_, hanalyzed, congrArg Except.ok ?_⟩⟩
  rw [coverageOf, List.map_map, List.countP_map]
  congr 4
  funext t
  exact decide_eq_decide.mpr Int.natCast_pos

/-- The second turn of a sample conversation is analysed against its first. -/
theorem analyze_samplePair {collection conversationId taskId taskId' : String} {t : AnalyzedTransition}
    (h : samplePair collection conversationId taskId taskId' = some t) {blockSize : Nat} (hsize : 0 < blockSize) :
    analyzeAdjacentTasks sampleTokenizer blockSize (t.previous, t.current) = .ok (t.row blockSize) := by
  unfold samplePair at h
  split at h
  · cases h
    have hregion : (locateChangedTokenRegion pilotSource.tokenIds pilotTarget.tokenIds).currentStart
        ≤ commonPrefixLength pilotSource.tokenIds pilotTarget.tokenIds := by
      decide
    have hopportunity := analyzeReuseOpportunity_eq hsize (le_trans (Nat.div_mul_le_self _ blockSize) hregion)
    unfold analyzeAdjacentTasks
    split
    · next hne => exact absurd rfl hne
    exact Except.bind_eq_ok.mpr ⟨_, rfl, Except.bind_eq_ok.mpr ⟨_, rfl, Except.bind_eq_ok.mpr ⟨_, rfl,
      Except.bind_eq_ok.mpr ⟨_, rfl, Except.bind_eq_ok.mpr ⟨_, hopportunity, rfl⟩⟩⟩⟩⟩
  · cases h

theorem samplePairsOf_analyzed {conversations : List (String × String × String)} {blockSize : Nat}
    (hsize : 0 < blockSize)
    (hsome : ¬ ((samplePairsOf conversations).flatMap fun t => [t.previous, t.current]).isEmpty = true)
    (hadjacent : adjacentMtragTransitions ((samplePairsOf conversations).flatMap fun t => [t.previous, t.current])
      = .ok ((samplePairsOf conversations).map fun t => (t.previous, t.current))) :
    mtragCoverageFile sampleTokenizer blockSize "digest" "model" "tokenizer"
        ((samplePairsOf conversations).flatMap fun t => [t.previous, t.current])
      = .ok ((coverageOf blockSize (samplePairsOf conversations)).withProvenance "digest" "model" "tokenizer") := by
  refine analyzed_pairs (Nat.not_lt.mpr hsize) hsome hadjacent (fun t ht => ?_) _ _ _
  obtain ⟨c, -, hc⟩ := List.mem_filterMap.mp ht
  exact analyze_samplePair hc hsize

theorem sample_analyzed : mtragCoverageFile sampleTokenizer 2 "digest" "model" "tokenizer" sampleTasks
    = .ok ((coverageOf 2 samplePairs).withProvenance "digest" "model" "tokenizer") := by
  refine samplePairsOf_analyzed (by decide) (by decide +kernel) (adjacent_pairs ?_ ?_ ?_)
  · decide +kernel
  · decide +kernel
  · decide +kernel

/-- Three conversations, one in each split. -/
theorem fullReferenceSplits_iff_threeConversations :
    ∃ plan, freezeMtragFullReferenceSplits sampleSha256
        ((coverageOf 2 samplePairs).withProvenance "digest" "model" "tokenizer") "digest" [] 900 = .ok plan ∧
      PartitionsWork sampleSha256 ((coverageOf 2 samplePairs).withProvenance "digest" "model" "tokenizer") 2 [] 900
        plan := by
  refine (fullReferenceSplits_iff sampleSha256 sample_analyzed (by decide) (by decide)).mpr
    ⟨by decide +kernel, fun split => ?_⟩
  rw [rows_coverageOf, exists_scheduled_iff Nat.zero_lt_two]
  have hall : ∀ split : DatasetSplit, samplePairs.any (AnalyzedTransition.isScheduledIn sampleSha256 2 [] split) = true := by
    intro split
    cases split <;> decide +kernel
  exact List.any_eq_true.mp (hall split)

/-- Nothing is frozen once the only transition of a split is done, though those of the two others are left. -/
theorem exhausted_split_not_frozen :
    ¬ ∀ (sha256 : String → HexDigest) (tokenizer : List MtragMessage → Except PyError RenderedPrompt)
      (blockSize : Nat) (sourceSha256 model tokenizerClass : String) (tasks : List MtragTask)
      (coverage : CoverageArtifact) (excludedTaskIds : List String) (targetBlocksPerBatch : Int),
      mtragCoverageFile tokenizer blockSize sourceSha256 model tokenizerClass tasks = .ok coverage →
      (coverage.rows.filterMap CoverageTransition.currentTaskId).Nodup → "" ∉ excludedTaskIds →
      1 ≤ targetBlocksPerBatch →
      (∃ row ∈ coverage.rows, ∃ t, Scheduled sha256 blockSize excludedTaskIds row t) →
      ∃ plan, freezeMtragFullReferenceSplits sha256 coverage sourceSha256 excludedTaskIds targetBlocksPerBatch
          = .ok plan ∧
        PartitionsWork sha256 coverage blockSize excludedTaskIds targetBlocksPerBatch plan := by
  intro h
  obtain ⟨plan, hplan, -⟩ := h sampleSha256 sampleTokenizer 2 "digest" "model" "tokenizer" sampleTasks _ ["a<::>2"]
    900 sample_analyzed (by decide +kernel) (by decide) (by decide) (by
      rw [rows_coverageOf]
      exact ⟨_, List.mem_cons_of_mem _ List.mem_cons_self, _,
        (scheduled_row_iff Nat.zero_lt_two).mpr ⟨by decide +kernel, rfl⟩⟩)
  have hvalidation := (scheduled_of_frozen sample_analyzed (by decide) hplan).2 .validation
  rw [rows_coverageOf, exists_scheduled_iff Nat.zero_lt_two] at hvalidation
  have hnone : samplePairs.all (fun t => !t.isScheduledIn sampleSha256 2 ["a<::>2"] .validation) = true := by
    decide +kernel
  obtain ⟨t, ht, hscheduled⟩ := hvalidation
  have hfalse := List.all_eq_true.mp hnone t ht
  rw [hscheduled] at hfalse
  cases hfalse

end CacheSelect.Benchmarks

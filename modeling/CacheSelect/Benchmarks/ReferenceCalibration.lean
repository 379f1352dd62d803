import CacheSelect.Benchmarks.ReferenceExpansion
import CacheSelect.Lib.LeastPerKey

/-! # Calibration tasks

`selectMtragReferenceCalibration` keeps one task of every eligible conversation, sorts those of a collection by the
digests of their ids, and draws from the collections in rounds until it has as many as it was asked for.

What it selects is balanced and leaks nothing between the splits (`calibration_iff`).  It is also the same for every
order of the coverage rows, unless two candidates of a collection have the same rank (`Contested`): sorting leaves
these as they stand in the coverage.  Equal ids are enough for that, and nothing before the selection rejects them.
-/

namespace CacheSelect.Benchmarks

open CacheSelect.Core Features

/-! ### The selection -/

structure CalibrationOptions where
  split : DatasetSplit := .train
  excludedConversationIds : List String := []
  taskCount : Int := 28
  maxPromptTokens : Int := 4096
  maxTestableBlocks : Int := 64
  splitSeed : String := mtragSplitSeed

section Selection

variable (sha256 : String → HexDigest)

def calibrationRank (seed taskId : String) : HexDigest :=
  sha256 (seed ++ ":" ++ taskId)

/-- The loop body: the collection of a row, and its candidate if it is eligible. -/
def calibrationCandidate (blockSize : Nat) (o : CalibrationOptions) (raw : Option CoverageTransition) :
    Except Raised (String × Option ReferenceTask) := do
  let (row, identity) ← transitionIdentity raw
  match row.reuseOpportunity, row.sharedDocumentIds with
  | some opportunity, some _ =>
      let blocks ← mtragTestableBlocks row.toCoverageRow blockSize false
      if identity.conversationId ∈ o.excludedConversationIds then .ok (identity.collection, none)
      else
        let split ← mtragConversationSplit sha256 identity.conversationId o.splitSeed
        if split = o.split
            ∧ withinBounds blocks.testable opportunity.currentTokenCount o.maxPromptTokens o.maxTestableBlocks then
          .ok (identity.collection, some ⟨identity.taskId, identity.conversationId, identity.collection, o.split⟩)
        else .ok (identity.collection, none)
  | _, _ => .error (.valueError "coverage transition has invalid reuse metadata")

/-- The rank of a candidate. -/
def taskRank (seed : String) (task : ReferenceTask) : HexDigest :=
  calibrationRank sha256 seed task.taskId

/-- A candidate becomes the task of its conversation if it is the first of it or ranks below the one there. -/
def keepEligible (seed : String) (eligible : String → List (String × ReferenceTask)) (candidate : ReferenceTask) :
    String → List (String × ReferenceTask) :=
  Function.update eligible candidate.collection
    (LeastPerKey.keep ReferenceTask.conversationId (taskRank sha256 seed) (eligible candidate.collection) candidate)

/-- A round takes the task at its index from every collection that has one. -/
def takeRanked (ranked : String → List ReferenceTask) (roundIndex : Nat) (collection : String)
    (selected : List ReferenceTask) : Option (List ReferenceTask) :=
  (ranked collection)[roundIndex]?.map fun row => selected ++ [row]

/-- The rounds of the draw; `none` while it is not finished. -/
def drawCalibration (ranked : String → List ReferenceTask) (collections : List String) (taskCount : Nat) :
    Nat → Nat → List ReferenceTask → Option (List ReferenceTask)
  | 0, _, selected => if selected.length < taskCount then none else some selected
  | rounds + 1, roundIndex, selected =>
      if selected.length < taskCount then
        drawCalibration ranked collections taskCount rounds (roundIndex + 1)
          (RoundRobin.pass (takeRanked ranked roundIndex) List.length taskCount collections selected)
      else some selected

/-- The manifest of what is selected. -/
def calibrationManifest (coverage : CoverageArtifact) (o : CalibrationOptions) (collections : List String)
    (selected : List ReferenceTask) : ReferenceManifest where
  sourcePromptTemplateVersion := coverage.promptTemplateVersion
  sourceModel := coverage.model
  sourceTokenizerClass := coverage.tokenizerClass
  splitSeed := o.splitSeed
  split := o.split
  requestedTaskCount := o.taskCount
  maxPromptTokens := o.maxPromptTokens
  maxTestableBlocks := o.maxTestableBlocks
  repackingEnabled := none
  taskCount := selected.length
  collectionCount := collections.length
  collectionTaskCounts := collectionTaskCounts collections selected
  selectedConversationCount := none
  previouslyUnusedConversationCount := none
  tasks := selected

/-- The tasks of a collection in the order of their ranks. -/
def rankedByCollection (seed : String) (candidates : List ReferenceTask) (collection : String) :
    List ReferenceTask :=
  LeastPerKey.sortByRank (taskRank sha256 seed)
    ((candidates.foldl (keepEligible sha256 seed) (fun _ => []) collection).map Prod.snd)

/-- The draw from the candidates of all rows, for a number of rounds. -/
def drawCandidates (rounds : Nat) (coverage : CoverageArtifact) (o : CalibrationOptions)
    (entries : List (String × Option ReferenceTask)) : Except Raised (Option ReferenceManifest) :=
  let collections := sortedNames (entries.map Prod.fst).dedup
  let ranked := rankedByCollection sha256 o.splitSeed (entries.filterMap Prod.snd)
  if ((collections.map fun collection => (ranked collection).length).sum : Int) < o.taskCount then
    .error (.valueError "coverage has too few eligible tasks for the requested split")
  else .ok ((drawCalibration ranked collections o.taskCount.toNat rounds 0 []).map
    (calibrationManifest coverage o collections))

/-- The result of the selection after `rounds` rounds of its draw. -/
def selectMtragReferenceCalibration (rounds : Nat) (coverage : CoverageArtifact) (o : CalibrationOptions) :
    Except Raised (Option ReferenceManifest) :=
  if isCoverageArtifact coverage = false then .error (.valueError "input is not an MTRAG coverage artifact")
  else if o.taskCount < 1 ∨ o.maxPromptTokens < 1 ∨ o.maxTestableBlocks < 1 then
    .error (.valueError "calibration selection bounds must be positive integers")
  else if "" ∈ o.excludedConversationIds then
    .error (.valueError "excluded conversation IDs must not be empty")
  else do
    let (blockSize, rows) ← coverageRows coverage
    let entries ← rows.mapM (calibrationCandidate sha256 blockSize o)
    drawCandidates sha256 rounds coverage o entries

end Selection

/-! ### The three splits -/

structure ExclusionRow where
  conversationId : Option String
deriving DecidableEq, Repr

/-- A manifest of tasks or transitions; a list is `some none` where it is there with another type. -/
structure ExclusionManifest where
  sourceSha256 : Option String
  transitions : Option (Option (List (Option ExclusionRow)))
  tasks : Option (Option (List (Option ExclusionRow)))

def excludedConversation : Option ExclusionRow → Except Raised String
  | none => .error (.valueError "exclusion transition must be an object")
  | some row =>
      match row.conversationId with
      | none => .error (.valueError "exclusion transition has no conversation ID")
      | some conversationId =>
          if conversationId = "" then .error (.valueError "exclusion transition has no conversation ID")
          else .ok conversationId

def excludedConversations (manifest : ExclusionManifest) : Except Raised (List String) :=
  match (manifest.transitions.orElse fun _ => manifest.tasks).join with
  | none => .error (.valueError "exclusion manifest has no tasks or transitions")
  | some rows => rows.mapM excludedConversation

/-- The selection of one split, with the default bounds. -/
def freezeSplit (sha256 : String → HexDigest) (rounds : Nat) (coverage : CoverageArtifact) (excluded : List String)
    (taskCounts : DatasetSplit → Option Int) (split : DatasetSplit) :
    Except Raised (DatasetSplit × Option ReferenceManifest) :=
  match taskCounts split with
  | none => .error (.valueError ("missing positive task count for " ++ split.value))
  | some count =>
      if count < 1 then .error (.valueError ("missing positive task count for " ++ split.value))
      else do
        let selected ← selectMtragReferenceCalibration sha256 rounds coverage
          { split := split, excludedConversationIds := excluded, taskCount := count }
        .ok (split, selected)

/-- The manifests that are written; `existingTrainingTransitions` only goes into the plan beside them. -/
def freezeMtragDataSplits (sha256 : String → HexDigest) (rounds : Nat) (coverage : CoverageArtifact)
    (exclusion : ExclusionManifest) (sourceSha256 : String) (taskCounts : DatasetSplit → Option Int)
    (existingTrainingTransitions : Int) : Except Raised (List (DatasetSplit × Option ReferenceManifest)) :=
  if exclusion.sourceSha256 ≠ some sourceSha256 then
    .error (.valueError "raw MTRAG source does not match the previous experiment")
  else do
    let excluded ← excludedConversations exclusion
    if existingTrainingTransitions < 0 then
      .error (.valueError "existing training transition count must be non-negative")
    else datasetSplits.mapM (freezeSplit sha256 rounds coverage excluded taskCounts)

/-! ### What is drawn -/

section Drawn

variable (rank : ReferenceTask → HexDigest)

/-- The tasks of a collection in the order in which they are drawn. -/
def rankedTasks (candidates : List ReferenceTask) (collection : String) : List ReferenceTask :=
  LeastPerKey.ranked ReferenceTask.conversationId rank
    (candidates.filter fun task => task.collection = collection)

/-- The eligible conversations of a collection. -/
def poolOf (candidates : List ReferenceTask) (collection : String) : Nat :=
  ((candidates.filter fun task => task.collection = collection).map ReferenceTask.conversationId).dedup.length

def drawn (candidates : List ReferenceTask) (collections : List String) (taskCount : Nat) : List ReferenceTask :=
  (RoundRobin.drawOrder (rankedTasks rank candidates) collections taskCount).take taskCount

variable {rank}

theorem length_rankedTasks (candidates : List ReferenceTask) (collection : String) :
    (rankedTasks rank candidates collection).length = poolOf candidates collection := by
  rw [rankedTasks, LeastPerKey.ranked, (LeastPerKey.sortByRank_perm _).length_eq, LeastPerKey.length_values]
  rfl

theorem mem_rankedTasks {candidates : List ReferenceTask} {collection : String} {task : ReferenceTask}
    (h : task ∈ rankedTasks rank candidates collection) :
    task.collection = collection ∧ LeastPerKey.Lowest ReferenceTask.conversationId rank
      (candidates.filter fun task => task.collection = collection) task := by
  have hlowest := LeastPerKey.lowest_of_mem_values ((LeastPerKey.sortByRank_perm _).mem_iff.mp h)
  exact ⟨of_decide_eq_true (List.mem_filter.mp hlowest.1).2, hlowest⟩

/-- The loop over the candidates keeps the tasks of a collection apart from the others. -/
theorem foldl_keepEligible (sha256 : String → HexDigest) (seed : String) (candidates : List ReferenceTask)
    (collection : String) :
    candidates.foldl (keepEligible sha256 seed) (fun _ => []) collection
      = LeastPerKey.kept ReferenceTask.conversationId (taskRank sha256 seed)
          (candidates.filter fun task => task.collection = collection) := by
  induction candidates using List.reverseRecOn with
  | nil => rfl
  | append_singleton candidates task ih =>
      rw [List.foldl_concat, keepEligible, List.filter_append]
      by_cases h : task.collection = collection
      · subst h
        have hone : [task].filter (fun t => t.collection = task.collection) = [task] :=
          List.filter_cons_of_pos (decide_eq_true rfl)
        rw [Function.update_self, ih, hone, LeastPerKey.kept_concat]
      · have hnone : [task].filter (fun t => t.collection = collection) = [] :=
          List.filter_cons_of_neg fun h' => h (of_decide_eq_true h')
        rw [Function.update_of_ne (fun h' => h h'.symm), ih, hnone, List.append_nil]

theorem rankedByCollection_eq (sha256 : String → HexDigest) (seed : String) (candidates : List ReferenceTask) :
    rankedByCollection sha256 seed candidates = rankedTasks (taskRank sha256 seed) candidates := by
  funext collection
  rw [rankedByCollection, foldl_keepEligible]
  rfl

/-- As many rounds as tasks are enough. -/
theorem le_length_drawOrder {items : String → List ReferenceTask} {keys : List String} {n : Nat}
    (h : n ≤ (keys.map fun k => (items k).length).sum) : n ≤ (RoundRobin.drawOrder items keys n).length := by
  rw [RoundRobin.length_drawOrder]
  by_cases hall : ∀ k ∈ keys, (items k).length ≤ n
  · have heq : (keys.map fun k => min (items k).length n) = keys.map fun k => (items k).length :=
      List.map_congr_left fun k hk => Nat.min_eq_left (hall k hk)
    rw [heq]
    exact h
  · push Not at hall
    obtain ⟨k, hk, hlt⟩ := hall
    have hle := List.single_le_sum (l := keys.map fun k => min (items k).length n) (fun _ _ => Nat.zero_le _)
      _ (List.mem_map_of_mem hk)
    rw [Nat.min_eq_right (Nat.le_of_lt hlt)] at hle
    exact hle

/-- Later rounds do not change what is drawn. -/
theorem take_drawOrder {items : String → List ReferenceTask} {keys : List String} {n i j : Nat} (hij : i ≤ j)
    (h : n ≤ (RoundRobin.drawOrder items keys i).length) :
    (RoundRobin.drawOrder items keys j).take n = (RoundRobin.drawOrder items keys i).take n := by
  obtain ⟨later, hlater⟩ := @RoundRobin.isPrefix_drawOrder _ _ items keys _ _ hij
  rw [← hlater, List.take_append_of_le_length h]

/-- **The rounds of the draw**, from any round on. -/
theorem drawCalibration_eq {items : String → List ReferenceTask} {keys : List String} {n : Nat} :
    ∀ (rounds roundIndex : Nat), n ≤ (RoundRobin.drawOrder items keys (roundIndex + rounds)).length →
      drawCalibration items keys n rounds roundIndex ((RoundRobin.drawOrder items keys roundIndex).take n)
        = some ((RoundRobin.drawOrder items keys (roundIndex + rounds)).take n) := by
  intro rounds
  induction rounds with
  | zero =>
      intro roundIndex h
      rw [drawCalibration, if_neg]
      · rfl
      · rw [List.length_take]
        have h' : n ≤ (RoundRobin.drawOrder items keys roundIndex).length := h
        omega
  | succ rounds ih =>
      intro roundIndex h
      rw [drawCalibration]
      by_cases hlt : ((RoundRobin.drawOrder items keys roundIndex).take n).length < n
      · have hshort : (RoundRobin.drawOrder items keys roundIndex).length < n := by
          rw [List.length_take] at hlt
          omega
        have hpass := @RoundRobin.pass_append _ _ items roundIndex n (takeRanked items roundIndex)
          (fun _ _ => rfl) keys _ hshort
        have hnext : roundIndex + 1 + rounds = roundIndex + (rounds + 1) := by omega
        rw [if_pos hlt, List.take_of_length_le (Nat.le_of_lt hshort), hpass, ← RoundRobin.drawOrder_succ,
          ih (roundIndex + 1) (by rw [hnext]; exact h), hnext]
      · have hlong : n ≤ (RoundRobin.drawOrder items keys roundIndex).length := by
          rw [List.length_take] at hlt
          omega
        rw [if_neg hlt, take_drawOrder (Nat.le_add_right _ _) hlong]

/-! ### Balance -/

/-- The eligible conversations of all collections are those of each. -/
theorem sum_poolOf {candidates : List ReferenceTask} {collections : List String} (hn : collections.Nodup)
    (hcoll : ∀ a ∈ candidates, a.collection ∈ collections)
    (hsame : ∀ a ∈ candidates, ∀ b ∈ candidates, a.conversationId = b.conversationId → a.collection = b.collection) :
    (collections.map (poolOf candidates)).sum = (candidates.map ReferenceTask.conversationId).dedup.length := by
  have hmem : ∀ c conversationId, conversationId ∈ ((candidates.filter fun task => task.collection = c).map
      ReferenceTask.conversationId).dedup → ∃ a ∈ candidates, a.collection = c ∧ a.conversationId = conversationId := by
    intro c conversationId h
    obtain ⟨a, ha, rfl⟩ := List.mem_map.mp (List.mem_dedup.mp h)
    obtain ⟨ha, hc⟩ := List.mem_filter.mp ha
    exact ⟨a, ha, of_decide_eq_true hc, rfl⟩
  have hnodup : (collections.flatMap fun c => ((candidates.filter fun task => task.collection = c).map
      ReferenceTask.conversationId).dedup).Nodup := by
    refine List.nodup_flatMap.mpr ⟨fun c _ => List.nodup_dedup _, hn.imp fun {c c'} hne => ?_⟩
    intro conversationId h h'
    obtain ⟨a, ha, rfl, rfl⟩ := hmem c conversationId h
    obtain ⟨b, hb, rfl, hab⟩ := hmem c' _ h'
    exact hne (hsame a ha b hb hab.symm)
  have hperm : (collections.flatMap fun c => ((candidates.filter fun task => task.collection = c).map
      ReferenceTask.conversationId).dedup).Perm (candidates.map ReferenceTask.conversationId).dedup := by
    refine (List.perm_ext_iff_of_nodup hnodup (List.nodup_dedup _)).mpr fun conversationId => ?_
    rw [List.mem_flatMap, List.mem_dedup, List.mem_map]
    constructor
    · rintro ⟨c, -, h⟩
      obtain ⟨a, ha, -, rfl⟩ := hmem c conversationId h
      exact ⟨a, ha, rfl⟩
    · rintro ⟨a, ha, rfl⟩
      refine ⟨a.collection, hcoll a ha, List.mem_dedup.mpr (List.mem_map_of_mem ?_)⟩
      exact List.mem_filter.mpr ⟨ha, decide_eq_true rfl⟩
  rw [← hperm.length_eq, List.length_flatMap]
  rfl

theorem length_drawn {candidates : List ReferenceTask} {collections : List String} {n : Nat}
    (h : n ≤ (collections.map (poolOf candidates)).sum) : (drawn rank candidates collections n).length = n := by
  have hsum : (collections.map fun c => (rankedTasks rank candidates c).length) = collections.map (poolOf candidates) :=
    List.map_congr_left fun c _ => length_rankedTasks candidates c
  rw [drawn, List.length_take]
  refine Nat.min_eq_left (le_length_drawOrder ?_)
  rw [hsum]
  exact h

theorem mem_drawn {candidates : List ReferenceTask} {collections : List String} {n : Nat} {task : ReferenceTask}
    (h : task ∈ drawn rank candidates collections n) : task ∈ candidates := by
  have horder := (RoundRobin.drawOrder_perm n).mem_iff.mp (List.mem_of_mem_take h)
  obtain ⟨c, -, hc⟩ := List.mem_flatMap.mp horder
  exact (List.mem_filter.mp (mem_rankedTasks (List.mem_of_mem_take hc)).2.1).1

/-- **No conversation is drawn twice.** -/
theorem nodup_drawn {candidates : List ReferenceTask} {collections : List String} {n : Nat} (hn : collections.Nodup)
    (hsame : ∀ a ∈ candidates, ∀ b ∈ candidates, a.conversationId = b.conversationId → a.collection = b.collection) :
    ((drawn rank candidates collections n).map ReferenceTask.conversationId).Nodup := by
  have hranked : ∀ c, ((rankedTasks rank candidates c).map ReferenceTask.conversationId).Nodup := by
    intro c
    have hperm := (@LeastPerKey.sortByRank_perm _ _ _ rank (LeastPerKey.values ReferenceTask.conversationId rank
      (candidates.filter fun task => task.collection = c))).map ReferenceTask.conversationId
    rw [rankedTasks, LeastPerKey.ranked, hperm.nodup_iff, LeastPerKey.map_key_values]
    exact LeastPerKey.nodup_keys_kept _
  have horder : ((RoundRobin.drawOrder (rankedTasks rank candidates) collections n).map
      ReferenceTask.conversationId).Nodup := by
    rw [((RoundRobin.drawOrder_perm n).map ReferenceTask.conversationId).nodup_iff, List.map_flatMap]
    refine List.nodup_flatMap.mpr ⟨fun c _ => ?_, hn.imp fun {c c'} hne => ?_⟩
    · exact (hranked c).sublist ((List.take_sublist _ _).map _)
    · intro conversationId h h'
      obtain ⟨a, ha, rfl⟩ := List.mem_map.mp h
      obtain ⟨b, hb, hab⟩ := List.mem_map.mp h'
      obtain ⟨rfl, ha⟩ := mem_rankedTasks (List.mem_of_mem_take ha)
      obtain ⟨rfl, hb⟩ := mem_rankedTasks (List.mem_of_mem_take hb)
      exact hne (hsame a (List.mem_filter.mp ha.1).1 b (List.mem_filter.mp hb.1).1 hab.symm)
  exact horder.sublist ((List.take_sublist _ _).map _)

/-- **Two collections differ by at most one task**, unless the one with fewer has no more. -/
theorem balanced_drawn {candidates : List ReferenceTask} {collections : List String} {n : Nat}
    (hn : collections.Nodup) {c c' : String} (hc : c ∈ collections) (hc' : c' ∈ collections) :
    (drawn rank candidates collections n).countP (fun task => task.collection = c)
        ≤ (drawn rank candidates collections n).countP (fun task => task.collection = c') + 1 ∨
      (drawn rank candidates collections n).countP (fun task => task.collection = c') = poolOf candidates c' := by
  obtain ⟨level, hlevel⟩ := @RoundRobin.exists_level _ _ (rankedTasks rank candidates) collections _
    ReferenceTask.collection (fun k a ha => (mem_rankedTasks ha).1) hn n (drawn rank candidates collections n)
    (List.take_prefix _ _)
  obtain ⟨-, hupper⟩ := hlevel c hc
  obtain ⟨hlower, hupper'⟩ := hlevel c' hc'
  rw [List.length_take, length_rankedTasks] at hupper hlower hupper'
  omega

/-! ### The order of the candidates -/

/-- The conversations of the collection with a candidate below this one. -/
def ahead (rank : ReferenceTask → HexDigest) (candidates : List ReferenceTask) (a : ReferenceTask) : Nat :=
  LeastPerKey.keysBelow ReferenceTask.conversationId rank
    (candidates.filter fun task => task.collection = a.collection) (rank a)

/-- Two candidates of a collection have one rank, each is the lowest of its conversation, and the draw gets as far as
their rank. -/
def Contested (rank : ReferenceTask → HexDigest) (candidates : List ReferenceTask) (collections : List String)
    (n : Nat) : Prop :=
  ∃ a b, a ≠ b ∧ a.collection = b.collection ∧ rank a = rank b ∧
    LeastPerKey.Lowest ReferenceTask.conversationId rank
      (candidates.filter fun task => task.collection = a.collection) a ∧
    LeastPerKey.Lowest ReferenceTask.conversationId rank
      (candidates.filter fun task => task.collection = a.collection) b ∧
    RoundRobin.place (poolOf candidates) collections a.collection (ahead rank candidates a) < n

theorem poolOf_perm {candidates candidates' : List ReferenceTask} (h : candidates.Perm candidates') :
    poolOf candidates = poolOf candidates' := by
  funext c
  exact (((h.filter _).map _).dedup).length_eq

theorem lowest_perm {l l' : List ReferenceTask} (h : l.Perm l') {a : ReferenceTask} :
    LeastPerKey.Lowest ReferenceTask.conversationId rank l a ↔
      LeastPerKey.Lowest ReferenceTask.conversationId rank l' a := by
  unfold LeastPerKey.Lowest
  simp only [h.mem_iff]

theorem place_poolOf (candidates : List ReferenceTask) :
    RoundRobin.place (fun c => (rankedTasks rank candidates c).length) = RoundRobin.place (poolOf candidates) :=
  congrArg RoundRobin.place (funext fun c => length_rankedTasks candidates c)

/-- **Where the draws from two orders differ**, two candidates of one rank have changed their places. -/
theorem drawn_eq_of_perm {candidates candidates' : List ReferenceTask} (h : candidates.Perm candidates')
    {collections : List String} (hn : collections.Pairwise (· < ·)) {n : Nat}
    (hpool : n ≤ (collections.map (poolOf candidates)).sum) (hcontested : ¬ Contested rank candidates collections n) :
    drawn rank candidates collections n = drawn rank candidates' collections n := by
  have hlength := @length_drawn rank candidates collections n hpool
  have hlength' := @length_drawn rank candidates' collections n (poolOf_perm h ▸ hpool)
  refine List.ext_getElem? fun j => ?_
  rcases Nat.lt_or_ge j n with hj | hj
  · have hdraw : j < (RoundRobin.drawOrder (rankedTasks rank candidates) collections n).length := by
      rw [drawn, List.length_take] at hlength
      omega
    obtain ⟨c, hc, i, hin, hi, hplace⟩ := RoundRobin.exists_place hn hdraw
    have hplace' : j = RoundRobin.place (fun c => (rankedTasks rank candidates' c).length) collections c i := by
      rw [hplace, place_poolOf, place_poolOf, poolOf_perm h]
    have hi' : i < (rankedTasks rank candidates' c).length := by
      rw [length_rankedTasks, ← poolOf_perm h, ← @length_rankedTasks rank]
      exact hi
    have hget := RoundRobin.getElem?_drawOrder hn hc hi hin
    have hget' := RoundRobin.getElem?_drawOrder hn hc hi' hin
    rw [← hplace, List.getElem?_eq_getElem hi] at hget
    rw [← hplace', List.getElem?_eq_getElem hi'] at hget'
    rw [drawn, drawn, List.getElem?_take_of_lt hj, List.getElem?_take_of_lt hj, hget, hget']
    refine congrArg some (not_not.mp fun hne => hcontested ?_)
    obtain ⟨hac, ha⟩ := mem_rankedTasks (List.getElem_mem hi)
    obtain ⟨hbc, hb⟩ := mem_rankedTasks (List.getElem_mem hi')
    have hrank : rank (rankedTasks rank candidates c)[i] = rank (rankedTasks rank candidates' c)[i] := by
      have hmap := congrArg (fun l => l[i]?) (@LeastPerKey.map_rank_ranked_perm _ _ _ _ _
        ReferenceTask.conversationId rank _ _ (h.filter fun task => decide (task.collection = c)))
      rw [List.getElem?_map, List.getElem?_map] at hmap
      change (rankedTasks rank candidates c)[i]?.map rank = (rankedTasks rank candidates' c)[i]?.map rank at hmap
      rw [List.getElem?_eq_getElem hi, List.getElem?_eq_getElem hi'] at hmap
      exact Option.some.inj hmap
    refine ⟨_, _, hne, hac.trans hbc.symm, hrank, ?_, ?_, ?_⟩
    · rw [hac]
      exact ha
    · rw [hac]
      exact (lowest_perm (h.filter _)).mpr hb
    · have hahead : ahead rank candidates (rankedTasks rank candidates c)[i] ≤ i := by
        rw [ahead, hac, ← LeastPerKey.below_values]
        exact LeastPerKey.below_le_of_getElem? (List.getElem?_eq_getElem hi)
      rw [hac]
      refine Nat.lt_of_le_of_lt (RoundRobin.place_mono _ _ _ hahead) ?_
      rw [← @place_poolOf rank, ← hplace]
      exact hj
  · rw [List.getElem?_eq_none (hlength.symm ▸ hj), List.getElem?_eq_none (hlength'.symm ▸ hj)]

theorem ahead_perm {candidates candidates' : List ReferenceTask} (h : candidates.Perm candidates') (a : ReferenceTask) :
    ahead rank candidates a = ahead rank candidates' a :=
  LeastPerKey.keysBelow_perm (h.filter _) _

/-- **A lowest candidate that is put at the front** is drawn at the place of its rank. -/
theorem getElem?_drawn_cons {a : ReferenceTask} {candidates rest : List ReferenceTask}
    (h : candidates.Perm (a :: rest)) {collections : List String} {n : Nat} (hn : collections.Pairwise (· < ·))
    (ha : a.collection ∈ collections)
    (hlowest : LeastPerKey.Lowest ReferenceTask.conversationId rank
      (candidates.filter fun task => task.collection = a.collection) a)
    (hplace : RoundRobin.place (poolOf candidates) collections a.collection (ahead rank candidates a) < n) :
    (drawn rank (a :: rest) collections n)[RoundRobin.place (poolOf candidates) collections a.collection
      (ahead rank candidates a)]? = some a := by
  rw [lowest_perm (h.filter _)] at hlowest
  rw [poolOf_perm h, ahead_perm h] at hplace ⊢
  have hfilter : (a :: rest).filter (fun task => task.collection = a.collection)
      = a :: rest.filter fun task => task.collection = a.collection :=
    List.filter_cons_of_pos (decide_eq_true rfl)
  have hhead : (rankedTasks rank (a :: rest) a.collection)[ahead rank (a :: rest) a]? = some a := by
    rw [hfilter] at hlowest
    rw [ahead, ← LeastPerKey.below_values, rankedTasks, hfilter]
    exact LeastPerKey.ranked_head hlowest
  obtain ⟨hi, -⟩ := List.getElem?_eq_some_iff.mp hhead
  have hround : ahead rank (a :: rest) a < n := by
    refine Nat.lt_of_le_of_lt ?_ hplace
    have hsingle := List.single_le_sum (fun _ _ => Nat.zero_le _) _
      (List.mem_map_of_mem (f := fun k => min (poolOf (a :: rest) k)
        (if k < a.collection then ahead rank (a :: rest) a + 1 else ahead rank (a :: rest) a)) ha)
    rw [if_neg (lt_irrefl _), ← @length_rankedTasks rank, Nat.min_eq_right (Nat.le_of_lt hi)] at hsingle
    exact hsingle
  rw [drawn, List.getElem?_take_of_lt hplace, ← @place_poolOf rank, RoundRobin.getElem?_drawOrder hn ha hi hround, hhead]

end Drawn

/-! ### The eligible rows -/

section Eligible

variable (sha256 : String → HexDigest) (blockSize : Nat) (o : CalibrationOptions)

/-- A row of a conversation that is not excluded and falls into the split, with something to test within the
bounds. -/
def isEligible (row : CoverageTransition) : Bool :=
  match row.conversationId, mtragTestableBlocks row.toCoverageRow blockSize false with
  | some conversationId, .ok blocks =>
      decide (conversationId ∉ o.excludedConversationIds)
        && decide ((mtragConversationSplit sha256 conversationId o.splitSeed).toOption = some o.split)
        && withinBounds blocks.testable (row.reuseOpportunity.bind CoverageOpportunity.currentTokenCount)
          o.maxPromptTokens o.maxTestableBlocks
  | _, _ => false

def CoverageTransition.referenceTask (split : DatasetSplit) (row : CoverageTransition) : Option ReferenceTask := do
  let taskId ← row.currentTaskId
  let conversationId ← row.conversationId
  let collection ← row.collection
  some ⟨taskId, conversationId, collection, split⟩

/-- The tasks of the eligible rows, in their order. -/
def eligibleTasks (rows : List CoverageTransition) : List ReferenceTask :=
  (rows.filter (isEligible sha256 blockSize o)).filterMap (CoverageTransition.referenceTask o.split)

/-- The collections of all rows. -/
def rowCollections (rows : List CoverageTransition) : List String :=
  sortedNames (rows.filterMap CoverageTransition.collection).dedup

def CoverageArtifact.withRows (coverage : CoverageArtifact) (rows : List CoverageTransition) : CoverageArtifact :=
  { coverage with transitions := some (rows.map some) }

variable {sha256 blockSize o}

/-- An analysed pair that gives an eligible row. -/
def AnalyzedTransition.isEligible (sha256 : String → HexDigest) (blockSize : Nat) (o : CalibrationOptions)
    (t : AnalyzedTransition) : Bool :=
  decide (t.current.conversationId ∉ o.excludedConversationIds)
    && decide (digestSplit (sha256 (o.splitSeed ++ ":" ++ t.current.conversationId)) = o.split)
    && withinBounds (t.testableBlocks blockSize false).testable (some (t.currentPrompt.tokenIds.length : Int))
      o.maxPromptTokens o.maxTestableBlocks

theorem conversationSplit_row (hseed : o.splitSeed ≠ "") (t : AnalyzedTransition) :
    mtragConversationSplit sha256 t.current.conversationId o.splitSeed
      = .ok (digestSplit (sha256 (o.splitSeed ++ ":" ++ t.current.conversationId))) := by
  refine if_neg ?_
  rintro (h | h)
  · exact t.current.conversationId_ne h
  · exact hseed h

theorem isEligible_row (hsize : 0 < blockSize) (hseed : o.splitSeed ≠ "") (t : AnalyzedTransition) :
    isEligible sha256 blockSize o (t.row blockSize) = t.isEligible sha256 blockSize o := by
  have hsome : (mtragConversationSplit sha256 t.current.conversationId o.splitSeed).toOption = some o.split
      ↔ digestSplit (sha256 (o.splitSeed ++ ":" ++ t.current.conversationId)) = o.split := by
    rw [conversationSplit_row hseed]
    exact Option.some_inj
  rw [AnalyzedTransition.isEligible, ← decide_eq_decide.mpr hsome]
  unfold isEligible
  rw [testableBlocks_row hsize]
  rfl

theorem calibrationCandidate_row (hsize : 0 < blockSize) (hseed : o.splitSeed ≠ "") (t : AnalyzedTransition) :
    calibrationCandidate sha256 blockSize o (some (t.row blockSize))
      = .ok (t.current.collection, if t.isEligible sha256 blockSize o then
          (t.row blockSize).referenceTask o.split else none) := by
  have hrow : calibrationCandidate sha256 blockSize o (some (t.row blockSize))
      = (mtragTestableBlocks (t.row blockSize).toCoverageRow blockSize false >>= fun blocks =>
        if t.current.conversationId ∈ o.excludedConversationIds then .ok (t.current.collection, none)
        else mtragConversationSplit sha256 t.current.conversationId o.splitSeed >>= fun split =>
          if split = o.split
              ∧ withinBounds blocks.testable (some (t.currentPrompt.tokenIds.length : Int)) o.maxPromptTokens
                  o.maxTestableBlocks then
            .ok (t.current.collection, (t.row blockSize).referenceTask o.split)
          else .ok (t.current.collection, none)) := by
    rw [calibrationCandidate, transitionIdentity_row]
    rfl
  rw [hrow, testableBlocks_row hsize, conversationSplit_row hseed, AnalyzedTransition.isEligible]
  change (if t.current.conversationId ∈ o.excludedConversationIds then _ else (if _ ∧ _ then _ else _)) = _
  by_cases hexcluded : t.current.conversationId ∈ o.excludedConversationIds
  · rw [if_pos hexcluded, decide_eq_false (not_not.mpr hexcluded), Bool.false_and, Bool.false_and,
      if_neg Bool.false_ne_true]
  · rw [if_neg hexcluded, decide_eq_true hexcluded, Bool.true_and]
    by_cases hin : digestSplit (sha256 (o.splitSeed ++ ":" ++ t.current.conversationId)) = o.split
    · rw [decide_eq_true hin, Bool.true_and]
      by_cases hbounds : withinBounds (t.testableBlocks blockSize false).testable
          (some (t.currentPrompt.tokenIds.length : Int)) o.maxPromptTokens o.maxTestableBlocks = true
      · rw [if_pos ⟨hin, hbounds⟩, if_pos hbounds]
      · rw [if_neg (fun h => hbounds h.2), if_neg hbounds]
    · rw [if_neg (fun h => hin h.1), decide_eq_false hin, Bool.false_and, if_neg Bool.false_ne_true]

theorem eligibleTasks_rows (hsize : 0 < blockSize) (hseed : o.splitSeed ≠ "") (ts : List AnalyzedTransition) :
    eligibleTasks sha256 blockSize o (ts.map (AnalyzedTransition.row blockSize))
      = (ts.filter (AnalyzedTransition.isEligible sha256 blockSize o)).map fun t =>
        ⟨t.current.taskId, t.current.conversationId, t.current.collection, o.split⟩ := by
  have hsome : CoverageTransition.referenceTask o.split ∘ AnalyzedTransition.row blockSize
      = fun t => some ⟨t.current.taskId, t.current.conversationId, t.current.collection, o.split⟩ := rfl
  have hfilter : isEligible sha256 blockSize o ∘ AnalyzedTransition.row blockSize
      = AnalyzedTransition.isEligible sha256 blockSize o := funext (isEligible_row hsize hseed)
  rw [eligibleTasks, List.filter_map, hfilter, List.filterMap_map, hsome]
  exact congrFun List.filterMap_eq_map' _

/-- The entries of the loop. -/
theorem calibrationCandidates_rows (hsize : 0 < blockSize) (hseed : o.splitSeed ≠ "") (ts : List AnalyzedTransition) :
    ∃ entries, (ts.map fun t => some (t.row blockSize)).mapM (calibrationCandidate sha256 blockSize o) = .ok entries ∧
      entries.map Prod.fst = (ts.map (AnalyzedTransition.row blockSize)).filterMap CoverageTransition.collection ∧
      entries.filterMap Prod.snd = eligibleTasks sha256 blockSize o (ts.map (AnalyzedTransition.row blockSize)) := by
  induction ts with
  | nil => exact ⟨[], rfl, rfl, rfl⟩
  | cons t ts ih =>
      obtain ⟨entries, hentries, hcollections, htasks⟩ := ih
      refine ⟨(t.current.collection, if t.isEligible sha256 blockSize o then
        (t.row blockSize).referenceTask o.split else none) :: entries, ?_, ?_, ?_⟩
      · rw [List.map_cons, List.mapM_cons, calibrationCandidate_row hsize hseed t, hentries]
        rfl
      · rw [List.map_cons, hcollections]
        rfl
      · rw [List.map_cons, eligibleTasks, List.filter_cons, List.filterMap_cons, isEligible_row hsize hseed]
        by_cases heligible : t.isEligible sha256 blockSize o = true
        · rw [if_pos heligible, if_pos heligible, htasks]
          rfl
        · rw [if_neg heligible, if_neg heligible, htasks]
          rfl

/-- Rows as the analysis writes them. -/
structure AnalyzedRows (blockSize : Nat) (rows : List CoverageTransition) : Prop where
  analyzed : ∃ ts : List AnalyzedTransition, ts.map (AnalyzedTransition.row blockSize) = rows
  collection : ∀ row ∈ rows, ∀ row' ∈ rows, row.conversationId = row'.conversationId →
    row.collection = row'.collection

theorem AnalyzedRows.perm {rows rows' : List CoverageTransition} (h : AnalyzedRows blockSize rows)
    (hperm : rows'.Perm rows) : AnalyzedRows blockSize rows' where
  analyzed := by
    obtain ⟨ts, rfl⟩ := h.analyzed
    have hcomp := congrFun (congrFun (List.eq_map_comp_perm (AnalyzedTransition.row blockSize)) rows') ts
    obtain ⟨ts', hrows, -⟩ := hcomp.mpr hperm
    exact ⟨ts', hrows.symm⟩
  collection row hrow row' hrow' := h.collection row (hperm.mem_iff.mp hrow) row' (hperm.mem_iff.mp hrow')

theorem analyzedRows_row {ts : List AnalyzedTransition} (h : SameCollection ts) :
    AnalyzedRows blockSize (ts.map (AnalyzedTransition.row blockSize)) where
  analyzed := ⟨ts, rfl⟩
  collection row hrow row' hrow' hsame := by
    obtain ⟨t, ht, rfl⟩ := List.mem_map.mp hrow
    obtain ⟨t', ht', rfl⟩ := List.mem_map.mp hrow'
    exact congrArg some (h t ht t' ht' (Option.some.inj hsame))

theorem mem_eligibleTasks {rows : List CoverageTransition} {task : ReferenceTask}
    (h : task ∈ eligibleTasks sha256 blockSize o rows) :
    ∃ row ∈ rows, isEligible sha256 blockSize o row = true ∧ row.collection = some task.collection ∧
      row.conversationId = some task.conversationId := by
  obtain ⟨row, hrow, htask⟩ := List.mem_filterMap.mp h
  obtain ⟨hrow, heligible⟩ := List.mem_filter.mp hrow
  refine ⟨row, hrow, heligible, ?_⟩
  obtain ⟨taskId, -, htask⟩ := Option.bind_eq_some_iff.mp htask
  obtain ⟨conversationId, hconversation, htask⟩ := Option.bind_eq_some_iff.mp htask
  obtain ⟨collection, hcollection, htask⟩ := Option.bind_eq_some_iff.mp htask
  cases htask
  exact ⟨hcollection, hconversation⟩

theorem isEligible_spec {row : CoverageTransition} {conversationId : String}
    (hrow : row.conversationId = some conversationId) (h : isEligible sha256 blockSize o row = true) :
    conversationId ∉ o.excludedConversationIds ∧
      mtragConversationSplit sha256 conversationId o.splitSeed = .ok o.split := by
  unfold isEligible at h
  rw [hrow] at h
  split at h
  · next conversationId' blocks heq _ =>
    cases heq
    obtain ⟨h, -⟩ := Bool.and_eq_true_iff.mp h
    obtain ⟨hexcluded, hsplit⟩ := Bool.and_eq_true_iff.mp h
    refine ⟨of_decide_eq_true hexcluded, ?_⟩
    have hsplit := of_decide_eq_true hsplit
    cases hresult : mtragConversationSplit sha256 conversationId o.splitSeed with
    | error e => rw [hresult] at hsplit; cases hsplit
    | ok split => rw [hresult] at hsplit; exact congrArg _ (Option.some.inj hsplit)
  · cases h

theorem eligibleTasks_perm {rows rows' : List CoverageTransition} (h : rows.Perm rows') :
    (eligibleTasks sha256 blockSize o rows).Perm (eligibleTasks sha256 blockSize o rows') :=
  (h.filter _).filterMap _

theorem rowCollections_perm {rows rows' : List CoverageTransition} (h : rows.Perm rows') :
    rowCollections rows = rowCollections rows' :=
  sortedNames_eq_of_perm (List.nodup_dedup _) (h.filterMap _).dedup

/-- What the selection checks of its arguments. -/
structure CalibrationOptions.Accepted (o : CalibrationOptions) : Prop where
  taskCount : 1 ≤ o.taskCount
  maxPromptTokens : 1 ≤ o.maxPromptTokens
  maxTestableBlocks : 1 ≤ o.maxTestableBlocks
  excluded : "" ∉ o.excludedConversationIds
  splitSeed : o.splitSeed ≠ ""

theorem collection_mem_rowCollections {rows : List CoverageTransition} :
    ∀ task ∈ eligibleTasks sha256 blockSize o rows, task.collection ∈ rowCollections rows := by
  intro task h
  obtain ⟨row, hrow, -, hcollection, -⟩ := mem_eligibleTasks h
  refine (sortedNames_perm _).mem_iff.mpr (List.mem_dedup.mpr ?_)
  exact List.mem_filterMap.mpr ⟨row, hrow, hcollection⟩

theorem AnalyzedRows.sameCollection {rows : List CoverageTransition} (h : AnalyzedRows blockSize rows) :
    ∀ a ∈ eligibleTasks sha256 blockSize o rows, ∀ b ∈ eligibleTasks sha256 blockSize o rows,
      a.conversationId = b.conversationId → a.collection = b.collection := by
  intro a ha b hb hab
  obtain ⟨row, hrow, -, hcollection, hconversation⟩ := mem_eligibleTasks ha
  obtain ⟨row', hrow', -, hcollection', hconversation'⟩ := mem_eligibleTasks hb
  have hsame := h.collection row hrow row' hrow' (by rw [hconversation, hconversation', hab])
  rw [hcollection, hcollection'] at hsame
  exact Option.some.inj hsame

/-- The eligible conversations are those that the collections have together. -/
theorem AnalyzedRows.sum_poolOf {rows : List CoverageTransition} (h : AnalyzedRows blockSize rows) :
    ((rowCollections rows).map (poolOf (eligibleTasks sha256 blockSize o rows))).sum
      = ((eligibleTasks sha256 blockSize o rows).map ReferenceTask.conversationId).dedup.length :=
  Benchmarks.sum_poolOf ((sortedNames_perm _).nodup_iff.mpr (List.nodup_dedup _)) collection_mem_rowCollections
    h.sameCollection

/-- **What is selected** is what the draw takes from the eligible tasks. -/
theorem select_withRows (hsize : 0 < blockSize) (ho : o.Accepted) {rows : List CoverageTransition}
    (hrows : AnalyzedRows blockSize rows) {coverage : CoverageArtifact} (hkind : isCoverageArtifact coverage = true)
    (hblock : coverage.blockSize = some (blockSize : Int))
    (hpool : o.taskCount ≤ ((eligibleTasks sha256 blockSize o rows).map ReferenceTask.conversationId).dedup.length)
    {rounds : Nat} (hrounds : o.taskCount ≤ rounds) :
    selectMtragReferenceCalibration sha256 rounds (coverage.withRows rows) o
      = .ok (some (calibrationManifest coverage o (rowCollections rows)
          (drawn (taskRank sha256 o.splitSeed) (eligibleTasks sha256 blockSize o rows) (rowCollections rows)
            o.taskCount.toNat))) := by
  obtain ⟨ts, hts⟩ := hrows.analyzed
  obtain ⟨entries, hentries, hcollections, htasks⟩ :=
    @calibrationCandidates_rows sha256 blockSize o hsize ho.splitSeed ts
  have hmap : (ts.map fun t => some (t.row blockSize)) = rows.map some := by
    rw [← hts, List.map_map]
    rfl
  rw [hts] at hcollections htasks
  rw [hmap] at hentries
  have hbounds : ¬ (o.taskCount < 1 ∨ o.maxPromptTokens < 1 ∨ o.maxTestableBlocks < 1) := by
    have h := ho.taskCount
    have h' := ho.maxPromptTokens
    have h'' := ho.maxTestableBlocks
    omega
  have hcoverageRows : coverageRows (coverage.withRows rows) = .ok (blockSize, rows.map some) := by
    have hpositive : ¬ (blockSize : Int) < 1 := by omega
    unfold coverageRows CoverageArtifact.withRows
    rw [hblock]
    exact if_neg hpositive
  have hkind' : ¬ isCoverageArtifact (coverage.withRows rows) = false := by
    have hsame : isCoverageArtifact (coverage.withRows rows) = isCoverageArtifact coverage := rfl
    rw [hsame, hkind]
    exact Bool.noConfusion
  unfold selectMtragReferenceCalibration
  rw [if_neg hkind', if_neg hbounds, if_neg ho.excluded]
  refine Except.bind_eq_ok.mpr ⟨_, hcoverageRows, Except.bind_eq_ok.mpr ⟨entries, hentries, ?_⟩⟩
  have hsum := @AnalyzedRows.sum_poolOf sha256 blockSize o rows hrows
  have hlengths : ((rowCollections rows).map fun c =>
      (rankedTasks (taskRank sha256 o.splitSeed) (eligibleTasks sha256 blockSize o rows) c).length)
      = (rowCollections rows).map (poolOf (eligibleTasks sha256 blockSize o rows)) :=
    List.map_congr_left fun c _ => length_rankedTasks _ c
  unfold drawCandidates
  dsimp only
  rw [htasks, hcollections, rankedByCollection_eq]
  change (if ((((rowCollections rows).map _).sum : Nat) : Int) < _ then _ else _) = _
  rw [hlengths, hsum, if_neg (Int.not_lt.mpr hpool)]
  have henough : o.taskCount.toNat ≤ (RoundRobin.drawOrder (rankedTasks (taskRank sha256 o.splitSeed)
      (eligibleTasks sha256 blockSize o rows)) (rowCollections rows) o.taskCount.toNat).length := by
    refine le_length_drawOrder ?_
    rw [hlengths, hsum]
    omega
  have hlater : o.taskCount.toNat ≤ rounds := by omega
  have hdraw := @drawCalibration_eq (rankedTasks (taskRank sha256 o.splitSeed)
    (eligibleTasks sha256 blockSize o rows)) (rowCollections rows) o.taskCount.toNat rounds 0 (by
      rw [Nat.zero_add]
      exact Nat.le_trans henough (RoundRobin.isPrefix_drawOrder hlater).length_le)
  have hstart : (RoundRobin.drawOrder (rankedTasks (taskRank sha256 o.splitSeed)
      (eligibleTasks sha256 blockSize o rows)) (rowCollections rows) 0).take o.taskCount.toNat = [] := List.take_nil
  rw [Nat.zero_add, take_drawOrder hlater henough, hstart] at hdraw
  change Except.ok (Option.map _ (drawCalibration _ (rowCollections rows) _ _ _ _)) = _
  rw [hdraw]
  rfl

/-- An eligible task is the first one for some order of the rows. -/
theorem exists_rows_cons {rows : List CoverageTransition} {a : ReferenceTask}
    (h : a ∈ eligibleTasks sha256 blockSize o rows) :
    ∃ rows', rows'.Perm rows ∧ ∃ rest, eligibleTasks sha256 blockSize o rows' = a :: rest := by
  obtain ⟨row, hrow, htask⟩ := List.mem_filterMap.mp h
  obtain ⟨hrow, heligible⟩ := List.mem_filter.mp hrow
  obtain ⟨front, back, rfl⟩ := List.append_of_mem hrow
  refine ⟨row :: (front ++ back), List.perm_middle.symm, eligibleTasks sha256 blockSize o (front ++ back), ?_⟩
  rw [eligibleTasks, List.filter_cons_of_pos heligible, List.filterMap_cons_some htask]
  rfl

end Eligible

/-! ### Balanced selections -/

section Balanced

variable (sha256 : String → HexDigest) (blockSize : Nat) (o : CalibrationOptions)

/-- As many tasks as requested, of distinct eligible conversations, evenly from the collections. -/
structure BalancedSelection (rows : List CoverageTransition) (tasks : List ReferenceTask) : Prop where
  taskCount : (tasks.length : Int) = o.taskCount
  eligible : ∀ task ∈ tasks, task ∈ eligibleTasks sha256 blockSize o rows
  unexcluded : ∀ task ∈ tasks, task.conversationId ∉ o.excludedConversationIds
  split : ∀ task ∈ tasks, mtragConversationSplit sha256 task.conversationId o.splitSeed = .ok o.split
  once : (tasks.map ReferenceTask.conversationId).Nodup
  balanced : ∀ c ∈ rowCollections rows, ∀ c' ∈ rowCollections rows,
    tasks.countP (fun task => task.collection = c) ≤ tasks.countP (fun task => task.collection = c') + 1 ∨
      tasks.countP (fun task => task.collection = c') = poolOf (eligibleTasks sha256 blockSize o rows) c'

/-- The manifests of two splits have no conversation in common. -/
def DisjointSplits (coverage : CoverageArtifact) : Prop :=
  ∀ (rounds : Nat) (exclusion : ExclusionManifest) (sourceSha256 : String) (taskCounts : DatasetSplit → Option Int)
    (existingTrainingTransitions : Int) (manifests : List (DatasetSplit × Option ReferenceManifest)),
    freezeMtragDataSplits sha256 rounds coverage exclusion sourceSha256 taskCounts existingTrainingTransitions
        = .ok manifests →
      ∀ p ∈ manifests, ∀ q ∈ manifests, p.1 ≠ q.1 → ∀ m m', p.2 = some m → q.2 = some m' →
        ∀ a ∈ m.tasks, ∀ b ∈ m'.tasks, a.conversationId ≠ b.conversationId

/-- The selection ends with one balanced manifest for all orders of the rows, and the splits stay apart. -/
structure Calibrates (coverage : CoverageArtifact) : Prop where
  selection : ∃ manifest, BalancedSelection sha256 blockSize o coverage.rows manifest.tasks ∧
    (∀ rounds : Nat, o.taskCount ≤ rounds →
      selectMtragReferenceCalibration sha256 rounds coverage o = .ok (some manifest)) ∧
    ∀ (rounds : Nat) (rows : List CoverageTransition), o.taskCount ≤ rounds → rows.Perm coverage.rows →
      selectMtragReferenceCalibration sha256 rounds (coverage.withRows rows) o = .ok (some manifest)
  splits : DisjointSplits sha256 coverage

variable {sha256 blockSize o}

theorem balancedSelection_drawn (ho : o.Accepted) {rows : List CoverageTransition} (hrows : AnalyzedRows blockSize rows)
    (hpool : o.taskCount ≤ ((eligibleTasks sha256 blockSize o rows).map ReferenceTask.conversationId).dedup.length) :
    BalancedSelection sha256 blockSize o rows
      (drawn (taskRank sha256 o.splitSeed) (eligibleTasks sha256 blockSize o rows) (rowCollections rows)
        o.taskCount.toNat) := by
  have hnodup : (rowCollections rows).Nodup := (sortedNames_perm _).nodup_iff.mpr (List.nodup_dedup _)
  have hspec : ∀ task ∈ drawn (taskRank sha256 o.splitSeed) (eligibleTasks sha256 blockSize o rows)
      (rowCollections rows) o.taskCount.toNat, task.conversationId ∉ o.excludedConversationIds ∧
        mtragConversationSplit sha256 task.conversationId o.splitSeed = .ok o.split := by
    intro task htask
    obtain ⟨row, -, heligible, -, hconversation⟩ := mem_eligibleTasks (mem_drawn htask)
    exact isEligible_spec hconversation heligible
  refine ⟨?_, fun task htask => mem_drawn htask, fun task htask => (hspec task htask).1,
    fun task htask => (hspec task htask).2, nodup_drawn hnodup hrows.sameCollection,
    fun c hc c' hc' => balanced_drawn hnodup hc hc'⟩
  have hcount := ho.taskCount
  rw [length_drawn (by
    rw [@AnalyzedRows.sum_poolOf sha256 blockSize o rows hrows]
    omega)]
  omega

/-- An accepted candidate is in the requested split. -/
theorem calibrationCandidate_split {raw : Option CoverageTransition} {collection : String} {task : ReferenceTask}
    (h : calibrationCandidate sha256 blockSize o raw = .ok (collection, some task)) :
    mtragConversationSplit sha256 task.conversationId o.splitSeed = .ok o.split := by
  unfold calibrationCandidate at h
  obtain ⟨⟨row, identity⟩, -, h⟩ := Except.bind_eq_ok.mp h
  dsimp only at h
  split at h
  · obtain ⟨blocks, -, h⟩ := Except.bind_eq_ok.mp h
    split at h
    · cases h
    · obtain ⟨split, hsplit, h⟩ := Except.bind_eq_ok.mp h
      split at h
      · next hin =>
        cases h
        rw [hsplit, hin.1]
      · cases h
  · cases h

theorem mem_drawCalibration {ranked : String → List ReferenceTask} {collections : List String} {n : Nat} :
    ∀ {rounds roundIndex : Nat} {selected result : List ReferenceTask},
      drawCalibration ranked collections n rounds roundIndex selected = some result →
      ∀ task ∈ result, task ∈ selected ∨ ∃ c, task ∈ ranked c := by
  intro rounds
  induction rounds with
  | zero =>
      intro roundIndex selected result h task htask
      rw [drawCalibration] at h
      split at h
      · cases h
      · cases h
        exact Or.inl htask
  | succ rounds ih =>
      intro roundIndex selected result h task htask
      rw [drawCalibration] at h
      split at h
      · have hpass := @RoundRobin.pass_rec _ _ (takeRanked ranked roundIndex) List.length n
          (fun s => ∀ t ∈ s, t ∈ selected ∨ ∃ c, t ∈ ranked c) (by
            intro c s s' hs htake t ht
            obtain ⟨row, hrow, rfl⟩ := Option.map_eq_some_iff.mp htake
            rcases List.mem_append.mp ht with ht | ht
            · exact hs t ht
            · rw [List.mem_singleton.mp ht]
              exact Or.inr ⟨c, List.mem_of_getElem? hrow⟩) collections selected (fun t ht => Or.inl ht)
        rcases ih h task htask with hmem | hmem
        · exact hpass task hmem
        · exact Or.inr hmem
      · cases h
        exact Or.inl htask

/-- **Whatever is selected** is in the requested split. -/
theorem selected_split {rounds : Nat} {coverage : CoverageArtifact} {manifest : ReferenceManifest}
    (h : selectMtragReferenceCalibration sha256 rounds coverage o = .ok (some manifest)) :
    ∀ task ∈ manifest.tasks, mtragConversationSplit sha256 task.conversationId o.splitSeed = .ok o.split := by
  intro task htask
  unfold selectMtragReferenceCalibration at h
  split at h
  · cases h
  · split at h
    · cases h
    · split at h
      · cases h
      · obtain ⟨⟨size, rows⟩, -, h⟩ := Except.bind_eq_ok.mp h
        obtain ⟨entries, hentries, h⟩ := Except.bind_eq_ok.mp h
        unfold drawCandidates at h
        dsimp only at h
        split at h
        · cases h
        · obtain ⟨selected, hselected, rfl⟩ := Option.map_eq_some_iff.mp (Except.ok.inj h)
          rcases mem_drawCalibration hselected task htask with hmem | ⟨c, hmem⟩
          · cases hmem
          · rw [rankedByCollection_eq] at hmem
            have hcandidate := (List.mem_filter.mp (mem_rankedTasks hmem).2.1).1
            obtain ⟨entry, hentry, hsome⟩ := List.mem_filterMap.mp hcandidate
            obtain ⟨raw, -, hraw⟩ := Except.exists_of_mem_mapM hentries hentry
            obtain ⟨collection, candidate⟩ := entry
            cases hsome
            exact calibrationCandidate_split hraw

/-- **The splits stay apart**, for every coverage. -/
theorem disjointSplits (coverage : CoverageArtifact) : DisjointSplits sha256 coverage := by
  intro rounds exclusion sourceSha256 taskCounts existing manifests h p hp q hq hne m m' hm hm' a ha b hb hab
  unfold freezeMtragDataSplits at h
  split at h
  · cases h
  · obtain ⟨excluded, -, h⟩ := Except.bind_eq_ok.mp h
    split at h
    · cases h
    · have hsplit : ∀ r ∈ manifests, ∀ manifest, r.2 = some manifest → ∀ task ∈ manifest.tasks,
          mtragConversationSplit sha256 task.conversationId mtragSplitSeed = .ok r.1 := by
        intro r hr manifest hmanifest task htask
        obtain ⟨split, -, hfreeze⟩ := Except.exists_of_mem_mapM h hr
        unfold freezeSplit at hfreeze
        split at hfreeze
        · cases hfreeze
        · split at hfreeze
          · cases hfreeze
          · obtain ⟨selected, hselected, hfreeze⟩ := Except.bind_eq_ok.mp hfreeze
            cases hfreeze
            obtain rfl : selected = some manifest := hmanifest
            exact selected_split hselected task htask
      have ha := hsplit p hp m hm a ha
      have hb := hsplit q hq m' hm' b hb
      rw [hab, hb] at ha
      exact hne (Except.ok.inj ha).symm

theorem pairwise_rowCollections (rows : List CoverageTransition) : (rowCollections rows).Pairwise (· < ·) :=
  pairwise_sortedNames (List.nodup_dedup _)

/-- **A selection that does not depend on the order** is not contested: either candidate could be put at the front. -/
theorem not_contested (hsize : 0 < blockSize) (ho : o.Accepted) {coverage : CoverageArtifact}
    (hrows : AnalyzedRows blockSize coverage.rows) (hkind : isCoverageArtifact coverage = true)
    (hblock : coverage.blockSize = some (blockSize : Int))
    (hpool : o.taskCount ≤
      ((eligibleTasks sha256 blockSize o coverage.rows).map ReferenceTask.conversationId).dedup.length)
    (h : Calibrates sha256 blockSize o coverage) :
    ¬ Contested (taskRank sha256 o.splitSeed) (eligibleTasks sha256 blockSize o coverage.rows)
      (rowCollections coverage.rows) o.taskCount.toNat := by
  rintro ⟨a, b, hne, hcollection, hrank, ha, hb, hplace⟩
  obtain ⟨manifest, -, -, hmanifest⟩ := h.selection
  -- the task at the place of its rank, when the row of the task is the first one
  have hfront : ∀ c ∈ eligibleTasks sha256 blockSize o coverage.rows,
      LeastPerKey.Lowest ReferenceTask.conversationId (taskRank sha256 o.splitSeed)
        ((eligibleTasks sha256 blockSize o coverage.rows).filter fun task => task.collection = c.collection) c →
      RoundRobin.place (poolOf (eligibleTasks sha256 blockSize o coverage.rows)) (rowCollections coverage.rows)
        c.collection (ahead (taskRank sha256 o.splitSeed) (eligibleTasks sha256 blockSize o coverage.rows) c)
        < o.taskCount.toNat →
      manifest.tasks[RoundRobin.place (poolOf (eligibleTasks sha256 blockSize o coverage.rows))
        (rowCollections coverage.rows) c.collection
        (ahead (taskRank sha256 o.splitSeed) (eligibleTasks sha256 blockSize o coverage.rows) c)]? = some c := by
    intro c hc hlowest hplace
    obtain ⟨rows, hperm, rest, hcons⟩ := exists_rows_cons hc
    have htasks := @eligibleTasks_perm sha256 blockSize o _ _ hperm
    have hselect := @select_withRows sha256 blockSize o hsize ho rows (hrows.perm hperm) coverage hkind hblock
      (by rw [((htasks.map ReferenceTask.conversationId).dedup).length_eq]; exact hpool) o.taskCount.toNat (by omega)
    have hsame := hmanifest o.taskCount.toNat rows (by omega) hperm
    rw [hselect] at hsame
    rw [← Option.some.inj (Except.ok.inj hsame), rowCollections_perm hperm]
    change (drawn _ _ _ _)[_]? = _
    rw [hcons] at htasks ⊢
    exact getElem?_drawn_cons htasks.symm (pairwise_rowCollections _) (collection_mem_rowCollections c hc) hlowest hplace
  have hget := hfront a (List.mem_filter.mp ha.1).1 ha hplace
  have hahead : ahead (taskRank sha256 o.splitSeed) (eligibleTasks sha256 blockSize o coverage.rows) b
      = ahead (taskRank sha256 o.splitSeed) (eligibleTasks sha256 blockSize o coverage.rows) a := by
    rw [ahead, ahead, hrank, hcollection]
  have hget' := hfront b (List.mem_filter.mp hb.1).1 (by rw [← hcollection]; exact hb)
    (by rw [hahead, ← hcollection]; exact hplace)
  rw [hahead, ← hcollection, hget] at hget'
  exact hne (Option.some.inj hget')

theorem analyzedRows_coverage {tokenizer : List MtragMessage → Except PyError RenderedPrompt}
    {sourceSha256 model tokenizerClass : String} {tasks : List MtragTask} {coverage : CoverageArtifact}
    (h : mtragCoverageFile tokenizer blockSize sourceSha256 model tokenizerClass tasks = .ok coverage) :
    0 < blockSize ∧ AnalyzedRows blockSize coverage.rows ∧ isCoverageArtifact coverage = true ∧
      coverage.blockSize = some (blockSize : Int) ∧ coverage.withRows coverage.rows = coverage := by
  obtain ⟨analysis, hanalysis, rfl⟩ := Except.map_eq_ok.mp h
  obtain ⟨hsize, ts, rfl, hsame⟩ := analyzeMtragCoverage_ok hanalysis
  refine ⟨hsize, ?_, rfl, rfl, ?_⟩
  · rw [rows_coverageOf]
    exact analyzedRows_row hsame
  · rw [CoverageArtifact.withRows, rows_coverageOf, List.map_map]
    rfl

/-- **Calibration selects evenly and without leakage**, and the order of the rows matters exactly if two candidates
are contested. -/
theorem calibration_iff (sha256 : String → HexDigest) {tokenizer : List MtragMessage → Except PyError RenderedPrompt}
    {blockSize : Nat} {sourceSha256 model tokenizerClass : String} {tasks : List MtragTask} {coverage : CoverageArtifact}
    (hcoverage : mtragCoverageFile tokenizer blockSize sourceSha256 model tokenizerClass tasks = .ok coverage)
    {o : CalibrationOptions} (ho : o.Accepted)
    (hpool : o.taskCount ≤
      ((eligibleTasks sha256 blockSize o coverage.rows).map ReferenceTask.conversationId).dedup.length) :
    Calibrates sha256 blockSize o coverage ↔
      ¬ Contested (taskRank sha256 o.splitSeed) (eligibleTasks sha256 blockSize o coverage.rows)
        (rowCollections coverage.rows) o.taskCount.toNat := by
  obtain ⟨hsize, hrows, hkind, hblock, hself⟩ := analyzedRows_coverage hcoverage
  constructor
  · exact not_contested hsize ho hrows hkind hblock hpool
  · intro hcontested
    have hselect : ∀ (rounds : Nat) (rows : List CoverageTransition), o.taskCount ≤ rounds →
        rows.Perm coverage.rows →
        selectMtragReferenceCalibration sha256 rounds (coverage.withRows rows) o
          = .ok (some (calibrationManifest coverage o (rowCollections coverage.rows)
            (drawn (taskRank sha256 o.splitSeed) (eligibleTasks sha256 blockSize o coverage.rows)
              (rowCollections coverage.rows) o.taskCount.toNat))) := by
      intro rounds rows hrounds hperm
      have htasks := @eligibleTasks_perm sha256 blockSize o _ _ hperm
      have hsum := @AnalyzedRows.sum_poolOf sha256 blockSize o coverage.rows hrows
      rw [select_withRows hsize ho (hrows.perm hperm) hkind hblock
        (by rw [((htasks.map ReferenceTask.conversationId).dedup).length_eq]; exact hpool) hrounds,
        rowCollections_perm hperm,
        ← drawn_eq_of_perm htasks.symm (pairwise_rowCollections _) (by rw [hsum]; omega) hcontested]
    refine ⟨⟨_, balancedSelection_drawn ho hrows hpool, fun rounds hrounds => ?_, hselect⟩, disjointSplits coverage⟩
    have hall := hselect rounds coverage.rows hrounds (List.Perm.refl _)
    rwa [hself] at hall

end Balanced

/-- Two conversations of the training split in each of two collections. -/
def calibrationPairs : List AnalyzedTransition :=
  samplePairsOf [("cloud", "c1", "c1<::>2"), ("cloud", "chat", "chat<::>2"), ("govt", "fees", "fees<::>2"),
    ("govt", "visa", "visa<::>2")]

/-- The first digits of the digests of the four conversations and of their tasks. -/
def calibrationSha256 (text : String) : HexDigest :=
  digitsOf ((OrderedDict.get [("cacheselect-mtrag-v1:c1", [1, 5, 2, 8, 12, 0, 13, 4]),
    ("cacheselect-mtrag-v1:chat", [3, 12, 15, 0, 14, 1, 15, 14]),
    ("cacheselect-mtrag-v1:fees", [6, 8, 1, 6, 1, 12, 5, 0]),
    ("cacheselect-mtrag-v1:visa", [14, 15, 14, 0, 4, 9, 15, 4]),
    ("cacheselect-mtrag-v1:c1<::>2", [13, 6, 13, 5, 7, 11, 1, 3]),
    ("cacheselect-mtrag-v1:chat<::>2", [10, 8, 11, 13, 6, 11, 12, 2]),
    ("cacheselect-mtrag-v1:fees<::>2", [0, 5, 10, 4, 2, 7, 5, 14]),
    ("cacheselect-mtrag-v1:visa<::>2", [11, 2, 10, 8, 1, 10, 12, 4])] text).getD [])

def calibrationTasks : List ReferenceTask :=
  [⟨"c1<::>2", "c1", "cloud", .train⟩, ⟨"chat<::>2", "chat", "cloud", .train⟩, ⟨"fees<::>2", "fees", "govt", .train⟩,
    ⟨"visa<::>2", "visa", "govt", .train⟩]

/-- Three tasks from two collections with two conversations each. -/
theorem calibration_iff_twoCollections :
    Calibrates calibrationSha256 1 { taskCount := 3 }
      ((coverageOf 1 calibrationPairs).withProvenance "digest" "model" "tokenizer") := by
  have hanalyzed : mtragCoverageFile sampleTokenizer 1 "digest" "model" "tokenizer"
        (calibrationPairs.flatMap fun t => [t.previous, t.current])
      = .ok ((coverageOf 1 calibrationPairs).withProvenance "digest" "model" "tokenizer") := by
    refine samplePairsOf_analyzed Nat.one_pos (by decide +kernel) (adjacent_pairs ?_ ?_ ?_)
    · decide +kernel
    · decide +kernel
    · decide +kernel
  have hall : eligibleTasks calibrationSha256 1 { taskCount := 3 }
      ((coverageOf 1 calibrationPairs).withProvenance "digest" "model" "tokenizer").rows
      = calibrationTasks := by
    rw [rows_coverageOf, eligibleTasks_rows Nat.zero_lt_one (by decide)]
    decide +kernel
  refine (calibration_iff calibrationSha256 hanalyzed ⟨by decide, by decide, by decide, by decide, by decide⟩ ?_).mpr ?_
  · rw [hall]
    decide
  · rintro ⟨a, b, hne, -, hrank, ha, hb, -⟩
    rw [hall] at ha hb
    have hdistinct : ∀ a ∈ calibrationTasks, ∀ b ∈ calibrationTasks,
        taskRank calibrationSha256 mtragSplitSeed a = taskRank calibrationSha256 mtragSplitSeed b → a = b := by
      decide +kernel
    exact hne (hdistinct a (List.mem_filter.mp ha.1).1 b (List.mem_filter.mp hb.1).1 hrank)

/-- Two conversations of the training split whose second tasks have the same id. -/
def twinPairs : List AnalyzedTransition :=
  samplePairsOf [("cloud", "c1", "chat<::>2"), ("cloud", "chat", "chat<::>2")]

/-- Which of the two conversations is selected depends on the order of the rows. -/
theorem twin_selected_by_order :
    ¬ ∀ (sha256 : String → HexDigest) (tokenizer : List MtragMessage → Except PyError RenderedPrompt) (blockSize : Nat)
      (sourceSha256 model tokenizerClass : String) (tasks : List MtragTask) (coverage : CoverageArtifact)
      (o : CalibrationOptions),
      mtragCoverageFile tokenizer blockSize sourceSha256 model tokenizerClass tasks = .ok coverage → o.Accepted →
      o.taskCount ≤ ((eligibleTasks sha256 blockSize o coverage.rows).map ReferenceTask.conversationId).dedup.length →
      Calibrates sha256 blockSize o coverage := by
  intro h
  have hanalyzed : mtragCoverageFile sampleTokenizer 1 "digest" "model" "tokenizer"
        (twinPairs.flatMap fun t => [t.previous, t.current])
      = .ok ((coverageOf 1 twinPairs).withProvenance "digest" "model" "tokenizer") := by
    refine samplePairsOf_analyzed Nat.one_pos (by decide +kernel) (adjacent_pairs ?_ ?_ ?_)
    · decide +kernel
    · decide +kernel
    · decide +kernel
  have htwo : eligibleTasks calibrationSha256 1 { taskCount := 1 }
      ((coverageOf 1 twinPairs).withProvenance "digest" "model" "tokenizer").rows
      = [⟨"chat<::>2", "c1", "cloud", .train⟩, ⟨"chat<::>2", "chat", "cloud", .train⟩] := by
    rw [rows_coverageOf, eligibleTasks_rows Nat.zero_lt_one (by decide)]
    decide +kernel
  have ho : CalibrationOptions.Accepted { taskCount := 1 } := ⟨by decide, by decide, by decide, by decide, by decide⟩
  have hpool : (1 : Int) ≤ ((eligibleTasks calibrationSha256 1 { taskCount := 1 }
      ((coverageOf 1 twinPairs).withProvenance "digest" "model" "tokenizer").rows).map
        ReferenceTask.conversationId).dedup.length := by
    rw [htwo]
    decide
  obtain ⟨hsize, hrows, hkind, hblock, -⟩ := analyzedRows_coverage hanalyzed
  have hfree := not_contested hsize ho hrows hkind hblock hpool
    (h calibrationSha256 sampleTokenizer 1 "digest" "model" "tokenizer" _ _ _ hanalyzed ho hpool)
  rw [htwo] at hfree
  have hid : ∀ t ∈ [ReferenceTask.mk "chat<::>2" "c1" "cloud" .train, ⟨"chat<::>2", "chat", "cloud", .train⟩],
      t.taskId = "chat<::>2" := by
    decide
  refine hfree ⟨⟨"chat<::>2", "c1", "cloud", .train⟩, ⟨"chat<::>2", "chat", "cloud", .train⟩, by decide, rfl, rfl,
    ⟨by decide, ?_⟩, ⟨by decide, ?_⟩, ?_⟩
  · intro t ht _
    exact le_of_eq (congrArg (calibrationRank calibrationSha256 mtragSplitSeed) (hid t (List.mem_filter.mp ht).1).symm)
  · intro t ht _
    exact le_of_eq (congrArg (calibrationRank calibrationSha256 mtragSplitSeed) (hid t (List.mem_filter.mp ht).1).symm)
  · decide +kernel

end CacheSelect.Benchmarks

import CacheSelect.Core.BlockPool
import CacheSelect.Features.SelectorFeatures
import Mathlib.Data.List.Sort

/-! # The aligned-block reuse locator

`AlignedBlockReuseLocator` remembers finished sequences (`index`), matches the full blocks of a new
prompt against the windows of one remembered sequence (`locate`), and pins the matched source blocks
that are still resident (`retainResidentSources`).

`sources` is the ordered dictionary of the source, oldest first; an entry carries its own key.  The
hash of a token window (`hash(tuple(..))`) and the opcodes of `difflib` are parameters of the
configuration.  `locate` calls itself at most once, after a session source matched nothing;
`locateStep` is its body with that call as an argument.
-/

namespace CacheSelect.Core

open CacheSelect.Features

structure LocatorConfig where
  blockSize : Nat
  blockSize_pos : 0 < blockSize := by first | exact Nat.one_pos | exact Nat.two_pos | decide
  maxSourceRequests : Nat := 1024
  maxSourceRequests_pos : 0 < maxSourceRequests := by first | exact defaultSources_pos | decide
  allowRepacking : Bool := false
  collectSelectorFeatures : Bool := false
  tupleHash : List Nat → Int := fun _ => 0
  opcodes : List Nat → List Nat → List Opcode := fun _ _ => []

structure AlignedBlockReuseLocator where
  sources : List SourceRequestIndex := []
  sessionSources : String → Option String := fun _ => none

namespace AlignedBlockReuseLocator

/-- `_FINGERPRINT_WINDOW_TOKENS`. -/
def fingerprintWindowTokens : Nat := 8

/-- `_FINGERPRINT_SIZE`. -/
def fingerprintSize : Nat := 64

/-- `_AUTO_SOURCE_SEARCH_LIMIT`. -/
def autoSourceSearchLimit : Nat := 64

/-- `_AUTO_SOURCE_MIN_SHARED`. -/
def autoSourceMinShared : Nat := 4

def getSource (l : AlignedBlockReuseLocator) (id : String) : Option SourceRequestIndex :=
  l.sources.find? fun s => s.requestId == id

def loraAdapterId (r : Request) : Option Int :=
  r.loraRequest.map LoRARequest.adapterId

def isResident (pool : BlockPool) (block : SourceBlock) : Bool :=
  pool.contain block.blockHash block.blockId

/-- `_fingerprint`: the smallest hashes among those of all windows. -/
def fingerprintOf (cfg : LocatorConfig) (tokenIds : List Nat) : List Int :=
  if tokenIds.length < fingerprintWindowTokens then []
  else
    let hashes := (List.range (tokenIds.length + 1 - fingerprintWindowTokens)).map fun start =>
      cfg.tupleHash ((tokenIds.drop start).take fingerprintWindowTokens)
    (hashes.dedup.insertionSort (· ≤ ·)).take fingerprintSize

/-! ### `index` -/

/-- The full prompt blocks of a table that have a hash. -/
def indexedBlocks (cfg : LocatorConfig) (pool : BlockPool) (r : Request) (promptTokenIds : List Nat)
    (blocks : List Nat) : List SourceBlock :=
  (blocks.take (promptTokenIds.length / cfg.blockSize)).zipIdx.filterMap fun (b, i) =>
    let blk := pool.blocks b
    if blk.isNull then none
    else match blk.blockHash with
      | none => none
      | some h => some {
          blockIndex := i
          tokenIds := (promptTokenIds.drop (i * cfg.blockSize)).take cfg.blockSize
          blockId := b
          blockHash := h
          contextualHash := (r.blockHashes cfg.blockSize)[i]? }

/-- The session entry of a source that is replaced or evicted goes, if it still points there. -/
def dropSession (sessionSources : String → Option String) (s : SourceRequestIndex) :
    String → Option String :=
  match s.sessionId with
  | none => sessionSources
  | some session =>
      if sessionSources session = some s.requestId then Function.update sessionSources session none
      else sessionSources

/-- The eviction loop: the oldest sources go until the index fits. -/
def evictOldest (maxSources : Nat) : List SourceRequestIndex → (String → Option String) →
    AlignedBlockReuseLocator
  | [], sessionSources => ⟨[], sessionSources⟩
  | s :: rest, sessionSources =>
      if (s :: rest).length ≤ maxSources then ⟨s :: rest, sessionSources⟩
      else evictOldest maxSources rest (dropSession sessionSources s)

/-- The entry that `index` stores for a request. -/
def sourceEntry (cfg : LocatorConfig) (pool : BlockPool) (r : Request) (promptTokenIds : List Nat)
    (blocks : List Nat) : SourceRequestIndex where
  requestId := r.sourceIndexId
  cacheSalt := r.cacheSalt
  loraAdapterId := loraAdapterId r
  blocks := indexedBlocks cfg pool r promptTokenIds blocks
  promptTokenIds := promptTokenIds
  sessionId := r.cacheselectSessionId
  fingerprint := fingerprintOf cfg promptTokenIds

def index (cfg : LocatorConfig) (pool : BlockPool) (l : AlignedBlockReuseLocator) (r : Request)
    (blocks : List Nat) : AlignedBlockReuseLocator :=
  match r.promptTokenIds with
  | none => l
  | some promptTokenIds =>
      let entry := sourceEntry cfg pool r promptTokenIds blocks
      let sessions := match l.getSource entry.requestId with
        | none => l.sessionSources
        | some previous => dropSession l.sessionSources previous
      -- storing under the id and moving it to the end
      let sources := l.sources.filter (fun s => s.requestId != entry.requestId) ++ [entry]
      let sessions := match entry.sessionId with
        | none => sessions
        | some session => Function.update sessions session (some entry.requestId)
      evictOldest cfg.maxSourceRequests sources sessions

def clear (_ : AlignedBlockReuseLocator) : AlignedBlockReuseLocator :=
  ⟨[], fun _ => none⟩

/-! ### Choosing a source -/

/-- `_is_compatible_resident`. -/
def isCompatibleResident (pool : BlockPool) (r : Request) (source : SourceRequestIndex) : Bool :=
  source.cacheSalt == r.cacheSalt && source.loraAdapterId == loraAdapterId r &&
    source.blocks.any (isResident pool)

/-- `_fingerprint_source`: the scanned source that shares the most, the most recent one on a tie. -/
def fingerprintSource (cfg : LocatorConfig) (pool : BlockPool) (l : AlignedBlockReuseLocator)
    (r : Request) (nativeCachedTokens : Nat) (exclude : Option String) : Option String :=
  match r.promptTokenIds with
  | none => none
  | some promptTokenIds =>
      let target := fingerprintOf cfg (promptTokenIds.drop nativeCachedTokens)
      if target.length < autoSourceMinShared then none
      else
        let scan := (l.sources.reverse.take autoSourceSearchLimit).foldl
          (fun (best : Option String × Nat) source =>
            if source.requestId = r.sourceIndexId ∨ some source.requestId = exclude ∨
                isCompatibleResident pool r source = false then best
            else
              let shared := (target.filter fun x => source.fingerprint.contains x).length
              if best.2 < shared then (some source.requestId, shared) else best)
          (none, autoSourceMinShared - 1)
        scan.1

/-- `_automatic_source`. -/
def automaticSource (cfg : LocatorConfig) (pool : BlockPool) (l : AlignedBlockReuseLocator)
    (r : Request) (nativeCachedTokens : Nat) : Option (String × SourceSelection) :=
  let byFingerprint :=
    (fingerprintSource cfg pool l r nativeCachedTokens none).map fun id =>
      (id, SourceSelection.fingerprint)
  match r.cacheselectSessionId with
  | some session =>
      let bySession := match l.sessionSources session with
        | none => none
        | some id => match l.getSource id with
            | none => none
            | some source => if isCompatibleResident pool r source then some id else none
      match bySession with
      | some id => some (id, .session)
      | none => if r.cacheselectAutoSource then byFingerprint else none
  | none => if r.cacheselectAutoSource then byFingerprint else none

/-! ### Windows of a source -/

/-- The entry's block at an index; of two with one index the later counts. -/
def blockByIndex (source : SourceRequestIndex) (i : Nat) : Option SourceBlock :=
  source.blocks.reverse.find? fun b => b.blockIndex == i

/-- The physical blocks that a window from `start` covers, if all of them are indexed. -/
def windowBlocks (cfg : LocatorConfig) (source : SourceRequestIndex) (start : Nat) :
    Option (List SourceBlock) :=
  let first := start / cfg.blockSize
  let last := (start + cfg.blockSize - 1) / cfg.blockSize
  (List.range' first (last + 1 - first)).mapM (blockByIndex source)

/-- `_source_windows_by_content`, looked up at one block of tokens. -/
def sourceWindows (cfg : LocatorConfig) (source : SourceRequestIndex) (tokenIds : List Nat) :
    List (Nat × List SourceBlock) :=
  if source.promptTokenIds = [] then
    -- an index without prompt tokens has its aligned blocks only
    source.blocks.filterMap fun b =>
      if b.tokenIds = tokenIds then some (b.blockIndex * cfg.blockSize, [b]) else none
  else
    let step := if cfg.allowRepacking then 1 else cfg.blockSize
    (List.range (source.promptTokenIds.length + 1 - cfg.blockSize)).filterMap fun start =>
      if start % step = 0 ∧ (source.promptTokenIds.drop start).take cfg.blockSize = tokenIds then
        (windowBlocks cfg source start).map fun blocks => (start, blocks)
      else none

/-- `_select_nearest_source_window`: resident first, then aligned, then near, then low. -/
def selectNearestSourceWindow (cfg : LocatorConfig) (pool : BlockPool)
    (windows : List (Nat × List SourceBlock)) (targetBlockIndex : Nat) :
    Option (Nat × List SourceBlock) :=
  windows.argmin fun w =>
    toLex (!(w.2.all (isResident pool)), toLex (w.1 % cfg.blockSize != 0,
      toLex (((w.1 : Int) - targetBlockIndex * cfg.blockSize).natAbs, w.1)))

/-! ### Candidates -/

/-- The candidate of one full target block. -/
def candidateAt (cfg : LocatorConfig) (pool : BlockPool) (source : SourceRequestIndex)
    (promptTokenIds : List Nat) (targetBlockIndex : Nat) : Option PartialReuseCandidate :=
  let tokenIds := (promptTokenIds.drop (targetBlockIndex * cfg.blockSize)).take cfg.blockSize
  match selectNearestSourceWindow cfg pool (sourceWindows cfg source tokenIds) targetBlockIndex with
  | none => none
  | some (start, blocks) =>
      blocks.head?.map fun sourceBlock =>
        { sourceBlockIndex := sourceBlock.blockIndex
          targetBlockIndex := targetBlockIndex
          sourceBlockId := sourceBlock.blockId
          sourceResident := blocks.all (isResident pool)
          sourceContextualHash := sourceBlock.contextualHash
          sourceBlockOffset := start % cfg.blockSize
          sourceBlockIds := blocks.map SourceBlock.blockId }

def firstTargetBlock (cfg : LocatorConfig) (nativeCachedTokens : Nat) : Nat :=
  (nativeCachedTokens + cfg.blockSize - 1) / cfg.blockSize

def rawCandidates (cfg : LocatorConfig) (pool : BlockPool) (source : SourceRequestIndex)
    (promptTokenIds : List Nat) (nativeCachedTokens : Nat) : List PartialReuseCandidate :=
  let first := firstTargetBlock cfg nativeCachedTokens
  (List.range' first (promptTokenIds.length / cfg.blockSize - first)).filterMap
    (candidateAt cfg pool source promptTokenIds)

/-- The loop of `_annotate_change_geometry`: a source discontinuity marks its target block, unless
the block before it is marked. -/
def markChanges : Option PartialReuseCandidate → List PartialReuseCandidate → List Nat → List Nat
  | _, [], changed => changed
  | previous, c :: rest, changed =>
      let discontinuity := match previous with
        | none => c.sourceBlockIndex != c.targetBlockIndex
        | some p => p.targetBlockIndex + 1 == c.targetBlockIndex &&
            p.sourceBlockIndex + 1 != c.sourceBlockIndex
      let before := changed.any fun t => t + 1 == c.targetBlockIndex
      markChanges (some c) rest
        (if discontinuity && !before then c.targetBlockIndex :: changed else changed)

def annotateChangeGeometry (candidates : List PartialReuseCandidate)
    (firstTargetBlock numTargetBlocks : Nat) : List PartialReuseCandidate :=
  let unmatched := (List.range' firstTargetBlock (numTargetBlocks - firstTargetBlock)).filter
    fun t => !(candidates.any fun c => c.targetBlockIndex == t)
  let changed := markChanges none candidates unmatched
  candidates.map fun c =>
    { c with
      blockDisplacement := (c.targetBlockIndex : Int) - c.sourceBlockIndex
      nearestChangedBlockDistance :=
        (changed.map fun t => ((c.targetBlockIndex : Int) - t).natAbs).min? }

/-- The features of a candidate's target block, from the row of that block. -/
def withFeatures
    (rows : List (CandidateBlock × CandidateBlockFeatures × CandidateContextFeatures))
    (c : PartialReuseCandidate) : PartialReuseCandidate :=
  match rows.reverse.find? fun row => row.1.currentBlockIndex == c.targetBlockIndex with
  | none => c
  | some row => { c with selectorFeatures := selectorFeatureRow row.2.1 row.2.2 }

/-- `_attach_selector_features`: a candidate whose target block has a feature row gets it. -/
def attachSelectorFeatures (cfg : LocatorConfig) (previousTokens currentTokens : List Nat)
    (nativeCachedTokens : Nat) (candidates : List PartialReuseCandidate) :
    Except PyError (List PartialReuseCandidate) := do
  let opportunity ← analyzeReuseOpportunity previousTokens currentTokens nativeCachedTokens
    cfg.blockSize
  let context ← extractCandidateContextFeatures cfg.opcodes previousTokens currentTokens opportunity
  let block ← extractCandidateBlockFeatures previousTokens currentTokens opportunity
  -- `zip(.., strict=True)`
  if opportunity.candidateBlocks.length ≠ block.length ∨ block.length ≠ context.length then
    .error (.valueError "zip() argument is shorter")
  else
    .ok (candidates.map (withFeatures (opportunity.candidateBlocks.zip (block.zip context))))

/-- The selector features, where they are collected and there are candidates. -/
def attachCollected (cfg : LocatorConfig) (previousTokens currentTokens : List Nat)
    (nativeCachedTokens : Nat) (candidates : List PartialReuseCandidate) :
    Except PyError (List PartialReuseCandidate) :=
  if cfg.collectSelectorFeatures = true ∧ candidates ≠ [] then
    attachSelectorFeatures cfg previousTokens currentTokens nativeCachedTokens candidates
  else .ok candidates

/-! ### `locate` -/

/-- `_plan`. -/
def planOf (cfg : LocatorConfig) (r : Request) (nativeCachedTokens : Nat) (reason : String)
    (selection : SourceSelection) (candidates : List PartialReuseCandidate) :
    Except PyError PartialReusePlan :=
  match r.cacheselectSourceRequestId with
  | none => .error .assertionError
  | some sourceRequestId =>
      .ok {
        transitionId := r.cacheselectTransitionId
        sourceRequestId := sourceRequestId
        targetRequestId := r.sourceIndexId
        blockSize := cfg.blockSize
        nativeCachedTokens := nativeCachedTokens
        reason := reason
        sourceSelection := selection
        counterfactualReuseBlockIndex := r.cacheselectCounterfactualReuseBlockIndex
        candidates := candidates }

/-- The request's source: its own choice, or an automatic one that is written to the request. -/
def resolveSource (cfg : LocatorConfig) (pool : BlockPool) (l : AlignedBlockReuseLocator)
    (r : Request) (nativeCachedTokens : Nat) : Option (Request × String × SourceSelection) :=
  match r.cacheselectSourceRequestId with
  | some id => some (r, id, r.cacheselectSourceSelection)
  | none =>
      (automaticSource cfg pool l r nativeCachedTokens).map fun (id, selection) =>
        ({ r with
            cacheselectSourceRequestId := some id
            cacheselectSourceSelection := selection }, id, selection)

/-- The reason of a plan that has been matched against its source. -/
def matchReason (candidates : List PartialReuseCandidate) : String :=
  if candidates.any PartialReuseCandidate.requiresRepacking then "repacking_candidates"
  else if candidates = [] then "no_aligned_candidates"
  else "aligned_candidates"

/-- The source with an id, if the request may use it, with the request's prompt. -/
def usableSource (l : AlignedBlockReuseLocator) (r : Request) (sourceId : String) :
    Except String (SourceRequestIndex × List Nat) :=
  match l.getSource sourceId with
  | none => .error "source_not_indexed"
  | some source =>
      if source.cacheSalt ≠ r.cacheSalt then .error "cache_salt_mismatch"
      else if source.loraAdapterId ≠ loraAdapterId r then .error "lora_mismatch"
      else match r.promptTokenIds with
        | none => .error "token_ids_unavailable"
        | some promptTokenIds => .ok (source, promptTokenIds)

/-- The plan of a request that is matched against a source. -/
def matchedPlan (cfg : LocatorConfig) (pool : BlockPool) (source : SourceRequestIndex)
    (r : Request) (promptTokenIds : List Nat) (nativeCachedTokens : Nat)
    (selection : SourceSelection) : Except PyError PartialReusePlan := do
  let candidates := rawCandidates cfg pool source promptTokenIds nativeCachedTokens
  let annotated := annotateChangeGeometry candidates (firstTargetBlock cfg nativeCachedTokens)
    (promptTokenIds.length / cfg.blockSize)
  let final ← attachCollected cfg source.promptTokenIds promptTokenIds nativeCachedTokens annotated
  planOf cfg r nativeCachedTokens (matchReason candidates) selection final

/-- The source to try after a session source that matched nothing. -/
def fallbackSource (cfg : LocatorConfig) (pool : BlockPool) (l : AlignedBlockReuseLocator)
    (r : Request) (nativeCachedTokens : Nat) (sourceId : String) (selection : SourceSelection)
    (candidates : List PartialReuseCandidate) : Option String :=
  if candidates = [] ∧ selection = .session ∧ r.cacheselectAutoSource = true then
    fingerprintSource cfg pool l r nativeCachedTokens (some sourceId)
  else none

/-- The request that tries the fallback source. -/
def withFallback (r : Request) (sourceId : String) : Request :=
  { r with
    cacheselectSourceRequestId := some sourceId
    cacheselectSourceSelection := .fingerprint }

/-- The body of `locate`; `again` stands for its call to itself. -/
def locateStep (cfg : LocatorConfig) (pool : BlockPool) (l : AlignedBlockReuseLocator)
    (nativeCachedTokens : Nat)
    (again : Request → Except PyError (Option PartialReusePlan × Request)) (r : Request) :
    Except PyError (Option PartialReusePlan × Request) :=
  match resolveSource cfg pool l r nativeCachedTokens with
  | none => .ok (none, r)
  | some (r, sourceId, selection) =>
      match usableSource l r sourceId with
      | .error reason =>
          (planOf cfg r nativeCachedTokens reason selection []).map fun plan => (some plan, r)
      | .ok (source, promptTokenIds) =>
          match fallbackSource cfg pool l r nativeCachedTokens sourceId selection
              (rawCandidates cfg pool source promptTokenIds nativeCachedTokens) with
          | some fallbackId => again (withFallback r fallbackId)
          | none =>
              (matchedPlan cfg pool source r promptTokenIds nativeCachedTokens selection).map
                fun plan => (some plan, r)

/-- Match a request against a remembered sequence.  The choice of a source is written to the
request. -/
def locate (cfg : LocatorConfig) (pool : BlockPool) (l : AlignedBlockReuseLocator) (r : Request)
    (nativeCachedTokens : Nat) : Except PyError (Option PartialReusePlan × Request) :=
  locateStep cfg pool l nativeCachedTokens
    (locateStep cfg pool l nativeCachedTokens fun r => .ok (none, r)) r

/-! ### Retention -/

/-- The entry's block with a physical id; of two with one id the later counts. -/
def blockById (source : SourceRequestIndex) (id : Nat) : Option SourceBlock :=
  source.blocks.reverse.find? fun b => b.blockId == id

/-- Every source block of the candidate is still indexed under the source and resident. -/
def isRetainable (pool : BlockPool) (source : SourceRequestIndex) (c : PartialReuseCandidate) :
    Bool :=
  c.sourceResident && c.physicalSourceBlockIds.all fun id =>
    match blockById source id with
    | none => false
    | some block => isResident pool block

/-- The ids pinned for a plan, in the order they are first met. -/
def retainedIds (pool : BlockPool) (source : SourceRequestIndex) :
    List PartialReuseCandidate → List Nat → List Nat
  | [], retained => retained
  | c :: rest, retained =>
      retainedIds pool source rest
        (if isRetainable pool source c then
          c.physicalSourceBlockIds.foldl
            (fun acc id => if acc.contains id then acc else acc ++ [id]) retained
         else retained)

def retainResidentSources (pool : BlockPool) (l : AlignedBlockReuseLocator)
    (plan : PartialReusePlan) : List Nat × BlockPool :=
  match l.getSource plan.sourceRequestId with
  | none => ([], pool)
  | some source =>
      let retained := retainedIds pool source plan.candidates []
      (retained, pool.touch retained)

/-- Release the references of `retainResidentSources`. -/
def releaseSources (pool : BlockPool) (blocks : List Nat) : BlockPool :=
  pool.freeBlocks blocks.reverse

end AlignedBlockReuseLocator

end CacheSelect.Core

import CacheSelect.Core.Locator

/-! # The KV-cache manager

`KVCacheManager` joins the block pool, the block tables of the requests and the partial-reuse
locator, for one full-attention cache group: `getComputedBlocks` is the native prefix lookup followed
by `locate`, `allocateSlots` gives a request the blocks for its next tokens and registers the full
ones under their hashes, and `free` indexes a finished request and returns its blocks.

With one full-attention group whose block size is the hash block size, no token is skipped by the
attention window, no prefix hit ends inside a block and no admission cap applies; the branches of the
source for those cases are absent.
-/

namespace CacheSelect.Core

open AlignedBlockReuseLocator

structure ManagerConfig extends LocatorConfig where
  maxModelLen : Nat
  enableCaching : Bool := true
  useEagle : Bool := false
  watermarkBlocks : Nat := 0
  /-- Whether the manager has a partial-reuse locator. -/
  supportsAlignedReuse : Bool := true

structure KVCacheManager where
  pool : BlockPool
  reqToBlocks : String → List Nat := fun _ => []
  numCachedBlock : String → Option Nat := fun _ => none
  locator : AlignedBlockReuseLocator := {}

/-- The number of blocks of a request that are registered under their hash. -/
def KVCacheManager.numRegistered (m : KVCacheManager) (requestId : String) : Nat :=
  (m.numCachedBlock requestId).getD 0

/-- `cdiv`. -/
def cdiv (a b : Nat) : Nat :=
  (a + b - 1) / b

namespace KVCacheManager

/-! ### The native prefix lookup -/

/-- The longest run of cached blocks from the start. -/
def longestRun (pool : BlockPool) : List BlockHash → List Nat
  | [] => []
  | h :: rest =>
      match pool.getOneBlock h with
      | none => []
      | some b => b :: longestRun pool rest

/-- `find_longest_cache_hit`: the hit blocks and the hit length in tokens. -/
def findLongestCacheHit (cfg : ManagerConfig) (pool : BlockPool) (blockHashes : List BlockHash)
    (maxLength : Nat) : List Nat × Nat :=
  let computed := longestRun pool (blockHashes.take (maxLength / cfg.blockSize))
  let hitLength := computed.length * cfg.blockSize
  let hitLength := if cfg.useEagle = true ∧ 0 < hitLength then hitLength - cfg.blockSize
    else hitLength
  (computed.take (cdiv hitLength cfg.blockSize), hitLength)

/-- `get_computed_blocks`: the native hit, and the request with the plan located behind it. -/
def getComputedBlocks (cfg : ManagerConfig) (m : KVCacheManager) (r : Request) :
    Except PyError ((List Nat × Nat) × Request) :=
  if cfg.enableCaching = false ∨ r.skipReadingPrefixCache = true then .ok (([], 0), r)
  else
    let hit := findLongestCacheHit cfg m.pool (r.blockHashes cfg.blockSize) (r.numTokens - 1)
    if cfg.supportsAlignedReuse = true then
      (locate cfg.toLocatorConfig m.pool m.locator r hit.2).map fun (plan, r) =>
        (hit, { r with partialReusePlan := plan })
    else .ok (hit, r)

/-! ### Retention -/

def retainPartialReuseSources (cfg : ManagerConfig) (m : KVCacheManager) (r : Request) :
    List Nat × KVCacheManager :=
  match cfg.supportsAlignedReuse, r.partialReusePlan with
  | true, some plan =>
      let (retained, pool) := retainResidentSources m.pool m.locator plan
      (retained, { m with pool := pool })
  | _, _ => ([], m)

def releasePartialReuseSources (cfg : ManagerConfig) (m : KVCacheManager) (blocks : List Nat) :
    KVCacheManager :=
  if cfg.supportsAlignedReuse = true then { m with pool := releaseSources m.pool blocks } else m

/-! ### Allocation -/

/-- `_get_num_evictable_blocks`. -/
def numEvictableBlocks (pool : BlockPool) (blocks : List Nat) : Nat :=
  blocks.countP fun b => (pool.blocks b).refCnt == 0 && !(pool.blocks b).isNull

/-- `get_num_blocks_to_allocate`. -/
def getNumBlocksToAllocate (cfg : ManagerConfig) (m : KVCacheManager) (requestId : String)
    (numTokens : Nat) (newComputedBlocks : List Nat) : Except PyError Nat :=
  let numRequired := cdiv numTokens cfg.blockSize
  let numReqBlocks := (m.reqToBlocks requestId).length
  if (m.numCachedBlock requestId).isSome then
    if newComputedBlocks ≠ [] then .error .assertionError
    else .ok (numRequired - numReqBlocks)
  else
    .ok ((numRequired - (newComputedBlocks.length + numReqBlocks))
      + numEvictableBlocks m.pool newComputedBlocks)

def setBlocks (m : KVCacheManager) (requestId : String) (blocks : List Nat) : KVCacheManager :=
  { m with reqToBlocks := Function.update m.reqToBlocks requestId blocks }

def setNumCached (m : KVCacheManager) (requestId : String) (n : Option Nat) : KVCacheManager :=
  { m with numCachedBlock := Function.update m.numCachedBlock requestId n }

/-- `add_local_computed_blocks`. -/
def addLocalComputedBlocks (cfg : ManagerConfig) (m : KVCacheManager) (requestId : String)
    (newComputedBlocks : List Nat) : Except PyError KVCacheManager :=
  if m.reqToBlocks requestId ≠ [] then .error .assertionError
  else if cfg.enableCaching = false ∧ newComputedBlocks ≠ [] then .error .assertionError
  else
    .ok (({ m with pool := m.pool.touch newComputedBlocks }.setBlocks requestId
      newComputedBlocks).setNumCached requestId (some newComputedBlocks.length))

/-- Extend a request's table with new blocks up to a number of blocks. -/
def extendBlocks (m : KVCacheManager) (requestId : String) (numRequired : Nat) :
    Except PyError (List Nat × KVCacheManager) :=
  let blocks := m.reqToBlocks requestId
  (m.pool.getNewBlocks (numRequired - blocks.length)).map fun (new, pool) =>
    (new, { m with pool := pool }.setBlocks requestId (blocks ++ new))

/-- `allocate_new_computed_blocks`: touch the hits and add the blocks of the external tokens. -/
def allocateNewComputedBlocks (cfg : ManagerConfig) (m : KVCacheManager) (requestId : String)
    (newComputedBlocks : List Nat) (numLocalComputedTokens numExternalComputedTokens : Nat) :
    Except PyError KVCacheManager :=
  if (m.numCachedBlock requestId).isSome then
    if newComputedBlocks ≠ [] then .error .assertionError else .ok m
  else do
    let m ← m.addLocalComputedBlocks cfg requestId newComputedBlocks
    if 0 < numExternalComputedTokens then
      let (_, m) ← m.extendBlocks requestId
        (cdiv (numLocalComputedTokens + numExternalComputedTokens) cfg.blockSize)
      .ok m
    else .ok m

/-- `cache_blocks`: register the full blocks that are not registered yet. -/
def cacheBlocks (cfg : ManagerConfig) (m : KVCacheManager) (r : Request) (numTokens : Nat) :
    Except PyError KVCacheManager :=
  let numCached := m.numRegistered r.requestId
  let numFull := numTokens / cfg.blockSize
  if numFull ≤ numCached then .ok m
  else
    (m.pool.cacheFullBlocks (m.reqToBlocks r.requestId) (r.blockHashes cfg.blockSize) numCached
      numFull cfg.blockSize).map fun pool =>
        { m with pool := pool }.setNumCached r.requestId (some numFull)

/-- The arguments of one `allocate_slots` call. -/
structure AllocateArgs where
  numNewTokens : Nat
  numNewComputedTokens : Nat := 0
  newComputedBlocks : List Nat := []
  numLookaheadTokens : Nat := 0
  numExternalComputedTokens : Nat := 0
  delayCacheBlocks : Bool := false
  fullSequenceMustFit : Bool := false
  reservedBlocks : Nat := 0
  hasScheduledReqs : Bool := true
deriving DecidableEq, Repr

/-- The headroom of a waiting or preempted request when others are already running. -/
def watermark (cfg : ManagerConfig) (r : Request) (hasScheduledReqs : Bool) : Nat :=
  if hasScheduledReqs = true ∧ (r.status = .waiting ∨ r.status = .preempted) then
    cfg.watermarkBlocks
  else 0

/-- Whether `allocate_slots` finds room: the full-sequence gate, then the check for this step. -/
def hasRoom (cfg : ManagerConfig) (m : KVCacheManager) (r : Request) (a : AllocateArgs) :
    Except PyError Bool := do
  let numLocal := r.numComputedTokens + a.numNewComputedTokens
  let totalComputed := min (numLocal + a.numExternalComputedTokens) cfg.maxModelLen
  let wm := watermark cfg r a.hasScheduledReqs
  let fullRequired ← getNumBlocksToAllocate cfg m r.requestId (min r.numTokens cfg.maxModelLen)
    a.newComputedBlocks
  if a.fullSequenceMustFit = true ∧ m.pool.getNumFreeBlocks < fullRequired + wm then .ok false
  else
    let numSlots := min (totalComputed + a.numNewTokens + a.numLookaheadTokens) cfg.maxModelLen
    let required ← getNumBlocksToAllocate cfg m r.requestId numSlots a.newComputedBlocks
    .ok (required + wm + a.reservedBlocks ≤ m.pool.getNumFreeBlocks)

/-- The hits and the external tokens, when there are any. -/
def allocateComputed (cfg : ManagerConfig) (m : KVCacheManager) (r : Request) (a : AllocateArgs) :
    Except PyError KVCacheManager :=
  if a.newComputedBlocks ≠ [] ∨ 0 < a.numExternalComputedTokens then
    m.allocateNewComputedBlocks cfg r.requestId a.newComputedBlocks
      (r.numComputedTokens + a.numNewComputedTokens) a.numExternalComputedTokens
  else .ok m

/-- The stages of `allocate_slots` after its checks. -/
def allocateBlocks (cfg : ManagerConfig) (m : KVCacheManager) (r : Request) (a : AllocateArgs) :
    Except PyError (List Nat × KVCacheManager) := do
  let numLocal := r.numComputedTokens + a.numNewComputedTokens
  let totalComputed := min (numLocal + a.numExternalComputedTokens) cfg.maxModelLen
  let numSlots := min (totalComputed + a.numNewTokens + a.numLookaheadTokens) cfg.maxModelLen
  let m ← allocateComputed cfg m r a
  let (new, m) ← m.extendBlocks r.requestId (cdiv numSlots cfg.blockSize)
  if cfg.enableCaching = false ∨ a.delayCacheBlocks = true then .ok (new, m)
  else do
    let m ← m.cacheBlocks cfg r (min (totalComputed + a.numNewTokens) r.numTokens)
    .ok (new, m)

/-- `allocate_slots`: the new blocks, or nothing when there is no room. -/
def allocateSlots (cfg : ManagerConfig) (m : KVCacheManager) (r : Request) (a : AllocateArgs) :
    Except PyError (Option (List Nat) × KVCacheManager) :=
  if a.numNewTokens = 0 ∧ a.numExternalComputedTokens = 0 then
    .error (.valueError ("num_new_tokens must be greater than 0 when there are no external " ++
      "computed tokens"))
  else do
    if ← hasRoom cfg m r a then
      let (new, m) ← allocateBlocks cfg m r a
      .ok (some new, m)
    else .ok (none, m)

/-! ### Freeing -/

/-- `_index_partial_reuse_source`. -/
def indexPartialReuseSource (cfg : ManagerConfig) (m : KVCacheManager) (r : Request)
    (isFinished : Bool) : KVCacheManager :=
  if isFinished = true ∧ cfg.supportsAlignedReuse = true ∧ m.reqToBlocks r.requestId ≠ [] then
    { m with locator :=
        m.locator.index cfg.toLocatorConfig m.pool r (m.reqToBlocks r.requestId) }
  else m

/-- `pop_blocks_for_free`: index a finished request and drop its table; its blocks keep their
references. -/
def popBlocksForFree (cfg : ManagerConfig) (m : KVCacheManager) (r : Request) (isFinished : Bool) :
    List Nat × KVCacheManager :=
  (m.reqToBlocks r.requestId,
    ((m.indexPartialReuseSource cfg r isFinished).setBlocks r.requestId []).setNumCached
      r.requestId none)

/-- `free`: index a finished request, then return its blocks, the tail first. -/
def free (cfg : ManagerConfig) (m : KVCacheManager) (r : Request) (isFinished : Bool) :
    KVCacheManager :=
  let m := m.indexPartialReuseSource cfg r isFinished
  ({ m with pool := m.pool.freeBlocks (m.reqToBlocks r.requestId).reverse }.setBlocks r.requestId
    []).setNumCached r.requestId none

/-- `reset_prefix_cache`. -/
def resetPrefixCache (cfg : ManagerConfig) (m : KVCacheManager) : Option KVCacheManager :=
  m.pool.resetPrefixCache.map fun pool =>
    { m with
      pool := pool
      locator := if cfg.supportsAlignedReuse = true then m.locator.clear else m.locator }

end KVCacheManager

end CacheSelect.Core

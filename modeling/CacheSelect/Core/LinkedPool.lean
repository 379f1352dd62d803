import CacheSelect.Core.BlockHashMap
import CacheSelect.Core.BlockPool
import CacheSelect.Core.FreeQueue
import CacheSelect.Lib.Except

/-! # The block pool with its queue and its map

`LinkedBlockPool` is the pool over the linked queue and the map of the source.  A block may have more than one key: the
first is its own hash, and entries for a prefix that ends inside the block are kept beside it, in
`cachedBlockHashesByBlock`.

`Pool.Inv l` is the invariant, where `l` is the list of free blocks: the queue is linked as `l`, which has every
unreferenced block once, and the map has exactly the keys of each block.  A valid call (`Valid`) takes and drops
references that its caller has; it keeps the invariant (`linkedCall_inv`), so that it holds after any run of
calls (`Reachable.inv`).  Events, metrics and log messages are left out.
-/

namespace CacheSelect.Core

open FreeListNode (block)

structure LinkedBlockPool where
  numGpuBlocks : Nat
  enableCaching : Bool
  hashBlockSize : Nat
  blocks : Nat → KVCacheBlock
  freeBlockQueue : FreeKVCacheBlockQueue
  cachedBlockHashToBlock : BlockHashToBlockMap
  cachedBlockHashesByBlock : Nat → List BlockHash

namespace LinkedBlockPool

/-- A new pool: the first free block becomes the null block. -/
def init (numGpuBlocks : Nat) (enableCaching : Bool) (hashBlockSize : Nat) : Except PyError LinkedBlockPool := do
  if numGpuBlocks = 0 then throw .assertionError
  let (nullBlock, queue) ← (FreeKVCacheBlockQueue.init (List.range numGpuBlocks)).popleft
  .ok {
    numGpuBlocks := numGpuBlocks
    enableCaching := enableCaching
    hashBlockSize := hashBlockSize
    blocks := fun b => { isNull := decide (block b = nullBlock) }
    freeBlockQueue := queue
    cachedBlockHashToBlock := .empty
    cachedBlockHashesByBlock := fun _ => [] }

variable (p : LinkedBlockPool)

def setBlock (b : Nat) (blk : KVCacheBlock) : LinkedBlockPool :=
  { p with blocks := Function.update p.blocks b blk }

def getNumFreeBlocks : Nat :=
  p.freeBlockQueue.numFreeBlocks

/-! ### The keys of a block -/

/-- `_remove_cached_block_hashes`: the removed keys and the pool without them. -/
def removeCachedBlockHashes (b : Nat) : List BlockHash × LinkedBlockPool :=
  let blockHashes := (p.blocks b).blockHash.toList ++ p.cachedBlockHashesByBlock b
  let popped := { p with cachedBlockHashesByBlock := Function.update p.cachedBlockHashesByBlock b [] }
  if blockHashes = [] then ([], popped)
  else
    let removed := p.cachedBlockHashToBlock.popAll b blockHashes
    (removed.1, { popped with
      cachedBlockHashToBlock := removed.2
      blocks := Function.update p.blocks b
        { p.blocks b with blockHash := none, blockHashNumTokens := none } })

/-- `set_block_hash`. -/
def setBlockHash (blk : KVCacheBlock) (blockHash : BlockHash) (numTokens : Option Nat) :
    Except PyError KVCacheBlock :=
  if blk.blockHash = none ∧ blk.blockHashNumTokens = none then
    .ok { blk with blockHash := some blockHash, blockHashNumTokens := numTokens }
  else .error .assertionError

/-- `_insert_block_hash`. -/
def insertBlockHash (key : BlockHash) (b : Nat) (numTokens : Option Nat) : Except PyError LinkedBlockPool :=
  if (p.blocks b).blockHash = some key then .ok p
  else if p.cachedBlockHashToBlock.contain key b then .ok p
  else if (p.blocks b).blockHash = none then do
    let blk ← setBlockHash (p.blocks b) key numTokens
    .ok { p.setBlock b blk with cachedBlockHashToBlock := p.cachedBlockHashToBlock.insert key b }
  else
    let keys := p.cachedBlockHashesByBlock b
    .ok { p with
      cachedBlockHashesByBlock := Function.update p.cachedBlockHashesByBlock b
        (if key ∈ keys then keys else keys ++ [key])
      cachedBlockHashToBlock := p.cachedBlockHashToBlock.insert key b }

/-- One full block of `cache_full_blocks`. -/
def cacheFullBlock (b : Nat) (blockHash : Option BlockHash) (numHashTokens : Nat) :
    Except PyError LinkedBlockPool :=
  match blockHash with
  | none => .error .indexError
  | some key =>
      if (p.blocks b).blockHash = none then p.insertBlockHash key b (some numHashTokens)
      -- a block that has a hash was partial before
      else if (p.blocks b).blockHashNumTokens.any (· < numHashTokens) then
        (p.removeCachedBlockHashes b).2.insertBlockHash key b (some numHashTokens)
      else .error .assertionError

/-- The loop of `cache_full_blocks` over the blocks from index `i` on. -/
def cacheFullLoop (blockHashes : List BlockHash) (blockMask : Nat → Bool) (blockSize : Nat) :
    Nat → List Nat → LinkedBlockPool → Except PyError LinkedBlockPool
  | _, [], p => .ok p
  | i, b :: bs, p =>
      if (p.blocks b).isNull ∨ blockMask i = false then cacheFullLoop blockHashes blockMask blockSize (i + 1) bs p
      else do
        let p ← p.cacheFullBlock b blockHashes[i]? ((i + 1) * blockSize)
        cacheFullLoop blockHashes blockMask blockSize (i + 1) bs p

/-- Register the full blocks of a request from `numCachedBlocks` on, where `blockMask` does not leave one out. -/
def cacheFullBlocks (blocks : List Nat) (blockHashes : List BlockHash)
    (numCachedBlocks numFullBlocks blockSize : Nat) (blockMask : Option (List Bool)) :
    Except PyError LinkedBlockPool :=
  if numFullBlocks ≤ numCachedBlocks then .ok p
  else
    let newFullBlocks := (blocks.take numFullBlocks).drop numCachedBlocks
    match blockMask with
    | none => cacheFullLoop blockHashes (fun _ => true) blockSize numCachedBlocks newFullBlocks p
    | some mask =>
        if mask.length ≠ newFullBlocks.length then .error .assertionError
        else cacheFullLoop blockHashes (fun i => mask.getD (i - numCachedBlocks) true) blockSize numCachedBlocks
          newFullBlocks p

/-- `_get_partial_block_hash`. -/
def getPartialBlockHash (blockHashes : List BlockHash) (numTokens : Nat) : Except PyError BlockHash :=
  if numTokens % p.hashBlockSize ≠ 0 then .error .assertionError
  else
    let numHashBlocks := numTokens / p.hashBlockSize
    if numHashBlocks = 0 then .error .assertionError
    else (blockHashes[numHashBlocks - 1]?.map .ok).getD (.error .assertionError)

/-- Make a block reachable from a prefix that ends inside it. -/
def cachePartialBlock (blockHashes : List BlockHash) (b numTokens blockSize : Nat) :
    Except PyError (Option BlockHash × LinkedBlockPool) :=
  if (p.blocks b).isNull then .ok (none, p)
  else if blockSize ≤ p.hashBlockSize ∨ blockSize % p.hashBlockSize ≠ 0 ∨ numTokens % blockSize = 0 then
    .error .assertionError
  else do
    let key ← p.getPartialBlockHash blockHashes numTokens
    let numHashTokens := numTokens / p.hashBlockSize * p.hashBlockSize
    let alreadyCached := (p.blocks b).blockHash = some key ∨ p.cachedBlockHashToBlock.contain key b = true
    let q := if ¬alreadyCached ∧ (p.blocks b).blockHash ≠ none ∧
        (p.blocks b).blockHashNumTokens.any (· < numHashTokens)
      then (p.removeCachedBlockHashes b).2 else p
    let q ← q.insertBlockHash key b (some numHashTokens)
    .ok (some key, q)

/-- Insert keys for a block, one after the other. -/
def insertAll (b : Nat) (numTokens : Option Nat) (keys : List BlockHash) : Except PyError LinkedBlockPool :=
  keys.foldlM (fun q key => q.insertBlockHash key b numTokens) p

/-- Move the keys of one block to another. -/
def moveBlockHashes (src dst : Nat) : Except PyError LinkedBlockPool :=
  if (p.blocks dst).blockHash ≠ none ∨ p.cachedBlockHashesByBlock dst ≠ [] then .error .assertionError
  else
    let removed := p.removeCachedBlockHashes src
    removed.2.insertAll dst (p.blocks src).blockHashNumTokens removed.1

/-! ### References -/

def touchBlock (b : Nat) : Except PyError LinkedBlockPool := do
  let blk := p.blocks b
  let queue ← (if blk.refCnt = 0 ∧ blk.isNull = false then p.freeBlockQueue.remove b else .ok p.freeBlockQueue)
  .ok { p.setBlock b { blk with refCnt := blk.refCnt + 1 } with freeBlockQueue := queue }

/-- Take one reference on each block; an unreferenced block leaves the free queue. -/
def touch (bs : List Nat) : Except PyError LinkedBlockPool :=
  bs.foldlM touchBlock p

def decRef (b : Nat) : LinkedBlockPool :=
  p.setBlock b { p.blocks b with refCnt := (p.blocks b).refCnt - 1 }

/-- The loop of `free_blocks`: the blocks that it frees, with and without a hash. -/
def freeLoop : List Nat → LinkedBlockPool → LinkedBlockPool × List Nat × List Nat
  | [], p => (p, [], [])
  | b :: bs, p =>
      let p := p.decRef b
      let rest := freeLoop bs p
      if (p.blocks b).refCnt = 0 ∧ (p.blocks b).isNull = false then
        if (p.blocks b).blockHash = none then (rest.1, rest.2.1, b :: rest.2.2)
        else (rest.1, b :: rest.2.1, rest.2.2)
      else rest

/-- Drop one reference on each block.  Freed blocks without a hash are evicted first. -/
def freeBlocks (orderedBlocks : List Nat) : Except PyError LinkedBlockPool := do
  let freed := freeLoop orderedBlocks p
  let queue ← freed.1.freeBlockQueue.prependN freed.2.2
  let queue ← queue.appendN freed.2.1
  .ok { freed.1 with freeBlockQueue := queue }

/-- `_maybe_evict_cached_block`. -/
def maybeEvictCachedBlock (b : Nat) : LinkedBlockPool :=
  (p.removeCachedBlockHashes b).2

def takeNewBlock (b : Nat) : Except PyError LinkedBlockPool :=
  let p := if p.enableCaching then p.maybeEvictCachedBlock b else p
  if (p.blocks b).refCnt ≠ 0 then .error .assertionError
  else .ok (p.setBlock b { p.blocks b with refCnt := (p.blocks b).refCnt + 1 })

/-- Pop blocks from the head of the free queue. -/
def getNewBlocks (numBlocks : Nat) : Except PyError (List Nat × LinkedBlockPool) := do
  if p.getNumFreeBlocks < numBlocks then
    throw (.valueError s!"Cannot get {numBlocks} free blocks from the pool")
  let (ret, queue) ← p.freeBlockQueue.popleftN numBlocks
  let q ← ret.foldlM takeNewBlock { p with freeBlockQueue := queue }
  .ok (ret, q)

def evictBlocks (blockIds : List Nat) : Except PyError LinkedBlockPool :=
  blockIds.foldlM (fun q b => if b < q.numGpuBlocks then .ok (q.maybeEvictCachedBlock b) else .error .assertionError) p

/-- Drop every key, unless a block other than the null block is in use. -/
def resetPrefixCache : Bool × LinkedBlockPool :=
  if p.numGpuBlocks - p.getNumFreeBlocks ≠ 1 then (false, p)
  else (true, { p with
    cachedBlockHashToBlock := .empty
    cachedBlockHashesByBlock := fun _ => []
    blocks := fun b => { p.blocks b with blockHash := none, blockHashNumTokens := none } })

/-! ### The invariant -/

/-- The keys of a block, its own hash first. -/
def keysOf (b : Nat) : List BlockHash :=
  (p.blocks b).blockHash.toList ++ p.cachedBlockHashesByBlock b

/-- The map has exactly the keys of each block. -/
structure Entries : Prop where
  map_wf : p.cachedBlockHashToBlock.WF
  mem_blocksOf : ∀ key b, b ∈ p.cachedBlockHashToBlock.blocksOf key ↔ key ∈ p.keysOf b
  nodup_keysOf : ∀ b, (p.keysOf b).Nodup
  of_blockHash_none : ∀ b, (p.blocks b).blockHash = none →
    p.cachedBlockHashesByBlock b = [] ∧ (p.blocks b).blockHashNumTokens = none
  owner : ∀ b, p.keysOf b ≠ [] → b < p.numGpuBlocks ∧ b ≠ 0

/-- The queue has every unreferenced block. -/
structure Refs (l : List Nat) : Prop where
  queue : p.freeBlockQueue.Represents l
  mem_free : ∀ b, b ∈ l ↔ b < p.numGpuBlocks ∧ b ≠ 0 ∧ (p.blocks b).refCnt = 0
  isNull_iff : ∀ b, (p.blocks b).isNull = true ↔ b = 0
  refCnt_nonneg : ∀ b, b ≠ 0 → 0 ≤ (p.blocks b).refCnt

/-- **The invariant of the pool**, with the list of its free blocks. -/
structure Inv (l : List Nat) : Prop extends Entries p, Refs p l

/-- The pool is as before but for the keys. -/
structure SameRefs (q : LinkedBlockPool) : Prop where
  numGpuBlocks : q.numGpuBlocks = p.numGpuBlocks
  enableCaching : q.enableCaching = p.enableCaching
  hashBlockSize : q.hashBlockSize = p.hashBlockSize
  queue : q.freeBlockQueue = p.freeBlockQueue
  refCnt : ∀ b, (q.blocks b).refCnt = (p.blocks b).refCnt
  isNull : ∀ b, (q.blocks b).isNull = (p.blocks b).isNull

/-- The pool is as before but for the references. -/
structure SameKeys (q : LinkedBlockPool) : Prop where
  numGpuBlocks : q.numGpuBlocks = p.numGpuBlocks
  enableCaching : q.enableCaching = p.enableCaching
  map : q.cachedBlockHashToBlock = p.cachedBlockHashToBlock
  byBlock : q.cachedBlockHashesByBlock = p.cachedBlockHashesByBlock
  blockHash : ∀ b, (q.blocks b).blockHash = (p.blocks b).blockHash
  blockHashNumTokens : ∀ b, (q.blocks b).blockHashNumTokens = (p.blocks b).blockHashNumTokens
  isNull : ∀ b, (q.blocks b).isNull = (p.blocks b).isNull

variable {p} {q r : LinkedBlockPool} {l : List Nat} {b : Nat} {key : BlockHash}

theorem SameRefs.refl (p : LinkedBlockPool) : p.SameRefs p :=
  ⟨rfl, rfl, rfl, rfl, fun _ => rfl, fun _ => rfl⟩

theorem SameRefs.trans (h : p.SameRefs q) (h' : q.SameRefs r) : p.SameRefs r where
  numGpuBlocks := h'.numGpuBlocks.trans h.numGpuBlocks
  enableCaching := h'.enableCaching.trans h.enableCaching
  hashBlockSize := h'.hashBlockSize.trans h.hashBlockSize
  queue := h'.queue.trans h.queue
  refCnt := fun b => (h'.refCnt b).trans (h.refCnt b)
  isNull := fun b => (h'.isNull b).trans (h.isNull b)

theorem SameKeys.refl (p : LinkedBlockPool) : p.SameKeys p :=
  ⟨rfl, rfl, rfl, rfl, fun _ => rfl, fun _ => rfl, fun _ => rfl⟩

theorem SameKeys.trans (h : p.SameKeys q) (h' : q.SameKeys r) : p.SameKeys r where
  numGpuBlocks := h'.numGpuBlocks.trans h.numGpuBlocks
  enableCaching := h'.enableCaching.trans h.enableCaching
  map := h'.map.trans h.map
  byBlock := h'.byBlock.trans h.byBlock
  blockHash := fun b => (h'.blockHash b).trans (h.blockHash b)
  blockHashNumTokens := fun b => (h'.blockHashNumTokens b).trans (h.blockHashNumTokens b)
  isNull := fun b => (h'.isNull b).trans (h.isNull b)

theorem Refs.of_same (hp : p.Refs l) (h : p.SameRefs q) : q.Refs l where
  queue := by
    rw [h.queue]
    exact hp.queue
  mem_free := fun b => by
    rw [hp.mem_free, h.numGpuBlocks, h.refCnt]
  isNull_iff := fun b => by
    rw [h.isNull]
    exact hp.isNull_iff b
  refCnt_nonneg := fun b hb => by
    rw [h.refCnt]
    exact hp.refCnt_nonneg b hb

theorem SameKeys.keysOf (h : p.SameKeys q) (b : Nat) : q.keysOf b = p.keysOf b := by
  rw [LinkedBlockPool.keysOf, LinkedBlockPool.keysOf, h.blockHash, h.byBlock]

theorem Entries.of_same (hp : p.Entries) (h : p.SameKeys q) : q.Entries where
  map_wf := by
    rw [h.map]
    exact hp.map_wf
  mem_blocksOf := fun key b => by
    rw [h.map, h.keysOf]
    exact hp.mem_blocksOf key b
  nodup_keysOf := fun b => by
    rw [h.keysOf]
    exact hp.nodup_keysOf b
  of_blockHash_none := fun b hb => by
    rw [h.byBlock, h.blockHashNumTokens]
    exact hp.of_blockHash_none b ((h.blockHash b).symm.trans hb)
  owner := fun b hb => by
    rw [h.keysOf] at hb
    rw [h.numGpuBlocks]
    exact hp.owner b hb

theorem Refs.isNull_eq_false (hp : p.Refs l) (hb : b ≠ 0) : (p.blocks b).isNull = false :=
  Bool.eq_false_iff.mpr fun h => hb ((hp.isNull_iff b).mp h)

theorem Refs.ne_zero (hp : p.Refs l) (hb : (p.blocks b).isNull = false) : b ≠ 0 := by
  intro h
  rw [(hp.isNull_iff b).mpr h] at hb
  cases hb

theorem mem_keysOf : key ∈ p.keysOf b ↔ (p.blocks b).blockHash = some key ∨ key ∈ p.cachedBlockHashesByBlock b := by
  rw [keysOf, List.mem_append, Option.mem_toList]

/-- A new pool has all blocks but the first one free. -/
theorem init_inv {numGpuBlocks hashBlockSize : Nat} {enableCaching : Bool} (hn : 0 < numGpuBlocks) :
    ∃ p, init numGpuBlocks enableCaching hashBlockSize = .ok p ∧ p.numGpuBlocks = numGpuBlocks ∧
      p.enableCaching = enableCaching ∧ p.blocks = (fun b => { isNull := b == 0 }) ∧
      p.cachedBlockHashToBlock = .empty ∧ p.cachedBlockHashesByBlock = (fun _ => []) ∧
      p.Inv ((List.range numGpuBlocks).tail) := by
  obtain ⟨n, rfl⟩ : ∃ n, numGpuBlocks = n + 1 := ⟨numGpuBlocks - 1, by omega⟩
  have hrange : List.range (n + 1) = 0 :: (List.range n).map (· + 1) := List.range_succ_eq_map
  have hqueue := FreeKVCacheBlockQueue.init_represents (List.nodup_range (n := n + 1))
  rw [hrange] at hqueue ⊢
  obtain ⟨queue, hpop, hrep⟩ := FreeKVCacheBlockQueue.popleft_ok hqueue
  let pool : LinkedBlockPool := ⟨n + 1, enableCaching, hashBlockSize, fun b => { isNull := decide (block b = block 0) },
    queue, .empty, fun _ => []⟩
  refine ⟨pool, ?_, ?_⟩
  · rw [init, hrange, hpop]
    rfl
  · have hblocks : pool.blocks = fun b => { isNull := b == 0 } := by
      funext b
      by_cases hb : b = 0 <;> simp [pool, hb]
    refine ⟨rfl, rfl, hblocks, rfl, rfl, ?_⟩
    refine ⟨⟨BlockHashToBlockMap.empty_wf, ?_, fun b => List.nodup_nil, fun b _ => ⟨rfl, rfl⟩, ?_⟩, ?_⟩
    · intro key b
      exact iff_of_false List.not_mem_nil List.not_mem_nil
    · exact fun b hb => absurd rfl hb
    · refine ⟨hrep, ?_, ?_, fun b _ => Int.le_refl 0⟩
      · intro b
        rw [List.tail_cons, List.mem_map]
        constructor
        · rintro ⟨a, ha, rfl⟩
          exact ⟨Nat.succ_lt_succ (List.mem_range.mp ha), Nat.succ_ne_zero a, rfl⟩
        · intro h
          obtain ⟨hlt, hne, -⟩ := h
          have hlt' : b < n + 1 := hlt
          exact ⟨b - 1, List.mem_range.mpr (by omega), by omega⟩
      · intro b
        rw [decide_eq_true_iff]
        exact FreeKVCacheBlockQueue.block_injective.eq_iff

/-! ### Removing and inserting keys -/

theorem keysOf_eq_nil_iff (hp : p.Entries) : p.keysOf b = [] ↔ (p.blocks b).blockHash = none := by
  constructor
  · intro h
    exact Option.toList_eq_nil_iff.mp (List.append_eq_nil_iff.mp h).1
  · intro h
    rw [keysOf, h, (hp.of_blockHash_none b h).1]
    rfl

/-- All keys of the block are removed. -/
theorem removeCachedBlockHashes_eq (hp : p.Entries) (b : Nat) :
    p.removeCachedBlockHashes b = (p.keysOf b, { p with
      cachedBlockHashesByBlock := Function.update p.cachedBlockHashesByBlock b []
      cachedBlockHashToBlock := (p.cachedBlockHashToBlock.popAll b (p.keysOf b)).2
      blocks := Function.update p.blocks b { p.blocks b with blockHash := none, blockHashNumTokens := none } }) := by
  rw [removeCachedBlockHashes, ← keysOf]
  by_cases hnil : p.keysOf b = []
  · have hnone := (keysOf_eq_nil_iff hp).mp hnil
    have hsame : { p.blocks b with blockHash := none, blockHashNumTokens := none } = p.blocks b := by
      rw [← hnone, ← (hp.of_blockHash_none b hnone).2]
    rw [if_pos hnil, hsame, Function.update_eq_self, hnil]
    rfl
  · rw [if_neg hnil]
    have hremoved := BlockHashToBlockMap.popAll_fst b (p.keysOf b) p.cachedBlockHashToBlock (hp.nodup_keysOf b)
      fun key hkey => (hp.mem_blocksOf key b).mpr hkey
    exact Prod.ext hremoved rfl

theorem keysOf_removeCachedBlockHashes (hp : p.Entries) (b c : Nat) :
    (p.removeCachedBlockHashes b).2.keysOf c = if c = b then [] else p.keysOf c := by
  rw [removeCachedBlockHashes_eq hp, keysOf, keysOf]
  dsimp only
  by_cases hc : c = b
  · rw [hc, Function.update_self, Function.update_self, if_pos rfl]
    rfl
  · rw [Function.update_of_ne hc, Function.update_of_ne hc, if_neg hc, keysOf]

theorem removeCachedBlockHashes_same (hp : p.Entries) (b : Nat) : p.SameRefs (p.removeCachedBlockHashes b).2 := by
  rw [removeCachedBlockHashes_eq hp]
  refine ⟨rfl, rfl, rfl, rfl, ?_, ?_⟩
  · intro c
    dsimp only
    rw [Function.update_apply]
    split
    · next hc => rw [hc]
    · rfl
  · intro c
    dsimp only
    rw [Function.update_apply]
    split
    · next hc => rw [hc]
    · rfl

theorem removeCachedBlockHashes_entries (hp : p.Entries) (b : Nat) : (p.removeCachedBlockHashes b).2.Entries := by
  have hkeys := keysOf_removeCachedBlockHashes hp b
  refine ⟨?_, ?_, ?_, ?_, ?_⟩
  · rw [removeCachedBlockHashes_eq hp]
    exact BlockHashToBlockMap.popAll_wf b _ hp.map_wf
  · intro key c
    rw [hkeys]
    rw [removeCachedBlockHashes_eq hp]
    dsimp only
    rw [BlockHashToBlockMap.blocksOf_popAll b _ _ (hp.nodup_keysOf b)]
    by_cases hkey : key ∈ p.keysOf b
    · rw [if_pos hkey, (hp.map_wf.nodup key).mem_erase_iff, hp.mem_blocksOf]
      by_cases hc : c = b
      · simp [hc]
      · simp [hc]
    · rw [if_neg hkey, hp.mem_blocksOf]
      by_cases hc : c = b
      · simp [hc, hkey]
      · simp [hc]
  · intro c
    rw [hkeys]
    split
    · exact List.nodup_nil
    · exact hp.nodup_keysOf c
  · intro c
    rw [removeCachedBlockHashes_eq hp]
    dsimp only
    by_cases hc : c = b
    · rw [hc, Function.update_self, Function.update_self]
      exact fun _ => ⟨rfl, rfl⟩
    · rw [Function.update_of_ne hc, Function.update_of_ne hc]
      exact hp.of_blockHash_none c
  · intro c hne
    rw [hkeys] at hne
    rw [(removeCachedBlockHashes_same hp b).numGpuBlocks]
    by_cases hc : c = b
    · rw [if_pos hc] at hne
      exact absurd rfl hne
    · rw [if_neg hc] at hne
      exact hp.owner c hne

theorem blockHash_removeCachedBlockHashes (hp : p.Entries) (b : Nat) :
    ((p.removeCachedBlockHashes b).2.blocks b).blockHash = none := by
  rw [removeCachedBlockHashes_eq hp]
  exact congrArg KVCacheBlock.blockHash (Function.update_self b _ p.blocks)

/-- A key more for one block. -/
theorem Entries.addKey (hp : p.Entries) (hb : b < p.numGpuBlocks ∧ b ≠ 0) (hkey : key ∉ p.keysOf b)
    (hn : q.numGpuBlocks = p.numGpuBlocks)
    (hmap : q.cachedBlockHashToBlock = p.cachedBlockHashToBlock.insert key b)
    (hkeys : ∀ c, q.keysOf c = if c = b then p.keysOf b ++ [key] else p.keysOf c)
    (hself : (q.blocks b).blockHash ≠ none)
    (hother : ∀ c, c ≠ b → q.blocks c = p.blocks c ∧ q.cachedBlockHashesByBlock c = p.cachedBlockHashesByBlock c) :
    q.Entries := by
  refine ⟨?_, ?_, ?_, ?_, ?_⟩
  · rw [hmap]
    exact hp.map_wf.insert
  · intro k c
    rw [hmap, BlockHashToBlockMap.blocksOf_insert, hkeys]
    have hmem := hp.mem_blocksOf k
    have hnot : b ∉ p.cachedBlockHashToBlock.blocksOf key := fun h => hkey ((hp.mem_blocksOf key b).mp h)
    by_cases hk : k = key
    · rw [if_pos hk, BlockHashToBlockMap.dictInsert, if_neg hnot, List.mem_append, List.mem_singleton, ← hk, hmem]
      by_cases hc : c = b
      · simp [hc]
      · simp [hc]
    · rw [if_neg hk, hmem]
      by_cases hc : c = b
      · simp [hc, hk]
      · simp [hc]
  · intro c
    rw [hkeys]
    split
    · refine List.nodup_append.mpr ⟨hp.nodup_keysOf b, List.nodup_singleton key, ?_⟩
      intro x hx y hy hxy
      rw [List.mem_singleton.mp hy] at hxy
      exact hkey (hxy ▸ hx)
    · exact hp.nodup_keysOf c
  · intro c hc
    have hne : c ≠ b := fun h => hself (h ▸ hc)
    obtain ⟨hblock, hbyBlock⟩ := hother c hne
    rw [hblock] at hc ⊢
    rw [hbyBlock]
    exact hp.of_blockHash_none c hc
  · intro c hc
    rw [hn]
    by_cases heq : c = b
    · rw [heq]
      exact hb
    · rw [hkeys, if_neg heq] at hc
      exact hp.owner c hc

/-- **Inserting a key** for a real block succeeds. -/
theorem insertBlockHash_ok (hp : p.Entries) (hb : b < p.numGpuBlocks ∧ b ≠ 0) (key : BlockHash)
    (numTokens : Option Nat) :
    ∃ q, p.insertBlockHash key b numTokens = .ok q ∧ q.Entries ∧ p.SameRefs q ∧
      ∀ c, q.keysOf c = if c = b ∧ key ∉ p.keysOf b then p.keysOf b ++ [key] else p.keysOf c := by
  rw [insertBlockHash]
  by_cases hown : (p.blocks b).blockHash = some key
  · have hkey : key ∈ p.keysOf b := mem_keysOf.mpr (Or.inl hown)
    rw [if_pos hown]
    refine ⟨p, rfl, hp, .refl p, ?_⟩
    intro c
    rw [if_neg fun h => h.2 hkey]
  rw [if_neg hown]
  have hcontain : p.cachedBlockHashToBlock.contain key b = true ↔ key ∈ p.keysOf b := by
    rw [BlockHashToBlockMap.contain_iff, hp.mem_blocksOf]
  by_cases hkey : key ∈ p.keysOf b
  · rw [if_pos (hcontain.mpr hkey)]
    refine ⟨p, rfl, hp, .refl p, ?_⟩
    intro c
    rw [if_neg fun h => h.2 hkey]
  rw [if_neg fun h => hkey (hcontain.mp h)]
  by_cases hnone : (p.blocks b).blockHash = none
  · -- the key becomes the block's own hash
    obtain ⟨hby, htokens⟩ := hp.of_blockHash_none b hnone
    rw [if_pos hnone, setBlockHash, if_pos ⟨hnone, htokens⟩]
    have hother : ∀ c, c ≠ b → Function.update p.blocks b
        { p.blocks b with blockHash := some key, blockHashNumTokens := numTokens } c = p.blocks c :=
      fun c hc => Function.update_of_ne hc _ _
    let q : LinkedBlockPool := { p.setBlock b
        { p.blocks b with blockHash := some key, blockHashNumTokens := numTokens } with
      cachedBlockHashToBlock := p.cachedBlockHashToBlock.insert key b }
    have hself : q.blocks b = { p.blocks b with blockHash := some key, blockHashNumTokens := numTokens } :=
      Function.update_self _ _ _
    have hkeys : ∀ c, q.keysOf c = if c = b then p.keysOf b ++ [key] else p.keysOf c := by
      intro c
      by_cases hc : c = b
      · rw [if_pos hc, hc, (keysOf_eq_nil_iff hp).mpr hnone, keysOf, hself]
        change [key] ++ p.cachedBlockHashesByBlock b = _
        rw [hby]
        rfl
      · rw [if_neg hc, keysOf, keysOf, show q.blocks c = p.blocks c from hother c hc]
        rfl
    refine ⟨q, rfl, ?_, ⟨rfl, rfl, rfl, rfl, ?_, ?_⟩, ?_⟩
    · refine hp.addKey hb hkey rfl rfl hkeys ?_ fun c hc => ⟨hother c hc, rfl⟩
      rw [hself]
      exact Option.some_ne_none key
    · intro c
      by_cases hc : c = b
      · rw [hc, hself]
      · rw [show q.blocks c = p.blocks c from hother c hc]
    · intro c
      by_cases hc : c = b
      · rw [hc, hself]
      · rw [show q.blocks c = p.blocks c from hother c hc]
    · intro c
      rw [hkeys]
      simp [hkey]
  · rw [if_neg hnone]
    have hby : key ∉ p.cachedBlockHashesByBlock b := fun h => hkey (mem_keysOf.mpr (Or.inr h))
    let q : LinkedBlockPool := { p with
      cachedBlockHashesByBlock := Function.update p.cachedBlockHashesByBlock b (p.cachedBlockHashesByBlock b ++ [key])
      cachedBlockHashToBlock := p.cachedBlockHashToBlock.insert key b }
    have hother : ∀ c, c ≠ b → q.cachedBlockHashesByBlock c = p.cachedBlockHashesByBlock c :=
      fun c hc => Function.update_of_ne hc _ _
    have hkeys : ∀ c, q.keysOf c = if c = b then p.keysOf b ++ [key] else p.keysOf c := by
      intro c
      by_cases hc : c = b
      · rw [if_pos hc, hc, keysOf, keysOf, List.append_assoc]
        exact congrArg ((p.blocks b).blockHash.toList ++ ·) (Function.update_self _ _ _)
      · rw [if_neg hc, keysOf, keysOf, hother c hc]
    dsimp only
    rw [if_neg hby]
    refine ⟨q, rfl, ?_, ⟨rfl, rfl, rfl, rfl, fun _ => rfl, fun _ => rfl⟩, ?_⟩
    · exact hp.addKey hb hkey rfl rfl hkeys hnone fun c hc => ⟨rfl, hother c hc⟩
    · intro c
      rw [hkeys]
      simp [hkey]

end LinkedBlockPool

end CacheSelect.Core

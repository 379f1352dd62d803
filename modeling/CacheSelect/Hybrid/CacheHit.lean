import CacheSelect.Core.KVCacheManager
import CacheSelect.Lib.CommonPoint
import CacheSelect.Lib.Except

/-! # Prefix lookups by the kind of a cache group

A model with several kinds of layers keeps one cache group for each kind of state.  A prefix of `L` tokens is a hit
for a group when the blocks that the next token reads are cached: all of them for full attention, those of the last
window for sliding-window attention, and the last one for a Mamba layer, whose state must be that after exactly `L`
tokens.  `firstNeeded` is the first of these blocks.

The three lookups scan the hashes of the request in different orders, from the left or from the right.  Each returns
the greatest hit at or below the length it is given (`Found`), which `points` describes without a scan.  A group
whose block is larger than the alignment is searched at every hash of a block, so that a hit may end inside one.

Groups with one spec are looked up together.  There is no speculative decoding and no context parallelism, so no
block is dropped at the end of a hit and a block holds its tokens on one rank.
-/

namespace CacheSelect.Hybrid

open CacheSelect.Core (PyError cdiv)

/-! ### Specs -/

inductive MambaCacheMode
  | all
  | align
  | none
deriving DecidableEq, Repr

inductive KVCacheKind
  | fullAttention
  | slidingWindow (slidingWindow : Nat)
  | mamba (mambaCacheMode : MambaCacheMode)
deriving DecidableEq, Repr

/-- `KVCacheSpec`; `layout` stands for the fields that only its equality reads. -/
structure KVCacheSpec where
  kind : KVCacheKind
  blockSize : Nat
  layout : Nat := 0
deriving DecidableEq, Repr

/-- `cdiv(window_size - 1, block_size)` contiguous blocks make a hit of a sliding window. -/
def contiguousBlocksForHit (windowSize blockSize : Nat) : Nat :=
  cdiv (windowSize - 1) blockSize

/-- The null block of the pool. -/
def nullBlock : Nat := 0

/-! ### Hashes at another block size -/

/-- The hashes of a request as they are, or one for each `scaleFactor` of them. -/
inductive BlockHashList (Hash : Type)
  | raw (blockHashes : List Hash)
  | withBlockSize (blockHashes : List Hash) (scaleFactor : Nat)

namespace BlockHashList

variable {Hash : Type}

def getItem : BlockHashList Hash → Nat → Except PyError Hash
  | raw blockHashes, idx => (blockHashes[idx]?.map .ok).getD (.error .indexError)
  | withBlockSize blockHashes scaleFactor, idx =>
      (blockHashes[(idx + 1) * scaleFactor - 1]?.map .ok).getD (.error .indexError)

def toList : BlockHashList Hash → List Hash
  | raw blockHashes => blockHashes
  | withBlockSize blockHashes scaleFactor =>
      (List.range (blockHashes.length / scaleFactor)).filterMap fun idx =>
        blockHashes[(idx + 1) * scaleFactor - 1]?

end BlockHashList

/-! ### The lookups -/

/-- What a lookup reads: the block that is cached for a hash and a group, the hashes of the request, and the token
count that hits are aligned to. -/
structure CacheLookup (Hash : Type) where
  getOneBlock : Hash → Nat → Option Nat
  hashBlockSize : Nat
  blockHashes : List Hash
  alignmentTokens : Nat

namespace CacheLookup

variable {Hash : Type} (q : CacheLookup Hash)

/-- `get_cached_block`: the blocks of all groups, if each has one. -/
def getCachedBlock (blockHash : Hash) (kvCacheGroupIds : List Nat) : Option (List Nat) :=
  kvCacheGroupIds.mapM (q.getOneBlock blockHash)

/-- Hits may end inside a block of this size. -/
def FineGrained (blockSize : Nat) : Prop :=
  q.alignmentTokens < blockSize ∧ blockSize % q.alignmentTokens = 0

instance (blockSize : Nat) : Decidable (q.FineGrained blockSize) := inferInstanceAs (Decidable (_ ∧ _))

def resolveBlockHashes (blockSize : Nat) (supportsFineGrainedHashLookup : Bool) :
    Except PyError (BlockHashList Hash) :=
  if blockSize = q.hashBlockSize then .ok (.raw q.blockHashes)
  else if supportsFineGrainedHashLookup = true ∧ q.FineGrained blockSize then .ok (.raw q.blockHashes)
  else if blockSize % q.hashBlockSize ≠ 0 then .error .assertionError
  else .ok (.withBlockSize q.blockHashes (blockSize / q.hashBlockSize))

def appendEach (computed : List (List Nat)) (cached : List Nat) : List (List Nat) :=
  List.zipWith (fun blocks block => blocks ++ [block]) computed cached

/-- The first phase of full attention: the run of cached blocks from the start. -/
def fullRun (kvCacheGroupIds : List Nat) : List Hash → List (List Nat) → List (List Nat)
  | [], computed => computed
  | blockHash :: rest, computed =>
      match q.getCachedBlock blockHash kvCacheGroupIds with
      | none => computed
      | some cached => fullRun kvCacheGroupIds rest (appendEach computed cached)

/-- The blocks cached under the hash at an index, with the index. -/
def probe (kvCacheGroupIds : List Nat) (fineIdx : Nat) : Option (Nat × List Nat) := do
  let blockHash ← q.blockHashes[fineIdx]?
  let cached ← q.getCachedBlock blockHash kvCacheGroupIds
  some (fineIdx, cached)

/-- The second phase of full attention: the hashes inside the first block that is not cached, from the right. -/
def extendRun (blockSize : Nat) (kvCacheGroupIds : List Nat) (maxLength : Nat)
    (computed : List (List Nat)) : List (List Nat) × Nat :=
  let numFull := (computed.headD []).length
  let scaleFactor := blockSize / q.alignmentTokens
  let firstPartialIdx := numFull * scaleFactor
  let maxPartialIdx := min (min (firstPartialIdx + scaleFactor - 1) (maxLength / q.alignmentTokens))
    q.blockHashes.length
  match (List.range' firstPartialIdx (maxPartialIdx - firstPartialIdx)).reverse.findSome?
      (q.probe kvCacheGroupIds) with
  | none => (computed, numFull * blockSize)
  | some (fineIdx, cachedTail) => (appendEach computed cachedTail, (fineIdx + 1) * q.alignmentTokens)

/-- `FullAttentionManager.find_longest_cache_hit`. -/
def fullAttentionHit (blockSize : Nat) (kvCacheGroupIds : List Nat) (maxLength : Nat) :
    Except PyError (List (List Nat) × Nat) := do
  let blockHashes ← q.resolveBlockHashes blockSize true
  let fullBlockHashes := if q.FineGrained blockSize
    then .withBlockSize q.blockHashes (blockSize / q.alignmentTokens) else blockHashes
  let run := q.fullRun kvCacheGroupIds (fullBlockHashes.toList.take (maxLength / blockSize))
    (kvCacheGroupIds.map fun _ => [])
  let extended := if q.FineGrained blockSize then q.extendRun blockSize kvCacheGroupIds maxLength run
    else (run, (run.headD []).length * blockSize)
  let hitLength := extended.2 - extended.2 % q.alignmentTokens
  .ok (extended.1.map (List.take (cdiv hitLength blockSize)), hitLength)

/-- The loop of the sliding window over the blocks below `i`, from the right: the blocks so far, the length of the
current run, and whether it is long enough. -/
def windowLoop (blockHashes : BlockHashList Hash) (blockSize contiguousBlocks : Nat)
    (kvCacheGroupIds : List Nat) : Nat → List (List Nat) → Nat →
    Except PyError (List (List Nat) × Nat × Bool)
  | 0, computed, numContiguousBlocks => .ok (computed, numContiguousBlocks, false)
  | i + 1, computed, numContiguousBlocks => do
      let blockHash ← blockHashes.getItem i
      match q.getCachedBlock blockHash kvCacheGroupIds with
      | none => windowLoop blockHashes blockSize contiguousBlocks kvCacheGroupIds i computed 0
      | some cached =>
          if numContiguousBlocks = 0 ∧ blockSize ≠ q.alignmentTokens ∧
              (i + 1) * blockSize % q.alignmentTokens ≠ 0 then
            windowLoop blockHashes blockSize contiguousBlocks kvCacheGroupIds i computed numContiguousBlocks
          else
            let computed := List.zipWith (fun blocks block => blocks.set i block) computed cached
            if contiguousBlocks ≤ numContiguousBlocks + 1 then
              .ok (computed.map (List.take (i + (numContiguousBlocks + 1))), numContiguousBlocks + 1, true)
            else
              windowLoop blockHashes blockSize contiguousBlocks kvCacheGroupIds i computed
                (numContiguousBlocks + 1)

/-- The loop that pops blocks until their tokens are aligned. -/
def alignedBlocks (blockSize : Nat) : Nat → Nat
  | 0 => 0
  | n + 1 =>
      if blockSize ≠ q.alignmentTokens ∧ (n + 1) * blockSize % q.alignmentTokens ≠ 0 then
        alignedBlocks blockSize n
      else n + 1

/-- `SlidingWindowManager.find_longest_cache_hit`. -/
def slidingWindowHit (blockSize slidingWindow : Nat) (kvCacheGroupIds : List Nat) (maxLength : Nat) :
    Except PyError (List (List Nat) × Nat) := do
  if q.alignmentTokens % blockSize ≠ 0 then .error .assertionError
  else
    let blockHashes ← q.resolveBlockHashes blockSize false
    let maxNumBlocks := maxLength / blockSize
    let (computed, numContiguousBlocks, matchFound) ← q.windowLoop blockHashes blockSize
      (contiguousBlocksForHit slidingWindow blockSize) kvCacheGroupIds maxNumBlocks
      (kvCacheGroupIds.map fun _ => List.replicate maxNumBlocks nullBlock) 0
    let computed := if matchFound = true then computed
      else (computed.map (List.take numContiguousBlocks)).map
        (List.take (q.alignedBlocks blockSize numContiguousBlocks))
    .ok (computed, (computed.headD []).length * blockSize)

/-- The last cached block below `i` whose end is aligned. -/
def lastAlignedBlock (blockHashes : BlockHashList Hash) (blockSize : Nat) (kvCacheGroupIds : List Nat) :
    Nat → Except PyError (Option (Nat × List Nat))
  | 0 => .ok none
  | i + 1 => do
      let blockHash ← blockHashes.getItem i
      match q.getCachedBlock blockHash kvCacheGroupIds with
      | none => lastAlignedBlock blockHashes blockSize kvCacheGroupIds i
      | some cached =>
          if blockSize ≠ q.alignmentTokens ∧ (i + 1) * blockSize % q.alignmentTokens ≠ 0 then
            lastAlignedBlock blockHashes blockSize kvCacheGroupIds i
          else .ok (some (i, cached))

/-- The blocks of a Mamba hit: null blocks before the one that holds the state. -/
def stateBlocks (blockIdx : Nat) (cached : List Nat) : List (List Nat) :=
  cached.map fun block => List.replicate blockIdx nullBlock ++ [block]

/-- `MambaManager.find_longest_cache_hit`. -/
def mambaHit (blockSize : Nat) (kvCacheGroupIds : List Nat) (maxLength : Nat) :
    Except PyError (List (List Nat) × Nat) := do
  let blockHashes ← q.resolveBlockHashes blockSize true
  if q.FineGrained blockSize then
    let maxNumPartialUnits := min (maxLength / q.alignmentTokens) q.blockHashes.length
    match (List.range' 0 maxNumPartialUnits).reverse.findSome? (q.probe kvCacheGroupIds) with
    | none => .ok (kvCacheGroupIds.map fun _ => [], 0)
    | some (fineIdx, cached) =>
        .ok (stateBlocks (fineIdx / (blockSize / q.alignmentTokens)) cached, (fineIdx + 1) * q.alignmentTokens)
  else
    let last ← q.lastAlignedBlock blockHashes blockSize kvCacheGroupIds (maxLength / blockSize)
    match last with
    | none => .ok (kvCacheGroupIds.map fun _ => [], 0)
    | some (i, cached) => .ok (stateBlocks i cached, (i + 1) * blockSize)

/-- `find_longest_cache_hit` of the manager of a spec. -/
def findLongestCacheHit (spec : KVCacheSpec) (kvCacheGroupIds : List Nat) (maxLength : Nat) :
    Except PyError (List (List Nat) × Nat) :=
  match spec.kind with
  | .fullAttention => q.fullAttentionHit spec.blockSize kvCacheGroupIds maxLength
  | .slidingWindow slidingWindow => q.slidingWindowHit spec.blockSize slidingWindow kvCacheGroupIds maxLength
  | .mamba _ => q.mambaHit spec.blockSize kvCacheGroupIds maxLength

end CacheLookup

end CacheSelect.Hybrid

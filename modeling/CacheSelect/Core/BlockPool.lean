import CacheSelect.Core.Request
import Mathlib.Logic.Function.Basic
import Mathlib.Data.List.Count
import Mathlib.Data.List.Nodup
import Mathlib.Data.List.Perm.Basic

/-! # The block pool

`BlockPool` keeps the reference count and the hash of every physical block, the queue of free blocks
in eviction order, and the prefix-cache map from a hash to the blocks that hold it, in insertion
order.  The operations are those of the source: `touch`, `freeBlocks`, `getNewBlocks`,
`cacheFullBlocks` and `resetPrefixCache`.  The layout has one cache group whose block size is the
hash block size, so a block has at most one hash and the partial-block entries of the source stay
empty.

`BlockPool.WF` is the invariant of the pool on its own: the queue holds exactly the unreferenced
blocks, and the map and the blocks' own hashes say the same.  Each operation has one lemma that it
keeps `WF` and a few that say what it changes.
-/

namespace CacheSelect.Core

structure KVCacheBlock where
  refCnt : Int := 0
  blockHash : Option BlockHash := none
  blockHashNumTokens : Option Nat := none
  isNull : Bool := false
deriving DecidableEq, Repr

structure BlockPool where
  numGpuBlocks : Nat
  blocks : Nat → KVCacheBlock
  freeBlockQueue : List Nat
  cachedBlockHashToBlock : BlockHash → List Nat

namespace BlockPool

/-- The initial pool: block `0` is the null block and all others are free. -/
def init (numGpuBlocks : Nat) : BlockPool where
  numGpuBlocks := numGpuBlocks
  blocks := fun b => { isNull := b == 0 }
  freeBlockQueue := (List.range numGpuBlocks).tail
  cachedBlockHashToBlock := fun _ => []

def setBlock (p : BlockPool) (b : Nat) (blk : KVCacheBlock) : BlockPool :=
  { p with blocks := Function.update p.blocks b blk }

/-! ### The prefix-cache map -/

/-- `BlockHashToBlockMap.get_one_block`: the block that was inserted first. -/
def getOneBlock (p : BlockPool) (h : BlockHash) : Option Nat :=
  (p.cachedBlockHashToBlock h).head?

/-- `BlockHashToBlockMap.contain`. -/
def contain (p : BlockPool) (h : BlockHash) (b : Nat) : Bool :=
  (p.cachedBlockHashToBlock h).contains b

/-- `BlockHashToBlockMap.insert`. -/
def insertCached (p : BlockPool) (h : BlockHash) (b : Nat) : BlockPool :=
  { p with
    cachedBlockHashToBlock := Function.update p.cachedBlockHashToBlock h
      (if (p.cachedBlockHashToBlock h).contains b then p.cachedBlockHashToBlock h
       else p.cachedBlockHashToBlock h ++ [b]) }

/-- `BlockHashToBlockMap.pop`. -/
def popCached (p : BlockPool) (h : BlockHash) (b : Nat) : BlockPool :=
  { p with
    cachedBlockHashToBlock := Function.update p.cachedBlockHashToBlock h
      ((p.cachedBlockHashToBlock h).erase b) }

/-- `_remove_cached_block_hashes`. -/
def removeCachedBlockHashes (p : BlockPool) (b : Nat) : BlockPool :=
  match (p.blocks b).blockHash with
  | none => p
  | some h =>
      (p.popCached h b).setBlock b
        { p.blocks b with blockHash := none, blockHashNumTokens := none }

/-- `_insert_block_hash` for a block that has no other hash. -/
def insertBlockHash (p : BlockPool) (h : BlockHash) (b numTokens : Nat) : BlockPool :=
  if (p.blocks b).blockHash = some h then p
  else if p.contain h b then p
  else
    (p.setBlock b { p.blocks b with
      blockHash := some h, blockHashNumTokens := some numTokens }).insertCached h b

/-! ### References -/

def getNumFreeBlocks (p : BlockPool) : Nat :=
  p.freeBlockQueue.length

def touchBlock (p : BlockPool) (b : Nat) : BlockPool :=
  let blk := p.blocks b
  let queue := if blk.refCnt = 0 ∧ blk.isNull = false then p.freeBlockQueue.erase b
    else p.freeBlockQueue
  { p.setBlock b { blk with refCnt := blk.refCnt + 1 } with freeBlockQueue := queue }

/-- Take one reference on each block; an unreferenced block leaves the free queue. -/
def touch (p : BlockPool) (bs : List Nat) : BlockPool :=
  bs.foldl touchBlock p

def decRef (p : BlockPool) (b : Nat) : BlockPool :=
  p.setBlock b { p.blocks b with refCnt := (p.blocks b).refCnt - 1 }

/-- The loop of `free_blocks`: drop one reference for each block, collecting those that reach zero,
apart by whether they have a hash. -/
def freeLoop (p : BlockPool) : List Nat → BlockPool × List Nat × List Nat
  | [] => (p, [], [])
  | b :: bs =>
      let p' := p.decRef b
      let blk := p'.blocks b
      let (q, withHash, withoutHash) := freeLoop p' bs
      if blk.refCnt = 0 ∧ blk.isNull = false then
        if blk.blockHash = none then (q, withHash, b :: withoutHash)
        else (q, b :: withHash, withoutHash)
      else (q, withHash, withoutHash)

/-- Blocks without a hash are put at the head of the queue, the others at its tail. -/
def freeBlocks (p : BlockPool) (orderedBlocks : List Nat) : BlockPool :=
  let (q, withHash, withoutHash) := p.freeLoop orderedBlocks
  { q with freeBlockQueue := withoutHash ++ q.freeBlockQueue ++ withHash }

/-- Evict a popped block and take the first reference on it. -/
def takeNewBlock (p : BlockPool) (b : Nat) : BlockPool :=
  let q := p.removeCachedBlockHashes b
  q.setBlock b { q.blocks b with refCnt := (q.blocks b).refCnt + 1 }

/-- Pop blocks from the head of the free queue. -/
def getNewBlocks (p : BlockPool) (numBlocks : Nat) : Except PyError (List Nat × BlockPool) :=
  if p.getNumFreeBlocks < numBlocks then
    .error (.valueError s!"Cannot get {numBlocks} free blocks from the pool")
  else
    let ret := p.freeBlockQueue.take numBlocks
    let popped := { p with freeBlockQueue := p.freeBlockQueue.drop numBlocks }
    if ret.any fun b => (p.blocks b).refCnt != 0 then .error .assertionError
    else .ok (ret, ret.foldl takeNewBlock popped)

/-! ### Registering full blocks -/

/-- One iteration of `cache_full_blocks`, for the block at index `i` of the request's table. -/
def cacheFullBlock (p : BlockPool) (blocks : List Nat) (blockHashes : List BlockHash)
    (blockSize i : Nat) : Except PyError BlockPool :=
  match blocks[i]?, blockHashes[i]? with
  | some b, some h =>
      if (p.blocks b).isNull then .ok p
      else
        let numHashTokens := (i + 1) * blockSize
        match (p.blocks b).blockHash with
        | none => .ok (p.insertBlockHash h b numHashTokens)
        | some _ =>
            -- only the promotion of a partial entry may meet a block that has a hash
            match (p.blocks b).blockHashNumTokens with
            | some n =>
                if n < numHashTokens then
                  .ok ((p.removeCachedBlockHashes b).insertBlockHash h b numHashTokens)
                else .error .assertionError
            | none => .error .assertionError
  | some b, none => if (p.blocks b).isNull then .ok p else .error .indexError
  | none, _ => .ok p

/-- Register the blocks at indices `numCachedBlocks .. numFullBlocks - 1` of a request's table. -/
def cacheFullBlocks (p : BlockPool) (blocks : List Nat) (blockHashes : List BlockHash)
    (numCachedBlocks numFullBlocks blockSize : Nat) : Except PyError BlockPool :=
  (List.range' numCachedBlocks (numFullBlocks - numCachedBlocks)).foldlM
    (fun q i => q.cacheFullBlock blocks blockHashes blockSize i) p

/-- Drop every hash, unless a block other than the null block is in use. -/
def resetPrefixCache (p : BlockPool) : Option BlockPool :=
  if p.numGpuBlocks - p.getNumFreeBlocks ≠ 1 then none
  else some { p with
    cachedBlockHashToBlock := fun _ => []
    blocks := fun b => { p.blocks b with blockHash := none, blockHashNumTokens := none } }

/-! ### The invariant -/

/-- The map and the blocks' own hashes agree. -/
structure CacheWF (p : BlockPool) : Prop where
  mem_cached : ∀ h b, b ∈ p.cachedBlockHashToBlock h ↔ (p.blocks b).blockHash = some h
  nodup_cached : ∀ h, (p.cachedBlockHashToBlock h).Nodup

/-- **The pool invariant.**  The queue holds exactly the unreferenced blocks, and only real blocks
have a hash. -/
structure WF (p : BlockPool) : Prop extends CacheWF p where
  nodup_queue : p.freeBlockQueue.Nodup
  mem_queue : ∀ b, b ∈ p.freeBlockQueue ↔ b < p.numGpuBlocks ∧ b ≠ 0 ∧ (p.blocks b).refCnt = 0
  isNull_iff : ∀ b, (p.blocks b).isNull = true ↔ b = 0
  refCnt_nonneg : ∀ b, b ≠ 0 → 0 ≤ (p.blocks b).refCnt
  hash_valid : ∀ b h, (p.blocks b).blockHash = some h → b < p.numGpuBlocks ∧ b ≠ 0

theorem WF.isNull_eq_false {p : BlockPool} (hp : p.WF) {b : Nat} (hb : b ≠ 0) :
    (p.blocks b).isNull = false := by
  cases h : (p.blocks b).isNull with
  | false => rfl
  | true => exact absurd ((hp.isNull_iff b).mp h) hb

theorem CacheWF.contain_iff {p : BlockPool} (hp : p.CacheWF) (h : BlockHash) (b : Nat) :
    p.contain h b = true ↔ (p.blocks b).blockHash = some h := by
  rw [contain, List.contains_iff_mem, hp.mem_cached]

theorem CacheWF.hash_of_getOneBlock {p : BlockPool} (hp : p.CacheWF) {h : BlockHash} {b : Nat}
    (hb : p.getOneBlock h = some b) : (p.blocks b).blockHash = some h := by
  rw [← hp.mem_cached]
  exact List.mem_of_mem_head? (by rw [← getOneBlock, hb]; exact rfl)

theorem init_wf {n : Nat} (hn : 0 < n) : (init n).WF where
  mem_cached := by intro h b; simp [init]
  nodup_cached := by intro h; simp [init]
  nodup_queue := (List.nodup_range (n := n)).tail
  mem_queue := by
    intro b
    obtain ⟨m, rfl⟩ : ∃ m, n = m + 1 := ⟨n - 1, by omega⟩
    simp only [init, List.range_succ_eq_map, List.tail_cons, List.mem_map, List.mem_range,
      and_true]
    constructor
    · rintro ⟨a, ha, rfl⟩
      exact ⟨by omega, by omega⟩
    · rintro ⟨hb, h0⟩
      exact ⟨b - 1, by omega, by omega⟩
  isNull_iff := by intro b; simp [init]
  refCnt_nonneg := by intro b _; simp [init]
  hash_valid := by intro b h hb; simp [init] at hb

@[simp] theorem setBlock_blocks_self (p : BlockPool) (b : Nat) (blk : KVCacheBlock) :
    (p.setBlock b blk).blocks b = blk := by
  simp [setBlock]

theorem setBlock_blocks_of_ne (p : BlockPool) {b b' : Nat} (blk : KVCacheBlock) (h : b' ≠ b) :
    (p.setBlock b blk).blocks b' = p.blocks b' := by
  simp [setBlock, Function.update_of_ne h]

@[simp] theorem setBlock_queue (p : BlockPool) (b : Nat) (blk : KVCacheBlock) :
    (p.setBlock b blk).freeBlockQueue = p.freeBlockQueue := rfl

@[simp] theorem setBlock_cached (p : BlockPool) (b : Nat) (blk : KVCacheBlock) :
    (p.setBlock b blk).cachedBlockHashToBlock = p.cachedBlockHashToBlock := rfl

@[simp] theorem setBlock_numGpuBlocks (p : BlockPool) (b : Nat) (blk : KVCacheBlock) :
    (p.setBlock b blk).numGpuBlocks = p.numGpuBlocks := rfl

/-- Changing a block but not its hash keeps the map right. -/
theorem CacheWF.of_blockHash_eq {p q : BlockPool} (hp : p.CacheWF)
    (hc : q.cachedBlockHashToBlock = p.cachedBlockHashToBlock)
    (hb : ∀ b, (q.blocks b).blockHash = (p.blocks b).blockHash) : q.CacheWF where
  mem_cached := by intro h b; rw [hc, hb]; exact hp.mem_cached h b
  nodup_cached := by intro h; rw [hc]; exact hp.nodup_cached h

/-! ### `touch` -/

theorem touchBlock_blocks (p : BlockPool) (b x : Nat) :
    (p.touchBlock b).blocks x
      = { p.blocks x with refCnt := (p.blocks x).refCnt + if x = b then 1 else 0 } := by
  by_cases hx : x = b
  · subst hx; simp [touchBlock, setBlock]
  · simp [touchBlock, setBlock, hx]

theorem touchBlock_wf {p : BlockPool} (hp : p.WF) {b : Nat} (hb : b ≠ 0) :
    (p.touchBlock b).WF := by
  have hnull := hp.isNull_eq_false hb
  have hq : (p.touchBlock b).freeBlockQueue
      = if (p.blocks b).refCnt = 0 then p.freeBlockQueue.erase b else p.freeBlockQueue := by
    simp [touchBlock, hnull]
  have hnn := hp.refCnt_nonneg b hb
  refine { toCacheWF := ?_, nodup_queue := ?_, mem_queue := ?_, isNull_iff := ?_,
           refCnt_nonneg := ?_, hash_valid := ?_ }
  · exact hp.toCacheWF.of_blockHash_eq rfl fun x => by rw [touchBlock_blocks]
  · rw [hq]
    split
    · exact hp.nodup_queue.erase b
    · exact hp.nodup_queue
  · intro x
    rw [hq, touchBlock_blocks]
    have hx := hp.mem_queue x
    change _ ↔ x < p.numGpuBlocks ∧ _
    split
    · rw [hp.nodup_queue.mem_erase_iff, hx]
      by_cases hxb : x = b
      · subst hxb; simp; omega
      · simp [hxb]
    · rw [hx]
      by_cases hxb : x = b
      · subst hxb; simp; omega
      · simp [hxb]
  · intro x; rw [touchBlock_blocks]; exact hp.isNull_iff x
  · intro x hx
    rw [touchBlock_blocks]
    have := hp.refCnt_nonneg x hx
    change 0 ≤ (p.blocks x).refCnt + _
    split <;> omega
  · intro x h hx; rw [touchBlock_blocks] at hx; exact hp.hash_valid x h hx

theorem touch_blocks (bs : List Nat) : ∀ (p : BlockPool) (x : Nat),
    (p.touch bs).blocks x
      = { p.blocks x with refCnt := (p.blocks x).refCnt + (bs.count x : Nat) } := by
  induction bs with
  | nil => intro p x; simp [touch]
  | cons b bs ih =>
      intro p x
      have h := ih (p.touchBlock b) x
      rw [touch, List.foldl_cons, ← touch, h, touchBlock_blocks, List.count_cons]
      by_cases hx : x = b
      · subst hx; simp; omega
      · have : ¬ b = x := fun he => hx he.symm
        simp [hx, this]

theorem touch_wf (bs : List Nat) : ∀ {p : BlockPool}, p.WF → (∀ b ∈ bs, b ≠ 0) →
    (p.touch bs).WF := by
  induction bs with
  | nil => intro p hp _; exact hp
  | cons b bs ih =>
      intro p hp hb
      exact ih (touchBlock_wf hp (hb b (by simp))) fun x hx => hb x (by simp [hx])

@[simp] theorem touch_cached (bs : List Nat) : ∀ p : BlockPool,
    (p.touch bs).cachedBlockHashToBlock = p.cachedBlockHashToBlock := by
  induction bs with
  | nil => intro _; rfl
  | cons b bs ih => intro p; exact ih (p.touchBlock b)

@[simp] theorem touch_numGpuBlocks (bs : List Nat) : ∀ p : BlockPool,
    (p.touch bs).numGpuBlocks = p.numGpuBlocks := by
  induction bs with
  | nil => intro _; rfl
  | cons b bs ih => intro p; exact ih (p.touchBlock b)

/-! ### `free_blocks` -/

theorem decRef_blocks (p : BlockPool) (b x : Nat) :
    (p.decRef b).blocks x
      = { p.blocks x with refCnt := (p.blocks x).refCnt - if x = b then 1 else 0 } := by
  by_cases hx : x = b
  · subst hx; simp [decRef, setBlock]
  · simp [decRef, setBlock, hx]

theorem freeLoop_cons (p : BlockPool) (b : Nat) (bs : List Nat) :
    p.freeLoop (b :: bs) =
      (((p.decRef b).freeLoop bs).1,
       (if ((p.decRef b).blocks b).refCnt = 0 ∧ ((p.decRef b).blocks b).isNull = false
            ∧ ((p.decRef b).blocks b).blockHash ≠ none
          then b :: ((p.decRef b).freeLoop bs).2.1 else ((p.decRef b).freeLoop bs).2.1),
       (if ((p.decRef b).blocks b).refCnt = 0 ∧ ((p.decRef b).blocks b).isNull = false
            ∧ ((p.decRef b).blocks b).blockHash = none
          then b :: ((p.decRef b).freeLoop bs).2.2 else ((p.decRef b).freeLoop bs).2.2)) := by
  rw [freeLoop]
  by_cases h0 : ((p.decRef b).blocks b).refCnt = 0 ∧ ((p.decRef b).blocks b).isNull = false
  · by_cases hh : ((p.decRef b).blocks b).blockHash = none <;> simp [h0, hh]
  · have h1 : ¬ (((p.decRef b).blocks b).refCnt = 0 ∧ ((p.decRef b).blocks b).isNull = false
        ∧ ((p.decRef b).blocks b).blockHash ≠ none) := fun h => h0 ⟨h.1, h.2.1⟩
    have h2 : ¬ (((p.decRef b).blocks b).refCnt = 0 ∧ ((p.decRef b).blocks b).isNull = false
        ∧ ((p.decRef b).blocks b).blockHash = none) := fun h => h0 ⟨h.1, h.2.1⟩
    rw [if_neg h1, if_neg h2]
    simp only [if_neg h0]

theorem freeLoop_blocks (bs : List Nat) : ∀ (p : BlockPool) (x : Nat),
    (p.freeLoop bs).1.blocks x
      = { p.blocks x with refCnt := (p.blocks x).refCnt - (bs.count x : Nat) } := by
  induction bs with
  | nil => intro p x; simp [freeLoop]
  | cons b bs ih =>
      intro p x
      rw [freeLoop_cons]
      change ((p.decRef b).freeLoop bs).1.blocks x = _
      rw [ih, decRef_blocks, List.count_cons]
      by_cases hx : x = b
      · subst hx; simp; omega
      · have : ¬ b = x := fun he => hx he.symm
        simp [hx, this]

theorem freeLoop_frame (bs : List Nat) : ∀ p : BlockPool,
    (p.freeLoop bs).1.freeBlockQueue = p.freeBlockQueue ∧
    (p.freeLoop bs).1.cachedBlockHashToBlock = p.cachedBlockHashToBlock ∧
    (p.freeLoop bs).1.numGpuBlocks = p.numGpuBlocks := by
  induction bs with
  | nil => intro p; exact ⟨rfl, rfl, rfl⟩
  | cons b bs ih =>
      intro p
      rw [freeLoop_cons]
      exact ih (p.decRef b)

/-- The blocks collected by the loop are those whose last reference it drops. -/
theorem freeLoop_collected (bs : List Nat) : ∀ p : BlockPool,
    (∀ b ∈ bs, (p.blocks b).isNull = false) →
    (∀ b ∈ bs, (bs.count b : Int) ≤ (p.blocks b).refCnt) →
    ((p.freeLoop bs).2.2 ++ (p.freeLoop bs).2.1).Nodup ∧
    ∀ b, b ∈ (p.freeLoop bs).2.2 ++ (p.freeLoop bs).2.1 ↔
      b ∈ bs ∧ (p.blocks b).refCnt = (bs.count b : Nat) := by
  induction bs with
  | nil => intro p _ _; simp [freeLoop]
  | cons b bs ih =>
      intro p hnull hcnt
      have hnull' : ∀ x ∈ bs, ((p.decRef b).blocks x).isNull = false := by
        intro x hx
        rw [decRef_blocks]
        exact hnull x (by simp [hx])
      have hcnt' : ∀ x ∈ bs, (bs.count x : Int) ≤ ((p.decRef b).blocks x).refCnt := by
        intro x hx
        have h := hcnt x (by simp [hx])
        rw [List.count_cons] at h
        rw [decRef_blocks]
        change _ ≤ (p.blocks x).refCnt - _
        by_cases hxb : x = b
        · subst hxb; simp at h ⊢; omega
        · have : ¬ b = x := fun he => hxb he.symm
          simp [hxb, this] at h ⊢; omega
      obtain ⟨hnd, hmem⟩ := ih (p.decRef b) hnull' hcnt'
      have hb := hcnt b (by simp)
      have hbn := hnull b (by simp)
      rw [List.count_cons_self] at hb
      have href : ((p.decRef b).blocks b).refCnt = (p.blocks b).refCnt - 1 := by
        rw [decRef_blocks]; simp
      have hisn : ((p.decRef b).blocks b).isNull = false := by
        rw [decRef_blocks]; exact hbn
      -- the members, once the head's own fate is known
      have hother : ∀ x, x ≠ b →
          ((x ∈ bs ∧ ((p.decRef b).blocks x).refCnt = (bs.count x : Nat)) ↔
            (x ∈ b :: bs ∧ (p.blocks x).refCnt = ((b :: bs).count x : Nat))) := by
        intro x hx
        have hbx : ¬ b = x := fun he => hx he.symm
        rw [decRef_blocks, List.count_cons]
        simp [hx, hbx]
      by_cases h0 : (p.blocks b).refCnt = 1
      · have hc0 : bs.count b = 0 := by omega
        have hnb : b ∉ ((p.decRef b).freeLoop bs).2.2 ++ ((p.decRef b).freeLoop bs).2.1 := by
          rw [hmem]
          intro h
          exact List.count_eq_zero.mp hc0 h.1
        have hself : b ∈ b :: bs ∧ (p.blocks b).refCnt = ((b :: bs).count b : Nat) := by
          refine ⟨by simp, ?_⟩
          rw [List.count_cons_self, hc0, h0]; rfl
        rw [freeLoop_cons]
        by_cases hh : ((p.decRef b).blocks b).blockHash = none
        · have hcond : ((p.decRef b).blocks b).refCnt = 0 := by omega
          simp only [hcond, hisn, hh, ne_eq, not_true_eq_false, and_false, if_false, and_self,
            if_true, List.cons_append]
          refine ⟨List.nodup_cons.mpr ⟨hnb, hnd⟩, ?_⟩
          intro x
          by_cases hx : x = b
          · subst hx; simpa using hself
          · rw [List.mem_cons, or_iff_right hx, hmem, hother x hx]
        · have hcond : ((p.decRef b).blocks b).refCnt = 0 := by omega
          simp only [hcond, hisn, hh, ne_eq, not_false_eq_true, and_self, if_true, and_false,
            if_false]
          refine ⟨List.nodup_middle.mpr (List.nodup_cons.mpr ⟨hnb, hnd⟩), ?_⟩
          intro x
          by_cases hx : x = b
          · subst hx; simpa using hself
          · rw [List.mem_append, List.mem_cons, or_iff_right (a := x = b) hx, ← List.mem_append,
              hmem, hother x hx]
      · have hcond : ((p.decRef b).blocks b).refCnt ≠ 0 := by omega
        rw [freeLoop_cons]
        simp only [hcond, false_and, if_false]
        refine ⟨hnd, ?_⟩
        intro x
        by_cases hx : x = b
        · subst hx
          rw [hmem, href, List.count_cons_self]
          constructor
          · rintro ⟨_, h⟩; exact ⟨by simp, by omega⟩
          · rintro ⟨_, h⟩
            have : 0 < bs.count x := by omega
            exact ⟨List.count_pos_iff.mp this, by omega⟩
        · rw [hmem, hother x hx]

theorem freeBlocks_blocks (p : BlockPool) (bs : List Nat) (x : Nat) :
    (p.freeBlocks bs).blocks x
      = { p.blocks x with refCnt := (p.blocks x).refCnt - (bs.count x : Nat) } :=
  freeLoop_blocks bs p x

@[simp] theorem freeBlocks_cached (p : BlockPool) (bs : List Nat) :
    (p.freeBlocks bs).cachedBlockHashToBlock = p.cachedBlockHashToBlock :=
  (freeLoop_frame bs p).2.1

@[simp] theorem freeBlocks_numGpuBlocks (p : BlockPool) (bs : List Nat) :
    (p.freeBlocks bs).numGpuBlocks = p.numGpuBlocks :=
  (freeLoop_frame bs p).2.2

theorem freeBlocks_queue (p : BlockPool) (bs : List Nat) :
    (p.freeBlocks bs).freeBlockQueue
      = (p.freeLoop bs).2.2 ++ p.freeBlockQueue ++ (p.freeLoop bs).2.1 := by
  rw [← (freeLoop_frame bs p).1]; rfl

@[simp] theorem freeBlocks_nil (p : BlockPool) : p.freeBlocks [] = p := by
  simp [freeBlocks, freeLoop]

/-- Freeing references that are held keeps the invariant. -/
theorem freeBlocks_wf {p : BlockPool} (hp : p.WF) {bs : List Nat}
    (hbs : ∀ b ∈ bs, b < p.numGpuBlocks ∧ b ≠ 0)
    (hcnt : ∀ b ∈ bs, (bs.count b : Int) ≤ (p.blocks b).refCnt) : (p.freeBlocks bs).WF := by
  obtain ⟨hnd, hmem⟩ := freeLoop_collected bs p
    (fun b hb => hp.isNull_eq_false (hbs b hb).2) hcnt
  have hperm : (p.freeBlocks bs).freeBlockQueue.Perm
      (((p.freeLoop bs).2.2 ++ (p.freeLoop bs).2.1) ++ p.freeBlockQueue) := by
    rw [freeBlocks_queue, List.append_assoc, List.append_assoc]
    exact List.Perm.append_left _ List.perm_append_comm
  have hdisj : ∀ b, b ∈ (p.freeLoop bs).2.2 ++ (p.freeLoop bs).2.1 → b ∉ p.freeBlockQueue := by
    intro b hb hq
    have h1 := (hmem b).mp hb
    have h2 := (hp.mem_queue b).mp hq
    have := List.count_pos_iff.mpr h1.1
    omega
  refine { toCacheWF := ?_, nodup_queue := ?_, mem_queue := ?_, isNull_iff := ?_,
           refCnt_nonneg := ?_, hash_valid := ?_ }
  · exact hp.toCacheWF.of_blockHash_eq (freeBlocks_cached p bs) fun x => by
      rw [freeBlocks_blocks]
  · refine hperm.nodup_iff.mpr ?_
    rw [List.nodup_append]
    refine ⟨hnd, hp.nodup_queue, ?_⟩
    intro a ha b hb hab
    exact hdisj a ha (hab ▸ hb)
  · intro b
    rw [hperm.mem_iff, List.mem_append, hmem, hp.mem_queue, freeBlocks_blocks,
      freeBlocks_numGpuBlocks]
    change _ ↔ _ ∧ _ ∧ (p.blocks b).refCnt - _ = 0
    by_cases hb : b ∈ bs
    · have h1 := hcnt b hb
      have h2 := hbs b hb
      have h3 := List.count_pos_iff.mpr hb
      constructor
      · rintro (⟨_, h⟩ | ⟨_, _, h⟩)
        · exact ⟨h2.1, h2.2, by omega⟩
        · omega
      · rintro ⟨_, _, h⟩
        exact Or.inl ⟨hb, by omega⟩
    · have h0 : bs.count b = 0 := List.count_eq_zero.mpr hb
      simp [hb, h0]
  · intro b; rw [freeBlocks_blocks]; exact hp.isNull_iff b
  · intro b hb
    rw [freeBlocks_blocks]
    change 0 ≤ (p.blocks b).refCnt - _
    by_cases hin : b ∈ bs
    · have := hcnt b hin; omega
    · have h0 : bs.count b = 0 := List.count_eq_zero.mpr hin
      have := hp.refCnt_nonneg b hb
      rw [h0]; omega
  · intro b h hb; rw [freeBlocks_blocks] at hb; rw [freeBlocks_numGpuBlocks]
    exact hp.hash_valid b h hb

/-! ### `get_new_blocks` -/

theorem removeCachedBlockHashes_blocks (p : BlockPool) (b x : Nat) :
    (p.removeCachedBlockHashes b).blocks x
      = if x = b ∧ (p.blocks b).blockHash ≠ none
        then { p.blocks x with blockHash := none, blockHashNumTokens := none }
        else p.blocks x := by
  rw [removeCachedBlockHashes]
  cases hh : (p.blocks b).blockHash with
  | none => simp
  | some h =>
      by_cases hx : x = b
      · subst hx; simp
      · rw [setBlock_blocks_of_ne _ _ hx]; simp [hx, popCached]

@[simp] theorem removeCachedBlockHashes_queue (p : BlockPool) (b : Nat) :
    (p.removeCachedBlockHashes b).freeBlockQueue = p.freeBlockQueue := by
  rw [removeCachedBlockHashes]; split <;> rfl

@[simp] theorem removeCachedBlockHashes_numGpuBlocks (p : BlockPool) (b : Nat) :
    (p.removeCachedBlockHashes b).numGpuBlocks = p.numGpuBlocks := by
  rw [removeCachedBlockHashes]; split <;> rfl

theorem removeCachedBlockHashes_cacheWF {p : BlockPool} (hp : p.CacheWF) (b : Nat) :
    (p.removeCachedBlockHashes b).CacheWF := by
  cases hh : (p.blocks b).blockHash with
  | none => rw [removeCachedBlockHashes, hh]; exact hp
  | some h =>
      have hc : (p.removeCachedBlockHashes b).cachedBlockHashToBlock
          = Function.update p.cachedBlockHashToBlock h ((p.cachedBlockHashToBlock h).erase b) := by
        rw [removeCachedBlockHashes, hh]; rfl
      refine ⟨?_, ?_⟩
      · intro h' x
        rw [hc, removeCachedBlockHashes_blocks, hh]
        by_cases hhh : h' = h
        · subst hhh
          rw [Function.update_self, (hp.nodup_cached h').mem_erase_iff, hp.mem_cached]
          by_cases hx : x = b <;> simp [hx]
        · rw [Function.update_of_ne hhh, hp.mem_cached]
          by_cases hx : x = b
          · subst hx; simp [hh, Ne.symm hhh]
          · simp [hx]
      · intro h'
        rw [hc]
        by_cases hhh : h' = h
        · subst hhh; rw [Function.update_self]; exact (hp.nodup_cached h').erase b
        · rw [Function.update_of_ne hhh]; exact hp.nodup_cached h'

theorem takeNewBlock_blocks (p : BlockPool) (b x : Nat) :
    ((p.takeNewBlock b).blocks x).refCnt = (p.blocks x).refCnt + (if x = b then 1 else 0) ∧
    ((p.takeNewBlock b).blocks x).blockHash
      = (if x = b then none else (p.blocks x).blockHash) ∧
    ((p.takeNewBlock b).blocks x).isNull = (p.blocks x).isNull := by
  rw [takeNewBlock]
  by_cases hx : x = b
  · subst hx
    rw [setBlock_blocks_self, removeCachedBlockHashes_blocks]
    cases hh : (p.blocks x).blockHash <;> simp [hh]
  · rw [setBlock_blocks_of_ne _ _ hx, removeCachedBlockHashes_blocks]
    simp [hx]

theorem takeNewBlock_cacheWF {p : BlockPool} (hp : p.CacheWF) (b : Nat) :
    (p.takeNewBlock b).CacheWF := by
  refine (removeCachedBlockHashes_cacheWF hp b).of_blockHash_eq rfl fun x => ?_
  by_cases hx : x = b
  · subst hx; rw [takeNewBlock, setBlock_blocks_self]
  · rw [takeNewBlock, setBlock_blocks_of_ne _ _ hx]

theorem takeNewBlocks_frame (bs : List Nat) : ∀ p : BlockPool,
    (bs.foldl takeNewBlock p).freeBlockQueue = p.freeBlockQueue ∧
    (bs.foldl takeNewBlock p).numGpuBlocks = p.numGpuBlocks := by
  induction bs with
  | nil => intro p; exact ⟨rfl, rfl⟩
  | cons b bs ih =>
      intro p
      obtain ⟨h1, h2⟩ := ih (p.takeNewBlock b)
      refine ⟨?_, ?_⟩
      · rw [List.foldl_cons, h1]; simp [takeNewBlock]
      · rw [List.foldl_cons, h2]; simp [takeNewBlock]

theorem takeNewBlocks_cacheWF (bs : List Nat) : ∀ {p : BlockPool}, p.CacheWF →
    (bs.foldl takeNewBlock p).CacheWF := by
  induction bs with
  | nil => intro p hp; exact hp
  | cons b bs ih => intro p hp; exact ih (takeNewBlock_cacheWF hp b)

theorem takeNewBlocks_blocks (bs : List Nat) : ∀ (p : BlockPool) (x : Nat),
    ((bs.foldl takeNewBlock p).blocks x).refCnt = (p.blocks x).refCnt + (bs.count x : Nat) ∧
    ((bs.foldl takeNewBlock p).blocks x).blockHash
      = (if x ∈ bs then none else (p.blocks x).blockHash) ∧
    ((bs.foldl takeNewBlock p).blocks x).isNull = (p.blocks x).isNull := by
  induction bs with
  | nil => intro p x; simp
  | cons b bs ih =>
      intro p x
      obtain ⟨h1, h2, h3⟩ := ih (p.takeNewBlock b) x
      obtain ⟨g1, g2, g3⟩ := takeNewBlock_blocks p b x
      rw [List.foldl_cons, h1, h2, h3, g1, g2, g3, List.count_cons]
      refine ⟨?_, ?_, rfl⟩
      · by_cases hx : x = b
        · subst hx; simp; omega
        · have : ¬ b = x := fun he => hx he.symm
          simp [hx, this]
      · by_cases hx : x = b
        · subst hx; simp
        · simp [hx]

/-- What a successful `get_new_blocks` returns: the head of the queue, every block with one
reference and no hash. -/
structure NewBlocks (p : BlockPool) (n : Nat) (ret : List Nat) (q : BlockPool) : Prop where
  ret_eq : ret = p.freeBlockQueue.take n
  length_ret : ret.length = n
  nodup_ret : ret.Nodup
  mem_free : ∀ b ∈ ret, b ∈ p.freeBlockQueue
  queue_eq : q.freeBlockQueue = p.freeBlockQueue.drop n
  numGpuBlocks_eq : q.numGpuBlocks = p.numGpuBlocks
  refCnt_eq : ∀ b, (q.blocks b).refCnt = (p.blocks b).refCnt + (ret.count b : Nat)
  blockHash_eq : ∀ b, (q.blocks b).blockHash = if b ∈ ret then none else (p.blocks b).blockHash
  wf : q.WF

theorem getNewBlocks_spec {p : BlockPool} (hp : p.WF) {n : Nat} (hn : n ≤ p.getNumFreeBlocks) :
    ∃ ret q, p.getNewBlocks n = .ok (ret, q) ∧ NewBlocks p n ret q := by
  let ret := p.freeBlockQueue.take n
  let popped : BlockPool := { p with freeBlockQueue := p.freeBlockQueue.drop n }
  have hmemfree : ∀ b ∈ ret, b ∈ p.freeBlockQueue := fun b hb => List.mem_of_mem_take hb
  have hzero : (ret.any fun b => (p.blocks b).refCnt != 0) = false := by
    rw [List.any_eq_false]
    intro b hb
    have := ((hp.mem_queue b).mp (hmemfree b hb)).2.2
    simp [this]
  have hnd : ret.Nodup := hp.nodup_queue.take
  have hdisj : ∀ b ∈ ret, b ∉ p.freeBlockQueue.drop n := by
    have h := hp.nodup_queue
    rw [← List.take_append_drop n p.freeBlockQueue, List.nodup_append] at h
    intro b hb hd
    exact h.2.2 b hb b hd rfl
  have hblk := takeNewBlocks_blocks ret popped
  obtain ⟨hq, hN⟩ := takeNewBlocks_frame ret popped
  refine ⟨ret, ret.foldl takeNewBlock popped, ?_, ?_⟩
  · have : ¬ p.getNumFreeBlocks < n := by omega
    simp only [getNewBlocks, this, if_false]
    rw [if_neg]
    rw [hzero]; simp
  · refine { ret_eq := rfl, length_ret := ?_, nodup_ret := hnd, mem_free := hmemfree,
             queue_eq := hq, numGpuBlocks_eq := hN, refCnt_eq := fun b => (hblk b).1,
             blockHash_eq := fun b => (hblk b).2.1, wf := ?_ }
    · simp only [ret, List.length_take]
      rw [getNumFreeBlocks] at hn
      omega
    · refine { toCacheWF := takeNewBlocks_cacheWF ret ⟨hp.mem_cached, hp.nodup_cached⟩,
               nodup_queue := ?_, mem_queue := ?_, isNull_iff := ?_,
               refCnt_nonneg := ?_, hash_valid := ?_ }
      · rw [hq]; exact hp.nodup_queue.drop
      · intro b
        rw [hq, hN, (hblk b).1]
        change b ∈ p.freeBlockQueue.drop n ↔ b < p.numGpuBlocks ∧ b ≠ 0 ∧ (p.blocks b).refCnt + _ = 0
        have hb := hp.mem_queue b
        rw [← List.take_append_drop n p.freeBlockQueue, List.mem_append] at hb
        change b ∈ ret ∨ _ ↔ _ at hb
        by_cases hin : b ∈ ret
        · have h1 := List.count_pos_iff.mpr hin
          have h2 := hb.mp (Or.inl hin)
          constructor
          · intro hd; exact absurd hd (hdisj b hin)
          · rintro ⟨_, _, h⟩; omega
        · have h0 : ret.count b = 0 := List.count_eq_zero.mpr hin
          rw [or_iff_right hin] at hb
          rw [hb, h0]; simp
      · intro b; rw [(hblk b).2.2]; exact hp.isNull_iff b
      · intro b hb
        rw [(hblk b).1]
        have := hp.refCnt_nonneg b hb
        change 0 ≤ (p.blocks b).refCnt + _
        omega
      · intro b h hb
        rw [(hblk b).2.1] at hb
        rw [hN]
        split at hb
        · cases hb
        · exact hp.hash_valid b h hb

/-! ### `cache_full_blocks` -/

theorem insertBlockHash_of_none {p : BlockPool} (hp : p.CacheWF) {b : Nat} (h : BlockHash)
    (n : Nat) (hb : (p.blocks b).blockHash = none) :
    p.insertBlockHash h b n =
      { p with
        blocks := Function.update p.blocks b
          { p.blocks b with blockHash := some h, blockHashNumTokens := some n }
        cachedBlockHashToBlock := Function.update p.cachedBlockHashToBlock h
          (p.cachedBlockHashToBlock h ++ [b]) } := by
  have hnc : b ∉ p.cachedBlockHashToBlock h := by
    rw [hp.mem_cached, hb]; exact nofun
  have hc : (p.cachedBlockHashToBlock h).contains b = false := by
    rw [← Bool.not_eq_true, List.contains_iff_mem]; exact hnc
  have hcon : p.contain h b = false := hc
  simp only [insertBlockHash, hb, reduceCtorEq, if_false, hcon, Bool.false_eq_true, insertCached,
    setBlock_cached, hc]
  rfl

theorem insertBlockHash_wf {p : BlockPool} (hp : p.WF) {b : Nat} (h : BlockHash) (n : Nat)
    (hb : (p.blocks b).blockHash = none) (hv : b < p.numGpuBlocks ∧ b ≠ 0) :
    (p.insertBlockHash h b n).WF := by
  rw [insertBlockHash_of_none hp.toCacheWF h n hb]
  have hblk : ∀ x, Function.update p.blocks b
      { p.blocks b with blockHash := some h, blockHashNumTokens := some n } x
      = if x = b then { p.blocks b with blockHash := some h, blockHashNumTokens := some n }
        else p.blocks x := by
    intro x; rw [Function.update_apply]
  refine { mem_cached := ?_, nodup_cached := ?_, nodup_queue := hp.nodup_queue, mem_queue := ?_,
           isNull_iff := ?_, refCnt_nonneg := ?_, hash_valid := ?_ }
  · intro h' x
    simp only [hblk, Function.update_apply]
    by_cases hh : h' = h
    · subst hh
      by_cases hx : x = b
      · subst hx; simp
      · simp [hx, hp.mem_cached]
    · by_cases hx : x = b
      · subst hx; simp [hh, hp.mem_cached, hb, Ne.symm hh]
      · simp [hh, hx, hp.mem_cached]
  · intro h'
    simp only [Function.update_apply]
    split
    · rename_i hh
      subst hh
      refine List.nodup_append.mpr ⟨hp.nodup_cached h', by simp, ?_⟩
      intro x hx y hy hxy
      rw [List.mem_singleton.mp hy] at hxy
      rw [hxy, hp.mem_cached, hb] at hx
      cases hx
    · exact hp.nodup_cached h'
  · intro x
    simp only [hblk]
    rw [hp.mem_queue]
    by_cases hx : x = b <;> simp [hx]
  · intro x
    simp only [hblk]
    rw [← hp.isNull_iff]
    by_cases hx : x = b <;> simp [hx]
  · intro x hx0
    simp only [hblk]
    by_cases hx : x = b
    · subst hx; simpa using hp.refCnt_nonneg x hx0
    · simpa [hx] using hp.refCnt_nonneg x hx0
  · intro x h' hx
    simp only [hblk] at hx
    by_cases hxb : x = b
    · subst hxb; exact hv
    · rw [if_neg hxb] at hx; exact hp.hash_valid x h' hx

/-- What registering the blocks at indices `lo .. hi - 1` of a table changes: those blocks get the
request's hash of their index, and nothing else moves. -/
structure Cached (p : BlockPool) (table : List Nat) (hashes : List BlockHash) (lo hi : Nat)
    (q : BlockPool) : Prop where
  wf : q.WF
  queue_eq : q.freeBlockQueue = p.freeBlockQueue
  numGpuBlocks_eq : q.numGpuBlocks = p.numGpuBlocks
  refCnt_eq : ∀ b, (q.blocks b).refCnt = (p.blocks b).refCnt
  hash_new : ∀ i b, lo ≤ i → i < hi → table[i]? = some b → (q.blocks b).blockHash = hashes[i]?
  hash_old : ∀ b, (∀ i, lo ≤ i → i < hi → table[i]? ≠ some b) →
    (q.blocks b).blockHash = (p.blocks b).blockHash

theorem cacheFullBlocks_spec {table : List Nat} {hashes : List BlockHash} (bs : Nat)
    (hnd : table.Nodup) :
    ∀ (n lo : Nat) {p : BlockPool}, p.WF →
      (∀ b ∈ table, b < p.numGpuBlocks ∧ b ≠ 0) →
      lo + n ≤ table.length → lo + n ≤ hashes.length →
      (∀ i b, lo ≤ i → i < lo + n → table[i]? = some b → (p.blocks b).blockHash = none) →
      ∃ q, (List.range' lo n).foldlM (fun q i => q.cacheFullBlock table hashes bs i) p = .ok q ∧
        Cached p table hashes lo (lo + n) q := by
  intro n
  induction n with
  | zero =>
      intro lo p hp _ _ _ _
      refine ⟨p, rfl, ⟨hp, rfl, rfl, fun _ => rfl, ?_, fun _ _ => rfl⟩⟩
      intro i b h1 h2; omega
  | succ n ih =>
      intro lo p hp hv ht hl hnone
      obtain ⟨b, hb⟩ : ∃ b, table[lo]? = some b :=
        ⟨table.get ⟨lo, by omega⟩, List.getElem?_eq_getElem (by omega)⟩
      obtain ⟨h, hh⟩ : ∃ h, hashes[lo]? = some h :=
        ⟨hashes.get ⟨lo, by omega⟩, List.getElem?_eq_getElem (by omega)⟩
      have hbmem : b ∈ table := List.mem_of_getElem? hb
      have hbv := hv b hbmem
      have hbnone := hnone lo b (Nat.le_refl _) (by omega) hb
      have hstep : p.cacheFullBlock table hashes bs lo
          = .ok (p.insertBlockHash h b ((lo + 1) * bs)) := by
        simp only [cacheFullBlock, hb, hh, hp.isNull_eq_false hbv.2, hbnone, Bool.false_eq_true,
          if_false]
      have hwf := insertBlockHash_wf hp h ((lo + 1) * bs) hbnone hbv
      have hins := insertBlockHash_of_none hp.toCacheWF h ((lo + 1) * bs) hbnone
      have hself : ((p.insertBlockHash h b ((lo + 1) * bs)).blocks b).blockHash = some h := by
        rw [hins]; simp
      have hother : ∀ x, x ≠ b →
          (p.insertBlockHash h b ((lo + 1) * bs)).blocks x = p.blocks x := by
        intro x hx; rw [hins]; simp [hx]
      have hidx : ∀ i x, lo + 1 ≤ i → table[i]? = some x → x ≠ b := by
        intro i x hi hx hxb
        subst hxb
        have := (List.getElem?_inj (i := i) (j := lo)
          (by have := (List.getElem?_eq_some_iff.mp hx).1; omega) hnd).mp (hx.trans hb.symm)
        omega
      obtain ⟨q, hq, hc⟩ := ih (lo + 1) hwf (by rw [hins]; exact hv) (by omega) (by omega) (by
        intro i x h1 h2 hx
        rw [hother x (hidx i x h1 hx)]
        exact hnone i x (by omega) (by omega) hx)
      refine ⟨q, ?_, ?_⟩
      · rw [List.range'_succ, List.foldlM_cons, hstep]
        exact hq
      · refine ⟨hc.wf, ?_, ?_, ?_, ?_, ?_⟩
        · rw [hc.queue_eq, hins]
        · rw [hc.numGpuBlocks_eq, hins]
        · intro x
          rw [hc.refCnt_eq]
          by_cases hx : x = b
          · subst hx; rw [hins]; simp
          · rw [hother x hx]
        · intro i x h1 h2 hx
          by_cases hi : i = lo
          · subst hi
            rw [hb, Option.some.injEq] at hx
            subst hx
            rw [hc.hash_old b (fun j h3 _ hj => hidx j b (by omega) hj rfl), hself, hh]
          · exact hc.hash_new i x (by omega) (by omega) hx
        · intro x hx
          have hxb : x ≠ b := fun he => hx lo (Nat.le_refl _) (by omega) (he ▸ hb)
          rw [hc.hash_old x (fun i h1 h2 => hx i (by omega) (by omega)), hother x hxb]

/-- **Registering private blocks succeeds** and gives each its hash. -/
theorem cacheFullBlocks_ok {p : BlockPool} (hp : p.WF) (table : List Nat)
    (hashes : List BlockHash) (bs : Nat) {lo hi : Nat} (hnd : table.Nodup)
    (hv : ∀ b ∈ table, b < p.numGpuBlocks ∧ b ≠ 0) (hle : lo ≤ hi) (ht : hi ≤ table.length)
    (hl : hi ≤ hashes.length)
    (hnone : ∀ i b, lo ≤ i → i < hi → table[i]? = some b → (p.blocks b).blockHash = none) :
    ∃ q, p.cacheFullBlocks table hashes lo hi bs = .ok q ∧ Cached p table hashes lo hi q := by
  obtain ⟨m, rfl⟩ : ∃ m, hi = lo + m := ⟨hi - lo, by omega⟩
  have := cacheFullBlocks_spec bs hnd m lo hp hv ht hl hnone
  rwa [cacheFullBlocks, Nat.add_sub_cancel_left]

/-! ### `reset_prefix_cache` -/

theorem resetPrefixCache_wf {p q : BlockPool} (hp : p.WF) (h : p.resetPrefixCache = some q) :
    q.WF := by
  rw [resetPrefixCache] at h
  split at h
  · cases h
  · cases h
    exact { mem_cached := by intro h b; simp
            nodup_cached := by intro h; simp
            nodup_queue := hp.nodup_queue
            mem_queue := hp.mem_queue
            isNull_iff := hp.isNull_iff
            refCnt_nonneg := hp.refCnt_nonneg
            hash_valid := by intro b h hb; simp at hb }

end BlockPool

end CacheSelect.Core

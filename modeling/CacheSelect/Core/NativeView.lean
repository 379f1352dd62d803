import CacheSelect.Core.Retention

/-! # The native view of the manager

`BlockPool.unpin` takes the references of pinned sources out of the counts, and
`KVCacheManager.native` also forgets the index of sources.  A block that only pins hold would look
free in the view and not be in the queue, so every result asks that the pinned blocks are in use
besides their pins (`BlockPool.Shared`).  Under that condition each operation of the pool and of the
manager does in the view what it does in the state itself: the lemmas are named after the operation
(`touch_unpin`, `freeBlocks_unpin`, `allocateSlots_native`, ...).

Pinning blocks that are in use, and releasing them, is not visible in the view at all
(`unpin_touch`, `unpin_freeBlocks`).
-/

namespace CacheSelect.Core

namespace BlockPool

/-- The pool without the references of the pins. -/
def unpin (p : BlockPool) (pins : List Nat) : BlockPool :=
  { p with blocks := fun b =>
      { p.blocks b with refCnt := (p.blocks b).refCnt - (pins.count b : Nat) } }

/-- Every pinned block is in use besides its pins. -/
def Shared (p : BlockPool) (pins : List Nat) : Prop :=
  ∀ b ∈ pins, ((pins.count b : Nat) : Int) < (p.blocks b).refCnt

variable {p q : BlockPool} {pins : List Nat}

theorem unpin_blocks (p : BlockPool) (pins : List Nat) (b : Nat) :
    (p.unpin pins).blocks b
      = { p.blocks b with refCnt := (p.blocks b).refCnt - (pins.count b : Nat) } := rfl

theorem unpin_refCnt (p : BlockPool) (pins : List Nat) (b : Nat) :
    ((p.unpin pins).blocks b).refCnt = (p.blocks b).refCnt - (pins.count b : Nat) := rfl

@[simp] theorem unpin_blockHash (p : BlockPool) (pins : List Nat) (b : Nat) :
    ((p.unpin pins).blocks b).blockHash = (p.blocks b).blockHash := rfl

@[simp] theorem unpin_isNull (p : BlockPool) (pins : List Nat) (b : Nat) :
    ((p.unpin pins).blocks b).isNull = (p.blocks b).isNull := rfl

@[simp] theorem unpin_queue (p : BlockPool) (pins : List Nat) :
    (p.unpin pins).freeBlockQueue = p.freeBlockQueue := rfl

/-- The order of the pins does not matter. -/
theorem unpin_perm {pins' : List Nat} (h : pins.Perm pins') : p.unpin pins = p.unpin pins' := by
  rw [unpin, unpin]
  simp only [h.count_eq]

theorem Shared.perm {pins' : List Nat} (h : p.Shared pins) (hp : pins.Perm pins') :
    p.Shared pins' := by
  intro b hb
  rw [← hp.count_eq]
  exact h b (hp.mem_iff.mpr hb)

theorem Shared.nil (p : BlockPool) : p.Shared [] :=
  nofun

theorem Shared.mono (h : p.Shared pins) (hle : ∀ b, (p.blocks b).refCnt ≤ (q.blocks b).refCnt) :
    q.Shared pins :=
  fun b hb => lt_of_lt_of_le (h b hb) (hle b)

/-- A block looks free in the view when it is free. -/
theorem Shared.refCnt_eq_zero_iff (h : p.Shared pins) (b : Nat) :
    ((p.unpin pins).blocks b).refCnt = 0 ↔ (p.blocks b).refCnt = 0 := by
  rw [unpin_refCnt]
  by_cases hb : b ∈ pins
  · have := h b hb
    omega
  · rw [List.count_eq_zero.mpr hb]
    omega

/-- Two pools are the same when their parts are. -/
theorem eq_of_parts (hN : p.numGpuBlocks = q.numGpuBlocks) (hb : ∀ b, p.blocks b = q.blocks b)
    (hq : p.freeBlockQueue = q.freeBlockQueue)
    (hc : p.cachedBlockHashToBlock = q.cachedBlockHashToBlock) : p = q := by
  cases p
  cases q
  obtain rfl := hN
  obtain rfl := funext hb
  obtain rfl := hq
  obtain rfl := hc
  rfl

/-- Writing a block commutes with the view, when the written block does. -/
theorem setBlock_unpin (p : BlockPool) (pins : List Nat) (b : Nat) (blk : KVCacheBlock) :
    (p.setBlock b blk).unpin pins
      = (p.unpin pins).setBlock b { blk with refCnt := blk.refCnt - (pins.count b : Nat) } := by
  refine eq_of_parts rfl (fun x => ?_) rfl rfl
  by_cases hx : x = b
  · subst hx
    simp [unpin, setBlock]
  · simp [unpin, setBlock, hx]

/-! ### References -/

theorem touchBlock_unpin (h : p.Shared pins) (b : Nat) :
    (p.unpin pins).touchBlock b = (p.touchBlock b).unpin pins := by
  have h0 := h.refCnt_eq_zero_iff b
  refine eq_of_parts rfl (fun x => ?_) ?_ rfl
  · rw [touchBlock_blocks, unpin_blocks, unpin_blocks, touchBlock_blocks]
    refine congrArg (fun n : Int => { p.blocks x with refCnt := n }) ?_
    change (p.blocks x).refCnt - _ + _ = (p.blocks x).refCnt + _ - _
    omega
  · change (if ((p.unpin pins).blocks b).refCnt = 0 ∧ _ then _ else _) = _
    simp only [h0]
    rfl

theorem touch_unpin (bs : List Nat) : ∀ {p : BlockPool}, p.Shared pins →
    (p.unpin pins).touch bs = (p.touch bs).unpin pins := by
  induction bs with
  | nil => intro p _; rfl
  | cons b bs ih =>
      intro p h
      have h' : (p.touchBlock b).Shared pins := by
        refine h.mono fun x => ?_
        rw [touchBlock_blocks]
        change _ ≤ (p.blocks x).refCnt + _
        split
        · omega
        · omega
      rw [touch, List.foldl_cons, touchBlock_unpin h b]
      exact ih h'

theorem Shared.touch (h : p.Shared pins) (bs : List Nat) : (p.touch bs).Shared pins := by
  refine h.mono fun x => ?_
  rw [touch_blocks]
  change _ ≤ (p.blocks x).refCnt + _
  omega

/-- Touching blocks that are in use leaves the queue alone. -/
theorem touch_queue_of_used (bs : List Nat) : ∀ {p : BlockPool},
    (∀ b ∈ bs, 0 < (p.blocks b).refCnt) → (p.touch bs).freeBlockQueue = p.freeBlockQueue := by
  induction bs with
  | nil => intro p _; rfl
  | cons b bs ih =>
      intro p h
      have hb := h b (List.mem_cons_self ..)
      rw [touch, List.foldl_cons]
      refine (ih (p := p.touchBlock b) fun x hx => ?_).trans (if_neg fun hc => ?_)
      · have := h x (List.mem_cons_of_mem _ hx)
        rw [touchBlock_blocks]
        change 0 < (p.blocks x).refCnt + _
        split
        · omega
        · omega
      · omega

/-- **Pinning blocks in use is not visible.** -/
theorem unpin_touch {bs : List Nat} (h : ∀ b ∈ bs, 0 < (p.blocks b).refCnt) :
    (p.touch bs).unpin (pins ++ bs) = p.unpin pins := by
  refine eq_of_parts (touch_numGpuBlocks bs p) (fun x => ?_) (touch_queue_of_used bs h)
    (touch_cached bs p)
  rw [unpin_blocks, unpin_blocks, touch_blocks, List.count_append]
  refine congrArg (fun n : Int => { p.blocks x with refCnt := n }) ?_
  change (p.blocks x).refCnt + _ - _ = _
  push_cast
  omega

theorem Shared.pinned (h : p.Shared pins) {bs : List Nat}
    (hbs : ∀ b ∈ bs, ((pins.count b : Nat) : Int) < (p.blocks b).refCnt) :
    (p.touch bs).Shared (pins ++ bs) := by
  intro b hb
  rw [touch_blocks, List.count_append]
  change _ < (p.blocks b).refCnt + _
  have hlt : ((pins.count b : Nat) : Int) < (p.blocks b).refCnt := by
    rcases List.mem_append.mp hb with hb | hb
    · exact h b hb
    · exact hbs b hb
  push_cast
  omega

theorem decRef_unpin (p : BlockPool) (pins : List Nat) (b : Nat) :
    (p.unpin pins).decRef b = (p.decRef b).unpin pins := by
  rw [decRef, decRef, setBlock_unpin, unpin_refCnt]
  congr 2
  rw [KVCacheBlock.mk.injEq]
  refine ⟨?_, rfl, rfl, rfl⟩
  change _ = (p.blocks b).refCnt - 1 - _
  omega

/-- Some references are dropped, and the pinned blocks stay in use. -/
def SharedAfter (p : BlockPool) (pins bs : List Nat) : Prop :=
  ∀ b ∈ pins, ((pins.count b + bs.count b : Nat) : Int) < (p.blocks b).refCnt

theorem SharedAfter.decRef {b : Nat} {bs : List Nat} (h : p.SharedAfter pins (b :: bs)) :
    (p.decRef b).SharedAfter pins bs := by
  intro x hx
  have h1 := h x hx
  rw [List.count_cons] at h1
  rw [decRef_blocks]
  change _ < (p.blocks x).refCnt - _
  by_cases hxb : x = b
  · subst hxb
    rw [if_pos rfl]
    rw [if_pos (beq_self_eq_true x)] at h1
    omega
  · rw [if_neg hxb]
    omega

theorem SharedAfter.shared {bs : List Nat} (h : p.SharedAfter pins bs) : p.Shared pins := by
  intro b hb
  have := h b hb
  omega

theorem freeLoop_unpin (bs : List Nat) : ∀ {p : BlockPool}, p.SharedAfter pins bs →
    (p.unpin pins).freeLoop bs
      = ((p.freeLoop bs).1.unpin pins, (p.freeLoop bs).2.1, (p.freeLoop bs).2.2) := by
  induction bs with
  | nil => intro p _; rfl
  | cons b bs ih =>
      intro p h
      have h0 := h.decRef.shared.refCnt_eq_zero_iff b
      rw [freeLoop_cons, freeLoop_cons, decRef_unpin, ih h.decRef]
      simp only [h0, unpin_isNull, unpin_blockHash]

theorem freeBlocks_unpin {bs : List Nat} (h : p.SharedAfter pins bs) :
    (p.unpin pins).freeBlocks bs = (p.freeBlocks bs).unpin pins := by
  rw [freeBlocks, freeBlocks, freeLoop_unpin bs h]
  rfl

theorem SharedAfter.freeBlocks {bs : List Nat} (h : p.SharedAfter pins bs) :
    (p.freeBlocks bs).Shared pins := by
  intro b hb
  have := h b hb
  rw [freeBlocks_blocks]
  change _ < (p.blocks b).refCnt - _
  omega

/-- Dropping references of blocks that stay in use collects no block. -/
theorem freeLoop_of_used (bs : List Nat) : ∀ {p : BlockPool},
    (∀ b ∈ bs, ((bs.count b : Nat) : Int) < (p.blocks b).refCnt) → (p.freeLoop bs).2 = ([], []) := by
  induction bs with
  | nil => intro p _; rfl
  | cons b bs ih =>
      intro p h
      have h' : ∀ x ∈ bs, ((bs.count x : Nat) : Int) < ((p.decRef b).blocks x).refCnt := by
        intro x hx
        have h1 := h x (List.mem_cons_of_mem _ hx)
        rw [List.count_cons] at h1
        rw [decRef_blocks]
        change _ < (p.blocks x).refCnt - _
        by_cases hxb : x = b
        · subst hxb
          rw [if_pos rfl]
          rw [if_pos (beq_self_eq_true x)] at h1
          omega
        · rw [if_neg hxb]
          omega
      have hb : ((p.decRef b).blocks b).refCnt ≠ 0 := by
        have h1 := h b (List.mem_cons_self ..)
        rw [List.count_cons_self] at h1
        rw [decRef_blocks]
        change (p.blocks b).refCnt - (if b = b then 1 else 0) ≠ 0
        rw [if_pos rfl]
        omega
      rw [freeLoop_cons, ih h']
      rw [if_neg fun hc => hb hc.1, if_neg fun hc => hb hc.1]

/-- **Releasing pins of blocks in use is not visible.** -/
theorem unpin_freeBlocks {bs pins' : List Nat} (h : p.Shared pins) (hp : pins.Perm (pins' ++ bs)) :
    (p.freeBlocks bs).unpin pins' = p.unpin pins := by
  have hcnt : ∀ b, pins.count b = pins'.count b + bs.count b := by
    intro b
    rw [hp.count_eq, List.count_append]
  have hloop := freeLoop_of_used bs (p := p) fun b hb => by
    have h1 := h b (hp.mem_iff.mpr (List.mem_append_right _ hb))
    have h2 := hcnt b
    omega
  refine eq_of_parts (freeBlocks_numGpuBlocks p bs) (fun x => ?_) ?_ (freeBlocks_cached p bs)
  · rw [unpin_blocks, unpin_blocks, freeBlocks_blocks, hcnt]
    refine congrArg (fun n : Int => { p.blocks x with refCnt := n }) ?_
    change (p.blocks x).refCnt - _ - _ = _
    push_cast
    omega
  · change (p.freeBlocks bs).freeBlockQueue = p.freeBlockQueue
    rw [freeBlocks_queue, hloop]
    simp

theorem Shared.released {bs pins' : List Nat} (h : p.Shared pins)
    (hp : pins.Perm (pins' ++ bs)) : (p.freeBlocks bs).Shared pins' := by
  intro b hb
  have h1 := h b (hp.mem_iff.mpr (List.mem_append_left _ hb))
  rw [hp.count_eq, List.count_append] at h1
  rw [freeBlocks_blocks]
  change _ < (p.blocks b).refCnt - _
  push_cast at h1
  omega

/-! ### New blocks and hashes -/

theorem removeCachedBlockHashes_unpin (p : BlockPool) (pins : List Nat) (b : Nat) :
    (p.unpin pins).removeCachedBlockHashes b = (p.removeCachedBlockHashes b).unpin pins := by
  rw [removeCachedBlockHashes, removeCachedBlockHashes, unpin_blockHash]
  split
  · rfl
  · rw [setBlock_unpin]
    rfl

theorem takeNewBlock_unpin (p : BlockPool) (pins : List Nat) (b : Nat) :
    (p.unpin pins).takeNewBlock b = (p.takeNewBlock b).unpin pins := by
  let r := p.removeCachedBlockHashes b
  rw [takeNewBlock, takeNewBlock, removeCachedBlockHashes_unpin, setBlock_unpin, unpin_blocks]
  refine congrArg (fun n : Int => (r.unpin pins).setBlock b { r.blocks b with refCnt := n }) ?_
  change (r.blocks b).refCnt - _ + 1 = (r.blocks b).refCnt + 1 - _
  omega

theorem takeNewBlocks_unpin (pins bs : List Nat) : ∀ p : BlockPool,
    bs.foldl takeNewBlock (p.unpin pins) = (bs.foldl takeNewBlock p).unpin pins := by
  induction bs with
  | nil => intro p; rfl
  | cons b bs ih =>
      intro p
      rw [List.foldl_cons, takeNewBlock_unpin, ih]
      rfl

theorem getNewBlocks_unpin (h : p.Shared pins) (n : Nat) :
    (p.unpin pins).getNewBlocks n = (p.getNewBlocks n).map fun x => (x.1, x.2.unpin pins) := by
  have hany : ∀ l : List Nat, (l.any fun b => ((p.unpin pins).blocks b).refCnt != 0)
      = l.any fun b => (p.blocks b).refCnt != 0 := by
    intro l
    refine List.any_congr rfl fun b => ?_
    rw [Bool.eq_iff_iff, bne_iff_ne, bne_iff_ne, ne_eq, ne_eq, h.refCnt_eq_zero_iff]
  rw [getNewBlocks, getNewBlocks]
  change (if p.getNumFreeBlocks < n then _ else _) = _
  split
  · rfl
  · change (if ((p.freeBlockQueue.take n).any fun b => ((p.unpin pins).blocks b).refCnt != 0) = true
      then _ else Except.ok (p.freeBlockQueue.take n, (p.freeBlockQueue.take n).foldl takeNewBlock
        (({ p with freeBlockQueue := p.freeBlockQueue.drop n } : BlockPool).unpin pins))) = _
    rw [hany, takeNewBlocks_unpin]
    dsimp only
    split
    · rfl
    · rfl

theorem refCnt_le_getNewBlocks {n : Nat} {ret : List Nat} (h : p.getNewBlocks n = .ok (ret, q))
    (b : Nat) : (p.blocks b).refCnt ≤ (q.blocks b).refCnt := by
  rw [getNewBlocks] at h
  split at h
  · cases h
  · dsimp only at h
    split at h
    · cases h
    · cases h
      rw [(takeNewBlocks_blocks _ _ b).1]
      change (p.blocks b).refCnt ≤ (p.blocks b).refCnt + _
      omega

theorem insertBlockHash_unpin (p : BlockPool) (pins : List Nat) (h : BlockHash) (b n : Nat) :
    (p.unpin pins).insertBlockHash h b n = (p.insertBlockHash h b n).unpin pins := by
  rw [insertBlockHash, insertBlockHash, unpin_blockHash]
  split
  · rfl
  · change (if p.contain h b = true then _ else _) = _
    split
    · rfl
    · rw [unpin_blocks]
      change _ = ((p.setBlock b _).unpin pins).insertCached h b
      rw [setBlock_unpin]

theorem cacheFullBlock_unpin (p : BlockPool) (pins table : List Nat) (hashes : List BlockHash)
    (bs i : Nat) : (p.unpin pins).cacheFullBlock table hashes bs i
      = (p.cacheFullBlock table hashes bs i).map fun q => q.unpin pins := by
  rw [cacheFullBlock, cacheFullBlock]
  cases table[i]? with
  | none => rfl
  | some b =>
      cases hashes[i]? with
      | none =>
          change (if (p.blocks b).isNull = true then _ else _) = _
          dsimp only
          split
          · rfl
          · rfl
      | some h =>
          change (if (p.blocks b).isNull = true then _ else _) = _
          dsimp only
          split
          · rfl
          · rw [unpin_blockHash]
            cases (p.blocks b).blockHash with
            | none =>
                dsimp only
                rw [insertBlockHash_unpin]
                rfl
            | some h' =>
                have hn : ((p.unpin pins).blocks b).blockHashNumTokens
                    = (p.blocks b).blockHashNumTokens := rfl
                dsimp only
                rw [hn]
                cases (p.blocks b).blockHashNumTokens with
                | none => rfl
                | some m =>
                    dsimp only
                    rw [removeCachedBlockHashes_unpin, insertBlockHash_unpin]
                    split
                    · rfl
                    · rfl

theorem cacheFullBlocks_unpin (p : BlockPool) (pins table : List Nat) (hashes : List BlockHash)
    (numCached numFull bs : Nat) : (p.unpin pins).cacheFullBlocks table hashes numCached numFull bs
      = (p.cacheFullBlocks table hashes numCached numFull bs).map fun q => q.unpin pins := by
  have aux : ∀ (l : List Nat) (p : BlockPool),
      l.foldlM (fun (q : BlockPool) i => q.cacheFullBlock table hashes bs i) (p.unpin pins)
        = (l.foldlM (fun (q : BlockPool) i => q.cacheFullBlock table hashes bs i) p).map
          fun q => q.unpin pins := by
    intro l
    induction l with
    | nil => intro p; rfl
    | cons i l ih =>
        intro p
        rw [List.foldlM_cons, List.foldlM_cons, cacheFullBlock_unpin]
        cases p.cacheFullBlock table hashes bs i with
        | error e => rfl
        | ok q => exact ih q
  exact aux _ p

theorem insertBlockHash_refCnt (p : BlockPool) (h : BlockHash) (b n x : Nat) :
    ((p.insertBlockHash h b n).blocks x).refCnt = (p.blocks x).refCnt := by
  rw [insertBlockHash]
  split
  · rfl
  · split
    · rfl
    · change ((p.setBlock b _).blocks x).refCnt = _
      by_cases hx : x = b
      · subst hx
        rw [setBlock_blocks_self]
      · rw [setBlock_blocks_of_ne _ _ hx]

theorem cacheFullBlock_refCnt {table : List Nat} {hashes : List BlockHash} {bs i : Nat}
    (h : p.cacheFullBlock table hashes bs i = .ok q) (x : Nat) :
    (q.blocks x).refCnt = (p.blocks x).refCnt := by
  rw [cacheFullBlock] at h
  split at h
  · split at h
    · cases h
      rfl
    · dsimp only at h
      split at h
      · cases h
        exact insertBlockHash_refCnt _ _ _ _ _
      · split at h
        · split at h
          · cases h
            rw [insertBlockHash_refCnt, removeCachedBlockHashes_blocks]
            split
            · rfl
            · rfl
          · cases h
        · cases h
  · split at h
    · cases h
      rfl
    · cases h
  · cases h
    rfl

theorem cacheFullBlocks_refCnt {table : List Nat} {hashes : List BlockHash}
    {numCached numFull bs : Nat} (h : p.cacheFullBlocks table hashes numCached numFull bs = .ok q)
    (x : Nat) : (q.blocks x).refCnt = (p.blocks x).refCnt := by
  have aux : ∀ (l : List Nat) (p : BlockPool),
      l.foldlM (fun (q : BlockPool) i => q.cacheFullBlock table hashes bs i) p = .ok q →
        (q.blocks x).refCnt = (p.blocks x).refCnt := by
    intro l
    induction l with
    | nil =>
        intro p hp
        cases hp
        rfl
    | cons i l ih =>
        intro p hp
        rw [List.foldlM_cons] at hp
        obtain ⟨p₁, hp₁, hp⟩ := Except.bind_eq_ok.mp hp
        rw [ih p₁ hp, cacheFullBlock_refCnt hp₁]
  exact aux _ p h

theorem resetPrefixCache_unpin (p : BlockPool) (pins : List Nat) :
    (p.unpin pins).resetPrefixCache = p.resetPrefixCache.map fun q => q.unpin pins := by
  rw [resetPrefixCache, resetPrefixCache]
  change (if p.numGpuBlocks - p.getNumFreeBlocks ≠ 1 then _ else _) = _
  split
  · rfl
  · rfl

end BlockPool

/-! ### The view of a request and of the configuration -/

/-- The request without what a lookup of a source writes to it. -/
def Request.native (r : Request) : Request :=
  { r with
    cacheselectSourceRequestId := none
    cacheselectSourceSelection := .explicit
    partialReusePlan := none }

theorem Request.native_blockHashes (r : Request) (blockSize : Nat) :
    r.native.blockHashes blockSize = r.blockHashes blockSize := by
  rw [blockHashes, blockHashes]
  refine List.map_congr_left fun i _ => ?_
  exact blockHashAt_congr rfl rfl rfl

/-- The configuration with CacheSelect off. -/
def ManagerConfig.native (cfg : ManagerConfig) : ManagerConfig :=
  { cfg with supportsAlignedReuse := false }

namespace AlignedBlockReuseLocator

/-- `locate` writes the choice of a source only. -/
theorem locate_sameRequest {cfg : LocatorConfig} {pool : BlockPool} {l : AlignedBlockReuseLocator}
    {r r' : Request} {native : Nat} {plan : Option PartialReusePlan}
    (h : locate cfg pool l r native = .ok (plan, r')) : SameRequest r r' := by
  rcases locate_cases cfg pool l r native with
    ⟨-, plan', r₁, h₁, hsame, -⟩ | ⟨source, p, r₁, id, selection, -, -, -, hsame, -, h₁⟩
  · rw [h₁, Except.ok.injEq, Prod.mk.injEq] at h
    exact h.2 ▸ hsame
  · rw [h₁, Except.map_eq_ok] at h
    obtain ⟨plan', -, he⟩ := h
    rw [Prod.mk.injEq] at he
    exact he.2 ▸ hsame

end AlignedBlockReuseLocator

namespace KVCacheManager

open AlignedBlockReuseLocator

/-- The manager without the pins and without the index of sources. -/
def native (pins : List Nat) (m : KVCacheManager) : KVCacheManager :=
  { m with pool := m.pool.unpin pins, locator := {} }

variable {cfg : ManagerConfig} {m m' : KVCacheManager} {pins : List Nat} {r : Request}

/-! ### Lookups -/

theorem longestRun_unpin (pool : BlockPool) (pins : List Nat) : ∀ hs : List BlockHash,
    longestRun (pool.unpin pins) hs = longestRun pool hs := by
  intro hs
  induction hs with
  | nil => rfl
  | cons h hs ih =>
      rw [longestRun, longestRun, ih]
      rfl

theorem findLongestCacheHit_native (cfg : ManagerConfig) (pool : BlockPool) (pins : List Nat)
    (hashes : List BlockHash) (n : Nat) :
    findLongestCacheHit cfg.native (pool.unpin pins) hashes n
      = findLongestCacheHit cfg pool hashes n := by
  rw [findLongestCacheHit, findLongestCacheHit, longestRun_unpin]
  rfl

/-- Whether the lookup of a source returns, if there is one. -/
def Locates (cfg : ManagerConfig) (m : KVCacheManager) (r : Request) : Prop :=
  plansFor cfg r = true → ∃ x, locate cfg.toLocatorConfig m.pool m.locator r
    (findLongestCacheHit cfg m.pool (r.blockHashes cfg.blockSize) (r.numTokens - 1)).2 = .ok x

/-- **The native hits**: a lookup that returns has the hits of the view. -/
theorem getComputedBlocks_native (h : Locates cfg m r) (pins : List Nat) :
    (m.native pins).getComputedBlocks cfg.native r.native
      = (m.getComputedBlocks cfg r).map fun x => (x.1, x.2.native) := by
  have hhit := findLongestCacheHit_native cfg m.pool pins (r.blockHashes cfg.blockSize)
    (r.numTokens - 1)
  have hview : (m.native pins).getComputedBlocks cfg.native r.native
      = if cfg.enableCaching = false ∨ r.skipReadingPrefixCache = true then .ok (([], 0), r.native)
        else .ok (findLongestCacheHit cfg.native (m.pool.unpin pins) (r.blockHashes cfg.blockSize)
          (r.numTokens - 1), r.native) := by
    rw [getComputedBlocks, Request.native_blockHashes]
    rfl
  rw [hview, hhit, getComputedBlocks]
  split
  · rfl
  · next hc =>
      obtain ⟨hcache, hskip⟩ := not_or.mp hc
      rw [Bool.not_eq_false] at hcache
      rw [Bool.not_eq_true] at hskip
      dsimp only
      split
      · next hsup =>
          obtain ⟨⟨plan, r'⟩, hx⟩ := h (by rw [plansFor, hcache, hskip, hsup]; rfl)
          have hsame := locate_sameRequest hx
          rw [hx, hsame]
          rfl
      · rfl

/-! ### Allocation -/

theorem numEvictableBlocks_unpin {pool : BlockPool} (h : pool.Shared pins) (blocks : List Nat) :
    numEvictableBlocks (pool.unpin pins) blocks = numEvictableBlocks pool blocks := by
  refine List.countP_congr fun b _ => ?_
  have h0 := h.refCnt_eq_zero_iff b
  rw [Bool.and_eq_true, Bool.and_eq_true, beq_iff_eq, beq_iff_eq, h0]
  rfl

theorem getNumBlocksToAllocate_native (h : m.pool.Shared pins) (id : String) (n : Nat)
    (hits : List Nat) : getNumBlocksToAllocate cfg.native (m.native pins) id n hits
      = getNumBlocksToAllocate cfg m id n hits := by
  rw [getNumBlocksToAllocate, getNumBlocksToAllocate]
  change (if (m.numCachedBlock id).isSome = true then _ else
    Except.ok (_ + numEvictableBlocks (m.pool.unpin pins) hits)) = _
  rw [numEvictableBlocks_unpin h]
  rfl

theorem hasRoom_native (h : m.pool.Shared pins) (a : AllocateArgs) :
    hasRoom cfg.native (m.native pins) r.native a = hasRoom cfg m r a := by
  rw [hasRoom, hasRoom]
  change (getNumBlocksToAllocate cfg.native (m.native pins) r.requestId _ _ >>= _) = _
  simp only [getNumBlocksToAllocate_native h]
  rfl

theorem addLocalComputedBlocks_native (h : m.pool.Shared pins) (id : String) (hits : List Nat) :
    (m.native pins).addLocalComputedBlocks cfg.native id hits
      = (m.addLocalComputedBlocks cfg id hits).map (native pins) := by
  rw [addLocalComputedBlocks, addLocalComputedBlocks]
  change (if m.reqToBlocks id ≠ [] then _ else if cfg.enableCaching = false ∧ hits ≠ [] then _
    else _) = _
  split
  · rfl
  · split
    · rfl
    · change Except.ok ((setBlocks { m.native pins with
        pool := (m.pool.unpin pins).touch hits } id hits).setNumCached id _) = _
      rw [BlockPool.touch_unpin hits h]
      rfl

theorem extendBlocks_native (h : m.pool.Shared pins) (id : String) (n : Nat) :
    (m.native pins).extendBlocks id n
      = (m.extendBlocks id n).map fun x => (x.1, x.2.native pins) := by
  rw [extendBlocks, extendBlocks]
  change ((m.pool.unpin pins).getNewBlocks (n - (m.reqToBlocks id).length)).map _ = _
  rw [BlockPool.getNewBlocks_unpin h]
  cases m.pool.getNewBlocks (n - (m.reqToBlocks id).length) with
  | error e => rfl
  | ok x => rfl

theorem shared_addLocalComputedBlocks (h : m.pool.Shared pins) {id : String} {hits : List Nat}
    (hm : m.addLocalComputedBlocks cfg id hits = .ok m') : m'.pool.Shared pins := by
  rw [addLocalComputedBlocks] at hm
  split at hm
  · cases hm
  · split at hm
    · cases hm
    · cases hm
      exact h.touch hits

theorem shared_extendBlocks (h : m.pool.Shared pins) {id : String} {n : Nat} {new : List Nat}
    (hm : m.extendBlocks id n = .ok (new, m')) : m'.pool.Shared pins := by
  rw [extendBlocks, Except.map_eq_ok] at hm
  obtain ⟨⟨ret, q⟩, hq, he⟩ := hm
  cases he
  exact h.mono (BlockPool.refCnt_le_getNewBlocks hq)

theorem allocateComputed_native (h : m.pool.Shared pins) (a : AllocateArgs) :
    allocateComputed cfg.native (m.native pins) r.native a
      = (allocateComputed cfg m r a).map (native pins) := by
  rw [allocateComputed, allocateComputed]
  split
  · rw [allocateNewComputedBlocks, allocateNewComputedBlocks]
    change (if (m.numCachedBlock r.requestId).isSome = true then _ else _) = _
    split
    · split
      · rfl
      · rfl
    · change ((m.native pins).addLocalComputedBlocks cfg.native r.requestId _ >>= _) = _
      rw [addLocalComputedBlocks_native h]
      cases hm : m.addLocalComputedBlocks cfg r.requestId a.newComputedBlocks with
      | error e => rfl
      | ok m₁ =>
          have h₁ := shared_addLocalComputedBlocks h hm
          let n := cdiv (r.numComputedTokens + a.numNewComputedTokens
            + a.numExternalComputedTokens) cfg.blockSize
          change (if 0 < a.numExternalComputedTokens then
              (m₁.native pins).extendBlocks r.requestId n >>= _ else _)
            = Except.map _ (if 0 < a.numExternalComputedTokens then
              m₁.extendBlocks r.requestId n >>= _ else _)
          split
          · rw [extendBlocks_native h₁]
            cases m₁.extendBlocks r.requestId n with
            | error e => rfl
            | ok x => rfl
          · rfl
  · rfl

theorem shared_allocateComputed (h : m.pool.Shared pins) {a : AllocateArgs}
    (hm : allocateComputed cfg m r a = .ok m') : m'.pool.Shared pins := by
  rw [allocateComputed] at hm
  split at hm
  · rw [allocateNewComputedBlocks] at hm
    split at hm
    · split at hm
      · cases hm
      · cases hm
        exact h
    · obtain ⟨m₁, hm₁, hm⟩ := Except.bind_eq_ok.mp hm
      have h₁ := shared_addLocalComputedBlocks h hm₁
      split at hm
      · obtain ⟨⟨new, m₂⟩, hm₂, hm⟩ := Except.bind_eq_ok.mp hm
        cases hm
        exact shared_extendBlocks h₁ hm₂
      · cases hm
        exact h₁
  · cases hm
    exact h

theorem cacheBlocks_native (n : Nat) : (m.native pins).cacheBlocks cfg.native r.native n
    = (m.cacheBlocks cfg r n).map (native pins) := by
  rw [cacheBlocks, cacheBlocks, Request.native_blockHashes]
  change (if n / cfg.blockSize ≤ m.numRegistered r.requestId then _ else
    ((m.pool.unpin pins).cacheFullBlocks (m.reqToBlocks r.requestId) (r.blockHashes cfg.blockSize)
      (m.numRegistered r.requestId) (n / cfg.blockSize) cfg.blockSize).map _) = _
  split
  · rfl
  · rw [BlockPool.cacheFullBlocks_unpin]
    cases m.pool.cacheFullBlocks (m.reqToBlocks r.requestId) (r.blockHashes cfg.blockSize)
      (m.numRegistered r.requestId) (n / cfg.blockSize) cfg.blockSize with
    | error e => rfl
    | ok q => rfl

theorem shared_cacheBlocks (h : m.pool.Shared pins) {n : Nat}
    (hm : m.cacheBlocks cfg r n = .ok m') : m'.pool.Shared pins := by
  rw [cacheBlocks] at hm
  split at hm
  · cases hm
    exact h
  · rw [Except.map_eq_ok] at hm
    obtain ⟨q, hq, he⟩ := hm
    cases he
    exact h.mono fun b => le_of_eq (BlockPool.cacheFullBlocks_refCnt hq b).symm

theorem allocateBlocks_native (h : m.pool.Shared pins) (a : AllocateArgs) :
    allocateBlocks cfg.native (m.native pins) r.native a
      = (allocateBlocks cfg m r a).map fun x => (x.1, x.2.native pins) := by
  rw [allocateBlocks, allocateBlocks, allocateComputed_native h]
  cases hm : allocateComputed cfg m r a with
  | error e => rfl
  | ok m₁ =>
      change ((m₁.native pins).extendBlocks r.requestId _ >>= _) = Except.map _ (m₁.extendBlocks _ _ >>= _)
      rw [extendBlocks_native (shared_allocateComputed h hm)]
      change (Except.map _ (m₁.extendBlocks r.requestId (cdiv (numSlots cfg r a) cfg.blockSize)) >>= _)
        = Except.map _ (m₁.extendBlocks r.requestId (cdiv (numSlots cfg r a) cfg.blockSize) >>= _)
      cases m₁.extendBlocks r.requestId (cdiv (numSlots cfg r a) cfg.blockSize) with
      | error e => rfl
      | ok x =>
          obtain ⟨new, m₂⟩ := x
          change (if cfg.enableCaching = false ∨ a.delayCacheBlocks = true then _ else
            (m₂.native pins).cacheBlocks cfg.native r.native (numRegisteredTokens cfg r a) >>= _)
            = Except.map _ (if cfg.enableCaching = false ∨ a.delayCacheBlocks = true then _ else
              m₂.cacheBlocks cfg r (numRegisteredTokens cfg r a) >>= _)
          split
          · rfl
          · rw [cacheBlocks_native]
            cases m₂.cacheBlocks cfg r (numRegisteredTokens cfg r a) with
            | error e => rfl
            | ok m₃ => rfl

/-- **An allocation beside pins** does what it does in the view. -/
theorem allocateSlots_native (h : m.pool.Shared pins) (a : AllocateArgs) :
    (m.native pins).allocateSlots cfg.native r.native a
      = (m.allocateSlots cfg r a).map fun x => (x.1, x.2.native pins) := by
  rw [allocateSlots, allocateSlots]
  split
  · rfl
  · rw [hasRoom_native h]
    cases hasRoom cfg m r a with
    | error e => rfl
    | ok room =>
        cases room with
        | false => rfl
        | true =>
            change (allocateBlocks cfg.native (m.native pins) r.native a >>= _)
              = Except.map _ (allocateBlocks cfg m r a >>= _)
            rw [allocateBlocks_native h]
            cases allocateBlocks cfg m r a with
            | error e => rfl
            | ok x => rfl

theorem shared_allocateBlocks (h : m.pool.Shared pins) {a : AllocateArgs} {new : List Nat}
    (hm : allocateBlocks cfg m r a = .ok (new, m')) : m'.pool.Shared pins := by
  rw [allocateBlocks] at hm
  obtain ⟨m₁, hm₁, hm⟩ := Except.bind_eq_ok.mp hm
  obtain ⟨⟨new', m₂⟩, hm₂, hm⟩ := Except.bind_eq_ok.mp hm
  have h₂ := shared_extendBlocks (shared_allocateComputed h hm₁) hm₂
  dsimp only at hm
  split at hm
  · cases hm
    exact h₂
  · obtain ⟨m₃, hm₃, hm⟩ := Except.bind_eq_ok.mp hm
    cases hm
    exact shared_cacheBlocks h₂ hm₃

/-- An allocation gives up no reference. -/
theorem shared_allocateSlots (h : m.pool.Shared pins) {a : AllocateArgs} {new : Option (List Nat)}
    (hm : m.allocateSlots cfg r a = .ok (new, m')) : m'.pool.Shared pins := by
  rw [allocateSlots] at hm
  split at hm
  · cases hm
  · obtain ⟨room, -, hm⟩ := Except.bind_eq_ok.mp hm
    split at hm
    · obtain ⟨⟨new', m₁⟩, hm₁, hm⟩ := Except.bind_eq_ok.mp hm
      cases hm
      exact shared_allocateBlocks h hm₁
    · cases hm
      exact h

/-! ### Freeing -/

theorem popBlocksForFree_native (m : KVCacheManager) (r : Request) (pins : List Nat)
    (isFinished : Bool) : (m.native pins).popBlocksForFree cfg.native r.native isFinished
      = ((m.popBlocksForFree cfg r isFinished).1,
        (m.popBlocksForFree cfg r isFinished).2.native pins) := by
  rw [popBlocksForFree, popBlocksForFree, indexPartialReuseSource, indexPartialReuseSource]
  rw [if_neg fun hc => Bool.false_ne_true hc.2.1]
  split
  · rfl
  · rfl

theorem free_native (h : m.pool.SharedAfter pins (m.reqToBlocks r.requestId).reverse)
    (isFinished : Bool) : (m.native pins).free cfg.native r.native isFinished
      = (m.free cfg r isFinished).native pins := by
  have hpop : (m.native pins).popBlocksForFree cfg.native r.native isFinished = _ :=
    popBlocksForFree_native m r pins isFinished
  rw [free_eq, free_eq, hpop]
  change KVCacheManager.mk ((m.pool.unpin pins).freeBlocks (m.reqToBlocks r.requestId).reverse) _ _ _
    = _
  rw [BlockPool.freeBlocks_unpin h]
  rfl

theorem resetPrefixCache_native (m : KVCacheManager) (pins : List Nat) :
    (m.native pins).resetPrefixCache cfg.native
      = (m.resetPrefixCache cfg).map (native pins) := by
  rw [resetPrefixCache, resetPrefixCache]
  change ((m.pool.unpin pins).resetPrefixCache).map _ = _
  rw [BlockPool.resetPrefixCache_unpin]
  cases m.pool.resetPrefixCache with
  | none => rfl
  | some q => rfl

end KVCacheManager

end CacheSelect.Core

import CacheSelect.Core.LinkedRuns
import CacheSelect.Lib.Transition

/-! # The linked pool refines the pool of lists

The rest of the development reasons about `BlockPool`, whose queue and map are lists.  A run of the calls that both
have gives the same results on both, exceptions included, and `abs` reads the final pool of lists off the linked one,
by walking its queue (`run_abs`, for pools with caching on).  The calls that leave a block with more than one key are those of cache groups whose
block is larger than a hash block; they exist on the linked pool only, whose invariant they keep
(`reachable_consistent`).
-/

namespace CacheSelect.Core

open FreeListNode (block)
open Transition (ReachableWhen)

/-- The calls of both pools. -/
inductive PoolCall
  | touch (blocks : List Nat)
  | freeBlocks (orderedBlocks : List Nat)
  | getNewBlocks (numBlocks : Nat)
  | cacheFullBlocks (blocks : List Nat) (blockHashes : List BlockHash)
      (numCachedBlocks numFullBlocks blockSize : Nat)
  | evictBlocks (blockIds : List Nat)
  | resetPrefixCache

inductive PoolResult
  | done
  | newBlocks (blocks : List Nat)
  | partialHash (key : Option BlockHash)
  | reset (done : Bool)
deriving DecidableEq

/-- The caller has the blocks it names, and the references it drops. -/
def PoolCall.Valid (numGpuBlocks : Nat) (block : Nat → KVCacheBlock) : PoolCall → Prop
  | touch blocks => ∀ b ∈ blocks, b < numGpuBlocks
  | freeBlocks orderedBlocks =>
      ∀ b ∈ orderedBlocks, b < numGpuBlocks ∧ (b ≠ 0 → (orderedBlocks.count b : Int) ≤ (block b).refCnt)
  | cacheFullBlocks blocks _ _ _ _ => ∀ b ∈ blocks, b < numGpuBlocks
  | _ => True

instance (numGpuBlocks : Nat) (block : Nat → KVCacheBlock) : ∀ call : PoolCall, Decidable (call.Valid numGpuBlocks block)
  | .touch _ => inferInstanceAs (Decidable (∀ _ ∈ _, _))
  | .freeBlocks _ => inferInstanceAs (Decidable (∀ _ ∈ _, _))
  | .cacheFullBlocks .. => inferInstanceAs (Decidable (∀ _ ∈ _, _))
  | .getNewBlocks _ => inferInstanceAs (Decidable True)
  | .evictBlocks _ => inferInstanceAs (Decidable True)
  | .resetPrefixCache => inferInstanceAs (Decidable True)

/-! ### The two machines -/

namespace BlockPool

def evictBlocks (p : BlockPool) (blockIds : List Nat) : Except PyError BlockPool :=
  blockIds.foldlM
    (fun q b => if b < q.numGpuBlocks then .ok (q.removeCachedBlockHashes b) else .error .assertionError) p

def call (p : BlockPool) : PoolCall → Except PyError (PoolResult × BlockPool)
  | .touch blocks => .ok (.done, p.touch blocks)
  | .freeBlocks orderedBlocks => .ok (.done, p.freeBlocks orderedBlocks)
  | .getNewBlocks numBlocks => (p.getNewBlocks numBlocks).map fun r => (.newBlocks r.1, r.2)
  | .cacheFullBlocks blocks blockHashes numCachedBlocks numFullBlocks blockSize =>
      (p.cacheFullBlocks blocks blockHashes numCachedBlocks numFullBlocks blockSize).map fun q => (.done, q)
  | .evictBlocks blockIds => (p.evictBlocks blockIds).map fun q => (.done, q)
  | .resetPrefixCache => .ok (.reset p.resetPrefixCache.isSome, p.resetPrefixCache.getD p)

/-- The results of a run of calls, and the pool after it. -/
def run : List PoolCall → BlockPool → Except PyError (List PoolResult × BlockPool)
  | [], p => .ok ([], p)
  | c :: cs, p => do
      let first ← p.call c
      let rest ← run cs first.2
      .ok (first.1 :: rest.1, rest.2)

/-- Every call of the run is valid where it is made. -/
def validRun : List PoolCall → BlockPool → Bool
  | [], _ => true
  | c :: cs, p =>
      decide (c.Valid p.numGpuBlocks p.blocks) &&
        match p.call c with
        | .ok r => validRun cs r.2
        | .error _ => true

end BlockPool

namespace LinkedBlockPool

def call (p : LinkedBlockPool) : PoolCall → Except PyError (PoolResult × LinkedBlockPool)
  | .touch blocks => (p.touch blocks).map fun q => (.done, q)
  | .freeBlocks orderedBlocks => (p.freeBlocks orderedBlocks).map fun q => (.done, q)
  | .getNewBlocks numBlocks => (p.getNewBlocks numBlocks).map fun r => (.newBlocks r.1, r.2)
  | .cacheFullBlocks blocks blockHashes numCachedBlocks numFullBlocks blockSize =>
      (p.cacheFullBlocks blocks blockHashes numCachedBlocks numFullBlocks blockSize none).map fun q => (.done, q)
  | .evictBlocks blockIds => (p.evictBlocks blockIds).map fun q => (.done, q)
  | .resetPrefixCache => .ok (.reset p.resetPrefixCache.1, p.resetPrefixCache.2)

def run : List PoolCall → LinkedBlockPool → Except PyError (List PoolResult × LinkedBlockPool)
  | [], p => .ok ([], p)
  | c :: cs, p => do
      let first ← p.call c
      let rest ← run cs first.2
      .ok (first.1 :: rest.1, rest.2)

/-- The free blocks, read off the pointers of the queue. -/
def freeList (p : LinkedBlockPool) : List Nat :=
  match p.freeBlockQueue.getAllFreeBlocks (p.numGpuBlocks + 1) with
  | .ok (some nodes) => nodes.filterMap FreeListNode.blockId?
  | _ => []

/-- The pool of lists that a linked pool stands for. -/
def abs (p : LinkedBlockPool) : BlockPool :=
  p.toBlockPool p.freeList

/-- Every block has one key at most. -/
def Single (p : LinkedBlockPool) : Prop :=
  ∀ b, p.cachedBlockHashesByBlock b = []

variable {p q : LinkedBlockPool} {l : List Nat} {b : Nat}

theorem Inv.length_le (hp : p.Inv l) : l.length ≤ p.numGpuBlocks := by
  have hsub : l ⊆ List.range p.numGpuBlocks := fun b hb => List.mem_range.mpr ((hp.mem_free b).mp hb).1
  have hle := (List.subperm_of_subset hp.queue.nodup hsub).length_le
  rwa [List.length_range] at hle

theorem Inv.getAllFreeBlocks (hp : p.Inv l) :
    p.freeBlockQueue.getAllFreeBlocks (p.numGpuBlocks + 1) = .ok (some (l.map block)) :=
  FreeKVCacheBlockQueue.getAllFreeBlocks_ok hp.queue (Nat.lt_succ_of_le hp.length_le)

theorem Inv.freeList_eq (hp : p.Inv l) : p.freeList = l := by
  rw [freeList, hp.getAllFreeBlocks]
  dsimp only
  rw [List.filterMap_map]
  exact List.filterMap_some

theorem Inv.abs_eq (hp : p.Inv l) : p.abs = p.toBlockPool l := by
  rw [abs, hp.freeList_eq]

/-! ### Keys of the two pools -/

theorem removeCachedBlockHashes_single (hp : p.Entries) (hs : p.Single) : (p.removeCachedBlockHashes b).2.Single := by
  intro c
  rw [removeCachedBlockHashes_eq hp]
  change Function.update p.cachedBlockHashesByBlock b [] c = []
  by_cases hc : c = b
  · rw [hc, Function.update_self]
  · rw [Function.update_of_ne hc]
    exact hs c

theorem removeCachedBlockHashes_abs (hp : p.Entries) (hs : p.Single) :
    (p.removeCachedBlockHashes b).2.toBlockPool l = (p.toBlockPool l).removeCachedBlockHashes b := by
  have hkeys : p.keysOf b = (p.blocks b).blockHash.toList := by
    rw [keysOf, hs b, List.append_nil]
  rw [BlockPool.removeCachedBlockHashes]
  have hblocks : (p.toBlockPool l).blocks b = p.blocks b := rfl
  rw [hblocks]
  cases hnone : (p.blocks b).blockHash with
  | none =>
      rw [removeCachedBlockHashes, ← keysOf, if_pos ((keysOf_eq_nil_iff hp).mpr hnone)]
      rfl
  | some h =>
      have hmap : (p.cachedBlockHashToBlock.popAll b [h]).2.blocksOf
          = Function.update p.cachedBlockHashToBlock.blocksOf h ((p.cachedBlockHashToBlock.blocksOf h).erase b) := by
        funext k
        rw [BlockHashToBlockMap.blocksOf_popAll b [h] _ (List.nodup_singleton h) k, Function.update_apply]
        simp only [List.mem_singleton]
        split
        · next hk => rw [hk]
        · rfl
      rw [removeCachedBlockHashes_eq hp, hkeys, hnone, toBlockPool]
      dsimp only [Option.toList]
      rw [hmap]
      rfl

/-- A key for a block that has none. -/
theorem insertBlockHash_abs (hp : p.Entries) (hs : p.Single) (hnone : (p.blocks b).blockHash = none)
    (hb : b < p.numGpuBlocks ∧ b ≠ 0) (key : BlockHash) (n : Nat) :
    ∃ q, p.insertBlockHash key b (some n) = .ok q ∧ q.Entries ∧ p.SameRefs q ∧ q.Single ∧
      q.toBlockPool l = (p.toBlockPool l).insertBlockHash key b n := by
  obtain ⟨q, hq, hentries, hsame, -⟩ := insertBlockHash_ok hp hb key (some n)
  have hkey : b ∉ p.cachedBlockHashToBlock.blocksOf key := by
    rw [hp.mem_blocksOf, (keysOf_eq_nil_iff hp).mpr hnone]
    exact List.not_mem_nil
  have hown : (p.blocks b).blockHash ≠ some key := by
    rw [hnone]
    simp
  have hcontain : ¬p.cachedBlockHashToBlock.contain key b = true := fun h => hkey (BlockHashToBlockMap.contain_iff.mp h)
  have hblk : setBlockHash (p.blocks b) key (some n)
      = .ok { p.blocks b with blockHash := some key, blockHashNumTokens := some n } :=
    if_pos ⟨hnone, (hp.of_blockHash_none b hnone).2⟩
  have hval := hq
  rw [insertBlockHash, if_neg hown, if_neg hcontain, if_pos hnone, hblk] at hval
  cases hval
  refine ⟨_, hq, hentries, hsame, hs, ?_⟩
  have hlist : ¬((p.toBlockPool l).contain key b = true) := by
    rw [BlockPool.contain, List.contains_iff_mem]
    exact hkey
  have hinsert : ¬((p.cachedBlockHashToBlock.blocksOf key).contains b = true) := by
    rw [List.contains_iff_mem]
    exact hkey
  have hmap : (p.cachedBlockHashToBlock.insert key b).blocksOf
      = Function.update p.cachedBlockHashToBlock.blocksOf key (if (p.cachedBlockHashToBlock.blocksOf key).contains b
        then p.cachedBlockHashToBlock.blocksOf key else p.cachedBlockHashToBlock.blocksOf key ++ [b]) := by
    funext k
    rw [if_neg hinsert, BlockHashToBlockMap.blocksOf_insert, BlockHashToBlockMap.dictInsert, if_neg hkey,
      Function.update_apply]
  have hpool : (p.toBlockPool l).insertBlockHash key b n = ((p.toBlockPool l).setBlock b
      { p.blocks b with blockHash := some key, blockHashNumTokens := some n }).insertCached key b :=
    (if_neg hown).trans (if_neg hlist)
  rw [hpool, toBlockPool]
  dsimp only
  rw [hmap]
  rfl

/-- The two pools raise the same, or the linked one keeps what `p` has and stands for the other. -/
def Matches (p : LinkedBlockPool) (l : List Nat) (x : Except PyError LinkedBlockPool) (y : Except PyError BlockPool) :
    Prop :=
  (∃ e, x = .error e ∧ y = .error e) ∨
    ∃ q, x = .ok q ∧ y = .ok (q.toBlockPool l) ∧ q.Entries ∧ p.SameRefs q ∧ q.Single

theorem Matches.of_error {x : Except PyError LinkedBlockPool} {y : Except PyError BlockPool} {e : PyError}
    (hx : x = .error e) (hy : y = .error e) : p.Matches l x y :=
  Or.inl ⟨e, hx, hy⟩

theorem Matches.bind {x : Except PyError LinkedBlockPool} {y : Except PyError BlockPool}
    {f : LinkedBlockPool → Except PyError LinkedBlockPool} {g : BlockPool → Except PyError BlockPool}
    (h : p.Matches l x y)
    (hf : ∀ q : LinkedBlockPool, q.Entries → p.SameRefs q → q.Single → q.Matches l (f q) (g (q.toBlockPool l))) :
    p.Matches l (x >>= f) (y >>= g) := by
  rcases h with ⟨e, rfl, rfl⟩ | ⟨q, rfl, rfl, hentries, hsame, hsingle⟩
  · exact .of_error rfl rfl
  · rcases hf q hentries hsame hsingle with ⟨e, hx, hy⟩ | ⟨r, hx, hy, hentries', hsame', hsingle'⟩
    · exact .of_error hx hy
    · exact Or.inr ⟨r, hx, hy, hentries', hsame.trans hsame', hsingle'⟩

/-- One full block is registered alike. -/
theorem cacheFullBlock_matches (hp : p.Entries) (hs : p.Single) (hb : b < p.numGpuBlocks ∧ b ≠ 0)
    (hnull : (p.blocks b).isNull = false) {blocks : List Nat} {i : Nat} (hi : blocks[i]? = some b)
    (blockHashes : List BlockHash) (blockSize : Nat) :
    p.Matches l (p.cacheFullBlock b blockHashes[i]? ((i + 1) * blockSize))
      ((p.toBlockPool l).cacheFullBlock blocks blockHashes blockSize i) := by
  have hblocks : (p.toBlockPool l).blocks b = p.blocks b := rfl
  rw [BlockPool.cacheFullBlock, hi]
  dsimp only
  cases hkey : blockHashes[i]? with
  | none =>
      dsimp only
      rw [hblocks, hnull]
      exact .of_error rfl rfl
  | some key =>
      dsimp only
      rw [hblocks, hnull, if_neg Bool.false_ne_true, cacheFullBlock]
      cases hhash : (p.blocks b).blockHash with
      | none =>
          obtain ⟨q, hq, hentries, hsame, hsingle, hpool⟩ :=
            insertBlockHash_abs (l := l) hp hs hhash hb key ((i + 1) * blockSize)
          rw [if_pos rfl]
          dsimp only
          rw [← hpool]
          exact Or.inr ⟨q, hq, rfl, hentries, hsame, hsingle⟩
      | some old =>
          rw [if_neg (Option.some_ne_none old)]
          dsimp only
          cases (p.blocks b).blockHashNumTokens with
          | none => exact .of_error rfl rfl
          | some n =>
              by_cases hlt : n < (i + 1) * blockSize
              · have hremoved := removeCachedBlockHashes_same hp b
                obtain ⟨q, hq, hentries, hsame, hsingle, hpool⟩ := insertBlockHash_abs (l := l)
                  (removeCachedBlockHashes_entries hp b) (removeCachedBlockHashes_single hp hs (b := b))
                  (blockHash_removeCachedBlockHashes hp b) (by rw [hremoved.numGpuBlocks]; exact hb) key
                  ((i + 1) * blockSize)
                rw [if_pos (by simpa using hlt)]
                dsimp only
                rw [if_pos hlt, ← removeCachedBlockHashes_abs hp hs, ← hpool]
                exact Or.inr ⟨q, hq, rfl, hentries, hremoved.trans hsame, hsingle⟩
              · rw [if_neg (by simpa using hlt)]
                dsimp only
                rw [if_neg hlt]
                exact .of_error rfl rfl

theorem cacheFullLoop_matches {blocks : List Nat} {blockHashes : List BlockHash} {blockSize : Nat} :
    ∀ (n lo : Nat) {p : LinkedBlockPool}, p.Inv l → p.Single → (∀ b ∈ blocks, b < p.numGpuBlocks) →
      p.Matches l (cacheFullLoop blockHashes (fun _ => true) blockSize lo ((blocks.drop lo).take n) p)
        ((List.range' lo n).foldlM (fun q i => q.cacheFullBlock blocks blockHashes blockSize i) (p.toBlockPool l)) := by
  intro n
  induction n with
  | zero => exact fun lo {p} hp hs _ => Or.inr ⟨p, rfl, rfl, hp.toEntries, .refl p, hs⟩
  | succ n ih =>
      intro lo p hp hs hblocks
      rw [List.range'_succ, List.foldlM_cons]
      cases hlo : blocks[lo]? with
      | none =>
          -- past the end of the table both loops do nothing
          have hlen := List.getElem?_eq_none_iff.mp hlo
          have hrest := ih (lo + 1) hp hs hblocks
          rw [List.drop_eq_nil_of_le (Nat.le_succ_of_le hlen), List.take_nil] at hrest
          rw [List.drop_eq_nil_of_le hlen, List.take_nil]
          have hskip : (p.toBlockPool l).cacheFullBlock blocks blockHashes blockSize lo = .ok (p.toBlockPool l) := by
            rw [BlockPool.cacheFullBlock, hlo]
          rw [hskip]
          exact hrest
      | some b =>
          obtain ⟨hlen, hget⟩ := List.getElem?_eq_some_iff.mp hlo
          have hb : b ∈ blocks := List.mem_of_getElem? hlo
          rw [List.drop_eq_getElem_cons hlen, hget, List.take_succ_cons, cacheFullLoop]
          by_cases hnull : (p.blocks b).isNull = true
          · have hskip : (p.toBlockPool l).cacheFullBlock blocks blockHashes blockSize lo = .ok (p.toBlockPool l) := by
              have hnull' : ((p.toBlockPool l).blocks b).isNull = true := hnull
              rw [BlockPool.cacheFullBlock, hlo]
              cases blockHashes[lo]? with
              | none => exact if_pos hnull'
              | some key => exact if_pos hnull'
            rw [if_pos (Or.inl hnull), hskip]
            exact ih (lo + 1) hp hs hblocks
          · have hnull := Bool.eq_false_iff.mpr hnull
            rw [if_neg (by simp [hnull])]
            refine Matches.bind (cacheFullBlock_matches hp.toEntries hs ⟨hblocks b hb, hp.toRefs.ne_zero hnull⟩ hnull
              hlo blockHashes blockSize) ?_
            intro q hentries hsame hsingle
            exact ih (lo + 1) (hp.of_keys hentries hsame) hsingle (by rw [hsame.numGpuBlocks]; exact hblocks)

theorem cacheFullBlocks_matches (hp : p.Inv l) (hs : p.Single) {blocks : List Nat}
    (hblocks : ∀ b ∈ blocks, b < p.numGpuBlocks) (blockHashes : List BlockHash)
    (numCachedBlocks numFullBlocks blockSize : Nat) :
    p.Matches l (p.cacheFullBlocks blocks blockHashes numCachedBlocks numFullBlocks blockSize none)
      ((p.toBlockPool l).cacheFullBlocks blocks blockHashes numCachedBlocks numFullBlocks blockSize) := by
  rw [cacheFullBlocks, BlockPool.cacheFullBlocks]
  by_cases hle : numFullBlocks ≤ numCachedBlocks
  · rw [if_pos hle, Nat.sub_eq_zero_of_le hle]
    exact Or.inr ⟨p, rfl, rfl, hp.toEntries, .refl p, hs⟩
  · rw [if_neg hle]
    dsimp only
    rw [List.drop_take]
    exact cacheFullLoop_matches (numFullBlocks - numCachedBlocks) numCachedBlocks hp hs hblocks

theorem evictBlocks_matches : ∀ (blockIds : List Nat) {p : LinkedBlockPool}, p.Entries → p.Single →
    p.Matches l (p.evictBlocks blockIds) ((p.toBlockPool l).evictBlocks blockIds) := by
  intro blockIds
  induction blockIds with
  | nil => exact fun {p} hp hs => Or.inr ⟨p, rfl, rfl, hp, .refl p, hs⟩
  | cons b blockIds ih =>
      intro p hp hs
      rw [evictBlocks, BlockPool.evictBlocks, List.foldlM_cons, List.foldlM_cons]
      refine Matches.bind ?_ fun q hentries _ hsingle => ih hentries hsingle
      by_cases hb : b < p.numGpuBlocks
      · refine Or.inr ⟨p.maybeEvictCachedBlock b, if_pos hb, ?_, removeCachedBlockHashes_entries hp b,
          removeCachedBlockHashes_same hp b, removeCachedBlockHashes_single hp hs⟩
        have hpool : (p.maybeEvictCachedBlock b).toBlockPool l = (p.toBlockPool l).removeCachedBlockHashes b :=
          removeCachedBlockHashes_abs hp hs
        rw [hpool]
        exact if_pos hb
      · exact .of_error (if_neg hb) (if_neg hb)

theorem resetPrefixCache_abs (hp : p.Inv l) (hs : p.Single) :
    p.resetPrefixCache.1 = (p.toBlockPool l).resetPrefixCache.isSome ∧ p.resetPrefixCache.2.Single ∧
      p.resetPrefixCache.2.toBlockPool l = ((p.toBlockPool l).resetPrefixCache).getD (p.toBlockPool l) := by
  have hfree : p.getNumFreeBlocks = l.length := hp.queue.size
  have hlist : (p.toBlockPool l).getNumFreeBlocks = l.length := rfl
  have hnum : (p.toBlockPool l).numGpuBlocks = p.numGpuBlocks := rfl
  rw [resetPrefixCache, BlockPool.resetPrefixCache, hfree, hlist, hnum]
  by_cases hused : p.numGpuBlocks - l.length ≠ 1
  · rw [if_pos hused, if_pos hused]
    exact ⟨rfl, hs, rfl⟩
  · rw [if_neg hused, if_neg hused]
    exact ⟨rfl, fun b => rfl, rfl⟩

/-! ### New blocks of the two pools -/

theorem takeNewBlock_abs (hp : p.Entries) (hs : p.Single) (hcaching : p.enableCaching = true)
    (h : p.takeNewBlock b = .ok q) :
    q.Entries ∧ q.Single ∧ q.enableCaching = true ∧ q.toBlockPool l = (p.toBlockPool l).takeNewBlock b := by
  have hsame := removeCachedBlockHashes_same hp b
  have hval := h
  have hevict : (if p.enableCaching = true then p.maybeEvictCachedBlock b else p) = (p.removeCachedBlockHashes b).2 :=
    if_pos hcaching
  rw [takeNewBlock] at hval
  dsimp only at hval
  generalize (if p.enableCaching = true then p.maybeEvictCachedBlock b else p) = r at hval hevict
  subst hevict
  split at hval
  · cases hval
  · next hzero =>
      cases hval
      have hzero' : (p.blocks b).refCnt = 0 := (hsame.refCnt b).symm.trans (not_not.mp hzero)
      obtain ⟨r, hr, hentries, -, hcaching', -⟩ := takeNewBlock_ok hp hzero'
      rw [h] at hr
      cases hr
      refine ⟨hentries, removeCachedBlockHashes_single hp hs, hcaching'.trans hcaching, ?_⟩
      rw [BlockPool.takeNewBlock, ← removeCachedBlockHashes_abs hp hs]
      rfl

theorem takeNewBlocks_abs : ∀ (bs : List Nat) {p q : LinkedBlockPool}, p.Entries → p.Single → p.enableCaching = true →
    bs.foldlM takeNewBlock p = .ok q →
    q.Single ∧ q.toBlockPool l = bs.foldl BlockPool.takeNewBlock (p.toBlockPool l) := by
  intro bs
  induction bs with
  | nil =>
      intro p q _ hs _ h
      cases h
      exact ⟨hs, rfl⟩
  | cons b bs ih =>
      intro p q hp hs hcaching h
      rw [List.foldlM_cons] at h
      obtain ⟨r, hr, h⟩ := Except.bind_eq_ok.mp h
      obtain ⟨hentries, hsingle, hcaching', hpool⟩ := takeNewBlock_abs (l := l) hp hs hcaching hr
      rw [List.foldl_cons, ← hpool]
      exact ih hentries hsingle hcaching' h

/-- **New blocks** are the same on both pools. -/
theorem getNewBlocks_abs (hp : p.Inv l) (hs : p.Single) (hcaching : p.enableCaching = true) {n : Nat}
    (hn : n ≤ l.length) :
    ∃ q, p.getNewBlocks n = .ok (l.take n, q) ∧ q.Inv (l.drop n) ∧ q.Single ∧ q.numGpuBlocks = p.numGpuBlocks ∧
      q.enableCaching = true ∧ (p.toBlockPool l).getNewBlocks n = .ok (l.take n, q.toBlockPool (l.drop n)) := by
  obtain ⟨q, hq, hinv, hnum, hcaching'⟩ := getNewBlocks_ok hp hn
  obtain ⟨queue, hpop, -⟩ := FreeKVCacheBlockQueue.popleftN_ok hp.queue hn
  let popped : LinkedBlockPool := { p with freeBlockQueue := queue }
  have hpopped : p.SameKeys popped := ⟨rfl, rfl, rfl, rfl, fun _ => rfl, fun _ => rfl, fun _ => rfl⟩
  have hfold : (l.take n).foldlM takeNewBlock popped = .ok q := by
    have h := hq
    have hcount : p.getNumFreeBlocks = l.length := hp.queue.size
    rw [getNewBlocks, if_neg (by omega)] at h
    change (p.freeBlockQueue.popleftN n >>= _) = _ at h
    rw [hpop] at h
    change ((l.take n).foldlM takeNewBlock popped >>= _) = _ at h
    obtain ⟨r, hr, h⟩ := Except.bind_eq_ok.mp h
    cases h
    exact hr
  obtain ⟨hsingle, hpool⟩ := takeNewBlocks_abs (l := l.drop n) (l.take n) (hp.toEntries.of_same hpopped) hs hcaching hfold
  refine ⟨q, hq, hinv, hsingle, hnum, hcaching'.trans hcaching, ?_⟩
  have hzero : ((l.take n).any fun b => (p.blocks b).refCnt != 0) = false := by
    rw [List.any_eq_false]
    intro b hb
    have hfree := ((hp.mem_free b).mp (List.mem_of_mem_take hb)).2.2
    simp [hfree]
  have hcount : ¬(p.toBlockPool l).getNumFreeBlocks < n := Nat.not_lt.mpr hn
  rw [BlockPool.getNewBlocks, if_neg hcount]
  exact (if_neg (Bool.eq_false_iff.mp hzero)).trans (congrArg (fun r => Except.ok (l.take n, r)) hpool.symm)

theorem getNewBlocks_abs_error (hp : p.Inv l) {n : Nat} (hn : l.length < n) :
    ∃ e, p.getNewBlocks n = .error e ∧ (p.toBlockPool l).getNewBlocks n = .error e :=
  ⟨_, getNewBlocks_error hp hn, if_pos hn⟩

/-! ### Calls and runs -/

/-- What the refinement needs of a linked pool. -/
structure Refining (p : LinkedBlockPool) (l : List Nat) : Prop extends Inv p l where
  single : p.Single
  caching : p.enableCaching = true

theorem Refining.of_keys (hp : p.Refining l) (hentries : q.Entries) (hsame : p.SameRefs q) (hs : q.Single) :
    q.Refining l :=
  ⟨hp.toInv.of_keys hentries hsame, hs, hsame.enableCaching.trans hp.caching⟩

/-- **One call** on the two pools. -/
theorem call_abs (hp : p.Refining l) {c : PoolCall} (hc : c.Valid p.numGpuBlocks p.blocks) :
    (∃ e, p.call c = .error e ∧ (p.toBlockPool l).call c = .error e) ∨
      ∃ r q l', p.call c = .ok (r, q) ∧ (p.toBlockPool l).call c = .ok (r, q.toBlockPool l') ∧ q.Refining l' := by
  have hkeys : ∀ {x : Except PyError LinkedBlockPool} {y : Except PyError BlockPool}, p.Matches l x y →
      (∃ e, x.map (fun q => (PoolResult.done, q)) = .error e ∧ y.map (fun q => (PoolResult.done, q)) = .error e) ∨
        ∃ r q l', x.map (fun q => (PoolResult.done, q)) = .ok (r, q) ∧
          y.map (fun q => (PoolResult.done, q)) = .ok (r, q.toBlockPool l') ∧ q.Refining l' := by
    rintro x y (⟨e, rfl, rfl⟩ | ⟨q, rfl, rfl, hentries, hsame, hs⟩)
    · exact Or.inl ⟨e, rfl, rfl⟩
    · exact Or.inr ⟨.done, q, l, rfl, rfl, hp.of_keys hentries hsame hs⟩
  have hrefs : ∀ {q : LinkedBlockPool} {l' : List Nat}, q.Inv l' → p.SameKeys q →
      q.Refining l' := fun hinv hsame => ⟨hinv, fun b => by
        rw [hsame.byBlock]
        exact hp.single b, hsame.enableCaching.trans hp.caching⟩
  cases c with
  | touch blocks =>
      obtain ⟨q, l', hq, hinv, hsame, hpool⟩ := touch_ok blocks hp.toInv hc
      refine Or.inr ⟨.done, q, l', ?_, ?_, hrefs hinv hsame⟩
      · rw [call, hq]
        rfl
      · rw [hpool]
        rfl
  | freeBlocks orderedBlocks =>
      obtain ⟨q, l', hq, hinv, hsame, hpool⟩ := freeBlocks_ok hp.toInv hc
      refine Or.inr ⟨.done, q, l', ?_, ?_, hrefs hinv hsame⟩
      · rw [call, hq]
        rfl
      · rw [hpool]
        rfl
  | getNewBlocks numBlocks =>
      rcases Nat.lt_or_ge l.length numBlocks with hlt | hle
      · obtain ⟨e, hlinked, hlist⟩ := getNewBlocks_abs_error hp.toInv hlt
        refine Or.inl ⟨e, ?_, ?_⟩
        · rw [call, hlinked]
          rfl
        · rw [BlockPool.call, hlist]
          rfl
      · obtain ⟨q, hq, hinv, hs, -, hcaching, hpool⟩ := getNewBlocks_abs hp.toInv hp.single hp.caching hle
        refine Or.inr ⟨.newBlocks (l.take numBlocks), q, l.drop numBlocks, ?_, ?_, ⟨hinv, hs, hcaching⟩⟩
        · rw [call, hq]
          rfl
        · rw [BlockPool.call, hpool]
          rfl
  | cacheFullBlocks blocks blockHashes numCachedBlocks numFullBlocks blockSize =>
      exact hkeys (cacheFullBlocks_matches hp.toInv hp.single hc blockHashes numCachedBlocks numFullBlocks blockSize)
  | evictBlocks blockIds => exact hkeys (evictBlocks_matches blockIds hp.toEntries hp.single)
  | resetPrefixCache =>
      obtain ⟨hentries, hsame⟩ := resetPrefixCache_entries hp.toEntries
      obtain ⟨hres, hs, hpool⟩ := resetPrefixCache_abs hp.toInv hp.single
      refine Or.inr ⟨.reset p.resetPrefixCache.1, p.resetPrefixCache.2, l, rfl, ?_, hp.of_keys hentries hsame hs⟩
      rw [BlockPool.call, hres, hpool]

theorem run_refines : ∀ (calls : List PoolCall) {p : LinkedBlockPool} {l : List Nat}, p.Refining l →
    BlockPool.validRun calls (p.toBlockPool l) = true →
    (∃ e, run calls p = .error e ∧ BlockPool.run calls (p.toBlockPool l) = .error e) ∨
      ∃ rs q l', run calls p = .ok (rs, q) ∧ BlockPool.run calls (p.toBlockPool l) = .ok (rs, q.toBlockPool l') ∧
        q.Refining l' := by
  intro calls
  induction calls with
  | nil => exact fun {p l} hp _ => Or.inr ⟨[], p, l, rfl, rfl, hp⟩
  | cons c calls ih =>
      intro p l hp hv
      rw [BlockPool.validRun, Bool.and_eq_true, decide_eq_true_iff] at hv
      obtain ⟨hc, hrest⟩ := hv
      rw [run, BlockPool.run]
      rcases call_abs hp hc with ⟨e, hlinked, hlist⟩ | ⟨r, q, l', hlinked, hlist, hq⟩
      · rw [hlinked, hlist]
        exact Or.inl ⟨e, rfl, rfl⟩
      · rw [hlist] at hrest
        rw [hlinked, hlist]
        change (∃ e, (run calls q >>= _) = .error e ∧ (BlockPool.run calls (q.toBlockPool l') >>= _) = .error e) ∨
          ∃ (rs : List PoolResult) (s : LinkedBlockPool) (l'' : List Nat), (run calls q >>= _) = .ok (rs, s) ∧
            (BlockPool.run calls (q.toBlockPool l') >>= _) = .ok (rs, s.toBlockPool l'') ∧ s.Refining l''
        rcases ih hq hrest with ⟨e, hlinked', hlist'⟩ | ⟨rs, s, l'', hlinked', hlist', hs⟩
        · rw [hlinked', hlist']
          exact Or.inl ⟨e, rfl, rfl⟩
        · rw [hlinked', hlist']
          exact Or.inr ⟨r :: rs, s, l'', rfl, rfl, hs⟩

/-- **The linked pool refines the pool of lists**, with caching on, over any run of valid calls. -/
theorem run_abs {numGpuBlocks hashBlockSize : Nat} {p : LinkedBlockPool}
    (hinit : init numGpuBlocks true hashBlockSize = .ok p) (calls : List PoolCall)
    (hvalid : BlockPool.validRun calls (BlockPool.init numGpuBlocks) = true) :
    BlockPool.run calls (BlockPool.init numGpuBlocks) = (run calls p).map fun r => (r.1, r.2.abs) := by
  have hn : 0 < numGpuBlocks := by
    rcases Nat.eq_zero_or_pos numGpuBlocks with hzero | hpos
    · rw [hzero] at hinit
      cases hinit
    · exact hpos
  obtain ⟨q, hq, hnum, hcaching, hblocks, hmap, hby, hinv⟩ := @init_inv numGpuBlocks hashBlockSize true hn
  rw [hinit] at hq
  cases hq
  have hpool : p.toBlockPool (List.range numGpuBlocks).tail = BlockPool.init numGpuBlocks := by
    rw [toBlockPool, hnum, hblocks, hmap]
    rfl
  rw [← hpool] at hvalid ⊢
  rcases run_refines calls ⟨hinv, fun b => congrFun hby b, hcaching⟩ hvalid with
    ⟨e, hlinked, hlist⟩ | ⟨rs, q, l', hlinked, hlist, hq⟩
  · rw [hlinked, hlist]
    rfl
  · rw [hlinked, hlist, ← hq.abs_eq]
    rfl

/-- Two blocks are taken, cached and freed, and one of them is taken again. -/
theorem cachedBlock_run_abs : ∃ p, init 4 true 2 = .ok p ∧
    BlockPool.run [.getNewBlocks 2, .cacheFullBlocks [1, 2] [[([5, 6], [])], [([5, 6], []), ([7, 8], [])]] 0 2 2,
        .freeBlocks [2, 1], .touch [1], .getNewBlocks 1] (BlockPool.init 4)
      = (run [.getNewBlocks 2, .cacheFullBlocks [1, 2] [[([5, 6], [])], [([5, 6], []), ([7, 8], [])]] 0 2 2,
        .freeBlocks [2, 1], .touch [1], .getNewBlocks 1] p).map fun r => (r.1, r.2.abs) :=
  ⟨_, rfl, run_abs rfl _ (by decide)⟩

end LinkedBlockPool

/-! ### All calls of the linked pool -/

/-- The calls of both pools, and those of cache groups with larger blocks. -/
inductive LinkedCall
  | pool (call : PoolCall)
  | cacheMaskedBlocks (blocks : List Nat) (blockHashes : List BlockHash)
      (numCachedBlocks numFullBlocks blockSize : Nat) (blockMask : List Bool)
  | cachePartialBlock (blockHashes : List BlockHash) (b numTokens blockSize : Nat)
  | moveBlockHashes (src dst : Nat)

/-- As `PoolCall.Valid`; keys are moved to a block of the caller. -/
def LinkedCall.Valid (numGpuBlocks : Nat) (block : Nat → KVCacheBlock) : LinkedCall → Prop
  | pool call => call.Valid numGpuBlocks block
  | cacheMaskedBlocks blocks _ _ _ _ _ => ∀ b ∈ blocks, b < numGpuBlocks
  | cachePartialBlock _ b _ _ => b < numGpuBlocks
  | moveBlockHashes _ dst => dst < numGpuBlocks ∧ dst ≠ 0

namespace LinkedBlockPool

def linkedCall (p : LinkedBlockPool) : LinkedCall → Except PyError (PoolResult × LinkedBlockPool)
  | .pool c => p.call c
  | .cacheMaskedBlocks blocks blockHashes numCachedBlocks numFullBlocks blockSize blockMask =>
      (p.cacheFullBlocks blocks blockHashes numCachedBlocks numFullBlocks blockSize (some blockMask)).map
        fun q => (.done, q)
  | .cachePartialBlock blockHashes b numTokens blockSize =>
      (p.cachePartialBlock blockHashes b numTokens blockSize).map fun r => (.partialHash r.1, r.2)
  | .moveBlockHashes src dst => (p.moveBlockHashes src dst).map fun q => (.done, q)

variable {p q : LinkedBlockPool} {l : List Nat} {numGpuBlocks hashBlockSize : Nat} {enableCaching : Bool}

/-- **Every valid call keeps the invariant.** -/
theorem linkedCall_inv (hp : p.Inv l) {c : LinkedCall} (hc : c.Valid p.numGpuBlocks p.blocks) {r : PoolResult}
    (h : p.linkedCall c = .ok (r, q)) : ∃ l', q.Inv l' ∧ q.numGpuBlocks = p.numGpuBlocks := by
  have hkeys : q.Entries ∧ p.SameRefs q → ∃ l', q.Inv l' ∧ q.numGpuBlocks = p.numGpuBlocks :=
    fun hq => ⟨l, hp.of_keys hq.1 hq.2, hq.2.numGpuBlocks⟩
  cases c with
  | pool c =>
      cases c with
      | touch blocks =>
          obtain ⟨s, l', hs, hinv, hsame, -⟩ := touch_ok blocks hp hc
          rw [linkedCall, call, hs] at h
          cases h
          exact ⟨l', hinv, hsame.numGpuBlocks⟩
      | freeBlocks orderedBlocks =>
          obtain ⟨s, l', hs, hinv, hsame, -⟩ := freeBlocks_ok hp hc
          rw [linkedCall, call, hs] at h
          cases h
          exact ⟨l', hinv, hsame.numGpuBlocks⟩
      | getNewBlocks numBlocks =>
          rcases Nat.lt_or_ge l.length numBlocks with hlt | hle
          · rw [linkedCall, call, getNewBlocks_error hp hlt] at h
            cases h
          · obtain ⟨s, hs, hinv, hnum, -⟩ := getNewBlocks_ok hp hle
            rw [linkedCall, call, hs] at h
            cases h
            exact ⟨_, hinv, hnum⟩
      | cacheFullBlocks blocks blockHashes numCachedBlocks numFullBlocks blockSize =>
          obtain ⟨s, hs, heq⟩ := Except.map_eq_ok.mp h
          cases heq
          exact hkeys (cacheFullBlocks_entries hp hc hs)
      | evictBlocks blockIds =>
          obtain ⟨s, hs, heq⟩ := Except.map_eq_ok.mp h
          cases heq
          exact hkeys (evictBlocks_entries hp.toEntries hs)
      | resetPrefixCache =>
          cases h
          exact hkeys (resetPrefixCache_entries hp.toEntries)
  | cacheMaskedBlocks blocks blockHashes numCachedBlocks numFullBlocks blockSize blockMask =>
      obtain ⟨s, hs, heq⟩ := Except.map_eq_ok.mp h
      cases heq
      exact hkeys (cacheFullBlocks_entries hp hc hs)
  | cachePartialBlock blockHashes b numTokens blockSize =>
      obtain ⟨⟨key, s⟩, hs, heq⟩ := Except.map_eq_ok.mp h
      cases heq
      exact hkeys (cachePartialBlock_entries hp hc hs)
  | moveBlockHashes src dst =>
      obtain ⟨s, hs, heq⟩ := Except.map_eq_ok.mp h
      cases heq
      exact hkeys (moveBlockHashes_entries hp.toEntries hc hs)

/-- The pool after a call that does not raise. -/
def linkedStep (p : LinkedBlockPool) (c : LinkedCall) : Option LinkedBlockPool :=
  (p.linkedCall c).toOption.map Prod.snd

theorem linkedStep_eq_some {c : LinkedCall} : p.linkedStep c = some q ↔ ∃ r, p.linkedCall c = .ok (r, q) := by
  rw [linkedStep]
  cases p.linkedCall c with
  | error e =>
      constructor
      · intro h
        cases h
      · rintro ⟨r, h⟩
        cases h
  | ok x =>
      obtain ⟨r, p'⟩ := x
      constructor
      · intro h
        cases h
        exact ⟨r, rfl⟩
      · rintro ⟨r', h⟩
        cases h
        rfl

/-- The pools that valid calls reach from a new one. -/
def Reachable (numGpuBlocks : Nat) (enableCaching : Bool) (hashBlockSize : Nat) (p : LinkedBlockPool) : Prop :=
  ∃ p₀, init numGpuBlocks enableCaching hashBlockSize = .ok p₀ ∧
    ReachableWhen linkedStep (fun p c => c.Valid p.numGpuBlocks p.blocks) p₀ p

theorem init_reachable (h : init numGpuBlocks enableCaching hashBlockSize = .ok p) :
    Reachable numGpuBlocks enableCaching hashBlockSize p :=
  ⟨p, h, .refl _ _ _⟩

theorem Reachable.step (h : Reachable numGpuBlocks enableCaching hashBlockSize p) {c : LinkedCall} {r : PoolResult}
    (hc : c.Valid p.numGpuBlocks p.blocks) (hcall : p.linkedCall c = .ok (r, q)) :
    Reachable numGpuBlocks enableCaching hashBlockSize q := by
  obtain ⟨p₀, hinit, hreach⟩ := h
  exact ⟨p₀, hinit, hreach.tail hc (linkedStep_eq_some.mpr ⟨r, hcall⟩)⟩

theorem Reachable.inv (h : Reachable numGpuBlocks enableCaching hashBlockSize p) :
    ∃ l, p.Inv l ∧ p.numGpuBlocks = numGpuBlocks := by
  obtain ⟨p₀, hinit, hreach⟩ := h
  refine ReachableWhen.invariant (fun p => ∃ l, p.Inv l ∧ p.numGpuBlocks = numGpuBlocks) ?_ ?_ p hreach
  · have hn : 0 < numGpuBlocks := by
      rcases Nat.eq_zero_or_pos numGpuBlocks with hzero | hpos
      · rw [hzero] at hinit
        cases hinit
      · exact hpos
    obtain ⟨q, hq, hnum, -, -, -, -, hinv⟩ := @init_inv numGpuBlocks hashBlockSize enableCaching hn
    rw [hinit] at hq
    cases hq
    exact ⟨_, hinv, hnum⟩
  · rintro p c q ⟨l, hinv, hnum⟩ hc hstep
    obtain ⟨r, hcall⟩ := linkedStep_eq_some.mp hstep
    obtain ⟨l', hinv', hnum'⟩ := linkedCall_inv hinv hc hcall
    exact ⟨l', hinv', hnum'.trans hnum⟩

/-- **The pool stays consistent** in every run of valid calls.  Walking the queue gives each unreferenced block once;
the map has exactly the keys of each block; references are taken and dropped without an error, and new blocks are
refused only when there are too few. -/
theorem reachable_consistent (h : Reachable numGpuBlocks enableCaching hashBlockSize p) :
    ∃ l : List Nat,
      p.freeBlockQueue.getAllFreeBlocks (numGpuBlocks + 1) = .ok (some (l.map block)) ∧ l.Nodup ∧
      p.getNumFreeBlocks = l.length ∧
      (∀ b, b ∈ l ↔ b < numGpuBlocks ∧ b ≠ 0 ∧ (p.blocks b).refCnt = 0) ∧
      (∀ b ∉ l, p.freeBlockQueue.links.prev (block b) = none ∧ p.freeBlockQueue.links.next (block b) = none) ∧
      (∀ key b, p.cachedBlockHashToBlock.contain key b = true ↔ key ∈ p.keysOf b) ∧
      (∀ key, p.cachedBlockHashToBlock.getOneBlock key = none ↔ ∀ b, key ∉ p.keysOf b) ∧
      (∀ key b, p.cachedBlockHashToBlock.getOneBlock key = some b →
        key ∈ p.keysOf b ∧ b < numGpuBlocks ∧ b ≠ 0) ∧
      (∀ bs, (PoolCall.touch bs).Valid numGpuBlocks p.blocks → ∃ q, p.touch bs = .ok q) ∧
      (∀ bs, (PoolCall.freeBlocks bs).Valid numGpuBlocks p.blocks → ∃ q, p.freeBlocks bs = .ok q) ∧
      (∀ n ≤ l.length, ∃ q, p.getNewBlocks n = .ok (l.take n, q)) ∧
      ∀ n, l.length < n →
        p.getNewBlocks n = .error (.valueError s!"Cannot get {n} free blocks from the pool") := by
  obtain ⟨l, hp, rfl⟩ := h.inv
  have hone : ∀ key, p.cachedBlockHashToBlock.getOneBlock key = none ↔ ∀ b, key ∉ p.keysOf b := by
    intro key
    rw [BlockHashToBlockMap.getOneBlock_eq, List.head?_eq_none_iff, List.eq_nil_iff_forall_not_mem]
    exact forall_congr' fun b => not_congr (hp.mem_blocksOf key b)
  refine ⟨l, hp.getAllFreeBlocks, hp.queue.nodup, hp.queue.size, hp.mem_free, hp.queue.outside, ?_, hone, ?_, ?_, ?_,
    ?_, fun n hn => getNewBlocks_error hp hn⟩
  · intro key b
    rw [BlockHashToBlockMap.contain_iff, hp.mem_blocksOf]
  · intro key b hb
    rw [BlockHashToBlockMap.getOneBlock_eq] at hb
    have hkey := (hp.mem_blocksOf key b).mp (List.mem_of_mem_head? hb)
    exact ⟨hkey, hp.owner b (List.ne_nil_of_mem hkey)⟩
  · intro bs hbs
    obtain ⟨q, -, hq, -⟩ := touch_ok bs hp hbs
    exact ⟨q, hq⟩
  · intro bs hbs
    obtain ⟨q, -, hq, -⟩ := freeBlocks_ok hp hbs
    exact ⟨q, hq⟩
  · intro n hn
    obtain ⟨q, hq, -⟩ := getNewBlocks_ok hp hn
    exact ⟨q, hq⟩

/-- A block that has just been taken gets a key for a prefix that ends inside it. -/
theorem partialBlock_consistent : ∃ p, Reachable 3 true 2 p ∧
    p.cachedBlockHashToBlock.getOneBlock [([5, 6], [])] = some 1 ∧
    ∃ l : List Nat, p.freeBlockQueue.getAllFreeBlocks 4 = .ok (some (l.map block)) ∧ p.getNumFreeBlocks = l.length := by
  have hnew := init_reachable (rfl : init 3 true 2 = .ok _)
  have htaken := hnew.step (c := .pool (.getNewBlocks 1)) trivial rfl
  have hreach := htaken.step (c := .cachePartialBlock [[([5, 6], [])]] 1 2 4) (show 1 < 3 by decide) rfl
  obtain ⟨l, hwalk, -, hcount, -⟩ := reachable_consistent hreach
  exact ⟨_, hreach, rfl, l, hwalk, hcount⟩

end LinkedBlockPool

end CacheSelect.Core

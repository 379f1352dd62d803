import CacheSelect.Core.LinkedPool

/-! # Runs of the linked pool

The operations of the pool keep its invariant, and those on references say what becomes of the list of free blocks:
they do to it what `BlockPool` does to its list (`toBlockPool`).
-/

namespace CacheSelect.Core

open FreeListNode (block)

/-- The blocks that the loop collects, when null blocks are among those it is given. -/
theorem BlockPool.mem_freeLoop (bs : List Nat) : ∀ p : BlockPool,
    (∀ b ∈ bs, (p.blocks b).isNull = false → (bs.count b : Int) ≤ (p.blocks b).refCnt) →
    ((p.freeLoop bs).2.2 ++ (p.freeLoop bs).2.1).Nodup ∧
    ∀ b, b ∈ (p.freeLoop bs).2.2 ++ (p.freeLoop bs).2.1 ↔
      b ∈ bs ∧ (p.blocks b).isNull = false ∧ (p.blocks b).refCnt = (bs.count b : Nat) := by
  induction bs with
  | nil => exact fun p _ => ⟨List.nodup_nil, fun b => by simp [freeLoop]⟩
  | cons b bs ih =>
      intro p hcount
      have hnull : ∀ x, ((p.decRef b).blocks x).isNull = (p.blocks x).isNull := fun x => by
        rw [decRef_blocks]
      have href : ∀ x, ((p.decRef b).blocks x).refCnt = (p.blocks x).refCnt - if x = b then 1 else 0 := fun x => by
        rw [decRef_blocks]
      have hcons : ∀ x, ((b :: bs).count x : Int) = (bs.count x : Int) + if x = b then 1 else 0 := by
        intro x
        rw [List.count_cons]
        by_cases hx : x = b
        · simp [hx]
        · simp [hx, Ne.symm hx]
      have hcount' : ∀ x ∈ bs, ((p.decRef b).blocks x).isNull = false →
          (bs.count x : Int) ≤ ((p.decRef b).blocks x).refCnt := by
        intro x hx hxnull
        have h := hcount x (List.mem_cons_of_mem b hx) ((hnull x).symm.trans hxnull)
        rw [hcons] at h
        rw [href]
        omega
      obtain ⟨hnodup, hmem⟩ := ih (p.decRef b) hcount'
      -- a block is freed by the rest, or it is the first one and this was its last reference
      have hiff : ∀ x, (x ∈ b :: bs ∧ (p.blocks x).isNull = false ∧ (p.blocks x).refCnt = ((b :: bs).count x : Nat)) ↔
          x ∈ (((p.decRef b).freeLoop bs).2.2 ++ ((p.decRef b).freeLoop bs).2.1) ∨
            x = b ∧ (((p.decRef b).blocks b).refCnt = 0 ∧ ((p.decRef b).blocks b).isNull = false) := by
        intro x
        rw [hmem, hnull, href, hnull, href, hcons, List.mem_cons]
        by_cases hx : x = b
        · subst hx
          have hpos : x ∈ bs ↔ 0 < bs.count x := List.count_pos_iff.symm
          by_cases hxnull : (p.blocks x).isNull = false
          · have hb := hcount x List.mem_cons_self hxnull
            rw [hcons, if_pos rfl] at hb
            simp only [true_or, true_and, hxnull, if_true, and_true, hpos]
            omega
          · simp [hxnull]
        · simp [hx]
      have hfresh : ((p.decRef b).blocks b).refCnt = 0 →
          b ∉ (((p.decRef b).freeLoop bs).2.2 ++ ((p.decRef b).freeLoop bs).2.1) := by
        intro hzero hin
        obtain ⟨hb, -, hlast⟩ := (hmem b).mp hin
        have hpos := List.count_pos_iff.mpr hb
        omega
      rw [freeLoop]
      dsimp only
      split
      · next hlast =>
          split
          · refine ⟨List.nodup_cons.mpr ⟨hfresh hlast.1, hnodup⟩, ?_⟩
            intro x
            rw [hiff, List.cons_append, List.mem_cons]
            simp only [hlast, and_self, and_true]
            exact or_comm
          · refine ⟨List.nodup_middle.mpr (List.nodup_cons.mpr ⟨hfresh hlast.1, hnodup⟩), ?_⟩
            intro x
            rw [hiff, List.mem_append, List.mem_cons, List.mem_append]
            simp only [hlast, and_self, and_true]
            exact or_left_comm.trans or_comm
      · next hlast =>
          refine ⟨hnodup, ?_⟩
          intro x
          rw [hiff]
          simp only [hlast, and_false, or_false]

namespace LinkedBlockPool

variable {p q : LinkedBlockPool} {l : List Nat} {b : Nat}

/-- The pool with its free blocks and its keys as lists. -/
def toBlockPool (p : LinkedBlockPool) (l : List Nat) : BlockPool where
  numGpuBlocks := p.numGpuBlocks
  blocks := p.blocks
  freeBlockQueue := l
  cachedBlockHashToBlock := p.cachedBlockHashToBlock.blocksOf

theorem Inv.of_keys (hp : p.Inv l) (hq : q.Entries) (h : p.SameRefs q) : q.Inv l :=
  ⟨hq, hp.toRefs.of_same h⟩

/-! ### `touch` -/

theorem touchBlock_ok (hp : p.Inv l) (hb : b < p.numGpuBlocks) :
    ∃ q l', p.touchBlock b = .ok q ∧ q.Inv l' ∧ p.SameKeys q ∧ q.toBlockPool l' = (p.toBlockPool l).touchBlock b := by
  let blk := { p.blocks b with refCnt := (p.blocks b).refCnt + 1 }
  have hfields : ∀ c, (Function.update p.blocks b blk c).blockHash = (p.blocks c).blockHash ∧
      (Function.update p.blocks b blk c).blockHashNumTokens = (p.blocks c).blockHashNumTokens ∧
      (Function.update p.blocks b blk c).isNull = (p.blocks c).isNull ∧
      (Function.update p.blocks b blk c).refCnt = (p.blocks c).refCnt + if c = b then 1 else 0 := by
    intro c
    by_cases hc : c = b
    · rw [hc, Function.update_self, if_pos rfl]
      exact ⟨rfl, rfl, rfl, rfl⟩
    · rw [Function.update_of_ne hc, if_neg hc, Int.add_zero]
      exact ⟨rfl, rfl, rfl, rfl⟩
  have hmain : ∀ queue l', queue.Represents l' → (∀ c, c ∈ l' ↔ c ∈ l ∧ c ≠ b) →
      Inv { p.setBlock b blk with freeBlockQueue := queue } l' ∧
        p.SameKeys { p.setBlock b blk with freeBlockQueue := queue } := by
    intro queue l' hqueue hmem
    have hkeys : p.SameKeys { p.setBlock b blk with freeBlockQueue := queue } :=
      ⟨rfl, rfl, rfl, rfl, fun c => (hfields c).1, fun c => (hfields c).2.1, fun c => (hfields c).2.2.1⟩
    refine ⟨⟨hp.toEntries.of_same hkeys, hqueue, ?_, ?_, ?_⟩, hkeys⟩
    · intro c
      change c ∈ l' ↔ c < p.numGpuBlocks ∧ c ≠ 0 ∧ (Function.update p.blocks b blk c).refCnt = 0
      rw [hmem, (hfields c).2.2.2, hp.mem_free]
      by_cases hc : c = b
      · subst hc
        have hnonneg := hp.refCnt_nonneg c
        rw [if_pos rfl]
        constructor
        · intro h
          exact absurd rfl h.2
        · rintro ⟨-, hne, href⟩
          have := hnonneg hne
          omega
      · simp only [hc, if_false, Int.add_zero, ne_eq, not_false_eq_true, and_true]
    · intro c
      change (Function.update p.blocks b blk c).isNull = true ↔ c = 0
      rw [(hfields c).2.2.1]
      exact hp.isNull_iff c
    · intro c hc
      change 0 ≤ (Function.update p.blocks b blk c).refCnt
      rw [(hfields c).2.2.2]
      have := hp.refCnt_nonneg c hc
      split <;> omega
  rw [touchBlock]
  by_cases hfree : (p.blocks b).refCnt = 0 ∧ (p.blocks b).isNull = false
  · have hne := hp.toRefs.ne_zero hfree.2
    have hmem : b ∈ l := (hp.mem_free b).mpr ⟨hb, hne, hfree.1⟩
    obtain ⟨queue, hremove, hrep⟩ := FreeKVCacheBlockQueue.remove_ok hp.queue hmem
    obtain ⟨hinv, hkeys⟩ := hmain queue (l.erase b) hrep fun c => by
      rw [hp.queue.nodup.mem_erase_iff, and_comm]
    refine ⟨_, l.erase b, ?_, hinv, hkeys, ?_⟩
    · rw [if_pos hfree, hremove]
      rfl
    · have hqueue : ((p.toBlockPool l).touchBlock b).freeBlockQueue = l.erase b := if_pos hfree
      rw [toBlockPool, ← hqueue]
      rfl
  · have hnot : b ∉ l := by
      intro hmem
      obtain ⟨-, hne, hzero⟩ := (hp.mem_free b).mp hmem
      exact hfree ⟨hzero, hp.toRefs.isNull_eq_false hne⟩
    have hstay : ∀ c, c ∈ l ↔ c ∈ l ∧ c ≠ b := fun c => ⟨fun h => ⟨h, fun heq => hnot (heq ▸ h)⟩, fun h => h.1⟩
    obtain ⟨hinv, hkeys⟩ := hmain p.freeBlockQueue l hp.queue hstay
    refine ⟨_, l, ?_, hinv, hkeys, ?_⟩
    · rw [if_neg hfree]
      rfl
    · have hqueue : ((p.toBlockPool l).touchBlock b).freeBlockQueue = l := if_neg hfree
      rw [toBlockPool]
      nth_rewrite 1 [← hqueue]
      rfl

/-- **Taking references** succeeds. -/
theorem touch_ok : ∀ (bs : List Nat) {p : LinkedBlockPool} {l : List Nat}, p.Inv l → (∀ b ∈ bs, b < p.numGpuBlocks) →
    ∃ q l', p.touch bs = .ok q ∧ q.Inv l' ∧ p.SameKeys q ∧ q.toBlockPool l' = (p.toBlockPool l).touch bs := by
  intro bs
  induction bs with
  | nil => exact fun {p l} hp _ => ⟨p, l, rfl, hp, .refl p, rfl⟩
  | cons b bs ih =>
      intro p l hp hbs
      obtain ⟨q, l', hq, hinv, hkeys, hpool⟩ := touchBlock_ok hp (hbs b List.mem_cons_self)
      obtain ⟨r, l'', hr, hinv', hkeys', hpool'⟩ := ih hinv fun c hc => by
        rw [hkeys.numGpuBlocks]
        exact hbs c (List.mem_cons_of_mem b hc)
      refine ⟨r, l'', ?_, hinv', hkeys.trans hkeys', ?_⟩
      · rw [touch, List.foldlM_cons, hq]
        exact hr
      · rw [hpool', hpool]
        rfl

/-! ### `free_blocks` -/

theorem decRef_same (p : LinkedBlockPool) (b : Nat) : p.SameKeys (p.decRef b) := by
  have hblock : ∀ c, (p.decRef b).blocks c
      = { p.blocks c with refCnt := (p.blocks c).refCnt - if c = b then 1 else 0 } := by
    intro c
    change Function.update p.blocks b _ c = _
    by_cases hc : c = b
    · rw [hc, Function.update_self, if_pos rfl]
    · rw [Function.update_of_ne hc, if_neg hc, Int.sub_zero]
  exact ⟨rfl, rfl, rfl, rfl, fun c => by rw [hblock], fun c => by rw [hblock], fun c => by rw [hblock]⟩

/-- The loop is that of the list pool. -/
theorem freeLoop_toBlockPool : ∀ (bs : List Nat) (p : LinkedBlockPool) (l : List Nat),
    (freeLoop bs p).2 = ((p.toBlockPool l).freeLoop bs).2 ∧
    (freeLoop bs p).1.toBlockPool l = ((p.toBlockPool l).freeLoop bs).1 ∧
    p.SameKeys (freeLoop bs p).1 ∧ (freeLoop bs p).1.freeBlockQueue = p.freeBlockQueue := by
  intro bs
  induction bs with
  | nil => exact fun p l => ⟨rfl, rfl, .refl p, rfl⟩
  | cons b bs ih =>
      intro p l
      obtain ⟨hfreed, hpool, hkeys, hqueue⟩ := ih (p.decRef b) l
      have hkeys := (decRef_same p b).trans hkeys
      by_cases hlast : ((p.decRef b).blocks b).refCnt = 0 ∧ ((p.decRef b).blocks b).isNull = false
      · by_cases hnone : ((p.decRef b).blocks b).blockHash = none
        · have hlinked : freeLoop (b :: bs) p = ((freeLoop bs (p.decRef b)).1, (freeLoop bs (p.decRef b)).2.1,
              b :: (freeLoop bs (p.decRef b)).2.2) := (if_pos hlast).trans (if_pos hnone)
          have hlist : (p.toBlockPool l).freeLoop (b :: bs) = ((((p.decRef b).toBlockPool l).freeLoop bs).1,
              (((p.decRef b).toBlockPool l).freeLoop bs).2.1, b :: (((p.decRef b).toBlockPool l).freeLoop bs).2.2) :=
            (if_pos hlast).trans (if_pos hnone)
          rw [hlinked, hlist, ← hfreed]
          exact ⟨rfl, hpool, hkeys, hqueue⟩
        · have hlinked : freeLoop (b :: bs) p = ((freeLoop bs (p.decRef b)).1, b :: (freeLoop bs (p.decRef b)).2.1,
              (freeLoop bs (p.decRef b)).2.2) := (if_pos hlast).trans (if_neg hnone)
          have hlist : (p.toBlockPool l).freeLoop (b :: bs) = ((((p.decRef b).toBlockPool l).freeLoop bs).1,
              b :: (((p.decRef b).toBlockPool l).freeLoop bs).2.1, (((p.decRef b).toBlockPool l).freeLoop bs).2.2) :=
            (if_pos hlast).trans (if_neg hnone)
          rw [hlinked, hlist, ← hfreed]
          exact ⟨rfl, hpool, hkeys, hqueue⟩
      · have hlinked : freeLoop (b :: bs) p = freeLoop bs (p.decRef b) := if_neg hlast
        have hlist : (p.toBlockPool l).freeLoop (b :: bs) = ((p.decRef b).toBlockPool l).freeLoop bs := if_neg hlast
        rw [hlinked, hlist]
        exact ⟨hfreed, hpool, hkeys, hqueue⟩

/-- **Dropping references** that are held succeeds. -/
theorem freeBlocks_ok (hp : p.Inv l) {bs : List Nat}
    (hbs : ∀ b ∈ bs, b < p.numGpuBlocks ∧ (b ≠ 0 → (bs.count b : Int) ≤ (p.blocks b).refCnt)) :
    ∃ q l', p.freeBlocks bs = .ok q ∧ q.Inv l' ∧ p.SameKeys q ∧
      q.toBlockPool l' = (p.toBlockPool l).freeBlocks bs := by
  obtain ⟨hfreed, hpool, hkeys, hqueue⟩ := freeLoop_toBlockPool bs p l
  obtain ⟨hnodup, hmem⟩ := BlockPool.mem_freeLoop bs (p.toBlockPool l) fun b hb hnull =>
    (hbs b hb).2 (hp.toRefs.ne_zero hnull)
  rw [← hfreed] at hnodup hmem
  have hcount : ∀ b, ((freeLoop bs p).1.blocks b).refCnt = (p.blocks b).refCnt - (bs.count b : Nat) := by
    intro b
    have hblocks := BlockPool.freeLoop_blocks bs (p.toBlockPool l) b
    rw [← hpool] at hblocks
    exact congrArg KVCacheBlock.refCnt hblocks
  obtain ⟨hwithout, hwith, hdisjoint⟩ := List.nodup_append.mp hnodup
  -- a block that is freed had a reference, so it is not in the queue
  have hnew : ∀ b ∈ (freeLoop bs p).2.2 ++ (freeLoop bs p).2.1, b ∉ l := by
    intro b hb hl
    obtain ⟨hin, -, hlast⟩ := (hmem b).mp hb
    have hzero := ((hp.mem_free b).mp hl).2.2
    have hpos := List.count_pos_iff.mpr hin
    have hlast' : (p.blocks b).refCnt = (bs.count b : Nat) := hlast
    omega
  have hrep : (freeLoop bs p).1.freeBlockQueue.Represents l := by
    rw [hqueue]
    exact hp.queue
  obtain ⟨queue, hprepend, hrep⟩ := FreeKVCacheBlockQueue.prependN_ok hrep hwithout fun b hb =>
    hnew b (List.mem_append_left _ hb)
  obtain ⟨queue', happend, hrep⟩ := FreeKVCacheBlockQueue.appendN_ok hrep hwith fun b hb hin => by
    rcases List.mem_append.mp hin with hin | hin
    · exact hdisjoint b hin b hb rfl
    · exact hnew b (List.mem_append_right _ hb) hin
  let q : LinkedBlockPool := { (freeLoop bs p).1 with freeBlockQueue := queue' }
  let l' := (freeLoop bs p).2.2 ++ l ++ (freeLoop bs p).2.1
  have hkeys' : p.SameKeys q :=
    ⟨hkeys.numGpuBlocks, hkeys.enableCaching, hkeys.map, hkeys.byBlock, hkeys.blockHash, hkeys.blockHashNumTokens,
      hkeys.isNull⟩
  refine ⟨q, l', ?_, ⟨hp.toEntries.of_same hkeys', hrep, ?_, ?_, ?_⟩, hkeys', ?_⟩
  · rw [freeBlocks]
    dsimp only
    rw [hprepend]
    change (queue.appendN (freeLoop bs p).2.1 >>= _) = _
    rw [happend]
    rfl
  · intro b
    have hin : b ∈ l' ↔ b ∈ (freeLoop bs p).2.2 ++ (freeLoop bs p).2.1 ∨ b ∈ l := by
      rw [List.mem_append, List.mem_append, List.mem_append]
      exact or_right_comm
    rw [hin, hmem, hp.mem_free, hkeys'.numGpuBlocks, show (q.blocks b).refCnt = _ from hcount b]
    change b ∈ bs ∧ (p.blocks b).isNull = false ∧ (p.blocks b).refCnt = (bs.count b : Nat) ∨ _ ↔ _
    by_cases hb : b ∈ bs
    · have hpos := List.count_pos_iff.mpr hb
      obtain ⟨hlt, hheld⟩ := hbs b hb
      by_cases hzero : b = 0
      · subst hzero
        have hnull := (hp.isNull_iff 0).mpr rfl
        simp only [hnull, ne_eq, not_true_eq_false, Bool.true_eq_false, false_and, and_false, or_false]
      · have hnull := hp.toRefs.isNull_eq_false hzero
        have := hheld hzero
        constructor
        · rintro (⟨-, -, h⟩ | ⟨-, -, h⟩)
          · exact ⟨hlt, hzero, by omega⟩
          · omega
        · rintro ⟨-, -, h⟩
          exact Or.inl ⟨hb, hnull, by omega⟩
    · rw [List.count_eq_zero.mpr hb]
      simp [hb]
  · intro b
    rw [hkeys'.isNull]
    exact hp.isNull_iff b
  · intro b hb
    rw [show (q.blocks b).refCnt = _ from hcount b]
    by_cases hin : b ∈ bs
    · have := (hbs b hin).2 hb
      omega
    · rw [List.count_eq_zero.mpr hin]
      have := hp.refCnt_nonneg b hb
      omega
  · have hlist : (p.toBlockPool l).freeLoop bs = ((freeLoop bs p).1.toBlockPool l, (freeLoop bs p).2) :=
      Prod.ext hpool.symm hfreed.symm
    rw [BlockPool.freeBlocks, hlist]
    rfl

/-! ### `get_new_blocks` -/

/-- A block that is popped loses its keys, if caching is on, and gets its first reference. -/
theorem takeNewBlock_ok (hp : p.Entries) (hzero : (p.blocks b).refCnt = 0) :
    ∃ q, p.takeNewBlock b = .ok q ∧ q.Entries ∧ q.numGpuBlocks = p.numGpuBlocks ∧
      q.enableCaching = p.enableCaching ∧ q.freeBlockQueue = p.freeBlockQueue ∧
      (∀ c, (q.blocks c).refCnt = (p.blocks c).refCnt + if c = b then 1 else 0) ∧
      ∀ c, (q.blocks c).isNull = (p.blocks c).isNull := by
  have hevict : ∃ r, (if p.enableCaching then p.maybeEvictCachedBlock b else p) = r ∧ r.Entries ∧ p.SameRefs r := by
    split
    · exact ⟨_, rfl, removeCachedBlockHashes_entries hp b, removeCachedBlockHashes_same hp b⟩
    · exact ⟨p, rfl, hp, .refl p⟩
  obtain ⟨r, hr, hentries, hsame⟩ := hevict
  let blk := { r.blocks b with refCnt := (r.blocks b).refCnt + 1 }
  have hfields : ∀ c, (Function.update r.blocks b blk c).blockHash = (r.blocks c).blockHash ∧
      (Function.update r.blocks b blk c).blockHashNumTokens = (r.blocks c).blockHashNumTokens ∧
      (Function.update r.blocks b blk c).isNull = (r.blocks c).isNull ∧
      (Function.update r.blocks b blk c).refCnt = (r.blocks c).refCnt + if c = b then 1 else 0 := by
    intro c
    by_cases hc : c = b
    · rw [hc, Function.update_self, if_pos rfl]
      exact ⟨rfl, rfl, rfl, rfl⟩
    · rw [Function.update_of_ne hc, if_neg hc, Int.add_zero]
      exact ⟨rfl, rfl, rfl, rfl⟩
  have hkeys : r.SameKeys (r.setBlock b blk) :=
    ⟨rfl, rfl, rfl, rfl, fun c => (hfields c).1, fun c => (hfields c).2.1, fun c => (hfields c).2.2.1⟩
  refine ⟨r.setBlock b blk, ?_, hentries.of_same hkeys, hsame.numGpuBlocks, hsame.enableCaching, hsame.queue, ?_, ?_⟩
  · rw [takeNewBlock]
    dsimp only
    rw [hr, if_neg (by rw [hsame.refCnt]; exact fun h => h hzero)]
  · intro c
    exact (hfields c).2.2.2.trans (by rw [hsame.refCnt])
  · intro c
    exact (hfields c).2.2.1.trans (hsame.isNull c)

theorem takeNewBlocks_ok : ∀ (bs : List Nat) {p : LinkedBlockPool}, bs.Nodup → p.Entries →
    (∀ b ∈ bs, (p.blocks b).refCnt = 0) →
    ∃ q, bs.foldlM takeNewBlock p = .ok q ∧ q.Entries ∧ q.numGpuBlocks = p.numGpuBlocks ∧
      q.enableCaching = p.enableCaching ∧ q.freeBlockQueue = p.freeBlockQueue ∧
      (∀ c, (q.blocks c).refCnt = (p.blocks c).refCnt + if c ∈ bs then 1 else 0) ∧
      ∀ c, (q.blocks c).isNull = (p.blocks c).isNull := by
  intro bs
  induction bs with
  | nil => exact fun {p} _ hp _ => ⟨p, rfl, hp, rfl, rfl, rfl, fun c => by simp, fun c => rfl⟩
  | cons b bs ih =>
      intro p hnodup hp hzero
      obtain ⟨hb, hnodup⟩ := List.nodup_cons.mp hnodup
      obtain ⟨q, hq, hentries, hn, hcaching, hqueue, href, hnull⟩ := takeNewBlock_ok hp (hzero b List.mem_cons_self)
      have hzero' : ∀ c ∈ bs, (q.blocks c).refCnt = 0 := by
        intro c hc
        have hne : c ≠ b := fun h => hb (h ▸ hc)
        rw [href, if_neg hne, hzero c (List.mem_cons_of_mem b hc)]
        rfl
      obtain ⟨r, hr, hentries', hn', hcaching', hqueue', href', hnull'⟩ := ih hnodup hentries hzero'
      refine ⟨r, ?_, hentries', hn'.trans hn, hcaching'.trans hcaching, hqueue'.trans hqueue, ?_, ?_⟩
      · rw [List.foldlM_cons, hq]
        exact hr
      · intro c
        rw [href', href]
        by_cases hc : c = b
        · simp [hc, hb]
        · simp [hc]
      · exact fun c => (hnull' c).trans (hnull c)

/-- **New blocks** are those at the head of the queue. -/
theorem getNewBlocks_ok (hp : p.Inv l) {n : Nat} (hn : n ≤ l.length) :
    ∃ q, p.getNewBlocks n = .ok (l.take n, q) ∧ q.Inv (l.drop n) ∧ q.numGpuBlocks = p.numGpuBlocks ∧
      q.enableCaching = p.enableCaching := by
  have hcount : p.getNumFreeBlocks = l.length := hp.queue.size
  obtain ⟨queue, hpop, hrep⟩ := FreeKVCacheBlockQueue.popleftN_ok hp.queue hn
  let popped : LinkedBlockPool := { p with freeBlockQueue := queue }
  have hpopped : p.SameKeys popped := ⟨rfl, rfl, rfl, rfl, fun _ => rfl, fun _ => rfl, fun _ => rfl⟩
  have hzero : ∀ b ∈ l.take n, (popped.blocks b).refCnt = 0 := fun b hb =>
    ((hp.mem_free b).mp (List.mem_of_mem_take hb)).2.2
  obtain ⟨q, hq, hentries, hnum, hcaching, hqueue, href, hnull⟩ :=
    takeNewBlocks_ok (l.take n) hp.queue.nodup.take (hp.toEntries.of_same hpopped) hzero
  refine ⟨q, ?_, ⟨hentries, ?_, ?_, ?_, ?_⟩, hnum, hcaching⟩
  · rw [getNewBlocks, if_neg (by omega)]
    change (p.freeBlockQueue.popleftN n >>= _) = _
    rw [hpop]
    change ((l.take n).foldlM takeNewBlock popped >>= _) = _
    rw [hq]
    rfl
  · rw [hqueue]
    exact hrep
  · intro b
    rw [hnum, href]
    change b ∈ l.drop n ↔ b < p.numGpuBlocks ∧ b ≠ 0 ∧ (p.blocks b).refCnt + _ = 0
    have hsplit := hp.mem_free b
    rw [← List.take_append_drop n l, List.mem_append] at hsplit
    have hdisjoint : b ∈ l.take n → b ∉ l.drop n := by
      have hnodup := hp.queue.nodup
      rw [← List.take_append_drop n l] at hnodup
      exact fun h h' => (List.nodup_append.mp hnodup).2.2 b h b h' rfl
    by_cases htake : b ∈ l.take n
    · have href0 := (hsplit.mp (Or.inl htake)).2.2
      simp only [hdisjoint htake, if_pos htake, href0, false_iff, not_and]
      intro _ _ h
      cases h
    · rw [if_neg htake, Int.add_zero, ← hsplit]
      simp [htake]
  · intro b
    rw [hnull]
    exact hp.isNull_iff b
  · intro b hb
    rw [href]
    have := hp.refCnt_nonneg b hb
    change 0 ≤ (p.blocks b).refCnt + _
    split <;> omega

theorem getNewBlocks_error (hp : p.Inv l) {n : Nat} (hn : l.length < n) :
    p.getNewBlocks n = .error (.valueError s!"Cannot get {n} free blocks from the pool") := by
  rw [getNewBlocks, if_pos (by rw [getNumFreeBlocks, hp.queue.size]; exact hn)]
  rfl

/-! ### Keys -/

theorem cacheFullBlock_entries (hp : p.Entries) (hb : b < p.numGpuBlocks ∧ b ≠ 0) {blockHash : Option BlockHash}
    {numHashTokens : Nat} (h : p.cacheFullBlock b blockHash numHashTokens = .ok q) : q.Entries ∧ p.SameRefs q := by
  cases blockHash with
  | none => cases h
  | some key =>
      rw [cacheFullBlock] at h
      split at h
      · obtain ⟨r, hr, hentries, hsame, -⟩ := insertBlockHash_ok hp hb key (some numHashTokens)
        rw [hr] at h
        cases h
        exact ⟨hentries, hsame⟩
      · split at h
        · have hremoved := removeCachedBlockHashes_same hp b
          obtain ⟨r, hr, hentries, hsame, -⟩ := insertBlockHash_ok (removeCachedBlockHashes_entries hp b)
            (by rw [hremoved.numGpuBlocks]; exact hb) key (some numHashTokens)
          rw [hr] at h
          cases h
          exact ⟨hentries, hremoved.trans hsame⟩
        · cases h

theorem cacheFullLoop_entries {blockHashes : List BlockHash} {blockMask : Nat → Bool} {blockSize : Nat} :
    ∀ (bs : List Nat) (i : Nat) {p q : LinkedBlockPool}, p.Inv l → (∀ b ∈ bs, b < p.numGpuBlocks) →
      cacheFullLoop blockHashes blockMask blockSize i bs p = .ok q → q.Entries ∧ p.SameRefs q := by
  intro bs
  induction bs with
  | nil =>
      intro i p q hp _ h
      cases h
      exact ⟨hp.toEntries, .refl p⟩
  | cons b bs ih =>
      intro i p q hp hbs h
      rw [cacheFullLoop] at h
      split at h
      · exact ih (i + 1) hp (fun c hc => hbs c (List.mem_cons_of_mem b hc)) h
      · next hnot =>
          obtain ⟨hnull, -⟩ := not_or.mp hnot
          have hne := hp.toRefs.ne_zero (Bool.eq_false_iff.mpr hnull)
          obtain ⟨r, hr, h⟩ := Except.bind_eq_ok.mp h
          obtain ⟨hentries, hsame⟩ := cacheFullBlock_entries hp.toEntries ⟨hbs b List.mem_cons_self, hne⟩ hr
          obtain ⟨hentries', hsame'⟩ := ih (i + 1) (hp.of_keys hentries hsame) (fun c hc => by
            rw [hsame.numGpuBlocks]
            exact hbs c (List.mem_cons_of_mem b hc)) h
          exact ⟨hentries', hsame.trans hsame'⟩

theorem cacheFullBlocks_entries (hp : p.Inv l) {blocks : List Nat} (hblocks : ∀ b ∈ blocks, b < p.numGpuBlocks)
    {blockHashes : List BlockHash} {numCachedBlocks numFullBlocks blockSize : Nat} {blockMask : Option (List Bool)}
    (h : p.cacheFullBlocks blocks blockHashes numCachedBlocks numFullBlocks blockSize blockMask = .ok q) :
    q.Entries ∧ p.SameRefs q := by
  have hnew : ∀ b ∈ (blocks.take numFullBlocks).drop numCachedBlocks, b < p.numGpuBlocks := fun b hb =>
    hblocks b (List.mem_of_mem_take (List.mem_of_mem_drop hb))
  rw [cacheFullBlocks] at h
  split at h
  · cases h
    exact ⟨hp.toEntries, .refl p⟩
  · cases blockMask with
    | none => exact cacheFullLoop_entries _ _ hp hnew h
    | some mask =>
        dsimp only at h
        split at h
        · cases h
        · exact cacheFullLoop_entries _ _ hp hnew h

theorem cachePartialBlock_entries (hp : p.Inv l) (hb : b < p.numGpuBlocks) {blockHashes : List BlockHash}
    {numTokens blockSize : Nat} {key : Option BlockHash}
    (h : p.cachePartialBlock blockHashes b numTokens blockSize = .ok (key, q)) : q.Entries ∧ p.SameRefs q := by
  rw [cachePartialBlock] at h
  split at h
  · cases h
    exact ⟨hp.toEntries, .refl p⟩
  · next hnull =>
      have hreal : b < p.numGpuBlocks ∧ b ≠ 0 := ⟨hb, hp.toRefs.ne_zero (Bool.eq_false_iff.mpr hnull)⟩
      split at h
      · cases h
      · obtain ⟨k, -, h⟩ := Except.bind_eq_ok.mp h
        obtain ⟨r, hr, h⟩ := Except.bind_eq_ok.mp h
        cases h
        split at hr
        · have hremoved := removeCachedBlockHashes_same hp.toEntries b
          obtain ⟨s, hs, hentries, hsame, -⟩ := insertBlockHash_ok (removeCachedBlockHashes_entries hp.toEntries b)
            (by rw [hremoved.numGpuBlocks]; exact hreal) k (some (numTokens / p.hashBlockSize * p.hashBlockSize))
          rw [hs] at hr
          cases hr
          exact ⟨hentries, hremoved.trans hsame⟩
        · obtain ⟨s, hs, hentries, hsame, -⟩ := insertBlockHash_ok hp.toEntries hreal k
            (some (numTokens / p.hashBlockSize * p.hashBlockSize))
          rw [hs] at hr
          cases hr
          exact ⟨hentries, hsame⟩

/-- New keys for a block are put behind those it has. -/
theorem insertAll_ok (numTokens : Option Nat) : ∀ (keys : List BlockHash) {p : LinkedBlockPool}, p.Entries →
    b < p.numGpuBlocks ∧ b ≠ 0 → (p.keysOf b ++ keys).Nodup →
    ∃ q, p.insertAll b numTokens keys = .ok q ∧ q.Entries ∧ p.SameRefs q ∧
      ∀ c, q.keysOf c = if c = b then p.keysOf b ++ keys else p.keysOf c := by
  intro keys
  induction keys with
  | nil =>
      intro p hp _ _
      refine ⟨p, rfl, hp, .refl p, ?_⟩
      intro c
      split
      · next hc => rw [hc, List.append_nil]
      · rfl
  | cons key keys ih =>
      intro p hp hb hnodup
      have hkey : key ∉ p.keysOf b := fun h => (List.nodup_append.mp hnodup).2.2 key h key List.mem_cons_self rfl
      obtain ⟨q, hq, hentries, hsame, hkeys⟩ := insertBlockHash_ok hp hb key numTokens
      have hself : q.keysOf b = p.keysOf b ++ [key] := by
        rw [hkeys, if_pos ⟨rfl, hkey⟩]
      obtain ⟨r, hr, hentries', hsame', hkeys'⟩ := ih hentries (by rw [hsame.numGpuBlocks]; exact hb) (by
        rw [hself, List.append_assoc]
        exact hnodup)
      refine ⟨r, ?_, hentries', hsame.trans hsame', ?_⟩
      · rw [insertAll, List.foldlM_cons, hq]
        exact hr
      · intro c
        rw [hkeys', hself, List.append_assoc]
        split
        · rfl
        · next hc => rw [hkeys, if_neg fun h => hc h.1]

/-- **Moving the keys** of one block to another that has none. -/
theorem moveBlockHashes_ok (hp : p.Entries) {src dst : Nat} (hdst : dst < p.numGpuBlocks ∧ dst ≠ 0)
    (hfree : p.keysOf dst = []) :
    ∃ q, p.moveBlockHashes src dst = .ok q ∧ q.Entries ∧ p.SameRefs q ∧
      ∀ c, q.keysOf c = if c = dst then p.keysOf src else if c = src then [] else p.keysOf c := by
  have hnone := (keysOf_eq_nil_iff hp).mp hfree
  have hremoved := removeCachedBlockHashes_same hp src
  have hkeys := keysOf_removeCachedBlockHashes hp src
  have hempty : (p.removeCachedBlockHashes src).2.keysOf dst = [] := by
    rw [hkeys]
    split
    · rfl
    · exact hfree
  obtain ⟨q, hq, hentries, hsame, hkeys'⟩ := insertAll_ok (p.blocks src).blockHashNumTokens (p.keysOf src)
    (removeCachedBlockHashes_entries hp src) (by rw [hremoved.numGpuBlocks]; exact hdst) (by
      rw [hempty]
      exact hp.nodup_keysOf src)
  refine ⟨q, ?_, hentries, hremoved.trans hsame, ?_⟩
  · have hcond : ¬((p.blocks dst).blockHash ≠ none ∨ p.cachedBlockHashesByBlock dst ≠ []) := by
      rw [not_or, not_not, not_not]
      exact ⟨hnone, (hp.of_blockHash_none dst hnone).1⟩
    have hfst : (p.removeCachedBlockHashes src).1 = p.keysOf src := by
      rw [removeCachedBlockHashes_eq hp]
    rw [moveBlockHashes, if_neg hcond]
    dsimp only
    rw [hfst]
    exact hq
  · intro c
    rw [hkeys', hempty]
    split
    · rfl
    · exact hkeys c

theorem moveBlockHashes_entries (hp : p.Entries) {src dst : Nat} (hdst : dst < p.numGpuBlocks ∧ dst ≠ 0)
    (h : p.moveBlockHashes src dst = .ok q) : q.Entries ∧ p.SameRefs q := by
  have hfree : p.keysOf dst = [] := by
    rw [keysOf_eq_nil_iff hp]
    rw [moveBlockHashes] at h
    split at h
    · cases h
    · next hcond => exact not_not.mp (not_or.mp hcond).1
  obtain ⟨r, hr, hentries, hsame, -⟩ := moveBlockHashes_ok hp hdst hfree
  rw [hr] at h
  cases h
  exact ⟨hentries, hsame⟩

theorem evictBlocks_entries {blockIds : List Nat} (hp : p.Entries) (h : p.evictBlocks blockIds = .ok q) :
    q.Entries ∧ p.SameRefs q := by
  refine Except.foldlM_preserves (I := fun r : LinkedBlockPool => r.Entries ∧ p.SameRefs r) ?_ ⟨hp, .refl p⟩ h
  intro b _ s t hs ht
  split at ht
  · cases ht
    exact ⟨removeCachedBlockHashes_entries hs.1 b, hs.2.trans (removeCachedBlockHashes_same hs.1 b)⟩
  · cases ht

theorem resetPrefixCache_entries (hp : p.Entries) : p.resetPrefixCache.2.Entries ∧ p.SameRefs p.resetPrefixCache.2 := by
  rw [resetPrefixCache]
  split
  · exact ⟨hp, .refl p⟩
  · refine ⟨⟨BlockHashToBlockMap.empty_wf, ?_, fun b => List.nodup_nil, fun b _ => ⟨rfl, rfl⟩, ?_⟩,
      ⟨rfl, rfl, rfl, rfl, fun b => rfl, fun b => rfl⟩⟩
    · intro key b
      exact iff_of_false List.not_mem_nil List.not_mem_nil
    · exact fun b hb => absurd rfl hb

end LinkedBlockPool

end CacheSelect.Core

import CacheSelect.Core.ManagerInvariant

/-! # What an allocation does

One lemma for every stage of `allocate_slots`: the hits of the native lookup enter an empty table
(`addLocalComputedBlocks_spec`), a table is extended by new blocks (`extendBlocks_spec`), full blocks
are registered (`cacheBlocks_spec`).  Each says that the stage succeeds, keeps the manager's
invariant and is a `Grown` step.  `allocateBlocks_spec` is their composition, `allocateSlots_some` reads
it off a successful call and `allocateSlots_spec` says when there is room.  `free_inv` is the way back.
-/

namespace CacheSelect.Core

open RefCount

namespace KVCacheManager

/-- The hits of a native lookup: the request's own hashes from the start. -/
structure Hits (cfg : ManagerConfig) (m : KVCacheManager) (r : Request) (hits : List Nat) :
    Prop where
  blockHash_eq : ∀ i b, hits[i]? = some b →
    (m.pool.blocks b).blockHash = some (r.blockHashAt cfg.blockSize i)
  tokens_le : hits.length * cfg.blockSize ≤ r.numTokens
  caching : hits ≠ [] → cfg.enableCaching = true

theorem Hits.nil (cfg : ManagerConfig) (m : KVCacheManager) (r : Request) : Hits cfg m r [] where
  blockHash_eq := by intro i b hb; simp at hb
  tokens_le := by simp
  caching := fun h => absurd rfl h

section

variable {cfg : ManagerConfig} {requests : String → Option Request} {pins : List Nat}
  {m : KVCacheManager} {r : Request} {hits : List Nat}

/-- The hashes of one request are distinct, so are the blocks that carry them. -/
theorem Hits.nodup (hh : Hits cfg m r hits) : hits.Nodup := by
  rw [List.nodup_iff_getElem?_ne_getElem?]
  intro i j hij hj he
  have hi : hits[i]? = some hits[i] := List.getElem?_eq_getElem (by omega)
  have h1 := hh.blockHash_eq i _ hi
  have h2 := hh.blockHash_eq j _ (he ▸ hi)
  rw [h1, Option.some.injEq] at h2
  exact Request.blockHashAt_ne (by omega) h2

theorem Hits.valid (hh : Hits cfg m r hits) (h : m.Inv cfg requests pins) :
    ∀ b ∈ hits, b < m.pool.numGpuBlocks ∧ b ≠ 0 := by
  intro b hb
  obtain ⟨i, hi⟩ := List.mem_iff_getElem?.mp hb
  exact h.pool_wf.hash_valid b _ (hh.blockHash_eq i b hi)

theorem Hits.blockHash_ne_none (hh : Hits cfg m r hits) {b : Nat} (hb : b ∈ hits) :
    (m.pool.blocks b).blockHash ≠ none := by
  obtain ⟨i, hi⟩ := List.mem_iff_getElem?.mp hb
  rw [hh.blockHash_eq i b hi]
  exact Option.some_ne_none _

/-! ### One table changes -/

theorem reqToBlocks_setBlocks (m : KVCacheManager) (id : String) (blocks : List Nat) (id' : String) :
    (m.setBlocks id blocks).reqToBlocks id' = if id' = id then blocks else m.reqToBlocks id' := by
  by_cases hid : id' = id
  · subst hid; simp [setBlocks]
  · simp [setBlocks, hid]

theorem numRegistered_setNumCached (m : KVCacheManager) (id : String) (n : Nat) (id' : String) :
    (m.setNumCached id (some n)).numRegistered id' = if id' = id then n else m.numRegistered id' := by
  by_cases hid : id' = id
  · subst hid; simp [setNumCached, numRegistered]
  · simp [setNumCached, numRegistered, hid]

/-! ### The hits enter the table -/

/-- The manager with a request's hits in its table. -/
def withHits (m : KVCacheManager) (id : String) (hits : List Nat) : KVCacheManager :=
  ({ m with pool := m.pool.touch hits }.setBlocks id hits).setNumCached id (some hits.length)

theorem reqToBlocks_withHits (m : KVCacheManager) (id : String) (hits : List Nat) (id' : String) :
    (m.withHits id hits).reqToBlocks id' = if id' = id then hits else m.reqToBlocks id' :=
  reqToBlocks_setBlocks { m with pool := m.pool.touch hits } id hits id'

theorem numRegistered_withHits (m : KVCacheManager) (id : String) (hits : List Nat) (id' : String) :
    (m.withHits id hits).numRegistered id'
      = if id' = id then hits.length else m.numRegistered id' := by
  rw [withHits, numRegistered_setNumCached]
  rfl

/-- All of the hits are registered. -/
theorem withHits_registered (h : m.Inv cfg requests pins) {id : String} (hr : requests id = some r)
    (hh : Hits cfg m r hits) {id' : String} {q : Request} (hq : requests id' = some q) {i b : Nat}
    (hb : ((m.withHits id hits).reqToBlocks id')[i]? = some b) :
    (m.pool.blocks b).blockHash
      = if i < (m.withHits id hits).numRegistered id' then some (q.blockHashAt cfg.blockSize i)
        else none := by
  rw [reqToBlocks_withHits] at hb
  rw [numRegistered_withHits]
  by_cases hid : id' = id
  · subst hid
    rw [if_pos rfl] at hb ⊢
    rw [hr, Option.some.injEq] at hq
    subst hq
    rw [if_pos (List.getElem?_eq_some_iff.mp hb).1]
    exact hh.blockHash_eq i b hb
  · rw [if_neg hid] at hb ⊢
    exact h.registered id' q hq i b hb

/-- A block of two tables has a hash. -/
theorem withHits_shared (h : m.Inv cfg requests pins) (hh : Hits cfg m r hits) {id id₁ id₂ : String}
    {b : Nat} (h₁ : b ∈ (m.withHits id hits).reqToBlocks id₁)
    (h₂ : b ∈ (m.withHits id hits).reqToBlocks id₂) (hne : id₁ ≠ id₂) :
    (m.pool.blocks b).blockHash ≠ none := by
  rw [reqToBlocks_withHits] at h₁ h₂
  by_cases hid₁ : id₁ = id
  · rw [if_pos hid₁] at h₁
    exact hh.blockHash_ne_none h₁
  · rw [if_neg hid₁] at h₁
    by_cases hid₂ : id₂ = id
    · rw [if_pos hid₂] at h₂
      exact hh.blockHash_ne_none h₂
    · rw [if_neg hid₂] at h₂
      exact h.registered_of_shared id₁ id₂ b h₁ h₂ hne

theorem withHits_inv (h : m.Inv cfg requests pins) {id : String} (hr : requests id = some r)
    (htable : m.reqToBlocks id = []) (hh : Hits cfg m r hits) :
    (m.withHits id hits).Inv cfg requests pins := by
  have hblk := BlockPool.touch_blocks hits m.pool
  obtain ⟨ids, hs, hc⟩ := h.counts
  have hs' : Supported (insert id ids) m.reqToBlocks := hs.mono (Finset.subset_insert _ _)
  have hval := hh.valid h
  have htab := reqToBlocks_withHits m id hits
  have hreg := numRegistered_withHits m id hits
  refine { pool_wf := BlockPool.touch_wf hits h.pool_wf fun b hb => (hval b hb).2,
           counts := ⟨insert id ids, hs'.update (Finset.mem_insert_self _ _) hits, ?_⟩,
           valid := ?_, valid_pins := ?_, nodup := ?_, live := ?_, registered := ?_,
           registered_le := ?_, registered_tokens := ?_, registered_of_shared := ?_ }
  · intro b hb
    have h1 := refs_update m.reqToBlocks (Finset.mem_insert_self id ids) hits b
    rw [refs_insert hs, htable, List.count_nil, Nat.add_zero] at h1
    change ((m.pool.touch hits).blocks b).refCnt
      = (refs (insert id ids) (Function.update m.reqToBlocks id hits) b : Nat) + _
    rw [hblk, h1]
    change (m.pool.blocks b).refCnt + _ = _
    rw [hc b hb]
    push_cast
    omega
  · intro id' b hb
    change b < (m.pool.touch hits).numGpuBlocks ∧ _
    rw [BlockPool.touch_numGpuBlocks]
    rw [htab] at hb
    split at hb
    · exact hval b hb
    · exact h.valid id' b hb
  · intro b hb
    change b < (m.pool.touch hits).numGpuBlocks ∧ _
    rw [BlockPool.touch_numGpuBlocks]
    exact h.valid_pins b hb
  · intro id'
    rw [htab]
    split
    · exact hh.nodup
    · exact h.nodup id'
  · intro id' hn
    have hne : id' ≠ id := by
      intro he
      rw [he, hr] at hn
      cases hn
    have := h.live id' hn
    rw [htab, if_neg hne]
    refine ⟨this.1, ?_⟩
    simp [withHits, setBlocks, setNumCached, hne, this.2]
  · intro id' q hq i b hb
    change ((m.pool.touch hits).blocks b).blockHash = _
    rw [hblk]
    exact withHits_registered h hr hh hq hb
  · intro id'
    rw [htab, hreg]
    split
    · exact Nat.le_refl _
    · exact h.registered_le id'
  · intro id' q hq
    rw [hreg]
    split
    · next hid =>
        subst hid
        rw [hr, Option.some.injEq] at hq
        subst hq
        exact hh.tokens_le
    · exact h.registered_tokens id' q hq
  · intro id₁ id₂ b h₁ h₂ hne
    change ((m.pool.touch hits).blocks b).blockHash ≠ none
    rw [hblk]
    exact withHits_shared h hh h₁ h₂ hne

theorem withHits_grown (hits : List Nat) {id : String} (htable : m.reqToBlocks id = [])
    (hcached : m.numCachedBlock id = none) : Grown id hits m (m.withHits id hits) where
  locator_eq := rfl
  numGpuBlocks_eq := BlockPool.touch_numGpuBlocks hits _
  table_of_ne := fun id' hne => by simp [withHits, setBlocks, setNumCached, hne]
  cached_of_ne := fun id' hne => by simp [withHits, setBlocks, setNumCached, hne]
  empty_or_nil := Or.inl htable
  table_prefix := by simp [withHits, setBlocks, setNumCached, htable]
  registered_mono := by simp [withHits, setBlocks, setNumCached, numRegistered, hcached]
  refCnt_le := by
    intro b
    change _ ≤ ((m.pool.touch hits).blocks b).refCnt
    rw [BlockPool.touch_blocks]
    change (m.pool.blocks b).refCnt ≤ (m.pool.blocks b).refCnt + _
    omega
  fresh := by
    intro b hb hb'
    simp only [withHits, setBlocks, setNumCached, Function.update_self] at hb
    exact absurd (List.mem_append_right _ hb) hb'
  blockHash_of_not_mem := by
    intro b _
    change ((m.pool.touch hits).blocks b).blockHash = _
    rw [BlockPool.touch_blocks]

theorem addLocalComputedBlocks_spec {id : String} (htable : m.reqToBlocks id = [])
    (hcache : hits ≠ [] → cfg.enableCaching = true) :
    m.addLocalComputedBlocks cfg id hits = .ok (m.withHits id hits) := by
  rw [addLocalComputedBlocks, if_neg (by simp [htable]), if_neg]
  · rfl
  · rintro ⟨hf, hne⟩
    rw [hcache hne] at hf
    cases hf

/-! ### New blocks -/

/-- The manager with new blocks at the end of a request's table. -/
def withNewBlocks (m : KVCacheManager) (q : BlockPool) (id : String) (new : List Nat) :
    KVCacheManager :=
  { m with pool := q }.setBlocks id (m.reqToBlocks id ++ new)

section

variable {q : BlockPool} {id : String} {n : Nat} {new : List Nat}

theorem reqToBlocks_withNewBlocks (m : KVCacheManager) (q : BlockPool) (id : String) (new : List Nat)
    (id' : String) : (m.withNewBlocks q id new).reqToBlocks id'
      = if id' = id then m.reqToBlocks id ++ new else m.reqToBlocks id' :=
  reqToBlocks_setBlocks { m with pool := q } id (m.reqToBlocks id ++ new) id'

/-- A new block was free, and so in no table. -/
theorem newBlock_free (h : m.Inv cfg requests pins) (hnew : BlockPool.NewBlocks m.pool n new q)
    {b : Nat} (hb : b ∈ new) : (b < m.pool.numGpuBlocks ∧ b ≠ 0 ∧ (m.pool.blocks b).refCnt = 0) ∧
      ∀ id', b ∉ m.reqToBlocks id' := by
  have hfree := (h.pool_wf.mem_queue b).mp (hnew.mem_free b hb)
  exact ⟨hfree, h.not_mem_of_refCnt hfree.2.2⟩

/-- The blocks of the tables keep their hashes. -/
theorem newBlocks_blockHash (h : m.Inv cfg requests pins) (hnew : BlockPool.NewBlocks m.pool n new q)
    {id' : String} {b : Nat} (hb : b ∈ m.reqToBlocks id') :
    (q.blocks b).blockHash = (m.pool.blocks b).blockHash := by
  rw [hnew.blockHash_eq, if_neg fun hin => (newBlock_free h hnew hin).2 id' hb]

/-- New blocks are not registered. -/
theorem withNewBlocks_registered (h : m.Inv cfg requests pins)
    (hnew : BlockPool.NewBlocks m.pool n new q) {id' : String} {q' : Request}
    (hq' : requests id' = some q') {i b : Nat}
    (hb : ((m.withNewBlocks q id new).reqToBlocks id')[i]? = some b) :
    (q.blocks b).blockHash
      = if i < m.numRegistered id' then some (q'.blockHashAt cfg.blockSize i) else none := by
  rw [reqToBlocks_withNewBlocks] at hb
  by_cases hid : id' = id
  · subst hid
    rw [if_pos rfl] at hb
    by_cases hi : i < (m.reqToBlocks id').length
    · rw [List.getElem?_append_left hi] at hb
      rw [newBlocks_blockHash h hnew (List.mem_of_getElem? hb)]
      exact h.registered id' q' hq' i b hb
    · rw [List.getElem?_append_right (by omega)] at hb
      rw [hnew.blockHash_eq, if_pos (List.mem_of_getElem? hb), if_neg]
      have := h.registered_le id'
      omega
  · rw [if_neg hid] at hb
    rw [newBlocks_blockHash h hnew (List.mem_of_getElem? hb)]
    exact h.registered id' q' hq' i b hb

/-- A block of two tables is none of the new ones. -/
theorem withNewBlocks_shared (h : m.Inv cfg requests pins)
    (hnew : BlockPool.NewBlocks m.pool n new q) {id₁ id₂ : String} {b : Nat}
    (h₁ : b ∈ (m.withNewBlocks q id new).reqToBlocks id₁)
    (h₂ : b ∈ (m.withNewBlocks q id new).reqToBlocks id₂) (hne : id₁ ≠ id₂) :
    b ∈ m.reqToBlocks id₁ ∧ b ∈ m.reqToBlocks id₂ := by
  rw [reqToBlocks_withNewBlocks] at h₁ h₂
  by_cases hid₁ : id₁ = id
  · subst hid₁
    rw [if_pos rfl] at h₁
    rw [if_neg fun he => hne he.symm] at h₂
    refine ⟨(List.mem_append.mp h₁).resolve_right fun hin => ?_, h₂⟩
    exact (newBlock_free h hnew hin).2 id₂ h₂
  · rw [if_neg hid₁] at h₁
    by_cases hid₂ : id₂ = id
    · subst hid₂
      rw [if_pos rfl] at h₂
      refine ⟨h₁, (List.mem_append.mp h₂).resolve_right fun hin => ?_⟩
      exact (newBlock_free h hnew hin).2 id₁ h₁
    · rw [if_neg hid₂] at h₂
      exact ⟨h₁, h₂⟩

theorem withNewBlocks_inv (h : m.Inv cfg requests pins) (hr : requests id = some r)
    (hnew : BlockPool.NewBlocks m.pool n new q) :
    (m.withNewBlocks q id new).Inv cfg requests pins := by
  have htab := reqToBlocks_withNewBlocks m q id new
  have hreg : (m.withNewBlocks q id new).numRegistered = m.numRegistered := rfl
  obtain ⟨ids, hs, hc⟩ := h.counts
  refine { pool_wf := hnew.wf, counts := ⟨insert id ids, ?_, ?_⟩, valid := ?_, valid_pins := ?_,
           nodup := ?_, live := ?_,
           registered := fun _ _ hq' _ _ hb => withNewBlocks_registered h hnew hq' hb,
           registered_le := ?_, registered_tokens := h.registered_tokens,
           registered_of_shared := ?_ }
  · exact (hs.mono (Finset.subset_insert _ _)).update (Finset.mem_insert_self _ _) _
  · intro b hb
    have h1 := refs_update m.reqToBlocks (Finset.mem_insert_self id ids)
      (m.reqToBlocks id ++ new) b
    rw [refs_insert hs, List.count_append] at h1
    change (q.blocks b).refCnt = (refs (insert id ids)
      (Function.update m.reqToBlocks id (m.reqToBlocks id ++ new)) b : Nat) + _
    rw [hnew.refCnt_eq, hc b hb]
    omega
  · intro id' b hb
    change b < q.numGpuBlocks ∧ _
    rw [hnew.numGpuBlocks_eq]
    rw [htab] at hb
    split at hb
    · rcases List.mem_append.mp hb with hb | hb
      · exact h.valid id b hb
      · obtain ⟨⟨hlt, hne, -⟩, -⟩ := newBlock_free h hnew hb
        exact ⟨hlt, hne⟩
    · exact h.valid id' b hb
  · intro b hb
    change b < q.numGpuBlocks ∧ _
    rw [hnew.numGpuBlocks_eq]
    exact h.valid_pins b hb
  · intro id'
    rw [htab]
    split
    · refine List.nodup_append.mpr ⟨h.nodup id, hnew.nodup_ret, ?_⟩
      rintro b hb b' hb' rfl
      exact (newBlock_free h hnew hb').2 id hb
    · exact h.nodup id'
  · intro id' hn
    have hne : id' ≠ id := by
      rintro rfl
      rw [hr] at hn
      cases hn
    rw [htab, if_neg hne]
    exact h.live id' hn
  · intro id'
    rw [hreg, htab]
    have := h.registered_le id'
    split
    · next hid =>
        subst hid
        rw [List.length_append]
        omega
    · exact this
  · intro id₁ id₂ b h₁ h₂ hne
    obtain ⟨h₁, h₂⟩ := withNewBlocks_shared h hnew h₁ h₂ hne
    change (q.blocks b).blockHash ≠ none
    rw [newBlocks_blockHash h hnew h₁]
    exact h.registered_of_shared id₁ id₂ b h₁ h₂ hne

theorem withNewBlocks_grown (h : m.Inv cfg requests pins)
    (hnew : BlockPool.NewBlocks m.pool n new q) : Grown id [] m (m.withNewBlocks q id new) where
  locator_eq := rfl
  numGpuBlocks_eq := hnew.numGpuBlocks_eq
  table_of_ne := fun id' hne => by rw [reqToBlocks_withNewBlocks, if_neg hne]
  cached_of_ne := fun _ _ => rfl
  empty_or_nil := Or.inr rfl
  table_prefix := by
    rw [reqToBlocks_withNewBlocks, if_pos rfl, List.append_nil]
    exact List.prefix_append _ _
  registered_mono := Nat.le_refl _
  refCnt_le := by
    intro b
    change _ ≤ (q.blocks b).refCnt
    rw [hnew.refCnt_eq]
    omega
  fresh := by
    intro b hb hb'
    rw [reqToBlocks_withNewBlocks, if_pos rfl] at hb
    rw [List.append_nil] at hb'
    exact (newBlock_free h hnew ((List.mem_append.mp hb).resolve_left hb')).1.2.2
  blockHash_of_not_mem := by
    intro b hb
    refine (hnew.blockHash_eq b).trans (if_neg fun hin => hb ?_)
    rw [reqToBlocks_withNewBlocks, if_pos rfl, List.length_nil, Nat.add_zero,
      List.drop_append_of_le_length (h.registered_le id)]
    exact List.mem_append_right _ hin

end

theorem extendBlocks_spec (h : m.Inv cfg requests pins) {id : String} (hr : requests id = some r)
    {n : Nat} (hroom : n - (m.reqToBlocks id).length ≤ m.pool.getNumFreeBlocks) :
    ∃ new m', m.extendBlocks id n = .ok (new, m') ∧ m'.Inv cfg requests pins ∧
      Grown id [] m m' ∧ m'.reqToBlocks id = m.reqToBlocks id ++ new ∧
      (m'.reqToBlocks id).length = max n (m.reqToBlocks id).length ∧
      m'.numCachedBlock = m.numCachedBlock ∧
      m'.pool.getNumFreeBlocks = m.pool.getNumFreeBlocks - new.length := by
  obtain ⟨new, q, hq, hnew⟩ := BlockPool.getNewBlocks_spec h.pool_wf hroom
  have htab : (m.withNewBlocks q id new).reqToBlocks id = m.reqToBlocks id ++ new := by
    rw [reqToBlocks_withNewBlocks, if_pos rfl]
  refine ⟨new, m.withNewBlocks q id new, by rw [extendBlocks, hq]; rfl,
    withNewBlocks_inv h hr hnew, withNewBlocks_grown h hnew, htab, ?_, rfl, ?_⟩
  · rw [htab, List.length_append, hnew.length_ret]
    omega
  · change q.freeBlockQueue.length = m.pool.freeBlockQueue.length - _
    rw [hnew.queue_eq, List.length_drop, hnew.length_ret]

/-! ### Registering -/

/-- The manager with the first blocks of a request registered. -/
def withRegistered (m : KVCacheManager) (q : BlockPool) (id : String) (n : Nat) : KVCacheManager :=
  { m with pool := q }.setNumCached id (some n)

section

variable {q : BlockPool} {hi : Nat}

theorem numRegistered_withRegistered (m : KVCacheManager) (q : BlockPool) (id : String) (n : Nat)
    (id' : String) : (m.withRegistered q id n).numRegistered id'
      = if id' = id then n else m.numRegistered id' :=
  numRegistered_setNumCached { m with pool := q } id n id'

/-- A block outside of the newly registered part of the table keeps its hash. -/
theorem registered_old {table : List Nat} {hashes : List BlockHash} {p : BlockPool} {lo : Nat}
    (hc : BlockPool.Cached p table hashes lo hi q) {b : Nat} (hb : b ∉ table.drop lo) :
    (q.blocks b).blockHash = (p.blocks b).blockHash := by
  refine hc.hash_old b fun i hlo _ hi => hb ?_
  rw [List.mem_iff_getElem?]
  exact ⟨i - lo, by rw [List.getElem?_drop, Nat.add_sub_cancel' hlo]; exact hi⟩

variable (hc : BlockPool.Cached m.pool (m.reqToBlocks r.requestId) (r.blockHashes cfg.blockSize)
  (m.numRegistered r.requestId) hi q)

include hc

/-- A block that has a hash keeps it. -/
theorem registered_keep (h : m.Inv cfg requests pins) {b : Nat}
    (hb : (m.pool.blocks b).blockHash ≠ none) :
    (q.blocks b).blockHash = (m.pool.blocks b).blockHash := by
  refine registered_old hc fun hin => hb ?_
  obtain ⟨i, hi⟩ := List.mem_iff_getElem?.mp hin
  rw [List.getElem?_drop] at hi
  exact h.blockHash_eq_none hi (Nat.le_add_right _ _)

/-- The hashes in the request's own table. -/
theorem registered_self (h : m.Inv cfg requests pins) (hr : requests r.requestId = some r)
    (hfull : hi ≤ r.numTokens / cfg.blockSize) (hle : m.numRegistered r.requestId ≤ hi) {i b : Nat}
    (hb : (m.reqToBlocks r.requestId)[i]? = some b) :
    (q.blocks b).blockHash = if i < hi then some (r.blockHashAt cfg.blockSize i) else none := by
  have hreg := h.registered _ r hr i b hb
  by_cases hlo : i < m.numRegistered r.requestId
  · rw [if_pos hlo] at hreg
    rw [registered_keep hc h (by rw [hreg]; exact Option.some_ne_none _), hreg, if_pos (by omega)]
  · by_cases hhi : i < hi
    · rw [if_pos hhi, hc.hash_new i b (by omega) hhi hb, Request.getElem?_blockHashes]
      omega
    · rw [if_neg hhi, hc.hash_old b, h.blockHash_eq_none hb (by omega)]
      intro j _ hj hbj
      have := (List.getElem?_inj (List.getElem?_eq_some_iff.mp hb).1
        (h.nodup r.requestId)).mp (hb.trans hbj.symm)
      omega

/-- The hashes in the tables of other requests. -/
theorem registered_other (h : m.Inv cfg requests pins) {id : String} (hid : id ≠ r.requestId)
    {q' : Request} (hq' : requests id = some q') {i b : Nat}
    (hb : (m.reqToBlocks id)[i]? = some b) : (q.blocks b).blockHash
      = if i < m.numRegistered id then some (q'.blockHashAt cfg.blockSize i) else none := by
  have hreg := h.registered id q' hq' i b hb
  rw [← hreg]
  by_cases hi' : i < m.numRegistered id
  · rw [if_pos hi'] at hreg
    exact registered_keep hc h (by rw [hreg]; exact Option.some_ne_none _)
  · rw [if_neg hi'] at hreg
    refine registered_old hc fun hin => ?_
    exact h.registered_of_shared id r.requestId b (List.mem_of_getElem? hb)
      (List.mem_of_mem_drop hin) hid hreg

theorem withRegistered_inv (h : m.Inv cfg requests pins) (hr : requests r.requestId = some r)
    (hlen : hi ≤ (m.reqToBlocks r.requestId).length) (hfull : hi ≤ r.numTokens / cfg.blockSize)
    (hle : m.numRegistered r.requestId ≤ hi) :
    (m.withRegistered q r.requestId hi).Inv cfg requests pins := by
  have hreg := numRegistered_withRegistered m q r.requestId hi
  obtain ⟨ids, hs, hcnt⟩ := h.counts
  refine { pool_wf := hc.wf, counts := ⟨ids, hs, ?_⟩, valid := ?_, valid_pins := ?_,
           nodup := h.nodup, live := ?_, registered := ?_, registered_le := ?_,
           registered_tokens := ?_, registered_of_shared := ?_ }
  · intro b hb
    change (q.blocks b).refCnt = _
    rw [hc.refCnt_eq]
    exact hcnt b hb
  · intro id b hb
    change b < q.numGpuBlocks ∧ _
    rw [hc.numGpuBlocks_eq]
    exact h.valid id b hb
  · intro b hb
    change b < q.numGpuBlocks ∧ _
    rw [hc.numGpuBlocks_eq]
    exact h.valid_pins b hb
  · intro id hn
    have hne : id ≠ r.requestId := by
      rintro rfl
      rw [hr] at hn
      cases hn
    refine ⟨(h.live id hn).1, ?_⟩
    simp [withRegistered, setNumCached, hne, (h.live id hn).2]
  · intro id q' hq' i b hb
    change (q.blocks b).blockHash = _
    rw [hreg]
    by_cases hid : id = r.requestId
    · subst hid
      rw [hr, Option.some.injEq] at hq'
      subst hq'
      rw [if_pos rfl]
      exact registered_self hc h hr hfull hle hb
    · rw [if_neg hid]
      exact registered_other hc h hid hq' hb
  · intro id
    rw [hreg]
    split
    · next hid => subst hid; exact hlen
    · exact h.registered_le id
  · intro id q' hq'
    rw [hreg]
    split
    · next hid =>
        subst hid
        rw [hr, Option.some.injEq] at hq'
        subst hq'
        exact (Nat.mul_le_mul_right _ hfull).trans (Nat.div_mul_le_self _ _)
    · exact h.registered_tokens id q' hq'
  · intro id₁ id₂ b h₁ h₂ hne
    have := h.registered_of_shared id₁ id₂ b h₁ h₂ hne
    change (q.blocks b).blockHash ≠ none
    rw [registered_keep hc h this]
    exact this

theorem withRegistered_grown (hle : m.numRegistered r.requestId ≤ hi) :
    Grown r.requestId [] m (m.withRegistered q r.requestId hi) where
  locator_eq := rfl
  numGpuBlocks_eq := hc.numGpuBlocks_eq
  table_of_ne := fun _ _ => rfl
  cached_of_ne := fun id' hne => by simp [withRegistered, setNumCached, hne]
  empty_or_nil := Or.inr rfl
  table_prefix := by rw [List.append_nil]; exact List.prefix_rfl
  registered_mono := by
    rw [numRegistered_withRegistered, if_pos rfl]
    exact hle
  refCnt_le := by
    intro b
    change _ ≤ (q.blocks b).refCnt
    rw [hc.refCnt_eq]
  fresh := by
    intro b hb hb'
    rw [List.append_nil] at hb'
    exact absurd hb hb'
  blockHash_of_not_mem := fun _ hb => registered_old hc hb

end

theorem cacheBlocks_spec (h : m.Inv cfg requests pins) (hr : requests r.requestId = some r)
    {n : Nat} (hlen : n / cfg.blockSize ≤ (m.reqToBlocks r.requestId).length)
    (hn : n ≤ r.numTokens) :
    ∃ m', m.cacheBlocks cfg r n = .ok m' ∧ m'.Inv cfg requests pins ∧
      Grown r.requestId [] m m' ∧ m'.reqToBlocks = m.reqToBlocks ∧
      m'.numRegistered r.requestId = max (m.numRegistered r.requestId) (n / cfg.blockSize) ∧
      ((m.numCachedBlock r.requestId).isSome = true →
        (m'.numCachedBlock r.requestId).isSome = true) := by
  by_cases hle : n / cfg.blockSize ≤ m.numRegistered r.requestId
  · refine ⟨m, ?_, h, Grown.refl _ _, rfl, by omega, id⟩
    rw [cacheBlocks]
    exact if_pos hle
  · have hlt : m.numRegistered r.requestId ≤ n / cfg.blockSize := by omega
    have hfull : n / cfg.blockSize ≤ r.numTokens / cfg.blockSize := Nat.div_le_div_right hn
    obtain ⟨q, hq, hc⟩ := BlockPool.cacheFullBlocks_ok h.pool_wf (m.reqToBlocks r.requestId)
      (r.blockHashes cfg.blockSize) cfg.blockSize (h.nodup _) (h.valid _) hlt hlen
      (by rw [Request.length_blockHashes]; exact hfull)
      (fun i b hi _ hb => h.blockHash_eq_none hb hi)
    refine ⟨m.withRegistered q r.requestId (n / cfg.blockSize), ?_,
      withRegistered_inv hc h hr hlen hfull hlt, withRegistered_grown hc hlt, rfl, ?_,
      fun _ => by simp [withRegistered, setNumCached]⟩
    · rw [cacheBlocks]
      rw [if_neg hle, hq]
      rfl
    · rw [numRegistered_withRegistered, if_pos rfl]
      omega

/-! ### The stages together -/

/-- Touching distinct blocks takes the unreferenced ones out of the queue. -/
theorem length_queue_touch : ∀ (bs : List Nat) {p : BlockPool}, p.WF → bs.Nodup →
    (∀ b ∈ bs, b < p.numGpuBlocks ∧ b ≠ 0) →
    (p.touch bs).getNumFreeBlocks + numEvictableBlocks p bs = p.getNumFreeBlocks := by
  intro bs
  induction bs with
  | nil => intro p _ _ _; simp [BlockPool.touch, numEvictableBlocks]
  | cons b bs ih =>
      intro p hp hnd hv
      obtain ⟨hnot, hnd'⟩ := List.nodup_cons.mp hnd
      have hb := hv b (by simp)
      have hnull := hp.isNull_eq_false hb.2
      have hrest : numEvictableBlocks (p.touchBlock b) bs = numEvictableBlocks p bs := by
        refine List.countP_congr ?_
        intro x hx
        have hne : x ≠ b := fun he => hnot (he ▸ hx)
        rw [BlockPool.touchBlock_blocks]
        simp [hne]
      have hstep := ih (BlockPool.touchBlock_wf hp hb.2) hnd'
        (fun x hx => hv x (List.mem_cons_of_mem _ hx))
      rw [hrest] at hstep
      have hcount : numEvictableBlocks p (b :: bs)
          = numEvictableBlocks p bs + if (p.blocks b).refCnt = 0 then 1 else 0 := by
        rw [numEvictableBlocks, List.countP_cons, hnull]
        simp [numEvictableBlocks]
      have hqueue : (p.touchBlock b).getNumFreeBlocks + (if (p.blocks b).refCnt = 0 then 1 else 0)
          = p.getNumFreeBlocks := by
        change (if (p.blocks b).refCnt = 0 ∧ (p.blocks b).isNull = false then
          p.freeBlockQueue.erase b else p.freeBlockQueue).length + _ = p.freeBlockQueue.length
        by_cases h0 : (p.blocks b).refCnt = 0
        · have hin := (hp.mem_queue b).mpr ⟨hb.1, hb.2, h0⟩
          have hpos := List.length_pos_of_mem hin
          rw [if_pos ⟨h0, hnull⟩, if_pos h0, List.length_erase_of_mem hin]
          omega
        · rw [if_neg fun h => h0 h.1, if_neg h0, Nat.add_zero]
      change ((p.touchBlock b).touch bs).getNumFreeBlocks + _ = _
      omega

/-- What `get_num_blocks_to_allocate` counts. -/
def blocksNeeded (cfg : ManagerConfig) (m : KVCacheManager) (id : String) (numTokens : Nat)
    (hits : List Nat) : Nat :=
  (cdiv numTokens cfg.blockSize - (hits.length + (m.reqToBlocks id).length))
    + numEvictableBlocks m.pool hits

theorem getNumBlocksToAllocate_ok {id : String} {n : Nat}
    (hfresh : hits ≠ [] → m.numCachedBlock id = none) :
    getNumBlocksToAllocate cfg m id n hits = .ok (blocksNeeded cfg m id n hits) := by
  rw [getNumBlocksToAllocate, blocksNeeded]
  cases hc : m.numCachedBlock id with
  | none => simp
  | some k =>
      have hnil : hits = [] := by
        by_contra hne
        rw [hfresh hne] at hc
        cases hc
      simp [hnil, numEvictableBlocks]

theorem cdiv_mono {a a' b : Nat} (h : a ≤ a') : cdiv a b ≤ cdiv a' b :=
  Nat.div_le_div_right (by omega)

theorem div_le_cdiv {a b : Nat} (hb : 0 < b) : a / b ≤ cdiv a b :=
  Nat.div_le_div_right (by omega)

theorem le_cdiv_mul {a b : Nat} (hb : 0 < b) : a ≤ cdiv a b * b := by
  have := Nat.lt_div_mul_add (a := a + b - 1) hb
  rw [cdiv]
  omega

/-- The tokens an allocation makes room for. -/
def numSlots (cfg : ManagerConfig) (r : Request) (a : AllocateArgs) : Nat :=
  min (min (r.numComputedTokens + a.numNewComputedTokens + a.numExternalComputedTokens)
    cfg.maxModelLen + a.numNewTokens + a.numLookaheadTokens) cfg.maxModelLen

/-- The tokens whose full blocks an allocation registers. -/
def numRegisteredTokens (cfg : ManagerConfig) (r : Request) (a : AllocateArgs) : Nat :=
  min (min (r.numComputedTokens + a.numNewComputedTokens + a.numExternalComputedTokens)
    cfg.maxModelLen + a.numNewTokens) r.numTokens

/-- What the callers of `allocate_slots` promise. -/
structure AllocateReady (cfg : ManagerConfig) (m : KVCacheManager) (r : Request)
    (a : AllocateArgs) : Prop where
  hits : Hits cfg m r a.newComputedBlocks
  fresh : a.newComputedBlocks ≠ [] ∨ 0 < a.numExternalComputedTokens →
    (m.reqToBlocks r.requestId = [] ∧ m.numCachedBlock r.requestId = none) ∨
      (a.newComputedBlocks = [] ∧ (m.numCachedBlock r.requestId).isSome = true)
  computed_le :
    r.numComputedTokens + a.numNewComputedTokens + a.numExternalComputedTokens ≤ r.numTokens
  numTokens_le : r.numTokens ≤ cfg.maxModelLen

/-- What an allocation leaves behind. -/
structure Allocated (cfg : ManagerConfig) (requests : String → Option Request) (pins : List Nat)
    (m : KVCacheManager) (r : Request) (a : AllocateArgs) (m' : KVCacheManager) : Prop where
  inv : m'.Inv cfg requests pins
  grown : Grown r.requestId a.newComputedBlocks m m'
  length_table : (m'.reqToBlocks r.requestId).length
    = max (cdiv (numSlots cfg r a) cfg.blockSize)
      ((m.reqToBlocks r.requestId).length + a.newComputedBlocks.length)
  registered_eq : m'.numRegistered r.requestId
    = if cfg.enableCaching = true ∧ a.delayCacheBlocks = false then
        max (m.numRegistered r.requestId + a.newComputedBlocks.length)
          (numRegisteredTokens cfg r a / cfg.blockSize)
      else m.numRegistered r.requestId + a.newComputedBlocks.length
  cached_isSome : 0 < a.numExternalComputedTokens →
    (m'.numCachedBlock r.requestId).isSome = true

/-- The stage of the hits and of the external tokens. -/
theorem allocateComputed_spec (h : m.Inv cfg requests pins) (hr : requests r.requestId = some r)
    {a : AllocateArgs} (ha : AllocateReady cfg m r a)
    (hroom : blocksNeeded cfg m r.requestId (numSlots cfg r a) a.newComputedBlocks
      ≤ m.pool.getNumFreeBlocks) :
    ∃ m', allocateComputed cfg m r a = .ok m' ∧ m'.Inv cfg requests pins ∧
      Grown r.requestId a.newComputedBlocks m m' ∧
      (m.reqToBlocks r.requestId).length + a.newComputedBlocks.length
        ≤ (m'.reqToBlocks r.requestId).length ∧
      (m'.reqToBlocks r.requestId).length ≤ max (cdiv (numSlots cfg r a) cfg.blockSize)
        ((m.reqToBlocks r.requestId).length + a.newComputedBlocks.length) ∧
      m'.numRegistered r.requestId
        = m.numRegistered r.requestId + a.newComputedBlocks.length ∧
      cdiv (numSlots cfg r a) cfg.blockSize - (m'.reqToBlocks r.requestId).length
        ≤ m'.pool.getNumFreeBlocks ∧
      (0 < a.numExternalComputedTokens → (m'.numCachedBlock r.requestId).isSome = true) := by
  have hev := length_queue_touch a.newComputedBlocks h.pool_wf ha.hits.nodup (ha.hits.valid h)
  rw [blocksNeeded] at hroom
  have hunchanged : a.newComputedBlocks = [] → ∃ m', m = m' ∧ m'.Inv cfg requests pins ∧
      Grown r.requestId a.newComputedBlocks m m' ∧
      (m.reqToBlocks r.requestId).length + a.newComputedBlocks.length
        ≤ (m'.reqToBlocks r.requestId).length ∧
      (m'.reqToBlocks r.requestId).length ≤ max (cdiv (numSlots cfg r a) cfg.blockSize)
        ((m.reqToBlocks r.requestId).length + a.newComputedBlocks.length) ∧
      m'.numRegistered r.requestId
        = m.numRegistered r.requestId + a.newComputedBlocks.length ∧
      cdiv (numSlots cfg r a) cfg.blockSize - (m'.reqToBlocks r.requestId).length
        ≤ m'.pool.getNumFreeBlocks := by
    intro hnil
    rw [hnil] at hroom ⊢
    refine ⟨m, rfl, h, Grown.refl _ _, Nat.le_refl _, Nat.le_max_right _ _, rfl, ?_⟩
    simp only [List.length_nil, Nat.zero_add] at hroom
    omega
  by_cases hc : a.newComputedBlocks ≠ [] ∨ 0 < a.numExternalComputedTokens
  · rcases ha.fresh hc with ⟨htable, hcached⟩ | ⟨hnil, hsome⟩
    rotate_left
    · obtain ⟨m', rfl, h1, h2, h3, h4, h5, h6⟩ := hunchanged hnil
      refine ⟨m, ?_, h1, h2, h3, h4, h5, h6, fun _ => hsome⟩
      rw [allocateComputed, if_pos hc, allocateNewComputedBlocks, if_pos hsome, if_neg]
      exact not_not.mpr hnil
    have hinv := withHits_inv h hr htable ha.hits
    have hgrown := withHits_grown a.newComputedBlocks htable hcached
    have hlen : (m.withHits r.requestId a.newComputedBlocks).reqToBlocks r.requestId
        = a.newComputedBlocks := by simp [withHits, setBlocks, setNumCached]
    have hreg : (m.withHits r.requestId a.newComputedBlocks).numRegistered r.requestId
        = m.numRegistered r.requestId + a.newComputedBlocks.length := by
      simp [withHits, setBlocks, setNumCached, numRegistered, hcached]
    have hfree : (m.withHits r.requestId a.newComputedBlocks).pool.getNumFreeBlocks
        + numEvictableBlocks m.pool a.newComputedBlocks = m.pool.getNumFreeBlocks := hev
    rw [htable, List.length_nil] at hroom ⊢
    have hstep : m.allocateNewComputedBlocks cfg r.requestId a.newComputedBlocks
          (r.numComputedTokens + a.numNewComputedTokens) a.numExternalComputedTokens
        = if 0 < a.numExternalComputedTokens then
            (m.withHits r.requestId a.newComputedBlocks).extendBlocks r.requestId
              (cdiv (r.numComputedTokens + a.numNewComputedTokens + a.numExternalComputedTokens)
                cfg.blockSize) >>= fun x => .ok x.2
          else .ok (m.withHits r.requestId a.newComputedBlocks) := by
      rw [allocateNewComputedBlocks, hcached,
        addLocalComputedBlocks_spec htable ha.hits.caching]
      rfl
    rw [allocateComputed, if_pos hc, hstep]
    by_cases hext : 0 < a.numExternalComputedTokens
    · have hmono : cdiv (r.numComputedTokens + a.numNewComputedTokens
          + a.numExternalComputedTokens) cfg.blockSize
          ≤ cdiv (numSlots cfg r a) cfg.blockSize := by
        refine cdiv_mono ?_
        have := ha.computed_le
        have := ha.numTokens_le
        rw [numSlots]
        omega
      obtain ⟨new, m', hm', hinv', hgrown', htab', hlen', hcached', hfree'⟩ :=
        extendBlocks_spec hinv hr (n := cdiv (r.numComputedTokens + a.numNewComputedTokens
          + a.numExternalComputedTokens) cfg.blockSize) (by rw [hlen]; omega)
      have hnew : (m'.reqToBlocks r.requestId).length = a.newComputedBlocks.length + new.length := by
        rw [htab', hlen, List.length_append]
      rw [hlen] at hlen'
      refine ⟨m', by rw [if_pos hext, hm']; rfl, hinv', ?_, by omega, by omega, ?_, by omega, ?_⟩
      · refine hgrown.trans hgrown' fun b hb => ?_
        exact h.pool_wf.refCnt_nonneg b (hinv'.valid _ b hb).2
      · rw [← hreg, numRegistered, hcached', numRegistered]
      · intro _
        rw [hcached']
        simp [withHits, setBlocks, setNumCached]
    · refine ⟨_, by rw [if_neg hext], hinv, hgrown, by rw [hlen]; omega, by rw [hlen]; omega, hreg,
        by rw [hlen]; omega, fun hpos => absurd hpos hext⟩
  · obtain ⟨hnil, hext⟩ := not_or.mp hc
    obtain ⟨m', rfl, h1, h2, h3, h4, h5, h6⟩ := hunchanged (not_not.mp hnil)
    exact ⟨m, by rw [allocateComputed, if_neg hc], h1, h2, h3, h4, h5, h6,
      fun hpos => absurd hpos hext⟩

/-- **The stages of `allocate_slots`** succeed when there is room, and keep the invariant. -/
theorem allocateBlocks_spec (h : m.Inv cfg requests pins) (hr : requests r.requestId = some r)
    {a : AllocateArgs} (ha : AllocateReady cfg m r a)
    (hroom : blocksNeeded cfg m r.requestId (numSlots cfg r a) a.newComputedBlocks
      ≤ m.pool.getNumFreeBlocks) :
    ∃ new m', allocateBlocks cfg m r a = .ok (new, m') ∧ Allocated cfg requests pins m r a m' := by
  obtain ⟨m₁, hm₁, hinv₁, hgrown₁, hge₁, hle₁, hreg₁, hfree₁, hsome₁⟩ := allocateComputed_spec h hr ha hroom
  obtain ⟨new, m₂, hm₂, hinv₂, hgrown₂, -, hlen₂, hcached₂, -⟩ := extendBlocks_spec hinv₁ hr hfree₁
  have hgrown := hgrown₁.trans hgrown₂ fun b hb =>
    h.pool_wf.refCnt_nonneg b (hinv₂.valid _ b hb).2
  have hreg₂ : m₂.numRegistered r.requestId
      = m.numRegistered r.requestId + a.newComputedBlocks.length := by
    rw [← hreg₁, numRegistered, hcached₂, numRegistered]
  have hstages : allocateBlocks cfg m r a
      = if cfg.enableCaching = false ∨ a.delayCacheBlocks = true then .ok (new, m₂)
        else m₂.cacheBlocks cfg r (numRegisteredTokens cfg r a) >>= fun m => .ok (new, m) := by
    rw [allocateBlocks]
    rw [hm₁]
    change (m₁.extendBlocks r.requestId (cdiv (numSlots cfg r a) cfg.blockSize) >>= _) = _
    rw [hm₂]
    rfl
  by_cases hcache : cfg.enableCaching = false ∨ a.delayCacheBlocks = true
  · refine ⟨new, m₂, by rw [hstages, if_pos hcache], hinv₂, hgrown, by omega, ?_,
      fun hpos => by rw [hcached₂]; exact hsome₁ hpos⟩
    rw [if_neg, hreg₂]
    rintro ⟨h1, h2⟩
    rcases hcache with hc | hc
    · rw [h1] at hc; cases hc
    · rw [h2] at hc; cases hc
  · have hfull : numRegisteredTokens cfg r a / cfg.blockSize
        ≤ (m₂.reqToBlocks r.requestId).length := by
      have h1 : numRegisteredTokens cfg r a / cfg.blockSize
          ≤ cdiv (numSlots cfg r a) cfg.blockSize := by
        refine Nat.le_trans (div_le_cdiv cfg.blockSize_pos) (cdiv_mono ?_)
        have := ha.numTokens_le
        rw [numRegisteredTokens, numSlots]
        omega
      omega
    obtain ⟨m₃, hm₃, hinv₃, hgrown₃, htab₃, hreg₃, hsome₃⟩ := cacheBlocks_spec hinv₂ hr hfull
      (Nat.min_le_right _ _)
    refine ⟨new, m₃, by rw [hstages, if_neg hcache, hm₃]; rfl, hinv₃, ?_, ?_, ?_,
      fun hpos => hsome₃ (by rw [hcached₂]; exact hsome₁ hpos)⟩
    · exact hgrown.trans hgrown₃ fun b hb => h.pool_wf.refCnt_nonneg b (hinv₃.valid _ b hb).2
    · rw [htab₃]; omega
    · obtain ⟨hc1, hc2⟩ := not_or.mp hcache
      rw [if_pos ⟨by simpa using hc1, by simpa using hc2⟩, hreg₃, hreg₂]

/-- The two checks of `allocate_slots`. -/
def Room (cfg : ManagerConfig) (m : KVCacheManager) (r : Request) (a : AllocateArgs) : Prop :=
  (a.fullSequenceMustFit = true →
    blocksNeeded cfg m r.requestId (min r.numTokens cfg.maxModelLen) a.newComputedBlocks
      + watermark cfg r a.hasScheduledReqs ≤ m.pool.getNumFreeBlocks) ∧
  blocksNeeded cfg m r.requestId (numSlots cfg r a) a.newComputedBlocks
    + watermark cfg r a.hasScheduledReqs + a.reservedBlocks ≤ m.pool.getNumFreeBlocks

theorem hasRoom_eq {a : AllocateArgs} (ha : AllocateReady cfg m r a) :
    ∃ b, hasRoom cfg m r a = .ok b ∧ (b = true ↔ Room cfg m r a) := by
  have hfresh : a.newComputedBlocks ≠ [] → m.numCachedBlock r.requestId = none :=
    fun hne => ((ha.fresh (Or.inl hne)).resolve_right fun h => hne h.1).2
  by_cases hfull : a.fullSequenceMustFit = true ∧ m.pool.getNumFreeBlocks
      < blocksNeeded cfg m r.requestId (min r.numTokens cfg.maxModelLen) a.newComputedBlocks
        + watermark cfg r a.hasScheduledReqs
  · refine ⟨false, ?_, ?_⟩
    · rw [hasRoom, getNumBlocksToAllocate_ok hfresh]
      exact if_pos hfull
    · refine ⟨nofun, fun hroom => ?_⟩
      have := hroom.1 hfull.1
      omega
  · refine ⟨decide (blocksNeeded cfg m r.requestId (numSlots cfg r a) a.newComputedBlocks
      + watermark cfg r a.hasScheduledReqs + a.reservedBlocks ≤ m.pool.getNumFreeBlocks), ?_, ?_⟩
    · rw [hasRoom, getNumBlocksToAllocate_ok hfresh]
      change (if _ then _ else _) = _
      rw [if_neg hfull]
      change (getNumBlocksToAllocate cfg m r.requestId (numSlots cfg r a) a.newComputedBlocks
        >>= _) = _
      rw [getNumBlocksToAllocate_ok hfresh]
      rfl
    · rw [decide_eq_true_iff, Room, and_iff_right]
      intro hf
      by_contra hlt
      exact hfull ⟨hf, by omega⟩

/-- **`allocate_slots` in full**: with room it allocates, without it changes nothing. -/
theorem allocateSlots_spec (h : m.Inv cfg requests pins) (hr : requests r.requestId = some r)
    {a : AllocateArgs} (ha : AllocateReady cfg m r a)
    (hpos : ¬ (a.numNewTokens = 0 ∧ a.numExternalComputedTokens = 0)) :
    (Room cfg m r a → ∃ new m', allocateSlots cfg m r a = .ok (some new, m') ∧
      Allocated cfg requests pins m r a m') ∧
    (¬ Room cfg m r a → allocateSlots cfg m r a = .ok (none, m)) := by
  obtain ⟨b, hb, hiff⟩ := hasRoom_eq ha
  have heq : allocateSlots cfg m r a
      = if b = true then allocateBlocks cfg m r a >>= fun x => .ok (some x.1, x.2)
        else .ok (none, m) := by
    rw [allocateSlots, if_neg hpos, hb]
    rfl
  refine ⟨fun hroom => ?_, fun hroom => by rw [heq, if_neg fun ht => hroom (hiff.mp ht)]⟩
  obtain ⟨new, m', hm', hall⟩ := allocateBlocks_spec h hr ha
    (by have := hroom.2; omega)
  exact ⟨new, m', by rw [heq, if_pos (hiff.mpr hroom), hm']; rfl, hall⟩

/-- A successful `allocate_slots`. -/
theorem allocateSlots_some (h : m.Inv cfg requests pins) (hr : requests r.requestId = some r)
    {a : AllocateArgs} (ha : AllocateReady cfg m r a) {new : List Nat} {m' : KVCacheManager}
    (hs : allocateSlots cfg m r a = .ok (some new, m')) :
    Allocated cfg requests pins m r a m' := by
  have hpos : ¬ (a.numNewTokens = 0 ∧ a.numExternalComputedTokens = 0) := by
    intro h0
    rw [allocateSlots, if_pos h0] at hs
    cases hs
  obtain ⟨hyes, hno⟩ := allocateSlots_spec h hr ha hpos
  by_cases hroom : Room cfg m r a
  · obtain ⟨new', m'', hs', hall⟩ := hyes hroom
    rw [hs', Except.ok.injEq, Prod.mk.injEq] at hs
    exact hs.2 ▸ hall
  · rw [hno hroom] at hs
    cases hs

/-- An unsuccessful `allocate_slots` leaves the manager as it was. -/
theorem allocateSlots_none {a : AllocateArgs} {m' : KVCacheManager}
    (hs : allocateSlots cfg m r a = .ok (none, m')) : m' = m := by
  rw [allocateSlots] at hs
  split at hs
  · cases hs
  · obtain ⟨b, -, hb⟩ := Except.bind_eq_ok.mp hs
    split at hb
    · obtain ⟨x, -, hx⟩ := Except.bind_eq_ok.mp hb
      cases hx
    · cases hb
      rfl

/-! ### The way back -/

/-- What freeing a request does to everything but the pool. -/
structure Freed (cfg : ManagerConfig) (m : KVCacheManager) (r : Request) (isFinished : Bool)
    (m' : KVCacheManager) : Prop where
  reqToBlocks_eq : m'.reqToBlocks = Function.update m.reqToBlocks r.requestId []
  numCachedBlock_eq : m'.numCachedBlock = Function.update m.numCachedBlock r.requestId none
  locator_eq : m'.locator = (m.indexPartialReuseSource cfg r isFinished).locator
  blockHash_eq : ∀ b, (m'.pool.blocks b).blockHash = (m.pool.blocks b).blockHash

theorem indexPartialReuseSource_same (m : KVCacheManager) (r : Request) (isFinished : Bool) :
    (m.indexPartialReuseSource cfg r isFinished).pool = m.pool ∧
      (m.indexPartialReuseSource cfg r isFinished).reqToBlocks = m.reqToBlocks ∧
      (m.indexPartialReuseSource cfg r isFinished).numCachedBlock = m.numCachedBlock := by
  rw [indexPartialReuseSource]
  split
  · exact ⟨rfl, rfl, rfl⟩
  · exact ⟨rfl, rfl, rfl⟩

theorem popBlocksForFree_pool (m : KVCacheManager) (r : Request) (isFinished : Bool) :
    (popBlocksForFree cfg m r isFinished).2.pool = m.pool :=
  (indexPartialReuseSource_same m r isFinished).1

theorem popBlocksForFree_freed (m : KVCacheManager) (r : Request) (isFinished : Bool) :
    Freed cfg m r isFinished (popBlocksForFree cfg m r isFinished).2 := by
  refine ⟨?_, ?_, rfl, fun b => by rw [popBlocksForFree_pool]⟩
  · change Function.update (m.indexPartialReuseSource cfg r isFinished).reqToBlocks _ _ = _
    rw [(indexPartialReuseSource_same m r isFinished).2.1]
  · change Function.update (m.indexPartialReuseSource cfg r isFinished).numCachedBlock _ _ = _
    rw [(indexPartialReuseSource_same m r isFinished).2.2]

theorem free_pool (m : KVCacheManager) (r : Request) (isFinished : Bool) :
    (free cfg m r isFinished).pool = m.pool.freeBlocks (m.reqToBlocks r.requestId).reverse := by
  rw [free, indexPartialReuseSource]
  split <;> rfl

/-- `free` pops the blocks and returns them at once. -/
theorem free_eq (m : KVCacheManager) (r : Request) (isFinished : Bool) :
    free cfg m r isFinished = { (popBlocksForFree cfg m r isFinished).2 with
      pool := m.pool.freeBlocks (m.reqToBlocks r.requestId).reverse } := by
  rw [← free_pool]
  rfl

theorem free_freed (m : KVCacheManager) (r : Request) (isFinished : Bool) :
    Freed cfg m r isFinished (free cfg m r isFinished) := by
  have h : Freed cfg m r isFinished _ := popBlocksForFree_freed m r isFinished
  rw [free_eq]
  exact ⟨h.reqToBlocks_eq, h.numCachedBlock_eq, h.locator_eq,
    fun b => by rw [BlockPool.freeBlocks_blocks]⟩

theorem free_reqToBlocks (m : KVCacheManager) (r : Request) (isFinished : Bool) :
    (free cfg m r isFinished).reqToBlocks = Function.update m.reqToBlocks r.requestId [] :=
  (free_freed m r isFinished).reqToBlocks_eq

theorem free_numCachedBlock (m : KVCacheManager) (r : Request) (isFinished : Bool) :
    (free cfg m r isFinished).numCachedBlock
      = Function.update m.numCachedBlock r.requestId none :=
  (free_freed m r isFinished).numCachedBlock_eq

theorem free_locator (m : KVCacheManager) (r : Request) (isFinished : Bool) :
    (free cfg m r isFinished).locator = (m.indexPartialReuseSource cfg r isFinished).locator :=
  (free_freed m r isFinished).locator_eq

theorem free_blockHash (m : KVCacheManager) (r : Request) (isFinished : Bool) (b : Nat) :
    ((free cfg m r isFinished).pool.blocks b).blockHash = (m.pool.blocks b).blockHash :=
  (free_freed m r isFinished).blockHash_eq b

/-- **The blocks of a popped table are pinned instead.** -/
theorem popBlocksForFree_inv (h : m.Inv cfg requests pins) (r : Request) (isFinished : Bool) :
    (popBlocksForFree cfg m r isFinished).2.Inv cfg requests
      (pins ++ m.reqToBlocks r.requestId) := by
  obtain ⟨ids, hs, hc⟩ := h.counts
  have hs' : Supported (insert r.requestId ids) m.reqToBlocks :=
    hs.mono (Finset.subset_insert _ _)
  have hfreed : Freed cfg m r isFinished _ := popBlocksForFree_freed m r isFinished
  have hpool : (popBlocksForFree cfg m r isFinished).2.pool = m.pool :=
    popBlocksForFree_pool m r isFinished
  generalize (popBlocksForFree cfg m r isFinished).2 = m' at hfreed hpool ⊢
  have htab : ∀ id, m'.reqToBlocks id = if id = r.requestId then [] else m.reqToBlocks id := by
    intro id
    rw [hfreed.reqToBlocks_eq, Function.update_apply]
  have hreg : ∀ id, m'.numRegistered id = if id = r.requestId then 0 else m.numRegistered id := by
    intro id
    rw [numRegistered, hfreed.numCachedBlock_eq, Function.update_apply]
    split
    · rfl
    · rfl
  refine { pool_wf := by rw [hpool]; exact h.pool_wf,
           counts := ⟨insert r.requestId ids, ?_, ?_⟩, valid := ?_, valid_pins := ?_, nodup := ?_,
           live := ?_, registered := ?_, registered_le := ?_, registered_tokens := ?_,
           registered_of_shared := ?_ }
  · rw [hfreed.reqToBlocks_eq]
    exact hs'.update (Finset.mem_insert_self _ _) []
  · intro b hb
    have h1 := refs_update m.reqToBlocks (Finset.mem_insert_self r.requestId ids) [] b
    rw [refs_insert hs, List.count_nil, Nat.add_zero] at h1
    rw [hpool, hfreed.reqToBlocks_eq, List.count_append, hc b hb, ← h1]
    push_cast
    omega
  · intro id b hb
    rw [hpool]
    rw [htab] at hb
    split at hb
    · simp at hb
    · exact h.valid id b hb
  · intro b hb
    rw [hpool]
    rcases List.mem_append.mp hb with hb | hb
    · exact h.valid_pins b hb
    · exact h.valid _ b hb
  · intro id
    rw [htab]
    split
    · exact List.nodup_nil
    · exact h.nodup id
  · intro id hn
    rw [htab, hfreed.numCachedBlock_eq]
    by_cases hid : id = r.requestId
    · subst hid; simp
    · rw [if_neg hid, Function.update_of_ne hid]
      exact h.live id hn
  · intro id q hq i b hb
    rw [hfreed.blockHash_eq, hreg]
    rw [htab] at hb
    split at hb
    · simp at hb
    · next hid =>
        rw [if_neg hid]
        exact h.registered id q hq i b hb
  · intro id
    rw [htab, hreg]
    split
    · exact Nat.zero_le _
    · exact h.registered_le id
  · intro id q hq
    rw [hreg]
    split
    · simp
    · exact h.registered_tokens id q hq
  · intro id₁ id₂ b h1 h2 hne
    rw [hfreed.blockHash_eq]
    rw [htab] at h1 h2
    split at h1
    · simp at h1
    · split at h2
      · simp at h2
      · exact h.registered_of_shared id₁ id₂ b h1 h2 hne

/-- **Freeing a request keeps the invariant.** -/
theorem free_inv (h : m.Inv cfg requests pins) (r : Request) (isFinished : Bool) :
    (free cfg m r isFinished).Inv cfg requests pins := by
  rw [free_eq, ← popBlocksForFree_pool m r isFinished]
  exact (popBlocksForFree_inv h r isFinished).freePins _ pins
    (List.Perm.append_left _ (List.reverse_perm _).symm)

/-- A pool that is reset has no block in use. -/
theorem free_of_resetPrefixCache {p q : BlockPool} (hp : p.WF) (h : p.resetPrefixCache = some q) :
    ∀ b, b < p.numGpuBlocks → b ≠ 0 → (p.blocks b).refCnt = 0 := by
  intro b hb h0
  rw [BlockPool.resetPrefixCache] at h
  split at h
  · cases h
  · next hlen =>
      have hsub : p.freeBlockQueue.toFinset ⊆ (Finset.range p.numGpuBlocks).erase 0 := by
        intro x hx
        have := (hp.mem_queue x).mp (List.mem_toFinset.mp hx)
        rw [Finset.mem_erase, Finset.mem_range]
        exact ⟨this.2.1, this.1⟩
      have hcard : ((Finset.range p.numGpuBlocks).erase 0).card ≤ p.freeBlockQueue.toFinset.card := by
        rw [Finset.card_erase_of_mem (Finset.mem_range.mpr (by omega)), Finset.card_range,
          List.toFinset_card_of_nodup hp.nodup_queue]
        rw [BlockPool.getNumFreeBlocks] at hlen
        omega
      have heq := Finset.eq_of_subset_of_card_le hsub hcard
      have hin : b ∈ p.freeBlockQueue.toFinset := by
        rw [heq, Finset.mem_erase, Finset.mem_range]
        exact ⟨h0, hb⟩
      exact ((hp.mem_queue b).mp (List.mem_toFinset.mp hin)).2.2

/-- An idle pool is reset: every request has lost its blocks. -/
theorem resetPrefixCache_inv (h : m.Inv cfg requests pins) {m' : KVCacheManager}
    (hr : m.resetPrefixCache cfg = some m') : m'.Inv cfg requests pins := by
  rw [resetPrefixCache, Option.map_eq_some_iff] at hr
  obtain ⟨pool, hpool, rfl⟩ := hr
  have hwf := BlockPool.resetPrefixCache_wf h.pool_wf hpool
  have hfree := free_of_resetPrefixCache h.pool_wf hpool
  rw [BlockPool.resetPrefixCache] at hpool
  split at hpool
  · cases hpool
  · cases hpool
    have hempty : ∀ id, m.reqToBlocks id = [] := by
      intro id
      refine List.eq_nil_iff_forall_not_mem.mpr fun b hb => ?_
      have := h.refCnt_pos hb
      have := hfree b (h.valid id b hb).1 (h.valid id b hb).2
      omega
    refine { pool_wf := hwf, counts := h.counts, valid := h.valid, valid_pins := h.valid_pins,
             nodup := h.nodup, live := h.live, registered := ?_, registered_le := h.registered_le,
             registered_tokens := h.registered_tokens, registered_of_shared := ?_ }
    · intro id r _ i b hb
      change (m.reqToBlocks id)[i]? = some b at hb
      rw [hempty id] at hb
      simp at hb
    · intro id _ b hb
      change b ∈ m.reqToBlocks id at hb
      rw [hempty id] at hb
      simp at hb

end

end KVCacheManager

end CacheSelect.Core

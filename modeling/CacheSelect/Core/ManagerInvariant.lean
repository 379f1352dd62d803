import CacheSelect.Core.KVCacheManager
import CacheSelect.Lib.RefCount
import CacheSelect.Lib.Except

/-! # The invariant of the KV-cache manager

`KVCacheManager.Inv` says what holds of the pool and the block tables together: every reference of a
block is held by a table or a pin, the registered blocks of a request carry the hashes of its own
token prefix, and a block in two tables is registered.  `Grown` is the frame of a stage of an
allocation: one table grows at its end by blocks that nobody held, and no hash changes but those of
the request's unregistered blocks.

Each stage of `allocate_slots`, `free` and the pinning of sources keeps the invariant, and
`allocateBlocks_spec` puts the stages together.
-/

namespace CacheSelect.Core

open RefCount

/-- Two versions of a request agree on the hashes of the first blocks. -/
def SameHashes (blockSize n : Nat) (r r' : Request) : Prop :=
  ∀ i < n, r'.blockHashAt blockSize i = r.blockHashAt blockSize i

namespace KVCacheManager

/-- **The manager's invariant**, for the live requests and the blocks pinned beside the tables. -/
structure Inv (cfg : ManagerConfig) (requests : String → Option Request) (pins : List Nat)
    (m : KVCacheManager) : Prop where
  pool_wf : m.pool.WF
  counts : ∃ ids : Finset String, Supported ids m.reqToBlocks ∧ ∀ b, b ≠ 0 →
    (m.pool.blocks b).refCnt = (refs ids m.reqToBlocks b : Nat) + (pins.count b : Nat)
  valid : ∀ id, ∀ b ∈ m.reqToBlocks id, b < m.pool.numGpuBlocks ∧ b ≠ 0
  valid_pins : ∀ b ∈ pins, b < m.pool.numGpuBlocks ∧ b ≠ 0
  nodup : ∀ id, (m.reqToBlocks id).Nodup
  live : ∀ id, requests id = none → m.reqToBlocks id = [] ∧ m.numCachedBlock id = none
  registered : ∀ id r, requests id = some r → ∀ i b, (m.reqToBlocks id)[i]? = some b →
    (m.pool.blocks b).blockHash
      = if i < m.numRegistered id then some (r.blockHashAt cfg.blockSize i) else none
  registered_le : ∀ id, m.numRegistered id ≤ (m.reqToBlocks id).length
  registered_tokens : ∀ id r, requests id = some r →
    m.numRegistered id * cfg.blockSize ≤ r.numTokens
  registered_of_shared : ∀ id id' b, b ∈ m.reqToBlocks id → b ∈ m.reqToBlocks id' → id ≠ id' →
    (m.pool.blocks b).blockHash ≠ none

section

variable {cfg : ManagerConfig} {requests : String → Option Request} {pins : List Nat}
  {m : KVCacheManager}

theorem Inv.refCnt_pos (h : m.Inv cfg requests pins) {id : String} {b : Nat}
    (hb : b ∈ m.reqToBlocks id) : 0 < (m.pool.blocks b).refCnt := by
  obtain ⟨ids, hs, hc⟩ := h.counts
  have := refs_pos hs hb
  rw [hc b (h.valid id b hb).2]
  omega

theorem Inv.refCnt_pos_of_pin (h : m.Inv cfg requests pins) {b : Nat} (hb : b ∈ pins) :
    0 < (m.pool.blocks b).refCnt := by
  obtain ⟨ids, hs, hc⟩ := h.counts
  have := List.count_pos_iff.mpr hb
  rw [hc b (h.valid_pins b hb).2]
  omega

/-- A block without references is in no table. -/
theorem Inv.not_mem_of_refCnt (h : m.Inv cfg requests pins) {b : Nat}
    (hb : (m.pool.blocks b).refCnt = 0) (id : String) : b ∉ m.reqToBlocks id := by
  intro hin
  have := h.refCnt_pos hin
  omega

/-- The blocks of a table that are not registered yet have no hash. -/
theorem Inv.blockHash_eq_none (h : m.Inv cfg requests pins) {id : String} {i b : Nat}
    (hb : (m.reqToBlocks id)[i]? = some b) (hi : m.numRegistered id ≤ i) :
    (m.pool.blocks b).blockHash = none := by
  cases hr : requests id with
  | none =>
      rw [(h.live id hr).1] at hb
      simp at hb
  | some r => rw [h.registered id r hr i b hb, if_neg (by omega)]

/-- In a table, the hash of a block tells its index. -/
theorem Inv.registered_iff (h : m.Inv cfg requests pins) {id : String} {r : Request}
    (hr : requests id = some r) {i b : Nat} (hb : (m.reqToBlocks id)[i]? = some b)
    (hh : (m.pool.blocks b).blockHash ≠ none) :
    i < m.numRegistered id ∧ (m.pool.blocks b).blockHash = some (r.blockHashAt cfg.blockSize i) := by
  have hreg := h.registered id r hr i b hb
  by_cases hi : i < m.numRegistered id
  · rw [if_pos hi] at hreg
    exact ⟨hi, hreg⟩
  · rw [if_neg hi] at hreg
    exact absurd hreg hh

/-! ### Changes that leave the tables alone -/

/-- Another version of a live request. -/
theorem Inv.set_request (h : m.Inv cfg requests pins) {id : String} {r : Request} (r' : Request)
    (hr : requests id = some r) (hs : SameHashes cfg.blockSize (m.numRegistered id) r r')
    (hn : r.numTokens ≤ r'.numTokens) :
    m.Inv cfg (Function.update requests id (some r')) pins := by
  refine { h with live := ?_, registered := ?_, registered_tokens := ?_ }
  · intro id' hn'
    by_cases hid : id' = id
    · subst hid; simp at hn'
    · rw [Function.update_of_ne hid] at hn'
      exact h.live id' hn'
  · intro id' q hq i b hb
    by_cases hid : id' = id
    · subst hid
      rw [Function.update_self, Option.some.injEq] at hq
      subst hq
      rw [h.registered id' r hr i b hb]
      by_cases hi : i < m.numRegistered id'
      · rw [if_pos hi, if_pos hi, hs i hi]
      · rw [if_neg hi, if_neg hi]
    · rw [Function.update_of_ne hid] at hq
      exact h.registered id' q hq i b hb
  · intro id' q hq
    by_cases hid : id' = id
    · subst hid
      rw [Function.update_self, Option.some.injEq] at hq
      subst hq
      exact Nat.le_trans (h.registered_tokens id' r hr) hn
    · rw [Function.update_of_ne hid] at hq
      exact h.registered_tokens id' q hq

/-- Other versions of all live requests. -/
theorem Inv.map_requests (h : m.Inv cfg requests pins) {f : Request → Request}
    (hf : ∀ r, (∀ i, (f r).blockHashAt cfg.blockSize i = r.blockHashAt cfg.blockSize i) ∧
      (f r).numTokens = r.numTokens) :
    m.Inv cfg (fun id => (requests id).map f) pins := by
  refine { h with live := ?_, registered := ?_, registered_tokens := ?_ }
  · intro id hn
    exact h.live id (Option.map_eq_none_iff.mp hn)
  · intro id q hq i b hb
    obtain ⟨r, hr, rfl⟩ := Option.map_eq_some_iff.mp hq
    rw [(hf r).1]
    exact h.registered id r hr i b hb
  · intro id q hq
    obtain ⟨r, hr, rfl⟩ := Option.map_eq_some_iff.mp hq
    rw [(hf r).2]
    exact h.registered_tokens id r hr

/-- A request that is not live enters without blocks. -/
theorem Inv.add_request (h : m.Inv cfg requests pins) {id : String} (hr : requests id = none)
    (r : Request) : m.Inv cfg (Function.update requests id (some r)) pins := by
  obtain ⟨htable, hcached⟩ := h.live id hr
  refine { h with live := ?_, registered := ?_, registered_tokens := ?_ }
  · intro id' hn'
    by_cases hid : id' = id
    · subst hid; simp at hn'
    · rw [Function.update_of_ne hid] at hn'
      exact h.live id' hn'
  · intro id' q hq i b hb
    by_cases hid : id' = id
    · subst hid
      rw [htable] at hb
      simp at hb
    · rw [Function.update_of_ne hid] at hq
      exact h.registered id' q hq i b hb
  · intro id' q hq
    by_cases hid : id' = id
    · subst hid
      simp [numRegistered, hcached]
    · rw [Function.update_of_ne hid] at hq
      exact h.registered_tokens id' q hq

/-- A request without blocks leaves. -/
theorem Inv.remove_request (h : m.Inv cfg requests pins) {id : String}
    (htable : m.reqToBlocks id = []) (hcached : m.numCachedBlock id = none) :
    m.Inv cfg (Function.update requests id none) pins := by
  refine { h with live := ?_, registered := ?_, registered_tokens := ?_ }
  · intro id' hn'
    by_cases hid : id' = id
    · subst hid; exact ⟨htable, hcached⟩
    · rw [Function.update_of_ne hid] at hn'
      exact h.live id' hn'
  · intro id' q hq
    by_cases hid : id' = id
    · subst hid; simp at hq
    · rw [Function.update_of_ne hid] at hq
      exact h.registered id' q hq
  · intro id' q hq
    by_cases hid : id' = id
    · subst hid; simp at hq
    · rw [Function.update_of_ne hid] at hq
      exact h.registered_tokens id' q hq

/-- References move between the pool and the pins. -/
theorem Inv.repin (h : m.Inv cfg requests pins) {pool : BlockPool} {pins' : List Nat}
    (hwf : pool.WF) (hN : pool.numGpuBlocks = m.pool.numGpuBlocks)
    (hhash : ∀ b, (pool.blocks b).blockHash = (m.pool.blocks b).blockHash)
    (hv : ∀ b ∈ pins', b < m.pool.numGpuBlocks ∧ b ≠ 0)
    (hcnt : ∀ b, (pool.blocks b).refCnt + (pins.count b : Nat)
      = (m.pool.blocks b).refCnt + (pins'.count b : Nat)) :
    Inv cfg requests pins' { m with pool := pool } := by
  obtain ⟨ids, hs, hc⟩ := h.counts
  refine { pool_wf := hwf, counts := ⟨ids, hs, ?_⟩, valid := ?_, valid_pins := ?_,
           nodup := h.nodup, live := h.live, registered := ?_, registered_le := h.registered_le,
           registered_tokens := h.registered_tokens, registered_of_shared := ?_ }
  · intro b hb
    have h1 := hcnt b
    have h2 := hc b hb
    change (pool.blocks b).refCnt = (refs ids m.reqToBlocks b : Nat) + (pins'.count b : Nat)
    omega
  · intro id b hb
    change b < pool.numGpuBlocks ∧ _
    rw [hN]
    exact h.valid id b hb
  · intro b hb
    change b < pool.numGpuBlocks ∧ _
    rw [hN]
    exact hv b hb
  · intro id r hr i b hb
    change (pool.blocks b).blockHash = _
    rw [hhash]
    exact h.registered id r hr i b hb
  · intro id id' b hb hb' hne
    change (pool.blocks b).blockHash ≠ none
    rw [hhash]
    exact h.registered_of_shared id id' b hb hb' hne

/-- The order of the pins does not matter. -/
theorem Inv.perm (h : m.Inv cfg requests pins) {pins' : List Nat} (hp : pins.Perm pins') :
    m.Inv cfg requests pins' :=
  h.repin h.pool_wf rfl (fun _ => rfl) (fun b hb => h.valid_pins b (hp.mem_iff.mpr hb))
    fun b => by rw [hp.count_eq]

theorem Inv.touch (h : m.Inv cfg requests pins) {bs : List Nat}
    (hv : ∀ b ∈ bs, b < m.pool.numGpuBlocks ∧ b ≠ 0) :
    Inv cfg requests (pins ++ bs) { m with pool := m.pool.touch bs } := by
  refine h.repin (BlockPool.touch_wf bs h.pool_wf fun b hb => (hv b hb).2)
    (BlockPool.touch_numGpuBlocks bs _) ?_ ?_ ?_
  · intro b; rw [BlockPool.touch_blocks]
  · intro b hb
    rcases List.mem_append.mp hb with hb | hb
    · exact h.valid_pins b hb
    · exact hv b hb
  · intro b
    rw [BlockPool.touch_blocks, List.count_append]
    change (m.pool.blocks b).refCnt + _ + _ = _
    push_cast
    omega

theorem Inv.freePins (h : m.Inv cfg requests pins) (bs pins' : List Nat)
    (hp : pins.Perm (pins' ++ bs)) :
    Inv cfg requests pins' { m with pool := m.pool.freeBlocks bs } := by
  have hmem : ∀ b, b ∈ pins' ∨ b ∈ bs → b ∈ pins := fun b hb =>
    hp.mem_iff.mpr (List.mem_append.mpr hb)
  obtain ⟨ids, hs, hc⟩ := h.counts
  have hcnt : ∀ b, pins.count b = pins'.count b + bs.count b := by
    intro b
    rw [hp.count_eq, List.count_append]
  refine h.repin (BlockPool.freeBlocks_wf h.pool_wf
    (fun b hb => h.valid_pins b (hmem b (Or.inr hb))) ?_)
    (BlockPool.freeBlocks_numGpuBlocks _ bs) ?_ (fun b hb => h.valid_pins b (hmem b (Or.inl hb))) ?_
  · intro b hb
    have h1 := hc b (h.valid_pins b (hmem b (Or.inr hb))).2
    have h2 := hcnt b
    omega
  · intro b; rw [BlockPool.freeBlocks_blocks]
  · intro b
    rw [BlockPool.freeBlocks_blocks]
    have h2 := hcnt b
    change (m.pool.blocks b).refCnt - _ + _ = _
    omega

end

/-! ### The frame of an allocation -/

/-- A stage of an allocation for one request: its table grows by cached blocks, if it was empty, and
by blocks that nobody held. -/
structure Grown (id : String) (hits : List Nat) (m m' : KVCacheManager) : Prop where
  locator_eq : m'.locator = m.locator
  numGpuBlocks_eq : m'.pool.numGpuBlocks = m.pool.numGpuBlocks
  table_of_ne : ∀ id', id' ≠ id → m'.reqToBlocks id' = m.reqToBlocks id'
  cached_of_ne : ∀ id', id' ≠ id → m'.numCachedBlock id' = m.numCachedBlock id'
  empty_or_nil : m.reqToBlocks id = [] ∨ hits = []
  table_prefix : m.reqToBlocks id ++ hits <+: m'.reqToBlocks id
  registered_mono : m.numRegistered id + hits.length ≤ m'.numRegistered id
  refCnt_le : ∀ b, (m.pool.blocks b).refCnt ≤ (m'.pool.blocks b).refCnt
  fresh : ∀ b ∈ m'.reqToBlocks id, b ∉ m.reqToBlocks id ++ hits → (m.pool.blocks b).refCnt = 0
  blockHash_of_not_mem : ∀ b, b ∉ (m'.reqToBlocks id).drop (m.numRegistered id + hits.length) →
    (m'.pool.blocks b).blockHash = (m.pool.blocks b).blockHash

theorem Grown.refl (id : String) (m : KVCacheManager) : Grown id [] m m where
  locator_eq := rfl
  numGpuBlocks_eq := rfl
  table_of_ne := fun _ _ => rfl
  cached_of_ne := fun _ _ => rfl
  empty_or_nil := Or.inr rfl
  table_prefix := by rw [List.append_nil]
  registered_mono := Nat.le_refl _
  refCnt_le := fun _ => le_refl _
  fresh := fun _ hb hb' => absurd (List.append_nil _ ▸ hb) hb'
  blockHash_of_not_mem := fun _ _ => rfl

/-- Dropping from a list drops no more from a longer one. -/
theorem mem_drop_of_prefix {l l' : List Nat} (hp : l <+: l') {n n' b : Nat} (hn : n ≤ n')
    (hb : b ∈ l.drop n') : b ∈ l'.drop n := by
  obtain ⟨t, rfl⟩ := hp
  rw [List.drop_append, List.mem_append]
  left
  have : l.drop n' = (l.drop n).drop (n' - n) := by
    rw [List.drop_drop]; congr 1; omega
  rw [this] at hb
  exact List.mem_of_mem_drop hb

theorem Grown.trans {id : String} {hits : List Nat} {m₀ m₁ m₂ : KVCacheManager}
    (h : Grown id hits m₀ m₁) (h' : Grown id [] m₁ m₂)
    (hnn : ∀ b ∈ m₂.reqToBlocks id, 0 ≤ (m₀.pool.blocks b).refCnt) : Grown id hits m₀ m₂ where
  locator_eq := h'.locator_eq.trans h.locator_eq
  numGpuBlocks_eq := h'.numGpuBlocks_eq.trans h.numGpuBlocks_eq
  table_of_ne := fun id' hne => (h'.table_of_ne id' hne).trans (h.table_of_ne id' hne)
  cached_of_ne := fun id' hne => (h'.cached_of_ne id' hne).trans (h.cached_of_ne id' hne)
  empty_or_nil := h.empty_or_nil
  table_prefix := h.table_prefix.trans (List.append_nil (m₁.reqToBlocks id) ▸ h'.table_prefix)
  registered_mono := Nat.le_trans h.registered_mono h'.registered_mono
  refCnt_le := fun b => le_trans (h.refCnt_le b) (h'.refCnt_le b)
  fresh := by
    intro b hb hb'
    by_cases h1 : b ∈ m₁.reqToBlocks id
    · exact h.fresh b h1 hb'
    · have h0 := h'.fresh b hb (by rwa [List.append_nil])
      have := h.refCnt_le b
      have := hnn b hb
      omega
  blockHash_of_not_mem := by
    intro b hb
    rw [h'.blockHash_of_not_mem b fun hin => hb ?_, h.blockHash_of_not_mem b fun hin => hb ?_]
    · exact mem_drop_of_prefix (List.append_nil (m₁.reqToBlocks id) ▸ h'.table_prefix)
        (Nat.le_refl _) hin
    · exact mem_drop_of_prefix List.prefix_rfl h.registered_mono hin

theorem Grown.getElem?_of_lt {id : String} {hits : List Nat} {m m' : KVCacheManager}
    (hg : Grown id hits m m') {i b : Nat} (hb : (m.reqToBlocks id ++ hits)[i]? = some b) :
    (m'.reqToBlocks id)[i]? = some b := by
  obtain ⟨t, ht⟩ := hg.table_prefix
  rw [← ht, List.getElem?_append_left (List.getElem?_eq_some_iff.mp hb).1]
  exact hb

section

variable {cfg : ManagerConfig} {requests : String → Option Request} {pins : List Nat}
  {m m' : KVCacheManager}

/-- An allocation writes to no registered block that somebody holds, nor to the hits. -/
theorem Grown.not_mem_drop (h : m.Inv cfg requests pins) (h' : m'.Inv cfg requests pins)
    {id : String} {hits : List Nat} (hg : Grown id hits m m') {b : Nat}
    (hpos : 0 < (m.pool.blocks b).refCnt ∨ b ∈ hits) (hh : (m.pool.blocks b).blockHash ≠ none) :
    b ∉ (m'.reqToBlocks id).drop (m.numRegistered id + hits.length) := by
  intro hin
  obtain ⟨i, hi⟩ := List.mem_iff_getElem?.mp hin
  rw [List.getElem?_drop] at hi
  by_cases hb : b ∈ m.reqToBlocks id ++ hits
  · obtain ⟨j, hj⟩ := List.mem_iff_getElem?.mp hb
    have hij := (List.getElem?_inj (List.getElem?_eq_some_iff.mp hi).1 (h'.nodup id)).mp
      (hi.trans (hg.getElem?_of_lt hj).symm)
    rcases hg.empty_or_nil with he | he
    · rw [he, List.nil_append] at hj
      have := (List.getElem?_eq_some_iff.mp hj).1
      omega
    · subst he
      rw [List.append_nil] at hj
      exact hh (h.blockHash_eq_none hj (by omega))
  · have h0 := hg.fresh b (List.mem_of_mem_drop hin) hb
    rcases hpos with hpos | hpos
    · omega
    · exact hb (List.mem_append_right _ hpos)

/-- **Held hashes stay.**  An allocation changes no hash of a block that somebody holds, nor of the
hits. -/
theorem Grown.blockHash_eq (h : m.Inv cfg requests pins) (h' : m'.Inv cfg requests pins)
    {id : String} {hits : List Nat} (hg : Grown id hits m m') {b : Nat}
    (hpos : 0 < (m.pool.blocks b).refCnt ∨ b ∈ hits) (hh : (m.pool.blocks b).blockHash ≠ none) :
    (m'.pool.blocks b).blockHash = (m.pool.blocks b).blockHash :=
  hg.blockHash_of_not_mem b (hg.not_mem_drop h h' hpos hh)

end

end KVCacheManager

end CacheSelect.Core

import CacheSelect.Core.Allocation
import CacheSelect.Core.Matching

/-! # Native hits and retained sources

What the scheduler gets from the manager before it allocates: the hits of `getComputedBlocks` are the
request's own hashes (`getComputedBlocks_ok`), and the blocks that `retainPartialReuseSources` pins
are resident under the hashes of the indexed source (`mem_sourceIds`).
-/

namespace CacheSelect.Core

open AlignedBlockReuseLocator

namespace AlignedBlockReuseLocator

/-! ### The pinned ids -/

theorem mem_foldl_insert (ids : List Nat) : ∀ (acc : List Nat) (x : Nat),
    x ∈ ids.foldl (fun acc id => if acc.contains id then acc else acc ++ [id]) acc
      ↔ x ∈ acc ∨ x ∈ ids := by
  induction ids with
  | nil => intro acc x; simp
  | cons i ids ih =>
      intro acc x
      rw [List.foldl_cons, ih, List.mem_cons]
      by_cases hi : acc.contains i = true
      · rw [if_pos hi]
        constructor
        · rintro (h | h)
          · exact Or.inl h
          · exact Or.inr (Or.inr h)
        · rintro (h | rfl | h)
          · exact Or.inl h
          · exact Or.inl (List.contains_iff_mem.mp hi)
          · exact Or.inr h
      · rw [if_neg hi, List.mem_append, List.mem_singleton]
        tauto

theorem nodup_foldl_insert (ids : List Nat) : ∀ (acc : List Nat), acc.Nodup →
    (ids.foldl (fun acc id => if acc.contains id then acc else acc ++ [id]) acc).Nodup := by
  induction ids with
  | nil => intro acc h; exact h
  | cons i ids ih =>
      intro acc h
      rw [List.foldl_cons]
      refine ih _ ?_
      split
      · exact h
      · next hi =>
          refine List.nodup_append.mpr ⟨h, List.nodup_singleton i, ?_⟩
          rintro x hx y hy rfl
          rw [List.mem_singleton] at hy
          subst hy
          exact hi (List.contains_iff_mem.mpr hx)

/-- An id is pinned when a retainable candidate names it. -/
theorem mem_retainedIds (pool : BlockPool) (source : SourceRequestIndex) :
    ∀ (cs : List PartialReuseCandidate) (acc : List Nat) (x : Nat),
      x ∈ retainedIds pool source cs acc ↔
        x ∈ acc ∨ ∃ c ∈ cs, isRetainable pool source c = true ∧ x ∈ c.physicalSourceBlockIds := by
  intro cs
  induction cs with
  | nil => intro acc x; simp [retainedIds]
  | cons c cs ih =>
      intro acc x
      rw [retainedIds, ih]
      by_cases hc : isRetainable pool source c = true
      · rw [if_pos hc, mem_foldl_insert]
        constructor
        · rintro ((h | h) | ⟨c', hc', h⟩)
          · exact Or.inl h
          · exact Or.inr ⟨c, by simp, hc, h⟩
          · exact Or.inr ⟨c', by simp [hc'], h⟩
        · rintro (h | ⟨c', hc', h⟩)
          · exact Or.inl (Or.inl h)
          · rcases List.mem_cons.mp hc' with rfl | hc'
            · exact Or.inl (Or.inr h.2)
            · exact Or.inr ⟨c', hc', h⟩
      · rw [if_neg hc]
        constructor
        · rintro (h | ⟨c', hc', h⟩)
          · exact Or.inl h
          · exact Or.inr ⟨c', by simp [hc'], h⟩
        · rintro (h | ⟨c', hc', h⟩)
          · exact Or.inl h
          · rcases List.mem_cons.mp hc' with rfl | hc'
            · exact absurd h.1 hc
            · exact Or.inr ⟨c', hc', h⟩

theorem nodup_retainedIds (pool : BlockPool) (source : SourceRequestIndex) :
    ∀ (cs : List PartialReuseCandidate) (acc : List Nat), acc.Nodup →
      (retainedIds pool source cs acc).Nodup := by
  intro cs
  induction cs with
  | nil => intro acc h; exact h
  | cons c cs ih =>
      intro acc h
      rw [retainedIds]
      split
      · exact ih _ (nodup_foldl_insert _ _ h)
      · exact ih _ h

theorem blockById_eq_some {source : SourceRequestIndex} {id : Nat} {b : SourceBlock}
    (h : blockById source id = some b) : b ∈ source.blocks ∧ b.blockId = id :=
  ⟨List.mem_reverse.mp (List.mem_of_find?_eq_some h), by simpa using List.find?_some h⟩

/-- In a well-formed entry the block with an id is the only one. -/
theorem blockById_of_mem {bs : Nat} {source : SourceRequestIndex} (hwf : source.WF bs)
    {b : SourceBlock} (hb : b ∈ source.blocks) : blockById source b.blockId = some b := by
  cases hf : blockById source b.blockId with
  | none =>
      have := List.find?_eq_none.mp hf b (List.mem_reverse.mpr hb)
      simp at this
  | some b' =>
      obtain ⟨hb', hid⟩ := blockById_eq_some hf
      rw [List.inj_on_of_nodup_map hwf.nodup_id hb' hb hid]

/-- Every physical block of a retainable candidate is resident under its entry. -/
theorem resident_of_isRetainable {pool : BlockPool} (hp : pool.CacheWF)
    {source : SourceRequestIndex} {c : PartialReuseCandidate}
    (h : isRetainable pool source c = true) {id : Nat} (hid : id ∈ c.physicalSourceBlockIds) :
    ∃ b, blockById source id = some b ∧ (pool.blocks id).blockHash = some b.blockHash := by
  rw [isRetainable, Bool.and_eq_true, List.all_eq_true] at h
  have := h.2 id hid
  cases hb : blockById source id with
  | none => rw [hb] at this; cases this
  | some b =>
      rw [hb] at this
      refine ⟨b, rfl, ?_⟩
      have hcon := (hp.contain_iff b.blockHash b.blockId).mp this
      rwa [(blockById_eq_some hb).2] at hcon

end AlignedBlockReuseLocator

namespace KVCacheManager

section

variable {cfg : ManagerConfig} {requests : String → Option Request} {pins : List Nat}
  {m : KVCacheManager}

/-- The entry that the plan of a request names. -/
def plannedSource (cfg : ManagerConfig) (m : KVCacheManager) (r : Request) :
    Option (PartialReusePlan × SourceRequestIndex) :=
  match cfg.supportsAlignedReuse, r.partialReusePlan with
  | true, some plan => (m.locator.getSource plan.sourceRequestId).map fun source => (plan, source)
  | _, _ => none

/-- The ids that `retain_partial_reuse_sources` pins. -/
def sourceIds (cfg : ManagerConfig) (m : KVCacheManager) (r : Request) : List Nat :=
  match plannedSource cfg m r with
  | none => []
  | some (plan, source) => retainedIds m.pool source plan.candidates []

theorem retainPartialReuseSources_eq (cfg : ManagerConfig) (m : KVCacheManager) (r : Request) :
    m.retainPartialReuseSources cfg r
      = (sourceIds cfg m r, { m with pool := m.pool.touch (sourceIds cfg m r) }) := by
  rw [retainPartialReuseSources, sourceIds, plannedSource]
  cases cfg.supportsAlignedReuse with
  | false => rfl
  | true =>
      cases r.partialReusePlan with
      | none => rfl
      | some plan =>
          dsimp only
          cases hg : m.locator.getSource plan.sourceRequestId with
          | none => rw [retainResidentSources, hg]; rfl
          | some source => rw [retainResidentSources, hg]; rfl

/-- A pinned id is named by a retainable candidate of the plan, and resident under the entry. -/
theorem mem_sourceIds (hp : m.pool.CacheWF) {r : Request} {id : Nat}
    (hid : id ∈ sourceIds cfg m r) :
    ∃ plan source c b, plannedSource cfg m r = some (plan, source) ∧ c ∈ plan.candidates ∧
      isRetainable m.pool source c = true ∧ id ∈ c.physicalSourceBlockIds ∧
      blockById source id = some b ∧ (m.pool.blocks id).blockHash = some b.blockHash := by
  rw [sourceIds] at hid
  split at hid
  · cases hid
  · next plan source hps =>
      rcases (mem_retainedIds _ _ _ _ _).mp hid with h | ⟨c, hc, hret, hin⟩
      · cases h
      · obtain ⟨b, hb, hhash⟩ := resident_of_isRetainable hp hret hin
        exact ⟨plan, source, c, b, hps, hc, hret, hin, hb, hhash⟩

theorem nodup_sourceIds (cfg : ManagerConfig) (m : KVCacheManager) (r : Request) :
    (sourceIds cfg m r).Nodup := by
  rw [sourceIds]
  split
  · exact List.nodup_nil
  · exact nodup_retainedIds _ _ _ _ List.nodup_nil

theorem plannedSource_eq_some {r : Request} {plan : PartialReusePlan}
    {source : SourceRequestIndex} (h : plannedSource cfg m r = some (plan, source)) :
    r.partialReusePlan = some plan ∧ m.locator.getSource plan.sourceRequestId = some source := by
  rw [plannedSource] at h
  split at h
  · next p hs hp =>
      obtain ⟨s, hs, he⟩ := Option.map_eq_some_iff.mp h
      cases he
      exact ⟨hp, hs⟩
  · cases h

/-- **Retention pins resident blocks** and keeps the invariant. -/
theorem retain_inv (h : m.Inv cfg requests pins) (r : Request) :
    (m.retainPartialReuseSources cfg r).2.Inv cfg requests
      (pins ++ (m.retainPartialReuseSources cfg r).1) := by
  rw [retainPartialReuseSources_eq]
  refine h.touch fun b hb => ?_
  obtain ⟨_, _, _, blk, -, -, -, -, -, hhash⟩ := mem_sourceIds h.pool_wf.toCacheWF hb
  exact h.pool_wf.hash_valid b _ hhash

theorem releasePartialReuseSources_eq (cfg : ManagerConfig) (m m' : KVCacheManager)
    (r : Request) :
    m'.releasePartialReuseSources cfg (sourceIds cfg m r)
      = { m' with pool := m'.pool.freeBlocks (sourceIds cfg m r).reverse } := by
  rw [releasePartialReuseSources]
  split
  · rfl
  · next hs =>
      have : sourceIds cfg m r = [] := by
        rw [sourceIds, plannedSource]
        simp only [Bool.not_eq_true] at hs
        rw [hs]
      rw [this, List.reverse_nil, BlockPool.freeBlocks_nil]

/-! ### Native hits -/

theorem getElem?_longestRun (pool : BlockPool) : ∀ (hs : List BlockHash) (i b : Nat),
    (longestRun pool hs)[i]? = some b → ∃ h, hs[i]? = some h ∧ pool.getOneBlock h = some b := by
  intro hs
  induction hs with
  | nil => intro i b hb; simp [longestRun] at hb
  | cons h hs ih =>
      intro i b hb
      rw [longestRun] at hb
      cases hg : pool.getOneBlock h with
      | none => rw [hg] at hb; simp at hb
      | some c =>
          rw [hg] at hb
          cases i with
          | zero =>
              simp only [List.getElem?_cons_zero, Option.some.injEq] at hb
              subst hb
              exact ⟨h, rfl, hg⟩
          | succ i => exact ih i b (by simpa using hb)

theorem length_longestRun_le (pool : BlockPool) : ∀ hs : List BlockHash,
    (longestRun pool hs).length ≤ hs.length := by
  intro hs
  induction hs with
  | nil => exact Nat.le_refl _
  | cons h hs ih =>
      rw [longestRun]
      cases pool.getOneBlock h with
      | none => exact Nat.zero_le _
      | some b => simpa using ih

theorem cdiv_mul_self {n b : Nat} (hb : 0 < b) : cdiv (n * b) b = n := by
  rw [cdiv]
  have : n * b + b - 1 = (b - 1) + b * n := by rw [Nat.mul_comm]; omega
  rw [this, Nat.add_mul_div_left _ _ hb, Nat.div_eq_of_lt (by omega), Nat.zero_add]

/-- **The native hit**: the request's own hashes from the start, whole blocks below the limit. -/
theorem findLongestCacheHit_spec (hp : m.pool.CacheWF) (r : Request) {maxLength : Nat}
    (hmax : maxLength ≤ r.numTokens) (hcache : cfg.enableCaching = true) :
    Hits cfg m r (findLongestCacheHit cfg m.pool (r.blockHashes cfg.blockSize) maxLength).1 ∧
    (findLongestCacheHit cfg m.pool (r.blockHashes cfg.blockSize) maxLength).2
      = (findLongestCacheHit cfg m.pool (r.blockHashes cfg.blockSize) maxLength).1.length
        * cfg.blockSize ∧
    (findLongestCacheHit cfg m.pool (r.blockHashes cfg.blockSize) maxLength).2 ≤ maxLength := by
  have hbs := cfg.blockSize_pos
  let hashes := (r.blockHashes cfg.blockSize).take (maxLength / cfg.blockSize)
  let run := longestRun m.pool hashes
  have hrunlen : run.length ≤ maxLength / cfg.blockSize :=
    Nat.le_trans (length_longestRun_le m.pool hashes) (List.length_take_le _ _)
  have hrunmul : run.length * cfg.blockSize ≤ maxLength :=
    Nat.le_trans (Nat.mul_le_mul_right _ hrunlen) (Nat.div_mul_le_self _ _)
  obtain ⟨k, hk, hhit⟩ : ∃ k, k ≤ run.length ∧
      findLongestCacheHit cfg m.pool (r.blockHashes cfg.blockSize) maxLength
        = (run.take k, k * cfg.blockSize) := by
    by_cases he : cfg.useEagle = true ∧ 0 < run.length * cfg.blockSize
    · have hpos : 0 < run.length := Nat.pos_of_mul_pos_right he.2
      refine ⟨run.length - 1, Nat.sub_le _ _, ?_⟩
      have hsub : run.length * cfg.blockSize - cfg.blockSize
          = (run.length - 1) * cfg.blockSize := by rw [Nat.sub_mul, Nat.one_mul]
      rw [findLongestCacheHit]
      change (run.take (cdiv (if cfg.useEagle = true ∧ 0 < run.length * cfg.blockSize then _ else _) _),
        if cfg.useEagle = true ∧ 0 < run.length * cfg.blockSize then _ else _) = _
      rw [if_pos he, hsub, cdiv_mul_self hbs]
    · refine ⟨run.length, Nat.le_refl _, ?_⟩
      rw [findLongestCacheHit]
      change (run.take (cdiv (if cfg.useEagle = true ∧ 0 < run.length * cfg.blockSize then _ else _) _),
        if cfg.useEagle = true ∧ 0 < run.length * cfg.blockSize then _ else _) = _
      rw [if_neg he, cdiv_mul_self hbs]
  rw [hhit]
  have hlen : (run.take k).length = k := by rw [List.length_take]; omega
  have hkmul : k * cfg.blockSize ≤ maxLength := Nat.le_trans (Nat.mul_le_mul_right _ hk) hrunmul
  refine ⟨⟨?_, ?_, fun _ => hcache⟩, ?_, hkmul⟩
  · intro i b hb
    have hlt := (List.getElem?_eq_some_iff.mp hb).1
    rw [hlen] at hlt
    rw [List.getElem?_take_of_lt hlt] at hb
    obtain ⟨h, hget, hone⟩ := getElem?_longestRun m.pool hashes i b hb
    have hi : i < maxLength / cfg.blockSize := by omega
    rw [List.getElem?_take_of_lt hi, Request.getElem?_blockHashes _ _
      (Nat.lt_of_lt_of_le hi (Nat.div_le_div_right hmax)), Option.some.injEq] at hget
    rw [hget]
    exact hp.hash_of_getOneBlock hone
  · change (run.take k).length * _ ≤ _
    rw [hlen]
    exact Nat.le_trans hkmul hmax
  · change _ = (run.take k).length * _
    rw [hlen]

/-- What a lookup writes to the request: the choice of a source and the plan. -/
def LookedUp (r r' : Request) : Prop :=
  r' = { r with
    cacheselectSourceRequestId := r'.cacheselectSourceRequestId
    cacheselectSourceSelection := r'.cacheselectSourceSelection
    partialReusePlan := r'.partialReusePlan }

theorem LookedUp.refl (r : Request) : LookedUp r r := rfl

/-- Whether `get_computed_blocks` looks for a plan. -/
def plansFor (cfg : ManagerConfig) (r : Request) : Bool :=
  cfg.enableCaching && !r.skipReadingPrefixCache && cfg.supportsAlignedReuse

/-- **`get_computed_blocks`**: a native hit that leaves a token to compute, and a plan that was
located behind it unless no lookup takes place. -/
theorem getComputedBlocks_ok (hp : m.pool.CacheWF) (hl : m.locator.WF cfg.blockSize) {r r' : Request}
    {hit : List Nat × Nat} (h : m.getComputedBlocks cfg r = .ok (hit, r')) :
    Hits cfg m r hit.1 ∧ hit.2 = hit.1.length * cfg.blockSize ∧ hit.2 ≤ r.numTokens - 1 ∧
    LookedUp r r' ∧ ((plansFor cfg r = false ∧ r' = r) ∨ (plansFor cfg r = true ∧
      (IsEmptyPlan r'.partialReusePlan ∨ ∃ plan source promptTokenIds,
        r'.partialReusePlan = some plan ∧
        LocatedPlan cfg.toLocatorConfig m.pool m.locator r hit.2 source promptTokenIds plan))) := by
  rw [getComputedBlocks] at h
  split at h
  · next hoff =>
      cases h
      refine ⟨Hits.nil cfg m r, by simp, Nat.zero_le _, .refl r, Or.inl ⟨?_, rfl⟩⟩
      rcases hoff with hoff | hoff
      · rw [plansFor, hoff]
        rfl
      · rw [plansFor, hoff]
        simp
  · next hc =>
      obtain ⟨hcache, hskip⟩ := not_or.mp hc
      rw [Bool.not_eq_false] at hcache
      rw [Bool.not_eq_true] at hskip
      obtain ⟨h1, h2, h3⟩ := findLongestCacheHit_spec hp r (Nat.sub_le r.numTokens 1) hcache
      simp only at h
      split at h
      · next hsup =>
          rw [Except.map_eq_ok] at h
          obtain ⟨⟨plan, r₁⟩, hloc, he⟩ := h
          cases he
          obtain ⟨hsame, hplan⟩ := locate_ok hl hloc
          refine ⟨h1, h2, h3, ?_, Or.inr ⟨?_, ?_⟩⟩
          · rw [LookedUp, hsame]
          · rw [plansFor, hcache, hskip, hsup]
            rfl
          · rcases hplan with hempty | ⟨p, source, ptoks, hp, hlocated⟩
            · exact Or.inl hempty
            · exact Or.inr ⟨p, source, ptoks, hp, hlocated⟩
      · next hsup =>
          cases h
          refine ⟨h1, h2, h3, .refl r, Or.inl ⟨?_, rfl⟩⟩
          rw [Bool.not_eq_true] at hsup
          rw [plansFor, hsup, Bool.and_false]

end

end KVCacheManager

end CacheSelect.Core

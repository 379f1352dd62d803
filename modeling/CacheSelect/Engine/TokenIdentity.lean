import CacheSelect.Engine.Sources
import CacheSelect.Worker.Copies

/-! # Token identity of reuse

`reuseChain` is the way of one request from its lookup to the worker: `locate`, the retention of the
sources, the allocation, the reduction of the plan and the resolution of the target blocks.
`copied_rows` follows a copied row back along it: the row comes from the physical row in which the
source request stored a position with the same token, at one distance for all rows of a block.
The copies of all requests of a step together are the subject of `StepCopies`.
-/

namespace CacheSelect.Engine

open CacheSelect.Core CacheSelect.Worker Transition AlignedBlockReuseLocator

/-- The reuse work of a request that is looked up, admitted and added by the worker, with the
scheduler's state after the admission. -/
def reuseChain (cfg : EngineConfig) (s : SchedulerState) (id : String)
    (a : SchedulerState.Admission) : Option (SchedulerState × ReuseWork) := do
  let s₁ ← s.lookup cfg id
  let s₂ ← s₁.admitWaiting cfg id a
  let (e, r) ← s₂.scheduledRequests.find? fun x => x.1.reqId == id
  let plan ← e.partialReusePlan
  match buildReuseWork cfg.toWorkerConfig (s₂.newRequestData e r) plan with
  | .error _ => none
  | .ok (work, _) => some (s₂, work)

/-- Row `j` of a copied block comes from position `start + j` of the source: from the block that the
source has indexed for that position, which is still registered under the hash it was indexed with,
and the tokens are the same. -/
structure CopiedRow {K : Type} (blockSize : Nat) (pool : BlockPool) (source : SourceRequestIndex)
    (promptTokenIds : List Nat) (kv kv' : KVMemory K) (i : PartialReuseCopyInstruction)
    (start j : Nat) : Prop where
  row : ∃ b ∈ source.blocks, b.blockIndex = (start + j) / blockSize ∧
    kv' i.targetBlockId j = kv b.blockId ((start + j) % blockSize) ∧
    (pool.blocks b.blockId).blockHash = some b.blockHash
  token : ∃ t, source.promptTokenIds[start + j]? = some t ∧
    promptTokenIds[i.targetBlockIndex * blockSize + j]? = some t

/-! ### From a window to the rows -/

/-- The row gathered for row `j` is the indexed row of position `start + j` of the window. -/
theorem gatheredRow_window {cfg : LocatorConfig} {source : SourceRequestIndex} {start : Nat}
    {blocks : List SourceBlock} (hwin : windowBlocks cfg source start = some blocks)
    {i : PartialReuseCopyInstruction} (hids : i.sourceBlockIds = blocks.map SourceBlock.blockId)
    (hhead : i.sourceBlockIds.head? = some i.sourceBlockId)
    (hoff : i.sourceBlockOffset = start % cfg.blockSize) {j : Nat} (hj : j < cfg.blockSize) :
    ∃ b ∈ source.blocks, b.blockIndex = (start + j) / cfg.blockSize ∧
      gatheredRow cfg.blockSize i j = (b.blockId, (start + j) % cfg.blockSize) := by
  have hbs := cfg.blockSize_pos
  have hmod := Nat.mod_lt start hbs
  obtain ⟨b, hb, hidx, hget⟩ := windowBlocks_row hwin hj
  refine ⟨b, hb, hidx, ?_⟩
  have hid : i.sourceBlockIds[(start % cfg.blockSize + j) / cfg.blockSize]? = some b.blockId := by
    rw [hids, List.getElem?_map, hget]
    rfl
  have hrow : (start + j) % cfg.blockSize = (start % cfg.blockSize + j) % cfg.blockSize := by
    rw [Nat.mod_add_mod]
  have hne : i.sourceBlockIds ≠ [] := by
    intro hnil
    rw [hnil] at hhead
    cases hhead
  rw [gatheredRow, PartialReuseCopyInstruction.requiresRepacking, hoff, hrow]
  by_cases h0 : start % cfg.blockSize = 0
  · -- an aligned window is its first block
    rw [h0, Nat.zero_add, Nat.div_eq_of_lt hj, ← List.head?_eq_getElem?, hhead,
      Option.some.injEq] at hid
    rw [if_neg (by rw [h0]; decide), h0, Nat.zero_add, Nat.mod_eq_of_lt hj, hid]
  · rw [if_pos (bne_iff_ne.mpr h0), repackSource, hoff,
      PartialReuseCopyInstruction.physicalSourceBlockIds, if_neg hne]
    by_cases hlt : start % cfg.blockSize + j < cfg.blockSize
    · rw [Nat.div_eq_of_lt hlt] at hid
      rw [if_pos hlt, List.getD_eq_getElem?_getD, hid, Option.getD_some]
    · have h1 : (start % cfg.blockSize + j) / cfg.blockSize = 1 :=
        Nat.div_eq_of_lt_le (by omega) (by omega)
      rw [h1] at hid
      rw [if_neg hlt, List.getD_eq_getElem?_getD, hid, Option.getD_some]

theorem getElem?_of_window {l l' : List Nat} {m n bs j : Nat} (hj : j < bs)
    (hlen : m + bs ≤ l.length) (h : (l.drop m).take bs = (l'.drop n).take bs) :
    ∃ t, l[m + j]? = some t ∧ l'[n + j]? = some t := by
  have hget := congrArg (fun x : List Nat => x[j]?) h
  rw [List.getElem?_take_of_lt hj, List.getElem?_take_of_lt hj, List.getElem?_drop,
    List.getElem?_drop] at hget
  have hlt : m + j < l.length := by omega
  exact ⟨l[m + j], List.getElem?_eq_getElem hlt, by rw [← hget, List.getElem?_eq_getElem hlt]⟩

/-! ### Along the chain -/

section

variable {cfg : EngineConfig} {s : SchedulerState}

/-- What the chain of a request goes through. -/
theorem reuseChain_some {id : String} {a : SchedulerState.Admission} {s₂ : SchedulerState}
    {work : ReuseWork} (h : reuseChain cfg s id a = some (s₂, work)) :
    ∃ s₁ e r plan metrics, s.lookup cfg id = some s₁ ∧ s₁.admitWaiting cfg id a = some s₂ ∧
      e ∈ s₂.scheduled ∧ e.reqId = id ∧ s₂.requests id = some r ∧ e.partialReusePlan = some plan ∧
      buildReuseWork cfg.toWorkerConfig (s₂.newRequestData e r) plan = .ok (work, metrics) := by
  rw [reuseChain] at h
  simp only [Option.bind_eq_bind, Option.bind_eq_some_iff] at h
  obtain ⟨s₁, h₁, t, h₂, x, hx, plan, hplan, h⟩ := h
  split at h
  · cases h
  · next w metrics hw =>
      cases h
      have hid : x.1.reqId = id := by simpa using List.find?_some hx
      obtain ⟨he, hr⟩ := mem_scheduledRequests.mp (List.mem_of_find?_eq_some hx)
      exact ⟨s₁, x.1, x.2, plan, metrics, h₁, h₂, he, hid, hid ▸ hr, hplan, hw⟩

/-- The plan that comes out of a chain, and what stood behind it at the lookup. -/
structure ChainPlan (cfg : EngineConfig) (s s₁ : SchedulerState) (r r' : Request) (hits : List Nat)
    (source : SourceRequestIndex) (promptTokenIds : List Nat) (plan : PartialReusePlan) : Prop where
  source_mem : source ∈ s.manager.locator.sources
  prompt_eq : r.promptTokenIds = some promptTokenIds
  ordered : plan.candidates.Pairwise fun c c' => c.targetBlockIndex < c'.targetBlockIndex
  candidate : ∀ c ∈ plan.candidates, IsCandidate cfg.toLocatorConfig s.manager.pool source
    promptTokenIds (hits.length * cfg.blockSize) c
  pinned : ∀ c ∈ plan.candidates, ∀ b ∈ c.physicalSourceBlockIds, b ∈ s₁.pinned cfg r'
  resident : ∀ c ∈ plan.candidates, ∀ b ∈ c.physicalSourceBlockIds, ∃ blk,
    blockById source b = some blk ∧ (s.manager.pool.blocks b).blockHash = some blk.blockHash

/-- **A chain forwards candidates of the indexed source**, all of them pinned and resident. -/
theorem chainPlan (h : s.Inv cfg) (hp : Plans cfg s) {id : String} {r : Request}
    (hr : s.requests id = some r) {a : SchedulerState.Admission} {s₁ s₂ : SchedulerState}
    (hl : s.lookup cfg id = some s₁) (ha : s₁.admitWaiting cfg id a = some s₂)
    {e : ScheduledRequest} (he : e ∈ s₂.scheduled) (hid : e.reqId = id) {plan : PartialReusePlan}
    (hplan : e.partialReusePlan = some plan) :
    ∃ r' hits new m source promptTokenIds, s₁.manager = s.manager ∧ s₁.Inv cfg ∧
      s₁.requests id = some r' ∧ KVCacheManager.LookedUp r r' ∧ SchedulerState.isWaiting r' = true ∧
      r'.numComputedTokens = 0 ∧
      SchedulerState.admissible r' a (hits.length * cfg.blockSize) ∧
      s₁.computedBefore r' = some (hits, hits.length * cfg.blockSize) ∧
      SchedulerState.admissionResult cfg s₁ r' a hits (hits.length * cfg.blockSize)
        = .ok (some new, m) ∧ s₂.manager = m ∧
      ChainPlan cfg s s₁ r r' hits source promptTokenIds plan := by
  have hinv₁ := SchedulerState.lookup_inv h hl
  obtain ⟨r₀, r', hit, hphase, hr₀, hw, h0, hg, rfl⟩ := SchedulerState.lookup_some hl
  rw [hr, Option.some.injEq] at hr₀
  subst hr₀
  obtain ⟨-, htok, -, hlook, hcase⟩ :=
    KVCacheManager.getComputedBlocks_ok h.manager.pool_wf.toCacheWF h.locator hg
  have hid' : r'.requestId = id := by rw [hlook]; exact (h.request id r hr).id_eq
  have hw' : SchedulerState.isWaiting r' = true := by rw [hlook]; exact hw
  have h0' : r'.numComputedTokens = 0 := by rw [hlook]; exact h0
  have hself : (s.setRequest r').requests id = some r' := by
    rw [← hid']
    exact SchedulerState.setRequest_self s r'
  obtain ⟨r₁, hits, n, hr₁, hc, -, hadm, hres⟩ := SchedulerState.admitWaiting_some ha
  have hr₁' : some r' = some r₁ := hself.symm.trans hr₁
  cases hr₁'
  have hc' : some (hit.1, hit.2) = some (hits, n) := by
    rw [← hc, SchedulerState.computedBefore]
    exact (if_pos hid'.symm).symm
  obtain ⟨rfl, rfl⟩ := Prod.mk.inj (Option.some.inj hc')
  have hnot := SchedulerState.not_scheduled_of_status hinv₁ hself
    (SchedulerState.isWaiting_ne_running hw')
  rcases hres with ⟨m, -, rfl⟩ | ⟨new, m, hm, rfl⟩
  · exact absurd hid (hnot e he)
  · have hentry : e = SchedulerState.admittedEntry r' a hit.2
        (SchedulerState.pinned cfg { s.setRequest r' with phase := .lookedUp id hit.1 hit.2 } r') := by
      rw [SchedulerState.retain_eq] at he
      rcases SchedulerState.mem_scheduled_afterAdmission.mp he with he | ⟨-, heq⟩
      · exact absurd hid (hnot e he)
      · exact heq
    rw [hentry] at hplan
    obtain ⟨p, hp', hred⟩ := Option.bind_eq_some_iff.mp hplan
    obtain ⟨heq, hsub, hne, hids⟩ := forRetainedSourceIds_some hred
    rcases hcase with ⟨hoff, hsame⟩ | ⟨-, hempty | ⟨p₁, source, ptoks, hp₁, hloc⟩⟩
    · rw [hsame, hp.lookups id r hr hoff] at hp'
      cases hp'
    · rw [hempty p hp'] at hsub
      exact absurd (List.sublist_nil.mp hsub) hne
    · rw [hp', Option.some.injEq] at hp₁
      subst hp₁
      refine ⟨r', hit.1, new, m, source, ptoks, rfl, hinv₁, hself, hlook, hw', h0', ?_, ?_, ?_, rfl,
        (getSource_mem hloc.source_eq).1, hloc.prompt_eq, hloc.located.ordered.sublist hsub, ?_, ?_,
        ?_⟩
      · rw [← htok]; exact hadm
      · rw [← htok]; exact hc
      · rw [← htok]; exact hm
      · intro c hc
        rw [← htok]
        exact hloc.located.candidate c (hsub.subset hc)
      · exact fun c hc b hb => hids c hc b hb
      · intro c hc b hb
        obtain ⟨p₂, source₂, _, blk, hps, -, -, -, hblk, hhash⟩ :=
          KVCacheManager.mem_sourceIds h.manager.pool_wf.toCacheWF (hids c hc b hb)
        obtain ⟨hp₂, hsrc₂⟩ := KVCacheManager.plannedSource_eq_some hps
        rw [hp', Option.some.injEq] at hp₂
        subst hp₂
        rw [hloc.source_eq, Option.some.injEq] at hsrc₂
        subst hsrc₂
        exact ⟨blk, hblk, hhash⟩

/-- **The blocks of an admission behind the hits** are those the request had before, or free blocks. -/
theorem admitted_block (h : s.Inv cfg) {r : Request} (hr : s.requests r.requestId = some r)
    (hw : SchedulerState.isWaiting r = true) {a : SchedulerState.Admission} {hits : List Nat} {n : Nat}
    (hc : s.computedBefore r = some (hits, n)) (ha : SchedulerState.admissible r a n)
    {new : List Nat} {m : KVCacheManager}
    (hm : SchedulerState.admissionResult cfg s r a hits n = .ok (some new, m)) {i b : Nat}
    (hb : (m.reqToBlocks r.requestId)[i]? = some b) (hi : hits.length ≤ i) :
    (s.manager.reqToBlocks r.requestId)[i]? = some b ∨
      ((s.retainedManager cfg r).pool.blocks b).refCnt = 0 := by
  have hall := SchedulerState.admission_allocated h hr hc hw ha hm
  have hhits : (SchedulerState.admissionArgs cfg a hits n).newComputedBlocks = hits := rfl
  by_cases hin : b ∈ (s.retainedManager cfg r).reqToBlocks r.requestId ++ hits
  · left
    obtain ⟨k, hk⟩ := List.mem_iff_getElem?.mp hin
    have hk' : (m.reqToBlocks r.requestId)[k]? = some b := hall.grown.getElem?_of_lt hk
    have hik : i = k := (List.getElem?_inj (List.getElem?_eq_some_iff.mp hb).1
      (hall.inv.nodup _)).mp (hb.trans hk'.symm)
    subst hik
    rcases hall.grown.empty_or_nil with hnil | hnil
    · -- the hits fill the table before block `i`
      have hlt := (List.getElem?_eq_some_iff.mp hk).1
      rw [hnil, List.nil_append] at hlt
      omega
    · rw [hhits] at hnil
      rw [hnil, List.append_nil] at hk
      exact hk
  · exact Or.inr (hall.grown.fresh b (List.mem_of_getElem? hb) hin)

/-- **A target block is no pinned source**, unless the request has one token: its only block can be
loaded and shared before it is looked up again. -/
theorem target_not_pinned (h : s.Inv cfg) {id : String} {r : Request} (hr : s.requests id = some r)
    (hw : SchedulerState.isWaiting r = true) (h0 : r.numComputedTokens = 0)
    {a : SchedulerState.Admission} {hits : List Nat}
    (ha : SchedulerState.admissible r a (hits.length * cfg.blockSize))
    (hc : s.computedBefore r = some (hits, hits.length * cfg.blockSize)) {new : List Nat}
    {m : KVCacheManager}
    (hm : SchedulerState.admissionResult cfg s r a hits (hits.length * cfg.blockSize)
      = .ok (some new, m)) {i b : Nat} (hb : (m.reqToBlocks id)[i]? = some b)
    (hi : hits.length ≤ i) (hpin : b ∈ s.pinned cfg r) : r.numTokens ≤ 1 := by
  have hok := h.request id r hr
  have hid := hok.id_eq
  subst hid
  rcases hok.waiting hw h0 with ⟨htable, -⟩ | ⟨-, hone⟩
  · rcases admitted_block h hr hw hc ha hm hb hi with hold | hfree
    · rw [htable] at hold
      cases hold
    · have hpos := (SchedulerState.retainedManager_inv h r).refCnt_pos_of_pin
        (List.mem_append_right _ hpin)
      omega
  · exact hone

/-! ### The copies of a chain -/

/-- A copy instruction of a candidate, for a block table. -/
structure IsCopyOf (table : List Nat) (c : PartialReuseCandidate)
    (i : PartialReuseCopyInstruction) : Prop where
  target : table[i.targetBlockIndex]? = some i.targetBlockId
  targetBlockIndex_eq : i.targetBlockIndex = c.targetBlockIndex
  sourceBlockId_eq : i.sourceBlockId = c.sourceBlockId
  sourceBlockIds_eq : i.sourceBlockIds = c.sourceBlockIds
  sourceBlockOffset_eq : i.sourceBlockOffset = c.sourceBlockOffset

theorem IsCopyOf.physical_eq {table : List Nat} {c : PartialReuseCandidate}
    {i : PartialReuseCopyInstruction} (h : IsCopyOf table c i) :
    i.physicalSourceBlockIds = c.physicalSourceBlockIds := by
  rw [PartialReuseCopyInstruction.physicalSourceBlockIds,
    PartialReuseCandidate.physicalSourceBlockIds, h.sourceBlockIds_eq, h.sourceBlockId_eq]

/-- The copies of a plan: one for some of its candidates, in their order. -/
theorem copies_of_work {plan : PartialReusePlan} {table : List Nat} {work : ReuseWork}
    (h : ReuseWorkOk plan table work) : ∀ i ∈ work.copyInstructions,
      ∃ c ∈ plan.candidates, IsCopyOf table c i := by
  intro i hi
  obtain ⟨c, hc, b, hb, rfl⟩ := h.mem_copies hi
  exact ⟨c, hc, hb, rfl, rfl, rfl, rfl⟩

/-- Distinct blocks of a table are copied to. -/
theorem nodup_targets {plan : PartialReusePlan} {table : List Nat} {work : ReuseWork}
    (h : ReuseWorkOk plan table work) (ht : table.Nodup)
    (ho : plan.candidates.Pairwise fun c c' => c.targetBlockIndex < c'.targetBlockIndex) :
    (work.copyInstructions.map PartialReuseCopyInstruction.targetBlockId).Nodup := by
  refine List.pairwise_map.mpr ((h.pairwise_copies ho).imp_of_mem ?_)
  intro i i' hi hi' hlt heq
  obtain ⟨c, -, hc⟩ := copies_of_work h i hi
  obtain ⟨c', -, hc'⟩ := copies_of_work h i' hi'
  have hb := hc.target
  rw [heq] at hb
  have := (List.getElem?_inj (List.getElem?_eq_some_iff.mp hb).1 ht).mp (hb.trans hc'.target.symm)
  omega

/-- The physical source blocks of a candidate: one, or two for a window across two blocks. -/
theorem length_sourceBlockIds {cfg : LocatorConfig} {pool : BlockPool}
    {source : SourceRequestIndex} {promptTokenIds : List Nat} {native : Nat}
    {c : PartialReuseCandidate} (h : IsCandidate cfg pool source promptTokenIds native c) :
    c.sourceBlockIds.length = if c.sourceBlockOffset = 0 then 1 else 2 := by
  obtain ⟨start, blocks, hwin, -, -, hoff, hids, -⟩ := h.window
  rw [hoff, hids, List.length_map]
  exact length_windowBlocks hwin

/-- A prompt of one token has one candidate, and its window is one block. -/
theorem candidate_of_one_token {cfg : LocatorConfig} {pool : BlockPool}
    {source : SourceRequestIndex} {promptTokenIds : List Nat} {native : Nat}
    {c : PartialReuseCandidate} (h : IsCandidate cfg pool source promptTokenIds native c)
    (hone : promptTokenIds.length ≤ 1) :
    c.targetBlockIndex = 0 ∧ c.physicalSourceBlockIds.length = 1 := by
  have hbs := cfg.blockSize_pos
  have h1 := h.full
  have h2 : c.targetBlockIndex * 1 ≤ c.targetBlockIndex * cfg.blockSize := Nat.mul_le_mul_left _ hbs
  rw [Nat.succ_mul] at h1
  have hbs1 : cfg.blockSize = 1 := by omega
  refine ⟨by omega, ?_⟩
  obtain ⟨start, -, -, -, -, hoff, -⟩ := h.window
  have hlen := length_sourceBlockIds h
  rw [hoff, hbs1, Nat.mod_one, if_pos rfl] at hlen
  rw [PartialReuseCandidate.physicalSourceBlockIds]
  split
  · rfl
  · exact hlen

/-- **Row `j` of a copied block**, from the row that is gathered for it. -/
theorem copiedRow_of_candidate {K : Type} {cfg : LocatorConfig} {pool : BlockPool}
    {source : SourceRequestIndex} (hwf : source.WF cfg.blockSize) {promptTokenIds : List Nat}
    {native : Nat} {c : PartialReuseCandidate}
    (h : IsCandidate cfg pool source promptTokenIds native c)
    (hres : ∀ b ∈ c.physicalSourceBlockIds, ∃ blk, blockById source b = some blk ∧
      (pool.blocks b).blockHash = some blk.blockHash)
    {table : List Nat} {i : PartialReuseCopyInstruction} (hi : IsCopyOf table c i)
    {kv kv' : KVMemory K} (hrow : ∀ j < cfg.blockSize, kv' i.targetBlockId j
      = kv (gatheredRow cfg.blockSize i j).1 (gatheredRow cfg.blockSize i j).2) :
    ∃ start, ∀ j < cfg.blockSize,
      CopiedRow cfg.blockSize pool source promptTokenIds kv kv' i start j := by
  obtain ⟨start, blocks, hwin, hle, htok, hoff, hids, -⟩ := h.window
  refine ⟨start, fun j hj => ?_⟩
  have hhead : i.sourceBlockIds.head? = some i.sourceBlockId := by
    rw [hi.sourceBlockIds_eq, hi.sourceBlockId_eq]
    exact h.head_ids
  obtain ⟨b, hbmem, hbidx, hgather⟩ := gatheredRow_window hwin (hi.sourceBlockIds_eq.trans hids)
    hhead (hi.sourceBlockOffset_eq.trans hoff) hj
  refine ⟨⟨b, hbmem, hbidx, by rw [hrow j hj, hgather], ?_⟩, ?_⟩
  · have hmem := gatheredRow_mem cfg.blockSize j hhead (by
      rw [hi.sourceBlockIds_eq, hi.sourceBlockOffset_eq]
      exact length_sourceBlockIds h)
    rw [hgather, hi.physical_eq] at hmem
    obtain ⟨blk, hblk, hhash⟩ := hres b.blockId hmem
    obtain ⟨hblkmem, hblkid⟩ := blockById_eq_some hblk
    rw [List.inj_on_of_nodup_map hwf.nodup_id hblkmem hbmem hblkid] at hhash
    exact hhash
  · rw [hi.targetBlockIndex_eq]
    exact getElem?_of_window hj hle htok

end

/-- **Token identity of reuse.**  Every row that the chain of a request fills comes from the physical
row in which the source request stored a position with the same token, at one distance for all rows of
a block.  Target blocks are distinct, all other blocks keep their rows, and no target block is a
source block, but that a request of one token may copy its only block onto itself. -/
theorem copied_rows {K : Type} {cfg : EngineConfig} {compute : List K → Nat → K}
    {kv₀ : KVMemory K} {s : State K} (hs : Reachable (step cfg compute) (State.init cfg kv₀) s)
    {id : String} {r : Request} (hr : s.scheduler.requests id = some r)
    {a : SchedulerState.Admission} {s₂ : SchedulerState} {work : ReuseWork}
    (hwork : reuseChain cfg s.scheduler id a = some (s₂, work)) {kv kv' : KVMemory K}
    (hcopy : copyBlocks cfg.toWorkerConfig kv work.copyInstructions = .ok kv') :
    ∃ source ∈ s.scheduler.manager.locator.sources, StoredBy cfg compute kv₀ source ∧
      (∀ i ∈ work.copyInstructions,
        (s₂.manager.reqToBlocks id)[i.targetBlockIndex]? = some i.targetBlockId ∧
        ∃ start, ∀ j < cfg.blockSize, CopiedRow cfg.blockSize s.scheduler.manager.pool source
          (r.promptTokenIds.getD []) kv kv' i start j) ∧
      (work.copyInstructions.map PartialReuseCopyInstruction.targetBlockId).Nodup ∧
      (∀ i ∈ work.copyInstructions, ∀ i' ∈ work.copyInstructions,
        i.targetBlockId ∈ i'.physicalSourceBlockIds →
        i = i' ∧ i.physicalSourceBlockIds = [i.targetBlockId] ∧ r.numTokens ≤ 1) ∧
      ∀ b, (∀ i ∈ work.copyInstructions, i.targetBlockId ≠ b) → kv' b = kv b := by
  have hinv := inv_of_reachable hs
  have hp := plans_of_reachable hs
  have hbs := cfg.blockSize_pos
  obtain ⟨s₁, e, r₂, plan, metrics, hl, ha, he, hid, hr₂, hplan, hbuild⟩ := reuseChain_some hwork
  obtain ⟨r', hits, new, m, source, ptoks, hman, hinv₁, hr', hlook, hw', h0', hadm, hc, hm, rfl,
    hcp⟩ := chainPlan hinv hp hr hl ha he hid hplan
  subst hid
  have hinv₂ := SchedulerState.admitWaiting_inv hinv₁ ha
  have hp₁ := plans_step (a := .lookup e.reqId) hinv hp hl
  have hp₂ := plans_step (a := .admitWaiting e.reqId a) hinv₁ hp₁ ha
  obtain ⟨hok, -⟩ := buildReuseWork_spec (planFits_of_entry hp₂ he hr₂ hplan).1 rfl hbuild
  have hnd := nodup_targets hok (hinv₂.manager.nodup e.reqId) hcp.ordered
  -- target blocks against source blocks
  have hself : ∀ i ∈ work.copyInstructions, ∀ i' ∈ work.copyInstructions,
      i.targetBlockId ∈ i'.physicalSourceBlockIds →
      i = i' ∧ i.physicalSourceBlockIds = [i.targetBlockId] ∧ r.numTokens ≤ 1 := by
    intro i hi i' hi' hmem
    obtain ⟨c, hcand, hci⟩ := copies_of_work hok i hi
    obtain ⟨c', hcand', hci'⟩ := copies_of_work hok i' hi'
    have hge : hits.length ≤ i.targetBlockIndex := by
      rw [hci.targetBlockIndex_eq]
      exact Nat.le_of_mul_le_mul_right (hcp.candidate c hcand).native_le hbs
    have hpin := hcp.pinned c' hcand' _ (by rw [← hci'.physical_eq]; exact hmem)
    have hone := target_not_pinned hinv₁ hr' hw' h0' hadm hc hm hci.target hge hpin
    have hnum : r'.numTokens = r.numTokens := by rw [hlook]; rfl
    rw [hnum] at hone
    have hptoks : ptoks.length ≤ 1 := by
      have : r.numTokens = (ptoks ++ r.outputTokenIds).length := by
        rw [Request.numTokens, Request.allTokenIds_eq hcp.prompt_eq]
      rw [List.length_append] at this
      omega
    obtain ⟨ht, -⟩ := candidate_of_one_token (hcp.candidate c hcand) hptoks
    obtain ⟨ht', hl'⟩ := candidate_of_one_token (hcp.candidate c' hcand') hptoks
    have hii : i = i' := by
      refine List.inj_on_of_nodup_map hnd hi hi' (Option.some.inj ?_)
      rw [← hci.target, ← hci'.target, hci.targetBlockIndex_eq, hci'.targetBlockIndex_eq, ht, ht']
    rw [← hci'.physical_eq] at hl'
    obtain ⟨x, hx⟩ := List.length_eq_one_iff.mp hl'
    rw [hx, List.mem_singleton] at hmem
    exact ⟨hii, by rw [hii, hx, ← hii, hmem], hone⟩
  have hspec := copyBlocks_spec hcopy hnd (by
    intro i hi hrep i' hi' hal heq
    obtain ⟨c', hcand', hci'⟩ := copies_of_work hok i' hi'
    have hmem : i.targetBlockId ∈ i'.physicalSourceBlockIds := by
      rw [heq]
      refine sourceBlockId_mem ?_
      rw [hci'.sourceBlockIds_eq, hci'.sourceBlockId_eq]
      exact (hcp.candidate c' hcand').head_ids
    rw [(hself i hi i' hi' hmem).1, hal] at hrep
    cases hrep)
  refine ⟨source, hcp.source_mem, storedBy_of_reachable hs source hcp.source_mem, ?_, hnd, hself,
    hspec.2⟩
  intro i hi
  obtain ⟨c, hcand, hci⟩ := copies_of_work hok i hi
  refine ⟨hci.target, ?_⟩
  rw [hcp.prompt_eq, Option.getD_some]
  exact copiedRow_of_candidate (hinv.locator source hcp.source_mem) (hcp.candidate c hcand)
    (hcp.resident c hcand) hci (hspec.1 i hi)

/-! ### Runs -/

/-- Blocks of one token, for requests whose KV the connector brings. -/
def oneTokenConfig : EngineConfig :=
  { smallEngine 9 with blockSize := 1, blockSize_pos := Nat.one_pos }

/-- The KV of a request of one token is loaded, another request hits the loaded block and is indexed
with it, and the first request, which computes its last token again, is to be looked up once more. -/
def sharedLoadRun : List Action :=
  [.addRequest {
      requestId := "target"
      promptTokenIds := some [1]
      cacheselectSourceRequestId := some "sharer"
      cacheselectCounterfactualReuseBlockIndex := some 0 }] ++
  admission "target" { numNewTokens := 0, numExternalComputedTokens := 1, loadKvAsync := true } ++
  [.execute selectiveFlags,
    .addRequest { requestId := "sharer", promptTokenIds := some [1, 2] },
    .beginSchedule, .beginWaiting, .promoteRemote "target", .lookup "sharer",
    .admitWaiting "sharer" { numNewTokens := 1 }, .execute selectiveFlags,
    .appendOutput "sharer" 0, .finish "sharer", .beginSchedule, .beginWaiting]

/-- **A block can be copied onto itself.** -/
theorem copy_onto_itself :
    ∃ s : State Unit,
      Reachable (step oneTokenConfig fun _ _ => ()) (State.init oneTokenConfig fun _ _ => ()) s ∧
      ∃ s₂ work, reuseChain oneTokenConfig s.scheduler "target" { numNewTokens := 1 }
          = some (s₂, work) ∧
        ∃ i ∈ work.copyInstructions, i.targetBlockId ∈ i.physicalSourceBlockIds := by
  obtain ⟨s, hs, hP⟩ := exists_reachableWhen (step oneTokenConfig fun _ _ => ())
    (fun _ _ => True) (State.init oneTokenConfig fun _ _ => ()) sharedLoadRun
    (fun s => (reuseChain oneTokenConfig s.scheduler "target" { numNewTokens := 1 }).any fun x =>
      x.2.copyInstructions.any fun i => i.physicalSourceBlockIds.contains i.targetBlockId)
    (by decide +kernel)
  rw [Option.any_eq_true] at hP
  obtain ⟨⟨s₂, work⟩, hw, hP⟩ := hP
  obtain ⟨i, hi, hmem⟩ := List.any_eq_true.mp hP
  exact ⟨s, hs, s₂, work, hw, i, hi, List.contains_iff_mem.mp hmem⟩

/-- A worker that repacks windows across two blocks. -/
def repackingConfig : EngineConfig :=
  { smallEngine 9 with allowRepacking := true, repairSelector := .editProximity 0 }

/-- The second block of the target is an unaligned window of the source. -/
def repackingRun : List Action :=
  serve { requestId := "source", promptTokenIds := some [9, 1, 2, 7, 8] } ++
    [.addRequest {
      requestId := "target"
      promptTokenIds := some [5, 6, 1, 2, 7]
      cacheselectSourceRequestId := some "source" },
    .beginSchedule, .beginWaiting]

/-- The rows of a repacked block have the tokens of the target. -/
theorem repacked_rows :
    ∃ s : State (Nat × Nat),
      Reachable (step repackingConfig fun _ _ => (0, 0)) (State.init repackingConfig Prod.mk) s ∧
      ∃ r s₂ work kv', s.scheduler.requests "target" = some r ∧
        reuseChain repackingConfig s.scheduler "target" { numNewTokens := 5 } = some (s₂, work) ∧
        copyBlocks repackingConfig.toWorkerConfig Prod.mk work.copyInstructions = .ok kv' ∧
        (∃ i ∈ work.copyInstructions, i.requiresRepacking = true) ∧
        ∃ source ∈ s.scheduler.manager.locator.sources, ∀ i ∈ work.copyInstructions,
          ∃ start, ∀ j < repackingConfig.blockSize, CopiedRow repackingConfig.blockSize
            s.scheduler.manager.pool source (r.promptTokenIds.getD []) Prod.mk kv' i start j := by
  obtain ⟨s, hs, hP⟩ := exists_reachableWhen (step repackingConfig fun _ _ => (0, 0))
    (fun _ _ => True) (State.init repackingConfig Prod.mk) repackingRun
    (fun s => (s.scheduler.requests "target").isSome &&
      (reuseChain repackingConfig s.scheduler "target" { numNewTokens := 5 }).any fun x =>
        x.2.copyInstructions.any PartialReuseCopyInstruction.requiresRepacking &&
        (copyBlocks (K := Nat × Nat) repackingConfig.toWorkerConfig Prod.mk
          x.2.copyInstructions).toBool)
    (by decide +kernel)
  rw [Bool.and_eq_true, Option.isSome_iff_exists, Option.any_eq_true] at hP
  obtain ⟨⟨r, hr⟩, ⟨s₂, work⟩, hw, hP⟩ := hP
  rw [Bool.and_eq_true] at hP
  obtain ⟨hrep, hok⟩ := hP
  dsimp only at hrep hok
  obtain ⟨kv', hcopy⟩ := Except.exists_ok_of_forall_ne_error
    (x := copyBlocks (K := Nat × Nat) repackingConfig.toWorkerConfig Prod.mk work.copyInstructions)
    (by
      intro e he
      rw [he] at hok
      cases hok)
  obtain ⟨source, hsource, -, hrows, -⟩ := copied_rows hs hr hw hcopy
  obtain ⟨i, hi, hri⟩ := List.any_eq_true.mp hrep
  exact ⟨s, hs, r, s₂, work, kv', hr, hw, hcopy, ⟨i, hi, hri⟩, source, hsource,
    fun i hi => (hrows i hi).2⟩

end CacheSelect.Engine

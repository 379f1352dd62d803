import CacheSelect.Engine.CopyTargets

/-! # Registered blocks that are not written yet

The hash of a block is registered when its slots are allocated, before the forward pass writes it.
Until the end of the call such a block is *pending*: it stands in the table of a scheduled request
behind the tokens that were computed before.  In runs that preempt no request with pending blocks every
other registered block holds finished KV (`Finished`), and `copy_sources_forwarded` says that the
worker copies from finished blocks alone as long as no pending block is pinned.
-/

namespace CacheSelect.Engine

open CacheSelect.Core CacheSelect.Worker Transition

/-- A block of a scheduled request whose tokens are not all computed before the step. -/
def IsPending (blockSize : Nat) (s : SchedulerState) (b : Nat) : Prop :=
  ∃ e ∈ s.scheduled, ∃ i, (s.manager.reqToBlocks e.reqId)[i]? = some b ∧
    e.numLocalComputedTokens < (i + 1) * blockSize

/-- The index of a block in a table, with a test. -/
def anyIndex (table : List Nat) (b : Nat) (test : Nat → Bool) : Bool :=
  (List.range table.length).any fun i => table[i]? == some b && test i

theorem anyIndex_iff {table : List Nat} {b : Nat} {test : Nat → Bool} :
    anyIndex table b test = true ↔ ∃ i, table[i]? = some b ∧ test i = true := by
  rw [anyIndex, List.any_eq_true]
  constructor
  · rintro ⟨i, -, h⟩
    rw [Bool.and_eq_true, beq_iff_eq] at h
    exact ⟨i, h⟩
  · rintro ⟨i, hi, h⟩
    refine ⟨i, List.mem_range.mpr (List.getElem?_eq_some_iff.mp hi).1, ?_⟩
    rw [Bool.and_eq_true, beq_iff_eq]
    exact ⟨hi, h⟩

def isPending (blockSize : Nat) (s : SchedulerState) (b : Nat) : Bool :=
  s.scheduled.any fun e => anyIndex (s.manager.reqToBlocks e.reqId) b fun i =>
    e.numLocalComputedTokens < (i + 1) * blockSize

theorem isPending_iff {bs : Nat} {s : SchedulerState} {b : Nat} :
    isPending bs s b = true ↔ IsPending bs s b := by
  rw [isPending, IsPending, List.any_eq_true]
  refine exists_congr fun e => and_congr_right fun _ => ?_
  rw [anyIndex_iff]
  exact exists_congr fun i => and_congr_right fun _ => decide_eq_true_iff

/-- No pending block is left behind registered by a preemption. -/
def preemptsFinished (cfg : EngineConfig) (s : SchedulerState) : Action → Bool
  | .preempt id => s.scheduled.all fun e => e.reqId != id ||
      decide (s.manager.numRegistered id * cfg.blockSize ≤ e.numLocalComputedTokens)
  | _ => true

/-- No admission pins a pending block. -/
def pinsFinished (cfg : EngineConfig) (s : SchedulerState) : Action → Bool
  | .admitWaiting id _ =>
      match s.requests id with
      | none => true
      | some r => (s.pinned cfg r).all fun b => !isPending cfg.blockSize s b
  | _ => true

/-! ### The registered blocks of a request -/

/-- Every full block of computed tokens is registered, unless the tokens are still being loaded. -/
structure Registered (cfg : EngineConfig) (s : SchedulerState) : Prop where
  computed_lt : cfg.enableCaching = true → ∀ id r, s.requests id = some r →
    r.status ≠ .waitingForRemoteKvs →
      r.numComputedTokens < (s.manager.numRegistered id + 1) * cfg.blockSize
  scheduled_lt : cfg.enableCaching = true → ∀ e ∈ s.scheduled,
    e.numComputedTokens + e.numScheduledTokens
      < (s.manager.numRegistered e.reqId + 1) * cfg.blockSize

section

variable {cfg : EngineConfig} {s s' : SchedulerState}

theorem registered_init (cfg : EngineConfig) : Registered cfg (SchedulerState.init cfg) where
  computed_lt := fun _ _ _ hr => by cases hr
  scheduled_lt := fun _ _ he => by cases he

theorem lt_of_div_le {n k bs : Nat} (hbs : 0 < bs) (h : n / bs ≤ k) : n < (k + 1) * bs := by
  have := Nat.div_add_mod n bs
  have := Nat.mod_lt n hbs
  have := Nat.mul_le_mul_left bs h
  rw [Nat.succ_mul, Nat.mul_comm k]
  omega

/-- The frame of a step on one request. -/
theorem Registered.of_local (h : Registered cfg s) {t : SchedulerState} (id : String)
    (hreq : ∀ id', id' ≠ id → t.requests id' = s.requests id')
    (hcached : ∀ id', id' ≠ id → t.manager.numCachedBlock id' = s.manager.numCachedBlock id')
    (hok : cfg.enableCaching = true → ∀ r, t.requests id = some r →
      r.status ≠ .waitingForRemoteKvs →
        r.numComputedTokens < (t.manager.numRegistered id + 1) * cfg.blockSize)
    (hentry : cfg.enableCaching = true → ∀ e ∈ t.scheduled, (e ∈ s.scheduled ∧ e.reqId ≠ id) ∨
      e.numComputedTokens + e.numScheduledTokens
        < (t.manager.numRegistered e.reqId + 1) * cfg.blockSize) : Registered cfg t where
  computed_lt := by
    intro hc id' r hr hne
    by_cases hid : id' = id
    · subst hid
      exact hok hc r hr hne
    · rw [hreq id' hid] at hr
      rw [KVCacheManager.numRegistered, hcached id' hid]
      exact h.computed_lt hc id' r hr hne
  scheduled_lt := by
    intro hc e he
    rcases hentry hc e he with ⟨hin, hid⟩ | hnew
    · rw [KVCacheManager.numRegistered, hcached _ hid]
      exact h.scheduled_lt hc e hin
    · exact hnew

theorem Registered.congr (h : Registered cfg s) {t : SchedulerState}
    (hreq : t.requests = s.requests) (hcached : t.manager.numCachedBlock = s.manager.numCachedBlock)
    (hsched : t.scheduled = s.scheduled) : Registered cfg t where
  computed_lt := by
    intro hc id r hr hne
    rw [hreq] at hr
    rw [KVCacheManager.numRegistered, hcached]
    exact h.computed_lt hc id r hr hne
  scheduled_lt := by
    intro hc e he
    rw [hsched] at he
    rw [KVCacheManager.numRegistered, hcached]
    exact h.scheduled_lt hc e he

theorem zero_lt_registered (cfg : EngineConfig) (n : Nat) : 0 < (n + 1) * cfg.blockSize :=
  Nat.mul_pos n.succ_pos cfg.blockSize_pos

theorem lt_mul_of_registered_le {a n m bs : Nat} (h : a < (n + 1) * bs) (hle : n ≤ m) :
    a < (m + 1) * bs :=
  Nat.lt_of_lt_of_le h (Nat.mul_le_mul_right _ (Nat.succ_le_succ hle))

/-- An allocation that caches registers all full blocks of its tokens. -/
theorem lt_registered_of_allocated {requests : String → Option Request} {pins : List Nat}
    {m m' : KVCacheManager} {r : Request} {a : KVCacheManager.AllocateArgs}
    (h : KVCacheManager.Allocated cfg.toManagerConfig requests pins m r a m')
    (hc : cfg.enableCaching = true) (hd : a.delayCacheBlocks = false)
    (hn : r.numTokens ≤ cfg.maxModelLen)
    (hle : r.numComputedTokens + a.numNewComputedTokens + a.numExternalComputedTokens
      + a.numNewTokens ≤ r.numTokens) :
    r.numComputedTokens + a.numNewComputedTokens + a.numExternalComputedTokens + a.numNewTokens
      < (m'.numRegistered r.requestId + 1) * cfg.blockSize := by
  have heq : KVCacheManager.numRegisteredTokens cfg.toManagerConfig r a
      = r.numComputedTokens + a.numNewComputedTokens + a.numExternalComputedTokens
        + a.numNewTokens := by
    rw [KVCacheManager.numRegisteredTokens]
    omega
  refine lt_of_div_le cfg.blockSize_pos ?_
  rw [h.registered_eq, if_pos ⟨hc, hd⟩, heq]
  exact Nat.le_max_right _ _

theorem registered_addRequest (h : s.Inv cfg) (hreg : Registered cfg s) {r : Request}
    (hs : s.addRequest cfg r = some s') : Registered cfg s' := by
  obtain ⟨hphase, -, -, -, -, h0, -, -, -, -, rfl⟩ := SchedulerState.addRequest_some hs
  refine hreg.of_local r.requestId (fun _ hne => SchedulerState.setRequest_of_ne s r hne)
    (fun _ _ => rfl) (fun _ q hq _ => ?_) (fun _ e he => ?_)
  · have hq' := (SchedulerState.setRequest_self s r).symm.trans hq
    cases hq'
    rw [h0]
    exact zero_lt_registered cfg _
  · change e ∈ s.scheduled at he
    rw [(h.idle hphase).1] at he
    cases he

theorem registered_appendOutput (h : s.Inv cfg) (hreg : Registered cfg s) {i : String} {t : Nat}
    (hs : s.appendOutput cfg i t = some s') : Registered cfg s' := by
  obtain ⟨r, hr, hphase, hrun, -, -, rfl⟩ := SchedulerState.appendOutput_some hs
  have hid := (h.request i r hr).id_eq
  subst hid
  let r' := { r with outputTokenIds := r.outputTokenIds ++ [t] }
  refine hreg.of_local r.requestId (fun _ hne => SchedulerState.setRequest_of_ne s r' hne)
    (fun _ _ => rfl) (fun hc q hq hne => ?_) (fun _ e he => ?_)
  · have hq' := (SchedulerState.setRequest_self s r').symm.trans hq
    cases hq'
    exact hreg.computed_lt hc r.requestId r hr hne
  · change e ∈ s.scheduled at he
    rw [(h.idle hphase).1] at he
    cases he

theorem registered_finish (h : s.Inv cfg) (hreg : Registered cfg s) {i : String}
    (hs : s.finish cfg i = some s') : Registered cfg s' := by
  obtain ⟨r, hr, hphase, -, rfl⟩ := SchedulerState.finish_some hs
  have hid := (h.request i r hr).id_eq
  subst hid
  refine hreg.of_local r.requestId (fun id' hne => ?_) (fun id' hne => ?_)
    (fun _ q hq => ?_) (fun _ e he => ?_)
  · change Function.update s.requests r.requestId none id' = _
    rw [Function.update_of_ne hne]
  · change (KVCacheManager.free _ _ _ _).numCachedBlock id' = _
    rw [KVCacheManager.free_numCachedBlock, Function.update_of_ne hne]
  · change Function.update s.requests r.requestId none r.requestId = _ at hq
    rw [Function.update_self] at hq
    cases hq
  · change e ∈ s.scheduled at he
    rw [(h.idle hphase).1] at he
    cases he

theorem registered_scheduleRunning (h : s.Inv cfg) (hreg : Registered cfg s) {i : String} {n : Nat}
    (hs : s.scheduleRunning cfg i n = some s') : Registered cfg s' := by
  obtain ⟨p, r, new, m, -, hr, hrun, hnot, -, hle, hm, rfl⟩ :=
    SchedulerState.scheduleRunning_some hs
  have hok := h.request i r hr
  have hid := hok.id_eq
  subst hid
  have hall := KVCacheManager.allocateSlots_some h.manager hr
    (SchedulerState.runningReady h hr n) hm
  refine hreg.of_local r.requestId (fun _ _ => rfl) hall.grown.cached_of_ne
    (fun hc q hq hne => ?_) (fun hc e he => ?_)
  · have hq' : some r = some q := hr.symm.trans hq
    cases hq'
    exact lt_mul_of_registered_le (hreg.computed_lt hc r.requestId r hr hne)
      (Nat.le_trans (Nat.le_add_right _ _) hall.grown.registered_mono)
  · rcases List.mem_append.mp he with he | he
    · exact Or.inl ⟨he, SchedulerState.not_scheduled_of_isScheduled hnot e he⟩
    · rw [List.mem_singleton] at he
      subst he
      exact Or.inr (lt_registered_of_allocated hall hc rfl hok.numTokens_le hle)

theorem registered_preempt (h : s.Inv cfg) (hreg : Registered cfg s) {i : String}
    (hs : s.preempt cfg i = some s') : Registered cfg s' := by
  obtain ⟨p, r, -, hr, -, rfl⟩ := SchedulerState.preempt_some hs
  have hid := (h.request i r hr).id_eq
  subst hid
  refine hreg.of_local r.requestId (fun _ hne => SchedulerState.setRequest_of_ne _ _ hne)
    (fun id' hne => ?_) (fun _ q hq _ => ?_) (fun _ e he => ?_)
  · change (KVCacheManager.free _ _ _ _).numCachedBlock id' = _
    rw [KVCacheManager.free_numCachedBlock, Function.update_of_ne hne]
  · have hq' := (SchedulerState.setRequest_self _ _).symm.trans hq
    cases hq'
    exact zero_lt_registered cfg _
  · obtain ⟨hin, hne⟩ := List.mem_filter.mp he
    exact Or.inl ⟨hin, by simpa using hne⟩

theorem registered_lookup (h : s.Inv cfg) (hreg : Registered cfg s) {i : String}
    (hs : s.lookup cfg i = some s') : Registered cfg s' := by
  obtain ⟨r, r', hit, -, hr, hw, h0, hg, rfl⟩ := SchedulerState.lookup_some hs
  obtain ⟨-, -, -, hlook, -⟩ :=
    KVCacheManager.getComputedBlocks_ok h.manager.pool_wf.toCacheWF h.locator hg
  refine hreg.of_local r'.requestId (fun _ hne => SchedulerState.setRequest_of_ne s r' hne)
    (fun _ _ => rfl) (fun _ q hq _ => ?_) (fun _ e he => Or.inl ⟨he, ?_⟩)
  · have hq' := (SchedulerState.setRequest_self s r').symm.trans hq
    cases hq'
    rw [hlook]
    change r.numComputedTokens < _
    rw [h0]
    exact zero_lt_registered cfg _
  · have hid : r'.requestId = i := by rw [hlook]; exact (h.request i r hr).id_eq
    rw [hid]
    exact SchedulerState.not_scheduled_of_status h hr
      (SchedulerState.isWaiting_ne_running hw) e he

theorem registered_admitWaiting (h : s.Inv cfg) (hreg : Registered cfg s) {i : String}
    {a : SchedulerState.Admission} (hs : s.admitWaiting cfg i a = some s') : Registered cfg s' := by
  obtain ⟨r, hits, n, hr, hc, hw, ha, ⟨m, -, rfl⟩ | ⟨new, m, hm, rfl⟩⟩ :=
    SchedulerState.admitWaiting_some hs
  · refine hreg.congr rfl ?_ rfl
    rw [SchedulerState.afterRefusal_manager]
  · have hok := h.request i r hr
    have hid := hok.id_eq
    subst hid
    have hall := SchedulerState.admission_allocated h hr hc hw ha hm
    rw [SchedulerState.retain_eq]
    have hnot := SchedulerState.not_scheduled_of_status h hr
      (SchedulerState.isWaiting_ne_running hw)
    have hlt : cfg.enableCaching = true → a.loadKvAsync = false →
        r.numComputedTokens + n + a.numExternalComputedTokens + a.numNewTokens
          < (m.numRegistered r.requestId + 1) * cfg.blockSize := by
      intro hcache hsync
      have h2 := ha.2.2
      rw [if_neg (by rw [hsync]; exact Bool.false_ne_true)] at h2
      exact lt_registered_of_allocated hall hcache hsync hok.numTokens_le h2.2
    refine hreg.of_local r.requestId
      (fun _ hne => SchedulerState.setRequest_of_ne _ (SchedulerState.admittedRequest r a n) hne)
      hall.grown.cached_of_ne (fun hcache q hq hne => ?_) (fun hcache e he => ?_)
    · have hq' := (SchedulerState.setRequest_self _
        (SchedulerState.admittedRequest r a n)).symm.trans hq
      cases hq'
      have hsync : a.loadKvAsync = false := by
        by_contra hl
        rw [SchedulerState.admittedRequest, if_pos (by simpa using hl)] at hne
        exact hne rfl
      exact Nat.lt_of_le_of_lt (Nat.le_add_right _ _) (hlt hcache hsync)
    · rcases SchedulerState.mem_scheduled_afterAdmission.mp he with he | ⟨hsync, rfl⟩
      · exact Or.inl ⟨he, hnot e he⟩
      · exact Or.inr (hlt hcache hsync)

theorem registered_promoteRemote (h : s.Inv cfg) (hreg : Registered cfg s) {i : String}
    (hs : s.promoteRemote cfg i = some s') : Registered cfg s' := by
  obtain ⟨r, m, -, hr, hrem, hm, rfl⟩ := SchedulerState.promoteRemote_some hs
  have hid := (h.request i r hr).id_eq
  subst hid
  obtain ⟨-, hgrown, -, hnum, -⟩ := SchedulerState.promotion_cached h hr hm
  refine hreg.of_local r.requestId
    (fun _ hne => SchedulerState.setRequest_of_ne _ (SchedulerState.promotedRequest r) hne)
    hgrown.cached_of_ne (fun hcache q hq _ => ?_) (fun _ e he => Or.inl ⟨he, ?_⟩)
  · have hq' := (SchedulerState.setRequest_self _
      (SchedulerState.promotedRequest r)).symm.trans hq
    cases hq'
    change _ < (m.numRegistered r.requestId + 1) * _
    have hle : (SchedulerState.promotedRequest r).numComputedTokens ≤ r.numComputedTokens := by
      rw [SchedulerState.promotedRequest]
      dsimp only
      split
      · omega
      · exact Nat.le_refl _
    refine Nat.lt_of_le_of_lt hle (lt_of_div_le cfg.blockSize_pos ?_)
    rw [hnum, if_pos hcache]
    exact Nat.le_max_right _ _
  · exact SchedulerState.not_scheduled_of_status h hr (by rw [hrem]; decide) e he

theorem registered_step (h : s.Inv cfg) (hreg : Registered cfg s) {a : Action}
    (hs : schedulerStep cfg s a = some s') : Registered cfg s' := by
  cases a with
  | addRequest r => exact registered_addRequest h hreg hs
  | appendOutput i t => exact registered_appendOutput h hreg hs
  | finish i => exact registered_finish h hreg hs
  | resetPrefixCache =>
      obtain ⟨-, m, hm, rfl⟩ := SchedulerState.resetPrefixCache_some hs
      rw [KVCacheManager.resetPrefixCache, Option.map_eq_some_iff] at hm
      obtain ⟨pool, -, rfl⟩ := hm
      exact hreg.congr rfl rfl rfl
  | beginSchedule =>
      obtain ⟨-, rfl⟩ := SchedulerState.beginSchedule_some hs
      exact hreg.congr rfl rfl rfl
  | scheduleRunning i n => exact registered_scheduleRunning h hreg hs
  | preempt i => exact registered_preempt h hreg hs
  | beginWaiting =>
      obtain ⟨-, rfl⟩ := SchedulerState.beginWaiting_some hs
      exact hreg.congr rfl rfl rfl
  | lookup i => exact registered_lookup h hreg hs
  | skip =>
      obtain ⟨-, rfl⟩ := SchedulerState.skip_some hs
      exact hreg.congr rfl rfl rfl
  | admitWaiting i a => exact registered_admitWaiting h hreg hs
  | promoteRemote i => exact registered_promoteRemote h hreg hs
  | execute flags =>
      rw [schedulerStep, Option.ite_none_right_eq_some] at hs
      rw [← Option.some.inj hs.2]
      refine ⟨fun hcache id q hq hne => ?_, fun _ e he => by cases he⟩
      obtain ⟨r, hr, rfl⟩ := Option.map_eq_some_iff.mp hq
      rcases SchedulerState.advance_cases h hr with ⟨e, he, hid, heok, heq⟩ | ⟨-, heq⟩
      · have hlt := hreg.scheduled_lt hcache e he
        rw [hid] at hlt
        rw [heq]
        change r.numComputedTokens + _ < (s.manager.numRegistered id + 1) * _
        rw [heok.computed_eq]
        exact hlt
      · rw [heq] at hne ⊢
        exact hreg.computed_lt hcache id r hr hne

/-! ### Registered blocks hold finished KV -/

/-- Every registered block that is not pending was written in an earlier step. -/
def HashesFinished (cfg : EngineConfig) (s : SchedulerState) : Prop :=
  ∀ b, (s.manager.pool.blocks b).blockHash ≠ none →
    s.forwarded b = true ∨ IsPending cfg.blockSize s b

/-- The retained blocks are registered and were written in an earlier step. -/
def RetainedFinished (s : SchedulerState) : Prop :=
  ∀ b ∈ s.retainedBlocks, (s.manager.pool.blocks b).blockHash ≠ none ∧ s.forwarded b = true

/-- Outside of a call nothing is pending. -/
theorem not_isPending_of_idle (h : s.Inv cfg) (hphase : s.phase = .idle) (b : Nat) :
    ¬ IsPending cfg.blockSize s b := by
  rintro ⟨e, he, -⟩
  rw [(h.idle hphase).1] at he
  cases he

/-- A step of one request leaves what is pending for the others. -/
theorem isPending_of_ne {t : SchedulerState} (id : String) {b : Nat}
    (htable : ∀ id', id' ≠ id → t.manager.reqToBlocks id' = s.manager.reqToBlocks id')
    (hentry : ∀ e ∈ s.scheduled, e.reqId ≠ id → e ∈ t.scheduled)
    (hne : ∀ e ∈ s.scheduled, ∀ i, (s.manager.reqToBlocks e.reqId)[i]? = some b →
      e.numLocalComputedTokens < (i + 1) * cfg.blockSize → e.reqId ≠ id)
    (h : IsPending cfg.blockSize s b) : IsPending cfg.blockSize t b := by
  obtain ⟨e, he, i, hi, hlt⟩ := h
  have hid := hne e he i hi hlt
  exact ⟨e, hentry e he hid, i, by rw [htable _ hid]; exact hi, hlt⟩

/-- What an allocation has registered is pending in the table of its request. -/
theorem hashesFinished_of_grown (hold : HashesFinished cfg s) {t : SchedulerState} {id : String}
    {n : Nat}
    (hkept : ∀ b, b ∉ (t.manager.reqToBlocks id).drop n → t.forwarded b = s.forwarded b ∧
      (t.manager.pool.blocks b).blockHash = (s.manager.pool.blocks b).blockHash)
    (htable : ∀ id', id' ≠ id → t.manager.reqToBlocks id' = s.manager.reqToBlocks id')
    (hentry : ∀ e ∈ s.scheduled, e ∈ t.scheduled) (hnot : ∀ e ∈ s.scheduled, e.reqId ≠ id)
    (hnew : ∀ i b, (t.manager.reqToBlocks id)[i]? = some b → n ≤ i →
      (t.manager.pool.blocks b).blockHash ≠ none → IsPending cfg.blockSize t b) :
    HashesFinished cfg t := by
  intro b hb
  by_cases hin : b ∈ (t.manager.reqToBlocks id).drop n
  · obtain ⟨i, hi⟩ := List.mem_iff_getElem?.mp hin
    rw [List.getElem?_drop] at hi
    exact Or.inr (hnew _ b hi (Nat.le_add_right _ _) hb)
  · obtain ⟨hfwd, hhash⟩ := hkept b hin
    rw [hhash] at hb
    rw [hfwd]
    exact (hold b hb).imp_right (isPending_of_ne id htable (fun e he _ => hentry e he)
      fun e he _ _ _ => hnot e he)

theorem markPending_of_not_mem (s : SchedulerState) {id : String} {n b : Nat}
    (h : b ∉ (s.manager.reqToBlocks id).drop n) : (s.markPending id n).forwarded b = s.forwarded b :=
  if_neg h

theorem hashesFinished_finish (h : s.Inv cfg) (hf : HashesFinished cfg s) {i : String}
    (hs : s.finish cfg i = some s') : HashesFinished cfg s' := by
  obtain ⟨r, hr, hphase, -, rfl⟩ := SchedulerState.finish_some hs
  intro b hb
  change ((s.manager.free _ _ _).pool.blocks b).blockHash ≠ none at hb
  rw [KVCacheManager.free_blockHash] at hb
  exact Or.inl ((hf b hb).resolve_right (not_isPending_of_idle h hphase b))

theorem hashesFinished_scheduleRunning (h : s.Inv cfg) (hreg : Registered cfg s)
    (hf : HashesFinished cfg s) {i : String} {n : Nat}
    (hs : s.scheduleRunning cfg i n = some s') : HashesFinished cfg s' := by
  obtain ⟨p, r, new, m, -, hr, hrun, hnot, -, -, hm, rfl⟩ :=
    SchedulerState.scheduleRunning_some hs
  have hid := (h.request i r hr).id_eq
  subst hid
  have hall := KVCacheManager.allocateSlots_some h.manager hr
    (SchedulerState.runningReady h hr n) hm
  refine hashesFinished_of_grown hf (fun b hb => ⟨markPending_of_not_mem _ hb, ?_⟩)
    hall.grown.table_of_ne (fun e he => List.mem_append_left _ he)
    (SchedulerState.not_scheduled_of_isScheduled hnot) (fun i b hi hle hb => ?_)
  · exact hall.grown.blockHash_of_not_mem b hb
  · refine ⟨SchedulerState.runningEntry r n, List.mem_append_right _ (List.mem_singleton_self _),
      i, hi, ?_⟩
    have hcache : cfg.enableCaching = true := by
      by_contra hc
      have := hall.registered_eq.trans (if_neg fun hx => hc hx.1)
      exact hb (hall.inv.blockHash_eq_none hi (by rw [this]; exact hle))
    exact lt_mul_of_registered_le (hreg.computed_lt hcache r.requestId r hr
      (by rw [hrun]; decide)) hle

theorem hashesFinished_preempt (h : s.Inv cfg) (hf : HashesFinished cfg s) {i : String}
    (hok : preemptsFinished cfg s (.preempt i) = true) (hs : s.preempt cfg i = some s') :
    HashesFinished cfg s' := by
  obtain ⟨p, r, -, hr, -, rfl⟩ := SchedulerState.preempt_some hs
  have hid := (h.request i r hr).id_eq
  subst hid
  intro b hb
  change ((s.manager.free _ _ _).pool.blocks b).blockHash ≠ none at hb
  rw [KVCacheManager.free_blockHash] at hb
  refine (hf b hb).imp_right (isPending_of_ne r.requestId (fun id' hne => ?_)
    (fun e he hne => ?_) ?_)
  · change (s.manager.free _ _ _).reqToBlocks id' = _
    rw [KVCacheManager.free_reqToBlocks, Function.update_of_ne hne]
  · exact List.mem_filter.mpr ⟨he, by simpa using hne⟩
  · -- the blocks that are freed are computed
    rintro e he i hi hlt hid
    have hle := List.all_eq_true.mp hok e he
    rw [hid] at hi hle
    rw [bne_self_eq_false, Bool.false_or, decide_eq_true_eq] at hle
    have hin := (h.manager.registered_iff hr hi hb).1
    have : (i + 1) * cfg.blockSize ≤ _ := Nat.mul_le_mul_right cfg.blockSize hin
    omega

theorem hashesFinished_admitWaiting (h : s.Inv cfg) (hreg : Registered cfg s)
    (hf : HashesFinished cfg s) {i : String} {a : SchedulerState.Admission}
    (hs : s.admitWaiting cfg i a = some s') : HashesFinished cfg s' := by
  obtain ⟨r, hits, n, hr, hc, hw, ha, ⟨m, -, rfl⟩ | ⟨new, m, hm, rfl⟩⟩ :=
    SchedulerState.admitWaiting_some hs
  · intro b hb
    have heq := SchedulerState.afterRefusal_manager cfg s r
    rw [heq] at hb
    change (((s.manager.pool.touch _).freeBlocks _).blocks b).blockHash ≠ none at hb
    rw [BlockPool.freeBlocks_blocks, BlockPool.touch_blocks] at hb
    rcases hf b hb with hfwd | hpend
    · exact Or.inl hfwd
    · refine Or.inr (isPending_of_ne (s := s) i (fun id' _ => by rw [heq]) (fun e he _ => he)
        (fun e he _ _ _ => ?_) hpend)
      exact SchedulerState.not_scheduled_of_status h hr
        (SchedulerState.isWaiting_ne_running hw) e he
  · have hok := h.request i r hr
    have hid := hok.id_eq
    subst hid
    have hall := SchedulerState.admission_allocated h hr hc hw ha hm
    rw [SchedulerState.retain_eq]
    refine hashesFinished_of_grown hf (fun b hb => ⟨markPending_of_not_mem _ hb, ?_⟩)
      hall.grown.table_of_ne (fun e he => ?_)
      (SchedulerState.not_scheduled_of_status h hr (SchedulerState.isWaiting_ne_running hw))
      (fun i b hi hle hb => ?_)
    · exact (hall.grown.blockHash_of_not_mem b hb).trans
        (SchedulerState.retainedManager_blockHash cfg s r b)
    · exact SchedulerState.mem_scheduled_afterAdmission.mpr (Or.inl he)
    · -- nothing is registered before its tokens are loaded
      obtain ⟨hcache, hsync⟩ : cfg.enableCaching = true ∧ a.loadKvAsync = false := by
        by_contra hx
        have := hall.registered_eq.trans (if_neg hx)
        exact hb (hall.inv.blockHash_eq_none hi (by rw [this]; exact hle))
      refine ⟨SchedulerState.admittedEntry r a n (s.pinned cfg r),
        SchedulerState.mem_scheduled_afterAdmission.mpr (Or.inr ⟨hsync, rfl⟩), i, hi, ?_⟩
      change r.numComputedTokens + n < _
      obtain ⟨-, hn, ⟨h0, -, -⟩ | ⟨-, -, h0, -⟩⟩ := SchedulerState.computedBefore_spec h hr hc
      · rw [h0, hn, Nat.zero_add]
        exact Nat.mul_lt_mul_of_pos_right (by omega) cfg.blockSize_pos
      · rw [h0, Nat.add_zero]
        exact lt_mul_of_registered_le (hreg.computed_lt hcache r.requestId r hr
          (by intro hrem; rw [SchedulerState.isWaiting, hrem] at hw; cases hw)) (by omega)

theorem hashesFinished_promoteRemote (h : s.Inv cfg) (hf : HashesFinished cfg s) {i : String}
    (hs : s.promoteRemote cfg i = some s') : HashesFinished cfg s' := by
  obtain ⟨r, m, -, hr, hrem, hm, rfl⟩ := SchedulerState.promoteRemote_some hs
  have hid := (h.request i r hr).id_eq
  subst hid
  obtain ⟨-, hgrown, htab, -, -⟩ := SchedulerState.promotion_cached h hr hm
  intro b hb
  change (m.pool.blocks b).blockHash ≠ none at hb
  change (if b ∈ (s.manager.reqToBlocks r.requestId).drop (s.manager.numRegistered r.requestId)
    then true else s.forwarded b) = true ∨ _
  by_cases hin : b ∈ (s.manager.reqToBlocks r.requestId).drop
      (s.manager.numRegistered r.requestId)
  · rw [if_pos hin]
    exact Or.inl rfl
  · rw [if_neg hin]
    rw [← htab] at hin
    rw [hgrown.blockHash_of_not_mem b hin] at hb
    refine (hf b hb).imp_right (isPending_of_ne r.requestId
      (fun id' _ => congrFun htab id') (fun e he _ => he) fun e he _ _ _ => ?_)
    exact SchedulerState.not_scheduled_of_status h hr (by rw [hrem]; decide) e he

/-- **Every step keeps the registered blocks finished**, unless it preempts a request with pending
blocks. -/
theorem hashesFinished_step (h : s.Inv cfg) (hreg : Registered cfg s) (hf : HashesFinished cfg s)
    {a : Action} (hok : preemptsFinished cfg s a = true) (hs : schedulerStep cfg s a = some s') :
    HashesFinished cfg s' := by
  cases a with
  | addRequest r =>
      obtain ⟨-, -, -, -, -, -, -, -, -, -, rfl⟩ := SchedulerState.addRequest_some hs
      exact hf
  | appendOutput i t =>
      obtain ⟨r, -, -, -, -, -, rfl⟩ := SchedulerState.appendOutput_some hs
      exact hf
  | finish i => exact hashesFinished_finish h hf hs
  | resetPrefixCache =>
      obtain ⟨-, m, hm, rfl⟩ := SchedulerState.resetPrefixCache_some hs
      rw [KVCacheManager.resetPrefixCache, Option.map_eq_some_iff] at hm
      obtain ⟨pool, hpool, rfl⟩ := hm
      rw [BlockPool.resetPrefixCache] at hpool
      split at hpool
      · cases hpool
      · cases hpool
        intro b hb
        exact absurd rfl hb
  | beginSchedule =>
      obtain ⟨-, rfl⟩ := SchedulerState.beginSchedule_some hs
      exact hf
  | scheduleRunning i n => exact hashesFinished_scheduleRunning h hreg hf hs
  | preempt i => exact hashesFinished_preempt h hf hok hs
  | beginWaiting =>
      obtain ⟨-, rfl⟩ := SchedulerState.beginWaiting_some hs
      exact hf
  | lookup i =>
      obtain ⟨r, r', hit, -, -, -, -, -, rfl⟩ := SchedulerState.lookup_some hs
      exact hf
  | skip =>
      obtain ⟨-, rfl⟩ := SchedulerState.skip_some hs
      exact hf
  | admitWaiting i a => exact hashesFinished_admitWaiting h hreg hf hs
  | promoteRemote i => exact hashesFinished_promoteRemote h hf hs
  | execute flags =>
      rw [schedulerStep, Option.ite_none_right_eq_some] at hs
      rw [← Option.some.inj hs.2]
      intro b hb
      change ((s.manager.pool.freeBlocks _).blocks b).blockHash ≠ none at hb
      rw [BlockPool.freeBlocks_blocks] at hb
      left
      change (if b ∈ s.scheduled.flatMap fun e => s.manager.reqToBlocks e.reqId then true
        else s.forwarded b) = true
      split
      · rfl
      · next hnot =>
          refine (hf b hb).resolve_right ?_
          rintro ⟨e, he, i, hi, -⟩
          exact hnot (List.mem_flatMap.mpr ⟨e, he, List.mem_of_getElem? hi⟩)

theorem retainedFinished_init (cfg : EngineConfig) :
    RetainedFinished (SchedulerState.init cfg) := by
  intro b hb
  cases hb

theorem hashesFinished_init (cfg : EngineConfig) :
    HashesFinished cfg (SchedulerState.init cfg) := by
  intro b hb
  exact absurd rfl hb

/-- An allocation leaves finished blocks that are pinned alone. -/
theorem retained_of_grown {pins : List Nat} {m : KVCacheManager} {id : String} {hits : List Nat}
    {t : SchedulerState} (hm : m.Inv cfg.toManagerConfig s.requests pins)
    (ht : t.manager.Inv cfg.toManagerConfig s.requests pins)
    (hg : KVCacheManager.Grown id hits m t.manager) {n : Nat} (hn : n = m.numRegistered id + hits.length)
    {b : Nat} (hb : b ∈ pins) (hh : (m.pool.blocks b).blockHash ≠ none) (hfwd : t.forwarded b = true) :
    (t.manager.pool.blocks b).blockHash ≠ none ∧ (t.markPending id n).forwarded b = true := by
  have hpos : 0 < (m.pool.blocks b).refCnt ∨ b ∈ hits := Or.inl (hm.refCnt_pos_of_pin hb)
  constructor
  · rw [hg.blockHash_eq hm ht hpos hh]
    exact hh
  · rw [markPending_of_not_mem]
    · exact hfwd
    · rw [hn]
      exact hg.not_mem_drop hm ht hpos hh

theorem retainedFinished_scheduleRunning (h : s.Inv cfg) (hr : RetainedFinished s) {i : String}
    {n : Nat} (hs : s.scheduleRunning cfg i n = some s') : RetainedFinished s' := by
  obtain ⟨p, r, new, m, -, hreq, -, -, -, -, hm, rfl⟩ := SchedulerState.scheduleRunning_some hs
  have hid := (h.request i r hreq).id_eq
  subst hid
  have hall := KVCacheManager.allocateSlots_some h.manager hreq
    (SchedulerState.runningReady h hreq n) hm
  intro b hb
  obtain ⟨hh, hfwd⟩ := hr b hb
  exact retained_of_grown (t := s.enterRunning r n m) h.manager hall.inv hall.grown rfl hb hh
    hfwd

theorem retainedFinished_admitWaiting (h : s.Inv cfg) (hf : HashesFinished cfg s)
    (hr : RetainedFinished s) {i : String} {a : SchedulerState.Admission}
    (hok : pinsFinished cfg s (.admitWaiting i a) = true) (hs : s.admitWaiting cfg i a = some s') :
    RetainedFinished s' := by
  obtain ⟨r, hits, n, hreq, hc, hw, ha, ⟨m, -, rfl⟩ | ⟨new, m, hm, rfl⟩⟩ :=
    SchedulerState.admitWaiting_some hs
  · intro b hb
    rw [SchedulerState.afterRefusal_manager]
    change (((s.manager.pool.touch _).freeBlocks _).blocks b).blockHash ≠ none ∧ _
    rw [BlockPool.freeBlocks_blocks, BlockPool.touch_blocks]
    exact hr b hb
  · have hid := (h.request i r hreq).id_eq
    subst hid
    have hall := SchedulerState.admission_allocated h hreq hc hw ha hm
    rw [SchedulerState.retain_eq]
    intro b hb
    change b ∈ s.retainedBlocks ++ s.pinned cfg r at hb
    have hold : (s.manager.pool.blocks b).blockHash ≠ none ∧ s.forwarded b = true := by
      rcases List.mem_append.mp hb with hb | hb
      · exact hr b hb
      · -- a pinned block is resident, and the condition says that it is not pending
        obtain ⟨-, -, -, blk, -, -, -, -, -, hhash⟩ :=
          KVCacheManager.mem_sourceIds h.manager.pool_wf.toCacheWF hb
        have hh : (s.manager.pool.blocks b).blockHash ≠ none := by
          rw [hhash]
          exact Option.some_ne_none _
        rw [pinsFinished, hreq] at hok
        have hnot := List.all_eq_true.mp hok b hb
        rw [Bool.not_eq_true', ← Bool.not_eq_true, isPending_iff] at hnot
        exact ⟨hh, (hf b hh).resolve_right hnot⟩
    exact retained_of_grown (t := s.enterStep r a n (s.pinned cfg r) m)
      (SchedulerState.retainedManager_inv h r) hall.inv hall.grown rfl hb
      (by rw [SchedulerState.retainedManager_blockHash]; exact hold.1) hold.2

theorem retainedFinished_promoteRemote (h : s.Inv cfg) (hr : RetainedFinished s) {i : String}
    (hs : s.promoteRemote cfg i = some s') : RetainedFinished s' := by
  obtain ⟨r, m, -, hreq, -, hm, rfl⟩ := SchedulerState.promoteRemote_some hs
  obtain ⟨hinv, hgrown, -, -, -⟩ := SchedulerState.promotion_cached h hreq hm
  intro b hb
  obtain ⟨hh, hfwd⟩ := hr b hb
  constructor
  · change (m.pool.blocks b).blockHash ≠ none
    rw [hgrown.blockHash_eq h.manager hinv (Or.inl (h.manager.refCnt_pos_of_pin hb)) hh]
    exact hh
  · change (if _ then true else s.forwarded b) = true
    split
    · rfl
    · exact hfwd

/-- **Every step keeps the retained blocks finished**, unless it pins a pending block. -/
theorem retainedFinished_step (h : s.Inv cfg) (hf : HashesFinished cfg s) (hr : RetainedFinished s)
    {a : Action} (hok : pinsFinished cfg s a = true) (hs : schedulerStep cfg s a = some s') :
    RetainedFinished s' := by
  cases a with
  | addRequest r =>
      obtain ⟨-, -, -, -, -, -, -, -, -, -, rfl⟩ := SchedulerState.addRequest_some hs
      exact hr
  | appendOutput i t =>
      obtain ⟨r, -, -, -, -, -, rfl⟩ := SchedulerState.appendOutput_some hs
      exact hr
  | finish i =>
      obtain ⟨r, -, hphase, -, rfl⟩ := SchedulerState.finish_some hs
      intro b hb
      change b ∈ s.retainedBlocks at hb
      rw [(h.idle hphase).2] at hb
      cases hb
  | resetPrefixCache =>
      obtain ⟨hphase, m, -, rfl⟩ := SchedulerState.resetPrefixCache_some hs
      intro b hb
      change b ∈ s.retainedBlocks at hb
      rw [(h.idle hphase).2] at hb
      cases hb
  | beginSchedule =>
      obtain ⟨-, rfl⟩ := SchedulerState.beginSchedule_some hs
      exact hr
  | scheduleRunning i n => exact retainedFinished_scheduleRunning h hr hs
  | preempt i =>
      obtain ⟨p, r, -, -, -, rfl⟩ := SchedulerState.preempt_some hs
      intro b hb
      change ((s.manager.free _ _ _).pool.blocks b).blockHash ≠ none ∧ _
      rw [KVCacheManager.free_blockHash]
      exact hr b hb
  | beginWaiting =>
      obtain ⟨-, rfl⟩ := SchedulerState.beginWaiting_some hs
      exact hr
  | lookup i =>
      obtain ⟨r, r', hit, -, -, -, -, -, rfl⟩ := SchedulerState.lookup_some hs
      exact hr
  | skip =>
      obtain ⟨-, rfl⟩ := SchedulerState.skip_some hs
      exact hr
  | admitWaiting i a => exact retainedFinished_admitWaiting h hf hr hok hs
  | promoteRemote i => exact retainedFinished_promoteRemote h hr hs
  | execute flags =>
      rw [schedulerStep, Option.ite_none_right_eq_some] at hs
      rw [← Option.some.inj hs.2]
      intro b hb
      cases hb

end

/-- What every run without pending pins keeps. -/
theorem retainedFinished_of_reachable {K : Type} {cfg : EngineConfig} {compute : List K → Nat → K}
    {kv : KVMemory K} {s : State K}
    (hs : ReachableWhen (step cfg compute)
      (fun s a => preemptsFinished cfg s.scheduler a = true ∧ pinsFinished cfg s.scheduler a = true)
      (State.init cfg kv) s) : RetainedFinished s.scheduler := by
  refine (hs.invariant (fun s => s.scheduler.Inv cfg ∧ Registered cfg s.scheduler ∧
    HashesFinished cfg s.scheduler ∧ RetainedFinished s.scheduler)
    ⟨SchedulerState.init_inv cfg, registered_init cfg, hashesFinished_init cfg,
      retainedFinished_init cfg⟩ ?_ s).2.2.2
  rintro s a s' ⟨hinv, hreg, hf, hr⟩ ⟨hpre, hpin⟩ hst
  have hsched := schedulerStep_of_step hst
  exact ⟨schedulerStep_inv hinv hsched, registered_step hinv hreg hsched,
    hashesFinished_step hinv hreg hf hpre hsched, retainedFinished_step hinv hf hr hpin hsched⟩

/-- **Copies read finished blocks.**  In every run that leaves no pending block behind by a preemption
and pins none, the source blocks of every copy that the worker executes are registered and were
written in an earlier step. -/
theorem copy_sources_forwarded {K : Type} {cfg : EngineConfig} {compute : List K → Nat → K}
    {kv : KVMemory K} {s : State K}
    (hs : ReachableWhen (step cfg compute)
      (fun s a => preemptsFinished cfg s.scheduler a = true ∧ pinsFinished cfg s.scheduler a = true)
      (State.init cfg kv) s) {added : WorkerRequests}
    (ha : addedRequests cfg s.scheduler s.worker = .ok added) :
    ∀ e ∈ s.scheduler.scheduled, ∀ i ∈ executedCopies cfg added e,
      ∀ b ∈ i.physicalSourceBlockIds, b ∈ s.scheduler.retainedBlocks ∧
        (s.scheduler.manager.pool.blocks b).blockHash ≠ none ∧ s.scheduler.forwarded b = true := by
  intro e he i hi b hb
  have hinv := inv_of_reachable hs
  have hplans := plans_of_reachable hs
  obtain ⟨hnew, hi⟩ := mem_executedCopies hi
  obtain ⟨r, hr, -⟩ := hinv.entry e he
  obtain ⟨plan, hplan, c, hc, x, -, rfl⟩ := copy_of_entry hinv hplans ha he hr hnew hi
  obtain ⟨-, -, -, hret⟩ := hplans.entry e he plan hplan
  have hin := hret c hc b hb
  exact ⟨hin, retainedFinished_of_reachable hs b hin⟩

/-- Three usable blocks, and a worker that recomputes the changed blocks only. -/
def pendingConfig : EngineConfig :=
  { smallEngine 3 with repairSelector := .editProximity 0 }

/-- `source` and then another request are served; in the next call `before` is admitted first, and
then `target`, whose second block is the one of `source`. -/
def pendingRun (before : List (List Nat)) : List Action :=
  serve { requestId := "source", promptTokenIds := some [1, 2] } ++
    serve { requestId := "filler", promptTokenIds := some [8, 8, 9, 9] } ++
    before.map (fun p => .addRequest { requestId := "again", promptTokenIds := some p }) ++
    [.addRequest {
      requestId := "target"
      promptTokenIds := some [5, 6, 1, 2]
      cacheselectSourceRequestId := some "source" },
    .beginSchedule, .beginWaiting] ++
    before.flatMap (fun p => [.lookup "again", .admitWaiting "again" { numNewTokens := p.length }]) ++
    [.lookup "target", .admitWaiting "target" { numNewTokens := 4 }]

/-- The source blocks of the copies of a step, with the test on them. -/
def copiesFrom (cfg : EngineConfig) {K : Type} (test : SchedulerState → Nat → Bool) (s : State K) :
    Bool :=
  match addedRequests cfg s.scheduler s.worker with
  | .error _ => false
  | .ok added => s.scheduler.scheduled.any fun e => (executedCopies cfg added e).any fun i =>
      i.physicalSourceBlockIds.any (test s.scheduler)

theorem copiesFrom_spec {cfg : EngineConfig} {K : Type} {test : SchedulerState → Nat → Bool}
    {s : State K} (h : copiesFrom cfg test s = true) :
    ∃ added, addedRequests cfg s.scheduler s.worker = .ok added ∧
      ∃ e ∈ s.scheduler.scheduled, ∃ i ∈ executedCopies cfg added e,
        ∃ b ∈ i.physicalSourceBlockIds, test s.scheduler b = true := by
  rw [copiesFrom] at h
  split at h
  · cases h
  · next added ha =>
      obtain ⟨e, he, h⟩ := List.any_eq_true.mp h
      obtain ⟨i, hi, h⟩ := List.any_eq_true.mp h
      exact ⟨added, ha, e, he, i, hi, List.any_eq_true.mp h⟩

/-- **A copy can read a block that is not written yet**: `again` evicts the block of `source` and
registers it under the same hash, and `target`, in the same call, finds it resident. -/
theorem copy_from_pending_block :
    ∃ s : State Unit,
      Reachable (step pendingConfig fun _ _ => ()) (State.init pendingConfig fun _ _ => ()) s ∧
      ∃ added, addedRequests pendingConfig s.scheduler s.worker = .ok added ∧
        ∃ e ∈ s.scheduler.scheduled, ∃ i ∈ executedCopies pendingConfig added e,
          ∃ b ∈ i.physicalSourceBlockIds, s.scheduler.forwarded b = false := by
  obtain ⟨s, hs, hP⟩ := exists_reachableWhen (step pendingConfig fun _ _ => ())
    (fun _ _ => True) (State.init pendingConfig fun _ _ => ()) (pendingRun [[1, 2]])
    (fun s => copiesFrom pendingConfig (fun s b => !s.forwarded b) s) (by decide +kernel)
  obtain ⟨added, ha, e, he, i, hi, b, hb, hfwd⟩ := copiesFrom_spec hP
  exact ⟨s, hs, added, ha, e, he, i, hi, b, hb, by rwa [Bool.not_eq_true'] at hfwd⟩

/-- Without `again` the same copy reads a block that the step of `source` has written. -/
theorem copy_from_forwarded_block :
    ∃ s : State Unit,
      Reachable (step pendingConfig fun _ _ => ()) (State.init pendingConfig fun _ _ => ()) s ∧
      ∃ added, addedRequests pendingConfig s.scheduler s.worker = .ok added ∧
        ∃ e ∈ s.scheduler.scheduled, ∃ i ∈ executedCopies pendingConfig added e,
          ∃ b ∈ i.physicalSourceBlockIds, b ∈ s.scheduler.retainedBlocks ∧
            (s.scheduler.manager.pool.blocks b).blockHash ≠ none ∧
            s.scheduler.forwarded b = true := by
  obtain ⟨s, hs, hP⟩ := exists_reachableWhen (step pendingConfig fun _ _ => ())
    (fun s a => preemptsFinished pendingConfig s.scheduler a = true ∧
      pinsFinished pendingConfig s.scheduler a = true)
    (State.init pendingConfig fun _ _ => ()) (pendingRun [])
    (fun s => copiesFrom pendingConfig (fun _ _ => true) s) (by decide +kernel)
  obtain ⟨added, ha, e, he, i, hi, b, hb, -⟩ := copiesFrom_spec hP
  exact ⟨s, hs.reachable, added, ha, e, he, i, hi, b, hb,
    copy_sources_forwarded hs ha e he i hi b hb⟩

end CacheSelect.Engine

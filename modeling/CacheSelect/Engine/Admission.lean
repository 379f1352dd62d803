import CacheSelect.Engine.SchedulerInvariant

/-! # Pinning and admission

`schedule` pins the resident sources of a request before it asks for room, so that they are not
counted as free.  `admits_iff_pinsFit` says when an admission that would succeed without pins
succeeds with them, and that a refused admission gives back what it pinned.
-/

namespace CacheSelect.Engine

open CacheSelect.Core CacheSelect.Worker Transition

namespace SchedulerState

/-- Whether `allocate_slots` has returned blocks. -/
def allocated (x : Except PyError (Option (List Nat) × KVCacheManager)) : Bool :=
  match x with
  | .ok (some _, _) => true
  | _ => false

/-- Whether the scheduler takes the request out of the waiting queue. -/
def admits (cfg : EngineConfig) (s : SchedulerState) (id : String) (a : Admission) : Bool :=
  (s.admitWaiting cfg id a).any fun s' => (s'.requests id).any fun r => !isWaiting r

/-- The pinned sources that were free and are not part of the native hit. -/
def pinnedFree (cfg : EngineConfig) (s : SchedulerState) (r : Request) (hits : List Nat) : Nat :=
  (s.pinned cfg r).countP fun b => (s.manager.pool.blocks b).refCnt == 0 && !hits.contains b

/-- The two checks of `allocate_slots`, with the pinned sources counted as used. -/
def PinsFit (cfg : EngineConfig) (s : SchedulerState) (r : Request) (a : Admission)
    (hits : List Nat) (n : Nat) : Prop :=
  let args := admissionArgs cfg a hits n
  let headroom := KVCacheManager.watermark cfg.toManagerConfig r a.hasScheduledReqs
    + pinnedFree cfg s r hits
  (args.fullSequenceMustFit = true →
    KVCacheManager.blocksNeeded cfg.toManagerConfig s.manager r.requestId
      (min r.numTokens cfg.maxModelLen) hits + headroom ≤ s.manager.pool.getNumFreeBlocks) ∧
  KVCacheManager.blocksNeeded cfg.toManagerConfig s.manager r.requestId
      (KVCacheManager.numSlots cfg.toManagerConfig r args) hits + headroom + args.reservedBlocks
    ≤ s.manager.pool.getNumFreeBlocks

instance (cfg : EngineConfig) (s : SchedulerState) (r : Request) (a : Admission) (hits : List Nat)
    (n : Nat) : Decidable (PinsFit cfg s r a hits n) := by
  unfold PinsFit; infer_instance

/-- A released pool has the counts and the free blocks it had before. -/
def PoolRestored (p p' : BlockPool) : Prop :=
  (∀ b, (p'.blocks b).refCnt = (p.blocks b).refCnt) ∧
    ∀ b, b ∈ p'.freeBlockQueue ↔ b ∈ p.freeBlockQueue

variable {cfg : EngineConfig} {s : SchedulerState}

/-- Counting the elements of one distinct list that are in another, from either side. -/
theorem countP_contains_comm {l l' : List Nat} (hl : l.Nodup) (hl' : l'.Nodup)
    (p : Nat → Bool) :
    l.countP (fun b => p b && l'.contains b) = l'.countP fun b => p b && l.contains b := by
  rw [List.countP_eq_length_filter, List.countP_eq_length_filter]
  refine List.Perm.length_eq ((List.perm_ext_iff_of_nodup (hl.filter _) (hl'.filter _)).mpr ?_)
  intro b
  simp only [List.mem_filter, Bool.and_eq_true, List.contains_iff_mem]
  tauto

theorem countP_and_add (p q : Nat → Bool) (l : List Nat) :
    l.countP (fun b => p b && q b) + l.countP (fun b => p b && !q b) = l.countP p := by
  induction l with
  | nil => rfl
  | cons b l ih =>
      simp only [List.countP_cons]
      cases p b <;> cases q b <;> simp <;> omega

/-- **Pins as used blocks**: what an allocation lacks after the pinning is what it would lack if the
free blocks were fewer by the pinned ones. -/
theorem pinned_balance (h : s.Inv cfg) (r : Request) {hits : List Nat}
    (hh : KVCacheManager.Hits cfg.toManagerConfig s.manager r hits) :
    (s.retainedManager cfg r).pool.getNumFreeBlocks + pinnedFree cfg s r hits
        + KVCacheManager.numEvictableBlocks s.manager.pool hits
      = s.manager.pool.getNumFreeBlocks
        + KVCacheManager.numEvictableBlocks (s.retainedManager cfg r).pool hits := by
  have hpool := h.manager.pool_wf
  have hnd : (s.pinned cfg r).Nodup :=
    KVCacheManager.nodup_sourceIds cfg.toManagerConfig s.manager r
  have hvalid : ∀ b ∈ s.pinned cfg r, b < s.manager.pool.numGpuBlocks ∧ b ≠ 0 := by
    intro b hb
    obtain ⟨_, _, _, blk, -, -, -, -, -, hhash⟩ :=
      KVCacheManager.mem_sourceIds hpool.toCacheWF hb
    exact hpool.hash_valid b _ hhash
  have hqueue := KVCacheManager.length_queue_touch (s.pinned cfg r) hpool hnd hvalid
  let free : Nat → Bool := fun b => (s.manager.pool.blocks b).refCnt == 0
  have hpins : KVCacheManager.numEvictableBlocks s.manager.pool (s.pinned cfg r)
      = (s.pinned cfg r).countP free := by
    refine List.countP_congr fun b hb => ?_
    rw [hpool.isNull_eq_false (hvalid b hb).2]
    simp [free]
  have hhits : KVCacheManager.numEvictableBlocks s.manager.pool hits = hits.countP free := by
    refine List.countP_congr fun b hb => ?_
    rw [hpool.isNull_eq_false (hh.valid h.manager b hb).2]
    simp [free]
  have hrest : KVCacheManager.numEvictableBlocks (s.retainedManager cfg r).pool hits
      = hits.countP fun b => free b && !(s.pinned cfg r).contains b := by
    refine List.countP_congr fun b hb => ?_
    have hblk := BlockPool.touch_blocks (s.pinned cfg r) s.manager.pool b
    change ((((s.manager.pool.touch (s.pinned cfg r)).blocks b).refCnt == 0
      && !((s.manager.pool.touch (s.pinned cfg r)).blocks b).isNull) = true ↔ _)
    rw [hblk]
    have hnull := hpool.isNull_eq_false (hh.valid h.manager b hb).2
    have hnn := hpool.refCnt_nonneg b (hh.valid h.manager b hb).2
    simp only [hnull, Bool.not_false, Bool.and_true, beq_iff_eq, Bool.and_eq_true,
      Bool.not_eq_true', free]
    by_cases hin : b ∈ s.pinned cfg r
    · have hpos := List.count_pos_iff.mpr hin
      have hc : (s.pinned cfg r).contains b = true := List.contains_iff_mem.mpr hin
      rw [hc]
      constructor
      · intro h0; omega
      · rintro ⟨-, h0⟩; cases h0
    · rw [List.count_eq_zero.mpr hin]
      have hc : (s.pinned cfg r).contains b = false := by
        rw [← Bool.not_eq_true, List.contains_iff_mem]; exact hin
      rw [hc]
      simp
  have h1 := countP_and_add free hits.contains (s.pinned cfg r)
  have h2 := countP_and_add free (s.pinned cfg r).contains hits
  have h3 := countP_contains_comm hnd hh.nodup free
  have hq : (s.retainedManager cfg r).pool.getNumFreeBlocks
      + KVCacheManager.numEvictableBlocks s.manager.pool (s.pinned cfg r)
      = s.manager.pool.getNumFreeBlocks := hqueue
  rw [hrest, hhits]
  change _ + (s.pinned cfg r).countP (fun b => free b && !hits.contains b) + _ = _
  rw [hpins] at hq
  omega

theorem room_retained_iff (h : s.Inv cfg) (r : Request) {hits : List Nat} (a : Admission) (n : Nat)
    (hh : KVCacheManager.Hits cfg.toManagerConfig s.manager r hits) :
    KVCacheManager.Room cfg.toManagerConfig (s.retainedManager cfg r) r (admissionArgs cfg a hits n)
      ↔ PinsFit cfg s r a hits n := by
  have hb := pinned_balance h r hh
  have hneed : ∀ k, KVCacheManager.blocksNeeded cfg.toManagerConfig (s.retainedManager cfg r)
      r.requestId k hits + KVCacheManager.numEvictableBlocks s.manager.pool hits
      = KVCacheManager.blocksNeeded cfg.toManagerConfig s.manager r.requestId k hits
        + KVCacheManager.numEvictableBlocks (s.retainedManager cfg r).pool hits := by
    intro k
    rw [KVCacheManager.blocksNeeded, KVCacheManager.blocksNeeded]
    change (_ - (_ + (s.manager.reqToBlocks r.requestId).length) + _) + _ = _
    omega
  have h1 := hneed (min r.numTokens cfg.maxModelLen)
  have h2 := hneed (KVCacheManager.numSlots cfg.toManagerConfig r (admissionArgs cfg a hits n))
  rw [KVCacheManager.Room, PinsFit]
  change ((admissionArgs cfg a hits n).fullSequenceMustFit = true → KVCacheManager.blocksNeeded _ _ _ _ hits
    + KVCacheManager.watermark _ r a.hasScheduledReqs ≤ _) ∧ KVCacheManager.blocksNeeded _ _ _ _ hits
    + KVCacheManager.watermark _ r a.hasScheduledReqs + _ ≤ _ ↔ _
  constructor
  · rintro ⟨hf, hs⟩
    exact ⟨fun ht => by have := hf ht; omega, by omega⟩
  · rintro ⟨hf, hs⟩
    exact ⟨fun ht => by have := hf ht; omega, by omega⟩

theorem admissible_pos {r : Request} {a : Admission} {n : Nat} (ha : admissible r a n) :
    ¬ (a.numNewTokens = 0 ∧ a.numExternalComputedTokens = 0) := by
  have h2 := ha.2.2
  rintro ⟨h0, h1⟩
  split at h2
  · omega
  · omega

theorem isWaiting_admittedRequest (r : Request) (a : Admission) (n : Nat) :
    isWaiting (admittedRequest r a n) = false := by
  rw [isWaiting, admittedRequest]
  cases a.loadKvAsync <;> rfl

/-- With room the request is admitted, without it the pins are released. -/
theorem admitWaiting_eq (h : s.Inv cfg) {id : String} {r : Request} (hr : s.requests id = some r)
    {a : Admission} {hits : List Nat} {n : Nat} (hc : s.computedBefore r = some (hits, n))
    (hw : isWaiting r = true) (ha : admissible r a n) :
    (PinsFit cfg s r a hits n → ∃ m,
      s.admitWaiting cfg id a = some (s.afterAdmission r a hits n (s.pinned cfg r) m)) ∧
    (¬ PinsFit cfg s r a hits n → s.admitWaiting cfg id a = some (s.afterRefusal cfg r)) := by
  have hr' : s.requests r.requestId = some r := by rw [(h.request id r hr).id_eq]; exact hr
  have hspec := KVCacheManager.allocateSlots_spec (retainedManager_inv h r) hr'
    (admissionReady h hr hc hw ha) (admissible_pos ha)
  rw [room_retained_iff h r a n (computedBefore_spec h hr hc).1] at hspec
  obtain ⟨hyes, hno⟩ := hspec
  refine ⟨fun hfit => ?_, fun hfit => ?_⟩
  · obtain ⟨new, m, hm, -⟩ := hyes hfit
    refine ⟨m, ?_⟩
    rw [admitWaiting, hr]
    dsimp only
    rw [hc]
    dsimp only
    rw [if_pos ⟨hw, ha⟩, retain_eq]
    dsimp only
    rw [hm]
  · rw [admitWaiting, hr]
    dsimp only
    rw [hc]
    dsimp only
    rw [if_pos ⟨hw, ha⟩, afterRefusal, retain_eq]
    dsimp only
    rw [hno hfit]

/-- **A refused admission gives back what it pinned.** -/
theorem poolRestored_afterRefusal (h : s.Inv cfg) (r : Request) :
    PoolRestored s.manager.pool (s.afterRefusal cfg r).manager.pool := by
  have hinv' := (afterRefusal_inv h r).manager
  have hpool : (s.afterRefusal cfg r).manager.pool
      = (s.manager.pool.touch (s.pinned cfg r)).freeBlocks (s.pinned cfg r).reverse := by
    rw [afterRefusal_manager]
  have hcnt : ∀ b, ((s.afterRefusal cfg r).manager.pool.blocks b).refCnt
      = (s.manager.pool.blocks b).refCnt := by
    intro b
    rw [hpool, BlockPool.freeBlocks_blocks, BlockPool.touch_blocks, List.count_reverse]
    change (s.manager.pool.blocks b).refCnt + _ - _ = _
    omega
  refine ⟨hcnt, fun b => ?_⟩
  have hN : (s.afterRefusal cfg r).manager.pool.numGpuBlocks = s.manager.pool.numGpuBlocks := by
    rw [hpool, BlockPool.freeBlocks_numGpuBlocks, BlockPool.touch_numGpuBlocks]
  rw [hinv'.pool_wf.mem_queue, h.manager.pool_wf.mem_queue, hcnt, hN]

end SchedulerState

open SchedulerState

/-- **When pinning does not cost an admission.**  A waiting request whose allocation would succeed
without pins is admitted exactly when the blocks that its pins take out of the free queue leave
enough room; an admission that fails restores the pool. -/
theorem admits_iff_pinsFit {K : Type} {cfg : EngineConfig} {compute : List K → Nat → K}
    {kv : KVMemory K} {s : State K} (hs : Reachable (step cfg compute) (State.init cfg kv) s)
    {id : String} {r : Request} (hr : s.scheduler.requests id = some r) {a : Admission}
    {hits : List Nat} {n : Nat} (hc : s.scheduler.computedBefore r = some (hits, n))
    (hw : isWaiting r = true) (ha : admissible r a n) :
    (allocated (s.scheduler.manager.allocateSlots cfg.toManagerConfig r
        (admissionArgs cfg a hits n)) = true →
      (admits cfg s.scheduler id a = true ↔ PinsFit cfg s.scheduler r a hits n)) ∧
    ∀ s', s.scheduler.admitWaiting cfg id a = some s' → admits cfg s.scheduler id a = false →
      PoolRestored s.scheduler.manager.pool s'.manager.pool := by
  have h := inv_of_reachable hs
  obtain ⟨hyes, hno⟩ := admitWaiting_eq h hr hc hw ha
  have hid := (h.request id r hr).id_eq
  subst hid
  by_cases hfit : PinsFit cfg s.scheduler r a hits n
  · obtain ⟨m, hm⟩ := hyes hfit
    have hadmits : admits cfg s.scheduler r.requestId a = true := by
      have hself := setRequest_self s.scheduler (admittedRequest r a n)
      have : ((s.scheduler.afterAdmission r a hits n (s.scheduler.pinned cfg r) m).requests
          r.requestId) = some (admittedRequest r a n) := hself
      rw [admits, hm, Option.any_some, this, Option.any_some, isWaiting_admittedRequest]
      rfl
    refine ⟨fun _ => ⟨fun _ => hfit, fun _ => hadmits⟩, fun s' _ hf => ?_⟩
    rw [hadmits] at hf
    cases hf
  · have hrefused := hno hfit
    have hnot : admits cfg s.scheduler r.requestId a = false := by
      have : (s.scheduler.afterRefusal cfg r).requests r.requestId = some r := hr
      rw [admits, hrefused, Option.any_some, this, Option.any_some, hw]
      rfl
    refine ⟨fun _ => ⟨fun ht => ?_, fun hf => absurd hf hfit⟩, fun s' hs' _ => ?_⟩
    · rw [hnot] at ht
      cases ht
    · rw [hrefused, Option.some.injEq] at hs'
      subst hs'
      exact poolRestored_afterRefusal h r

/-- Three free blocks, one of them the cached source of a request that needs three. -/
def tightConfig : EngineConfig := smallEngine 3

/-- The source `[1, 2, 3]` is served, and a request whose second block is `[1, 2]` is looked up. -/
def tightRun : List Action :=
  serve { requestId := "source", promptTokenIds := some [1, 2, 3] } ++
    [.addRequest {
      requestId := "target"
      promptTokenIds := some [5, 6, 1, 2, 7]
      cacheselectSourceRequestId := some "source" },
    .beginSchedule, .beginWaiting, .lookup "target"]

/-- **Pinning can cost an admission**: with the source pinned, the last free block is missing. -/
theorem pinning_blocks_admission :
    ∃ s : State Unit,
      Reachable (step tightConfig fun _ _ => ()) (State.init tightConfig fun _ _ => ()) s ∧
      ∃ r hits n, s.scheduler.requests "target" = some r ∧
        s.scheduler.computedBefore r = some (hits, n) ∧ isWaiting r = true ∧
        admissible r { numNewTokens := 5 } n ∧
        allocated (s.scheduler.manager.allocateSlots tightConfig.toManagerConfig r
          (admissionArgs tightConfig { numNewTokens := 5 } hits n)) = true ∧
        admits tightConfig s.scheduler "target" { numNewTokens := 5 } = false := by
  obtain ⟨s, hs, hP⟩ := exists_reachableWhen (step tightConfig fun _ _ => ())
    (fun _ _ => True) (State.init tightConfig fun _ _ => ()) tightRun
    (fun s => (s.scheduler.requests "target").any fun r =>
      (s.scheduler.computedBefore r).any fun x =>
        isWaiting r && decide (admissible r { numNewTokens := 5 } x.2) &&
        allocated (s.scheduler.manager.allocateSlots tightConfig.toManagerConfig r
          (admissionArgs tightConfig { numNewTokens := 5 } x.1 x.2)) &&
        !admits tightConfig s.scheduler "target" { numNewTokens := 5 }) (by decide +kernel)
  rw [Option.any_eq_true] at hP
  obtain ⟨r, hr, hP⟩ := hP
  rw [Option.any_eq_true] at hP
  obtain ⟨⟨hits, n⟩, hc, hP⟩ := hP
  simp only [Bool.and_eq_true, decide_eq_true_eq, Bool.not_eq_true'] at hP
  exact ⟨s, hs, r, hits, n, hr, hc, hP.1.1.1, hP.1.1.2, hP.1.2, hP.2⟩

/-- The same request with one token less to compute is admitted beside its pinned source. -/
theorem admits_beside_pinned_source :
    ∃ s : State Unit,
      Reachable (step tightConfig fun _ _ => ()) (State.init tightConfig fun _ _ => ()) s ∧
      admits tightConfig s.scheduler "target" { numNewTokens := 4 } = true := by
  obtain ⟨s, hs, hP⟩ := exists_reachableWhen (step tightConfig fun _ _ => ())
    (fun _ _ => True) (State.init tightConfig fun _ _ => ()) tightRun
    (fun s => (s.scheduler.requests "target").any fun r =>
      (s.scheduler.computedBefore r).any fun x =>
        isWaiting r && decide (admissible r { numNewTokens := 4 } x.2) &&
        allocated (s.scheduler.manager.allocateSlots tightConfig.toManagerConfig r
          (admissionArgs tightConfig { numNewTokens := 4 } x.1 x.2)) &&
        decide (PinsFit tightConfig s.scheduler r { numNewTokens := 4 } x.1 x.2))
    (by decide +kernel)
  rw [Option.any_eq_true] at hP
  obtain ⟨r, hr, hP⟩ := hP
  rw [Option.any_eq_true] at hP
  obtain ⟨⟨hits, n⟩, hc, hP⟩ := hP
  simp only [Bool.and_eq_true, decide_eq_true_eq] at hP
  obtain ⟨⟨⟨hw, ha⟩, hall⟩, hfit⟩ := hP
  exact ⟨s, hs, ((admits_iff_pinsFit hs hr hc hw ha).1 hall).mpr hfit⟩

end CacheSelect.Engine

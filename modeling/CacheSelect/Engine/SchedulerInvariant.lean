import CacheSelect.Core.Retention
import CacheSelect.Engine.System

/-! # The scheduler's invariant

For every scheduler step one lemma says what a successful step has checked and what state it leads to
(`scheduleRunning_some`, `admitWaiting_some`, ...).  From these every invariant is derived.
`SchedulerState.Inv` is the basic one: the manager's invariant for the live requests, the counters of
every request within its tokens and its table, and every scheduled request running.  It holds in every
reachable state (`inv_of_reachable`).
-/

namespace CacheSelect.Engine

open CacheSelect.Core CacheSelect.Worker Transition

namespace SchedulerState

variable {cfg : EngineConfig} {s s' : SchedulerState}

/-! ### What a step does -/

theorem addRequest_some {r : Request} (h : s.addRequest cfg r = some s') :
    s.phase = .idle ∧ s.requests r.requestId = none ∧ r.promptTokenIds.isSome = true ∧
      r.outputTokenIds = [] ∧ r.status = .waiting ∧ r.numComputedTokens = 0 ∧
      r.numPreemptions = 0 ∧ r.partialReusePlan = none ∧ 0 < r.numTokens ∧
      r.numTokens ≤ cfg.maxModelLen ∧ s' = s.setRequest r := by
  rw [addRequest, Option.ite_none_right_eq_some] at h
  obtain ⟨⟨h1, h2, h3, h4, h5, h6, h7, h8, h9, h10⟩, he⟩ := h
  exact ⟨h1, h2, h3, h4, h5, h6, h7, h8, h9, h10, (Option.some.inj he).symm⟩

theorem appendOutput_some {id : String} {t : Nat} (h : s.appendOutput cfg id t = some s') :
    ∃ r, s.requests id = some r ∧ s.phase = .idle ∧ r.status = .running ∧
      r.numComputedTokens = r.numTokens ∧ r.numTokens < cfg.maxModelLen ∧
      s' = s.setRequest { r with outputTokenIds := r.outputTokenIds ++ [t] } := by
  rw [appendOutput] at h
  split at h
  · cases h
  · next r hr =>
      rw [Option.ite_none_right_eq_some] at h
      obtain ⟨⟨h1, h2, h3, h4⟩, he⟩ := h
      exact ⟨r, hr, h1, h2, h3, h4, (Option.some.inj he).symm⟩

theorem finish_some {id : String} (h : s.finish cfg id = some s') :
    ∃ r, s.requests id = some r ∧ s.phase = .idle ∧ r.status ≠ .waitingForRemoteKvs ∧
      s' = { s with
        manager := s.manager.free cfg.toManagerConfig r true
        requests := Function.update s.requests id none
        forgottenReqIds := id :: s.forgottenReqIds } := by
  rw [finish] at h
  split at h
  · cases h
  · next r hr =>
      rw [Option.ite_none_right_eq_some] at h
      exact ⟨r, hr, h.1.1, h.1.2, (Option.some.inj h.2).symm⟩

theorem resetPrefixCache_some (h : s.resetPrefixCache cfg = some s') :
    s.phase = .idle ∧ ∃ m, s.manager.resetPrefixCache cfg.toManagerConfig = some m ∧
      s' = { s with manager := m } := by
  rw [resetPrefixCache, Option.ite_none_right_eq_some, Option.map_eq_some_iff] at h
  obtain ⟨hp, m, hm, he⟩ := h
  exact ⟨hp, m, hm, he.symm⟩

theorem beginSchedule_some (h : s.beginSchedule = some s') :
    s.phase = .idle ∧ s' = { s with phase := .schedulingRunning false } := by
  rw [beginSchedule, Option.ite_none_right_eq_some] at h
  exact ⟨h.1, (Option.some.inj h.2).symm⟩

theorem scheduleRunning_some {id : String} {n : Nat} (h : s.scheduleRunning cfg id n = some s') :
    ∃ p r new m, s.phase = .schedulingRunning p ∧ s.requests id = some r ∧ r.status = .running ∧
      s.isScheduled id = false ∧ 0 < n ∧ r.numComputedTokens + n ≤ r.numTokens ∧
      s.manager.allocateSlots cfg.toManagerConfig r (runningArgs cfg n) = .ok (some new, m) ∧
      s' = s.afterRunning r n m := by
  rw [scheduleRunning] at h
  split at h
  · next p r hp hr =>
      rw [Option.ite_none_right_eq_some] at h
      obtain ⟨⟨h1, h2, h3, h4⟩, h⟩ := h
      split at h
      · next new m hm => exact ⟨p, r, new, m, hp, hr, h1, h2, h3, h4, hm, (Option.some.inj h).symm⟩
      · cases h
  · cases h

theorem preempt_some {id : String} (h : s.preempt cfg id = some s') :
    ∃ p r, s.phase = .schedulingRunning p ∧ s.requests id = some r ∧ r.status = .running ∧
      s' = s.afterPreemption cfg r := by
  rw [preempt] at h
  split at h
  · next p r hp hr =>
      rw [Option.ite_none_right_eq_some] at h
      exact ⟨p, r, hp, hr, h.1, (Option.some.inj h.2).symm⟩
  · cases h

theorem beginWaiting_some (h : s.beginWaiting = some s') :
    s.phase = .schedulingRunning false ∧ s' = { s with phase := .schedulingWaiting } := by
  rw [beginWaiting, Option.ite_none_right_eq_some] at h
  exact ⟨h.1, (Option.some.inj h.2).symm⟩

theorem lookup_some {id : String} (h : s.lookup cfg id = some s') :
    ∃ r r' hit, s.phase = .schedulingWaiting ∧ s.requests id = some r ∧ isWaiting r = true ∧
      r.numComputedTokens = 0 ∧
      s.manager.getComputedBlocks cfg.toManagerConfig r = .ok (hit, r') ∧
      s' = { s.setRequest r' with phase := .lookedUp id hit.1 hit.2 } := by
  rw [lookup] at h
  split at h
  · next r hp hr =>
      rw [Option.ite_none_right_eq_some] at h
      obtain ⟨⟨h1, h2⟩, h⟩ := h
      split at h
      · next hit r' hg => exact ⟨r, r', hit, hp, hr, h1, h2, hg, (Option.some.inj h).symm⟩
      · cases h
  · cases h

theorem skip_some (h : s.skip = some s') :
    (∃ id hits n, s.phase = .lookedUp id hits n) ∧ s' = { s with phase := .schedulingWaiting } := by
  rw [skip] at h
  split at h
  · next id hits n hp => exact ⟨⟨id, hits, n, hp⟩, (Option.some.inj h).symm⟩
  · cases h

/-- The call of `allocate_slots` that an admission makes. -/
def admissionResult (cfg : EngineConfig) (s : SchedulerState) (r : Request) (a : Admission)
    (hits : List Nat) (n : Nat) : Except PyError (Option (List Nat) × KVCacheManager) :=
  (s.manager.retainPartialReuseSources cfg.toManagerConfig r).2.allocateSlots cfg.toManagerConfig r
    (admissionArgs cfg a hits n)

/-- The state after an admission that found no room. -/
def afterRefusal (cfg : EngineConfig) (s : SchedulerState) (r : Request) : SchedulerState :=
  { s with
    manager := (s.manager.retainPartialReuseSources cfg.toManagerConfig
      r).2.releasePartialReuseSources cfg.toManagerConfig
        (s.manager.retainPartialReuseSources cfg.toManagerConfig r).1
    phase := .stopped }

theorem admitWaiting_some {id : String} {a : Admission} (h : s.admitWaiting cfg id a = some s') :
    ∃ r hits n, s.requests id = some r ∧ s.computedBefore r = some (hits, n) ∧
      isWaiting r = true ∧ admissible r a n ∧
      ((∃ m, admissionResult cfg s r a hits n = .ok (none, m) ∧ s' = s.afterRefusal cfg r) ∨
       ∃ new m, admissionResult cfg s r a hits n = .ok (some new, m) ∧
        s' = s.afterAdmission r a hits n
          (s.manager.retainPartialReuseSources cfg.toManagerConfig r).1 m) := by
  rw [admitWaiting] at h
  split at h
  · cases h
  · next r hr =>
      split at h
      · cases h
      · next hits n hc =>
          rw [Option.ite_none_right_eq_some] at h
          obtain ⟨⟨h1, h2⟩, h⟩ := h
          refine ⟨r, hits, n, hr, hc, h1, h2, ?_⟩
          dsimp only at h
          split at h
          · cases h
          · next m hm =>
              refine Or.inl ⟨m, hm, ?_⟩
              rw [← Option.some.inj h, afterRefusal, KVCacheManager.allocateSlots_none hm]
          · next new m hm => exact Or.inr ⟨new, m, hm, (Option.some.inj h).symm⟩

/-- Who is scheduled after an admission. -/
theorem mem_scheduled_afterAdmission {r : Request} {a : Admission} {hits : List Nat} {n : Nat}
    {retained : List Nat} {m : KVCacheManager} {e : ScheduledRequest} :
    e ∈ (s.afterAdmission r a hits n retained m).scheduled ↔
      e ∈ s.scheduled ∨ (a.loadKvAsync = false ∧ e = admittedEntry r a n retained) := by
  change e ∈ (if a.loadKvAsync = true then s.scheduled else s.scheduled ++ [_]) ↔ _
  split
  · next hl => simp [hl]
  · next hl => simp [hl]

theorem promoteRemote_some {id : String} (h : s.promoteRemote cfg id = some s') :
    ∃ r m, s.phase = .schedulingWaiting ∧ s.requests id = some r ∧
      r.status = .waitingForRemoteKvs ∧
      (if cfg.enableCaching = true then
        s.manager.cacheBlocks cfg.toManagerConfig r r.numComputedTokens else .ok s.manager)
        = .ok m ∧ s' = s.afterPromotion r m := by
  rw [promoteRemote] at h
  split at h
  · next r hp hr =>
      rw [Option.ite_none_right_eq_some] at h
      obtain ⟨h1, h⟩ := h
      dsimp only at h
      split at h
      · cases h
      · next m hm => exact ⟨r, m, hp, hr, h1, hm, (Option.some.inj h).symm⟩
  · cases h

/-! ### The invariant -/

/-- A live request, with its table and its number of registered blocks. -/
structure RequestOk (cfg : EngineConfig) (table : List Nat) (cached : Option Nat) (id : String)
    (r : Request) : Prop where
  id_eq : r.requestId = id
  prompt : r.promptTokenIds.isSome = true
  numTokens_pos : 0 < r.numTokens
  numTokens_le : r.numTokens ≤ cfg.maxModelLen
  computed_le : r.numComputedTokens ≤ r.numTokens
  covered : r.numComputedTokens ≤ table.length * cfg.blockSize
  waiting : isWaiting r = true → r.numComputedTokens = 0 →
    (table = [] ∧ cached = none) ∨ (cached.isSome = true ∧ r.numTokens ≤ 1)
  remote : r.status = .waitingForRemoteKvs → 0 < r.numComputedTokens ∧ cached.isSome = true

/-- A scheduled request with its chunk. -/
structure EntryOk (cfg : EngineConfig) (table : List Nat) (r : Request) (e : ScheduledRequest) :
    Prop where
  running : r.status = .running
  computed_eq : r.numComputedTokens = e.numComputedTokens
  scheduled_pos : 0 < e.numScheduledTokens
  scheduled_le : e.numComputedTokens + e.numScheduledTokens ≤ r.numTokens
  local_le : e.numLocalComputedTokens ≤ e.numComputedTokens
  covered : e.numComputedTokens + e.numScheduledTokens ≤ table.length * cfg.blockSize

/-- What a lookup that has not been decided on says. -/
structure LookupOk (cfg : EngineConfig) (s : SchedulerState) (hits : List Nat) (n : Nat)
    (r : Request) : Prop where
  waiting : isWaiting r = true
  computed_eq : r.numComputedTokens = 0
  isHits : KVCacheManager.Hits cfg.toManagerConfig s.manager r hits
  tokens_eq : n = hits.length * cfg.blockSize
  tokens_le : n ≤ r.numTokens - 1

structure Inv (cfg : EngineConfig) (s : SchedulerState) : Prop where
  manager : s.manager.Inv cfg.toManagerConfig s.requests s.retainedBlocks
  locator : s.manager.locator.WF cfg.blockSize
  request : ∀ id r, s.requests id = some r →
    RequestOk cfg (s.manager.reqToBlocks id) (s.manager.numCachedBlock id) id r
  entry : ∀ e ∈ s.scheduled, ∃ r, s.requests e.reqId = some r ∧
    EntryOk cfg (s.manager.reqToBlocks e.reqId) r e
  nodup : (s.scheduled.map ScheduledRequest.reqId).Nodup
  idle : s.phase = .idle → s.scheduled = [] ∧ s.retainedBlocks = []
  lookedUp : ∀ id hits n, s.phase = .lookedUp id hits n →
    ∃ r, s.requests id = some r ∧ LookupOk cfg s hits n r

theorem init_inv (cfg : EngineConfig) : (init cfg).Inv cfg where
  manager := {
    pool_wf := BlockPool.init_wf cfg.numBlocks_pos
    counts := ⟨∅, fun _ _ => rfl, fun b _ => by simp [init, BlockPool.init, RefCount.refs]⟩
    valid := fun _ _ hb => by cases hb
    valid_pins := fun _ hb => by cases hb
    nodup := fun _ => List.nodup_nil
    live := fun _ _ => ⟨rfl, rfl⟩
    registered := fun _ _ hr => by cases hr
    registered_le := fun _ => Nat.le_refl _
    registered_tokens := fun _ _ hr => by cases hr
    registered_of_shared := fun _ _ _ hb => by cases hb }
  locator := by intro s hs; cases hs
  request := fun _ _ hr => by cases hr
  entry := fun _ he => by cases he
  nodup := List.nodup_nil
  idle := fun _ => ⟨rfl, rfl⟩
  lookedUp := fun _ _ _ hp => by cases hp

theorem not_scheduled_of_status (h : s.Inv cfg) {id : String} {r : Request}
    (hr : s.requests id = some r) (hs : r.status ≠ .running) :
    ∀ e ∈ s.scheduled, e.reqId ≠ id := by
  rintro e he rfl
  obtain ⟨r', hr', hok⟩ := h.entry e he
  rw [hr, Option.some.injEq] at hr'
  exact hs (hr' ▸ hok.running)

theorem isWaiting_ne_running {r : Request} (h : isWaiting r = true) : r.status ≠ .running := by
  intro hs
  rw [isWaiting, hs] at h
  cases h

theorem not_scheduled_of_isScheduled {id : String} (h : s.isScheduled id = false) :
    ∀ e ∈ s.scheduled, e.reqId ≠ id := by
  rintro e he rfl
  rw [isScheduled, List.any_eq_false] at h
  simpa using h e he

/-- **The frame of a step on one request**: what is left is to check that request and the entries. -/
theorem Inv.of_local (h : s.Inv cfg) {t : SchedulerState} (id : String)
    (hm : t.manager.Inv cfg.toManagerConfig t.requests t.retainedBlocks)
    (hl : t.manager.locator.WF cfg.blockSize)
    (hreq : ∀ id', id' ≠ id → t.requests id' = s.requests id')
    (htable : ∀ id', id' ≠ id → t.manager.reqToBlocks id' = s.manager.reqToBlocks id')
    (hcached : ∀ id', id' ≠ id → t.manager.numCachedBlock id' = s.manager.numCachedBlock id')
    (hok : ∀ r, t.requests id = some r →
      RequestOk cfg (t.manager.reqToBlocks id) (t.manager.numCachedBlock id) id r)
    (hentry : ∀ e ∈ t.scheduled, (e ∈ s.scheduled ∧ e.reqId ≠ id) ∨
      ∃ r, t.requests e.reqId = some r ∧ EntryOk cfg (t.manager.reqToBlocks e.reqId) r e)
    (hnd : (t.scheduled.map ScheduledRequest.reqId).Nodup)
    (hidle : t.phase = .idle → t.scheduled = [] ∧ t.retainedBlocks = [])
    (hlook : ∀ id hits n, t.phase = .lookedUp id hits n →
      ∃ r, t.requests id = some r ∧ LookupOk cfg t hits n r) : t.Inv cfg where
  manager := hm
  locator := hl
  request := by
    intro id' r hr
    by_cases hid : id' = id
    · subst hid
      exact hok r hr
    · rw [hreq id' hid] at hr
      rw [htable id' hid, hcached id' hid]
      exact h.request id' r hr
  entry := by
    intro e he
    rcases hentry e he with ⟨hin, hne⟩ | hnew
    · obtain ⟨r, hr, hok⟩ := h.entry e hin
      refine ⟨r, by rw [hreq _ hne]; exact hr, ?_⟩
      rw [htable _ hne]
      exact hok
    · exact hnew
  nodup := hnd
  idle := hidle
  lookedUp := hlook

theorem setRequest_of_ne (s : SchedulerState) (r : Request) {id : String}
    (h : id ≠ r.requestId) : (s.setRequest r).requests id = s.requests id := by
  simp [setRequest, h]

@[simp] theorem setRequest_self (s : SchedulerState) (r : Request) :
    (s.setRequest r).requests r.requestId = some r := by
  simp [setRequest]

/-! ### Steps between two calls -/

/-- Nothing is looked up between two calls. -/
theorem not_lookedUp_of_idle (h : s.phase = .idle) (id : String) (hits : List Nat) (n : Nat) :
    s.phase ≠ .lookedUp id hits n := by
  rw [h]
  nofun

/-- A request is added while nothing is scheduled. -/
theorem Inv.add (h : s.Inv cfg) (hsched : s.scheduled = [])
    (hlook : ∀ id hits n, s.phase ≠ .lookedUp id hits n) {r : Request}
    (hnone : s.requests r.requestId = none) (hprompt : r.promptTokenIds.isSome = true)
    (hstatus : r.status = .waiting) (hcomp : r.numComputedTokens = 0) (hpos : 0 < r.numTokens)
    (hle : r.numTokens ≤ cfg.maxModelLen) : (s.setRequest r).Inv cfg := by
  obtain ⟨htable, hcached⟩ := h.manager.live _ hnone
  refine h.of_local r.requestId (h.manager.add_request hnone r) h.locator
    (fun id hid => setRequest_of_ne s r hid) (fun _ _ => rfl) (fun _ _ => rfl) ?_ ?_ h.nodup
    h.idle ?_
  · intro r' hr'
    rw [setRequest_self, Option.some.injEq] at hr'
    subst hr'
    refine ⟨rfl, hprompt, hpos, hle, by omega, by omega, fun _ _ => Or.inl ⟨htable, hcached⟩, ?_⟩
    intro hrem
    rw [hstatus] at hrem
    cases hrem
  · intro e he
    change e ∈ s.scheduled at he
    rw [hsched] at he
    cases he
  · intro id hits n hp
    exact absurd hp (hlook id hits n)

theorem addRequest_inv (h : s.Inv cfg) {r : Request} (hs : s.addRequest cfg r = some s') :
    s'.Inv cfg := by
  obtain ⟨hphase, hnone, hprompt, hout, hstatus, hcomp, hpre, hplan, hpos, hle, rfl⟩ :=
    addRequest_some hs
  exact h.add (h.idle hphase).1 (not_lookedUp_of_idle hphase) hnone hprompt hstatus hcomp hpos hle

/-- A running request gets a sampled token while nothing is scheduled. -/
theorem Inv.append (h : s.Inv cfg) (hsched : s.scheduled = [])
    (hlook : ∀ id hits n, s.phase ≠ .lookedUp id hits n) {id : String} {r : Request}
    (hr : s.requests id = some r) (hstatus : r.status = .running)
    (hlt : r.numTokens < cfg.maxModelLen) (t : Nat) :
    (s.setRequest { r with outputTokenIds := r.outputTokenIds ++ [t] }).Inv cfg := by
  have hok := h.request id r hr
  have hid := hok.id_eq
  subst hid
  obtain ⟨p, hp⟩ := Option.isSome_iff_exists.mp hok.prompt
  let r' := { r with outputTokenIds := r.outputTokenIds ++ [t] }
  have htok : r'.allTokenIds = r.allTokenIds ++ [t] := by
    rw [Request.allTokenIds_eq (r := r') hp, Request.allTokenIds_eq hp, List.append_assoc]
  have hnum : r'.numTokens = r.numTokens + 1 := by
    rw [Request.numTokens, htok, List.length_append]
    rfl
  have hcomp := hok.computed_le
  have hreg := h.manager.registered_tokens _ r hr
  refine h.of_local r.requestId (h.manager.set_request r' hr ?_ (by omega)) h.locator
    (fun id hid => setRequest_of_ne s r' hid) (fun _ _ => rfl) (fun _ _ => rfl) ?_ ?_ h.nodup
    h.idle ?_
  · intro i hi
    refine Request.blockHashAt_congr ?_ rfl rfl
    have : (i + 1) * cfg.blockSize ≤ r.numTokens :=
      Nat.le_trans (Nat.mul_le_mul_right _ hi) hreg
    rw [htok, List.take_append_of_le_length this]
  · intro q hq
    have hq' : some r' = some q := (setRequest_self s r').symm.trans hq
    cases hq'
    refine ⟨rfl, hok.prompt, by omega, by omega, ?_, hok.covered, ?_, ?_⟩
    · change r.numComputedTokens ≤ r'.numTokens
      omega
    · intro hw
      exact absurd hstatus (isWaiting_ne_running hw)
    · intro hrem
      exact absurd (hstatus.symm.trans hrem) (by decide)
  · intro e he
    change e ∈ s.scheduled at he
    rw [hsched] at he
    cases he
  · intro id hits n hp
    exact absurd hp (hlook id hits n)

theorem appendOutput_inv (h : s.Inv cfg) {id : String} {t : Nat}
    (hs : s.appendOutput cfg id t = some s') : s'.Inv cfg := by
  obtain ⟨r, hr, hphase, hstatus, -, hlt, rfl⟩ := appendOutput_some hs
  exact h.append (h.idle hphase).1 (not_lookedUp_of_idle hphase) hr hstatus hlt t

/-- The index stays well formed when a request's table is indexed. -/
theorem indexPartialReuseSource_wf {m : KVCacheManager} {requests : String → Option Request}
    {pins : List Nat} (h : m.Inv cfg.toManagerConfig requests pins)
    (hl : m.locator.WF cfg.blockSize) {r : Request} (hr : requests r.requestId = some r)
    (isFinished : Bool) :
    (m.indexPartialReuseSource cfg.toManagerConfig r isFinished).locator.WF cfg.blockSize := by
  rw [KVCacheManager.indexPartialReuseSource]
  split
  · intro s hs
    cases hp : r.promptTokenIds with
    | none =>
        rw [AlignedBlockReuseLocator.index_none hp] at hs
        exact hl s hs
    | some p =>
        rcases AlignedBlockReuseLocator.index_sources hp hs with rfl | ⟨hs, -⟩
        · refine AlignedBlockReuseLocator.sourceEntry_wf hp (h.nodup _) ?_
          intro i b hh hb hhash
          have := (h.registered_iff hr hb (by rw [hhash]; exact Option.some_ne_none _)).2
          rw [hhash] at this
          exact Option.some.inj this
        · exact hl s hs
  · exact hl

/-- A request is removed while nothing is scheduled, with its blocks freed or pinned. -/
theorem Inv.remove (h : s.Inv cfg) (hsched : s.scheduled = [])
    (hlook : ∀ id hits n, s.phase ≠ .lookedUp id hits n) {id : String} {r : Request}
    (hr : s.requests id = some r) {m : KVCacheManager} {pins : List Nat}
    (hm : m.Inv cfg.toManagerConfig s.requests pins)
    (hfreed : KVCacheManager.Freed cfg.toManagerConfig s.manager r true m)
    (hidle : s.phase = .idle → pins = []) :
    Inv cfg { s with
      manager := m
      requests := Function.update s.requests id none
      retainedBlocks := pins
      forgottenReqIds := id :: s.forgottenReqIds } := by
  have hid := (h.request id r hr).id_eq
  subst hid
  refine h.of_local r.requestId (hm.remove_request ?_ ?_) ?_ ?_ ?_ ?_ ?_ ?_ h.nodup ?_ ?_
  · rw [hfreed.reqToBlocks_eq, Function.update_self]
  · rw [hfreed.numCachedBlock_eq, Function.update_self]
  · change m.locator.WF _
    rw [hfreed.locator_eq]
    exact indexPartialReuseSource_wf h.manager h.locator hr true
  · intro id' hne
    change Function.update s.requests r.requestId none id' = _
    rw [Function.update_of_ne hne]
  · intro id' hne
    change m.reqToBlocks id' = _
    rw [hfreed.reqToBlocks_eq, Function.update_of_ne hne]
  · intro id' hne
    change m.numCachedBlock id' = _
    rw [hfreed.numCachedBlock_eq, Function.update_of_ne hne]
  · intro q hq
    change Function.update s.requests r.requestId none r.requestId = _ at hq
    rw [Function.update_self] at hq
    cases hq
  · intro e he
    change e ∈ s.scheduled at he
    rw [hsched] at he
    cases he
  · intro hp
    exact ⟨hsched, hidle hp⟩
  · intro id' hits n hp
    exact absurd hp (hlook id' hits n)

theorem finish_inv (h : s.Inv cfg) {id : String} (hs : s.finish cfg id = some s') :
    s'.Inv cfg := by
  obtain ⟨r, hr, hphase, -, rfl⟩ := finish_some hs
  obtain ⟨hsched, hret⟩ := h.idle hphase
  exact h.remove hsched (not_lookedUp_of_idle hphase) hr
    (KVCacheManager.free_inv h.manager r true) (KVCacheManager.free_freed _ _ _) (fun _ => hret)

/-- The prefix cache is reset. -/
theorem Inv.reset (h : s.Inv cfg) (hlook : ∀ id hits n, s.phase ≠ .lookedUp id hits n)
    {m : KVCacheManager} (hm : s.manager.resetPrefixCache cfg.toManagerConfig = some m) :
    Inv cfg { s with manager := m } := by
  have hm' := hm
  rw [KVCacheManager.resetPrefixCache, Option.map_eq_some_iff] at hm'
  obtain ⟨pool, -, rfl⟩ := hm'
  refine { manager := KVCacheManager.resetPrefixCache_inv h.manager hm, locator := ?_,
           request := h.request, entry := h.entry, nodup := h.nodup, idle := h.idle,
           lookedUp := fun id hits n hp => absurd hp (hlook id hits n) }
  intro x hx
  change x ∈ (if cfg.supportsAlignedReuse = true then s.manager.locator.clear
    else s.manager.locator).sources at hx
  split at hx
  · cases hx
  · exact h.locator x hx

theorem resetPrefixCache_inv (h : s.Inv cfg) (hs : s.resetPrefixCache cfg = some s') :
    s'.Inv cfg := by
  obtain ⟨hphase, m, hm, rfl⟩ := resetPrefixCache_some hs
  exact h.reset (not_lookedUp_of_idle hphase) hm

/-! ### Phases -/

theorem beginSchedule_inv (h : s.Inv cfg) (hs : s.beginSchedule = some s') : s'.Inv cfg := by
  obtain ⟨-, rfl⟩ := beginSchedule_some hs
  exact { h with idle := nofun, lookedUp := nofun }

theorem beginWaiting_inv (h : s.Inv cfg) (hs : s.beginWaiting = some s') : s'.Inv cfg := by
  obtain ⟨-, rfl⟩ := beginWaiting_some hs
  exact { h with idle := nofun, lookedUp := nofun }

theorem skip_inv (h : s.Inv cfg) (hs : s.skip = some s') : s'.Inv cfg := by
  obtain ⟨-, rfl⟩ := skip_some hs
  exact { h with idle := nofun, lookedUp := nofun }

/-! ### The running requests -/

/-- Marking blocks changes the history variable only. -/
theorem Inv.markPending (h : s.Inv cfg) (id : String) (n : Nat) : (s.markPending id n).Inv cfg where
  manager := h.manager
  locator := h.locator
  request := h.request
  entry := h.entry
  nodup := h.nodup
  idle := h.idle
  lookedUp := fun id hits n hp => by
    obtain ⟨r, hr, hok⟩ := h.lookedUp id hits n hp
    exact ⟨r, hr, hok.waiting, hok.computed_eq, hok.isHits, hok.tokens_eq, hok.tokens_le⟩

theorem runningReady (h : s.Inv cfg) {id : String} {r : Request} (hr : s.requests id = some r)
    (n : Nat) :
    KVCacheManager.AllocateReady cfg.toManagerConfig s.manager r (runningArgs cfg n) where
  hits := KVCacheManager.Hits.nil _ _ _
  fresh := by
    rintro (hne | hpos)
    · exact absurd rfl hne
    · exact absurd hpos (Nat.lt_irrefl 0)
  computed_le := (h.request id r hr).computed_le
  numTokens_le := (h.request id r hr).numTokens_le

/-- The slots of a request that stays within its tokens cover them. -/
theorem le_numSlots {c : ManagerConfig} {r : Request} {a : KVCacheManager.AllocateArgs}
    (hn : r.numTokens ≤ c.maxModelLen)
    (hle : r.numComputedTokens + a.numNewComputedTokens + a.numExternalComputedTokens
      + a.numNewTokens ≤ r.numTokens) :
    r.numComputedTokens + a.numNewComputedTokens + a.numExternalComputedTokens + a.numNewTokens
      ≤ KVCacheManager.numSlots c r a := by
  rw [KVCacheManager.numSlots]
  omega

theorem scheduleRunning_inv (h : s.Inv cfg) {id : String} {n : Nat}
    (hs : s.scheduleRunning cfg id n = some s') : s'.Inv cfg := by
  obtain ⟨p, r, new, m, hphase, hr, hstatus, hnot, hpos, hle, hm, rfl⟩ := scheduleRunning_some hs
  have hok := h.request id r hr
  have hid := hok.id_eq
  subst hid
  have hall := KVCacheManager.allocateSlots_some h.manager hr (runningReady h hr n) hm
  have hslots := le_numSlots (c := cfg.toManagerConfig) (a := runningArgs cfg n) hok.numTokens_le
    hle
  have hlen : r.numComputedTokens + n ≤ (m.reqToBlocks r.requestId).length * cfg.blockSize := by
    have h1 := KVCacheManager.le_cdiv_mul (a := KVCacheManager.numSlots cfg.toManagerConfig r
      (runningArgs cfg n)) cfg.blockSize_pos
    have h2 := Nat.mul_le_mul_right cfg.blockSize (Nat.le_trans (Nat.le_max_left _ _)
      (Nat.le_of_eq hall.length_table.symm))
    exact Nat.le_trans hslots (Nat.le_trans h1 h2)
  refine Inv.markPending (h.of_local (t := s.enterRunning r n m) r.requestId hall.inv ?_
    (fun _ _ => rfl)
    hall.grown.table_of_ne hall.grown.cached_of_ne ?_ ?_ ?_ ?_ ?_) _ _
  · change m.locator.WF _
    rw [hall.grown.locator_eq]
    exact h.locator
  · intro q hq
    change s.requests r.requestId = _ at hq
    rw [hr, Option.some.injEq] at hq
    subst hq
    have hcov := Nat.le_trans (Nat.le_add_right _ n) hlen
    refine ⟨rfl, hok.prompt, hok.numTokens_pos, hok.numTokens_le, hok.computed_le, hcov, ?_, ?_⟩
    · intro hw
      exact absurd hstatus (isWaiting_ne_running hw)
    · intro hrem
      exact absurd (hstatus.symm.trans hrem) (by decide)
  · intro e he
    rcases List.mem_append.mp he with he | he
    · exact Or.inl ⟨he, not_scheduled_of_isScheduled hnot e he⟩
    · rw [List.mem_singleton] at he
      subst he
      exact Or.inr ⟨r, hr, hstatus, rfl, hpos, hle, Nat.le_refl _, hlen⟩
  · change ((s.scheduled ++ [_]).map ScheduledRequest.reqId).Nodup
    rw [List.map_append, List.nodup_append]
    refine ⟨h.nodup, List.nodup_singleton _, ?_⟩
    rintro x hx y hy rfl
    obtain ⟨e, he, rfl⟩ := List.mem_map.mp hx
    simp only [List.map_cons, List.map_nil, List.mem_singleton] at hy
    exact not_scheduled_of_isScheduled hnot e he hy
  · intro hp
    change s.phase = _ at hp
    rw [hphase] at hp
    cases hp
  · intro id hits n' hp
    change s.phase = _ at hp
    rw [hphase] at hp
    cases hp

/-- A running request is preempted, with its blocks freed or pinned. -/
theorem Inv.preempted (h : s.Inv cfg) {id : String} {r : Request} (hr : s.requests id = some r)
    {m : KVCacheManager} {pins : List Nat} (hm : m.Inv cfg.toManagerConfig s.requests pins)
    (hfreed : KVCacheManager.Freed cfg.toManagerConfig s.manager r false m) :
    Inv cfg { s.afterPreemption cfg r with manager := m, retainedBlocks := pins } := by
  have hok := h.request id r hr
  have hid := hok.id_eq
  subst hid
  have htab : m.reqToBlocks r.requestId = [] := by
    rw [hfreed.reqToBlocks_eq, Function.update_self]
  have hcached : m.numCachedBlock r.requestId = none := by
    rw [hfreed.numCachedBlock_eq, Function.update_self]
  refine h.of_local r.requestId (hm.set_request _ hr (fun i _ => ?_) (Nat.le_refl _)) ?_ ?_ ?_ ?_
    ?_ ?_ ?_ nofun nofun
  · exact Request.blockHashAt_congr rfl rfl rfl
  · change m.locator.WF _
    rw [hfreed.locator_eq]
    exact indexPartialReuseSource_wf h.manager h.locator hr false
  · intro id' hne
    exact setRequest_of_ne _ _ hne
  · intro id' hne
    change m.reqToBlocks id' = _
    rw [hfreed.reqToBlocks_eq, Function.update_of_ne hne]
  · intro id' hne
    change m.numCachedBlock id' = _
    rw [hfreed.numCachedBlock_eq, Function.update_of_ne hne]
  · intro q hq
    change (s.afterPreemption cfg r).requests r.requestId = _ at hq
    have hq' := (setRequest_self _ _).symm.trans hq
    cases hq'
    exact ⟨rfl, hok.prompt, hok.numTokens_pos, hok.numTokens_le, Nat.zero_le _, Nat.zero_le _,
      fun _ _ => Or.inl ⟨htab, hcached⟩, nofun⟩
  · intro e he
    obtain ⟨hin, hne⟩ := List.mem_filter.mp he
    exact Or.inl ⟨hin, by simpa using hne⟩
  · exact h.nodup.sublist ((List.filter_sublist).map _)

theorem preempt_inv (h : s.Inv cfg) {id : String} (hs : s.preempt cfg id = some s') :
    s'.Inv cfg := by
  obtain ⟨p, r, -, hr, -, rfl⟩ := preempt_some hs
  exact h.preempted hr (KVCacheManager.free_inv h.manager r false)
    (KVCacheManager.free_freed _ _ _)

/-! ### The waiting requests -/

theorem lookup_inv (h : s.Inv cfg) {id : String} (hs : s.lookup cfg id = some s') :
    s'.Inv cfg := by
  obtain ⟨r, r', hit, hphase, hr, hw, hcomp, hg, rfl⟩ := lookup_some hs
  have hok := h.request id r hr
  have hid := hok.id_eq
  subst hid
  obtain ⟨hhits, htok, hle, hlook, -⟩ :=
    KVCacheManager.getComputedBlocks_ok h.manager.pool_wf.toCacheWF h.locator hg
  have hid' : r'.requestId = r.requestId := by rw [hlook]
  have hstatus : isWaiting r' = isWaiting r := by rw [hlook]; rfl
  have hcomp' : r'.numComputedTokens = r.numComputedTokens := by rw [hlook]
  have hnum : r'.numTokens = r.numTokens := by rw [hlook]; rfl
  have hhash : ∀ i, r'.blockHashAt cfg.blockSize i = r.blockHashAt cfg.blockSize i := by
    intro i
    rw [hlook]
    exact Request.blockHashAt_congr rfl rfl rfl
  have hself : (s.setRequest r').requests r.requestId = some r' := by
    rw [← hid']; exact setRequest_self s r'
  refine h.of_local r.requestId ?_ h.locator (fun id' hne => setRequest_of_ne s r' (hid' ▸ hne))
    (fun _ _ => rfl) (fun _ _ => rfl) ?_ ?_ h.nodup nofun ?_
  · change s.manager.Inv _ (Function.update s.requests r'.requestId (some r')) _
    rw [hid']
    exact h.manager.set_request r' hr (fun i _ => hhash i) (Nat.le_of_eq hnum.symm)
  · intro q hq
    have hq' := hself.symm.trans hq
    cases hq'
    rw [hlook]
    exact { hok with }
  · intro e he
    exact Or.inl ⟨he, not_scheduled_of_status h hr (isWaiting_ne_running hw) e he⟩
  · rintro _ hits n ⟨⟩
    refine ⟨r', hself, ⟨by rw [hstatus]; exact hw, by rw [hcomp']; exact hcomp, ?_, htok, ?_⟩⟩
    · refine ⟨?_, by rw [hnum]; exact hhits.tokens_le, hhits.caching⟩
      intro i b hb
      rw [hhash]
      exact hhits.blockHash_eq i b hb
    · rw [hnum]
      exact hle

/-- The sources of an admission are pinned beside those of the step. -/
def pinned (cfg : EngineConfig) (s : SchedulerState) (r : Request) : List Nat :=
  KVCacheManager.sourceIds cfg.toManagerConfig s.manager r

/-- The manager between the retention and the allocation of an admission. -/
def retainedManager (cfg : EngineConfig) (s : SchedulerState) (r : Request) : KVCacheManager :=
  { s.manager with pool := s.manager.pool.touch (s.pinned cfg r) }

theorem retain_eq (cfg : EngineConfig) (s : SchedulerState) (r : Request) :
    s.manager.retainPartialReuseSources cfg.toManagerConfig r
      = (s.pinned cfg r, s.retainedManager cfg r) :=
  KVCacheManager.retainPartialReuseSources_eq _ _ _

theorem admissionResult_eq (cfg : EngineConfig) (s : SchedulerState) (r : Request) (a : Admission)
    (hits : List Nat) (n : Nat) :
    admissionResult cfg s r a hits n
      = (s.retainedManager cfg r).allocateSlots cfg.toManagerConfig r
        (admissionArgs cfg a hits n) := by
  rw [admissionResult, retain_eq]

theorem retainedManager_inv (h : s.Inv cfg) (r : Request) :
    (s.retainedManager cfg r).Inv cfg.toManagerConfig s.requests
      (s.retainedBlocks ++ s.pinned cfg r) := by
  have := KVCacheManager.retain_inv h.manager r
  rwa [retain_eq] at this

theorem retainedManager_blockHash (cfg : EngineConfig) (s : SchedulerState) (r : Request) (b : Nat) :
    ((s.retainedManager cfg r).pool.blocks b).blockHash = (s.manager.pool.blocks b).blockHash := by
  rw [retainedManager]
  change ((s.manager.pool.touch _).blocks b).blockHash = _
  rw [BlockPool.touch_blocks]

/-- A refused admission pins the sources and releases them. -/
theorem afterRefusal_manager (cfg : EngineConfig) (s : SchedulerState) (r : Request) :
    (s.afterRefusal cfg r).manager = { s.manager with
      pool := (s.manager.pool.touch (s.pinned cfg r)).freeBlocks (s.pinned cfg r).reverse } := by
  rw [afterRefusal, retain_eq]
  exact KVCacheManager.releasePartialReuseSources_eq _ _ _ _

/-- What an admission builds on: the hits of a fresh lookup, or an arrived load. -/
theorem computedBefore_spec (h : s.Inv cfg) {id : String} {r : Request}
    (hr : s.requests id = some r) {hits : List Nat} {n : Nat}
    (hc : s.computedBefore r = some (hits, n)) :
    KVCacheManager.Hits cfg.toManagerConfig s.manager r hits ∧ n = hits.length * cfg.blockSize ∧
      ((r.numComputedTokens = 0 ∧ n ≤ r.numTokens - 1 ∧ s.phase = .lookedUp r.requestId hits n) ∨
        (r.numComputedTokens ≠ 0 ∧ hits = [] ∧ n = 0 ∧ s.phase = .schedulingWaiting)) := by
  have hid := (h.request id r hr).id_eq
  rw [computedBefore] at hc
  split at hc
  · next id' hits' n' hp =>
      rw [Option.ite_none_right_eq_some] at hc
      obtain ⟨rfl, he⟩ := hc
      cases he
      obtain ⟨r', hr', hok⟩ := h.lookedUp _ _ _ hp
      rw [hid, hr, Option.some.injEq] at hr'
      subst hr'
      exact ⟨hok.isHits, hok.tokens_eq, Or.inl ⟨hok.computed_eq, hok.tokens_le, hp⟩⟩
  · next hp =>
      rw [Option.ite_none_right_eq_some] at hc
      obtain ⟨hne, he⟩ := hc
      cases he
      exact ⟨KVCacheManager.Hits.nil _ _ _, by simp, Or.inr ⟨hne, rfl, rfl, hp⟩⟩
  · cases hc

/-- What `schedule` promises `allocate_slots` at an admission. -/
theorem admissionReady (h : s.Inv cfg) {id : String} {r : Request} (hr : s.requests id = some r)
    {a : Admission} {hits : List Nat} {n : Nat} (hc : s.computedBefore r = some (hits, n))
    (hw : isWaiting r = true) (ha : admissible r a n) :
    KVCacheManager.AllocateReady cfg.toManagerConfig (s.retainedManager cfg r) r
      (admissionArgs cfg a hits n) := by
  have hok := h.request id r hr
  obtain ⟨hhits, hn, hcase⟩ := computedBefore_spec h hr hc
  refine { hits := ⟨?_, hhits.tokens_le, hhits.caching⟩, fresh := ?_, computed_le := ha.1,
           numTokens_le := hok.numTokens_le }
  · intro i b hb
    rw [retainedManager_blockHash]
    exact hhits.blockHash_eq i b hb
  · intro hor
    change (s.manager.reqToBlocks r.requestId = [] ∧ s.manager.numCachedBlock r.requestId = none) ∨
      (hits = [] ∧ (s.manager.numCachedBlock r.requestId).isSome = true)
    rw [hok.id_eq]
    rcases hcase with ⟨h0, hle, -⟩ | ⟨hne, hnil, -, -⟩
    · rcases hok.waiting hw h0 with hfresh | ⟨hsome, hone⟩
      · exact Or.inl hfresh
      · -- a prompt of one token leaves no hit
        refine Or.inr ⟨?_, hsome⟩
        have hbs := cfg.blockSize_pos
        have h1 : hits.length * cfg.blockSize = 0 := by omega
        rcases Nat.mul_eq_zero.mp h1 with h1 | h1
        · exact List.length_eq_zero_iff.mp h1
        · omega
    · rcases hor with hh | hpos
      · exact absurd hnil hh
      · have := ha.2.1 (Nat.pos_of_ne_zero hne)
        change 0 < a.numExternalComputedTokens at hpos
        omega

theorem afterRefusal_inv (h : s.Inv cfg) (r : Request) : (s.afterRefusal cfg r).Inv cfg := by
  refine { manager := ?_, locator := ?_, request := ?_, entry := ?_, nodup := h.nodup,
           idle := nofun, lookedUp := nofun }
  · rw [afterRefusal_manager]
    refine (retainedManager_inv h r).freePins _ _ ?_
    exact List.Perm.append_left _ (List.reverse_perm _).symm
  · rw [afterRefusal_manager]; exact h.locator
  · rw [afterRefusal_manager]; exact h.request
  · rw [afterRefusal_manager]; exact h.entry

/-- What a successful admission does to the manager. -/
theorem admission_allocated (h : s.Inv cfg) {id : String} {r : Request}
    (hr : s.requests id = some r) {a : Admission} {hits : List Nat} {n : Nat}
    (hc : s.computedBefore r = some (hits, n)) (hw : isWaiting r = true) (ha : admissible r a n)
    {new : List Nat} {m : KVCacheManager}
    (hm : admissionResult cfg s r a hits n = .ok (some new, m)) :
    KVCacheManager.Allocated cfg.toManagerConfig s.requests
      (s.retainedBlocks ++ s.pinned cfg r)
      (s.retainedManager cfg r) r (admissionArgs cfg a hits n) m := by
  rw [admissionResult_eq] at hm
  have hr' : s.requests r.requestId = some r := by rw [(h.request id r hr).id_eq]; exact hr
  exact KVCacheManager.allocateSlots_some (retainedManager_inv h r) hr'
    (admissionReady h hr hc hw ha) hm

theorem admitWaiting_inv (h : s.Inv cfg) {id : String} {a : Admission}
    (hs : s.admitWaiting cfg id a = some s') : s'.Inv cfg := by
  obtain ⟨r, hits, n, hr, hc, hw, ha, ⟨m, -, rfl⟩ | ⟨new, m, hm, rfl⟩⟩ := admitWaiting_some hs
  · exact afterRefusal_inv h r
  · have hok := h.request id r hr
    have hall := admission_allocated h hr hc hw ha hm
    have hid := hok.id_eq
    subst hid
    rw [retain_eq]
    have hslots : r.numComputedTokens + n + a.numExternalComputedTokens + a.numNewTokens
        ≤ r.numTokens := by
      have h1 := ha.1
      have h2 := ha.2.2
      split at h2
      · omega
      · omega
    have hlen : r.numComputedTokens + n + a.numExternalComputedTokens + a.numNewTokens
        ≤ (m.reqToBlocks r.requestId).length * cfg.blockSize := by
      have h0 := le_numSlots (c := cfg.toManagerConfig) (a := admissionArgs cfg a hits n)
        hok.numTokens_le hslots
      have h1 := KVCacheManager.le_cdiv_mul (a := KVCacheManager.numSlots cfg.toManagerConfig r
        (admissionArgs cfg a hits n)) cfg.blockSize_pos
      have h2 := Nat.mul_le_mul_right cfg.blockSize (Nat.le_trans (Nat.le_max_left _ _)
        (Nat.le_of_eq hall.length_table.symm))
      exact Nat.le_trans h0 (Nat.le_trans h1 h2)
    have hnot := not_scheduled_of_status h hr (isWaiting_ne_running hw)
    refine Inv.markPending (h.of_local (t := s.enterStep r a n _ m) r.requestId
      (hall.inv.set_request (admittedRequest r a n) hr (fun i _ => ?_) (Nat.le_refl _)) ?_
      (fun id' hne => setRequest_of_ne _ (admittedRequest r a n) hne)
      hall.grown.table_of_ne hall.grown.cached_of_ne ?_ ?_ ?_ nofun nofun) _ _
    · exact Request.blockHashAt_congr rfl rfl rfl
    · change m.locator.WF _
      rw [hall.grown.locator_eq]
      exact h.locator
    · intro q hq
      have hq' := (setRequest_self _ (admittedRequest r a n)).symm.trans hq
      cases hq'
      refine ⟨rfl, hok.prompt, hok.numTokens_pos, hok.numTokens_le, ha.1, ?_, ?_, ?_⟩
      · exact Nat.le_trans (Nat.le_add_right _ a.numNewTokens) hlen
      · intro hw'
        rw [isWaiting, admittedRequest] at hw'
        cases hl : a.loadKvAsync <;> simp [hl] at hw'
      · intro hrem
        rw [admittedRequest] at hrem
        have hasync : a.loadKvAsync = true := by
          by_contra hl
          simp [hl] at hrem
        have h2 := ha.2.2
        rw [if_pos hasync] at h2
        refine ⟨?_, hall.cached_isSome h2.1⟩
        change 0 < r.numComputedTokens + n + a.numExternalComputedTokens
        omega
    · intro e he
      have he' : e ∈ (s.afterAdmission r a hits n (s.pinned cfg r) m).scheduled := he
      rcases mem_scheduled_afterAdmission.mp he' with he | ⟨hsync, rfl⟩
      · exact Or.inl ⟨he, hnot e he⟩
      · have h2 := ha.2.2
        rw [hsync, if_neg Bool.false_ne_true] at h2
        exact Or.inr ⟨admittedRequest r a n, setRequest_self _ (admittedRequest r a n),
          by simp [admittedRequest, hsync], rfl, h2.1, h2.2, Nat.le_add_right _ _, hlen⟩
    · change ((if a.loadKvAsync = true then s.scheduled else s.scheduled ++ [_]).map
        ScheduledRequest.reqId).Nodup
      split
      · exact h.nodup
      · rw [List.map_append, List.nodup_append]
        refine ⟨h.nodup, List.nodup_singleton _, ?_⟩
        rintro x hx y hy rfl
        obtain ⟨e, he, rfl⟩ := List.mem_map.mp hx
        simp only [List.map_cons, List.map_nil, List.mem_singleton] at hy
        exact hnot e he hy

/-- What a promotion does to the manager. -/
theorem promotion_cached (h : s.Inv cfg) {id : String} {r : Request}
    (hr : s.requests id = some r) {m : KVCacheManager}
    (hm : (if cfg.enableCaching = true then
      s.manager.cacheBlocks cfg.toManagerConfig r r.numComputedTokens else .ok s.manager) = .ok m) :
    m.Inv cfg.toManagerConfig s.requests s.retainedBlocks ∧
      KVCacheManager.Grown r.requestId [] s.manager m ∧
      m.reqToBlocks = s.manager.reqToBlocks ∧
      m.numRegistered r.requestId = (if cfg.enableCaching = true then
        max (s.manager.numRegistered r.requestId) (r.numComputedTokens / cfg.blockSize)
        else s.manager.numRegistered r.requestId) ∧
      ((s.manager.numCachedBlock r.requestId).isSome = true →
        (m.numCachedBlock r.requestId).isSome = true) := by
  have hok := h.request id r hr
  have hid := hok.id_eq
  subst hid
  split at hm
  · next hc =>
      have hlen : r.numComputedTokens / cfg.blockSize
          ≤ (s.manager.reqToBlocks r.requestId).length :=
        Nat.div_le_of_le_mul (by rw [Nat.mul_comm]; exact hok.covered)
      obtain ⟨m', hm', hinv, hgrown, htab, hreg, hsome⟩ :=
        KVCacheManager.cacheBlocks_spec h.manager hr hlen hok.computed_le
      rw [hm, Except.ok.injEq] at hm'
      subst hm'
      exact ⟨hinv, hgrown, htab, by rw [if_pos hc]; exact hreg, hsome⟩
  · next hc =>
      cases hm
      exact ⟨h.manager, KVCacheManager.Grown.refl _ _, rfl, by rw [if_neg hc], id⟩

theorem promoteRemote_inv (h : s.Inv cfg) {id : String} (hs : s.promoteRemote cfg id = some s') :
    s'.Inv cfg := by
  obtain ⟨r, m, hphase, hr, hstatus, hm, rfl⟩ := promoteRemote_some hs
  have hok := h.request id r hr
  obtain ⟨hinv, hgrown, htab, -, hsome⟩ := promotion_cached h hr hm
  have hid := hok.id_eq
  subst hid
  obtain ⟨hpos, hcached⟩ := hok.remote hstatus
  refine h.of_local (t := s.afterPromotion r m) r.requestId
    (hinv.set_request (promotedRequest r) hr (fun i _ => ?_) (Nat.le_refl _)) ?_
    (fun id' hne => setRequest_of_ne _ (promotedRequest r) hne) (fun id' _ => congrFun htab id')
    hgrown.cached_of_ne ?_ ?_ h.nodup ?_ ?_
  · exact Request.blockHashAt_congr rfl rfl rfl
  · change m.locator.WF _
    rw [hgrown.locator_eq]
    exact h.locator
  · intro q hq
    have hq' := (setRequest_self _ (promotedRequest r)).symm.trans hq
    cases hq'
    have hcase : (promotedRequest r).numComputedTokens = r.numComputedTokens ∨
        ((promotedRequest r).numComputedTokens = r.numTokens - 1 ∧
          r.numComputedTokens = r.numTokens) := by
      by_cases he : r.numComputedTokens = r.numTokens
      · exact Or.inr ⟨if_pos he, he⟩
      · exact Or.inl (if_neg he)
    have hcov : r.numComputedTokens ≤ ((s.afterPromotion r m).manager.reqToBlocks
        r.requestId).length * cfg.blockSize := by
      change _ ≤ (m.reqToBlocks r.requestId).length * _
      rw [htab]
      exact hok.covered
    have hle := hok.computed_le
    refine ⟨rfl, hok.prompt, hok.numTokens_pos, hok.numTokens_le, ?_, by omega, ?_, ?_⟩
    · change (promotedRequest r).numComputedTokens ≤ r.numTokens
      omega
    · intro _ h0
      refine Or.inr ⟨hsome hcached, ?_⟩
      change r.numTokens ≤ 1
      omega
    · intro hrem
      change (if 0 < r.numPreemptions then _ else _) = _ at hrem
      split at hrem <;> cases hrem
  · intro e he
    exact Or.inl ⟨he, not_scheduled_of_status h hr (by rw [hstatus]; decide) e he⟩
  · intro hp
    change s.phase = _ at hp
    rw [hphase] at hp
    cases hp
  · intro id' hits n hp
    change s.phase = _ at hp
    rw [hphase] at hp
    cases hp

/-! ### The end of a call -/

/-- A request after the step, by whether it was scheduled. -/
theorem advance_cases (h : s.Inv cfg) {id : String} {r : Request} (hr : s.requests id = some r) :
    (∃ e ∈ s.scheduled, e.reqId = id ∧ EntryOk cfg (s.manager.reqToBlocks id) r e ∧
      advance s.scheduled r
        = { r with numComputedTokens := r.numComputedTokens + e.numScheduledTokens }) ∨
    ((∀ e ∈ s.scheduled, e.reqId ≠ id) ∧ advance s.scheduled r = r) := by
  have hid := (h.request id r hr).id_eq
  rw [advance]
  cases hf : s.scheduled.find? fun e => e.reqId == r.requestId with
  | none =>
      refine Or.inr ⟨?_, rfl⟩
      intro e he hne
      have := List.find?_eq_none.mp hf e he
      rw [hid] at this
      simp [hne] at this
  | some e =>
      have he := List.mem_of_find?_eq_some hf
      have heid : e.reqId = id := by
        rw [← hid]
        simpa using List.find?_some hf
      obtain ⟨r', hr', hok⟩ := h.entry e he
      rw [heid, hr, Option.some.injEq] at hr'
      subst hr'
      exact Or.inl ⟨e, he, heid, heid ▸ hok, rfl⟩

theorem advance_same (scheduled : List ScheduledRequest) (r : Request) :
    advance scheduled r
      = { r with numComputedTokens := (advance scheduled r).numComputedTokens } := by
  rw [advance]
  split <;> rfl

/-- The scheduled tokens are counted as computed, with the retained blocks freed or still pinned. -/
theorem Inv.advanced (h : s.Inv cfg) {pool : BlockPool} {pins : List Nat} {phase : Phase}
    (hm : KVCacheManager.Inv cfg.toManagerConfig s.requests pins { s.manager with pool := pool })
    (hlook : ∀ id hits n, phase ≠ .lookedUp id hits n) (hidle : phase = .idle → pins = []) :
    Inv cfg { s.finishSchedule with
      manager := { s.manager with pool := pool }
      phase := phase
      retainedBlocks := pins } := by
  refine { manager := hm.map_requests ?_, locator := h.locator, request := ?_, entry := nofun,
           nodup := List.nodup_nil, idle := fun hp => ⟨rfl, hidle hp⟩,
           lookedUp := fun id hits n hp => absurd hp (hlook id hits n) }
  · intro r
    rw [advance_same]
    exact ⟨fun i => Request.blockHashAt_congr rfl rfl rfl, rfl⟩
  · intro id q hq
    obtain ⟨r, hr, rfl⟩ := Option.map_eq_some_iff.mp hq
    have hok := h.request id r hr
    rcases advance_cases h hr with ⟨e, -, -, heok, heq⟩ | ⟨-, heq⟩
    · rw [heq]
      have hc := heok.computed_eq
      have hle := heok.scheduled_le
      have hcov := heok.covered
      have hrun := heok.running
      refine ⟨hok.id_eq, hok.prompt, hok.numTokens_pos, hok.numTokens_le, ?_, ?_, ?_, ?_⟩
      · change r.numComputedTokens + _ ≤ r.numTokens
        omega
      · change r.numComputedTokens + _ ≤ (s.manager.reqToBlocks id).length * _
        omega
      · intro hw
        exact absurd hrun (isWaiting_ne_running hw)
      · intro hrem
        exact absurd (hrun.symm.trans hrem) (by decide)
    · rw [heq]
      exact hok

theorem finishSchedule_inv (h : s.Inv cfg) : s.finishSchedule.Inv cfg :=
  h.advanced (h.manager.freePins s.retainedBlocks [] (by rw [List.nil_append])) nofun fun _ => rfl

end SchedulerState

/-! ### Every reachable state -/

theorem schedulerStep_inv {cfg : EngineConfig} {s s' : SchedulerState} (h : s.Inv cfg) {a : Action}
    (hs : schedulerStep cfg s a = some s') : s'.Inv cfg := by
  cases a with
  | addRequest r => exact SchedulerState.addRequest_inv h hs
  | appendOutput id t => exact SchedulerState.appendOutput_inv h hs
  | finish id => exact SchedulerState.finish_inv h hs
  | resetPrefixCache => exact SchedulerState.resetPrefixCache_inv h hs
  | beginSchedule => exact SchedulerState.beginSchedule_inv h hs
  | scheduleRunning id n => exact SchedulerState.scheduleRunning_inv h hs
  | preempt id => exact SchedulerState.preempt_inv h hs
  | beginWaiting => exact SchedulerState.beginWaiting_inv h hs
  | lookup id => exact SchedulerState.lookup_inv h hs
  | skip => exact SchedulerState.skip_inv h hs
  | admitWaiting id a => exact SchedulerState.admitWaiting_inv h hs
  | promoteRemote id => exact SchedulerState.promoteRemote_inv h hs
  | execute flags =>
      rw [schedulerStep, Option.ite_none_right_eq_some] at hs
      rw [← Option.some.inj hs.2]
      exact SchedulerState.finishSchedule_inv h

/-- A step of the engine is a step of its scheduler. -/
theorem schedulerStep_of_step {K : Type} {cfg : EngineConfig} {compute : List K → Nat → K}
    {s s' : State K} {a : Action} (hs : step cfg compute s a = some s') :
    schedulerStep cfg s.scheduler a = some s'.scheduler := by
  rw [step] at hs
  split at hs
  · cases hs
  · next sched hsched =>
      rw [hsched]
      split at hs
      · split at hs
        · cases hs
        · cases hs
          rfl
      · cases hs
        rfl

/-- **The scheduler's invariant holds in every reachable state of the engine.** -/
theorem inv_of_reachable {K : Type} {cfg : EngineConfig} {compute : List K → Nat → K}
    {kv : KVMemory K} {ok : State K → Action → Prop} {s : State K}
    (h : ReachableWhen (step cfg compute) ok (State.init cfg kv) s) : s.scheduler.Inv cfg :=
  h.invariant (fun s => s.scheduler.Inv cfg) (SchedulerState.init_inv cfg)
    (fun _ _ _ hinv _ hs => schedulerStep_inv hinv (schedulerStep_of_step hs)) s

end CacheSelect.Engine

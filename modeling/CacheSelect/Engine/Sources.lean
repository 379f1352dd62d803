import CacheSelect.Engine.Plans

/-! # Where indexed sequences come from

Only the end of a request changes the index (`locator_step`), so that every indexed sequence of a
reachable state was stored by a request: in an earlier state it was live, with the prompt that the
entry names and with the entry's blocks in its table (`storedBy_of_reachable`).
-/

namespace CacheSelect.Engine

open CacheSelect.Core CacheSelect.Worker Transition

section

variable {cfg : EngineConfig} {s s' : SchedulerState}

/-- **What a step does to the index**: nothing, or it is cleared, or a finished request is indexed. -/
theorem locator_step (h : s.Inv cfg) {a : Action} (hs : schedulerStep cfg s a = some s') :
    s'.manager.locator = s.manager.locator ∨ s'.manager.locator.sources = [] ∨
    ∃ id r p, a = .finish id ∧ s.requests id = some r ∧ r.promptTokenIds = some p ∧
      s'.manager.locator = s.manager.locator.index cfg.toLocatorConfig s.manager.pool r
        (s.manager.reqToBlocks id) := by
  cases a with
  | addRequest r =>
      obtain ⟨-, -, -, -, -, -, -, -, -, -, rfl⟩ := SchedulerState.addRequest_some hs
      exact Or.inl rfl
  | appendOutput i t =>
      obtain ⟨r, -, -, -, -, -, rfl⟩ := SchedulerState.appendOutput_some hs
      exact Or.inl rfl
  | finish i =>
      obtain ⟨r, hr, -, -, rfl⟩ := SchedulerState.finish_some hs
      have hok := h.request i r hr
      obtain ⟨p, hp⟩ := Option.isSome_iff_exists.mp hok.prompt
      have hloc : (KVCacheManager.free cfg.toManagerConfig s.manager r true).locator = _ :=
        KVCacheManager.free_locator s.manager r true
      rw [KVCacheManager.indexPartialReuseSource] at hloc
      split at hloc
      · refine Or.inr (Or.inr ⟨i, r, p, rfl, hr, hp, ?_⟩)
        rw [hok.id_eq] at hloc
        exact hloc
      · exact Or.inl hloc
  | resetPrefixCache =>
      obtain ⟨-, m, hm, rfl⟩ := SchedulerState.resetPrefixCache_some hs
      rw [KVCacheManager.resetPrefixCache, Option.map_eq_some_iff] at hm
      obtain ⟨pool, -, rfl⟩ := hm
      by_cases hsup : cfg.supportsAlignedReuse = true
      · refine Or.inr (Or.inl ?_)
        change (if _ then _ else _ : AlignedBlockReuseLocator).sources = []
        rw [if_pos hsup]
        rfl
      · exact Or.inl (if_neg hsup)
  | beginSchedule =>
      obtain ⟨-, rfl⟩ := SchedulerState.beginSchedule_some hs
      exact Or.inl rfl
  | scheduleRunning i n =>
      obtain ⟨p, r, new, m, -, hr, -, -, -, -, hm, rfl⟩ := SchedulerState.scheduleRunning_some hs
      have hid := (h.request i r hr).id_eq
      subst hid
      exact Or.inl (KVCacheManager.allocateSlots_some h.manager hr
        (SchedulerState.runningReady h hr n) hm).grown.locator_eq
  | preempt i =>
      obtain ⟨p, r, -, -, -, rfl⟩ := SchedulerState.preempt_some hs
      refine Or.inl ?_
      have hloc : (KVCacheManager.free cfg.toManagerConfig s.manager r false).locator = _ :=
        KVCacheManager.free_locator s.manager r false
      rw [KVCacheManager.indexPartialReuseSource, if_neg (by simp)] at hloc
      exact hloc
  | beginWaiting =>
      obtain ⟨-, rfl⟩ := SchedulerState.beginWaiting_some hs
      exact Or.inl rfl
  | lookup i =>
      obtain ⟨r, r', hit, -, -, -, -, -, rfl⟩ := SchedulerState.lookup_some hs
      exact Or.inl rfl
  | skip =>
      obtain ⟨-, rfl⟩ := SchedulerState.skip_some hs
      exact Or.inl rfl
  | admitWaiting i a =>
      obtain ⟨r, hits, n, hr, hc, hw, ha, ⟨m, -, rfl⟩ | ⟨new, m, hm, rfl⟩⟩ :=
        SchedulerState.admitWaiting_some hs
      · refine Or.inl ?_
        rw [SchedulerState.afterRefusal_manager]
      · exact Or.inl (SchedulerState.admission_allocated h hr hc hw ha hm).grown.locator_eq
  | promoteRemote i =>
      obtain ⟨r, m, -, hr, -, hm, rfl⟩ := SchedulerState.promoteRemote_some hs
      exact Or.inl (SchedulerState.promotion_cached h hr hm).2.1.locator_eq
  | execute flags =>
      rw [schedulerStep, Option.ite_none_right_eq_some] at hs
      rw [← Option.some.inj hs.2]
      exact Or.inl rfl

end

/-- An indexed sequence that a live request of a reachable state stored: the entry has the request's
prompt, and its blocks are those of the request's table. -/
def StoredBy {K : Type} (cfg : EngineConfig) (compute : List K → Nat → K) (kv : KVMemory K)
    (source : SourceRequestIndex) : Prop :=
  ∃ s r, Reachable (step cfg compute) (State.init cfg kv) s ∧
    s.scheduler.requests r.requestId = some r ∧ r.sourceIndexId = source.requestId ∧
    r.promptTokenIds = some source.promptTokenIds ∧
    ∀ b ∈ source.blocks,
      (s.scheduler.manager.reqToBlocks r.requestId)[b.blockIndex]? = some b.blockId

/-- **Every indexed sequence was stored by a request.** -/
theorem storedBy_of_reachable {K : Type} {cfg : EngineConfig} {compute : List K → Nat → K}
    {kv : KVMemory K} {s : State K} (hs : Reachable (step cfg compute) (State.init cfg kv) s) :
    ∀ source ∈ s.scheduler.manager.locator.sources, StoredBy cfg compute kv source := by
  refine (hs.invariant (fun s => Reachable (step cfg compute) (State.init cfg kv) s ∧
    ∀ source ∈ s.scheduler.manager.locator.sources, StoredBy cfg compute kv source)
    ⟨.refl _ _ _, fun _ h => by cases h⟩ ?_ s).2
  rintro s a s' ⟨hreach, hall⟩ - hst
  refine ⟨hreach.tail trivial hst, ?_⟩
  have hinv := inv_of_reachable hreach
  intro source hsource
  rcases locator_step hinv (schedulerStep_of_step hst) with
    heq | hnil | ⟨id, r, p, -, hr, hp, heq⟩
  · rw [heq] at hsource
    exact hall source hsource
  · rw [hnil] at hsource
    cases hsource
  · rw [heq] at hsource
    rcases AlignedBlockReuseLocator.index_sources hp hsource with rfl | ⟨hin, -⟩
    · have hid := (hinv.request id r hr).id_eq
      subst hid
      exact ⟨s, r, hreach, hr, rfl, hp, fun b hb =>
        (AlignedBlockReuseLocator.mem_indexedBlocks hb).2.1⟩
    · exact hall source hin

theorem nodupIds_step {cfg : EngineConfig} {s s' : SchedulerState} (h : s.Inv cfg)
    (hn : s.manager.locator.NodupIds) {a : Action} (hs : schedulerStep cfg s a = some s') :
    s'.manager.locator.NodupIds := by
  rcases locator_step h hs with heq | hnil | ⟨id, r, p, -, -, -, heq⟩
  · rw [heq]
    exact hn
  · rw [AlignedBlockReuseLocator.NodupIds, hnil]
    exact List.nodup_nil
  · rw [heq]
    exact AlignedBlockReuseLocator.nodupIds_index hn r _

end CacheSelect.Engine

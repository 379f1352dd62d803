import CacheSelect.Engine.SchedulerInvariant
import CacheSelect.Worker.ReuseWork

/-! # The plans of live and scheduled requests

`request_step` and `entry_step` say where a live request and a scheduled request of a state come from,
for all steps at once.  From them follow the facts about plans in every reachable state (`Plans`): a
plan's candidates are full blocks of the prompt in order, lookups that are switched off leave no plan,
and a scheduled request carries its own plan reduced to sources that are pinned to the end of the
call.  `reuseOf_added` and `copy_of_entry` say what the worker makes of it.
-/

namespace CacheSelect.Engine

open CacheSelect.Core CacheSelect.Worker Transition

/-! ### Where requests and entries come from -/

/-- Two versions of a request with the same prompt, plan and cache options. -/
structure SamePlan (r r' : Request) : Prop where
  prompt : r'.promptTokenIds = r.promptTokenIds
  plan : r'.partialReusePlan = r.partialReusePlan
  skip : r'.skipReadingPrefixCache = r.skipReadingPrefixCache
  sourceId : r'.sourceIndexId = r.sourceIndexId

theorem SamePlan.refl (r : Request) : SamePlan r r := ⟨rfl, rfl, rfl, rfl⟩

namespace SchedulerState

variable {cfg : EngineConfig} {s s' : SchedulerState}

/-- A request after a state change that sets one request. -/
theorem request_of_set {requests : String → Option Request} {r q : Request} {id : String}
    (h : Function.update requests r.requestId (some r) id = some q) :
    (id = r.requestId ∧ q = r) ∨ (id ≠ r.requestId ∧ requests id = some q) := by
  by_cases hid : id = r.requestId
  · subst hid
    rw [Function.update_self, Option.some.injEq] at h
    exact Or.inl ⟨rfl, h.symm⟩
  · rw [Function.update_of_ne hid] at h
    exact Or.inr ⟨hid, h⟩

/-- A request whose tokens are loaded, or that waits for its admission after the load: it is not
looked up again. -/
def awaitsLoad (r : Request) : Bool :=
  r.status == .waitingForRemoteKvs || (isWaiting r && r.numComputedTokens != 0)

theorem not_awaitsLoad_of_running {r : Request} (h : r.status = .running) :
    ¬ awaitsLoad r = true := by
  rw [awaitsLoad, isWaiting, h]
  simp

theorem not_awaitsLoad_of_zero {r : Request} (h : r.status ≠ .waitingForRemoteKvs)
    (h0 : r.numComputedTokens = 0) : ¬ awaitsLoad r = true := by
  rw [awaitsLoad, beq_eq_false_iff_ne.mpr h, h0]
  simp

/-- Whether a request is not looked up between a state and its admission. -/
def KeepsPlan (s : SchedulerState) (id : String) (r : Request) : Prop :=
  awaitsLoad r = true ∨ ∃ hits n, s.phase = .lookedUp id hits n

/-- **Where a live request comes from**: it was live with the same plan, or it has just been added,
or it has just been looked up. -/
theorem request_step (h : s.Inv cfg) {a : Action} (hs : schedulerStep cfg s a = some s')
    {id : String} {q : Request} (hq : s'.requests id = some q) :
    (∃ r, s.requests id = some r ∧ SamePlan r q ∧ (awaitsLoad q = true → s.KeepsPlan id r)) ∨
    (a = .addRequest q ∧ s.requests id = none ∧ q.partialReusePlan = none) ∨
    ∃ r hit, a = .lookup id ∧ s.requests id = some r ∧ isWaiting r = true ∧
      r.numComputedTokens = 0 ∧ s.manager.getComputedBlocks cfg.toManagerConfig r = .ok (hit, q) ∧
      s'.phase = .lookedUp id hit.1 hit.2 := by
  have hkeep : s.requests id = some q →
      ∃ r, s.requests id = some r ∧ SamePlan r q ∧ (awaitsLoad q = true → s.KeepsPlan id r) :=
    fun hold => ⟨q, hold, .refl q, Or.inl⟩
  have hset : ∀ (i : String) (r₀ r : Request), s.requests i = some r₀ → r.requestId = r₀.requestId →
      SamePlan r₀ r → (awaitsLoad r = true → s.KeepsPlan i r₀) →
      Function.update s.requests r.requestId (some r) id = some q →
      ∃ r, s.requests id = some r ∧ SamePlan r q ∧ (awaitsLoad q = true → s.KeepsPlan id r) := by
    intro i r₀ r hr hid hsame haw hu
    have hi : r.requestId = i := hid.trans (h.request i r₀ hr).id_eq
    rcases request_of_set hu with ⟨rfl, rfl⟩ | ⟨-, hold⟩
    · exact ⟨r₀, by rw [hi]; exact hr, hsame, by rw [hi]; exact haw⟩
    · exact hkeep hold
  cases a with
  | addRequest r =>
      obtain ⟨-, hnone, -, -, -, -, -, hplan, -, -, rfl⟩ := addRequest_some hs
      rcases request_of_set hq with ⟨rfl, rfl⟩ | ⟨-, hold⟩
      · exact Or.inr (Or.inl ⟨rfl, hnone, hplan⟩)
      · exact Or.inl (hkeep hold)
  | appendOutput i t =>
      obtain ⟨r, hr, -, hrun, -, -, rfl⟩ := appendOutput_some hs
      exact Or.inl (hset i r { r with outputTokenIds := r.outputTokenIds ++ [t] } hr rfl
        ⟨rfl, rfl, rfl, rfl⟩ (fun haw => absurd haw (not_awaitsLoad_of_running hrun)) hq)
  | finish i =>
      obtain ⟨r, hr, -, -, rfl⟩ := finish_some hs
      have hq' : Function.update s.requests i none id = some q := hq
      by_cases hid : id = i
      · subst hid
        rw [Function.update_self] at hq'
        cases hq'
      · rw [Function.update_of_ne hid] at hq'
        exact Or.inl (hkeep hq')
  | resetPrefixCache =>
      obtain ⟨-, m, -, rfl⟩ := resetPrefixCache_some hs
      exact Or.inl (hkeep hq)
  | beginSchedule =>
      obtain ⟨-, rfl⟩ := beginSchedule_some hs
      exact Or.inl (hkeep hq)
  | scheduleRunning i n =>
      obtain ⟨p, r, new, m, -, -, -, -, -, -, -, rfl⟩ := scheduleRunning_some hs
      exact Or.inl (hkeep hq)
  | preempt i =>
      obtain ⟨p, r, -, hr, -, rfl⟩ := preempt_some hs
      let r' : Request := { r with
        status := .preempted
        numComputedTokens := 0
        numPreemptions := r.numPreemptions + 1 }
      exact Or.inl (hset i r r' hr rfl ⟨rfl, rfl, rfl, rfl⟩
        (fun haw => absurd haw (not_awaitsLoad_of_zero nofun rfl)) hq)
  | beginWaiting =>
      obtain ⟨-, rfl⟩ := beginWaiting_some hs
      exact Or.inl (hkeep hq)
  | lookup i =>
      obtain ⟨r, r', hit, -, hr, hw, h0, hg, rfl⟩ := lookup_some hs
      obtain ⟨-, -, -, hlook, -⟩ :=
        KVCacheManager.getComputedBlocks_ok h.manager.pool_wf.toCacheWF h.locator hg
      have hid' : r'.requestId = r.requestId := by rw [hlook]
      rcases request_of_set hq with ⟨rfl, rfl⟩ | ⟨-, hold⟩
      · have hi : q.requestId = i := hid'.trans (h.request i r hr).id_eq
        exact Or.inr (Or.inr ⟨r, hit, by rw [hi], by rw [hi]; exact hr, hw, h0, hg, by rw [hi]⟩)
      · exact Or.inl (hkeep hold)
  | skip =>
      obtain ⟨-, rfl⟩ := skip_some hs
      exact Or.inl (hkeep hq)
  | admitWaiting i a =>
      obtain ⟨r, hits, n, hr, hc, hw, -, ⟨m, -, rfl⟩ | ⟨new, m, -, rfl⟩⟩ := admitWaiting_some hs
      · exact Or.inl (hkeep hq)
      · refine Or.inl (hset i r (admittedRequest r a n) hr rfl ⟨rfl, rfl, rfl, rfl⟩ (fun _ => ?_) hq)
        -- an admitted request was looked up, or waited after its load
        obtain ⟨-, -, ⟨-, -, hp⟩ | ⟨hne, -⟩⟩ := computedBefore_spec h hr hc
        · rw [(h.request i r hr).id_eq] at hp
          exact Or.inr ⟨hits, n, hp⟩
        · left
          rw [awaitsLoad, hw, bne_iff_ne.mpr hne]
          simp
  | promoteRemote i =>
      obtain ⟨r, m, -, hr, hrem, -, rfl⟩ := promoteRemote_some hs
      refine Or.inl (hset i r (promotedRequest r) hr rfl ⟨rfl, rfl, rfl, rfl⟩ (fun _ => ?_) hq)
      left
      rw [awaitsLoad, hrem]
      rfl
  | execute flags =>
      rw [schedulerStep, Option.ite_none_right_eq_some] at hs
      obtain ⟨-, hs⟩ := hs
      rw [Option.some.injEq] at hs
      subst hs
      obtain ⟨r, hr, rfl⟩ := Option.map_eq_some_iff.mp hq
      refine Or.inl ⟨r, hr, ?_, ?_⟩
      · rw [advance_same]
        exact ⟨rfl, rfl, rfl, rfl⟩
      · rcases advance_cases h hr with ⟨e, -, -, heok, heq⟩ | ⟨-, heq⟩
        · rw [heq]
          exact fun haw => absurd haw (not_awaitsLoad_of_running heok.running)
        · rw [heq]
          exact Or.inl

/-- **Where a scheduled request comes from**: it was scheduled, or it is running and has just got its
slots, or it has just been admitted. -/
theorem entry_step (h : s.Inv cfg) {a : Action} (hs : schedulerStep cfg s a = some s')
    {e : ScheduledRequest} (he : e ∈ s'.scheduled) :
    (e ∈ s.scheduled ∧ ∀ b ∈ s.retainedBlocks, b ∈ s'.retainedBlocks) ∨
    (∃ r n, s.requests e.reqId = some r ∧ e = runningEntry r n) ∨
    ∃ r adm hits n, a = .admitWaiting e.reqId adm ∧ s.requests e.reqId = some r ∧
      s.computedBefore r = some (hits, n) ∧ adm.loadKvAsync = false ∧
      e = admittedEntry r adm n (s.pinned cfg r) ∧
      s'.retainedBlocks = s.retainedBlocks ++ s.pinned cfg r := by
  cases a with
  | addRequest r =>
      obtain ⟨-, -, -, -, -, -, -, -, -, -, rfl⟩ := addRequest_some hs
      exact Or.inl ⟨he, fun _ hb => hb⟩
  | appendOutput i t =>
      obtain ⟨r, -, -, -, -, -, rfl⟩ := appendOutput_some hs
      exact Or.inl ⟨he, fun _ hb => hb⟩
  | finish i =>
      obtain ⟨r, -, -, -, rfl⟩ := finish_some hs
      exact Or.inl ⟨he, fun _ hb => hb⟩
  | resetPrefixCache =>
      obtain ⟨-, m, -, rfl⟩ := resetPrefixCache_some hs
      exact Or.inl ⟨he, fun _ hb => hb⟩
  | beginSchedule =>
      obtain ⟨-, rfl⟩ := beginSchedule_some hs
      exact Or.inl ⟨he, fun _ hb => hb⟩
  | scheduleRunning i n =>
      obtain ⟨p, r, new, m, -, hr, -, -, -, -, -, rfl⟩ := scheduleRunning_some hs
      rcases List.mem_append.mp he with he | he
      · exact Or.inl ⟨he, fun _ hb => hb⟩
      · rw [List.mem_singleton] at he
        subst he
        refine Or.inr (Or.inl ⟨r, n, ?_, rfl⟩)
        change s.requests r.requestId = some r
        rw [(h.request i r hr).id_eq]
        exact hr
  | preempt i =>
      obtain ⟨p, r, -, hr, -, rfl⟩ := preempt_some hs
      exact Or.inl ⟨(List.mem_filter.mp he).1, fun _ hb => hb⟩
  | beginWaiting =>
      obtain ⟨-, rfl⟩ := beginWaiting_some hs
      exact Or.inl ⟨he, fun _ hb => hb⟩
  | lookup i =>
      obtain ⟨r, r', hit, -, -, -, -, -, rfl⟩ := lookup_some hs
      exact Or.inl ⟨he, fun _ hb => hb⟩
  | skip =>
      obtain ⟨-, rfl⟩ := skip_some hs
      exact Or.inl ⟨he, fun _ hb => hb⟩
  | admitWaiting i a =>
      obtain ⟨r, hits, n, hr, hc, -, -, ⟨m, -, rfl⟩ | ⟨new, m, -, rfl⟩⟩ := admitWaiting_some hs
      · exact Or.inl ⟨he, fun _ hb => hb⟩
      · have hid := (h.request i r hr).id_eq
        subst hid
        rw [retain_eq] at he ⊢
        rcases mem_scheduled_afterAdmission.mp he with he | ⟨hsync, rfl⟩
        · exact Or.inl ⟨he, fun b hb => List.mem_append_left _ hb⟩
        · exact Or.inr (Or.inr ⟨r, a, hits, n, rfl, hr, hc, hsync, rfl, rfl⟩)
  | promoteRemote i =>
      obtain ⟨r, m, -, hr, -, -, rfl⟩ := promoteRemote_some hs
      exact Or.inl ⟨he, fun _ hb => hb⟩
  | execute flags =>
      rw [schedulerStep, Option.ite_none_right_eq_some] at hs
      rw [← Option.some.inj hs.2] at he
      cases he

end SchedulerState

/-- Only a lookup leaves a lookup to decide on. -/
theorem lookup_of_phase {cfg : EngineConfig} {s s' : SchedulerState} {a : Action} (hs : schedulerStep cfg s a = some s') {id : String}
    {hits : List Nat} {n : Nat} (hp : s'.phase = .lookedUp id hits n) : a = .lookup id := by
  cases a with
  | addRequest r =>
      obtain ⟨hphase, -, -, -, -, -, -, -, -, -, rfl⟩ := SchedulerState.addRequest_some hs
      exact absurd (hphase.symm.trans hp) nofun
  | appendOutput i t =>
      obtain ⟨r, -, hphase, -, -, -, rfl⟩ := SchedulerState.appendOutput_some hs
      exact absurd (hphase.symm.trans hp) nofun
  | finish i =>
      obtain ⟨r, -, hphase, -, rfl⟩ := SchedulerState.finish_some hs
      exact absurd (hphase.symm.trans hp) nofun
  | resetPrefixCache =>
      obtain ⟨hphase, m, -, rfl⟩ := SchedulerState.resetPrefixCache_some hs
      exact absurd (hphase.symm.trans hp) nofun
  | beginSchedule =>
      obtain ⟨-, rfl⟩ := SchedulerState.beginSchedule_some hs
      cases hp
  | scheduleRunning i n =>
      obtain ⟨p, r, new, m, hphase, -, -, -, -, -, -, rfl⟩ := SchedulerState.scheduleRunning_some hs
      exact absurd (hphase.symm.trans hp) nofun
  | preempt i =>
      obtain ⟨p, r, -, -, -, rfl⟩ := SchedulerState.preempt_some hs
      cases hp
  | beginWaiting =>
      obtain ⟨-, rfl⟩ := SchedulerState.beginWaiting_some hs
      cases hp
  | lookup i =>
      obtain ⟨r, r', hit, -, hr, -, -, hg, rfl⟩ := SchedulerState.lookup_some hs
      cases hp
      rfl
  | skip =>
      obtain ⟨-, rfl⟩ := SchedulerState.skip_some hs
      cases hp
  | admitWaiting i a =>
      obtain ⟨r, hits, n, -, -, -, -, ⟨m, -, rfl⟩ | ⟨new, m, -, rfl⟩⟩ :=
        SchedulerState.admitWaiting_some hs
      · cases hp
      · cases hp
  | promoteRemote i =>
      obtain ⟨r, m, hphase, -, -, -, rfl⟩ := SchedulerState.promoteRemote_some hs
      exact absurd (hphase.symm.trans hp) nofun
  | execute flags =>
      rw [schedulerStep, Option.ite_none_right_eq_some] at hs
      rw [← Option.some.inj hs.2] at hp
      cases hp

/-! ### The plans of every reachable state -/

/-- A plan of a request: its candidates are full blocks of the prompt, in order, each with the source
blocks of one window. -/
structure PlanOk (cfg : LocatorConfig) (r : Request) (p : PartialReusePlan) : Prop where
  blockSize_eq : p.candidates ≠ [] → p.blockSize = cfg.blockSize
  ordered : p.candidates.Pairwise fun c c' => c.targetBlockIndex < c'.targetBlockIndex
  full : ∀ c ∈ p.candidates,
    (c.targetBlockIndex + 1) * cfg.blockSize ≤ (r.promptTokenIds.getD []).length
  offset_lt : ∀ c ∈ p.candidates, c.sourceBlockOffset < cfg.blockSize
  length_ids : ∀ c ∈ p.candidates,
    c.sourceBlockIds.length = if c.sourceBlockOffset = 0 then 1 else 2
  head_ids : ∀ c ∈ p.candidates, c.sourceBlockIds.head? = some c.sourceBlockId

theorem PlanOk.of_sublist {cfg : LocatorConfig} {r : Request} {p q : PartialReusePlan}
    (h : PlanOk cfg r p) (hbs : q.blockSize = p.blockSize)
    (hsub : q.candidates.Sublist p.candidates) : PlanOk cfg r q where
  blockSize_eq := by
    intro hne
    refine hbs.trans (h.blockSize_eq fun hnil => hne ?_)
    rw [hnil] at hsub
    exact List.sublist_nil.mp hsub
  ordered := h.ordered.sublist hsub
  full := fun c hc => h.full c (hsub.subset hc)
  offset_lt := fun c hc => h.offset_lt c (hsub.subset hc)
  length_ids := fun c hc => h.length_ids c (hsub.subset hc)
  head_ids := fun c hc => h.head_ids c (hsub.subset hc)

theorem PlanOk.congr {cfg : LocatorConfig} {r r' : Request} {p : PartialReusePlan}
    (h : PlanOk cfg r p) (hp : r'.promptTokenIds = r.promptTokenIds) : PlanOk cfg r' p where
  blockSize_eq := h.blockSize_eq
  ordered := h.ordered
  full := by rw [hp]; exact h.full
  offset_lt := h.offset_lt
  length_ids := h.length_ids
  head_ids := h.head_ids

/-- A located plan is a plan of its request. -/
theorem planOk_of_located {cfg : LocatorConfig} {pool : BlockPool} {l : AlignedBlockReuseLocator}
    {r : Request} {native : Nat} {source : SourceRequestIndex} {promptTokenIds : List Nat}
    {p : PartialReusePlan}
    (h : AlignedBlockReuseLocator.LocatedPlan cfg pool l r native source promptTokenIds p) :
    PlanOk cfg r p where
  blockSize_eq := fun _ => h.blockSize_eq
  ordered := h.located.ordered
  full := by
    intro c hc
    rw [h.prompt_eq]
    exact (h.located.candidate c hc).full
  offset_lt := by
    intro c hc
    obtain ⟨start, blocks, -, -, -, hoff, -⟩ := (h.located.candidate c hc).window
    rw [hoff]
    exact Nat.mod_lt _ cfg.blockSize_pos
  length_ids := by
    intro c hc
    obtain ⟨start, blocks, hwin, -, -, hoff, hids, -⟩ := (h.located.candidate c hc).window
    rw [hoff, hids, List.length_map]
    exact AlignedBlockReuseLocator.length_windowBlocks hwin
  head_ids := fun c hc => (h.located.candidate c hc).head_ids

theorem planOk_of_empty {cfg : LocatorConfig} {r : Request} {p : PartialReusePlan}
    (h : p.candidates = []) : PlanOk cfg r p where
  blockSize_eq := fun hne => absurd h hne
  ordered := by rw [h]; exact List.Pairwise.nil
  full := by rw [h]; nofun
  offset_lt := by rw [h]; nofun
  length_ids := by rw [h]; nofun
  head_ids := by rw [h]; nofun

/-- What is left of a plan whose sources are not all pinned. -/
theorem forRetainedSourceIds_some {p q : PartialReusePlan} {ids : List Nat}
    (h : p.forRetainedSourceIds ids = some q) :
    q = { p with candidates := q.candidates } ∧ q.candidates.Sublist p.candidates ∧ q.candidates ≠ [] ∧
      ∀ c ∈ q.candidates, ∀ b ∈ c.physicalSourceBlockIds, b ∈ ids := by
  rw [PartialReusePlan.forRetainedSourceIds] at h
  split at h
  · cases h
  · next hne =>
      cases h
      refine ⟨rfl, List.filter_sublist, hne, ?_⟩
      intro c hc b hb
      have := List.all_eq_true.mp (List.mem_filter.mp hc).2 b hb
      exact List.contains_iff_mem.mp this

structure Plans (cfg : EngineConfig) (s : SchedulerState) : Prop where
  plan : ∀ id r p, s.requests id = some r → r.partialReusePlan = some p →
    PlanOk cfg.toLocatorConfig r p
  lookups : ∀ id r, s.requests id = some r →
    KVCacheManager.plansFor cfg.toManagerConfig r = false → r.partialReusePlan = none
  entry : ∀ e ∈ s.scheduled, ∀ q, e.partialReusePlan = some q → e.isNew = true ∧
    q.candidates ≠ [] ∧ (∃ r, s.requests e.reqId = some r ∧ PlanOk cfg.toLocatorConfig r q) ∧
    ∀ c ∈ q.candidates, ∀ b ∈ c.physicalSourceBlockIds, b ∈ s.retainedBlocks

theorem plans_init (cfg : EngineConfig) : Plans cfg (SchedulerState.init cfg) where
  plan := fun _ _ _ hr => by cases hr
  lookups := fun _ _ hr => by cases hr
  entry := fun _ he => by cases he

section

variable {cfg : EngineConfig} {s s' : SchedulerState}

/-- A request that stays scheduled keeps its prompt. -/
theorem prompt_of_scheduled (h : s.Inv cfg) {a : Action} (hs : schedulerStep cfg s a = some s')
    {id : String} {r q : Request} (hr : s.requests id = some r) (hq : s'.requests id = some q) :
    q.promptTokenIds = r.promptTokenIds := by
  rcases SchedulerState.request_step h hs hq with
    ⟨r₀, hr₀, hsame, -⟩ | ⟨-, hnone, -⟩ | ⟨r₀, hit, -, hr₀, -, -, hg, -⟩
  · rw [hr, Option.some.injEq] at hr₀
    rw [hsame.prompt, hr₀]
  · rw [hr] at hnone
    cases hnone
  · rw [hr, Option.some.injEq] at hr₀
    obtain ⟨-, -, -, hlook, -⟩ :=
      KVCacheManager.getComputedBlocks_ok h.manager.pool_wf.toCacheWF h.locator hg
    rw [hlook, hr₀]

/-- **Every step keeps the facts about plans.** -/
theorem plans_step (h : s.Inv cfg) (hp : Plans cfg s) {a : Action}
    (hs : schedulerStep cfg s a = some s') : Plans cfg s' where
  plan := by
    intro id q p hq hplan
    rcases SchedulerState.request_step h hs hq with
      ⟨r, hr, hsame, -⟩ | ⟨-, -, hnone⟩ | ⟨r, hit, -, hr, -, -, hg, -⟩
    · rw [hsame.plan] at hplan
      exact (hp.plan id r p hr hplan).congr hsame.prompt
    · rw [hnone] at hplan
      cases hplan
    · obtain ⟨-, -, -, hlook, ⟨-, rfl⟩ | ⟨-, hempty | ⟨p', source, ptoks, hp', hlocated⟩⟩⟩ :=
        KVCacheManager.getComputedBlocks_ok h.manager.pool_wf.toCacheWF h.locator hg
      · exact hp.plan id q p hr hplan
      · exact planOk_of_empty (hempty p hplan)
      · rw [hplan, Option.some.injEq] at hp'
        subst hp'
        exact (planOk_of_located hlocated).congr (by rw [hlook])
  lookups := by
    intro id q hq hoff
    rcases SchedulerState.request_step h hs hq with
      ⟨r, hr, hsame, -⟩ | ⟨-, -, hnone⟩ | ⟨r, hit, -, hr, -, -, hg, -⟩
    · rw [hsame.plan]
      refine hp.lookups id r hr ?_
      rw [KVCacheManager.plansFor, hsame.skip] at hoff
      exact hoff
    · exact hnone
    · obtain ⟨-, -, -, hlook, ⟨-, rfl⟩ | ⟨hon, -⟩⟩ :=
        KVCacheManager.getComputedBlocks_ok h.manager.pool_wf.toCacheWF h.locator hg
      · exact hp.lookups id q hr hoff
      · rw [KVCacheManager.plansFor, hlook] at hoff
        exact absurd hoff (by rw [Bool.not_eq_false]; exact hon)
  entry := by
    intro e he q hq
    have h' := schedulerStep_inv h hs
    obtain ⟨r', hr', -⟩ := h'.entry e he
    rcases SchedulerState.entry_step h hs he with
      ⟨hin, hkeep⟩ | ⟨r, n, -, rfl⟩ | ⟨r, adm, hits, n, -, hr, -, -, rfl, hret⟩
    · obtain ⟨hnew, hne, ⟨r, hr, hok⟩, hsrc⟩ := hp.entry e hin q hq
      exact ⟨hnew, hne, ⟨r', hr', hok.congr (prompt_of_scheduled h hs hr hr')⟩,
        fun c hc b hb => hkeep b (hsrc c hc b hb)⟩
    · cases hq
    · obtain ⟨p, hplan, hred⟩ := Option.bind_eq_some_iff.mp hq
      obtain ⟨heq, hsub, hne, hids⟩ := forRetainedSourceIds_some hred
      refine ⟨rfl, hne, ⟨r', hr', ?_⟩, fun c hc b hb => ?_⟩
      · exact ((hp.plan _ r p hr hplan).of_sublist (by rw [heq]) hsub).congr
          (prompt_of_scheduled h hs hr hr')
      · rw [hret]
        exact List.mem_append_right _ (hids c hc b hb)

end

theorem plans_of_reachable {K : Type} {cfg : EngineConfig} {compute : List K → Nat → K}
    {kv : KVMemory K} {ok : State K → Action → Prop} {s : State K}
    (h : ReachableWhen (step cfg compute) ok (State.init cfg kv) s) : Plans cfg s.scheduler :=
  (h.invariant (fun s => s.scheduler.Inv cfg ∧ Plans cfg s.scheduler)
    ⟨SchedulerState.init_inv cfg, plans_init cfg⟩
    (fun _ _ _ hinv _ hs =>
      ⟨schedulerStep_inv hinv.1 (schedulerStep_of_step hs),
        plans_step hinv.1 hinv.2 (schedulerStep_of_step hs)⟩) s).2

/-! ### What the worker makes of the scheduled plans -/

section

variable {cfg : EngineConfig} {s : SchedulerState}

theorem mem_scheduledRequests {e : ScheduledRequest} {r : Request} :
    (e, r) ∈ s.scheduledRequests ↔ e ∈ s.scheduled ∧ s.requests e.reqId = some r := by
  rw [SchedulerState.scheduledRequests, List.mem_filterMap]
  constructor
  · rintro ⟨e', he', h⟩
    obtain ⟨r', hr', heq⟩ := Option.map_eq_some_iff.mp h
    cases heq
    exact ⟨he', hr'⟩
  · rintro ⟨he, hr⟩
    exact ⟨e, he, by rw [hr]; rfl⟩

theorem mem_newRequests {d : NewRequestData} :
    d ∈ s.newRequests ↔ ∃ e r, e ∈ s.scheduled ∧ s.requests e.reqId = some r ∧ e.isNew = true ∧
      d = s.newRequestData e r := by
  rw [SchedulerState.newRequests, List.mem_map]
  constructor
  · rintro ⟨⟨e, r⟩, h, rfl⟩
    obtain ⟨hin, hnew⟩ := List.mem_filter.mp h
    obtain ⟨he, hr⟩ := mem_scheduledRequests.mp hin
    exact ⟨e, r, he, hr, hnew, rfl⟩
  · rintro ⟨e, r, he, hr, hnew, rfl⟩
    exact ⟨(e, r), List.mem_filter.mpr ⟨mem_scheduledRequests.mpr ⟨he, hr⟩, hnew⟩, rfl⟩

/-- The scheduled requests in order, with their requests. -/
theorem map_scheduledRequests (h : s.Inv cfg) :
    s.scheduledRequests.map Prod.fst = s.scheduled := by
  have hall : ∀ l : List ScheduledRequest, (∀ e ∈ l, ∃ r, s.requests e.reqId = some r) →
      (l.filterMap fun e => (s.requests e.reqId).map fun r => (e, r)).map Prod.fst = l := by
    intro l
    induction l with
    | nil => intro _; rfl
    | cons e l ih =>
        intro hl
        obtain ⟨r, hr⟩ := hl e (by simp)
        rw [List.filterMap_cons, hr]
        change e :: _ = _
        rw [ih fun x hx => hl x (List.mem_cons_of_mem _ hx)]
  exact hall s.scheduled fun e he => (h.entry e he).imp fun _ hr => hr.1

theorem nodup_newRequests (h : s.Inv cfg) : (s.newRequests.map NewRequestData.reqId).Nodup := by
  have hmap : s.newRequests.map NewRequestData.reqId
      = (s.scheduledRequests.filter fun x => x.1.isNew).map fun x => x.1.reqId := by
    rw [SchedulerState.newRequests, List.map_map]
    rfl
  rw [hmap]
  refine List.Nodup.sublist (List.filter_sublist.map _) ?_
  have := h.nodup
  rw [← map_scheduledRequests h, List.map_map] at this
  exact this

/-- A forwarded plan fits the worker's expectations. -/
theorem planFits_of_entry (hp : Plans cfg s) {e : ScheduledRequest} {r : Request}
    (he : e ∈ s.scheduled) (hr : s.requests e.reqId = some r) {q : PartialReusePlan}
    (hq : e.partialReusePlan = some q) :
    PlanFits q (s.newRequestData e r).promptTokenIds.length ∧ q.blockSize = cfg.blockSize := by
  obtain ⟨-, hne, ⟨r', hr', hok⟩, -⟩ := hp.entry e he q hq
  rw [hr, Option.some.injEq] at hr'
  subst hr'
  have hbs := hok.blockSize_eq hne
  refine ⟨⟨by rw [hbs]; exact cfg.blockSize_pos, hok.ordered, ?_⟩, hbs⟩
  intro c hc
  rw [hbs]
  exact hok.full c hc

/-- **What the worker has for a scheduled new request** once it has been added. -/
theorem added_of_entry (h : s.Inv cfg) {w added : WorkerRequests}
    (ha : addedRequests cfg s w = .ok added) {e : ScheduledRequest} {r : Request}
    (he : e ∈ s.scheduled) (hr : s.requests e.reqId = some r) (hnew : e.isNew = true) :
    ∃ q, added e.reqId = some q ∧ IsAdded cfg.toWorkerConfig (s.newRequestData e r) q :=
  (addRequests_spec (nodup_newRequests h) ha).1 _
    (mem_newRequests.mpr ⟨e, r, he, hr, hnew, rfl⟩)

/-- The reuse work of a scheduled new request: none without a plan, else the work of its plan. -/
theorem reuseOf_added (h : s.Inv cfg) (hp : Plans cfg s) {w added : WorkerRequests}
    (ha : addedRequests cfg s w = .ok added) {e : ScheduledRequest} {r : Request}
    (he : e ∈ s.scheduled) (hr : s.requests e.reqId = some r) (hnew : e.isNew = true)
    {work : ReuseWork} (hw : reuseOf added e.reqId = some work) :
    ∃ plan, e.partialReusePlan = some plan ∧
      ReuseWorkOk plan (s.manager.reqToBlocks e.reqId) work := by
  obtain ⟨q, hq, hadd⟩ := added_of_entry h ha he hr hnew
  rw [reuseOf, hq, Option.bind_some] at hw
  cases hplan : e.partialReusePlan with
  | none =>
      rw [(hadd.without hplan).1] at hw
      cases hw
  | some plan =>
      obtain ⟨work', metrics, hbuild, hreuse, -⟩ := hadd.withPlan plan hplan
      rw [hreuse, Option.some.injEq] at hw
      subst hw
      exact ⟨plan, rfl, (buildReuseWork_spec (planFits_of_entry hp he hr hplan).1 rfl hbuild).1⟩

/-- **Every copy of a step** belongs to a candidate of the plan of a new request. -/
theorem copy_of_entry (h : s.Inv cfg) (hp : Plans cfg s) {w added : WorkerRequests}
    (ha : addedRequests cfg s w = .ok added) {e : ScheduledRequest} {r : Request}
    (he : e ∈ s.scheduled) (hr : s.requests e.reqId = some r) (hnew : e.isNew = true)
    {i : PartialReuseCopyInstruction} (hi : i ∈ copyInstructionsOf added e.reqId) :
    ∃ plan, e.partialReusePlan = some plan ∧ ∃ c ∈ plan.candidates, ∃ b,
      (s.manager.reqToBlocks e.reqId)[c.targetBlockIndex]? = some b ∧
      i = copyInstruction (resolveCandidate c b) := by
  rw [copyInstructionsOf] at hi
  split at hi
  · cases hi
  · next work hw =>
      obtain ⟨plan, hplan, hok⟩ := reuseOf_added h hp ha he hr hnew hw
      exact ⟨plan, hplan, hok.mem_copies hi⟩

end

end CacheSelect.Engine

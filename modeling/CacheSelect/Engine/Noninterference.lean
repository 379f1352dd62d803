import CacheSelect.Core.NativeView
import CacheSelect.Engine.Admission
import CacheSelect.Engine.Lookup
import CacheSelect.Engine.PinBalance

/-! # Noninterference of the retained sources

`InFlightState.native` is what a state of the scheduler has in common with one where CacheSelect is
off: the native hits of a lookup, the requests, the scheduled chunks, the block tables, the free
queue, the hashes and the prefix-cache map, and the reference counts without the pins of sources.

A step that leaves every pinned source in use besides its pins (`Undisturbed`) is not noticed in the
native view: with CacheSelect off the same action is refused or leads to the same view
(`inFlightStep_native`).  `native_agreement` is the result over all runs.  Pinning a source that is in
the free queue is noticed: it takes the block away from an admission (`pins_change_admission`), and
its release puts the block at the end of the queue.
-/

namespace CacheSelect.Engine

open CacheSelect.Core Transition

/-- The configuration with CacheSelect off. -/
def EngineConfig.native (cfg : EngineConfig) : EngineConfig :=
  { cfg with supportsAlignedReuse := false }

/-- The entry of a request without its plan. -/
def ScheduledRequest.native (e : ScheduledRequest) : ScheduledRequest :=
  { e with partialReusePlan := none }

/-- A request is added without the source that it names. -/
def Action.native : Action → Action
  | .addRequest r => .addRequest { r with
      cacheselectSourceRequestId := none
      cacheselectSourceSelection := .explicit }
  | a => a

namespace SchedulerState

/-- **The native view**, with some pins of earlier calls. -/
def native (held : List Nat) (s : SchedulerState) : SchedulerState where
  manager := s.manager.native (held ++ s.retainedBlocks)
  requests := fun id => (s.requests id).map Request.native
  phase := s.phase
  scheduled := s.scheduled.map ScheduledRequest.native
  retainedBlocks := []
  forgottenReqIds := s.forgottenReqIds
  forwarded := s.forwarded

variable {cfg : EngineConfig} {s s' : SchedulerState} {held : List Nat}

theorem native_requests (held : List Nat) (s : SchedulerState) (id : String) :
    (s.native held).requests id = (s.requests id).map Request.native := rfl

theorem setRequest_native (held : List Nat) (s : SchedulerState) (r : Request) :
    (s.setRequest r).native held = (s.native held).setRequest r.native := by
  have hreq : (fun id => (Function.update s.requests r.requestId (some r) id).map Request.native)
      = Function.update (fun id => (s.requests id).map Request.native) r.requestId
        (some r.native) := by
    funext id
    rw [Function.update_apply, Function.update_apply]
    split
    · rfl
    · rfl
  rw [setRequest, setRequest, native]
  change SchedulerState.mk _ _ _ _ _ _ _ = SchedulerState.mk _ _ _ _ _ _ _
  rw [hreq]
  rfl

/-! ### Between two calls -/

theorem addRequest_native (held : List Nat) (s : SchedulerState) (r : Request) :
    schedulerStep cfg.native (s.native held) (Action.addRequest r).native
      = (s.addRequest cfg r).map (native held) := by
  change (if s.phase = .idle ∧ (s.requests r.requestId).map Request.native = none ∧
    r.promptTokenIds.isSome = true ∧ r.outputTokenIds = [] ∧ r.status = .waiting ∧
    r.numComputedTokens = 0 ∧ r.numPreemptions = 0 ∧ r.partialReusePlan = none ∧
    0 < r.numTokens ∧ r.numTokens ≤ cfg.maxModelLen then _ else _) = _
  simp only [addRequest, Option.map_eq_none_iff]
  split
  · next h =>
      have hplan := h.2.2.2.2.2.2.2.1
      have hr : r.native = { r with
          cacheselectSourceRequestId := none
          cacheselectSourceSelection := .explicit } := by
        rw [Request.native, hplan]
      rw [Option.map_some, setRequest_native, hr]
  · rfl

theorem appendOutput_native (held : List Nat) (s : SchedulerState) (id : String) (t : Nat) :
    (s.native held).appendOutput cfg.native id t
      = (s.appendOutput cfg id t).map (native held) := by
  rw [appendOutput, appendOutput, native_requests]
  cases s.requests id with
  | none => rfl
  | some r =>
      change (if s.phase = .idle ∧ r.status = .running ∧ r.numComputedTokens = r.numTokens ∧
        r.numTokens < cfg.maxModelLen then _ else _) = _
      dsimp only
      split
      · rw [Option.map_some, setRequest_native]
        rfl
      · rfl

theorem resetPrefixCache_native (held : List Nat) (s : SchedulerState) :
    (s.native held).resetPrefixCache cfg.native
      = (s.resetPrefixCache cfg).map (native held) := by
  rw [resetPrefixCache, resetPrefixCache]
  change (if s.phase = .idle then ((s.manager.native (held ++ s.retainedBlocks)).resetPrefixCache
    cfg.toManagerConfig.native).map _ else none) = _
  split
  · rw [KVCacheManager.resetPrefixCache_native]
    cases s.manager.resetPrefixCache cfg.toManagerConfig with
    | none => rfl
    | some m => rfl
  · rfl

theorem beginSchedule_native (held : List Nat) (s : SchedulerState) :
    (s.native held).beginSchedule = s.beginSchedule.map (native held) := by
  rw [beginSchedule, beginSchedule]
  change (if s.phase = .idle then _ else _) = _
  split
  · rfl
  · rfl

theorem beginWaiting_native (held : List Nat) (s : SchedulerState) :
    (s.native held).beginWaiting = s.beginWaiting.map (native held) := by
  rw [beginWaiting, beginWaiting]
  change (if s.phase = .schedulingRunning false then _ else _) = _
  split
  · rfl
  · rfl

theorem skip_native (held : List Nat) (s : SchedulerState) :
    (s.native held).skip = s.skip.map (native held) := by
  have hp : (s.native held).phase = s.phase := rfl
  rw [skip, skip, hp]
  cases s.phase with
  | lookedUp id hits n => rfl
  | _ => rfl

/-! ### The running requests -/

theorem isScheduled_native (held : List Nat) (s : SchedulerState) (id : String) :
    (s.native held).isScheduled id = s.isScheduled id := by
  change (s.scheduled.map ScheduledRequest.native).any _ = _
  rw [List.any_map]
  rfl

theorem afterRunning_native (held : List Nat) (s : SchedulerState) (r : Request) (n : Nat)
    (m : KVCacheManager) : (s.native held).afterRunning r.native n
      (m.native (held ++ s.retainedBlocks)) = (s.afterRunning r n m).native held := by
  have hsched : (s.scheduled ++ [runningEntry r n]).map ScheduledRequest.native
      = s.scheduled.map ScheduledRequest.native ++ [runningEntry r.native n] := by
    rw [List.map_append]
    rfl
  rw [native]
  change _ = SchedulerState.mk _ _ _ ((s.scheduled ++ [runningEntry r n]).map
    ScheduledRequest.native) _ _ _
  rw [hsched]
  rfl

theorem scheduleRunning_native (h : s.manager.pool.Shared (held ++ s.retainedBlocks)) (id : String)
    (n : Nat) : (s.native held).scheduleRunning cfg.native id n
      = (s.scheduleRunning cfg id n).map (native held) := by
  have hp : (s.native held).phase = s.phase := rfl
  rw [scheduleRunning, scheduleRunning, hp, native_requests]
  cases s.phase with
  | schedulingRunning p =>
      cases s.requests id with
      | none => rfl
      | some r =>
          change (if r.status = .running ∧ (s.native held).isScheduled id = false ∧ 0 < n ∧
            r.numComputedTokens + n ≤ r.numTokens then _ else _) = _
          rw [isScheduled_native]
          dsimp only
          split
          · have hm : (s.native held).manager.allocateSlots cfg.native.toManagerConfig r.native
                (runningArgs cfg.native n)
              = (s.manager.allocateSlots cfg.toManagerConfig r (runningArgs cfg n)).map
                fun x => (x.1, x.2.native (held ++ s.retainedBlocks)) :=
              KVCacheManager.allocateSlots_native h _
            rw [hm]
            cases s.manager.allocateSlots cfg.toManagerConfig r (runningArgs cfg n) with
            | error e => rfl
            | ok x =>
                obtain ⟨new, m⟩ := x
                cases new with
                | none => rfl
                | some new => exact congrArg some (afterRunning_native held s r n m)
          · rfl
  | _ => rfl

/-! ### The waiting requests -/

/-- A waiting request that is looked up is looked up without an exception. -/
def LookupReturns (cfg : EngineConfig) (s : SchedulerState) (id : String) : Prop :=
  ∀ r, s.phase = .schedulingWaiting → s.requests id = some r → isWaiting r = true →
    r.numComputedTokens = 0 → KVCacheManager.plansFor cfg.toManagerConfig r = true →
    NativeWithinSource cfg.toLocatorConfig s.manager.pool s.manager.locator r
      (nativeHit cfg.toManagerConfig s.manager.pool r)

theorem lookup_native {id : String} (h : LookupReturns cfg s id) :
    (s.native held).lookup cfg.native id = (s.lookup cfg id).map (native held) := by
  have hp : (s.native held).phase = s.phase := rfl
  rw [lookup, lookup, hp, native_requests]
  cases hphase : s.phase with
  | schedulingWaiting =>
      cases hr : s.requests id with
      | none => rfl
      | some r =>
          change (if isWaiting r = true ∧ r.numComputedTokens = 0 then _ else _) = _
          dsimp only
          split
          · next hc =>
            have hloc : KVCacheManager.Locates cfg.toManagerConfig s.manager r := by
              intro hplans
              obtain ⟨plan, r', hx⟩ := (locate_ok_iff _ _ _ _ _).mpr (h r hphase hr hc.1 hc.2 hplans)
              exact ⟨(plan, r'), hx⟩
            have hm : (s.native held).manager.getComputedBlocks cfg.native.toManagerConfig r.native
                = _ := KVCacheManager.getComputedBlocks_native hloc _
            rw [hm]
            cases s.manager.getComputedBlocks cfg.toManagerConfig r with
            | error e => rfl
            | ok x =>
                change some { (s.native held).setRequest x.2.native with
                  phase := .lookedUp id x.1.1 x.1.2 } = _
                rw [← setRequest_native]
                rfl
          · rfl
  | _ => rfl

theorem computedBefore_native (held : List Nat) (s : SchedulerState) (r : Request) :
    (s.native held).computedBefore r.native = s.computedBefore r := rfl

/-- With CacheSelect off nothing is retained. -/
theorem retain_native (m : KVCacheManager) (r : Request) :
    m.retainPartialReuseSources cfg.native.toManagerConfig r = ([], m) := rfl

theorem afterAdmission_native (s : SchedulerState) (r : Request) (a : Admission)
    (hits : List Nat) (n : Nat) (retained : List Nat) (m : KVCacheManager) :
    (s.native held).afterAdmission r.native a hits n []
        (m.native (held ++ s.retainedBlocks ++ retained))
      = (s.afterAdmission r a hits n retained m).native held := by
  have hpins : held ++ s.retainedBlocks ++ retained = held ++ (s.retainedBlocks ++ retained) :=
    List.append_assoc _ _ _
  have hentry : admittedEntry r.native a n [] = (admittedEntry r a n retained).native := rfl
  have hreq : admittedRequest r.native a n = (admittedRequest r a n).native := rfl
  have hsched : (if a.loadKvAsync = true then s.scheduled.map ScheduledRequest.native
      else s.scheduled.map ScheduledRequest.native ++ [admittedEntry r.native a n []])
      = (if a.loadKvAsync = true then s.scheduled
        else s.scheduled ++ [admittedEntry r a n retained]).map ScheduledRequest.native := by
    split
    · rfl
    · rw [List.map_append, hentry]
      rfl
  have hstep : (s.native held).enterStep r.native a n []
      (m.native (held ++ s.retainedBlocks ++ retained))
      = (s.enterStep r a n retained m).native held := by
    rw [enterStep, enterStep, setRequest_native, hreq]
    refine congrArg (fun x : SchedulerState => x.setRequest (admittedRequest r a n).native) ?_
    rw [hpins]
    change SchedulerState.mk _ _ _ (if a.loadKvAsync = true then
      s.scheduled.map ScheduledRequest.native else s.scheduled.map ScheduledRequest.native
        ++ [admittedEntry r.native a n []]) _ _ _ = _
    rw [hsched]
    rfl
  rw [afterAdmission, afterAdmission, hstep]
  rfl

/-- The sources that an admission pins are in use. -/
def SourcesInUse (cfg : EngineConfig) (s : SchedulerState) (id : String) (a : Admission) : Prop :=
  ∀ r hits n, s.requests id = some r → s.computedBefore r = some (hits, n) →
    isWaiting r = true → admissible r a n →
    ∀ b ∈ s.pinned cfg r, 0 < (s.manager.pool.blocks b).refCnt

theorem shared_retainedManager (h : s.manager.pool.Shared (held ++ s.retainedBlocks)) {r : Request}
    (hr : ∀ b ∈ s.pinned cfg r, 0 < (s.manager.pool.blocks b).refCnt) :
    (s.retainedManager cfg r).pool.Shared (held ++ s.retainedBlocks ++ s.pinned cfg r) := by
  refine h.pinned fun b hb => ?_
  by_cases hin : b ∈ held ++ s.retainedBlocks
  · exact h b hin
  · rw [List.count_eq_zero.mpr hin]
    exact hr b hb

theorem retainedManager_native {r : Request}
    (hr : ∀ b ∈ s.pinned cfg r, 0 < (s.manager.pool.blocks b).refCnt) :
    (s.retainedManager cfg r).native (held ++ s.retainedBlocks ++ s.pinned cfg r)
      = s.manager.native (held ++ s.retainedBlocks) := by
  rw [KVCacheManager.native, KVCacheManager.native]
  change KVCacheManager.mk ((s.manager.pool.touch (s.pinned cfg r)).unpin _) _ _ _ = _
  rw [BlockPool.unpin_touch hr]
  rfl

theorem refusal_perm (pins bs : List Nat) : (pins ++ bs).Perm (pins ++ bs.reverse) :=
  List.Perm.append_left _ (List.reverse_perm _).symm

theorem afterRefusal_native (h : s.manager.pool.Shared (held ++ s.retainedBlocks)) {r : Request}
    (hr : ∀ b ∈ s.pinned cfg r, 0 < (s.manager.pool.blocks b).refCnt) :
    (s.afterRefusal cfg r).native held = { s.native held with phase := .stopped } := by
  have hview : (s.afterRefusal cfg r).manager.native (held ++ s.retainedBlocks)
      = s.manager.native (held ++ s.retainedBlocks) := by
    rw [← retainedManager_native hr, afterRefusal_manager]
    rw [KVCacheManager.native, KVCacheManager.native]
    change KVCacheManager.mk (((s.retainedManager cfg r).pool.freeBlocks _).unpin _) _ _ _ = _
    rw [BlockPool.unpin_freeBlocks (shared_retainedManager h hr) (refusal_perm _ _)]
    rfl
  change SchedulerState.mk ((s.afterRefusal cfg r).manager.native (held ++ s.retainedBlocks))
    _ _ _ _ _ _ = _
  rw [hview]
  rfl

/-- **An admission** whose sources are in use anyway. -/
theorem admitWaiting_native (h : s.manager.pool.Shared (held ++ s.retainedBlocks)) {id : String}
    {a : Admission} (hr : SourcesInUse cfg s id a) :
    (s.native held).admitWaiting cfg.native id a
      = (s.admitWaiting cfg id a).map (native held) := by
  rw [admitWaiting, admitWaiting, native_requests]
  cases hreq : s.requests id with
  | none => rfl
  | some r =>
      rw [Option.map_some]
      dsimp only
      rw [computedBefore_native]
      cases hc : s.computedBefore r with
      | none => rfl
      | some x =>
          obtain ⟨hits, n⟩ := x
          change (if isWaiting r = true ∧ admissible r a n then _ else none) = _
          dsimp only
          split
          · next hadm =>
            have hused := hr r hits n hreq hc hadm.1 hadm.2
            rw [retain_native, retain_eq]
            dsimp only
            have hm : (s.native held).manager.allocateSlots cfg.native.toManagerConfig r.native
                (admissionArgs cfg.native a hits n)
              = ((s.retainedManager cfg r).allocateSlots cfg.toManagerConfig r
                  (admissionArgs cfg a hits n)).map
                fun x => (x.1, x.2.native (held ++ s.retainedBlocks ++ s.pinned cfg r)) :=
              (congrArg (fun m : KVCacheManager => m.allocateSlots cfg.native.toManagerConfig
                r.native (admissionArgs cfg.native a hits n)) (retainedManager_native hused)).symm.trans
                  (KVCacheManager.allocateSlots_native (shared_retainedManager h hused) _)
            rw [hm]
            cases hm : (s.retainedManager cfg r).allocateSlots cfg.toManagerConfig r
                (admissionArgs cfg a hits n) with
            | error e => rfl
            | ok x =>
                obtain ⟨new, m⟩ := x
                cases new with
                | none =>
                    have he := KVCacheManager.allocateSlots_none hm
                    subst he
                    have hafter := afterRefusal_native h hused
                    rw [afterRefusal, retain_eq] at hafter
                    have hview : { s.native held with
                        manager := (s.retainedManager cfg r).native
                          (held ++ s.retainedBlocks ++ s.pinned cfg r)
                        phase := .stopped } = { s.native held with phase := .stopped } := by
                      rw [retainedManager_native hused]
                      rfl
                    exact congrArg some (hview.trans hafter.symm)
                | some new =>
                    exact congrArg some (afterAdmission_native s r a hits n (s.pinned cfg r) m)
          · rfl

theorem promoteRemote_native (held : List Nat) (s : SchedulerState) (id : String) :
    (s.native held).promoteRemote cfg.native id = (s.promoteRemote cfg id).map (native held) := by
  have hp : (s.native held).phase = s.phase := rfl
  rw [promoteRemote, promoteRemote, hp, native_requests]
  cases s.phase with
  | schedulingWaiting =>
      cases s.requests id with
      | none => rfl
      | some r =>
          have hm : (s.native held).manager.cacheBlocks cfg.native.toManagerConfig r.native
              r.native.numComputedTokens
            = (s.manager.cacheBlocks cfg.toManagerConfig r r.numComputedTokens).map
              (KVCacheManager.native (held ++ s.retainedBlocks)) :=
            KVCacheManager.cacheBlocks_native _
          have hcaching : cfg.native.enableCaching = cfg.enableCaching := rfl
          change (if r.status = .waitingForRemoteKvs then _ else _) = _
          dsimp only
          rw [hm, hcaching]
          have hafter : ∀ m : KVCacheManager, (s.native held).afterPromotion r.native
              (m.native (held ++ s.retainedBlocks)) = (s.afterPromotion r m).native held := by
            intro m
            rw [afterPromotion, afterPromotion, setRequest_native]
            rfl
          split
          · by_cases hc : cfg.enableCaching = true
            · rw [if_pos hc, if_pos hc]
              cases s.manager.cacheBlocks cfg.toManagerConfig r r.numComputedTokens with
              | error e => rfl
              | ok m => exact congrArg some (hafter m)
            · rw [if_neg hc, if_neg hc]
              exact congrArg some (hafter s.manager)
          · rfl
  | _ => rfl

/-! ### The end of a call -/

theorem advance_native (scheduled : List ScheduledRequest) (r : Request) :
    advance (scheduled.map ScheduledRequest.native) r.native = (advance scheduled r).native := by
  rw [advance, advance, List.find?_map]
  have hfind : (scheduled.find? ((fun e => e.reqId == r.native.requestId) ∘ ScheduledRequest.native))
      = scheduled.find? fun e => e.reqId == r.requestId := rfl
  rw [hfind]
  cases scheduled.find? fun e => e.reqId == r.requestId with
  | none => rfl
  | some e => rfl

/-- The end of a call, with any pool that is left. -/
theorem finishSchedule_native (held held' : List Nat) (s : SchedulerState) (pool : BlockPool) :
    SchedulerState.native held' { s.finishSchedule with manager := { s.manager with pool := pool } }
      = { (s.native held).finishSchedule with
          manager := KVCacheManager.native held' { s.manager with pool := pool } } := by
  have hreq : (fun id => ((s.requests id).map (advance s.scheduled)).map Request.native)
      = fun id => ((s.requests id).map Request.native).map
        (advance (s.scheduled.map ScheduledRequest.native)) := by
    funext id
    rw [Option.map_map, Option.map_map]
    refine congrArg (fun f => (s.requests id).map f) (funext fun r => ?_)
    exact (advance_native s.scheduled r).symm
  have hwritten : (s.scheduled.map ScheduledRequest.native).flatMap
      (fun e => s.manager.reqToBlocks e.reqId)
      = s.scheduled.flatMap fun e => s.manager.reqToBlocks e.reqId := by
    rw [List.flatMap_map]
    rfl
  rw [native, finishSchedule, finishSchedule]
  change SchedulerState.mk (KVCacheManager.native (held' ++ []) _) (fun id =>
    ((s.requests id).map (advance s.scheduled)).map Request.native) _ _ _ _ _
    = SchedulerState.mk _ _ _ _ _ _ (fun b => if b ∈ (s.scheduled.map
      ScheduledRequest.native).flatMap (fun e => s.manager.reqToBlocks e.reqId) then true
      else s.forwarded b)
  rw [hreq, hwritten, List.append_nil]
  rfl

/-! ### Sources stay in use -/

/-- The steps that take and give up no reference of a source. -/
def isPlainStep : Action → Bool
  | .finish _ | .preempt _ | .admitWaiting _ _ | .execute _ => false
  | _ => true

theorem shared_of_plainStep {pins : List Nat} (h : s.manager.pool.Shared pins) {a : Action}
    (ha : isPlainStep a = true) (hs : schedulerStep cfg s a = some s') :
    s'.manager.pool.Shared pins ∧ s'.retainedBlocks = s.retainedBlocks := by
  cases a with
  | addRequest r =>
      obtain ⟨-, -, -, -, -, -, -, -, -, -, rfl⟩ := addRequest_some hs
      exact ⟨h, rfl⟩
  | appendOutput id t =>
      obtain ⟨r, -, -, -, -, -, rfl⟩ := appendOutput_some hs
      exact ⟨h, rfl⟩
  | resetPrefixCache =>
      obtain ⟨-, m, hm, rfl⟩ := resetPrefixCache_some hs
      rw [KVCacheManager.resetPrefixCache, Option.map_eq_some_iff] at hm
      obtain ⟨pool, hpool, rfl⟩ := hm
      refine ⟨h.mono fun b => le_of_eq ?_, rfl⟩
      rw [BlockPool.resetPrefixCache] at hpool
      split at hpool
      · cases hpool
      · cases hpool
        rfl
  | beginSchedule =>
      obtain ⟨-, rfl⟩ := beginSchedule_some hs
      exact ⟨h, rfl⟩
  | scheduleRunning id n =>
      obtain ⟨p, r, new, m, -, -, -, -, -, -, hm, rfl⟩ := scheduleRunning_some hs
      exact ⟨KVCacheManager.shared_allocateSlots h hm, rfl⟩
  | beginWaiting =>
      obtain ⟨-, rfl⟩ := beginWaiting_some hs
      exact ⟨h, rfl⟩
  | lookup id =>
      obtain ⟨r, r', hit, -, -, -, -, -, rfl⟩ := lookup_some hs
      exact ⟨h, rfl⟩
  | skip =>
      obtain ⟨-, rfl⟩ := skip_some hs
      exact ⟨h, rfl⟩
  | promoteRemote id =>
      obtain ⟨r, m, -, -, -, hm, rfl⟩ := promoteRemote_some hs
      refine ⟨?_, rfl⟩
      split at hm
      · exact KVCacheManager.shared_cacheBlocks h hm
      · cases hm
        exact h
  | _ => cases ha

/-- The sources of an admission join the pins, or are released again. -/
theorem shared_of_admission (h : s.manager.pool.Shared (held ++ s.retainedBlocks)) {id : String}
    {a : Admission} (hused : SourcesInUse cfg s id a) (hs : s.admitWaiting cfg id a = some s') :
    s'.manager.pool.Shared (held ++ s'.retainedBlocks) := by
  obtain ⟨r, hits, n, hr, hc, hw, hadm, ⟨m, -, rfl⟩ | ⟨new, m, hm, rfl⟩⟩ := admitWaiting_some hs
  · have hmid := shared_retainedManager h (hused r hits n hr hc hw hadm)
    rw [afterRefusal_manager]
    exact hmid.released (refusal_perm _ _)
  · have hmid := shared_retainedManager h (hused r hits n hr hc hw hadm)
    rw [admissionResult_eq] at hm
    rw [retain_eq]
    change m.pool.Shared (held ++ (s.retainedBlocks ++ s.pinned cfg r))
    rw [← List.append_assoc]
    exact KVCacheManager.shared_allocateSlots hmid hm

end SchedulerState

/-! ### Steps in flight -/

def InFlightConfig.native (cfg : InFlightConfig) : InFlightConfig :=
  { cfg with supportsAlignedReuse := false }

/-- A step in flight without its sources. -/
def StepOutput.native (st : StepOutput) : StepOutput :=
  { st with sources := [] }

def InFlightAction.native : InFlightAction → InFlightAction
  | .schedule a => .schedule a.native
  | a => a

namespace InFlightState

open SchedulerState

/-- The blocks of the references that were taken on sources and not been released. -/
def sourcePins (s : InFlightState) : List Nat :=
  retainedIn s.deferredFrees ++ s.scheduler.retainedBlocks

/-- **The native view**: the state without what CacheSelect adds to it. -/
def native (s : InFlightState) : InFlightState where
  scheduler := s.scheduler.native (retainedIn s.deferredFrees)
  schedStepSeq := s.schedStepSeq
  processedStepSeq := s.processedStepSeq
  deferredFrees := s.deferredFrees.filter fun d => !d.retained
  lastSchedSeq := s.lastSchedSeq
  submitted := s.submitted.map StepOutput.native
  executed := s.executed.map StepOutput.native

variable {cfg : InFlightConfig} {s s' : InFlightState}

/-- A step of the scheduler alone. -/
theorem lift_native {f g : Option SchedulerState}
    (h : g = f.map (SchedulerState.native (retainedIn s.deferredFrees))) :
    g.map (fun sched => { s.native with scheduler := sched })
      = (f.map fun sched => { s with scheduler := sched }).map native := by
  rw [h, Option.map_map, Option.map_map]
  rfl

/-! ### Freeing requests -/

/-- Whether the blocks of a request are returned at once. -/
def returnsAtOnce (cfg : InFlightConfig) (s : InFlightState) (r : Request) : Prop :=
  cfg.deferBlockFree = false ∨ s.lastSchedSeq r.requestId ≤ s.processedStepSeq

/-- When the blocks of a request are returned, the pinned sources among them have another user. -/
def LeavesSources (cfg : InFlightConfig) (s : InFlightState) (r : Request) : Prop :=
  s.returnsAtOnce cfg r → s.scheduler.manager.pool.SharedAfter s.sourcePins
    (s.scheduler.manager.reqToBlocks r.requestId).reverse

theorem freeRequestBlocks_native {r : Request} (h : LeavesSources cfg s r) (isFinished : Bool) :
    s.native.freeRequestBlocks cfg.native r.native isFinished
      = ((s.freeRequestBlocks cfg r isFinished).1.native s.sourcePins,
        (s.freeRequestBlocks cfg r isFinished).2.filter fun d => !d.retained) := by
  rw [freeRequestBlocks, freeRequestBlocks]
  change (if cfg.deferBlockFree = false ∨ s.lastSchedSeq r.requestId ≤ s.processedStepSeq then
    (((s.scheduler.manager.native s.sourcePins).free cfg.toManagerConfig.native r.native isFinished),
      s.deferredFrees.filter fun d => !d.retained) else _) = _
  split
  · next hnow =>
      rw [KVCacheManager.free_native (h hnow)]
  · have hpop : s.native.scheduler.manager.popBlocksForFree cfg.native.toManagerConfig r.native
        isFinished = _ :=
      KVCacheManager.popBlocksForFree_native s.scheduler.manager r s.sourcePins isFinished
    rw [hpop]
    dsimp only
    split
    · rfl
    · rw [List.filter_append]
      rfl

theorem retainedIn_freeRequestBlocks (cfg : InFlightConfig) (s : InFlightState) (r : Request)
    (isFinished : Bool) :
    retainedIn (s.freeRequestBlocks cfg r isFinished).2 = retainedIn s.deferredFrees := by
  rw [freeRequestBlocks]
  split
  · rfl
  · dsimp only
    split
    · rfl
    · rw [retainedIn_append]
      exact List.append_nil _

theorem shared_freeRequestBlocks (hs : s.scheduler.manager.pool.Shared s.sourcePins) {r : Request}
    (h : LeavesSources cfg s r) (isFinished : Bool) :
    (s.freeRequestBlocks cfg r isFinished).1.pool.Shared s.sourcePins := by
  rw [freeRequestBlocks]
  split
  · next hnow =>
      change (KVCacheManager.free _ _ _ _).pool.Shared _
      rw [KVCacheManager.free_pool]
      exact (h hnow).freeBlocks
  · change (KVCacheManager.popBlocksForFree _ _ _ _).2.pool.Shared _
    rw [KVCacheManager.popBlocksForFree_pool]
    exact hs

/-- A request that is gone is gone from the view. -/
theorem update_none_native (requests : String → Option Request) (id : String) :
    (fun id' => (Function.update requests id none id').map Request.native)
      = Function.update (fun id' => (requests id').map Request.native) id none := by
  funext id'
  rw [Function.update_apply, Function.update_apply]
  split
  · rfl
  · rfl

theorem finish_native {id : String} (h : ∀ r, s.scheduler.requests id = some r →
      s.scheduler.phase = .idle → r.status ≠ .waitingForRemoteKvs → LeavesSources cfg s r) :
    s.native.finish cfg.native id = (s.finish cfg id).map native := by
  have hreq : s.native.scheduler.requests id = (s.scheduler.requests id).map Request.native := rfl
  rw [finish, finish, hreq]
  cases hr : s.scheduler.requests id with
  | none => rfl
  | some r =>
      have hret := retainedIn_freeRequestBlocks cfg s r true
      rw [hr] at hreq
      change ((s.native.scheduler.finish cfg.native.toEngineConfig id).map fun sched =>
        let x := s.native.freeRequestBlocks cfg.native r.native true
        { s.native with scheduler := { sched with manager := x.1 }, deferredFrees := x.2 })
        = ((s.scheduler.finish cfg.toEngineConfig id).map fun sched =>
          let x := s.freeRequestBlocks cfg r true
          { s with scheduler := { sched with manager := x.1 }, deferredFrees := x.2 }).map native
      rw [SchedulerState.finish, SchedulerState.finish, hr, hreq]
      change Option.map _ (if s.scheduler.phase = Phase.idle ∧
        r.status ≠ RequestStatus.waitingForRemoteKvs then _ else _) = _
      dsimp only
      split
      · next hc =>
        rw [freeRequestBlocks_native (h r hr hc.1 hc.2) true]
        have hview : native { s with
            scheduler := { s.scheduler with
              manager := (s.freeRequestBlocks cfg r true).1
              requests := Function.update s.scheduler.requests id none
              forgottenReqIds := id :: s.scheduler.forgottenReqIds }
            deferredFrees := (s.freeRequestBlocks cfg r true).2 }
            = { s.native with
              scheduler := { s.native.scheduler with
                manager := (s.freeRequestBlocks cfg r true).1.native s.sourcePins
                requests := Function.update s.native.scheduler.requests id none
                forgottenReqIds := id :: s.scheduler.forgottenReqIds }
              deferredFrees := (s.freeRequestBlocks cfg r true).2.filter fun d => !d.retained } := by
          have hupd := update_none_native s.scheduler.requests id
          change InFlightState.mk (SchedulerState.mk (KVCacheManager.native (retainedIn
              (s.freeRequestBlocks cfg r true).2 ++ s.scheduler.retainedBlocks) _)
            (fun id' => (Function.update s.scheduler.requests id none id').map Request.native)
            _ _ _ _ _) _ _ _ _ _ _ _ _ _ = _
          rw [hupd, hret]
          rfl
        exact congrArg some hview.symm
      · rfl

theorem preempt_native {id : String} (h : ∀ r p, s.scheduler.requests id = some r →
      s.scheduler.phase = .schedulingRunning p → r.status = .running → LeavesSources cfg s r) :
    s.native.preempt cfg.native id = (s.preempt cfg id).map native := by
  have hreq : s.native.scheduler.requests id = (s.scheduler.requests id).map Request.native := rfl
  have hp : s.native.scheduler.phase = s.scheduler.phase := rfl
  rw [preempt, preempt, hreq]
  cases hr : s.scheduler.requests id with
  | none => rfl
  | some r =>
      have hret := retainedIn_freeRequestBlocks cfg s r false
      rw [hr] at hreq
      change ((s.native.scheduler.preempt cfg.native.toEngineConfig id).map fun sched =>
        let x := s.native.freeRequestBlocks cfg.native r.native false
        { s.native with scheduler := { sched with manager := x.1 }, deferredFrees := x.2 })
        = ((s.scheduler.preempt cfg.toEngineConfig id).map fun sched =>
          let x := s.freeRequestBlocks cfg r false
          { s with scheduler := { sched with manager := x.1 }, deferredFrees := x.2 }).map native
      rw [SchedulerState.preempt, SchedulerState.preempt, hr, hreq, hp]
      cases hphase : s.scheduler.phase with
      | schedulingRunning p =>
          change Option.map _ (if r.status = RequestStatus.running then _ else _) = _
          dsimp only
          split
          · next hstatus =>
            rw [freeRequestBlocks_native (h r p hr hphase hstatus) false]
            let m := (s.freeRequestBlocks cfg r false).1
            let ds := (s.freeRequestBlocks cfg r false).2
            let left := s.scheduler.scheduled.filter fun e => e.reqId != r.requestId
            let r' : Request := { r with
              status := .preempted
              numComputedTokens := 0
              numPreemptions := r.numPreemptions + 1 }
            let sched : SchedulerState := SchedulerState.setRequest { s.scheduler with
              manager := m
              phase := .schedulingRunning true
              scheduled := left
              forgottenReqIds := r.requestId :: s.scheduler.forgottenReqIds } r'
            have hleft : left.map ScheduledRequest.native
                = (s.scheduler.scheduled.map ScheduledRequest.native).filter
                  fun e => e.reqId != r.requestId := by
              rw [List.filter_map]
              rfl
            have hview : native { s with scheduler := sched, deferredFrees := ds }
                = { s.native with
                  scheduler := SchedulerState.setRequest { s.native.scheduler with
                    manager := m.native s.sourcePins
                    phase := .schedulingRunning true
                    scheduled := (s.scheduler.scheduled.map ScheduledRequest.native).filter
                      fun e => e.reqId != r.requestId
                    forgottenReqIds := r.requestId :: s.scheduler.forgottenReqIds } r'.native
                  deferredFrees := ds.filter fun d => !d.retained } := by
              rw [native, setRequest_native, SchedulerState.native]
              change InFlightState.mk (SchedulerState.setRequest (SchedulerState.mk
                (KVCacheManager.native (retainedIn ds ++ s.scheduler.retainedBlocks) m) _ _
                (left.map ScheduledRequest.native) _ _ _) _) _ _ _ _ _ _ _ _ _ = _
              rw [hleft, hret]
              rfl
            exact congrArg some hview.symm
          · rfl
      | _ => rfl

/-! ### The other steps of the scheduler -/

theorem beginSchedule_native (s : InFlightState) :
    s.native.beginSchedule cfg.native = (s.beginSchedule cfg).map native := by
  have hlen : s.native.submitted.length + s.native.executed.length
      = s.submitted.length + s.executed.length := by
    change (s.submitted.map _).length + (s.executed.map _).length = _
    rw [List.length_map, List.length_map]
  rw [beginSchedule, beginSchedule, hlen]
  change (if s.submitted.length + s.executed.length < cfg.maxConcurrentBatches then _ else _) = _
  split
  · exact lift_native (SchedulerState.beginSchedule_native _ _)
  · rfl

theorem addRequest_native (s : InFlightState) (r : Request) :
    s.native.scheduleStep cfg.native (Action.addRequest r).native
      = (s.addRequest cfg r).map native := by
  have h : schedulerStep cfg.toEngineConfig.native (s.scheduler.native (retainedIn s.deferredFrees))
      (Action.addRequest r).native = _ :=
    SchedulerState.addRequest_native (retainedIn s.deferredFrees) s.scheduler r
  change (schedulerStep cfg.toEngineConfig.native (s.scheduler.native (retainedIn s.deferredFrees))
    (Action.addRequest r).native).map (fun sched => { s.native with
      scheduler := sched
      lastSchedSeq := Function.update s.lastSchedSeq r.requestId 0 }) = _
  rw [h, addRequest, Option.map_map, Option.map_map]
  rfl

theorem admitWaiting_native (h : s.scheduler.manager.pool.Shared s.sourcePins) {id : String}
    {a : Admission} (hused : SourcesInUse cfg.toEngineConfig s.scheduler id a) :
    s.native.admitWaiting cfg.native id a = (s.admitWaiting cfg id a).map native := by
  have hsched := SchedulerState.admitWaiting_native h hused
  have hsrc : s.native.retainedSources cfg.native id = [] := by
    rw [retainedSources]
    split
    · rfl
    · rfl
  rw [admitWaiting, admitWaiting]
  change ((s.scheduler.native (retainedIn s.deferredFrees)).admitWaiting cfg.toEngineConfig.native
    id a).map _ = _
  rw [hsched, hsrc, Option.map_map, Option.map_map]
  refine congrArg (fun f => (s.scheduler.admitWaiting cfg.toEngineConfig id a).map f) ?_
  funext sched
  change (if sched.phase = .stopped then _ else _)
    = native (if sched.phase = .stopped then _ else _)
  split
  · rfl
  · rfl

/-- The pool after a call. -/
def poolAfterCall (cfg : InFlightConfig) (s : InFlightState) : BlockPool :=
  if s.freesNow cfg (s.schedStepSeq + 1) = true then
    s.scheduler.manager.pool.freeBlocks s.scheduler.retainedBlocks
  else s.scheduler.manager.pool

/-- The deferred frees after a call. -/
def freesAfterCall (cfg : InFlightConfig) (s : InFlightState) : List DeferredFree :=
  if s.freesNow cfg (s.schedStepSeq + 1) = true ∨ s.scheduler.retainedBlocks = [] then
    s.deferredFrees
  else s.deferredFrees ++ [{
    fenceSeq := s.schedStepSeq + 1
    blocks := s.scheduler.retainedBlocks.reverse
    retained := true }]

/-- The sources of a call are released, or wait behind its fence. -/
theorem sources_afterCall (h : s.scheduler.manager.pool.Shared s.sourcePins) :
    (s.poolAfterCall cfg).unpin (retainedIn (s.freesAfterCall cfg))
      = s.scheduler.manager.pool.unpin s.sourcePins ∧
    (s.poolAfterCall cfg).Shared (retainedIn (s.freesAfterCall cfg)) := by
  rw [poolAfterCall, freesAfterCall]
  by_cases hnow : s.freesNow cfg (s.schedStepSeq + 1) = true
  · rw [if_pos hnow, if_pos (Or.inl hnow)]
    exact ⟨BlockPool.unpin_freeBlocks h (List.Perm.refl _), h.released (List.Perm.refl _)⟩
  · rw [if_neg hnow]
    have hperm : s.sourcePins.Perm (retainedIn (s.freesAfterCall cfg)) := by
      rw [freesAfterCall, sourcePins]
      by_cases hnil : s.scheduler.retainedBlocks = []
      · rw [if_pos (Or.inr hnil), hnil, List.append_nil]
      · rw [if_neg (not_or.mpr ⟨hnow, hnil⟩), retainedIn_append]
        refine List.Perm.append_left _ ?_
        change s.scheduler.retainedBlocks.Perm (s.scheduler.retainedBlocks.reverse ++ [])
        rw [List.append_nil]
        exact (List.reverse_perm _).symm
    exact ⟨BlockPool.unpin_perm hperm.symm, h.perm hperm⟩

theorem filter_freesAfterCall (cfg : InFlightConfig) (s : InFlightState) :
    (s.freesAfterCall cfg).filter (fun d => !d.retained)
      = s.deferredFrees.filter fun d => !d.retained := by
  rw [freesAfterCall]
  split
  · rfl
  · rw [List.filter_append]
    exact List.append_nil _

/-- The state after a call, for the pool and the deferred frees that it leaves. -/
def afterSubmit (cfg : InFlightConfig) (s : InFlightState) (pool : BlockPool)
    (frees : List DeferredFree) (released : List Nat) : InFlightState :=
  let sched := s.scheduler
  let total := (sched.scheduled.map ScheduledRequest.numScheduledTokens).sum
  let schedStepSeq := if cfg.deferBlockFree = true ∧ 0 < total then s.schedStepSeq + 1
    else s.schedStepSeq
  { s with
    scheduler := { sched.finishSchedule with manager := { sched.manager with pool := pool } }
    schedStepSeq := schedStepSeq
    deferredFrees := frees
    lastSchedSeq := fun id =>
      if cfg.deferBlockFree = true ∧ sched.isScheduled id = true then schedStepSeq
      else s.lastSchedSeq id
    submitted := s.submitted ++
      [{ totalNumScheduledTokens := total, fenceSeq := s.schedStepSeq + 1, sources := s.sources }]
    sources := []
    released := released }

theorem submit_eq (cfg : InFlightConfig) (s : InFlightState) :
    s.submit cfg = if SchedulerState.isScheduling s.scheduler.phase = true then
      some (s.afterSubmit cfg (s.poolAfterCall cfg) (s.freesAfterCall cfg)
        (if s.freesNow cfg (s.schedStepSeq + 1) = true then s.released ++ s.scheduler.retainedBlocks
          else s.released))
    else none := rfl

theorem afterSubmit_native (cfg : InFlightConfig) (s : InFlightState) (pool : BlockPool)
    (frees : List DeferredFree) (released : List Nat) :
    native (s.afterSubmit cfg pool frees released)
      = s.native.afterSubmit cfg.native (pool.unpin (retainedIn frees))
        (frees.filter fun d => !d.retained) [] := by
  have htotal : (s.native.scheduler.scheduled.map ScheduledRequest.numScheduledTokens).sum
      = (s.scheduler.scheduled.map ScheduledRequest.numScheduledTokens).sum := by
    change ((s.scheduler.scheduled.map ScheduledRequest.native).map _).sum = _
    rw [List.map_map]
    rfl
  have hsched : ∀ id, s.native.scheduler.isScheduled id = s.scheduler.isScheduled id :=
    isScheduled_native _ _
  have hfinish := finishSchedule_native (retainedIn s.deferredFrees) (retainedIn frees)
    s.scheduler pool
  rw [afterSubmit, afterSubmit, htotal, native]
  simp only [hsched, List.map_append]
  rw [hfinish]
  rfl

/-- **The end of a call** releases the sources, or puts them behind the fence of the step. -/
theorem submit_native (h : s.scheduler.manager.pool.Shared s.sourcePins) :
    s.native.submit cfg.native = (s.submit cfg).map native := by
  have hpool : s.native.poolAfterCall cfg.native = s.scheduler.manager.pool.unpin s.sourcePins := by
    rw [poolAfterCall]
    change (if _ then (s.scheduler.manager.pool.unpin s.sourcePins).freeBlocks []
      else s.scheduler.manager.pool.unpin s.sourcePins) = _
    rw [BlockPool.freeBlocks_nil, ite_self]
  have hfrees : s.native.freesAfterCall cfg.native
      = s.deferredFrees.filter fun d => !d.retained := by
    rw [freesAfterCall]
    exact if_pos (Or.inr rfl)
  have hrel : (if s.native.freesNow cfg.native (s.native.schedStepSeq + 1) = true then
      s.native.released ++ s.native.scheduler.retainedBlocks else s.native.released) = [] :=
    ite_self _
  have hphase : s.native.scheduler.phase = s.scheduler.phase := rfl
  rw [submit_eq, submit_eq, hphase, hpool, hfrees, hrel]
  split
  · rw [Option.map_some, afterSubmit_native, (sources_afterCall h).1, filter_freesAfterCall]
  · rfl

/-! ### The worker's answers -/

theorem runWorker_native (s : InFlightState) : s.native.runWorker = s.runWorker.map native := by
  have hsub : s.native.submitted = s.submitted.map StepOutput.native := rfl
  rw [runWorker, runWorker, hsub]
  cases s.submitted with
  | nil => rfl
  | cons st rest =>
      have hexec : (s.executed ++ [st]).map StepOutput.native
          = s.executed.map StepOutput.native ++ [st.native] := List.map_append
      refine congrArg some ?_
      rw [native]
      change _ = InFlightState.mk _ _ _ _ _ _ ((s.executed ++ [st]).map StepOutput.native) _ _ _
      rw [hexec]

/-- What draining asks of the queue of deferred frees: a source behind its fence holds up the free
of no request, and the blocks of a request that are sources have another user. -/
def DrainLeavesSources (processedStepSeq : Nat) : List DeferredFree → (Nat → Int) → Prop
  | [], _ => True
  | d :: ds, refCnt =>
      if processedStepSeq < d.fenceSeq then
        d.retained = true → ∀ e ∈ ds, e.retained = false → processedStepSeq < e.fenceSeq
      else
        (d.retained = false → ∀ b ∈ retainedIn ds,
          (((retainedIn ds).count b + d.blocks.count b : Nat) : Int) < refCnt b) ∧
        DrainLeavesSources processedStepSeq ds fun b => refCnt b - (d.blocks.count b : Nat)

theorem drainDeferredFrees_of_undue {p : Nat} {ds : List DeferredFree} (pool : BlockPool)
    (h : ∀ d ∈ ds, p < d.fenceSeq) : drainDeferredFrees p ds pool = (ds, pool) := by
  cases ds with
  | nil => rfl
  | cons d ds =>
      rw [drainDeferredFrees]
      exact if_pos (h d (List.mem_cons_self ..))

theorem refCnt_freeBlocks_reverse (pool : BlockPool) (bs : List Nat) :
    (fun b => ((pool.freeBlocks bs.reverse).blocks b).refCnt)
      = fun b => (pool.blocks b).refCnt - (bs.count b : Nat) := by
  funext b
  rw [BlockPool.freeBlocks_blocks, List.count_reverse]

/-- **Draining** returns the blocks of the same requests in the view. -/
theorem drainDeferredFrees_native (p : Nat) : ∀ (ds : List DeferredFree) (pool : BlockPool),
    pool.Shared (retainedIn ds) → DrainLeavesSources p ds (fun b => (pool.blocks b).refCnt) →
    drainDeferredFrees p (ds.filter fun d => !d.retained) (pool.unpin (retainedIn ds))
      = ((drainDeferredFrees p ds pool).1.filter (fun d => !d.retained),
        (drainDeferredFrees p ds pool).2.unpin (retainedIn (drainDeferredFrees p ds pool).1)) ∧
    (drainDeferredFrees p ds pool).2.Shared (retainedIn (drainDeferredFrees p ds pool).1) := by
  intro ds
  induction ds with
  | nil =>
      intro pool h _
      exact ⟨rfl, h⟩
  | cons d ds ih =>
      intro pool h hok
      rw [DrainLeavesSources] at hok
      by_cases hlt : p < d.fenceSeq
      · rw [if_pos hlt] at hok
        have hon : drainDeferredFrees p (d :: ds) pool = (d :: ds, pool) := by
          rw [drainDeferredFrees]
          exact if_pos hlt
        rw [hon]
        refine ⟨?_, h⟩
        rw [List.filter_cons]
        cases hret : d.retained with
        | true =>
            refine drainDeferredFrees_of_undue _ fun e he => ?_
            obtain ⟨he, hf⟩ := List.mem_filter.mp he
            exact hok hret e he (by simpa using hf)
        | false =>
            change drainDeferredFrees p (d :: ds.filter fun d => !d.retained) _ = _
            rw [drainDeferredFrees]
            exact if_pos hlt
      · rw [if_neg hlt] at hok
        obtain ⟨hkeep, hok⟩ := hok
        have hon : drainDeferredFrees p (d :: ds) pool
            = drainDeferredFrees p ds (pool.freeBlocks d.blocks.reverse) := by
          rw [drainDeferredFrees]
          exact if_neg hlt
        rw [hon]
        rw [← refCnt_freeBlocks_reverse] at hok
        cases hret : d.retained with
        | true =>
            have hpins : retainedIn (d :: ds) = d.blocks ++ retainedIn ds := by
              rw [retainedIn, List.filter_cons, hret]
              rfl
            have hperm : (retainedIn (d :: ds)).Perm (retainedIn ds ++ d.blocks.reverse) := by
              rw [hpins]
              exact List.perm_append_comm.trans (refusal_perm _ _)
            have hfilter : (d :: ds).filter (fun d => !d.retained)
                = ds.filter fun d => !d.retained := by
              rw [List.filter_cons, hret]
              rfl
            rw [hfilter, ← BlockPool.unpin_freeBlocks h hperm]
            exact ih _ (h.released hperm) hok
        | false =>
            have hpins : retainedIn (d :: ds) = retainedIn ds := by
              rw [retainedIn, List.filter_cons, hret]
              rfl
            have hfilter : (d :: ds).filter (fun d => !d.retained)
                = d :: ds.filter fun d => !d.retained := by
              rw [List.filter_cons, hret]
              rfl
            have hafter : pool.SharedAfter (retainedIn ds) d.blocks.reverse := by
              intro b hb
              rw [List.count_reverse]
              exact hkeep hret b hb
            rw [hfilter, hpins, drainDeferredFrees, if_neg hlt, BlockPool.freeBlocks_unpin hafter]
            exact ih _ hafter.freeBlocks hok

/-- Among the frees of requests there is no source. -/
theorem retainedIn_take_filter (ds : List DeferredFree) (n : Nat) :
    retainedIn ((ds.filter fun d => !d.retained).take n) = [] := by
  rw [retainedIn, List.filter_eq_nil_iff.mpr, List.flatMap_nil]
  intro d hd
  have := (List.mem_filter.mp (List.mem_of_mem_take hd)).2
  simpa using this

theorem update_native (hidle : s.scheduler.phase = .idle → s.scheduler.retainedBlocks = [])
    (h : s.scheduler.manager.pool.Shared s.sourcePins)
    (hok : ∀ st rest, s.scheduler.phase = .idle → s.executed = st :: rest →
      cfg.deferBlockFree = true → 0 < st.totalNumScheduledTokens →
      DrainLeavesSources (s.processedStepSeq + 1) s.deferredFrees
        fun b => (s.scheduler.manager.pool.blocks b).refCnt) :
    s.native.update cfg.native = (s.update cfg).map native ∧
      ∀ s', s.update cfg = some s' → s'.scheduler.manager.pool.Shared s'.sourcePins := by
  have hphase : s.native.scheduler.phase = s.scheduler.phase := rfl
  have hexec : s.native.executed = s.executed.map StepOutput.native := rfl
  rw [update, update, hphase, hexec]
  cases hp : s.scheduler.phase with
  | idle =>
      cases hst : s.executed with
      | nil =>
          refine ⟨rfl, ?_⟩
          intro s' hs
          cases hs
      | cons st rest =>
          have hnil := hidle hp
          have hpins : s.sourcePins = retainedIn s.deferredFrees := by
            rw [sourcePins, hnil, List.append_nil]
          change (if cfg.deferBlockFree = true ∧ 0 < st.totalNumScheduledTokens then _ else _) = _ ∧ _
          dsimp only
          split
          · next hc =>
            rw [hpins] at h
            obtain ⟨hdrain, hshared⟩ := drainDeferredFrees_native (s.processedStepSeq + 1)
              s.deferredFrees s.scheduler.manager.pool h (hok st rest hp hst hc.1 hc.2)
            have hoff : drainDeferredFrees (s.native.processedStepSeq + 1) s.native.deferredFrees
                s.native.scheduler.manager.pool = _ := (congrArg (fun pins =>
                  drainDeferredFrees (s.processedStepSeq + 1)
                    (s.deferredFrees.filter fun d => !d.retained)
                    (s.scheduler.manager.pool.unpin pins)) hpins).trans hdrain
            rw [hoff]
            dsimp only
            rw [show s.native.deferredFrees = s.deferredFrees.filter fun d => !d.retained from rfl,
              retainedIn_take_filter]
            constructor
            · have hview : ∀ (left : List DeferredFree) (pool : BlockPool) (released : List Nat),
                  native { s with
                    scheduler := { s.scheduler with
                      manager := { s.scheduler.manager with pool := pool } }
                    processedStepSeq := s.processedStepSeq + 1
                    deferredFrees := left
                    executed := rest
                    released := released }
                  = { s.native with
                    scheduler := { s.native.scheduler with
                      manager := KVCacheManager.native (retainedIn left ++ s.scheduler.retainedBlocks)
                        { s.scheduler.manager with pool := pool } }
                    processedStepSeq := s.processedStepSeq + 1
                    deferredFrees := left.filter fun d => !d.retained
                    executed := rest.map StepOutput.native } := fun _ _ _ => rfl
              rw [Option.map_some, hview, hnil, List.append_nil, List.append_nil]
              rfl
            · rintro s' ⟨⟩
              change BlockPool.Shared _ (_ ++ s.scheduler.retainedBlocks)
              rw [hnil, List.append_nil]
              exact hshared
          · refine ⟨rfl, ?_⟩
            rintro s' ⟨⟩
            exact h
  | _ =>
      refine ⟨rfl, ?_⟩
      intro s' hs
      cases hs

/-! ### Every step -/

/-- **What a step must leave alone.**  A lookup returns; the sources that an admission pins are in
use; and no free of a request takes the last user of a pinned source or is held up by one. -/
def Undisturbed (cfg : InFlightConfig) (s : InFlightState) : InFlightAction → Prop
  | .schedule (.lookup id) => LookupReturns cfg.toEngineConfig s.scheduler id
  | .schedule (.admitWaiting id a) => SourcesInUse cfg.toEngineConfig s.scheduler id a
  | .schedule (.finish id) => ∀ r, s.scheduler.requests id = some r → s.scheduler.phase = .idle →
      r.status ≠ .waitingForRemoteKvs → LeavesSources cfg s r
  | .schedule (.preempt id) => ∀ r p, s.scheduler.requests id = some r →
      s.scheduler.phase = .schedulingRunning p → r.status = .running → LeavesSources cfg s r
  | .update => ∀ st rest, s.scheduler.phase = .idle → s.executed = st :: rest →
      cfg.deferBlockFree = true → 0 < st.totalNumScheduledTokens →
      DrainLeavesSources (s.processedStepSeq + 1) s.deferredFrees
        fun b => (s.scheduler.manager.pool.blocks b).refCnt
  | _ => True

theorem scheduleStep_native (h : s.scheduler.manager.pool.Shared s.sourcePins) {a : Action}
    (hok : Undisturbed cfg s (.schedule a)) :
    s.native.scheduleStep cfg.native a.native = (s.scheduleStep cfg a).map native := by
  cases a with
  | addRequest r => exact addRequest_native s r
  | appendOutput id t => exact lift_native (SchedulerState.appendOutput_native _ _ id t)
  | finish id => exact finish_native hok
  | resetPrefixCache => exact lift_native (SchedulerState.resetPrefixCache_native _ _)
  | beginSchedule => exact beginSchedule_native s
  | scheduleRunning id n => exact lift_native (SchedulerState.scheduleRunning_native h id n)
  | preempt id => exact preempt_native hok
  | beginWaiting => exact lift_native (SchedulerState.beginWaiting_native _ _)
  | lookup id => exact lift_native (SchedulerState.lookup_native hok)
  | skip => exact lift_native (SchedulerState.skip_native _ _)
  | admitWaiting id a => exact admitWaiting_native h hok
  | promoteRemote id => exact lift_native (SchedulerState.promoteRemote_native _ _ id)
  | execute flags => exact submit_native h

theorem waits_native (cfg : InFlightConfig) (s : InFlightState) :
    s.native.waits cfg.native = s.waits cfg := by
  rw [waits, waits]
  change (cfg.synchronous && !(s.submitted.map StepOutput.native).isEmpty) = _
  rw [List.isEmpty_map]

/-- **An undisturbed step is the step of the native view.** -/
theorem inFlightStep_native (hinv : s.Inv cfg) (h : s.scheduler.manager.pool.Shared s.sourcePins)
    {a : InFlightAction} (hok : Undisturbed cfg s a) :
    inFlightStep cfg.native s.native a.native = (inFlightStep cfg s a).map native := by
  cases a with
  | schedule a =>
      change (if s.native.waits cfg.native = true then none
        else s.native.scheduleStep cfg.native a.native) = Option.map native
          (if s.waits cfg = true then none else s.scheduleStep cfg a)
      rw [waits_native, scheduleStep_native h hok]
      split
      · rfl
      · rfl
  | runWorker => exact runWorker_native s
  | update => exact (update_native (fun hp => (hinv.idle hp).2) h hok).1

theorem shared_scheduleStep (h : s.scheduler.manager.pool.Shared s.sourcePins) {a : Action}
    (hok : Undisturbed cfg s (.schedule a)) (hs : s.scheduleStep cfg a = some s') :
    s'.scheduler.manager.pool.Shared s'.sourcePins := by
  have hplain : ∀ {a : Action}, isPlainStep a = true →
      ((schedulerStep cfg.toEngineConfig s.scheduler a).map fun sched =>
        { s with scheduler := sched }) = some s' →
      s'.scheduler.manager.pool.Shared s'.sourcePins := by
    intro a ha hs
    obtain ⟨sched, hsched, rfl⟩ := Option.map_eq_some_iff.mp hs
    obtain ⟨hshared, hret⟩ := shared_of_plainStep h ha hsched
    rw [sourcePins] at hshared ⊢
    rw [hret]
    exact hshared
  cases a with
  | addRequest r =>
      obtain ⟨sched, hsched, rfl⟩ := Option.map_eq_some_iff.mp hs
      obtain ⟨hshared, hret⟩ := shared_of_plainStep (a := .addRequest r) h rfl hsched
      change sched.manager.pool.Shared (_ ++ sched.retainedBlocks)
      rw [hret]
      exact hshared
  | finish id =>
      rw [scheduleStep, finish] at hs
      split at hs
      · cases hs
      · next r hr =>
          obtain ⟨sched, hsched, rfl⟩ := Option.map_eq_some_iff.mp hs
          obtain ⟨r', hr', hp, hstatus, rfl⟩ := finish_some hsched
          change BlockPool.Shared _ (retainedIn (s.freeRequestBlocks cfg r true).2
            ++ s.scheduler.retainedBlocks)
          rw [retainedIn_freeRequestBlocks]
          rw [hr, Option.some.injEq] at hr'
          subst hr'
          exact shared_freeRequestBlocks h (hok r hr hp hstatus) true
  | beginSchedule =>
      rw [scheduleStep, beginSchedule] at hs
      split at hs
      · exact hplain (a := .beginSchedule) rfl hs
      · cases hs
  | preempt id =>
      rw [scheduleStep, preempt] at hs
      split at hs
      · cases hs
      · next r hr =>
          obtain ⟨sched, hsched, rfl⟩ := Option.map_eq_some_iff.mp hs
          obtain ⟨p, r', hp, hr', hstatus, rfl⟩ := preempt_some hsched
          change BlockPool.Shared _ (retainedIn (s.freeRequestBlocks cfg r false).2
            ++ s.scheduler.retainedBlocks)
          rw [retainedIn_freeRequestBlocks]
          rw [hr, Option.some.injEq] at hr'
          subst hr'
          exact shared_freeRequestBlocks h (hok r p hr hp hstatus) false
  | admitWaiting id a =>
      rw [scheduleStep, admitWaiting] at hs
      obtain ⟨sched, hsched, rfl⟩ := Option.map_eq_some_iff.mp hs
      have hshared : sched.manager.pool.Shared (retainedIn s.deferredFrees ++ sched.retainedBlocks) :=
        shared_of_admission h hok hsched
      dsimp only
      split
      · exact hshared
      · exact hshared
  | execute flags =>
      change s.submit cfg = some s' at hs
      rw [submit_eq, Option.ite_none_right_eq_some] at hs
      obtain ⟨-, hs⟩ := hs
      cases hs
      change (s.poolAfterCall cfg).Shared (retainedIn (s.freesAfterCall cfg) ++ [])
      rw [List.append_nil]
      exact (sources_afterCall h).2
  | _ => exact hplain rfl hs

theorem shared_inFlightStep (hinv : s.Inv cfg) (h : s.scheduler.manager.pool.Shared s.sourcePins)
    {a : InFlightAction} (hok : Undisturbed cfg s a) (hs : inFlightStep cfg s a = some s') :
    s'.scheduler.manager.pool.Shared s'.sourcePins := by
  cases a with
  | schedule a =>
      rw [inFlightStep] at hs
      split at hs
      · cases hs
      · exact shared_scheduleStep h hok hs
  | runWorker =>
      rw [inFlightStep, runWorker] at hs
      split at hs
      · cases hs
      · cases hs
        exact h
  | update => exact (update_native (fun hp => (hinv.idle hp).2) h hok).2 s' hs

/-! ### With CacheSelect off -/

/-- Nothing is retained, in the current call or behind a fence. -/
def NoSources (s : InFlightState) : Prop :=
  s.scheduler.retainedBlocks = [] ∧ ∀ d ∈ s.deferredFrees, d.retained = false

theorem NoSources.retainedIn_eq {ds : List DeferredFree} (h : ∀ d ∈ ds, d.retained = false) :
    retainedIn ds = [] := by
  rw [retainedIn, List.filter_eq_nil_iff.mpr, List.flatMap_nil]
  intro d hd
  rw [h d hd]
  exact Bool.false_ne_true

theorem NoSources.sourcePins_eq (h : s.NoSources) : s.sourcePins = [] := by
  rw [sourcePins, h.1, NoSources.retainedIn_eq h.2]
  rfl

theorem drainLeavesSources_of_noSources (p : Nat) : ∀ (ds : List DeferredFree) (f : Nat → Int),
    (∀ d ∈ ds, d.retained = false) → DrainLeavesSources p ds f := by
  intro ds
  induction ds with
  | nil => intro f _; trivial
  | cons d ds ih =>
      intro f h
      have hds : ∀ e ∈ ds, e.retained = false := fun e he => h e (List.mem_cons_of_mem _ he)
      rw [DrainLeavesSources]
      split
      · intro hret
        rw [h d (List.mem_cons_self ..)] at hret
        cases hret
      · refine ⟨fun _ b hb => ?_, ih _ hds⟩
        rw [NoSources.retainedIn_eq hds] at hb
        cases hb

/-- Without sources every step is undisturbed. -/
theorem NoSources.undisturbed (h : s.NoSources) (a : InFlightAction) :
    Undisturbed cfg.native s a := by
  have hleaves : ∀ r, LeavesSources cfg.native s r := by
    intro r _ b hb
    rw [h.sourcePins_eq] at hb
    cases hb
  cases a with
  | schedule a =>
      cases a with
      | lookup id =>
          intro r _ _ _ _ hplans
          rw [KVCacheManager.plansFor] at hplans
          change (cfg.enableCaching && !r.skipReadingPrefixCache && false) = true at hplans
          rw [Bool.and_false] at hplans
          cases hplans
      | admitWaiting id a =>
          intro r hits n _ _ _ _ b hb
          cases hb
      | finish id => exact fun r _ _ _ => hleaves r
      | preempt id => exact fun r _ _ _ _ => hleaves r
      | _ => trivial
  | runWorker => trivial
  | update => exact fun _ _ _ _ _ _ => drainLeavesSources_of_noSources _ _ _ h.2

theorem NoSources.freeRequestBlocks (h : s.NoSources) (r : Request) (isFinished : Bool) :
    ∀ d ∈ (s.freeRequestBlocks cfg r isFinished).2, d.retained = false := by
  rw [InFlightState.freeRequestBlocks]
  split
  · exact h.2
  · dsimp only
    split
    · exact h.2
    · intro d hd
      rcases List.mem_append.mp hd with hd | hd
      · exact h.2 d hd
      · rw [List.mem_singleton.mp hd]

/-- With CacheSelect off nothing is ever retained. -/
theorem NoSources.step (h : s.NoSources) {a : InFlightAction}
    (hs : inFlightStep cfg.native s a = some s') : s'.NoSources := by
  have hplain : ∀ {a : Action}, isPlainStep a = true →
      ((schedulerStep cfg.native.toEngineConfig s.scheduler a).map fun sched =>
        { s with scheduler := sched }) = some s' → s'.NoSources := by
    intro a ha hs
    obtain ⟨sched, hsched, rfl⟩ := Option.map_eq_some_iff.mp hs
    have hret := (shared_of_plainStep (BlockPool.Shared.nil _) ha hsched).2
    exact ⟨hret.trans h.1, h.2⟩
  cases a with
  | schedule a =>
      rw [inFlightStep, Option.ite_none_left_eq_some] at hs
      obtain ⟨-, hs⟩ := hs
      cases a with
      | addRequest r =>
          obtain ⟨sched, hsched, rfl⟩ := Option.map_eq_some_iff.mp hs
          have hret := (shared_of_plainStep (a := .addRequest r) (BlockPool.Shared.nil _) rfl hsched).2
          exact ⟨hret.trans h.1, h.2⟩
      | finish id =>
          rw [scheduleStep, finish] at hs
          split at hs
          · cases hs
          · next r hr =>
              obtain ⟨sched, hsched, rfl⟩ := Option.map_eq_some_iff.mp hs
              obtain ⟨r', -, -, -, rfl⟩ := finish_some hsched
              exact ⟨h.1, h.freeRequestBlocks r true⟩
      | preempt id =>
          rw [scheduleStep, preempt] at hs
          split at hs
          · cases hs
          · next r hr =>
              obtain ⟨sched, hsched, rfl⟩ := Option.map_eq_some_iff.mp hs
              obtain ⟨p, r', -, -, -, rfl⟩ := preempt_some hsched
              exact ⟨h.1, h.freeRequestBlocks r false⟩
      | beginSchedule =>
          rw [scheduleStep, beginSchedule] at hs
          split at hs
          · exact hplain (a := .beginSchedule) rfl hs
          · cases hs
      | admitWaiting id a =>
          rw [scheduleStep, admitWaiting] at hs
          obtain ⟨sched, hsched, rfl⟩ := Option.map_eq_some_iff.mp hs
          have hret : sched.retainedBlocks = [] := by
            obtain ⟨r, hits, n, -, -, -, -, ⟨m, -, rfl⟩ | ⟨new, m, -, rfl⟩⟩ :=
              admitWaiting_some hsched
            · exact h.1
            · change s.scheduler.retainedBlocks ++ [] = []
              rw [h.1]
              rfl
          dsimp only
          split
          · exact ⟨hret, h.2⟩
          · exact ⟨hret, h.2⟩
      | execute flags =>
          change s.submit cfg.native = some s' at hs
          rw [submit_eq, Option.ite_none_right_eq_some] at hs
          obtain ⟨-, hs⟩ := hs
          cases hs
          refine ⟨rfl, ?_⟩
          change ∀ d ∈ s.freesAfterCall cfg.native, _
          rw [freesAfterCall, if_pos (Or.inr h.1)]
          exact h.2
      | _ => exact hplain rfl hs
  | runWorker =>
      rw [inFlightStep, runWorker] at hs
      split at hs
      · cases hs
      · cases hs
        exact h
  | update =>
      rw [inFlightStep, update] at hs
      split at hs
      · split at hs
        · cases hs
          refine ⟨h.1, fun d hd => ?_⟩
          obtain ⟨due, hds, -⟩ := drainDeferredFrees_spec (s.processedStepSeq + 1) s.deferredFrees
            s.scheduler.manager.pool
          refine h.2 d ?_
          rw [hds]
          exact List.mem_append_right _ hd
        · cases hs
          exact h
      · cases hs

end InFlightState

open InFlightState

/-- The same native hits, admissions, block tables, free queue and hashes. -/
def SameNative (s t : InFlightState) : Prop :=
  s.native = t.native

/-- A state with CacheSelect beside one without it. -/
structure Beside (cfg : InFlightConfig) (s t : InFlightState) : Prop where
  inv : s.Inv cfg
  shared : s.scheduler.manager.pool.Shared s.sourcePins
  invOff : t.Inv cfg.native
  noSources : t.NoSources
  same : SameNative s t

theorem Beside.step {cfg : InFlightConfig} {s t : InFlightState} (h : Beside cfg s t)
    {a : InFlightAction} (hok : Undisturbed cfg s a) :
    Option.Rel (Beside cfg) (inFlightStep cfg s a) (inFlightStep cfg.native t a) := by
  have hoff : t.scheduler.manager.pool.Shared t.sourcePins := by
    rw [h.noSources.sourcePins_eq]
    exact BlockPool.Shared.nil _
  have hs := inFlightStep_native h.inv h.shared hok
  have ht := inFlightStep_native h.invOff hoff (h.noSources.undisturbed a)
  change inFlightStep cfg.native t.native a.native = _ at ht
  rw [← h.same, hs] at ht
  cases hs' : inFlightStep cfg s a with
  | none =>
      cases ht' : inFlightStep cfg.native t a with
      | none => exact Option.Rel.none
      | some t' =>
          rw [hs', ht'] at ht
          cases ht
  | some s' =>
      cases ht' : inFlightStep cfg.native t a with
      | none =>
          rw [hs', ht'] at ht
          cases ht
      | some t' =>
          rw [hs', ht'] at ht
          refine Option.Rel.some ⟨inFlightStep_inv h.inv hs', shared_inFlightStep h.inv h.shared hok hs',
            inFlightStep_inv h.invOff ht', h.noSources.step ht', ?_⟩
          exact Option.some.inj ht

theorem Beside.init (cfg : InFlightConfig) :
    Beside cfg (InFlightState.init cfg) (InFlightState.init cfg.native) where
  inv := InFlightState.init_inv cfg
  shared := nofun
  invOff := InFlightState.init_inv cfg.native
  noSources := ⟨rfl, nofun⟩
  same := rfl

/-- **Noninterference.**  A run whose steps leave the native view alone goes with CacheSelect as it
goes without it: each action is refused in both, or both reach states with the same native hits,
admissions, block tables and evictions. -/
theorem native_agreement (cfg : InFlightConfig) (actions : List InFlightAction)
    (h : Admits (inFlightStep cfg) (Undisturbed cfg) (InFlightState.init cfg) actions) :
    Option.Rel SameNative (run (inFlightStep cfg) (InFlightState.init cfg) actions)
      (run (inFlightStep cfg.native) (InFlightState.init cfg.native) actions) := by
  have hstep : ∀ s t a, Beside cfg s t → Undisturbed cfg s a →
      Option.Rel (Beside cfg) (inFlightStep cfg s a) (inFlightStep cfg.native t a) :=
    fun _ _ _ hst hok => hst.step hok
  have hrel := rel_run_of_lockstep hstep actions _ _ (Beside.init cfg) h
  generalize run (inFlightStep cfg) (InFlightState.init cfg) actions = x at hrel ⊢
  generalize run (inFlightStep cfg.native) (InFlightState.init cfg.native) actions = y at hrel ⊢
  cases hrel with
  | none => exact Option.Rel.none
  | some hb => exact Option.Rel.some hb.same

/-- A check that suffices for a step to be undisturbed, in an engine without selector features and
without deferred frees. -/
def leavesNative (cfg : InFlightConfig) (s : InFlightState) : InFlightAction → Bool
  | .schedule (.lookup _) => !cfg.collectSelectorFeatures
  | .schedule (.admitWaiting id _) => (s.scheduler.requests id).all fun r =>
      (s.scheduler.pinned cfg.toEngineConfig r).all fun b =>
        decide (0 < (s.scheduler.manager.pool.blocks b).refCnt)
  | .schedule (.finish _) | .schedule (.preempt _) => s.sourcePins.isEmpty
  | .update => !cfg.deferBlockFree
  | _ => true

theorem undisturbed_of_leavesNative {cfg : InFlightConfig} (s : InFlightState) (a : InFlightAction)
    (h : leavesNative cfg s a = true) : Undisturbed cfg s a := by
  have hleaves : s.sourcePins.isEmpty = true → ∀ r, LeavesSources cfg s r := by
    intro hnil r _ b hb
    rw [List.isEmpty_iff.mp hnil] at hb
    cases hb
  cases a with
  | schedule a =>
      cases a with
      | lookup id =>
          intro r _ _ _ _ _ hcollect
          rw [leavesNative, hcollect] at h
          cases h
      | admitWaiting id a =>
          intro r hits n hr _ _ _ b hb
          rw [leavesNative, hr, Option.all_some, List.all_eq_true] at h
          exact of_decide_eq_true (h b hb)
      | finish id => exact fun r _ _ _ => hleaves h r
      | preempt id => exact fun r _ _ _ _ => hleaves h r
      | _ => trivial
  | runWorker => trivial
  | update =>
      intro st rest _ _ hd
      rw [leavesNative, hd] at h
      cases h

/-- Seven free blocks. -/
def sharedConfig : InFlightConfig :=
  { smallEngine 7 with executePartialReuse := false }

/-- The source `[1, 2, 3]` is served; another request hits its first block and runs on, and the
target is admitted with this block pinned. -/
def sharedRun : List InFlightAction :=
  inTurn (serve { requestId := "source", promptTokenIds := some [1, 2, 3] } ++
    .addRequest { requestId := "sharer", promptTokenIds := some [1, 2, 9] } ::
      admission "sharer" { numNewTokens := 1 } ++ [.execute selectiveFlags] ++
    .addRequest {
      requestId := "target"
      promptTokenIds := some [5, 6, 1, 2, 7]
      cacheselectSourceRequestId := some "source" } ::
      admission "target" { numNewTokens := 5 } ++ [.execute selectiveFlags])

/-- The target's source is pinned while another request uses it, and nothing else changes. -/
theorem native_agreement_sharedRun :
    ∃ s t, run (inFlightStep sharedConfig) (InFlightState.init sharedConfig) sharedRun = some s ∧
      run (inFlightStep sharedConfig.native) (InFlightState.init sharedConfig.native) sharedRun
        = some t ∧ SameNative s t ∧ s.taken ≠ [] := by
  have hrel := native_agreement sharedConfig sharedRun
    (admits_of_checks undisturbed_of_leavesNative sharedRun _ (by decide +kernel))
  have hon : (run (inFlightStep sharedConfig) (InFlightState.init sharedConfig) sharedRun).any
      (fun s => !s.taken.isEmpty) = true := by decide +kernel
  rw [Option.any_eq_true] at hon
  obtain ⟨s, hs, htaken⟩ := hon
  rw [Bool.not_eq_true', List.isEmpty_eq_false_iff] at htaken
  rw [hs] at hrel ⊢
  generalize run (inFlightStep sharedConfig.native) (InFlightState.init sharedConfig.native)
    sharedRun = y at hrel ⊢
  cases hrel with
  | some h => exact ⟨s, _, rfl, rfl, h, htaken⟩

/-- The engine of `tightConfig` with the execution of reuse disabled; it waits for each step. -/
def tightInFlight : InFlightConfig :=
  { tightConfig with executePartialReuse := false }

/-- The run of `tightRun` to the admission of the target with all its tokens. -/
def tightAdmission : List InFlightAction :=
  inTurn (tightRun ++ [.admitWaiting "target" { numNewTokens := 5 }])

/-- What has become of the target. -/
def targetStatus (s : InFlightState) : Option RequestStatus :=
  (s.scheduler.requests "target").map Request.status

theorem SameNative.targetStatus {s t : InFlightState} (h : SameNative s t) :
    targetStatus s = targetStatus t := by
  have hs : ∀ s : InFlightState, Engine.targetStatus s.native = Engine.targetStatus s := by
    intro s
    change ((s.scheduler.requests "target").map Request.native).map Request.status = _
    rw [Option.map_map]
    rfl
  rw [← hs s, ← hs t, h]

/-- **Pinning changes an admission**, with the execution of reuse disabled: the source is the last
free block, so that the target waits where it would run without CacheSelect. -/
theorem pins_change_admission :
    ¬ ∀ cfg : InFlightConfig, cfg.supportsAlignedReuse = true → cfg.executePartialReuse = false →
      cfg.allowRepacking = false → ∀ actions : List InFlightAction,
        Option.Rel SameNative (run (inFlightStep cfg) (InFlightState.init cfg) actions)
          (run (inFlightStep cfg.native) (InFlightState.init cfg.native) actions) := by
  intro hclaim
  have hrel := hclaim tightInFlight rfl rfl rfl tightAdmission
  have hon : (run (inFlightStep tightInFlight) (InFlightState.init tightInFlight)
      tightAdmission).map targetStatus = some (some .waiting) := by decide +kernel
  have hoff : (run (inFlightStep tightInFlight.native) (InFlightState.init tightInFlight.native)
      tightAdmission).map targetStatus = some (some .running) := by decide +kernel
  generalize run (inFlightStep tightInFlight) (InFlightState.init tightInFlight)
    tightAdmission = x at hrel hon
  generalize run (inFlightStep tightInFlight.native) (InFlightState.init tightInFlight.native)
    tightAdmission = y at hrel hoff
  cases hrel with
  | none => cases hon
  | some h =>
      have := h.targetStatus
      rw [Option.map_some, Option.some.injEq] at hon hoff
      rw [hon, hoff] at this
      cases this

end CacheSelect.Engine

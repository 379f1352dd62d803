import CacheSelect.Engine.SchedulerInvariant

/-! # When the lookup of a source raises

`locate` falls back to an empty plan for every source it cannot use.  The selector features are the
exception: the analysis library wants the native hit to lie within the common prefix of the request
and its source, and the native hit may come from another request.  `locate_ok_iff` gives the exact
condition, and `lookup_isSome_iff` says the same of the scheduler's step.
-/

namespace CacheSelect.Engine

open CacheSelect.Core CacheSelect.Worker CacheSelect.Features Transition
open AlignedBlockReuseLocator KVCacheManager

/-- Where features are attached, the native hit lies within the common prefix of the request and the
source it is matched against. -/
def NativeWithinSource (cfg : LocatorConfig) (pool : BlockPool) (l : AlignedBlockReuseLocator)
    (r : Request) (nativeCachedTokens : Nat) : Prop :=
  cfg.collectSelectorFeatures = true → ∀ source promptTokenIds,
    finalSource cfg pool l r nativeCachedTokens = some (source, promptTokenIds) →
    rawCandidates cfg pool source promptTokenIds nativeCachedTokens ≠ [] →
    nativeCachedTokens ≤ commonPrefixLength source.promptTokenIds promptTokenIds

theorem nativeWithinSource_iff (cfg : LocatorConfig) (pool : BlockPool)
    (l : AlignedBlockReuseLocator) (r : Request) (native : Nat) :
    NativeWithinSource cfg pool l r native ↔ ∀ e, locate cfg pool l r native ≠ .error e := by
  have h := locate_error_cases cfg pool l r native
  constructor
  · intro hc e he
    obtain ⟨hcollect, source, p, hs, hne, hlt⟩ := h.mp ⟨e, he⟩
    have := hc hcollect source p hs hne
    omega
  · intro hne hcollect source p hs hcs
    by_contra hlt
    obtain ⟨e, he⟩ := h.mpr ⟨hcollect, source, p, hs, hcs, by omega⟩
    exact hne e he

/-- **`locate` returns exactly when the native hit lies within the source**, for every index, every
pool and every native hit. -/
theorem locate_ok_iff (cfg : LocatorConfig) (pool : BlockPool) (l : AlignedBlockReuseLocator)
    (r : Request) (nativeCachedTokens : Nat) :
    (∃ plan r', locate cfg pool l r nativeCachedTokens = .ok (plan, r')) ↔
      NativeWithinSource cfg pool l r nativeCachedTokens := by
  rw [nativeWithinSource_iff]
  constructor
  · rintro ⟨plan, r', h⟩ e he
    rw [h] at he
    cases he
  · intro h
    obtain ⟨⟨plan, r'⟩, hx⟩ := Except.exists_ok_of_forall_ne_error h
    exact ⟨plan, r', hx⟩

/-- The native hit that `get_computed_blocks` passes to `locate`. -/
def nativeHit (cfg : ManagerConfig) (pool : BlockPool) (r : Request) : Nat :=
  (findLongestCacheHit cfg pool (r.blockHashes cfg.blockSize) (r.numTokens - 1)).2

/-- **The scheduler's lookup** of a waiting request goes through under the same condition. -/
theorem lookup_isSome_iff {cfg : EngineConfig} {s : SchedulerState} {id : String} {r : Request}
    (hp : s.phase = .schedulingWaiting) (hr : s.requests id = some r)
    (hw : SchedulerState.isWaiting r = true) (h0 : r.numComputedTokens = 0) :
    (s.lookup cfg id).isSome = true ↔
      (cfg.enableCaching = true → r.skipReadingPrefixCache = false →
        cfg.supportsAlignedReuse = true →
        NativeWithinSource cfg.toLocatorConfig s.manager.pool s.manager.locator r
          (nativeHit cfg.toManagerConfig s.manager.pool r)) := by
  rw [SchedulerState.lookup, hp, hr]
  dsimp only
  rw [if_pos ⟨hw, h0⟩, getComputedBlocks]
  by_cases hoff : cfg.enableCaching = false ∨ r.skipReadingPrefixCache = true
  · rw [if_pos hoff]
    refine ⟨fun _ hc hs _ => ?_, fun _ => rfl⟩
    rcases hoff with h | h
    · rw [h] at hc; cases hc
    · rw [h] at hs; cases hs
  · rw [if_neg hoff]
    obtain ⟨hc, hs⟩ := not_or.mp hoff
    rw [Bool.not_eq_false] at hc
    rw [Bool.not_eq_true] at hs
    by_cases hsup : cfg.supportsAlignedReuse = true
    · rw [if_pos hsup, nativeWithinSource_iff]
      change _ ↔ (_ → _ → _ → ∀ e, locate _ _ _ _ (findLongestCacheHit _ _ _ _).2 ≠ _)
      cases hloc : locate cfg.toLocatorConfig s.manager.pool s.manager.locator r
          (findLongestCacheHit cfg.toManagerConfig s.manager.pool (r.blockHashes cfg.blockSize)
            (r.numTokens - 1)).2 with
      | ok x =>
          refine ⟨fun _ _ _ _ e he => ?_, fun _ => rfl⟩
          cases he
      | error e =>
          refine ⟨fun h => ?_, fun h => absurd rfl (h hc hs hsup e)⟩
          cases h
    · rw [if_neg hsup]
      exact ⟨fun _ _ _ h => absurd h hsup, fun _ => rfl⟩

/-- An engine that collects selector features. -/
def collectingConfig : EngineConfig :=
  { smallEngine 7 with collectSelectorFeatures := true }

/-- The request whose first block another request has cached, and whose second block is the first
one of its source. -/
def collectingTarget : Request where
  requestId := "target"
  promptTokenIds := some [3, 4, 1, 2, 5]
  cacheselectSourceRequestId := some "source"

/-- Two requests are served, and the target waits to be looked up. -/
def collectingRun : List Action :=
  serve { requestId := "source", promptTokenIds := some [1, 2, 7] } ++
    serve { requestId := "other", promptTokenIds := some [3, 4, 9] } ++
    [.addRequest collectingTarget, .beginSchedule, .beginWaiting]

/-- **A native hit beyond the source takes the lookup down**: the hit `[3, 4]` comes from another
request, and the common prefix with the source is empty. -/
theorem locate_raises_beyond_source :
    ∃ s : State Unit,
      Reachable (step collectingConfig fun _ _ => ()) (State.init collectingConfig fun _ _ => ()) s ∧
      s.scheduler.requests "target" = some collectingTarget ∧
      nativeHit collectingConfig.toManagerConfig s.scheduler.manager.pool collectingTarget = 2 ∧
      ¬ ∃ plan r', locate collectingConfig.toLocatorConfig s.scheduler.manager.pool
        s.scheduler.manager.locator collectingTarget 2 = .ok (plan, r') := by
  obtain ⟨s, hs, hP⟩ := exists_reachableWhen (step collectingConfig fun _ _ => ())
    (fun _ _ => True) (State.init collectingConfig fun _ _ => ()) collectingRun
    (fun s => s.scheduler.requests "target" == some collectingTarget &&
      nativeHit collectingConfig.toManagerConfig s.scheduler.manager.pool collectingTarget == 2 &&
      !(locate collectingConfig.toLocatorConfig s.scheduler.manager.pool
        s.scheduler.manager.locator collectingTarget 2).toBool) (by decide +kernel)
  simp only [Bool.and_eq_true, beq_iff_eq, Bool.not_eq_true'] at hP
  refine ⟨s, hs, hP.1.1, hP.1.2, ?_⟩
  rintro ⟨plan, r', h⟩
  have := hP.2
  rw [h] at this
  cases this

end CacheSelect.Engine

import CacheSelect.Engine.Plans

/-! # Copies and computed tokens

A plan is located behind the native hit.  Tokens that the KV connector brings are counted as computed
too, but the plan does not know of them, so that a copy may go to a block that has been loaded.
`copies_behind_computed` says what is enough in a run: no admission counts tokens as computed beyond the
first position of a block that its plan copies to.  Among the steps of this engine only tokens of the
connector can break this (`copiesBehind_of_native`); a session with streaming input, which is not one of them,
breaks it too when it is admitted again with its old plan.
-/

namespace CacheSelect.Engine

open CacheSelect.Core CacheSelect.Worker Transition

/-- Whether the target blocks of an entry's plan begin behind its computed tokens. -/
def ScheduledRequest.plansBehind (blockSize : Nat) (e : ScheduledRequest) : Bool :=
  match e.partialReusePlan with
  | none => true
  | some plan => plan.candidates.all fun c => e.numComputedTokens ≤ c.targetBlockIndex * blockSize

/-- No admission counts tokens as computed beyond the start of a target block of its plan. -/
def copiesBehind (cfg : EngineConfig) (s : SchedulerState) : Action → Bool
  | .admitWaiting id a =>
      !cfg.executePartialReuse || a.loadKvAsync ||
        match s.requests id with
        | none => true
        | some r =>
            match s.computedBefore r with
            | none => true
            | some (_, n) =>
                (SchedulerState.admittedEntry r a n (s.pinned cfg r)).plansBehind cfg.blockSize
  | _ => true

section

variable {cfg : EngineConfig} {s s' : SchedulerState}

theorem ScheduledRequest.plansBehind_iff {bs : Nat} {e : ScheduledRequest} :
    e.plansBehind bs = true ↔ ∀ plan, e.partialReusePlan = some plan →
      ∀ c ∈ plan.candidates, e.numComputedTokens ≤ c.targetBlockIndex * bs := by
  rw [ScheduledRequest.plansBehind]
  cases e.partialReusePlan with
  | none => exact ⟨fun _ => nofun, fun _ => rfl⟩
  | some plan =>
      rw [List.all_eq_true]
      constructor
      · rintro h _ ⟨⟩ c hc
        exact of_decide_eq_true (h c hc)
      · intro h c hc
        exact decide_eq_true (h plan rfl c hc)

/-- A step under the condition keeps every scheduled plan behind its computed tokens. -/
theorem plansBehind_step (h : s.Inv cfg) {a : Action} (hex : cfg.executePartialReuse = true)
    (hp : ∀ e ∈ s.scheduled, e.plansBehind cfg.blockSize = true)
    (hok : copiesBehind cfg s a = true) (hs : schedulerStep cfg s a = some s') :
    ∀ e ∈ s'.scheduled, e.plansBehind cfg.blockSize = true := by
  intro e he
  rcases SchedulerState.entry_step h hs he with
    ⟨hin, -⟩ | ⟨r, n, -, rfl⟩ | ⟨r, adm, hits, n, rfl, hr, hc, hasync, heq, -⟩
  · exact hp e hin
  · rfl
  · rw [copiesBehind, hex, hasync, hr] at hok
    dsimp only at hok
    rw [hc] at hok
    rw [heq]
    exact hok

end

/-- The copies of a request that the worker executes in a step. -/
def executedCopies (cfg : EngineConfig) (added : WorkerRequests) (e : ScheduledRequest) :
    List PartialReuseCopyInstruction :=
  if e.isNew = true then stepInstructions cfg.toWorkerConfig added [e.reqId] else []

theorem mem_executedCopies {cfg : EngineConfig} {added : WorkerRequests} {e : ScheduledRequest}
    {i : PartialReuseCopyInstruction} (h : i ∈ executedCopies cfg added e) :
    e.isNew = true ∧ i ∈ copyInstructionsOf added e.reqId := by
  rw [executedCopies] at h
  split at h
  · next hnew =>
      rw [stepInstructions] at h
      split at h
      · cases h
      · rw [List.flatMap_cons, List.flatMap_nil, List.append_nil] at h
        exact ⟨hnew, h⟩
  · cases h

/-- **No copy reaches computed tokens** in a run whose admissions count no tokens as computed beyond
a target block of their plans. -/
theorem copies_behind_computed {K : Type} {cfg : EngineConfig} {compute : List K → Nat → K}
    {kv : KVMemory K} {s : State K}
    (hs : ReachableWhen (step cfg compute) (fun s a => copiesBehind cfg s.scheduler a = true)
      (State.init cfg kv) s) {added : WorkerRequests}
    (ha : addedRequests cfg s.scheduler s.worker = .ok added) :
    ∀ e ∈ s.scheduler.scheduled, ∀ i ∈ executedCopies cfg added e,
      e.numComputedTokens ≤ i.targetBlockIndex * cfg.blockSize := by
  intro e he i hi
  rw [executedCopies] at hi
  split at hi
  · next hnew =>
      rw [stepInstructions] at hi
      split at hi
      · cases hi
      · next hex =>
          rw [Bool.not_eq_false] at hex
          rw [List.flatMap_cons, List.flatMap_nil, List.append_nil] at hi
          have hinv := inv_of_reachable hs
          have hbehind : ∀ e ∈ s.scheduler.scheduled, e.plansBehind cfg.blockSize = true :=
            (hs.invariant (fun s => s.scheduler.Inv cfg ∧
                ∀ e ∈ s.scheduler.scheduled, e.plansBehind cfg.blockSize = true)
              ⟨SchedulerState.init_inv cfg, fun _ he => by cases he⟩
              (fun _ _ _ hp hok hst => ⟨schedulerStep_inv hp.1 (schedulerStep_of_step hst),
                plansBehind_step hp.1 hex hp.2 hok (schedulerStep_of_step hst)⟩) s).2
          obtain ⟨r, hr, -⟩ := hinv.entry e he
          obtain ⟨plan, hplan, c, hc, b, -, rfl⟩ :=
            copy_of_entry hinv (plans_of_reachable hs) ha he hr hnew hi
          exact ScheduledRequest.plansBehind_iff.mp (hbehind e he) plan hplan c hc
  · cases hi

/-- A worker that recomputes the changed blocks only. -/
def reusingConfig : EngineConfig :=
  { smallEngine 9 with repairSelector := .editProximity 0 }

/-- A source is served, and a request whose second block is the first one of the source is looked
up. -/
def reusingRun : List Action :=
  serve { requestId := "source", promptTokenIds := some [1, 2, 7] } ++
    [.addRequest {
      requestId := "target"
      promptTokenIds := some [5, 6, 1, 2, 7]
      cacheselectSourceRequestId := some "source" },
    .beginSchedule, .beginWaiting, .lookup "target"]

/-- The target blocks of the copies of a step, beside the computed tokens of their requests. -/
def copyTargets (cfg : EngineConfig) {K : Type} (s : State K) : List (Nat × Nat) :=
  match addedRequests cfg s.scheduler s.worker with
  | .error _ => []
  | .ok added => s.scheduler.scheduled.flatMap fun e =>
      (executedCopies cfg added e).map fun i => (e.numComputedTokens, i.targetBlockIndex)

theorem mem_copyTargets {cfg : EngineConfig} {K : Type} {s : State K} {x : Nat × Nat}
    (h : x ∈ copyTargets cfg s) : ∃ added, addedRequests cfg s.scheduler s.worker = .ok added ∧
      ∃ e ∈ s.scheduler.scheduled, ∃ i ∈ executedCopies cfg added e,
        x = (e.numComputedTokens, i.targetBlockIndex) := by
  rw [copyTargets] at h
  split at h
  · cases h
  · next added ha =>
      obtain ⟨e, he, hx⟩ := List.mem_flatMap.mp h
      obtain ⟨i, hi, rfl⟩ := List.mem_map.mp hx
      exact ⟨added, ha, e, he, i, hi, rfl⟩

/-- **A copy can reach loaded tokens**: the connector brings the first four tokens, and the second
block, which it has filled, is copied over. -/
theorem copy_over_external_tokens :
    ∃ s : State Unit,
      Reachable (step reusingConfig fun _ _ => ()) (State.init reusingConfig fun _ _ => ()) s ∧
      ∃ added, addedRequests reusingConfig s.scheduler s.worker = .ok added ∧
        ∃ e ∈ s.scheduler.scheduled, ∃ i ∈ executedCopies reusingConfig added e,
          ¬ e.numComputedTokens ≤ i.targetBlockIndex * reusingConfig.blockSize := by
  obtain ⟨s, hs, hP⟩ := exists_reachableWhen (step reusingConfig fun _ _ => ())
    (fun _ _ => True) (State.init reusingConfig fun _ _ => ())
    (reusingRun ++ [.admitWaiting "target" { numNewTokens := 1, numExternalComputedTokens := 4 }])
    (fun s => (copyTargets reusingConfig s).contains (4, 1)) (by decide +kernel)
  obtain ⟨added, ha, e, he, i, hi, hx⟩ := mem_copyTargets (List.contains_iff_mem.mp hP)
  rw [Prod.mk.injEq] at hx
  exact ⟨s, hs, added, ha, e, he, i, hi, by rw [← hx.1, ← hx.2]; decide⟩

/-- Without external tokens the same copy goes to a block that is still to be computed. -/
theorem copy_behind_computed_tokens :
    ∃ s : State Unit,
      Reachable (step reusingConfig fun _ _ => ()) (State.init reusingConfig fun _ _ => ()) s ∧
      ∃ added, addedRequests reusingConfig s.scheduler s.worker = .ok added ∧
        ∃ e ∈ s.scheduler.scheduled, ∃ i ∈ executedCopies reusingConfig added e,
          i.targetBlockIndex = 1 ∧
            e.numComputedTokens ≤ i.targetBlockIndex * reusingConfig.blockSize := by
  obtain ⟨s, hs, hP⟩ := exists_reachableWhen (step reusingConfig fun _ _ => ())
    (fun s a => copiesBehind reusingConfig s.scheduler a = true)
    (State.init reusingConfig fun _ _ => ())
    (reusingRun ++ [.admitWaiting "target" { numNewTokens := 5 }])
    (fun s => (copyTargets reusingConfig s).contains (0, 1)) (by decide +kernel)
  obtain ⟨added, ha, e, he, i, hi, hx⟩ := mem_copyTargets (List.contains_iff_mem.mp hP)
  rw [Prod.mk.injEq] at hx
  exact ⟨s, hs.reachable, added, ha, e, he, i, hi, hx.2.symm,
    copies_behind_computed hs ha e he i hi⟩

/-! ### Admissions without tokens of the connector -/

/-- A lookup that has not been decided on has planned behind its native hit. -/
def LookupBehind (cfg : EngineConfig) (s : SchedulerState) : Prop :=
  ∀ id hits n r p, s.phase = .lookedUp id hits n → s.requests id = some r →
    r.partialReusePlan = some p → ∀ c ∈ p.candidates, n ≤ c.targetBlockIndex * cfg.blockSize

section

variable {cfg : EngineConfig} {s s' : SchedulerState}

theorem lookupBehind_step (h : s.Inv cfg) (hp : Plans cfg s) {a : Action}
    (hs : schedulerStep cfg s a = some s') : LookupBehind cfg s' := by
  intro id hits n q p hphase hq hplan
  have ha := lookup_of_phase hs hphase
  subst ha
  obtain ⟨r, r', hit, -, hr, -, -, hg, rfl⟩ := SchedulerState.lookup_some hs
  obtain ⟨-, -, -, hlook, hcase⟩ :=
    KVCacheManager.getComputedBlocks_ok h.manager.pool_wf.toCacheWF h.locator hg
  cases hphase
  have hid : r'.requestId = id := by rw [hlook]; exact (h.request id r hr).id_eq
  have hq' : some r' = some q := by rw [← hq, ← hid]; exact (SchedulerState.setRequest_self s r').symm
  cases hq'
  rcases hcase with ⟨hoff, heq⟩ | ⟨-, hempty | ⟨p', source, ptoks, hp', hlocated⟩⟩
  · rw [heq, hp.lookups id _ hr hoff] at hplan
    cases hplan
  · rw [hempty p hplan]
    nofun
  · rw [hplan, Option.some.injEq] at hp'
    subst hp'
    exact fun c hc => (hlocated.located.candidate c hc).native_le

end

/-- **Without tokens of the connector, every admission after a lookup meets the condition**: also that
of a request that was preempted, which is looked up again. -/
theorem copiesBehind_of_native {K : Type} {cfg : EngineConfig} {compute : List K → Nat → K}
    {kv : KVMemory K} {s : State K} (hs : Reachable (step cfg compute) (State.init cfg kv) s)
    {id i : String} {hits : List Nat} {n : Nat} {a : SchedulerState.Admission}
    (hphase : s.scheduler.phase = .lookedUp i hits n) (h0 : a.numExternalComputedTokens = 0) :
    copiesBehind cfg s.scheduler (.admitWaiting id a) = true := by
  have hinv := inv_of_reachable hs
  have hlook : LookupBehind cfg s.scheduler :=
    (hs.invariant (fun s => (s.scheduler.Inv cfg ∧ Plans cfg s.scheduler) ∧
        LookupBehind cfg s.scheduler)
      ⟨⟨SchedulerState.init_inv cfg, plans_init cfg⟩, fun _ _ _ _ _ hp => by cases hp⟩
      (fun _ _ _ hp _ hst => ⟨⟨schedulerStep_inv hp.1.1 (schedulerStep_of_step hst),
        plans_step hp.1.1 hp.1.2 (schedulerStep_of_step hst)⟩,
        lookupBehind_step hp.1.1 hp.1.2 (schedulerStep_of_step hst)⟩) s).2
  rw [copiesBehind]
  cases hr : s.scheduler.requests id with
  | none => simp
  | some r =>
      cases hc : s.scheduler.computedBefore r with
      | none => simp [hc]
      | some x =>
          obtain ⟨-, -, ⟨hcomp, -, hp⟩ | ⟨-, -, -, hp⟩⟩ :=
            SchedulerState.computedBefore_spec hinv hr hc
          · have hid := (hinv.request id r hr).id_eq
            rw [hid] at hp
            dsimp only
            rw [hc]
            rw [Bool.or_eq_true]
            right
            rw [ScheduledRequest.plansBehind_iff]
            intro plan hplan c hcand
            obtain ⟨p, hp', hred⟩ := Option.bind_eq_some_iff.mp hplan
            obtain ⟨-, hsub, -⟩ := forRetainedSourceIds_some hred
            change r.numComputedTokens + x.2 + a.numExternalComputedTokens ≤ _
            rw [hcomp, h0, Nat.zero_add, Nat.add_zero]
            exact hlook id x.1 x.2 r p hp hr hp' c (hsub.subset hcand)
          · rw [hphase] at hp
            cases hp

end CacheSelect.Engine

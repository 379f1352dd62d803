import CacheSelect.Engine.Plans
import CacheSelect.Worker.BatchPlan

/-! # The worker's preparation of a step

The metrics of a request are made once, when it is added, and handed out after its first step; its
reused positions stay for all of its steps.  The preparation of a later step raises when its batch is
selective, because the metrics are gone: `preparation_ok_iff` says that this is the only way it can
raise, in every reachable state.
-/

namespace CacheSelect.Engine

open CacheSelect.Core CacheSelect.Worker Transition

/-! ### The stages of the worker's step -/

/-- The stages of a step of the worker that does not raise. -/
theorem executeModel_ok {K : Type} {cfg : EngineConfig} {compute : List K → Nat → K}
    {flags : BatchFlags} {s : SchedulerState} {w added w' : WorkerRequests} {kv kv' : KVMemory K}
    (h : executeModel cfg compute flags s w kv = .ok (added, w', kv')) :
    addedRequests cfg s w = .ok added ∧ ∃ w₁ kv₁ path w₂,
      applyBlockCopies cfg.toWorkerConfig added kv (s.newRequests.map NewRequestData.reqId)
        = .ok (w₁, kv₁) ∧
      prepareBatch cfg.toWorkerConfig (flagsOf cfg flags) w₁ (sortBatch s.batch) = .ok (path, w₂) ∧
      w' = takeRepairMetrics w₂ (s.batch.map BatchEntry.reqId) ∧
      kv' = forwardBatch cfg compute path s.batch (loadExternal cfg compute s kv₁) := by
  rw [executeModel] at h
  obtain ⟨a, ha, h⟩ := Except.bind_eq_ok.mp h
  obtain ⟨⟨w₁, kv₁⟩, h₁, h⟩ := Except.bind_eq_ok.mp h
  obtain ⟨⟨path, w₂⟩, h₂, h⟩ := Except.bind_eq_ok.mp h
  cases h
  exact ⟨ha, w₁, kv₁, path, w₂, h₁, h₂, rfl, rfl⟩

theorem recordCopies_same {w w' : WorkerRequests} {id : String}
    (h : recordCopies w id = .ok w') : SameWork w w' := by
  rw [recordCopies] at h
  split at h
  · next work metrics hwork hm =>
      split at h
      · cases h
        exact .refl _
      · obtain ⟨m, -, h⟩ := Except.bind_eq_ok.mp h
        cases h
        exact setMetrics_same hm m
  · split at h
    · cases h
      exact .refl _
    · cases h
  · cases h
    exact .refl _

theorem foldlM_recordCopies_same : ∀ {ids : List String} {w w' : WorkerRequests},
    ids.foldlM recordCopies w = .ok w' → SameWork w w' := by
  intro ids
  induction ids with
  | nil =>
      intro w w' h
      cases h
      exact .refl _
  | cons id ids ih =>
      intro w w' h
      rw [List.foldlM_cons] at h
      obtain ⟨w₁, h₁, h₂⟩ := Except.bind_eq_ok.mp h
      exact (recordCopies_same h₁).trans (ih h₂)

/-- The copies of a step, and what they leave of the runner's state. -/
theorem applyBlockCopies_ok {K : Type} {cfg : WorkerConfig} {w w' : WorkerRequests}
    {kv kv' : KVMemory K} {ids : List String} (h : applyBlockCopies cfg w kv ids = .ok (w', kv')) :
    SameWork w w' ∧ copyBlocks cfg kv (stepInstructions cfg w ids) = .ok kv' := by
  rw [applyBlockCopies] at h
  split at h
  · next hoff =>
      cases h
      refine ⟨.refl _, ?_⟩
      rw [stepInstructions, if_pos hoff, copyBlocks, if_neg (fun hx => hx.1 rfl)]
      rfl
  · obtain ⟨kv₁, h₁, h⟩ := Except.bind_eq_ok.mp h
    obtain ⟨w₁, h₂, h⟩ := Except.bind_eq_ok.mp h
    cases h
    exact ⟨foldlM_recordCopies_same h₂, h₁⟩

/-! ### The runner's requests -/

/-- The reused positions of all requests are in order. -/
def SortedWork (w : WorkerRequests) : Prop :=
  ∀ id, (reusedTokenIndicesOf w id).Pairwise (· < ·)

section

variable {cfg : EngineConfig} {s : SchedulerState}

theorem SortedWork.of_same {w w' : WorkerRequests} (h : SortedWork w) (hs : SameWork w w') :
    SortedWork w' := by
  intro id
  rw [hs.reusedTokenIndicesOf_eq]
  exact h id

theorem reuseOf_takeRepairMetrics (w : WorkerRequests) (ids : List String) (id : String) :
    reuseOf (takeRepairMetrics w ids) id = reuseOf w id := by
  rw [reuseOf, reuseOf, takeRepairMetrics]
  split
  · cases w id <;> rfl
  · rfl

/-- A request that is not new keeps what the runner has for it, unless it is forgotten. -/
theorem added_of_not_new (h : s.Inv cfg) {w added : WorkerRequests}
    (ha : addedRequests cfg s w = .ok added) {id : String}
    (hid : ∀ e ∈ s.scheduled, e.isNew = true → e.reqId ≠ id) :
    added id = finishRequests w s.forgottenReqIds id := by
  refine (addRequests_spec (nodup_newRequests h) ha).2 id ?_
  rintro hin
  obtain ⟨d, hd, hid'⟩ := List.mem_map.mp hin
  obtain ⟨e, r, he, -, hnew, rfl⟩ := mem_newRequests.mp hd
  exact hid e he hnew hid'

theorem sortedWork_added (h : s.Inv cfg) (hp : Plans cfg s) {w added : WorkerRequests}
    (hw : SortedWork w) (ha : addedRequests cfg s w = .ok added) : SortedWork added := by
  intro id
  rw [reusedTokenIndicesOf]
  split
  · exact List.Pairwise.nil
  · next work hwork =>
      by_cases hid : ∃ e ∈ s.scheduled, e.isNew = true ∧ e.reqId = id
      · obtain ⟨e, he, hnew, rfl⟩ := hid
        obtain ⟨r, hr, -⟩ := h.entry e he
        obtain ⟨plan, -, hok⟩ := reuseOf_added h hp ha he hr hnew hwork
        exact hok.reused_sorted
      · rw [reuseOf, added_of_not_new h ha fun e he hnew heq => hid ⟨e, he, hnew, heq⟩,
          finishRequests] at hwork
        split at hwork
        · cases hwork
        · have := hw id
          rw [reusedTokenIndicesOf, reuseOf, hwork] at this
          exact this

theorem mem_batch {b : BatchEntry} :
    b ∈ s.batch ↔ ∃ e r, e ∈ s.scheduled ∧ s.requests e.reqId = some r ∧ b = s.batchEntry e r := by
  rw [SchedulerState.batch, List.mem_map]
  constructor
  · rintro ⟨⟨e, r⟩, h, rfl⟩
    obtain ⟨he, hr⟩ := mem_scheduledRequests.mp h
    exact ⟨e, r, he, hr, rfl⟩
  · rintro ⟨e, r, he, hr, rfl⟩
    exact ⟨(e, r), mem_scheduledRequests.mpr ⟨he, hr⟩, rfl⟩

theorem batch_pos (h : s.Inv cfg) : ∀ b ∈ s.batch, 0 < b.numScheduledTokens := by
  intro b hb
  obtain ⟨e, r, he, -, rfl⟩ := mem_batch.mp hb
  obtain ⟨q, -, hok⟩ := h.entry e he
  exact hok.scheduled_pos

end

/-- Only the worker's step changes the runner's requests. -/
theorem worker_of_step {K : Type} {cfg : EngineConfig} {compute : List K → Nat → K} {s s' : State K}
    {a : Action} (hs : step cfg compute s a = some s') :
    s'.worker = s.worker ∨ ∃ flags added kv, a = .execute flags ∧
      executeModel cfg compute flags s.scheduler s.worker s.kv = .ok (added, s'.worker, kv) := by
  rw [step] at hs
  split at hs
  · cases hs
  · split at hs
    · next flags _ =>
        split at hs
        · cases hs
        · next added worker kv hex =>
            cases hs
            exact Or.inr ⟨flags, added, kv, rfl, hex⟩
    · cases hs
      exact Or.inl rfl

theorem sortedWork_step {K : Type} {cfg : EngineConfig} {compute : List K → Nat → K} {s s' : State K}
    (h : s.scheduler.Inv cfg) (hp : Plans cfg s.scheduler) (hw : SortedWork s.worker) {a : Action}
    (hs : step cfg compute s a = some s') : SortedWork s'.worker := by
  rcases worker_of_step hs with heq | ⟨flags, added, kv, -, hex⟩
  · rw [heq]
    exact hw
  · obtain ⟨ha, w₁, kv₁, path, w₂, h₁, h₂, hw', -⟩ := executeModel_ok hex
    have hadded := sortedWork_added h hp hw ha
    have hsorted₁ := hadded.of_same (applyBlockCopies_ok h₁).1
    have hsame := prepareBatch_same (fun e _ => hsorted₁ e.reqId)
      (fun e he => batch_pos h e (mem_sortBatch.mp he)) h₂
    intro id
    rw [hw', reusedTokenIndicesOf, reuseOf_takeRepairMetrics]
    exact hsorted₁.of_same hsame id

theorem sortedWork_of_reachable {K : Type} {cfg : EngineConfig} {compute : List K → Nat → K}
    {kv : KVMemory K} {s : State K} (hs : Reachable (step cfg compute) (State.init cfg kv) s) :
    SortedWork s.worker :=
  (hs.invariant (fun s => (s.scheduler.Inv cfg ∧ Plans cfg s.scheduler) ∧ SortedWork s.worker)
    ⟨⟨SchedulerState.init_inv cfg, plans_init cfg⟩, fun _ => List.Pairwise.nil⟩
    (fun _ _ _ hp _ hst => ⟨⟨schedulerStep_inv hp.1.1 (schedulerStep_of_step hst),
      plans_step hp.1.1 hp.1.2 (schedulerStep_of_step hst)⟩,
      sortedWork_step hp.1.1 hp.1.2 hp.2 hst⟩) s).2

/-- A later step of a request that is alone and prefilling, with a reused position in its chunk before
the last one, where the selective path is supported. -/
def LateReuse (cfg : EngineConfig) (flags : BatchFlags) (w : WorkerRequests)
    (batch : List BatchEntry) : Prop :=
  ∃ e, batch = [e] ∧ (w e.reqId).bind WorkerRequest.pendingMetrics = none ∧
    isPrefilling w e = true ∧ cfg.executePartialReuse = true ∧ unsupportedReason flags = none ∧
    ∃ t ∈ reusedTokenIndicesOf w e.reqId,
      e.numComputedTokens ≤ t ∧ t + 1 < e.numComputedTokens + e.numScheduledTokens

/-- The path of a step: all rows, or the rows that are not reused. -/
def IsPlannedPath (cfg : EngineConfig) (w : WorkerRequests) (batch : List BatchEntry)
    (path : ForwardPath) : Prop :=
  path = .full ∨ ∃ e, batch = [e] ∧ path = .spans
    (compactedBatch cfg.blockSize e (selectedRows (reusedTokenIndicesOf w e.reqId) e))

theorem protectedRows_ne_nil {reused : List Nat} {e : BatchEntry} :
    protectedRows reused e ≠ [] ↔ ∃ t ∈ reused,
      e.numComputedTokens ≤ t ∧ t + 1 < e.numComputedTokens + e.numScheduledTokens := by
  constructor
  · intro h
    obtain ⟨row, hrow⟩ := List.exists_mem_of_ne_nil _ h
    obtain ⟨ht, hlt⟩ := mem_protectedRows.mp hrow
    exact ⟨_, ht, Nat.le_add_right _ _, by omega⟩
  · rintro ⟨t, ht, h1, h2⟩
    refine List.ne_nil_of_mem (a := t - e.numComputedTokens) (mem_protectedRows.mpr ⟨?_, by omega⟩)
    rw [show e.numComputedTokens + (t - e.numComputedTokens) = t by omega]
    exact ht

/-- **When the preparation of a step raises**: exactly when the step is a later one of a request that
is alone, and reuses a position of its chunk.  Otherwise it takes the full or the selective path. -/
theorem preparation_ok_iff {K : Type} {cfg : EngineConfig} {compute : List K → Nat → K}
    {kv : KVMemory K} {s : State K} (hs : Reachable (step cfg compute) (State.init cfg kv) s)
    {added w : WorkerRequests} {kv' : KVMemory K}
    (ha : addedRequests cfg s.scheduler s.worker = .ok added)
    (hc : applyBlockCopies cfg.toWorkerConfig added s.kv
      (s.scheduler.newRequests.map NewRequestData.reqId) = .ok (w, kv')) (flags : BatchFlags) :
    (∃ path w', prepareBatch cfg.toWorkerConfig (flagsOf cfg flags) w (sortBatch s.scheduler.batch)
        = .ok (path, w') ∧ IsPlannedPath cfg w s.scheduler.batch path) ↔
      ¬ LateReuse cfg flags w s.scheduler.batch := by
  have hinv := inv_of_reachable hs
  have hsorted : SortedWork w :=
    (sortedWork_added hinv (plans_of_reachable hs) (sortedWork_of_reachable hs) ha).of_same
      (applyBlockCopies_ok hc).1
  have hlate : LateReuse cfg flags w s.scheduler.batch ↔
      ∃ e, Selective (flagsOf cfg flags) w (sortBatch s.scheduler.batch) e ∧
        (w e.reqId).bind WorkerRequest.pendingMetrics = none := by
    constructor
    · rintro ⟨e, halone, hnone, hpre, hex, hsup, hreuse⟩
      exact ⟨e, ⟨sortBatch_eq_singleton.mpr halone, hpre, hex, hsup,
        protectedRows_ne_nil.mpr hreuse⟩, hnone⟩
    · rintro ⟨e, ⟨halone, hpre, hex, hsup, hreuse⟩, hnone⟩
      exact ⟨e, sortBatch_eq_singleton.mp halone, hnone, hpre, hex, hsup,
        protectedRows_ne_nil.mp hreuse⟩
  rw [hlate]
  rcases prepareBatch_spec cfg.toWorkerConfig (flagsOf cfg flags)
      (fun e (_ : e ∈ sortBatch s.scheduler.batch) => hsorted e.reqId)
      (fun e he => batch_pos hinv e (mem_sortBatch.mp he)) with
    ⟨hnot, w', hok, -⟩ | ⟨e, hsel, ⟨hnone, herr⟩ | ⟨hsome, w', hok, -⟩⟩
  · refine ⟨?_, fun _ => ⟨.full, w', hok, Or.inl rfl⟩⟩
    rintro - ⟨e, hsel, -⟩
    exact hnot e hsel
  · constructor
    · rintro ⟨path, w', hok, -⟩
      rw [herr] at hok
      cases hok
    · intro h
      exact absurd ⟨e, hsel, hnone⟩ h
  · constructor
    · rintro - ⟨e', hsel', hnone⟩
      have heq := hsel.alone.symm.trans hsel'.alone
      rw [List.cons.injEq] at heq
      rw [heq.1, hnone] at hsome
      cases hsome
    · intro _
      exact ⟨_, w', hok, Or.inr ⟨e, sortBatch_eq_singleton.mp hsel.alone, rfl⟩⟩

/-! ### A reused block over the boundary of two chunks -/

/-- A worker that recomputes the changed blocks only. -/
def chunkedConfig : EngineConfig :=
  { smallEngine 9 with repairSelector := .editProximity 0 }

/-- A source is served; the first chunk of `target`, whose second block is the one of the source, has
three tokens and ends inside that block. -/
def chunkedRun : List Action :=
  serve { requestId := "source", promptTokenIds := some [1, 2, 7] } ++
    [.addRequest {
      requestId := "target"
      promptTokenIds := some [5, 6, 1, 2, 7]
      cacheselectSourceRequestId := some "source" }] ++
    admission "target" { numNewTokens := 3 }

/-- What the worker prepares from, with a test on it. -/
def preparesWith (cfg : EngineConfig) {K : Type}
    (test : WorkerRequests → List BatchEntry → Bool) (s : State K) : Bool :=
  match addedRequests cfg s.scheduler s.worker with
  | .error _ => false
  | .ok added =>
      match applyBlockCopies cfg.toWorkerConfig added s.kv
          (s.scheduler.newRequests.map NewRequestData.reqId) with
      | .error _ => false
      | .ok (w, _) => test w s.scheduler.batch

theorem preparesWith_spec {cfg : EngineConfig} {K : Type}
    {test : WorkerRequests → List BatchEntry → Bool} {s : State K}
    (h : preparesWith cfg test s = true) :
    ∃ added w kv, addedRequests cfg s.scheduler s.worker = .ok added ∧
      applyBlockCopies cfg.toWorkerConfig added s.kv
        (s.scheduler.newRequests.map NewRequestData.reqId) = .ok (w, kv) ∧
      test w s.scheduler.batch = true := by
  rw [preparesWith] at h
  split at h
  · cases h
  · next added ha =>
      split at h
      · cases h
      · next w kv hc => exact ⟨added, w, kv, ha, hc, h⟩

/-- Whether the preparation raises. -/
def prepareRaises (cfg : EngineConfig) (w : WorkerRequests) (batch : List BatchEntry) : Bool :=
  match prepareBatch cfg.toWorkerConfig (flagsOf cfg selectiveFlags) w (sortBatch batch) with
  | .error _ => true
  | .ok _ => false

/-- **A later chunk can raise**: the second one begins inside the reused block. -/
theorem later_chunk_raises :
    ∃ s : State Unit,
      Reachable (step chunkedConfig fun _ _ => ()) (State.init chunkedConfig fun _ _ => ()) s ∧
      ∃ added w kv, addedRequests chunkedConfig s.scheduler s.worker = .ok added ∧
        applyBlockCopies chunkedConfig.toWorkerConfig added s.kv
          (s.scheduler.newRequests.map NewRequestData.reqId) = .ok (w, kv) ∧
        ∀ x, prepareBatch chunkedConfig.toWorkerConfig (flagsOf chunkedConfig selectiveFlags) w
          (sortBatch s.scheduler.batch) ≠ .ok x := by
  obtain ⟨s, hs, hP⟩ := exists_reachableWhen (step chunkedConfig fun _ _ => ())
    (fun _ _ => True) (State.init chunkedConfig fun _ _ => ())
    (chunkedRun ++ [.execute selectiveFlags, .beginSchedule, .scheduleRunning "target" 2])
    (preparesWith chunkedConfig (prepareRaises chunkedConfig)) (by decide +kernel)
  obtain ⟨added, w, kv, ha, hc, hraises⟩ := preparesWith_spec hP
  refine ⟨s, hs, added, w, kv, ha, hc, fun x hx => ?_⟩
  rw [prepareRaises, hx] at hraises
  cases hraises

/-- The first chunk is prepared. -/
theorem first_chunk_prepared :
    ∃ s : State Unit,
      Reachable (step chunkedConfig fun _ _ => ()) (State.init chunkedConfig fun _ _ => ()) s ∧
      ∃ w path w', prepareBatch chunkedConfig.toWorkerConfig (flagsOf chunkedConfig selectiveFlags) w
          (sortBatch s.scheduler.batch) = .ok (path, w') ∧
        IsPlannedPath chunkedConfig w s.scheduler.batch path := by
  obtain ⟨s, hs, hP⟩ := exists_reachableWhen (step chunkedConfig fun _ _ => ())
    (fun _ _ => True) (State.init chunkedConfig fun _ _ => ()) chunkedRun
    (preparesWith chunkedConfig fun w batch => batch.all fun e =>
      ((w e.reqId).bind WorkerRequest.pendingMetrics).isSome) (by decide +kernel)
  obtain ⟨added, w, kv, ha, hc, hall⟩ := preparesWith_spec hP
  refine ⟨s, hs, w, (preparation_ok_iff hs ha hc selectiveFlags).mpr ?_⟩
  rintro ⟨e, he, hnone, -⟩
  have := List.all_eq_true.mp hall e (by rw [he]; exact List.mem_singleton_self e)
  rw [hnone] at this
  cases this

end CacheSelect.Engine

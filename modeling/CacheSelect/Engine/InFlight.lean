import CacheSelect.Engine.SchedulerInvariant
import Mathlib.Algebra.Ring.Nat

/-! # Steps in flight

With pipeline parallelism or async scheduling the engine schedules the next step while the last ones
are still with the worker: `submitted` steps wait for the worker, `executed` ones for
`update_from_output`; both are first in, first out.  Without overlap the engine waits for the worker
after every call of `schedule`.

Blocks that a step in flight may still use are freed behind a fence (`deferredFrees`) when steps overlap
and a KV connector loads into this engine; everything else that writes KV runs in the order of the steps.

Placeholders for tokens that are not sampled yet are left out: a request is scheduled for the tokens it
has.
-/

namespace CacheSelect.Engine

open CacheSelect.Core

structure InFlightConfig extends EngineConfig where
  maxConcurrentBatches : Nat := 1
  isKvConsumer : Bool := false

/-- The engine waits for each step. -/
def InFlightConfig.synchronous (cfg : InFlightConfig) : Bool :=
  decide (cfg.maxConcurrentBatches ≤ 1)

/-- `defer_block_free`. -/
def InFlightConfig.deferBlockFree (cfg : InFlightConfig) : Bool :=
  !cfg.synchronous && cfg.isKvConsumer

/-- An entry of `deferred_frees`. -/
structure DeferredFree where
  fenceSeq : Nat
  blocks : List Nat
  /-- History: whether these are retained sources, not the blocks of a request. -/
  retained : Bool
deriving DecidableEq, Repr

/-- A source block with the hash it had when it was retained. -/
structure RetainedSource where
  blockId : Nat
  blockHash : Option BlockHash
deriving DecidableEq, Repr

/-- A scheduled step on its way through the worker. -/
structure StepOutput where
  totalNumScheduledTokens : Nat
  /-- History: the fence of the blocks retained for the step. -/
  fenceSeq : Nat
  /-- History: the sources retained for the step. -/
  sources : List RetainedSource
deriving DecidableEq, Repr

structure InFlightState where
  scheduler : SchedulerState
  schedStepSeq : Nat := 0
  processedStepSeq : Nat := 0
  deferredFrees : List DeferredFree := []
  lastSchedSeq : String → Nat := fun _ => 0
  submitted : List StepOutput := []
  executed : List StepOutput := []
  /-- History: the sources retained by the current call of `schedule`. -/
  sources : List RetainedSource := []
  /-- History: the block of every reference that retaining sources took so far. -/
  taken : List Nat := []
  /-- History: the block of every such reference that was released. -/
  released : List Nat := []

namespace InFlightState

def init (cfg : InFlightConfig) : InFlightState where
  scheduler := SchedulerState.init cfg.toEngineConfig

/-! ### Freeing -/

/-- `_free_request_blocks`. -/
def freeRequestBlocks (cfg : InFlightConfig) (s : InFlightState) (r : Request) (isFinished : Bool) :
    KVCacheManager × List DeferredFree :=
  if cfg.deferBlockFree = false ∨ s.lastSchedSeq r.requestId ≤ s.processedStepSeq then
    (s.scheduler.manager.free cfg.toManagerConfig r isFinished, s.deferredFrees)
  else
    let (blocks, m) := s.scheduler.manager.popBlocksForFree cfg.toManagerConfig r isFinished
    (m, if blocks = [] then s.deferredFrees
      else s.deferredFrees ++ [{ fenceSeq := s.schedStepSeq, blocks := blocks, retained := false }])

/-- Whether `_free_retained_blocks` frees at once. -/
def freesNow (cfg : InFlightConfig) (s : InFlightState) (fenceSeq : Nat) : Bool :=
  !cfg.deferBlockFree || decide (fenceSeq ≤ s.processedStepSeq)

/-- `_drain_deferred_frees`: the frees that are left, and those whose fence step is over. -/
def drainDeferredFrees (processedStepSeq : Nat) :
    List DeferredFree → BlockPool → List DeferredFree × BlockPool
  | [], pool => ([], pool)
  | d :: ds, pool =>
      if processedStepSeq < d.fenceSeq then (d :: ds, pool)
      else drainDeferredFrees processedStepSeq ds (pool.freeBlocks d.blocks.reverse)

/-- The blocks of the retained sources among some deferred frees. -/
def retainedIn (ds : List DeferredFree) : List Nat :=
  (ds.filter DeferredFree.retained).flatMap DeferredFree.blocks

/-- The blocks of all deferred frees. -/
def heldIn (ds : List DeferredFree) : List Nat :=
  ds.flatMap DeferredFree.blocks

/-! ### Steps -/

def addRequest (cfg : InFlightConfig) (s : InFlightState) (r : Request) : Option InFlightState :=
  (s.scheduler.addRequest cfg.toEngineConfig r).map fun sched =>
    { s with
      scheduler := sched
      lastSchedSeq := Function.update s.lastSchedSeq r.requestId 0 }

/-- A request stops or is aborted, maybe with a step in flight. -/
def finish (cfg : InFlightConfig) (s : InFlightState) (reqId : String) : Option InFlightState :=
  match s.scheduler.requests reqId with
  | none => none
  | some r =>
      (s.scheduler.finish cfg.toEngineConfig reqId).map fun sched =>
        let (m, deferredFrees) := s.freeRequestBlocks cfg r true
        { s with scheduler := { sched with manager := m }, deferredFrees := deferredFrees }

/-- `_preempt_request`. -/
def preempt (cfg : InFlightConfig) (s : InFlightState) (reqId : String) : Option InFlightState :=
  match s.scheduler.requests reqId with
  | none => none
  | some r =>
      (s.scheduler.preempt cfg.toEngineConfig reqId).map fun sched =>
        let (m, deferredFrees) := s.freeRequestBlocks cfg r false
        { s with scheduler := { sched with manager := m }, deferredFrees := deferredFrees }

/-- The engine calls `schedule` when its queue of batches has room. -/
def beginSchedule (cfg : InFlightConfig) (s : InFlightState) : Option InFlightState :=
  if s.submitted.length + s.executed.length < cfg.maxConcurrentBatches then
    s.scheduler.beginSchedule.map fun sched => { s with scheduler := sched }
  else none

/-- The sources that an admission of a request retains. -/
def retainedSources (cfg : InFlightConfig) (s : InFlightState) (reqId : String) :
    List RetainedSource :=
  match s.scheduler.requests reqId with
  | none => []
  | some r => (s.scheduler.manager.retainPartialReuseSources cfg.toManagerConfig r).1.map fun b =>
      ⟨b, (s.scheduler.manager.pool.blocks b).blockHash⟩

/-- An admission; one that finds no room has released its sources again. -/
def admitWaiting (cfg : InFlightConfig) (s : InFlightState) (reqId : String)
    (a : SchedulerState.Admission) : Option InFlightState :=
  (s.scheduler.admitWaiting cfg.toEngineConfig reqId a).map fun sched =>
    let sources := s.retainedSources cfg reqId
    let blocks := sources.map RetainedSource.blockId
    let s' := { s with scheduler := sched, taken := s.taken ++ blocks }
    if sched.phase = .stopped then { s' with released := s.released ++ blocks }
    else { s' with sources := s.sources ++ sources }

/-- The end of a call: free the retained sources now or behind the fence of the step, and hand the
step to the worker. -/
def submit (cfg : InFlightConfig) (s : InFlightState) : Option InFlightState :=
  if SchedulerState.isScheduling s.scheduler.phase = true then
    let sched := s.scheduler
    let total := (sched.scheduled.map ScheduledRequest.numScheduledTokens).sum
    let fenceSeq := s.schedStepSeq + 1
    let now := s.freesNow cfg fenceSeq
    let pool := if now = true then sched.manager.pool.freeBlocks sched.retainedBlocks
      else sched.manager.pool
    let schedStepSeq := if cfg.deferBlockFree = true ∧ 0 < total then s.schedStepSeq + 1
      else s.schedStepSeq
    some { s with
      scheduler := { sched.finishSchedule with manager := { sched.manager with pool := pool } }
      schedStepSeq := schedStepSeq
      deferredFrees := if now = true ∨ sched.retainedBlocks = [] then s.deferredFrees
        else s.deferredFrees ++
          [{ fenceSeq := fenceSeq, blocks := sched.retainedBlocks.reverse, retained := true }]
      lastSchedSeq := fun id =>
        if cfg.deferBlockFree = true ∧ sched.isScheduled id = true then schedStepSeq
        else s.lastSchedSeq id
      submitted := s.submitted ++
        [{ totalNumScheduledTokens := total, fenceSeq := fenceSeq, sources := s.sources }]
      sources := []
      released := if now = true then s.released ++ sched.retainedBlocks else s.released }
  else none

/-- The worker runs the oldest step, its copies first. -/
def runWorker (s : InFlightState) : Option InFlightState :=
  match s.submitted with
  | [] => none
  | step :: rest => some { s with submitted := rest, executed := s.executed ++ [step] }

/-- `update_from_output` of the oldest step that was run. -/
def update (cfg : InFlightConfig) (s : InFlightState) : Option InFlightState :=
  match s.scheduler.phase, s.executed with
  | .idle, step :: rest =>
      if cfg.deferBlockFree = true ∧ 0 < step.totalNumScheduledTokens then
        let processedStepSeq := s.processedStepSeq + 1
        let (left, pool) :=
          drainDeferredFrees processedStepSeq s.deferredFrees s.scheduler.manager.pool
        let due := s.deferredFrees.take (s.deferredFrees.length - left.length)
        some { s with
          scheduler := { s.scheduler with manager := { s.scheduler.manager with pool := pool } }
          processedStepSeq := processedStepSeq
          deferredFrees := left
          executed := rest
          released := s.released ++ retainedIn due }
      else some { s with executed := rest }
  | _, _ => none

/-- The engine waits for the worker. -/
def waits (cfg : InFlightConfig) (s : InFlightState) : Bool :=
  cfg.synchronous && !s.submitted.isEmpty

/-- A step of the scheduler; `execute` closes a call. -/
def scheduleStep (cfg : InFlightConfig) (s : InFlightState) : Action → Option InFlightState
  | .addRequest r => s.addRequest cfg r
  | .finish reqId => s.finish cfg reqId
  | .preempt reqId => s.preempt cfg reqId
  | .beginSchedule => s.beginSchedule cfg
  | .admitWaiting reqId a => s.admitWaiting cfg reqId a
  | .execute _ => s.submit cfg
  | a => (schedulerStep cfg.toEngineConfig s.scheduler a).map fun sched =>
      { s with scheduler := sched }

end InFlightState

inductive InFlightAction
  | schedule (a : Action)
  | runWorker
  | update

/-- One step of the engine with several steps in flight. -/
def inFlightStep (cfg : InFlightConfig) (s : InFlightState) : InFlightAction → Option InFlightState
  | .schedule a => if s.waits cfg = true then none else s.scheduleStep cfg a
  | .runWorker => s.runWorker
  | .update => s.update cfg

end CacheSelect.Engine

import CacheSelect.Engine.Scheduler
import CacheSelect.Lib.Transition

/-! # The engine: scheduler, worker and KV memory

`State` joins the scheduler with the worker's requests and the KV memory.  All scheduler steps leave
the worker alone; `execute` closes a call of `schedule` and runs the worker's step: forget and add
requests, copy the source blocks, load external KV, prepare the batch, and run the forward pass on the
path that the preparation chose.

The forward computes the requests of the batch in the order they were scheduled.  In the batch each
layer writes the keys and values of all rows before any row attends, so that a row may depend on any
other row of the step; a prefix hit on blocks of the same step is always on a request that was
scheduled earlier, and the order of scheduling is one that respects these dependencies.

The KV of a token depends on tokens only; what the connector loads is taken to be exact.
-/

namespace CacheSelect.Engine

open CacheSelect.Core CacheSelect.Worker

structure State (K : Type) where
  scheduler : SchedulerState
  worker : WorkerRequests := fun _ => none
  kv : KVMemory K
  /-- History: the blocks of a request that a copy filled with KV of another prefix. -/
  foreignBlocks : String → List Nat := fun _ => []
  /-- History: the ids of all requests so far. -/
  addedReqIds : List String := []

def State.init {K : Type} (cfg : EngineConfig) (kv : KVMemory K) : State K where
  scheduler := SchedulerState.init cfg
  kv := kv

/-! ### The worker's step -/

section Worker

variable {K : Type} (cfg : EngineConfig) (compute : List K → Nat → K)

/-- Load exact KV for a range of a request's positions. -/
def loadPositions (blockSize : Nat) (tokenIds : List Nat) (blockIds : List Nat)
    (positions : List Nat) (kv : KVMemory K) : KVMemory K :=
  positions.foldl
    (fun kv p => writeRow kv blockSize blockIds p (exactRow compute tokenIds p)) kv

/-- The synchronous loads of the connector, before the forward. -/
def loadExternal (s : SchedulerState) (kv : KVMemory K) : KVMemory K :=
  s.scheduledRequests.foldl
    (fun kv (e, r) => loadPositions compute cfg.blockSize r.allTokenIds
      (s.manager.reqToBlocks e.reqId)
      (List.range' e.numLocalComputedTokens (e.numComputedTokens - e.numLocalComputedTokens)) kv) kv

/-- The forward of one request over some of its positions. -/
def forwardEntry (e : BatchEntry) (positions : List Nat) (kv : KVMemory K) : KVMemory K :=
  forwardPositions compute cfg.blockSize e.tokenIds e.blockIds positions kv

/-- The forward of a batch on the chosen path. -/
def forwardBatch (path : ForwardPath) (entries : List BatchEntry) (kv : KVMemory K) :
    KVMemory K :=
  match path with
  | .full => entries.foldl (fun kv e => forwardEntry cfg compute e (chunkPositions e) kv) kv
  | .spans batch =>
      entries.foldl
        (fun kv e => batch.spanModelInputs.foldl
          (fun kv inputs => forwardEntry cfg compute e inputs.2 kv) kv) kv

/-- A copy that brings the exact KV: the source block is finished and registered under the very hash
of the target block. -/
def exactCopy (s : SchedulerState) (r : Request) (i : PartialReuseCopyInstruction) : Bool :=
  !i.requiresRepacking && s.forwarded i.sourceBlockId &&
    (s.manager.pool.blocks i.sourceBlockId).blockHash
      == some (r.blockHashAt cfg.blockSize i.targetBlockIndex)

/-- The blocks that a request's copies fill with KV of another prefix. -/
def foreignTargets (s : SchedulerState) (w : WorkerRequests) (r : Request) : List Nat :=
  ((copyInstructionsOf w r.requestId).filter fun i => !exactCopy cfg s r i).map
    PartialReuseCopyInstruction.targetBlockIndex

/-- The worker's requests when the step's new requests have been added. -/
def addedRequests (s : SchedulerState) (w : WorkerRequests) : Except PyError WorkerRequests :=
  addRequests cfg.toWorkerConfig (finishRequests w s.forgottenReqIds) s.newRequests

def flagsOf (flags : BatchFlags) : BatchFlags :=
  { flags with executionEnabled := cfg.executePartialReuse }

/-- The worker's part of a step, for the scheduler state at the end of `schedule`. -/
def executeModel (flags : BatchFlags) (s : SchedulerState) (w : WorkerRequests) (kv : KVMemory K) :
    Except PyError (WorkerRequests × WorkerRequests × KVMemory K) := do
  let added ← addedRequests cfg s w
  let (w, kv) ← applyBlockCopies cfg.toWorkerConfig added kv
    (s.newRequests.map NewRequestData.reqId)
  let kv := loadExternal cfg compute s kv
  let (path, w) ← prepareBatch cfg.toWorkerConfig (flagsOf cfg flags) w (sortBatch s.batch)
  let kv := forwardBatch cfg compute path s.batch kv
  .ok (added, takeRepairMetrics w (s.batch.map BatchEntry.reqId), kv)

end Worker

/-! ### The step function -/

inductive Action
  | addRequest (r : Request)
  | appendOutput (reqId : String) (tokenId : Nat)
  | finish (reqId : String)
  | resetPrefixCache
  | beginSchedule
  | scheduleRunning (reqId : String) (numNewTokens : Nat)
  | preempt (reqId : String)
  | beginWaiting
  | lookup (reqId : String)
  | skip
  | admitWaiting (reqId : String) (a : SchedulerState.Admission)
  | promoteRemote (reqId : String)
  | execute (flags : BatchFlags)

/-- The steps of the scheduler alone. -/
def schedulerStep (cfg : EngineConfig) (s : SchedulerState) : Action → Option SchedulerState
  | .addRequest r => s.addRequest cfg r
  | .appendOutput reqId tokenId => s.appendOutput cfg reqId tokenId
  | .finish reqId => s.finish cfg reqId
  | .resetPrefixCache => s.resetPrefixCache cfg
  | .beginSchedule => s.beginSchedule
  | .scheduleRunning reqId n => s.scheduleRunning cfg reqId n
  | .preempt reqId => s.preempt cfg reqId
  | .beginWaiting => s.beginWaiting
  | .lookup reqId => s.lookup cfg reqId
  | .skip => s.skip
  | .admitWaiting reqId a => s.admitWaiting cfg reqId a
  | .promoteRemote reqId => s.promoteRemote cfg reqId
  | .execute _ =>
      if SchedulerState.isScheduling s.phase = true then some s.finishSchedule else none

/-- What a step does to the KV memory outside of `execute`: an asynchronous load has written the
blocks of the request it is over for. -/
def arrivedKv {K : Type} (cfg : EngineConfig) (compute : List K → Nat → K) (s : SchedulerState)
    (kv : KVMemory K) : Action → KVMemory K
  | .promoteRemote reqId =>
      match s.requests reqId with
      | none => kv
      | some r =>
          let first := s.manager.numRegistered reqId * cfg.blockSize
          loadPositions compute cfg.blockSize r.allTokenIds (s.manager.reqToBlocks reqId)
            (List.range' first (r.numComputedTokens - first)) kv
  | _ => kv

/-- The ids of all requests, after an action. -/
def addedIds (ids : List String) : Action → List String
  | .addRequest r => r.requestId :: ids
  | _ => ids

/-- One step of the engine; a refused action or an exception gives no next state. -/
def step {K : Type} (cfg : EngineConfig) (compute : List K → Nat → K) (s : State K) (a : Action) :
    Option (State K) :=
  match schedulerStep cfg s.scheduler a with
  | none => none
  | some scheduler =>
      match a with
      | .execute flags =>
          match executeModel cfg compute flags s.scheduler s.worker s.kv with
          | .error _ => none
          | .ok (added, worker, kv) =>
              some { s with
                scheduler := scheduler
                worker := worker
                kv := kv
                foreignBlocks := fun id =>
                  match s.scheduler.scheduledRequests.find? fun x =>
                      x.1.isNew && x.1.reqId == id with
                  | some x => foreignTargets cfg s.scheduler added x.2
                  | none => s.foreignBlocks id }
      | a => some { s with
          scheduler := scheduler
          kv := arrivedKv cfg compute s.scheduler s.kv a
          addedReqIds := addedIds s.addedReqIds a }

/-! ### Runs of one request -/

/-- A call of `schedule` up to the admission of one waiting request. -/
def admission (id : String) (a : SchedulerState.Admission) : List Action :=
  [.beginSchedule, .beginWaiting, .lookup id, .admitWaiting id a]

/-- The circumstances under which a batch may take the selective path. -/
def selectiveFlags : BatchFlags where
  executionEnabled := true
  promptLogprobs := false
  singleGpu := true
  eagerExecution := true
  supportedKvLayout := true
  speculativeDecoding := false
  multimodalModel := false
  encoderDecoderModel := false
  poolingModel := false

/-- The whole life of a request that is alone: one step for its prompt, a sampled token, the end. -/
def serve (r : Request) : List Action :=
  .addRequest r :: admission r.requestId { numNewTokens := r.numTokens } ++
    [.execute selectiveFlags, .appendOutput r.requestId 0, .finish r.requestId]

end CacheSelect.Engine

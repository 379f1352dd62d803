import CacheSelect.Core.KVCacheManager
import CacheSelect.Worker.ModelRunner

/-! # The scheduler's steps

One call of `Scheduler.schedule` is a run of small steps: first the running requests get slots, with
preemption when there is no room (`scheduleRunning`, `preempt`); then, if none was preempted, waiting
requests are looked up in the caches (`lookup`) and admitted (`admitWaiting`), and requests whose remote KV
has arrived are promoted (`promoteRemote`).  `output` is what the worker gets, and `finishSchedule`
closes the call.  Between two calls requests are added, get sampled tokens and finish, and the prefix
cache may be reset.

The policy of the scheduler (queues, the order in which preempted requests are resumed, token budgets, LoRA
limits) only decides which of these steps come when; here any step comes whenever its guard holds.  An answer
of the KV connector is an argument of `admitWaiting`.

Some paths are left out: loads that fail and the blocks they make invalid, the abort of a request whose transfer
is in flight, speculative decoding, prompt embeddings and encoder inputs.  Two are added on top: deferred block
frees with steps in flight (`InFlight`), and sessions with streaming input, which keep their plan and are admitted
again without a lookup (`StreamingSessions`).

`forwarded` is a history variable that the code does not have: it says that the KV of a block was
written by a forward pass, or a load, that is finished.  Taking a block for new tokens resets it.
-/

namespace CacheSelect.Engine

open CacheSelect.Core CacheSelect.Worker

structure EngineConfig extends ManagerConfig, WorkerConfig where
  numBlocks_pos : 0 < numBlocks
  numLookaheadTokens : Nat := 0
  schedulerReserveFullIsl : Bool := false

/-- A small engine: blocks of two tokens, and some blocks beside the null block. -/
def smallEngine (usableBlocks : Nat) : EngineConfig where
  blockSize := 2
  maxModelLen := 16
  numBlocks := usableBlocks + 1
  numBlocks_pos := Nat.succ_pos usableBlocks

/-- Where a call of `schedule` stands. -/
inductive Phase
  | idle
  | schedulingRunning (preempted : Bool)
  | schedulingWaiting
  /-- A waiting request has been looked up and not been decided on. -/
  | lookedUp (reqId : String) (computedBlocks : List Nat) (numLocalTokens : Nat)
  /-- A request found no room; the call admits no other. -/
  | stopped
deriving DecidableEq, Repr

/-- A request that the current call of `schedule` has given tokens to. -/
structure ScheduledRequest where
  reqId : String
  /-- Whether it is forwarded as a new request, with its plan. -/
  isNew : Bool
  numComputedTokens : Nat
  /-- The computed tokens without those the connector loads in this step. -/
  numLocalComputedTokens : Nat
  numScheduledTokens : Nat
  partialReusePlan : Option PartialReusePlan := none
deriving DecidableEq, Repr

structure SchedulerState where
  manager : KVCacheManager
  requests : String → Option Request := fun _ => none
  phase : Phase := .idle
  scheduled : List ScheduledRequest := []
  /-- `partial_reuse_retained_blocks`. -/
  retainedBlocks : List Nat := []
  /-- `finished_req_ids` and `reset_preempted_req_ids`: what the worker has to forget. -/
  forgottenReqIds : List String := []
  forwarded : Nat → Bool := fun _ => false

namespace SchedulerState

def init (cfg : EngineConfig) : SchedulerState where
  manager := { pool := BlockPool.init cfg.numBlocks }

def setRequest (s : SchedulerState) (r : Request) : SchedulerState :=
  { s with requests := Function.update s.requests r.requestId (some r) }

/-- The request's blocks from an index on are to be written: what they held is not finished KV of
their new content. -/
def markPending (s : SchedulerState) (reqId : String) (firstBlock : Nat) : SchedulerState :=
  let pending := (s.manager.reqToBlocks reqId).drop firstBlock
  { s with forwarded := fun b => if b ∈ pending then false else s.forwarded b }

def isScheduled (s : SchedulerState) (reqId : String) : Bool :=
  s.scheduled.any fun e => e.reqId == reqId

/-! ### Between two calls -/

/-- `add_request`. -/
def addRequest (cfg : EngineConfig) (s : SchedulerState) (r : Request) : Option SchedulerState :=
  if s.phase = .idle ∧ s.requests r.requestId = none ∧ r.promptTokenIds.isSome = true ∧
      r.outputTokenIds = [] ∧ r.status = .waiting ∧ r.numComputedTokens = 0 ∧
      r.numPreemptions = 0 ∧ r.partialReusePlan = none ∧ 0 < r.numTokens ∧
      r.numTokens ≤ cfg.maxModelLen then
    some (s.setRequest r)
  else none

/-- A token sampled after the request's last known token has been computed. -/
def appendOutput (cfg : EngineConfig) (s : SchedulerState) (reqId : String) (tokenId : Nat) :
    Option SchedulerState :=
  match s.requests reqId with
  | none => none
  | some r =>
      if s.phase = .idle ∧ r.status = .running ∧ r.numComputedTokens = r.numTokens ∧
          r.numTokens < cfg.maxModelLen then
        some (s.setRequest { r with outputTokenIds := r.outputTokenIds ++ [tokenId] })
      else none

/-- A request stops or is aborted: its blocks are indexed and freed. -/
def finish (cfg : EngineConfig) (s : SchedulerState) (reqId : String) : Option SchedulerState :=
  match s.requests reqId with
  | none => none
  | some r =>
      -- a request with a transfer in flight keeps its blocks until the transfer is over
      if s.phase = .idle ∧ r.status ≠ .waitingForRemoteKvs then
        some { s with
          manager := s.manager.free cfg.toManagerConfig r true
          requests := Function.update s.requests reqId none
          forgottenReqIds := reqId :: s.forgottenReqIds }
      else none

def resetPrefixCache (cfg : EngineConfig) (s : SchedulerState) : Option SchedulerState :=
  if s.phase = .idle then
    (s.manager.resetPrefixCache cfg.toManagerConfig).map fun m => { s with manager := m }
  else none

/-! ### The running requests -/

def beginSchedule (s : SchedulerState) : Option SchedulerState :=
  if s.phase = .idle then some { s with phase := .schedulingRunning false } else none

/-- The entry of a running request. -/
def runningEntry (r : Request) (numNewTokens : Nat) : ScheduledRequest where
  reqId := r.requestId
  isNew := false
  numComputedTokens := r.numComputedTokens
  numLocalComputedTokens := r.numComputedTokens
  numScheduledTokens := numNewTokens

/-- A running request enters the step. -/
def enterRunning (s : SchedulerState) (r : Request) (numNewTokens : Nat) (m : KVCacheManager) :
    SchedulerState :=
  { s with manager := m, scheduled := s.scheduled ++ [runningEntry r numNewTokens] }

/-- The state after a running request got its slots. -/
def afterRunning (s : SchedulerState) (r : Request) (numNewTokens : Nat) (m : KVCacheManager) :
    SchedulerState :=
  (s.enterRunning r numNewTokens m).markPending r.requestId
    (s.manager.numRegistered r.requestId)

def runningArgs (cfg : EngineConfig) (numNewTokens : Nat) : KVCacheManager.AllocateArgs where
  numNewTokens := numNewTokens
  numLookaheadTokens := cfg.numLookaheadTokens

/-- A running request gets slots for its next tokens. -/
def scheduleRunning (cfg : EngineConfig) (s : SchedulerState) (reqId : String)
    (numNewTokens : Nat) : Option SchedulerState :=
  match s.phase, s.requests reqId with
  | .schedulingRunning _, some r =>
      if r.status = .running ∧ s.isScheduled reqId = false ∧ 0 < numNewTokens ∧
          r.numComputedTokens + numNewTokens ≤ r.numTokens then
        match s.manager.allocateSlots cfg.toManagerConfig r (runningArgs cfg numNewTokens) with
        | .ok (some _, m) => some (s.afterRunning r numNewTokens m)
        | _ => none
      else none
  | _, _ => none

/-- The state after a preemption. -/
def afterPreemption (cfg : EngineConfig) (s : SchedulerState) (r : Request) : SchedulerState :=
  let s' := { s with
    manager := s.manager.free cfg.toManagerConfig r false
    phase := .schedulingRunning true
    scheduled := s.scheduled.filter fun e => e.reqId != r.requestId
    forgottenReqIds := r.requestId :: s.forgottenReqIds }
  s'.setRequest { r with
    status := .preempted
    numComputedTokens := 0
    numPreemptions := r.numPreemptions + 1 }

/-- `_preempt_request`, also of a request that was scheduled before it in this call. -/
def preempt (cfg : EngineConfig) (s : SchedulerState) (reqId : String) : Option SchedulerState :=
  match s.phase, s.requests reqId with
  | .schedulingRunning _, some r =>
      if r.status = .running then some (s.afterPreemption cfg r) else none
  | _, _ => none

/-! ### The waiting requests -/

def beginWaiting (s : SchedulerState) : Option SchedulerState :=
  if s.phase = .schedulingRunning false then some { s with phase := .schedulingWaiting } else none

def isWaiting (r : Request) : Bool :=
  r.status = .waiting || r.status = .preempted

/-- `get_computed_blocks` of the request at the head of the queue. -/
def lookup (cfg : EngineConfig) (s : SchedulerState) (reqId : String) : Option SchedulerState :=
  match s.phase, s.requests reqId with
  | .schedulingWaiting, some r =>
      if isWaiting r = true ∧ r.numComputedTokens = 0 then
        match s.manager.getComputedBlocks cfg.toManagerConfig r with
        | .ok (hit, r') => some { s.setRequest r' with phase := .lookedUp reqId hit.1 hit.2 }
        | .error _ => none
      else none
  | _, _ => none

/-- The request that was looked up is not admitted in this call. -/
def skip (s : SchedulerState) : Option SchedulerState :=
  match s.phase with
  | .lookedUp _ _ _ => some { s with phase := .schedulingWaiting }
  | _ => none

/-- The circumstances of an admission: the tokens to schedule, the connector's answer and the head
room asked for. -/
structure Admission where
  numNewTokens : Nat
  numExternalComputedTokens : Nat := 0
  loadKvAsync : Bool := false
  reservedBlocks : Nat := 0
  hasScheduledReqs : Bool := true
deriving DecidableEq, Repr

/-- The arguments `schedule` passes to `allocate_slots`. -/
def admissionArgs (cfg : EngineConfig) (a : Admission) (computedBlocks : List Nat)
    (numLocalTokens : Nat) : KVCacheManager.AllocateArgs where
  numNewTokens := a.numNewTokens
  numNewComputedTokens := numLocalTokens
  newComputedBlocks := computedBlocks
  numLookaheadTokens := if a.loadKvAsync = true then 0 else cfg.numLookaheadTokens
  numExternalComputedTokens := a.numExternalComputedTokens
  delayCacheBlocks := a.loadKvAsync
  fullSequenceMustFit := cfg.schedulerReserveFullIsl
  reservedBlocks := if a.loadKvAsync = true then a.reservedBlocks else 0
  hasScheduledReqs := a.hasScheduledReqs

/-- What was computed for the request before: a fresh lookup, or the tokens that an asynchronous
load has brought. -/
def computedBefore (s : SchedulerState) (r : Request) : Option (List Nat × Nat) :=
  match s.phase with
  | .lookedUp reqId computedBlocks numLocalTokens =>
      if reqId = r.requestId then some (computedBlocks, numLocalTokens) else none
  | .schedulingWaiting => if r.numComputedTokens ≠ 0 then some ([], 0) else none
  | _ => none

/-- The guard on an admission's numbers. -/
def admissible (r : Request) (a : Admission) (numLocalTokens : Nat) : Prop :=
  let computed := r.numComputedTokens + numLocalTokens + a.numExternalComputedTokens
  computed ≤ r.numTokens ∧ (0 < r.numComputedTokens → a.numExternalComputedTokens = 0) ∧
    if a.loadKvAsync = true then 0 < a.numExternalComputedTokens ∧ a.numNewTokens = 0
    else 0 < a.numNewTokens ∧ computed + a.numNewTokens ≤ r.numTokens

instance (r : Request) (a : Admission) (n : Nat) : Decidable (admissible r a n) := by
  unfold admissible; infer_instance

/-- The request after its admission. -/
def admittedRequest (r : Request) (a : Admission) (numLocalTokens : Nat) : Request :=
  { r with
    status := if a.loadKvAsync = true then .waitingForRemoteKvs else .running
    numComputedTokens := r.numComputedTokens + numLocalTokens + a.numExternalComputedTokens }

/-- The entry of an admitted request: its plan is reduced to the pinned sources. -/
def admittedEntry (r : Request) (a : Admission) (numLocalTokens : Nat) (retained : List Nat) :
    ScheduledRequest where
  reqId := r.requestId
  isNew := true
  numComputedTokens := r.numComputedTokens + numLocalTokens + a.numExternalComputedTokens
  numLocalComputedTokens := r.numComputedTokens + numLocalTokens
  numScheduledTokens := a.numNewTokens
  partialReusePlan := r.partialReusePlan.bind fun p => p.forRetainedSourceIds retained

/-- The request enters the step.  One whose tokens are loaded asynchronously does not, but its
sources stay pinned to the end of the call. -/
def enterStep (s : SchedulerState) (r : Request) (a : Admission) (numLocalTokens : Nat)
    (retained : List Nat) (m : KVCacheManager) : SchedulerState :=
  let s' := { s with
    manager := m
    phase := .schedulingWaiting
    retainedBlocks := s.retainedBlocks ++ retained
    scheduled := if a.loadKvAsync = true then s.scheduled
      else s.scheduled ++ [admittedEntry r a numLocalTokens retained] }
  s'.setRequest (admittedRequest r a numLocalTokens)

/-- The state after an admission. -/
def afterAdmission (s : SchedulerState) (r : Request) (a : Admission) (computedBlocks : List Nat)
    (numLocalTokens : Nat) (retained : List Nat) (m : KVCacheManager) : SchedulerState :=
  (s.enterStep r a numLocalTokens retained m).markPending r.requestId
    (s.manager.numRegistered r.requestId + computedBlocks.length)

/-- Retain the plan's sources, allocate, and forward what is left of the plan; when there is no room
the sources are released again. -/
def admitWaiting (cfg : EngineConfig) (s : SchedulerState) (reqId : String) (a : Admission) :
    Option SchedulerState :=
  match s.requests reqId with
  | none => none
  | some r =>
      match s.computedBefore r with
      | none => none
      | some (computedBlocks, numLocalTokens) =>
          if isWaiting r = true ∧ admissible r a numLocalTokens then
            let (retained, m) := s.manager.retainPartialReuseSources cfg.toManagerConfig r
            match m.allocateSlots cfg.toManagerConfig r
                (admissionArgs cfg a computedBlocks numLocalTokens) with
            | .error _ => none
            | .ok (none, m) =>
                some { s with
                  manager := m.releasePartialReuseSources cfg.toManagerConfig retained
                  phase := .stopped }
            | .ok (some _, m) =>
                some (s.afterAdmission r a computedBlocks numLocalTokens retained m)
          else none

/-- The request after its transfer: the last token is computed again to be sampled from. -/
def promotedRequest (r : Request) : Request :=
  { r with
    numComputedTokens := if r.numComputedTokens = r.numTokens then r.numTokens - 1
      else r.numComputedTokens
    status := if 0 < r.numPreemptions then .preempted else .waiting }

/-- The state after a promotion: the blocks that were loaded hold finished KV. -/
def afterPromotion (s : SchedulerState) (r : Request) (m : KVCacheManager) : SchedulerState :=
  let loaded := (s.manager.reqToBlocks r.requestId).drop (s.manager.numRegistered r.requestId)
  let s' := { s with
    manager := m
    forwarded := fun b => if b ∈ loaded then true else s.forwarded b }
  s'.setRequest (promotedRequest r)

/-- `_update_waiting_for_remote_kv` of a request whose transfer is over. -/
def promoteRemote (cfg : EngineConfig) (s : SchedulerState) (reqId : String) :
    Option SchedulerState :=
  match s.phase, s.requests reqId with
  | .schedulingWaiting, some r =>
      if r.status = .waitingForRemoteKvs then
        let cached := if cfg.enableCaching = true then
            s.manager.cacheBlocks cfg.toManagerConfig r r.numComputedTokens
          else .ok s.manager
        match cached with
        | .error _ => none
        | .ok m => some (s.afterPromotion r m)
      else none
  | _, _ => none

/-! ### The end of a call -/

/-- The data of a request that is forwarded as new. -/
def newRequestData (s : SchedulerState) (e : ScheduledRequest) (r : Request) : NewRequestData where
  reqId := e.reqId
  promptTokenIds := r.promptTokenIds.getD []
  prefillTokenIds := r.allTokenIds
  blockIds := [s.manager.reqToBlocks e.reqId]
  numComputedTokens := e.numComputedTokens
  partialReusePlan := e.partialReusePlan

/-- A scheduled request as the worker batches it. -/
def batchEntry (s : SchedulerState) (e : ScheduledRequest) (r : Request) : BatchEntry where
  reqId := e.reqId
  tokenIds := r.allTokenIds
  blockIds := s.manager.reqToBlocks e.reqId
  numComputedTokens := e.numComputedTokens
  numScheduledTokens := e.numScheduledTokens

def scheduledRequests (s : SchedulerState) : List (ScheduledRequest × Request) :=
  s.scheduled.filterMap fun e => (s.requests e.reqId).map fun r => (e, r)

/-- `scheduled_new_reqs`. -/
def newRequests (s : SchedulerState) : List NewRequestData :=
  (s.scheduledRequests.filter fun x => x.1.isNew).map fun (e, r) => s.newRequestData e r

/-- The batch in the order of scheduling. -/
def batch (s : SchedulerState) : List BatchEntry :=
  s.scheduledRequests.map fun (e, r) => s.batchEntry e r

def isScheduling : Phase → Bool
  | .schedulingRunning _ | .schedulingWaiting | .stopped => true
  | .idle | .lookedUp _ _ _ => false

/-- `_update_after_schedule` of one request. -/
def advance (scheduled : List ScheduledRequest) (r : Request) : Request :=
  match scheduled.find? fun e => e.reqId == r.requestId with
  | none => r
  | some e => { r with numComputedTokens := r.numComputedTokens + e.numScheduledTokens }

/-- Release the retained sources and count the scheduled tokens as computed.  The step's forward
follows at once, so that the blocks of its requests hold finished KV afterwards. -/
def finishSchedule (s : SchedulerState) : SchedulerState :=
  let written := s.scheduled.flatMap fun e => s.manager.reqToBlocks e.reqId
  { s with
    manager := { s.manager with pool := s.manager.pool.freeBlocks s.retainedBlocks }
    requests := fun id => (s.requests id).map (advance s.scheduled)
    phase := .idle
    scheduled := []
    retainedBlocks := []
    forgottenReqIds := []
    forwarded := fun b => if b ∈ written then true else s.forwarded b }

end SchedulerState

end CacheSelect.Engine

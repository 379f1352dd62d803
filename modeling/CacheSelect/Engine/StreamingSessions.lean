import CacheSelect.Engine.Plans

/-! # Streaming sessions

A request with streaming input does not finish when it stops: it waits for the next piece of its prompt, with its
blocks and its plan.  `_update_request_as_session` makes the tokens that were computed its prompt, appends the new ones,
and queues the request again.  As some of its tokens are computed it is admitted without a lookup, and is forwarded as
a new request with what its old plan retains.

`SessionAction` adds this step to those of the engine.  Between the stop and the update the session only holds its
blocks; here it is a running request that is given no tokens.  `sessionStep_inv` and `plans_updateSession` say that the
invariants of the engine hold in its runs, too, unless the discarded token had completed a block: the source keeps the
hash of that block, with the discarded token, in `block_hashes`.
-/

namespace CacheSelect.Engine

open CacheSelect.Core CacheSelect.Worker Transition

/-- `_update_request_as_session`: the last sampled token is discarded. -/
def sessionRequest (r : Request) (promptTokenIds : List Nat) : Request :=
  { r with
    promptTokenIds := some (r.allTokenIds.take r.numComputedTokens ++ promptTokenIds)
    outputTokenIds := []
    status := .waiting }

namespace SchedulerState

/-- A session that has stopped, with one sampled token behind the computed ones, gets the next piece of its prompt. -/
def updateSession (cfg : EngineConfig) (s : SchedulerState) (reqId : String)
    (promptTokenIds : List Nat) : Option SchedulerState :=
  match s.requests reqId with
  | none => none
  | some r =>
      if s.phase = .idle ∧ r.status = .running ∧ 0 < r.numComputedTokens ∧
          (r.promptTokenIds.getD []).length ≤ r.numComputedTokens ∧
          r.numTokens = r.numComputedTokens + 1 ∧ promptTokenIds ≠ [] ∧
          r.numComputedTokens + promptTokenIds.length ≤ cfg.maxModelLen then
        some (s.setRequest (sessionRequest r promptTokenIds))
      else none

end SchedulerState

/-- The steps of the engine, and the update of a session. -/
inductive SessionAction
  | engine (a : Action)
  | updateSession (reqId : String) (promptTokenIds : List Nat)

def sessionStep {K : Type} (cfg : EngineConfig) (compute : List K → Nat → K) (s : State K) :
    SessionAction → Option (State K)
  | .engine a => step cfg compute s a
  | .updateSession reqId promptTokenIds =>
      (s.scheduler.updateSession cfg reqId promptTokenIds).map fun scheduler =>
        { s with scheduler := scheduler }

/-- The token that the update discards did not complete a block. -/
def keepsHashes (cfg : EngineConfig) (s : SchedulerState) (reqId : String) : Bool :=
  (s.requests reqId).all fun r => r.numTokens % cfg.blockSize != 0

/-! ### What an update keeps -/

section

variable {cfg : EngineConfig} {s s' : SchedulerState}

theorem SchedulerState.updateSession_some {id : String} {tokens : List Nat}
    (h : s.updateSession cfg id tokens = some s') :
    ∃ r, s.requests id = some r ∧ s.phase = .idle ∧ r.status = .running ∧ 0 < r.numComputedTokens ∧
      (r.promptTokenIds.getD []).length ≤ r.numComputedTokens ∧
      r.numTokens = r.numComputedTokens + 1 ∧ tokens ≠ [] ∧
      r.numComputedTokens + tokens.length ≤ cfg.maxModelLen ∧
      s' = s.setRequest (sessionRequest r tokens) := by
  unfold SchedulerState.updateSession at h
  split at h
  · cases h
  · next r hr =>
      rw [Option.ite_none_right_eq_some] at h
      obtain ⟨⟨hphase, hstatus, hpos, hprompt, hnum, htokens, hle⟩, h⟩ := h
      exact ⟨r, hr, hphase, hstatus, hpos, hprompt, hnum, htokens, hle, (Option.some.inj h).symm⟩

theorem sessionRequest_allTokenIds (r : Request) (tokens : List Nat) :
    (sessionRequest r tokens).allTokenIds = r.allTokenIds.take r.numComputedTokens ++ tokens := by
  rw [Request.allTokenIds_eq (r := sessionRequest r tokens) rfl]
  exact List.append_nil _

theorem sessionRequest_numTokens {r : Request} (h : r.numComputedTokens ≤ r.numTokens)
    (tokens : List Nat) :
    (sessionRequest r tokens).numTokens = r.numComputedTokens + tokens.length := by
  have hle : r.numComputedTokens ≤ r.allTokenIds.length := h
  rw [Request.numTokens, sessionRequest_allTokenIds, List.length_append, List.length_take_of_le hle]

/-- The old prompt is a prefix of the new one. -/
theorem prompt_sessionRequest {r : Request} {p : List Nat} (hp : r.promptTokenIds = some p)
    (hle : p.length ≤ r.numComputedTokens) (tokens : List Nat) :
    ∃ rest, (sessionRequest r tokens).promptTokenIds = some (p ++ rest) := by
  refine ⟨r.outputTokenIds.take (r.numComputedTokens - p.length) ++ tokens, ?_⟩
  rw [sessionRequest, Request.allTokenIds_eq hp, List.take_append, List.take_of_length_le hle,
    List.append_assoc]

/-- **An update keeps the invariant**, if it keeps the hashes of the registered blocks. -/
theorem SchedulerState.updateSession_inv (h : s.Inv cfg) {id : String} {tokens : List Nat}
    (hkeep : keepsHashes cfg s id = true) (hs : s.updateSession cfg id tokens = some s') :
    s'.Inv cfg := by
  obtain ⟨r, hr, hphase, hstatus, hpos, -, hnum, htokens, hle, rfl⟩ := updateSession_some hs
  have hok := h.request id r hr
  have hid := hok.id_eq
  subst hid
  have hlen := sessionRequest_numTokens hok.computed_le tokens
  have htpos : 0 < tokens.length := List.length_pos_iff.mpr htokens
  -- all registered blocks are among the computed tokens
  have hreg : s.manager.numRegistered r.requestId * cfg.blockSize ≤ r.numComputedTokens := by
    have hle := h.manager.registered_tokens _ r hr
    rw [keepsHashes, hr, Option.all_some, bne_iff_ne] at hkeep
    have hne : s.manager.numRegistered r.requestId * cfg.blockSize ≠ r.numTokens := by
      intro heq
      exact hkeep (heq ▸ Nat.mul_mod_left _ _)
    omega
  refine h.of_local r.requestId
    (h.manager.set_request (sessionRequest r tokens) hr ?_ (by omega)) h.locator
    (fun id hid => setRequest_of_ne s (sessionRequest r tokens) hid) (fun _ _ => rfl)
    (fun _ _ => rfl) ?_ ?_ h.nodup h.idle ?_
  · intro i hi
    refine Request.blockHashAt_congr ?_ rfl rfl
    have hi' : (i + 1) * cfg.blockSize ≤ r.numComputedTokens :=
      Nat.le_trans (Nat.mul_le_mul_right _ hi) hreg
    have htake : (r.allTokenIds.take r.numComputedTokens).length = r.numComputedTokens :=
      List.length_take_of_le hok.computed_le
    rw [sessionRequest_allTokenIds, List.take_append_of_le_length (by rw [htake]; exact hi'),
      List.take_take, Nat.min_eq_left hi']
  · intro q hq
    have hq' : some (sessionRequest r tokens) = some q :=
      (setRequest_self s (sessionRequest r tokens)).symm.trans hq
    cases hq'
    refine ⟨rfl, rfl, by omega, by omega, ?_, hok.covered, ?_, nofun⟩
    · change r.numComputedTokens ≤ (sessionRequest r tokens).numTokens
      omega
    · intro _ hzero
      exact absurd hzero (Nat.ne_of_gt hpos)
  · intro e he
    change e ∈ s.scheduled at he
    rw [(h.idle hphase).1] at he
    cases he
  · intro id hits n hp
    exact absurd hp (not_lookedUp_of_idle hphase id hits n)

/-- A plan of the request is one of the longer prompt. -/
theorem PlanOk.of_append {cfg : LocatorConfig} {r r' : Request} {plan : PartialReusePlan}
    (h : PlanOk cfg r plan) {p rest : List Nat} (hp : r.promptTokenIds = some p)
    (hp' : r'.promptTokenIds = some (p ++ rest)) : PlanOk cfg r' plan where
  blockSize_eq := h.blockSize_eq
  ordered := h.ordered
  full := by
    intro c hc
    have hfull := h.full c hc
    rw [hp, Option.getD_some] at hfull
    rw [hp', Option.getD_some, List.length_append]
    exact Nat.le_trans hfull (Nat.le_add_right _ _)
  offset_lt := h.offset_lt
  length_ids := h.length_ids
  head_ids := h.head_ids

/-- **An update keeps the facts about plans.** -/
theorem plans_updateSession (h : s.Inv cfg) (hp : Plans cfg s) {id : String} {tokens : List Nat}
    (hs : s.updateSession cfg id tokens = some s') : Plans cfg s' := by
  obtain ⟨r, hr, hphase, -, -, hprompt, -, -, -, rfl⟩ := SchedulerState.updateSession_some hs
  obtain ⟨p, hpr⟩ := Option.isSome_iff_exists.mp (h.request id r hr).prompt
  rw [hpr, Option.getD_some] at hprompt
  obtain ⟨rest, hrest⟩ := prompt_sessionRequest hpr hprompt tokens
  refine ⟨?_, ?_, ?_⟩
  · intro id' q plan hq hplan
    rcases SchedulerState.request_of_set hq with ⟨-, rfl⟩ | ⟨-, hq⟩
    · exact (hp.plan id r plan hr hplan).of_append hpr hrest
    · exact hp.plan id' q plan hq hplan
  · intro id' q hq hoff
    rcases SchedulerState.request_of_set hq with ⟨-, rfl⟩ | ⟨-, hq⟩
    · exact hp.lookups id r hr hoff
    · exact hp.lookups id' q hq hoff
  · intro e he
    change e ∈ s.scheduled at he
    rw [(h.idle hphase).1] at he
    cases he

end

/-! ### Runs with sessions -/

section

variable {K : Type} {cfg : EngineConfig} {compute : List K → Nat → K} {s s' : State K}

/-- A step with sessions is one of the engine, or an update. -/
theorem sessionStep_cases {a : SessionAction} (hs : sessionStep cfg compute s a = some s') :
    (∃ a', a = .engine a' ∧ step cfg compute s a' = some s') ∨
    ∃ id tokens t, a = .updateSession id tokens ∧ s.scheduler.updateSession cfg id tokens = some t ∧
      s' = { s with scheduler := t } := by
  cases a with
  | engine a => exact Or.inl ⟨a, rfl, hs⟩
  | updateSession id tokens =>
      obtain ⟨t, ht, rfl⟩ := Option.map_eq_some_iff.mp hs
      exact Or.inr ⟨id, tokens, t, rfl, ht, rfl⟩

/-- The guard on a step: an update keeps the hashes. -/
def HashesKept (cfg : EngineConfig) (s : State K) : SessionAction → Prop
  | .engine _ => True
  | .updateSession reqId _ => keepsHashes cfg s.scheduler reqId = true

theorem sessionStep_inv (h : s.scheduler.Inv cfg) (hp : Plans cfg s.scheduler) {a : SessionAction}
    (hok : HashesKept cfg s a) (hs : sessionStep cfg compute s a = some s') :
    s'.scheduler.Inv cfg ∧ Plans cfg s'.scheduler := by
  rcases sessionStep_cases hs with ⟨a', rfl, hs⟩ | ⟨id, tokens, t, rfl, ht, rfl⟩
  · have hsched := schedulerStep_of_step hs
    exact ⟨schedulerStep_inv h hsched, plans_step h hp hsched⟩
  · exact ⟨SchedulerState.updateSession_inv h hok ht, plans_updateSession h hp ht⟩

/-- Every run of the engine is a run with sessions. -/
theorem reachableWhen_engine {ok : State K → Action → Prop} {ok' : State K → SessionAction → Prop}
    (hok : ∀ s a, ok s a → ok' s (.engine a)) {s₀ s : State K}
    (h : ReachableWhen (step cfg compute) ok s₀ s) :
    ReachableWhen (sessionStep cfg compute) ok' s₀ s := by
  refine ReachableWhen.invariant (ReachableWhen (sessionStep cfg compute) ok' s₀) (.refl _ _ _) ?_ s h
  intro s a s' hr hok' hs
  exact ReachableWhen.tail hr (hok s a hok') hs

end

end CacheSelect.Engine

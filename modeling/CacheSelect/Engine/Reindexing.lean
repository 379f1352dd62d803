import CacheSelect.Engine.Sources
import CacheSelect.Engine.StreamingSessions

/-! # Retention after the index has changed

A plan names its source by an id, and the retention looks the id up again.  Between the two lookups
another sequence may have been indexed under the id.  For a request that is admitted in the call of
its lookup nothing lies between; for one whose tokens are loaded asynchronously whole calls do, and for a
streaming session that goes on with its old plan the whole time since its last admission.
`retained_match` says for all runs that the retained blocks hold the tokens of their target blocks, as
long as no sequence is indexed under the source id of a request that awaits its load with other tokens
in the blocks that the plan names, and no session goes on while such a sequence is indexed.
-/

namespace CacheSelect.Engine

open CacheSelect.Core CacheSelect.Worker Transition AlignedBlockReuseLocator

/-- The tokens of a candidate's target block. -/
def targetTokens (blockSize : Nat) (r : Request) (c : PartialReuseCandidate) : List Nat :=
  ((r.promptTokenIds.getD []).drop (c.targetBlockIndex * blockSize)).take blockSize

/-- Cut a candidate's window out of the tokens of its source blocks. -/
def windowTokens (blockSize : Nat) (c : PartialReuseCandidate) (tokens : List Nat) : List Nat :=
  (tokens.drop c.sourceBlockOffset).take blockSize

/-- The tokens that the source blocks of a candidate are registered for. -/
def heldTokens (pool : BlockPool) (c : PartialReuseCandidate) : List Nat :=
  c.physicalSourceBlockIds.flatMap fun b =>
    match (pool.blocks b).blockHash with
    | none => []
    | some h => h.blockTokens

/-- Whether an entry has the tokens of the target block where it has all source blocks of the
candidate. -/
def matchedIn (blockSize : Nat) (source : SourceRequestIndex) (r : Request)
    (c : PartialReuseCandidate) : Bool :=
  match c.physicalSourceBlockIds.mapM (blockById source) with
  | none => true
  | some blocks =>
      windowTokens blockSize c (blocks.flatMap SourceBlock.tokenIds) == targetTokens blockSize r c

/-- Whether an entry, if it has the id that the plan of a request names, matches the plan. -/
def entryMatches (blockSize : Nat) (source : SourceRequestIndex) (r : Request) : Bool :=
  match r.partialReusePlan with
  | none => true
  | some plan => plan.sourceRequestId != source.requestId ||
      plan.candidates.all (matchedIn blockSize source r)

/-- No finished request is indexed under the source id of another request that awaits its load, with
other tokens than those that were matched. -/
def reindexMatches {K : Type} (cfg : EngineConfig) (s : State K) : Action → Bool
  | .finish id =>
      match s.scheduler.requests id with
      | none => true
      | some r =>
          s.addedReqIds.all fun id' => id' == id ||
            match s.scheduler.requests id' with
            | none => true
            | some r' => !SchedulerState.awaitsLoad r' || entryMatches cfg.blockSize
                (sourceEntry cfg.toLocatorConfig s.scheduler.manager.pool r
                  (r.promptTokenIds.getD []) (s.scheduler.manager.reqToBlocks id)) r'
  | _ => true

/-- The same for the runs with sessions: a session goes on with its hashes, and only while the source that
its plan names matches the plan. -/
def sessionMatches {K : Type} (cfg : EngineConfig) (s : State K) : SessionAction → Bool
  | .engine a => reindexMatches cfg s a
  | .updateSession id tokens => keepsHashes cfg s.scheduler id &&
      (s.scheduler.requests id).all fun r =>
        (r.partialReusePlan.bind fun plan =>
          s.scheduler.manager.locator.getSource plan.sourceRequestId).all fun source =>
            entryMatches cfg.blockSize source (sessionRequest r tokens)

/-- What is left of a request's plan when it is admitted. -/
def retainedPlan (cfg : EngineConfig) (s : SchedulerState) (r : Request) :
    Option PartialReusePlan :=
  r.partialReusePlan.bind fun p => p.forRetainedSourceIds (s.pinned cfg r)

/-! ### The tokens of a window -/

theorem blockTokens_append {l : List Nat} (k bs : Nat) :
    (l.drop (k * bs)).take bs ++ (l.drop ((k + 1) * bs)).take bs = (l.drop (k * bs)).take (2 * bs) := by
  have : (k + 1) * bs = bs + k * bs := by rw [Nat.succ_mul, Nat.add_comm]
  rw [this, ← List.drop_drop, Nat.two_mul, List.take_add, List.drop_drop, List.drop_drop,
    Nat.add_comm bs]

/-- **The blocks of a window hold its tokens.** -/
theorem windowBlocks_tokens {cfg : LocatorConfig} {source : SourceRequestIndex}
    (hwf : source.WF cfg.blockSize) {start : Nat} {blocks : List SourceBlock}
    (h : windowBlocks cfg source start = some blocks) :
    ((blocks.flatMap SourceBlock.tokenIds).drop (start % cfg.blockSize)).take cfg.blockSize
      = (source.promptTokenIds.drop start).take cfg.blockSize := by
  have hbs := cfg.blockSize_pos
  have hmod := Nat.mod_lt start hbs
  have hdm := Nat.div_add_mod start cfg.blockSize
  have hlen := length_windowBlocks h
  have hget : ∀ k b, blocks[k]? = some b → b.tokenIds
      = (source.promptTokenIds.drop ((start / cfg.blockSize + k) * cfg.blockSize)).take
        cfg.blockSize := by
    intro k b hb
    have hk := (List.getElem?_eq_some_iff.mp hb).1
    have hl := (mapM_getElem? h).1
    rw [List.length_range'] at hl
    obtain ⟨b', hb', hget'⟩ := (mapM_getElem? h).2 k (start / cfg.blockSize + k)
      (by rw [List.getElem?_range' (by omega)]; congr 1; omega)
    rw [hb, Option.some.injEq] at hget'
    subst hget'
    obtain ⟨hmem, hidx⟩ := blockByIndex_eq_some hb'
    rw [hwf.tokenIds_eq b hmem, hidx]
  by_cases h0 : start % cfg.blockSize = 0
  · rw [if_pos h0] at hlen
    obtain ⟨b, rfl⟩ := List.length_eq_one_iff.mp hlen
    have hb := hget 0 b rfl
    have hstart : start / cfg.blockSize * cfg.blockSize = start := by
      rw [Nat.mul_comm]; omega
    rw [Nat.add_zero, hstart] at hb
    rw [List.flatMap_singleton, hb, h0, List.drop_zero, List.take_take, Nat.min_self]
  · rw [if_neg h0] at hlen
    obtain ⟨b, b', rfl⟩ := List.length_eq_two.mp hlen
    have hb := hget 0 b rfl
    have hb' := hget 1 b' rfl
    rw [Nat.add_zero] at hb
    have hstart : start / cfg.blockSize * cfg.blockSize + start % cfg.blockSize = start := by
      rw [Nat.mul_comm]; omega
    rw [List.flatMap_cons, List.flatMap_singleton, hb, hb', blockTokens_append, List.drop_take,
      List.drop_drop, hstart, List.take_take, Nat.min_eq_left (by omega)]

/-- A candidate of a source has the tokens of its target block there. -/
theorem matchedIn_of_candidate {cfg : LocatorConfig} {pool : BlockPool}
    {source : SourceRequestIndex} (hwf : source.WF cfg.blockSize) {r : Request}
    {promptTokenIds : List Nat} (hp : r.promptTokenIds = some promptTokenIds) {native : Nat}
    {c : PartialReuseCandidate} (h : IsCandidate cfg pool source promptTokenIds native c) :
    matchedIn cfg.blockSize source r c = true := by
  obtain ⟨start, blocks, hwin, -, htok, hoff, hids, -⟩ := h.window
  have hphys : c.physicalSourceBlockIds = blocks.map SourceBlock.blockId := by
    rw [PartialReuseCandidate.physicalSourceBlockIds, if_neg, hids]
    intro hnil
    have := h.head_ids
    rw [hnil] at this
    cases this
  have hall : ∀ l : List SourceBlock, (∀ b ∈ l, b ∈ source.blocks) →
      (l.map SourceBlock.blockId).mapM (blockById source) = some l := by
    intro l
    induction l with
    | nil => intro _; rfl
    | cons b l ih =>
        intro hl
        rw [List.map_cons, List.mapM_cons, blockById_of_mem hwf (hl b (by simp)),
          ih fun x hx => hl x (List.mem_cons_of_mem _ hx)]
        rfl
  have hmem : ∀ b ∈ blocks, b ∈ source.blocks := by
    intro b hb
    obtain ⟨k, hk⟩ := List.mem_iff_getElem?.mp hb
    have hlt := (List.getElem?_eq_some_iff.mp hk).1
    rw [(mapM_getElem? hwin).1] at hlt
    obtain ⟨b', hb', hget⟩ := (mapM_getElem? hwin).2 k _ (List.getElem?_eq_getElem hlt)
    rw [hk, Option.some.injEq] at hget
    subst hget
    exact (blockByIndex_eq_some hb').1
  rw [matchedIn, hphys, hall blocks hmem]
  dsimp only
  rw [beq_iff_eq, windowTokens, hoff, windowBlocks_tokens hwf hwin, htok, targetTokens, hp,
    Option.getD_some]

/-- Blocks that are resident under an entry hold the tokens that the entry has for them. -/
theorem heldTokens_of_resident {bs : Nat} (pool : BlockPool) {source : SourceRequestIndex}
    (hwf : source.WF bs) : ∀ ids : List Nat, (∀ b ∈ ids, ∃ blk, blockById source b = some blk ∧
      (pool.blocks b).blockHash = some blk.blockHash) →
    ∃ blocks, ids.mapM (blockById source) = some blocks ∧
      (ids.flatMap fun b => match (pool.blocks b).blockHash with
        | none => []
        | some h => h.blockTokens) = blocks.flatMap SourceBlock.tokenIds := by
  intro ids
  induction ids with
  | nil => exact fun _ => ⟨[], rfl, rfl⟩
  | cons b ids ih =>
      intro h
      obtain ⟨blk, hblk, hhash⟩ := h b (by simp)
      obtain ⟨blocks, hblocks, heq⟩ := ih fun x hx => h x (List.mem_cons_of_mem _ hx)
      refine ⟨blk :: blocks, ?_, ?_⟩
      · rw [List.mapM_cons, hblk, hblocks]
        rfl
      · rw [List.flatMap_cons, List.flatMap_cons, heq, hhash]
        dsimp only
        rw [hwf.hash_tokens blk (blockById_eq_some hblk).1]

/-! ### Every run -/

section

variable {cfg : EngineConfig}

/-- The plans that are not located again match the entries under their source ids. -/
def PlansMatch (cfg : EngineConfig) (s : SchedulerState) : Prop :=
  ∀ id r plan source, s.requests id = some r → s.KeepsPlan id r → r.partialReusePlan = some plan →
    s.manager.locator.getSource plan.sourceRequestId = some source →
    ∀ c ∈ plan.candidates, matchedIn cfg.blockSize source r c = true

theorem matchedIn_congr {bs : Nat} {source : SourceRequestIndex} {r r' : Request}
    (h : r'.promptTokenIds = r.promptTokenIds) (c : PartialReuseCandidate) :
    matchedIn bs source r' c = matchedIn bs source r c := by
  rw [matchedIn, matchedIn, targetTokens, targetTokens, h]

/-- What a lookup has planned matches its source. -/
theorem plansMatch_lookup {s s' : SchedulerState} (h : s.Inv cfg) (hp : Plans cfg s) {id : String}
    (hs : s.lookup cfg id = some s') {q : Request} (hq : s'.requests id = some q)
    {plan : PartialReusePlan} (hplan : q.partialReusePlan = some plan) {source : SourceRequestIndex}
    (hsrc : s'.manager.locator.getSource plan.sourceRequestId = some source) :
    ∀ c ∈ plan.candidates, matchedIn cfg.blockSize source q c = true := by
  obtain ⟨r, r', hit, -, hr, -, -, hg, rfl⟩ := SchedulerState.lookup_some hs
  obtain ⟨-, -, -, hlook, hcase⟩ :=
    KVCacheManager.getComputedBlocks_ok h.manager.pool_wf.toCacheWF h.locator hg
  have hid : r'.requestId = id := by rw [hlook]; exact (h.request id r hr).id_eq
  have hq' : some r' = some q := by rw [← hq, ← hid]; exact (SchedulerState.setRequest_self s r').symm
  cases hq'
  rcases hcase with ⟨hoff, heq⟩ | ⟨-, hempty | ⟨p', source', ptoks, hp', hloc⟩⟩
  · rw [heq, hp.lookups id _ hr hoff] at hplan
    cases hplan
  · rw [hempty plan hplan]
    nofun
  · rw [hplan, Option.some.injEq] at hp'
    subst hp'
    have hsrc' : some source' = some source := hloc.source_eq.symm.trans hsrc
    cases hsrc'
    intro c hc
    refine matchedIn_of_candidate (h.locator source (getSource_mem hsrc).1) ?_
      (hloc.located.candidate c hc)
    rw [hlook]
    exact hloc.prompt_eq

theorem plansMatch_step {K : Type} {s : State K} {s' : SchedulerState} (h : s.scheduler.Inv cfg)
    (hp : Plans cfg s.scheduler) (hn : s.scheduler.manager.locator.NodupIds)
    (hids : ∀ id r, s.scheduler.requests id = some r → id ∈ s.addedReqIds)
    (hm : PlansMatch cfg s.scheduler) {a : Action} (hok : reindexMatches cfg s a = true)
    (hs : schedulerStep cfg s.scheduler a = some s') : PlansMatch cfg s' := by
  rintro id q plan source hq (haw | ⟨hits, n, hphase⟩) hplan hsrc
  · rcases SchedulerState.request_step h hs hq with
      ⟨r, hr, hsame, hkeep⟩ | ⟨-, -, hnone⟩ | ⟨r, hit, -, -, hw, h0, hg, -⟩
    · rw [hsame.plan] at hplan
      have hr' := hkeep haw
      have hold : s.scheduler.manager.locator.getSource plan.sourceRequestId = some source →
          ∀ c ∈ plan.candidates, matchedIn cfg.blockSize source q c = true := by
        intro hsrc c hc
        rw [matchedIn_congr hsame.prompt]
        exact hm id r plan source hr hr' hplan hsrc c hc
      rcases locator_step h hs with heq | hnil | ⟨i, r₁, p, rfl, hr₁, hp₁, heq⟩
      · rw [heq] at hsrc
        exact hold hsrc
      · have := (getSource_mem hsrc).1
        rw [hnil] at this
        cases this
      · rw [heq] at hsrc
        obtain ⟨hmem, hsid⟩ := getSource_mem hsrc
        rcases index_sources hp₁ hmem with rfl | ⟨hin, -⟩
        · -- a sequence is indexed under the source id
          rw [reindexMatches, hr₁] at hok
          have hin := List.all_eq_true.mp hok id (hids id r hr)
          rw [Bool.or_eq_true] at hin
          rcases hin with heq' | hin
          · -- the finished request is not live any more
            rw [beq_iff_eq] at heq'
            subst heq'
            obtain ⟨r₂, -, -, -, rfl⟩ := SchedulerState.finish_some hs
            have hq' : Function.update s.scheduler.requests id none id = some q := hq
            rw [Function.update_self] at hq'
            cases hq'
          · rw [hr] at hin
            dsimp only at hin
            rcases hr' with hawr | ⟨hits, n, hphase⟩
            · rw [hawr, entryMatches, hplan] at hin
              dsimp only at hin
              rw [Bool.not_true, Bool.false_or, Bool.or_eq_true, bne_iff_ne] at hin
              rcases hin with hne | hall
              · refine absurd ?_ hne
                rw [← hsid]
                rfl
              · intro c hc
                rw [matchedIn_congr hsame.prompt]
                have := List.all_eq_true.mp hall c hc
                rw [hp₁] at this
                exact this
            · obtain ⟨-, -, hidle, -, -⟩ := SchedulerState.finish_some hs
              rw [hphase] at hidle
              cases hidle
        · refine hold ?_
          rw [← hsid]
          exact hn.getSource_eq hin
    · rw [hnone] at hplan
      cases hplan
    · obtain ⟨-, -, -, hlook, -⟩ :=
        KVCacheManager.getComputedBlocks_ok h.manager.pool_wf.toCacheWF h.locator hg
      refine absurd haw (SchedulerState.not_awaitsLoad_of_zero ?_ ?_)
      · rw [hlook]
        intro hrem
        change r.status = _ at hrem
        rw [SchedulerState.isWaiting, hrem] at hw
        cases hw
      · rw [hlook]
        exact h0
  · have ha := lookup_of_phase hs hphase
    subst ha
    exact plansMatch_lookup h hp hs hq hplan hsrc

/-- The ids of live requests are among those of all requests. -/
def LiveIds {K : Type} (s : State K) : Prop :=
  ∀ id r, s.scheduler.requests id = some r → id ∈ s.addedReqIds

theorem liveIds_init {K : Type} (cfg : EngineConfig) (kv : KVMemory K) :
    LiveIds (State.init cfg kv) := by
  intro id r hr
  cases hr

theorem plansMatch_init (cfg : EngineConfig) : PlansMatch cfg (SchedulerState.init cfg) := by
  intro id r plan source hr
  cases hr

theorem mem_addedIds {ids : List String} {id : String} (a : Action) (h : id ∈ ids) :
    id ∈ addedIds ids a := by
  cases a with
  | addRequest r => exact List.mem_cons_of_mem _ h
  | _ => exact h

theorem addedReqIds_of_step {K : Type} {compute : List K → Nat → K} {s s' : State K} {a : Action}
    (hs : step cfg compute s a = some s') : s'.addedReqIds = addedIds s.addedReqIds a := by
  rw [step] at hs
  split at hs
  · cases hs
  · split at hs
    · split at hs
      · cases hs
      · cases hs
        rfl
    · cases hs
      rfl

theorem liveIds_step {K : Type} {compute : List K → Nat → K} {s s' : State K}
    (h : s.scheduler.Inv cfg) (hl : LiveIds s) {a : Action} (hs : step cfg compute s a = some s') :
    LiveIds s' := by
  intro id q hq
  rw [addedReqIds_of_step hs]
  rcases SchedulerState.request_step h (schedulerStep_of_step hs) hq with
    ⟨r, hr, -⟩ | ⟨rfl, -⟩ | ⟨r, hit, -, hr, -⟩
  · exact mem_addedIds a (hl id r hr)
  · have hid := ((schedulerStep_inv h (schedulerStep_of_step hs)).request id q hq).id_eq
    rw [← hid]
    exact List.mem_cons_self
  · exact mem_addedIds a (hl id r hr)

/-- An update leaves the plans matched: that of the session is looked at before. -/
theorem plansMatch_updateSession {K : Type} {s : State K} {t : SchedulerState}
    (hm : PlansMatch cfg s.scheduler) {i : String} {tokens : List Nat}
    (hok : sessionMatches cfg s (.updateSession i tokens) = true)
    (hs : s.scheduler.updateSession cfg i tokens = some t) : PlansMatch cfg t := by
  obtain ⟨r, hr, hphase, -, -, -, -, -, -, rfl⟩ := SchedulerState.updateSession_some hs
  rintro id q plan source hq hkeep hplan hsrc
  rcases SchedulerState.request_of_set hq with ⟨-, rfl⟩ | ⟨-, hq⟩
  · have hplan' : r.partialReusePlan = some plan := hplan
    have hsrc' : s.scheduler.manager.locator.getSource plan.sourceRequestId = some source := hsrc
    rw [sessionMatches, hr, Bool.and_eq_true, Option.all_some, hplan', Option.bind_some, hsrc',
      Option.all_some] at hok
    have hall := hok.2
    rw [entryMatches, hplan] at hall
    dsimp only at hall
    rw [Bool.or_eq_true, bne_iff_ne] at hall
    rcases hall with hne | hall
    · exact absurd (getSource_mem hsrc').2.symm hne
    · exact List.all_eq_true.mp hall
  · rcases hkeep with haw | ⟨hits, n, hlook⟩
    · exact hm id q plan source hq (Or.inl haw) hplan hsrc
    · exact absurd (hphase.symm.trans hlook) nofun

/-- The ids of live requests after an update. -/
theorem liveIds_updateSession {K : Type} {s : State K} {t : SchedulerState} (hl : LiveIds s)
    {i : String} {tokens : List Nat} (hi : ∀ r, s.scheduler.requests i = some r → r.requestId = i)
    (hs : s.scheduler.updateSession cfg i tokens = some t) : LiveIds { s with scheduler := t } := by
  obtain ⟨r, hr, -, -, -, -, -, -, -, rfl⟩ := SchedulerState.updateSession_some hs
  intro id q hq
  rcases SchedulerState.request_of_set hq with ⟨rfl, -⟩ | ⟨-, hq⟩
  · have hid : (sessionRequest r tokens).requestId = i := hi r hr
    rw [hid]
    exact hl i r hr
  · exact hl id q hq

/-- What holds in every state of a run with sessions in which no sequence with other tokens takes the place of
a source. -/
structure SessionInv {K : Type} (cfg : EngineConfig) (s : State K) : Prop where
  scheduler : s.scheduler.Inv cfg
  plans : Plans cfg s.scheduler
  nodup : s.scheduler.manager.locator.NodupIds
  live : LiveIds s
  plansMatch : PlansMatch cfg s.scheduler

theorem sessionInv_init {K : Type} (cfg : EngineConfig) (kv : KVMemory K) :
    SessionInv cfg (State.init cfg kv) where
  scheduler := SchedulerState.init_inv cfg
  plans := plans_init cfg
  nodup := List.nodup_nil
  live := liveIds_init cfg kv
  plansMatch := plansMatch_init cfg

theorem sessionInv_step {K : Type} {compute : List K → Nat → K} {s s' : State K}
    (h : SessionInv cfg s) {a : SessionAction} (hok : sessionMatches cfg s a = true)
    (hs : sessionStep cfg compute s a = some s') : SessionInv cfg s' := by
  have hkept : HashesKept cfg s a := by
    cases a with
    | engine a => trivial
    | updateSession i tokens =>
        rw [sessionMatches, Bool.and_eq_true] at hok
        exact hok.1
  obtain ⟨hinv, hplans⟩ := sessionStep_inv h.scheduler h.plans hkept hs
  rcases sessionStep_cases hs with ⟨a', rfl, hst⟩ | ⟨i, tokens, t, rfl, ht, rfl⟩
  · have hsched := schedulerStep_of_step hst
    exact ⟨hinv, hplans, nodupIds_step h.scheduler h.nodup hsched, liveIds_step h.scheduler h.live hst,
      plansMatch_step h.scheduler h.plans h.nodup h.live h.plansMatch hok hsched⟩
  · refine ⟨hinv, hplans, ?_,
      liveIds_updateSession h.live (fun r hr => (h.scheduler.request i r hr).id_eq) ht,
      plansMatch_updateSession h.plansMatch hok ht⟩
    obtain ⟨r, -, -, -, -, -, -, -, -, rfl⟩ := SchedulerState.updateSession_some ht
    exact h.nodup

/-- **In every such run plans match their sources.** -/
theorem sessionInv_of_reachable {K : Type} {compute : List K → Nat → K} {kv : KVMemory K}
    {s : State K} (hs : ReachableWhen (sessionStep cfg compute) (fun s a => sessionMatches cfg s a = true)
      (State.init cfg kv) s) : SessionInv cfg s :=
  hs.invariant (SessionInv cfg)
    (sessionInv_init cfg kv) (fun _ _ _ h hok hst => sessionInv_step h hok hst) s

/-- The request that an admission decides on keeps the plan of its lookup. -/
theorem keepsPlan_of_computedBefore {s : SchedulerState} (h : s.Inv cfg) {id : String} {r : Request}
    (hr : s.requests id = some r) (hw : SchedulerState.isWaiting r = true) {hits : List Nat} {n : Nat}
    (hc : s.computedBefore r = some (hits, n)) : s.KeepsPlan id r := by
  obtain ⟨-, -, ⟨-, -, hp⟩ | ⟨hne, -⟩⟩ := SchedulerState.computedBefore_spec h hr hc
  · rw [(h.request id r hr).id_eq] at hp
    exact Or.inr ⟨hits, n, hp⟩
  · left
    rw [SchedulerState.awaitsLoad, hw, bne_iff_ne.mpr hne]
    simp

end

/-- **Retained blocks hold the tokens that were matched.**  In every run, with sessions, in which no sequence is
indexed under the source id of a request that awaits its load with other tokens in the blocks of its
plan, and no session goes on while such a sequence is indexed: whenever a waiting request is about to be admitted,
the blocks of each candidate that is pinned and forwarded hold the tokens of the candidate's target block. -/
theorem retained_match {K : Type} {cfg : EngineConfig} {compute : List K → Nat → K}
    {kv : KVMemory K} {s : State K}
    (hs : ReachableWhen (sessionStep cfg compute) (fun s a => sessionMatches cfg s a = true)
      (State.init cfg kv) s)
    {id : String} {r : Request} (hr : s.scheduler.requests id = some r)
    (hw : SchedulerState.isWaiting r = true) {hits : List Nat} {n : Nat}
    (hc : s.scheduler.computedBefore r = some (hits, n)) {plan : PartialReusePlan}
    (hplan : retainedPlan cfg s.scheduler r = some plan) :
    ∀ c ∈ plan.candidates,
      windowTokens cfg.blockSize c (heldTokens s.scheduler.manager.pool c)
        = targetTokens cfg.blockSize r c := by
  have hsession := sessionInv_of_reachable hs
  have h := hsession.scheduler
  have hkeep := keepsPlan_of_computedBefore h hr hw hc
  obtain ⟨p, hp, hred⟩ := Option.bind_eq_some_iff.mp hplan
  obtain ⟨-, hsub, -, hpinned⟩ := forRetainedSourceIds_some hred
  intro c hcand
  -- every block of the candidate is resident under the entry that the id names now
  have hres : ∀ b ∈ c.physicalSourceBlockIds, ∃ source,
      s.scheduler.manager.locator.getSource p.sourceRequestId = some source ∧
      ∃ blk, blockById source b = some blk ∧
        (s.scheduler.manager.pool.blocks b).blockHash = some blk.blockHash := by
    intro b hb
    obtain ⟨p', source, -, blk, hps, -, -, -, hblk, hhash⟩ :=
      KVCacheManager.mem_sourceIds h.manager.pool_wf.toCacheWF (hpinned c hcand b hb)
    obtain ⟨hp', hsrc⟩ := KVCacheManager.plannedSource_eq_some hps
    rw [hp, Option.some.injEq] at hp'
    subst hp'
    exact ⟨source, hsrc, blk, hblk, hhash⟩
  obtain ⟨b₀, hb₀⟩ : ∃ b, b ∈ c.physicalSourceBlockIds := by
    rw [PartialReuseCandidate.physicalSourceBlockIds]
    split
    · exact ⟨_, List.mem_singleton_self _⟩
    · next hne => exact List.exists_mem_of_ne_nil _ hne
  obtain ⟨source, hsrc, -⟩ := hres b₀ hb₀
  have hwf := h.locator source (getSource_mem hsrc).1
  obtain ⟨blocks, hblocks, hheld⟩ :=
    heldTokens_of_resident s.scheduler.manager.pool hwf c.physicalSourceBlockIds
      (by
        intro b hb
        obtain ⟨source', hsrc', hblk⟩ := hres b hb
        rw [hsrc, Option.some.injEq] at hsrc'
        subst hsrc'
        exact hblk)
  have hmatch := hsession.plansMatch id r p source hr hkeep hp hsrc c (hsub.subset hcand)
  rw [matchedIn, hblocks] at hmatch
  rw [heldTokens, hheld]
  exact beq_iff_eq.mp hmatch

/-! ### A load during which the source id is indexed again -/

/-- Three usable blocks. -/
def reindexConfig : EngineConfig := smallEngine 3

/-- `source` is served; `target` finds its second block there and awaits the load of its first two
tokens; meanwhile another request ends that is indexed as `source`, too. -/
def reindexRun (prompt : List Nat) : List Action :=
  serve { requestId := "source", promptTokenIds := some [1, 2, 7] } ++
    [.addRequest {
      requestId := "target"
      promptTokenIds := some [5, 6, 1, 2, 7]
      cacheselectSourceRequestId := some "source" }] ++
    admission "target"
      { numNewTokens := 0, numExternalComputedTokens := 2, loadKvAsync := true } ++
    [.execute selectiveFlags] ++
    [.addRequest {
      requestId := "other"
      promptTokenIds := some prompt
      cacheselectRequestId := some "source" }] ++
    admission "other" { numNewTokens := prompt.length } ++
    [.execute selectiveFlags, .finish "other",
     .beginSchedule, .beginWaiting, .promoteRemote "target"]

/-- The request has a waiting admission that forwards a candidate, with the test on its tokens. -/
def forwardsWith (cfg : EngineConfig) (test : List Nat → List Nat → Bool) (s : SchedulerState)
    (id : String) : Bool :=
  (s.requests id).any fun r => SchedulerState.isWaiting r && (s.computedBefore r).isSome &&
    (retainedPlan cfg s r).any fun p => p.candidates.any fun c =>
      test (windowTokens cfg.blockSize c (heldTokens s.manager.pool c))
        (targetTokens cfg.blockSize r c)

theorem forwardsWith_spec {cfg : EngineConfig} {test : List Nat → List Nat → Bool}
    {s : SchedulerState} {id : String} (h : forwardsWith cfg test s id = true) :
    ∃ r hit plan, s.requests id = some r ∧ SchedulerState.isWaiting r = true ∧
      s.computedBefore r = some hit ∧ retainedPlan cfg s r = some plan ∧
      ∃ c ∈ plan.candidates, test (windowTokens cfg.blockSize c (heldTokens s.manager.pool c))
        (targetTokens cfg.blockSize r c) = true := by
  rw [forwardsWith, Option.any_eq_true] at h
  obtain ⟨r, hr, h⟩ := h
  rw [Bool.and_eq_true, Bool.and_eq_true, Option.any_eq_true] at h
  obtain ⟨⟨hw, hc⟩, plan, hplan, h⟩ := h
  obtain ⟨hit, hc⟩ := Option.isSome_iff_exists.mp hc
  exact ⟨r, hit, plan, hr, hw, hc, hplan, List.any_eq_true.mp h⟩

/-- Four usable blocks. -/
def sessionConfig : EngineConfig := smallEngine 4

/-- `source` is served; the session `target` finds its second block there and runs; another request ends that is
indexed as `source`, too. -/
def reindexedUnderSession (prompt : List Nat) : List Action :=
  serve { requestId := "source", promptTokenIds := some [1, 2, 7] } ++
    [.addRequest {
      requestId := "target"
      promptTokenIds := some [5, 6, 1, 2]
      cacheselectSourceRequestId := some "source" }] ++
    admission "target" { numNewTokens := 4 } ++
    [.execute selectiveFlags, .appendOutput "target" 0] ++
    [.addRequest {
      requestId := "other"
      promptTokenIds := some prompt
      cacheselectRequestId := some "source" }] ++
    admission "other" { numNewTokens := prompt.length } ++
    [.execute selectiveFlags, .finish "other"]

/-- Then the session goes on. -/
def sessionRun (prompt : List Nat) : List SessionAction :=
  (reindexedUnderSession prompt).map .engine ++
    [.updateSession "target" [9], .engine .beginSchedule, .engine .beginWaiting]

/-- **A retained block can hold the tokens of another sequence**: `[3, 4]` is forwarded for the
target block `[1, 2]`, after a load and after the update of a session. -/
theorem retained_block_of_newer_sequence :
    (∃ s : State Unit,
      Reachable (step reindexConfig fun _ _ => ()) (State.init reindexConfig fun _ _ => ()) s ∧
      ∃ r hit plan, s.scheduler.requests "target" = some r ∧
        SchedulerState.isWaiting r = true ∧ s.scheduler.computedBefore r = some hit ∧
        retainedPlan reindexConfig s.scheduler r = some plan ∧
        ∃ c ∈ plan.candidates,
          windowTokens reindexConfig.blockSize c (heldTokens s.scheduler.manager.pool c) = [3, 4] ∧
          targetTokens reindexConfig.blockSize r c = [1, 2]) ∧
    ∃ s : State Unit,
      Reachable (sessionStep sessionConfig fun _ _ => ()) (State.init sessionConfig fun _ _ => ()) s ∧
      ∃ r hit plan, s.scheduler.requests "target" = some r ∧
        SchedulerState.isWaiting r = true ∧ s.scheduler.computedBefore r = some hit ∧
        retainedPlan sessionConfig s.scheduler r = some plan ∧
        ∃ c ∈ plan.candidates,
          windowTokens sessionConfig.blockSize c (heldTokens s.scheduler.manager.pool c) = [3, 4] ∧
          targetTokens sessionConfig.blockSize r c = [1, 2] := by
  constructor
  · obtain ⟨s, hs, hP⟩ := exists_reachableWhen (step reindexConfig fun _ _ => ())
      (fun _ _ => True) (State.init reindexConfig fun _ _ => ()) (reindexRun [8, 8, 3, 4])
      (fun s => forwardsWith reindexConfig (fun x y => x == [3, 4] && y == [1, 2]) s.scheduler
        "target") (by decide +kernel)
    obtain ⟨r, hit, plan, hr, hw, hc, hplan, c, hcand, htest⟩ := forwardsWith_spec hP
    rw [Bool.and_eq_true, beq_iff_eq, beq_iff_eq] at htest
    exact ⟨s, hs, r, hit, plan, hr, hw, hc, hplan, c, hcand, htest⟩
  · obtain ⟨s, hs, hP⟩ := exists_reachableWhen (sessionStep sessionConfig fun _ _ => ())
      (fun _ _ => True) (State.init sessionConfig fun _ _ => ()) (sessionRun [8, 8, 3, 4])
      (fun s => forwardsWith sessionConfig (fun x y => x == [3, 4] && y == [1, 2]) s.scheduler
        "target") (by decide +kernel)
    obtain ⟨r, hit, plan, hr, hw, hc, hplan, c, hcand, htest⟩ := forwardsWith_spec hP
    rw [Bool.and_eq_true, beq_iff_eq, beq_iff_eq] at htest
    exact ⟨s, hs, r, hit, plan, hr, hw, hc, hplan, c, hcand, htest⟩

/-- A newer sequence with the tokens of the target block in the same physical block is as good as the
old one, for a request that was loaded and for a session that goes on. -/
theorem retained_block_of_equal_sequence :
    (∃ s : State Unit,
      Reachable (sessionStep reindexConfig fun _ _ => ()) (State.init reindexConfig fun _ _ => ()) s ∧
      ∃ r plan, s.scheduler.requests "target" = some r ∧
        retainedPlan reindexConfig s.scheduler r = some plan ∧
        ∃ c ∈ plan.candidates,
          windowTokens reindexConfig.blockSize c (heldTokens s.scheduler.manager.pool c)
            = targetTokens reindexConfig.blockSize r c) ∧
    ∃ s : State Unit,
      Reachable (sessionStep sessionConfig fun _ _ => ()) (State.init sessionConfig fun _ _ => ()) s ∧
      ∃ r plan, s.scheduler.requests "target" = some r ∧
        retainedPlan sessionConfig s.scheduler r = some plan ∧
        ∃ c ∈ plan.candidates,
          windowTokens sessionConfig.blockSize c (heldTokens s.scheduler.manager.pool c)
            = targetTokens sessionConfig.blockSize r c := by
  constructor
  · obtain ⟨s, hs, hP⟩ := exists_reachableWhen (step reindexConfig fun _ _ => ())
      (fun s a => reindexMatches reindexConfig s a = true)
      (State.init reindexConfig fun _ _ => ()) (reindexRun [8, 8, 1, 2])
      (fun s => forwardsWith reindexConfig (fun _ _ => true) s.scheduler "target")
      (by decide +kernel)
    obtain ⟨r, hit, plan, hr, hw, hc, hplan, c, hcand, -⟩ := forwardsWith_spec hP
    have hs' : ReachableWhen (sessionStep reindexConfig fun _ _ => ())
        (fun s a => sessionMatches reindexConfig s a = true) (State.init reindexConfig fun _ _ => ()) s :=
      reachableWhen_engine (fun _ _ h => h) hs
    exact ⟨s, hs'.reachable, r, plan, hr, hplan, c, hcand, retained_match hs' hr hw hc hplan c hcand⟩
  · obtain ⟨s, hs, hP⟩ := exists_reachableWhen (sessionStep sessionConfig fun _ _ => ())
      (fun s a => sessionMatches sessionConfig s a = true)
      (State.init sessionConfig fun _ _ => ()) (sessionRun [8, 8, 1, 2])
      (fun s => forwardsWith sessionConfig (fun _ _ => true) s.scheduler "target")
      (by decide +kernel)
    obtain ⟨r, hit, plan, hr, hw, hc, hplan, c, hcand, -⟩ := forwardsWith_spec hP
    exact ⟨s, hs.reachable, r, plan, hr, hplan, c, hcand, retained_match hs hr hw hc hplan c hcand⟩

end CacheSelect.Engine

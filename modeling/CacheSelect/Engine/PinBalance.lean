import CacheSelect.Engine.InFlight

/-! # Pin balance

Every reference that retaining sources takes is in one of three places: it belongs to the current call
of `schedule`, it waits behind a fence, or it was released (`Balanced`).  The blocks behind fences are
pins of the manager's invariant like those of the current call, so that the scheduler with these
blocks added to its own (`shadow`) meets the scheduler's invariant, and every step of a call is a step
of the shadow.

`retained_balance` is the result over all runs.  Whether a retained block can be taken for other tokens
before its copy depends on the configuration: not while the engine waits for each step, nor behind a
fence, but with overlapping steps and no fence the end of the call releases it
(`released_before_copy`).
-/

namespace CacheSelect.Engine

open CacheSelect.Core Transition

/-! ### More pins -/

namespace SchedulerState

variable {cfg : EngineConfig} {s s' : SchedulerState} {held : List Nat}

/-- The same scheduler with more blocks pinned. -/
def withHeld (held : List Nat) (s : SchedulerState) : SchedulerState :=
  { s with retainedBlocks := held ++ s.retainedBlocks }

/-- The same scheduler inside of a call. -/
def inCall (s : SchedulerState) : SchedulerState :=
  { s with phase := if s.phase = .idle then .stopped else s.phase }

theorem inCall_of_ne (h : s.phase ≠ .idle) : s.inCall = s := by
  rw [inCall, if_neg h]

theorem inCall_not_lookedUp (h : s.phase = .idle) (id : String) (hits : List Nat) (n : Nat) :
    s.inCall.phase ≠ .lookedUp id hits n := by
  change (if s.phase = .idle then _ else _) ≠ _
  rw [if_pos h]
  nofun

/-- The steps inside of a call that neither preempt nor end it. -/
def isCallStep : Action → Bool
  | .scheduleRunning _ _ | .beginWaiting | .lookup _ | .skip | .admitWaiting _ _
  | .promoteRemote _ => true
  | _ => false

theorem phase_of_callStep {a : Action} (ha : isCallStep a = true)
    (hs : schedulerStep cfg s a = some s') : s.phase ≠ .idle ∧ s'.phase ≠ .idle := by
  cases a with
  | scheduleRunning id n =>
      obtain ⟨p, r, new, m, hp, -, -, -, -, -, -, rfl⟩ := scheduleRunning_some hs
      have hne : s.phase ≠ .idle := by rw [hp]; intro h; cases h
      exact ⟨hne, hne⟩
  | beginWaiting =>
      obtain ⟨hp, rfl⟩ := beginWaiting_some hs
      exact ⟨(by rw [hp]; intro h; cases h), (by intro h; cases h)⟩
  | lookup id =>
      obtain ⟨r, r', hit, hp, -, -, -, -, rfl⟩ := lookup_some hs
      exact ⟨(by rw [hp]; intro h; cases h), (by intro h; cases h)⟩
  | skip =>
      obtain ⟨⟨id, hits, n, hp⟩, rfl⟩ := skip_some hs
      exact ⟨(by rw [hp]; intro h; cases h), (by intro h; cases h)⟩
  | admitWaiting id a =>
      obtain ⟨r, hits, n, -, hc, -, -, ⟨m, -, rfl⟩ | ⟨new, m, -, rfl⟩⟩ := admitWaiting_some hs
      · refine ⟨?_, (by intro h; cases h)⟩
        intro hp
        rw [computedBefore, hp] at hc
        cases hc
      · refine ⟨?_, (by intro h; cases h)⟩
        intro hp
        rw [computedBefore, hp] at hc
        cases hc
  | promoteRemote id =>
      obtain ⟨r, m, hp, -, -, -, rfl⟩ := promoteRemote_some hs
      have hne : s.phase ≠ .idle := by rw [hp]; intro h; cases h
      exact ⟨hne, hne⟩
  | _ => cases ha

theorem withHeld_afterAdmission (s : SchedulerState) (r : Request) (a : Admission)
    (hits : List Nat) (n : Nat) (retained : List Nat) (m : KVCacheManager) :
    (s.withHeld held).afterAdmission r a hits n retained m
      = (s.afterAdmission r a hits n retained m).withHeld held := by
  have happ : held ++ s.retainedBlocks ++ retained = held ++ (s.retainedBlocks ++ retained) :=
    List.append_assoc _ _ _
  change { s.afterAdmission r a hits n retained m with
    retainedBlocks := held ++ s.retainedBlocks ++ retained } = _
  rw [happ]
  rfl

/-- **A step of a call does not look at the pins.** -/
theorem withHeld_callStep {a : Action} (ha : isCallStep a = true)
    (hs : schedulerStep cfg s a = some s') :
    schedulerStep cfg (s.withHeld held) a = some (s'.withHeld held) := by
  cases a with
  | scheduleRunning id n =>
      obtain ⟨p, r, new, m, hp, hr, h1, h2, h3, h4, hm, rfl⟩ := scheduleRunning_some hs
      change scheduleRunning cfg (s.withHeld held) id n = _
      have hp' : (s.withHeld held).phase = .schedulingRunning p := hp
      have hr' : (s.withHeld held).requests id = some r := hr
      rw [scheduleRunning, hp', hr']
      dsimp only
      rw [if_pos ⟨h1, h2, h3, h4⟩]
      have hm' : (s.withHeld held).manager.allocateSlots cfg.toManagerConfig r (runningArgs cfg n)
          = .ok (some new, m) := hm
      rw [hm']
      rfl
  | beginWaiting =>
      obtain ⟨hp, rfl⟩ := beginWaiting_some hs
      change beginWaiting (s.withHeld held) = _
      have hp' : (s.withHeld held).phase = .schedulingRunning false := hp
      rw [beginWaiting, if_pos hp']
      rfl
  | lookup id =>
      obtain ⟨r, r', hit, hp, hr, h1, h2, hg, rfl⟩ := lookup_some hs
      change lookup cfg (s.withHeld held) id = _
      have hp' : (s.withHeld held).phase = .schedulingWaiting := hp
      have hr' : (s.withHeld held).requests id = some r := hr
      rw [lookup, hp', hr']
      dsimp only
      rw [if_pos ⟨h1, h2⟩]
      have hg' : (s.withHeld held).manager.getComputedBlocks cfg.toManagerConfig r = .ok (hit, r') := hg
      rw [hg']
      rfl
  | skip =>
      obtain ⟨⟨id, hits, n, hp⟩, rfl⟩ := skip_some hs
      change skip (s.withHeld held) = _
      have hp' : (s.withHeld held).phase = .lookedUp id hits n := hp
      rw [skip, hp']
      rfl
  | admitWaiting id a =>
      obtain ⟨r, hits, n, hr, hc, hw, hadm, hcase⟩ := admitWaiting_some hs
      change admitWaiting cfg (s.withHeld held) id a = _
      have hr' : (s.withHeld held).requests id = some r := hr
      have hc' : (s.withHeld held).computedBefore r = some (hits, n) := hc
      rw [admitWaiting, hr']
      dsimp only
      rw [hc']
      dsimp only
      rw [if_pos ⟨hw, hadm⟩]
      rcases hcase with ⟨m, hm, rfl⟩ | ⟨new, m, hm, rfl⟩
      · rw [admissionResult] at hm
        have hm' : ((s.withHeld held).manager.retainPartialReuseSources cfg.toManagerConfig r).2.allocateSlots
            cfg.toManagerConfig r (admissionArgs cfg a hits n) = .ok (none, m) := hm
        rw [hm', KVCacheManager.allocateSlots_none hm]
        rfl
      · rw [admissionResult] at hm
        have hm' : ((s.withHeld held).manager.retainPartialReuseSources cfg.toManagerConfig r).2.allocateSlots
            cfg.toManagerConfig r (admissionArgs cfg a hits n) = .ok (some new, m) := hm
        rw [hm']
        exact congrArg some (withHeld_afterAdmission s r a hits n _ m)
  | promoteRemote id =>
      obtain ⟨r, m, hp, hr, h1, hm, rfl⟩ := promoteRemote_some hs
      change promoteRemote cfg (s.withHeld held) id = _
      have hp' : (s.withHeld held).phase = .schedulingWaiting := hp
      have hr' : (s.withHeld held).requests id = some r := hr
      rw [promoteRemote, hp', hr']
      dsimp only
      rw [if_pos h1]
      have hm' : (if cfg.enableCaching = true then (s.withHeld held).manager.cacheBlocks
          cfg.toManagerConfig r r.numComputedTokens else .ok (s.withHeld held).manager) = .ok m := hm
      rw [hm']
      rfl
  | _ => cases ha

/-- An admission that finds room keeps the hashes of all pinned blocks, old and new. -/
theorem admission_keeps (h : s.Inv cfg) {id : String} {r : Request} (hr : s.requests id = some r)
    {a : Admission} {hits : List Nat} {n : Nat} (hc : s.computedBefore r = some (hits, n))
    (hw : isWaiting r = true) (ha : admissible r a n) {new : List Nat} {m : KVCacheManager}
    (hm : admissionResult cfg s r a hits n = .ok (some new, m)) {b : Nat}
    (hb : b ∈ s.retainedBlocks ++ s.pinned cfg r)
    (hh : (s.manager.pool.blocks b).blockHash ≠ none) :
    (m.pool.blocks b).blockHash = (s.manager.pool.blocks b).blockHash := by
  have hinv := retainedManager_inv h r
  have hall := admission_allocated h hr hc hw ha hm
  rw [← retainedManager_blockHash cfg s r b] at hh ⊢
  exact hall.grown.blockHash_eq hinv hall.inv (Or.inl (hinv.refCnt_pos_of_pin hb)) hh

/-- **A step of a call keeps the hashes of pinned blocks.** -/
theorem callStep_keeps (h : s.Inv cfg) {a : Action} (ha : isCallStep a = true)
    (hs : schedulerStep cfg s a = some s') {b : Nat} (hb : b ∈ s.retainedBlocks)
    (hh : (s.manager.pool.blocks b).blockHash ≠ none) :
    (s'.manager.pool.blocks b).blockHash = (s.manager.pool.blocks b).blockHash := by
  have hpos := h.manager.refCnt_pos_of_pin hb
  cases a with
  | scheduleRunning id n =>
      obtain ⟨p, r, new, m, -, hr, -, -, -, -, hm, rfl⟩ := scheduleRunning_some hs
      have hid := (h.request id r hr).id_eq
      subst hid
      have hall := KVCacheManager.allocateSlots_some h.manager hr (runningReady h hr n) hm
      exact hall.grown.blockHash_eq h.manager hall.inv (Or.inl hpos) hh
  | beginWaiting =>
      obtain ⟨-, rfl⟩ := beginWaiting_some hs
      rfl
  | lookup id =>
      obtain ⟨r, r', hit, -, -, -, -, -, rfl⟩ := lookup_some hs
      rfl
  | skip =>
      obtain ⟨-, rfl⟩ := skip_some hs
      rfl
  | admitWaiting id a =>
      obtain ⟨r, hits, n, hr, hc, hw, hadm, ⟨m, -, rfl⟩ | ⟨new, m, hm, rfl⟩⟩ :=
        admitWaiting_some hs
      · rw [afterRefusal_manager]
        change (((s.manager.pool.touch _).freeBlocks _).blocks b).blockHash = _
        rw [BlockPool.freeBlocks_blocks, BlockPool.touch_blocks]
      · exact admission_keeps h hr hc hw hadm hm (List.mem_append_left _ hb) hh
  | promoteRemote id =>
      obtain ⟨r, m, -, hr, -, hm, rfl⟩ := promoteRemote_some hs
      obtain ⟨hinv, hgrown, -⟩ := promotion_cached h hr hm
      exact hgrown.blockHash_eq h.manager hinv (Or.inl hpos) hh
  | _ => cases ha

/-- Only an admission pins more blocks. -/
theorem callStep_retainedBlocks {a : Action} (ha : isCallStep a = true)
    (hne : ∀ id x, a ≠ .admitWaiting id x) (hs : schedulerStep cfg s a = some s') :
    s'.retainedBlocks = s.retainedBlocks := by
  cases a with
  | scheduleRunning id n =>
      obtain ⟨p, r, new, m, -, -, -, -, -, -, -, rfl⟩ := scheduleRunning_some hs
      rfl
  | beginWaiting =>
      obtain ⟨-, rfl⟩ := beginWaiting_some hs
      rfl
  | lookup id =>
      obtain ⟨r, r', hit, -, -, -, -, -, rfl⟩ := lookup_some hs
      rfl
  | skip =>
      obtain ⟨-, rfl⟩ := skip_some hs
      rfl
  | admitWaiting id x => exact absurd rfl (hne id x)
  | promoteRemote id =>
      obtain ⟨r, m, -, -, -, -, rfl⟩ := promoteRemote_some hs
      rfl
  | _ => cases ha

end SchedulerState

namespace InFlightState

open SchedulerState

variable {cfg : InFlightConfig} {s s' : InFlightState}

/-! ### The deferred frees -/

theorem heldIn_append (ds ds' : List DeferredFree) : heldIn (ds ++ ds') = heldIn ds ++ heldIn ds' :=
  List.flatMap_append

theorem retainedIn_append (ds ds' : List DeferredFree) :
    retainedIn (ds ++ ds') = retainedIn ds ++ retainedIn ds' := by
  rw [retainedIn, List.filter_append, List.flatMap_append, ← retainedIn, ← retainedIn]

theorem mem_heldIn {ds : List DeferredFree} {d : DeferredFree} (hd : d ∈ ds) {b : Nat}
    (hb : b ∈ d.blocks) : b ∈ heldIn ds :=
  List.mem_flatMap.mpr ⟨d, hd, hb⟩

/-- The frees that are due stand in front of those that are left. -/
theorem drainDeferredFrees_spec (p : Nat) : ∀ (ds : List DeferredFree) (pool : BlockPool),
    ∃ due, ds = due ++ (drainDeferredFrees p ds pool).1 ∧ (∀ d ∈ due, d.fenceSeq ≤ p) ∧
      (∀ d, (drainDeferredFrees p ds pool).1.head? = some d → p < d.fenceSeq) ∧
      ∀ b, ((drainDeferredFrees p ds pool).2.blocks b).blockHash = (pool.blocks b).blockHash := by
  intro ds
  induction ds with
  | nil =>
      intro pool
      exact ⟨[], rfl, nofun, nofun, fun _ => rfl⟩
  | cons d ds ih =>
      intro pool
      rw [drainDeferredFrees]
      split
      · next hlt =>
          refine ⟨[], rfl, nofun, ?_, fun _ => rfl⟩
          rintro d' ⟨⟩
          exact hlt
      · next hle =>
          obtain ⟨due, heq, hdue, hhead, hhash⟩ := ih (pool.freeBlocks d.blocks.reverse)
          refine ⟨d :: due, congrArg (d :: ·) heq, ?_, hhead, ?_⟩
          · intro d' hd'
            rcases List.mem_cons.mp hd' with rfl | hd'
            · omega
            · exact hdue d' hd'
          · intro b
            rw [hhash, BlockPool.freeBlocks_blocks]

/-- Draining gives up the pins that it frees. -/
theorem drainDeferredFrees_inv {c : ManagerConfig} {requests : String → Option Request} (p : Nat) :
    ∀ (ds : List DeferredFree) {m : KVCacheManager} {pins : List Nat},
      m.Inv c requests (heldIn ds ++ pins) →
      KVCacheManager.Inv c requests (heldIn (drainDeferredFrees p ds m.pool).1 ++ pins)
        { m with pool := (drainDeferredFrees p ds m.pool).2 } := by
  intro ds
  induction ds with
  | nil => intro m pins h; exact h
  | cons d ds ih =>
      intro m pins h
      rw [drainDeferredFrees]
      split
      · exact h
      · have hperm : (heldIn (d :: ds) ++ pins).Perm
            ((heldIn ds ++ pins) ++ d.blocks.reverse) := by
          change (d.blocks ++ heldIn ds ++ pins).Perm _
          rw [List.append_assoc]
          exact List.perm_append_comm.trans
            (List.Perm.append_left _ (List.reverse_perm _).symm)
        exact ih (h.freePins _ _ hperm)

/-! ### The numbers of the steps -/

/-- The fences of the steps in flight count the steps that schedule tokens, from the number of
processed ones to the number of scheduled ones. -/
def Numbered : Nat → List StepOutput → Nat → Prop
  | p, [], q => p = q
  | p, st :: sts, q =>
      st.fenceSeq = p + 1 ∧
        Numbered (if 0 < st.totalNumScheduledTokens then p + 1 else p) sts q

theorem Numbered.le : ∀ {sts : List StepOutput} {p q : Nat}, Numbered p sts q → p ≤ q := by
  intro sts
  induction sts with
  | nil => intro p q h; exact Nat.le_of_eq h
  | cons st sts ih =>
      intro p q h
      have := ih h.2
      split at this
      · omega
      · exact this

theorem Numbered.lt_of_mem : ∀ {sts : List StepOutput} {p q : Nat}, Numbered p sts q →
    ∀ st ∈ sts, p < st.fenceSeq := by
  intro sts
  induction sts with
  | nil => intro p q _ st hst; cases hst
  | cons st sts ih =>
      intro p q h st' hst'
      rcases List.mem_cons.mp hst' with rfl | hst'
      · have := h.1
        omega
      · have := ih h.2 st' hst'
        split at this
        · omega
        · exact this

theorem Numbered.append {st : StepOutput} : ∀ {sts : List StepOutput} {p q : Nat},
    Numbered p sts q → st.fenceSeq = q + 1 →
    Numbered p (sts ++ [st]) (if 0 < st.totalNumScheduledTokens then q + 1 else q) := by
  intro sts
  induction sts with
  | nil =>
      intro p q h hst
      have hpq : p = q := h
      subst hpq
      exact ⟨hst, rfl⟩
  | cons st' sts ih =>
      intro p q h hst
      exact ⟨h.1, ih h.2 hst⟩

/-! ### The invariant -/

/-- The scheduler with the blocks behind fences among its pins. -/
def shadow (s : InFlightState) : SchedulerState :=
  s.scheduler.inCall.withHeld (heldIn s.deferredFrees)

/-- The block still has the hash that it was retained under. -/
def Unmoved (s : InFlightState) (x : RetainedSource) : Prop :=
  x.blockHash ≠ none ∧ (s.scheduler.manager.pool.blocks x.blockId).blockHash = x.blockHash

/-- Every reference taken is released, belongs to the current call or waits behind a fence. -/
def Balanced (s : InFlightState) : Prop :=
  s.taken.Perm (s.released ++ (s.scheduler.retainedBlocks ++ retainedIn s.deferredFrees))

structure Inv (cfg : InFlightConfig) (s : InFlightState) : Prop where
  shadow : s.shadow.Inv cfg.toEngineConfig
  idle : s.scheduler.phase = .idle → s.scheduler.scheduled = [] ∧ s.scheduler.retainedBlocks = []
  sources_eq : s.sources.map RetainedSource.blockId = s.scheduler.retainedBlocks
  current : ∀ x ∈ s.sources, Unmoved s x
  balanced : Balanced s
  notDeferred : cfg.deferBlockFree = false → s.deferredFrees = []
  due : ∀ d ∈ s.deferredFrees, d.retained = true → s.processedStepSeq < d.fenceSeq
  fence_le : ∀ d ∈ s.deferredFrees, d.fenceSeq ≤ s.schedStepSeq + 1
  ordered : s.deferredFrees.Pairwise fun d d' => d'.retained = true → d.fenceSeq ≤ d'.fenceSeq
  numbered : Numbered s.processedStepSeq (s.executed ++ s.submitted) s.schedStepSeq ∨
    cfg.deferBlockFree = false
  fenced : cfg.deferBlockFree = true → ∀ st ∈ s.submitted, ∀ x ∈ st.sources,
    ∃ d ∈ s.deferredFrees, d.retained = true ∧ d.fenceSeq = st.fenceSeq ∧ x.blockId ∈ d.blocks
  inFlight : cfg.synchronous = true ∨ cfg.deferBlockFree = true →
    ∀ st ∈ s.submitted, ∀ x ∈ st.sources, Unmoved s x

theorem init_inv (cfg : InFlightConfig) : (init cfg).Inv cfg where
  shadow := { SchedulerState.init_inv cfg.toEngineConfig with idle := nofun, lookedUp := nofun }
  idle := fun _ => ⟨rfl, rfl⟩
  sources_eq := rfl
  current := nofun
  balanced := List.Perm.refl _
  notDeferred := fun _ => rfl
  due := nofun
  fence_le := nofun
  ordered := List.Pairwise.nil
  numbered := Or.inl rfl
  fenced := fun _ => nofun
  inFlight := fun _ => nofun

/-- A source behind a fence or of the current call is pinned in the shadow. -/
theorem Inv.pinned_current (h : s.Inv cfg) {x : RetainedSource} (hx : x ∈ s.sources) :
    x.blockId ∈ s.shadow.retainedBlocks := by
  refine List.mem_append_right _ ?_
  change x.blockId ∈ s.scheduler.retainedBlocks
  rw [← h.sources_eq]
  exact List.mem_map_of_mem hx

theorem Inv.pinned_inFlight (h : s.Inv cfg) (hd : cfg.deferBlockFree = true) {st : StepOutput}
    (hst : st ∈ s.submitted) {x : RetainedSource} (hx : x ∈ st.sources) :
    x.blockId ∈ s.shadow.retainedBlocks := by
  obtain ⟨d, hd, -, -, hb⟩ := h.fenced hd st hst x hx
  exact List.mem_append_left _ (mem_heldIn hd hb)

/-! ### Steps that leave the steps in flight alone -/

/-- A step that moves neither the steps in flight nor the retained sources; it may put the blocks of a
request behind a fence. -/
structure Quiet (cfg : InFlightConfig) (s s' : InFlightState) : Prop where
  shadow : s'.shadow.Inv cfg.toEngineConfig
  idle : s'.scheduler.phase = .idle →
    s'.scheduler.scheduled = [] ∧ s'.scheduler.retainedBlocks = []
  retainedBlocks_eq : s'.scheduler.retainedBlocks = s.scheduler.retainedBlocks
  kept : ∀ b ∈ s.shadow.retainedBlocks, (s.scheduler.manager.pool.blocks b).blockHash ≠ none →
    (s'.scheduler.manager.pool.blocks b).blockHash = (s.scheduler.manager.pool.blocks b).blockHash
  deferredFrees_eq : s'.deferredFrees = s.deferredFrees ∨
    (cfg.deferBlockFree = true ∧ ∃ blocks, s'.deferredFrees
      = s.deferredFrees ++ [{ fenceSeq := s.schedStepSeq, blocks := blocks, retained := false }])
  same : s'.schedStepSeq = s.schedStepSeq ∧ s'.processedStepSeq = s.processedStepSeq ∧
    s'.submitted = s.submitted ∧ s'.executed = s.executed ∧ s'.sources = s.sources ∧
    s'.taken = s.taken ∧ s'.released = s.released

theorem Inv.quiet (h : s.Inv cfg) (hq : Quiet cfg s s') (hw : s.waits cfg = false) :
    s'.Inv cfg := by
  obtain ⟨hsched, hproc, hsub, hexec, hsrc, htaken, hrel⟩ := hq.same
  have hmove : ∀ x, x.blockId ∈ s.shadow.retainedBlocks → Unmoved s x → Unmoved s' x := by
    rintro x hx ⟨hne, heq⟩
    refine ⟨hne, ?_⟩
    rw [hq.kept _ hx (by rw [heq]; exact hne), heq]
  have hsubset : ∀ d ∈ s.deferredFrees, d ∈ s'.deferredFrees := by
    intro d hd
    rcases hq.deferredFrees_eq with he | ⟨-, blocks, he⟩
    · rw [he]; exact hd
    · rw [he]; exact List.mem_append_left _ hd
  have hcases : ∀ d ∈ s'.deferredFrees, d ∈ s.deferredFrees ∨
      (d.retained = false ∧ d.fenceSeq = s.schedStepSeq) := by
    intro d hd
    rcases hq.deferredFrees_eq with he | ⟨-, blocks, he⟩
    · rw [he] at hd; exact Or.inl hd
    · rw [he] at hd
      rcases List.mem_append.mp hd with hd | hd
      · exact Or.inl hd
      · rw [List.mem_singleton] at hd
        subst hd
        exact Or.inr ⟨rfl, rfl⟩
  refine { shadow := hq.shadow, idle := hq.idle, sources_eq := ?_, current := ?_, balanced := ?_,
           notDeferred := ?_, due := ?_, fence_le := ?_, ordered := ?_, numbered := ?_,
           fenced := ?_, inFlight := ?_ }
  · rw [hsrc, hq.retainedBlocks_eq]
    exact h.sources_eq
  · intro x hx
    rw [hsrc] at hx
    exact hmove x (h.pinned_current hx) (h.current x hx)
  · have hret : retainedIn s'.deferredFrees = retainedIn s.deferredFrees := by
      rcases hq.deferredFrees_eq with he | ⟨-, blocks, he⟩
      · rw [he]
      · rw [he, retainedIn_append]
        exact List.append_nil _
    rw [Balanced, htaken, hrel, hq.retainedBlocks_eq, hret]
    exact h.balanced
  · intro hd
    rcases hq.deferredFrees_eq with he | ⟨hd', -⟩
    · rw [he]; exact h.notDeferred hd
    · rw [hd] at hd'; cases hd'
  · intro d hd hr
    rw [hproc]
    rcases hcases d hd with hd | ⟨hf, -⟩
    · exact h.due d hd hr
    · rw [hf] at hr; cases hr
  · intro d hd
    rw [hsched]
    rcases hcases d hd with hd | ⟨-, hf⟩
    · exact h.fence_le d hd
    · omega
  · rcases hq.deferredFrees_eq with he | ⟨-, blocks, he⟩
    · rw [he]; exact h.ordered
    · rw [he, List.pairwise_append]
      refine ⟨h.ordered, List.pairwise_singleton _ _, ?_⟩
      intro d _ d' hd' hr
      rw [List.mem_singleton] at hd'
      subst hd'
      cases hr
  · rw [hproc, hexec, hsub, hsched]
    exact h.numbered
  · intro hd st hst x hx
    rw [hsub] at hst
    obtain ⟨d, hd, hr, hf, hb⟩ := h.fenced hd st hst x hx
    exact ⟨d, hsubset d hd, hr, hf, hb⟩
  · intro hcfg st hst x hx
    rw [hsub] at hst
    rcases hcfg with hsync | hd
    · -- the engine would wait
      rw [waits, hsync, Bool.true_and, Bool.not_eq_false', List.isEmpty_iff] at hw
      rw [hw] at hst
      cases hst
    · exact hmove x (h.pinned_inFlight hd hst hx) (h.inFlight (Or.inr hd) st hst x hx)

theorem addRequest_quiet (h : s.Inv cfg) {r : Request} (hs : s.addRequest cfg r = some s') :
    Quiet cfg s s' := by
  rw [addRequest, Option.map_eq_some_iff] at hs
  obtain ⟨sched, hs, rfl⟩ := hs
  obtain ⟨hphase, hnone, hprompt, -, hstatus, hcomp, -, -, hpos, hle, rfl⟩ := addRequest_some hs
  exact { shadow := h.shadow.add (h.idle hphase).1 (inCall_not_lookedUp hphase) hnone hprompt
            hstatus hcomp hpos hle
          idle := h.idle
          retainedBlocks_eq := rfl
          kept := fun _ _ _ => rfl
          deferredFrees_eq := Or.inl rfl
          same := ⟨rfl, rfl, rfl, rfl, rfl, rfl, rfl⟩ }

theorem appendOutput_quiet (h : s.Inv cfg) {id : String} {t : Nat}
    (hs : ((s.scheduler.appendOutput cfg.toEngineConfig id t).map fun sched =>
      { s with scheduler := sched }) = some s') : Quiet cfg s s' := by
  obtain ⟨sched, hsched, rfl⟩ := Option.map_eq_some_iff.mp hs
  obtain ⟨r, hr, hphase, hstatus, -, hlt, rfl⟩ := appendOutput_some hsched
  exact { shadow := h.shadow.append (h.idle hphase).1 (inCall_not_lookedUp hphase) hr hstatus hlt t
          idle := h.idle
          retainedBlocks_eq := rfl
          kept := fun _ _ _ => rfl
          deferredFrees_eq := Or.inl rfl
          same := ⟨rfl, rfl, rfl, rfl, rfl, rfl, rfl⟩ }

/-- A reset finds no pins. -/
theorem resetPrefixCache_quiet (h : s.Inv cfg)
    (hs : ((s.scheduler.resetPrefixCache cfg.toEngineConfig).map fun sched =>
      { s with scheduler := sched }) = some s') : Quiet cfg s s' := by
  obtain ⟨sched, hsched, rfl⟩ := Option.map_eq_some_iff.mp hs
  obtain ⟨hphase, m, hm, rfl⟩ := resetPrefixCache_some hsched
  refine { shadow := h.shadow.reset (inCall_not_lookedUp hphase) hm
           idle := h.idle
           retainedBlocks_eq := rfl
           kept := ?_
           deferredFrees_eq := Or.inl rfl
           same := ⟨rfl, rfl, rfl, rfl, rfl, rfl, rfl⟩ }
  intro b hb
  rw [KVCacheManager.resetPrefixCache, Option.map_eq_some_iff] at hm
  obtain ⟨pool, hpool, -⟩ := hm
  have hpos := h.shadow.manager.refCnt_pos_of_pin hb
  have hv := h.shadow.manager.valid_pins b hb
  have hzero := KVCacheManager.free_of_resetPrefixCache h.shadow.manager.pool_wf hpool b hv.1 hv.2
  exact absurd hzero (Int.ne_of_gt hpos)

/-- The blocks of a freed request are free, or pinned behind a fence. -/
theorem freeRequestBlocks_spec (h : s.Inv cfg) (r : Request) (isFinished : Bool) :
    KVCacheManager.Freed cfg.toManagerConfig s.scheduler.manager r isFinished
      (s.freeRequestBlocks cfg r isFinished).1 ∧
    (s.freeRequestBlocks cfg r isFinished).1.Inv cfg.toManagerConfig s.scheduler.requests
      (heldIn (s.freeRequestBlocks cfg r isFinished).2 ++ s.scheduler.retainedBlocks) ∧
    ((s.freeRequestBlocks cfg r isFinished).2 = s.deferredFrees ∨
      (cfg.deferBlockFree = true ∧ ∃ blocks, (s.freeRequestBlocks cfg r isFinished).2
        = s.deferredFrees ++
          [{ fenceSeq := s.schedStepSeq, blocks := blocks, retained := false }])) := by
  have hm : s.scheduler.manager.Inv cfg.toManagerConfig s.scheduler.requests
    (heldIn s.deferredFrees ++ s.scheduler.retainedBlocks) := h.shadow.manager
  by_cases hnow : cfg.deferBlockFree = false ∨ s.lastSchedSeq r.requestId ≤ s.processedStepSeq
  · rw [freeRequestBlocks, if_pos hnow]
    exact ⟨KVCacheManager.free_freed _ _ _, KVCacheManager.free_inv hm r isFinished, Or.inl rfl⟩
  · have hdef : cfg.deferBlockFree = true := by
      by_contra hd
      exact hnow (Or.inl (by simpa using hd))
    have heq : s.freeRequestBlocks cfg r isFinished
        = ((s.scheduler.manager.popBlocksForFree cfg.toManagerConfig r isFinished).2,
          if s.scheduler.manager.reqToBlocks r.requestId = [] then s.deferredFrees
          else s.deferredFrees ++
            [⟨s.schedStepSeq, s.scheduler.manager.reqToBlocks r.requestId, false⟩]) := by
      rw [freeRequestBlocks, if_neg hnow]
      rfl
    have hpop := KVCacheManager.popBlocksForFree_inv hm r isFinished
    by_cases hnil : s.scheduler.manager.reqToBlocks r.requestId = []
    · rw [heq, if_pos hnil]
      rw [hnil, List.append_nil] at hpop
      exact ⟨KVCacheManager.popBlocksForFree_freed _ _ _, hpop, Or.inl rfl⟩
    · rw [heq, if_neg hnil]
      refine ⟨KVCacheManager.popBlocksForFree_freed _ _ _, hpop.perm ?_, Or.inr ⟨hdef, _, rfl⟩⟩
      rw [heldIn_append, List.append_assoc, List.append_assoc]
      refine List.Perm.append_left _ (List.perm_append_comm.trans (List.Perm.of_eq ?_))
      rw [heldIn, List.flatMap_singleton]

theorem finish_quiet (h : s.Inv cfg) {id : String} (hs : s.finish cfg id = some s') :
    Quiet cfg s s' := by
  rw [finish] at hs
  split at hs
  · cases hs
  · next r hr =>
      obtain ⟨sched, hsched, rfl⟩ := Option.map_eq_some_iff.mp hs
      obtain ⟨r', hr', hphase, -, rfl⟩ := finish_some hsched
      rw [hr, Option.some.injEq] at hr'
      subst hr'
      obtain ⟨hfreed, hinv, hdef⟩ := freeRequestBlocks_spec h r true
      exact { shadow := h.shadow.remove (h.idle hphase).1 (inCall_not_lookedUp hphase) hr hinv
                hfreed (fun hp => absurd hp (by
                  change (if s.scheduler.phase = .idle then Phase.stopped else _) ≠ _
                  rw [if_pos hphase]
                  nofun))
              idle := h.idle
              retainedBlocks_eq := rfl
              kept := fun b _ _ => hfreed.blockHash_eq b
              deferredFrees_eq := hdef
              same := ⟨rfl, rfl, rfl, rfl, rfl, rfl, rfl⟩ }

/-- Inside of a call the shadow differs in its pins only. -/
theorem shadow_of_ne (h : s.scheduler.phase ≠ .idle) :
    s.shadow = s.scheduler.withHeld (heldIn s.deferredFrees) := by
  rw [shadow, inCall_of_ne h]

theorem preempt_quiet (h : s.Inv cfg) {id : String} (hs : s.preempt cfg id = some s') :
    Quiet cfg s s' := by
  rw [preempt] at hs
  split at hs
  · cases hs
  · next r hr =>
      obtain ⟨sched, hsched, rfl⟩ := Option.map_eq_some_iff.mp hs
      obtain ⟨p, r', hphase, hr', -, rfl⟩ := preempt_some hsched
      rw [hr, Option.some.injEq] at hr'
      subst hr'
      obtain ⟨hfreed, hinv, hdef⟩ := freeRequestBlocks_spec h r false
      exact { shadow := h.shadow.preempted hr hinv hfreed
              idle := nofun
              retainedBlocks_eq := rfl
              kept := fun b _ _ => hfreed.blockHash_eq b
              deferredFrees_eq := hdef
              same := ⟨rfl, rfl, rfl, rfl, rfl, rfl, rfl⟩ }

theorem beginSchedule_quiet (h : s.Inv cfg) (hs : s.beginSchedule cfg = some s') :
    Quiet cfg s s' := by
  rw [beginSchedule, Option.ite_none_right_eq_some, Option.map_eq_some_iff] at hs
  obtain ⟨-, sched, hs, rfl⟩ := hs
  obtain ⟨-, rfl⟩ := beginSchedule_some hs
  exact { shadow := { h.shadow with idle := nofun, lookedUp := nofun }
          idle := nofun
          retainedBlocks_eq := rfl
          kept := fun _ _ _ => rfl
          deferredFrees_eq := Or.inl rfl
          same := ⟨rfl, rfl, rfl, rfl, rfl, rfl, rfl⟩ }

/-- The invariant of the shadow after a step of a call. -/
theorem callStep_shadow (h : s.Inv cfg) {a : Action} (ha : isCallStep a = true)
    {sched : SchedulerState} (hs : schedulerStep cfg.toEngineConfig s.scheduler a = some sched) :
    (sched.withHeld (heldIn s.deferredFrees)).Inv cfg.toEngineConfig := by
  have hsh := h.shadow
  rw [shadow_of_ne (phase_of_callStep ha hs).1] at hsh
  exact schedulerStep_inv hsh (withHeld_callStep ha hs)

theorem callStep_quiet (h : s.Inv cfg) {a : Action} (ha : isCallStep a = true)
    (hne : ∀ id x, a ≠ .admitWaiting id x)
    (hs : ((schedulerStep cfg.toEngineConfig s.scheduler a).map fun sched =>
      { s with scheduler := sched }) = some s') : Quiet cfg s s' := by
  obtain ⟨sched, hsched, rfl⟩ := Option.map_eq_some_iff.mp hs
  obtain ⟨hp, hp'⟩ := phase_of_callStep ha hsched
  refine { shadow := ?_, idle := fun hi => absurd hi hp',
           retainedBlocks_eq := callStep_retainedBlocks ha hne hsched, kept := ?_,
           deferredFrees_eq := Or.inl rfl, same := ⟨rfl, rfl, rfl, rfl, rfl, rfl, rfl⟩ }
  · rw [shadow_of_ne hp']
    exact callStep_shadow h ha hsched
  · intro b hb hh
    have hsh := h.shadow
    rw [shadow_of_ne hp] at hsh hb
    exact callStep_keeps hsh ha (withHeld_callStep ha hsched) hb hh

/-! ### An admission -/

theorem retainedSources_eq {id : String} {r : Request} (hr : s.scheduler.requests id = some r) :
    s.retainedSources cfg id = (s.scheduler.pinned cfg.toEngineConfig r).map fun b =>
      ⟨b, (s.scheduler.manager.pool.blocks b).blockHash⟩ := by
  rw [retainedSources, hr]
  dsimp only
  rw [retain_eq]

theorem map_retainedSources {id : String} {r : Request} (hr : s.scheduler.requests id = some r) :
    (s.retainedSources cfg id).map RetainedSource.blockId
      = s.scheduler.pinned cfg.toEngineConfig r := by
  rw [retainedSources_eq hr, List.map_map]
  exact List.map_id _

/-- A step of a call leaves the pinned sources where they are. -/
theorem unmoved_of_callStep (h : s.Inv cfg) {a : Action} (ha : isCallStep a = true)
    {sched : SchedulerState}
    (hs : schedulerStep cfg.toEngineConfig s.scheduler a = some sched) {x : RetainedSource}
    (hx : x.blockId ∈ s.shadow.retainedBlocks) (hu : Unmoved s x) :
    Unmoved { s with scheduler := sched } x := by
  have hsh := h.shadow
  rw [shadow_of_ne (phase_of_callStep ha hs).1] at hsh hx
  refine ⟨hu.1, ?_⟩
  rw [← hu.2]
  exact callStep_keeps hsh ha (withHeld_callStep ha hs) hx (by
    change (s.scheduler.manager.pool.blocks x.blockId).blockHash ≠ none
    rw [hu.2]
    exact hu.1)

/-- What an admission does: it is refused and releases what it took, or its sources join those of the
call. -/
theorem admitWaiting_cases {id : String} {a : Admission} (hs : s.admitWaiting cfg id a = some s') :
    ∃ r sched, s.scheduler.requests id = some r ∧
      s.scheduler.admitWaiting cfg.toEngineConfig id a = some sched ∧
      ((sched.retainedBlocks = s.scheduler.retainedBlocks ∧ s' = { s with
          scheduler := sched
          taken := s.taken ++ s.scheduler.pinned cfg.toEngineConfig r
          released := s.released ++ s.scheduler.pinned cfg.toEngineConfig r }) ∨
        (∃ hits n new m, s.scheduler.computedBefore r = some (hits, n) ∧ isWaiting r = true ∧
          admissible r a n ∧
          admissionResult cfg.toEngineConfig s.scheduler r a hits n = .ok (some new, m) ∧
          sched.manager = m ∧ sched.retainedBlocks
            = s.scheduler.retainedBlocks ++ s.scheduler.pinned cfg.toEngineConfig r ∧
          s' = { s with
            scheduler := sched
            taken := s.taken ++ s.scheduler.pinned cfg.toEngineConfig r
            sources := s.sources ++ s.retainedSources cfg id })) := by
  rw [admitWaiting, Option.map_eq_some_iff] at hs
  obtain ⟨sched, hsched, rfl⟩ := hs
  obtain ⟨r, hits, n, hr, hc, hw, hadm, ⟨m, hm, rfl⟩ | ⟨new, m, hm, rfl⟩⟩ :=
    admitWaiting_some hsched
  · refine ⟨r, _, hr, hsched, Or.inl ⟨rfl, ?_⟩⟩
    dsimp only
    rw [map_retainedSources hr]
    exact if_pos rfl
  · refine ⟨r, _, hr, hsched, Or.inr ⟨hits, n, new, m, hc, hw, hadm, hm, rfl, ?_, ?_⟩⟩
    · rw [retain_eq]
      rfl
    · dsimp only
      rw [map_retainedSources hr]
      exact if_neg nofun

/-- A source that an admission retains keeps its hash. -/
theorem unmoved_of_retained (h : s.Inv cfg) {id : String} {r : Request}
    (hr : s.scheduler.requests id = some r) {a : Admission} {hits : List Nat} {n : Nat}
    (hc : s.scheduler.computedBefore r = some (hits, n)) (hw : isWaiting r = true)
    (ha : admissible r a n) {new : List Nat}
    (hm : admissionResult cfg.toEngineConfig s.scheduler r a hits n
      = .ok (some new, s'.scheduler.manager)) {x : RetainedSource}
    (hx : x ∈ s.retainedSources cfg id) : Unmoved s' x := by
  rw [retainedSources_eq hr] at hx
  obtain ⟨b, hb, rfl⟩ := List.mem_map.mp hx
  have hcall : s.scheduler.phase ≠ .idle := by
    intro hp
    rw [computedBefore, hp] at hc
    cases hc
  have hsh := h.shadow
  rw [shadow_of_ne hcall] at hsh
  obtain ⟨-, -, -, blk, -, -, -, -, -, hhash⟩ :=
    KVCacheManager.mem_sourceIds hsh.manager.pool_wf.toCacheWF hb
  have hne : (s.scheduler.manager.pool.blocks b).blockHash ≠ none := by
    intro hnone
    change (s.scheduler.manager.pool.blocks b).blockHash = _ at hhash
    rw [hnone] at hhash
    cases hhash
  exact ⟨hne, admission_keeps hsh hr hc hw ha hm (List.mem_append_right _ hb) hne⟩

theorem admitWaiting_inv (h : s.Inv cfg) {id : String} {a : Admission}
    (hs : s.admitWaiting cfg id a = some s') (hwaits : s.waits cfg = false) : s'.Inv cfg := by
  obtain ⟨r, sched, hr, hsched, hcase⟩ := admitWaiting_cases hs
  have hcall : isCallStep (.admitWaiting id a) = true := rfl
  have hphase := (phase_of_callStep hcall hsched).2
  have hmove : ∀ x, x.blockId ∈ s.shadow.retainedBlocks → Unmoved s x →
      Unmoved { s with scheduler := sched } x :=
    fun x hx hu => unmoved_of_callStep h hcall hsched hx hu
  have hinFlight : cfg.synchronous = true ∨ cfg.deferBlockFree = true →
      ∀ st ∈ s.submitted, ∀ x ∈ st.sources, Unmoved { s with scheduler := sched } x := by
    intro hcfg st hst x hx
    rcases hcfg with hsync | hd
    · rw [waits, hsync, Bool.true_and, Bool.not_eq_false', List.isEmpty_iff] at hwaits
      rw [hwaits] at hst
      cases hst
    · exact hmove x (h.pinned_inFlight hd hst hx) (h.inFlight (Or.inr hd) st hst x hx)
  have hshadow := callStep_shadow h hcall hsched
  have hbal := h.balanced
  rw [Balanced] at hbal
  rcases hcase with ⟨hret, rfl⟩ | ⟨hits, n, new, m, hc, hw, hadm, hm, rfl, hret, rfl⟩
  · refine { h with shadow := ?_, idle := fun hi => absurd hi hphase, sources_eq := ?_,
                    current := ?_, balanced := ?_, inFlight := hinFlight }
    · rw [shadow_of_ne hphase]
      exact hshadow
    · change s.sources.map _ = sched.retainedBlocks
      rw [hret]
      exact h.sources_eq
    · intro x hx
      exact hmove x (h.pinned_current hx) (h.current x hx)
    · change (s.taken ++ _).Perm (s.released ++ _ ++ (sched.retainedBlocks ++ _))
      rw [hret, List.perm_iff_count]
      intro b
      have hcount := hbal.count_eq b
      simp only [List.count_append] at hcount ⊢
      omega
  · refine { h with shadow := ?_, idle := fun hi => absurd hi hphase, sources_eq := ?_,
                    current := ?_, balanced := ?_, inFlight := hinFlight }
    · rw [shadow_of_ne hphase]
      exact hshadow
    · change (s.sources ++ _).map _ = sched.retainedBlocks
      rw [hret, List.map_append, h.sources_eq, map_retainedSources hr]
    · intro x hx
      rcases List.mem_append.mp hx with hx | hx
      · exact hmove x (h.pinned_current hx) (h.current x hx)
      · exact unmoved_of_retained h hr hc hw hadm hm hx
    · change (s.taken ++ _).Perm (s.released ++ (sched.retainedBlocks ++ _))
      rw [hret, List.perm_iff_count]
      intro b
      have hcount := hbal.count_eq b
      simp only [List.count_append] at hcount ⊢
      omega

/-! ### The end of a call -/

/-- The step that a call hands to the worker. -/
def stepOutput (s : InFlightState) : StepOutput where
  totalNumScheduledTokens := (s.scheduler.scheduled.map ScheduledRequest.numScheduledTokens).sum
  fenceSeq := s.schedStepSeq + 1
  sources := s.sources

/-- The scheduler after a call, with the pool that is left. -/
def afterCall (s : InFlightState) (pool : BlockPool) : SchedulerState :=
  { s.scheduler.finishSchedule with manager := { s.scheduler.manager with pool := pool } }

theorem freesNow_eq (h : s.Inv cfg) :
    s.freesNow cfg (s.schedStepSeq + 1) = !cfg.deferBlockFree := by
  rw [freesNow]
  cases hd : cfg.deferBlockFree with
  | false => rfl
  | true =>
      rcases h.numbered with hn | hf
      · have := hn.le
        simp only [Bool.not_true, Bool.false_or, decide_eq_false_iff_not]
        omega
      · rw [hd] at hf
        cases hf

/-- Without a fence the retained sources are free at the end of the call. -/
theorem submit_now (h : s.Inv cfg) (hd : cfg.deferBlockFree = false)
    (hs : s.submit cfg = some s') : s' = { s with
      scheduler := s.afterCall (s.scheduler.manager.pool.freeBlocks s.scheduler.retainedBlocks)
      submitted := s.submitted ++ [s.stepOutput]
      sources := []
      released := s.released ++ s.scheduler.retainedBlocks } := by
  rw [submit, Option.ite_none_right_eq_some] at hs
  rw [← Option.some.inj hs.2]
  simp only [freesNow_eq h, hd, Bool.not_false, if_true, true_or, Bool.false_eq_true, false_and,
    if_false]
  rfl

/-- With fences they wait for the step. -/
theorem submit_later (h : s.Inv cfg) (hd : cfg.deferBlockFree = true)
    (hs : s.submit cfg = some s') : ∃ lastSchedSeq, s' = { s with
      scheduler := s.afterCall s.scheduler.manager.pool
      schedStepSeq := if 0 < s.stepOutput.totalNumScheduledTokens then s.schedStepSeq + 1
        else s.schedStepSeq
      deferredFrees := if s.scheduler.retainedBlocks = [] then s.deferredFrees
        else s.deferredFrees ++
          [⟨s.schedStepSeq + 1, s.scheduler.retainedBlocks.reverse, true⟩]
      lastSchedSeq := lastSchedSeq
      submitted := s.submitted ++ [s.stepOutput]
      sources := [] } := by
  rw [submit, Option.ite_none_right_eq_some] at hs
  rw [← Option.some.inj hs.2]
  simp only [freesNow_eq h, hd, Bool.not_true, Bool.false_eq_true, if_false, false_or, true_and]
  exact ⟨_, rfl⟩

/-- The shadow after a call. -/
theorem afterCall_shadow (h : s.Inv cfg) {pool : BlockPool} {ds : List DeferredFree}
    (hm : KVCacheManager.Inv cfg.toManagerConfig s.scheduler.requests (heldIn ds)
      { s.scheduler.manager with pool := pool }) :
    (((s.afterCall pool).inCall).withHeld (heldIn ds)).Inv cfg.toEngineConfig := by
  have hm' : KVCacheManager.Inv cfg.toManagerConfig s.scheduler.requests (heldIn ds ++ [])
      { s.scheduler.manager with pool := pool } := by
    rw [List.append_nil]
    exact hm
  have hlook : ∀ id hits n, Phase.stopped ≠ .lookedUp id hits n := nofun
  have hidle : Phase.stopped = .idle → heldIn ds ++ [] = [] := nofun
  exact h.shadow.advanced hm' hlook hidle

theorem le_ite_succ (p : Prop) [Decidable p] (n : Nat) : n ≤ if p then n + 1 else n := by
  split
  · exact Nat.le_succ n
  · exact Nat.le_refl n

/-- The sources of a submitted step, the new one included, stand where they were pinned. -/
theorem Inv.unmoved_submitted (h : s.Inv cfg)
    (hcfg : cfg.synchronous = true ∨ cfg.deferBlockFree = true) :
    ∀ st ∈ s.submitted ++ [s.stepOutput], ∀ x ∈ st.sources, Unmoved s x := by
  intro st hst x hx
  rcases List.mem_append.mp hst with hst | hst
  · exact h.inFlight hcfg st hst x hx
  · rw [List.mem_singleton] at hst
    subst hst
    exact h.current x hx

/-- The manager holds the retained blocks beside those that wait for their steps. -/
theorem Inv.manager_held (h : s.Inv cfg) : s.scheduler.manager.Inv cfg.toManagerConfig
    s.scheduler.requests (heldIn s.deferredFrees ++ s.scheduler.retainedBlocks) :=
  h.shadow.manager

theorem Inv.mem_retainedBlocks (h : s.Inv cfg) {x : RetainedSource} (hx : x ∈ s.sources) :
    x.blockId ∈ s.scheduler.retainedBlocks := by
  rw [← h.sources_eq]
  exact List.mem_map_of_mem hx

theorem Inv.numbered_submit (h : s.Inv cfg) (hd : cfg.deferBlockFree = true) :
    Numbered s.processedStepSeq (s.executed ++ (s.submitted ++ [s.stepOutput]))
      (if 0 < s.stepOutput.totalNumScheduledTokens then s.schedStepSeq + 1 else s.schedStepSeq) := by
  have hnum : Numbered s.processedStepSeq (s.executed ++ s.submitted) s.schedStepSeq :=
    h.numbered.resolve_right (by rw [hd]; nofun)
  rw [← List.append_assoc]
  exact hnum.append rfl

/-- Without a fence nothing may wait for the step: the sources are free at once. -/
theorem submitNow_inv (h : s.Inv cfg) (hd : cfg.deferBlockFree = false)
    (hs : s.submit cfg = some s') : s'.Inv cfg := by
  have hbal := h.balanced
  rw [Balanced] at hbal
  have hs' := submit_now h hd hs
  subst hs'
  have hmove : ∀ x, Unmoved s x → (x.blockHash ≠ none ∧
      ((s.scheduler.manager.pool.freeBlocks s.scheduler.retainedBlocks).blocks
        x.blockId).blockHash = x.blockHash) := by
    rintro x ⟨hne, heq⟩
    refine ⟨hne, ?_⟩
    rw [BlockPool.freeBlocks_blocks]
    exact heq
  refine { shadow := afterCall_shadow h (h.manager_held.freePins _ _ (List.Perm.refl _)),
           idle := fun _ => ⟨rfl, rfl⟩, sources_eq := rfl, current := nofun, balanced := ?_,
           notDeferred := h.notDeferred, due := h.due, fence_le := h.fence_le,
           ordered := h.ordered, numbered := Or.inr hd, fenced := ?_, inFlight := ?_ }
  · change s.taken.Perm (s.released ++ _ ++ ([] ++ _))
    rw [List.perm_iff_count]
    intro b
    have hcount := hbal.count_eq b
    simp only [List.count_append, List.count_nil] at hcount ⊢
    omega
  · intro hd'
    rw [hd] at hd'
    cases hd'
  · intro hcfg st hst x hx
    rcases hcfg with hsync | hd'
    · exact hmove x (h.unmoved_submitted (Or.inl hsync) st hst x hx)
    · rw [hd] at hd'
      cases hd'

/-- A step without retained sources. -/
theorem submitUnfenced_inv (h : s.Inv cfg) (hd : cfg.deferBlockFree = true)
    (hnil : s.scheduler.retainedBlocks = []) (hs : s.submit cfg = some s') : s'.Inv cfg := by
  have hm := h.manager_held
  have hbal := h.balanced
  rw [Balanced] at hbal
  obtain ⟨lastSchedSeq, hs'⟩ := submit_later h hd hs
  subst hs'
  rw [hnil, List.append_nil] at hm
  simp only [if_pos hnil]
  refine { shadow := afterCall_shadow h hm, idle := fun _ => ⟨rfl, rfl⟩, sources_eq := rfl,
           current := nofun, balanced := ?_, notDeferred := h.notDeferred, due := h.due,
           fence_le := ?_, ordered := h.ordered, numbered := Or.inl (h.numbered_submit hd),
           fenced := ?_, inFlight := h.unmoved_submitted }
  · change s.taken.Perm (s.released ++ ([] ++ _))
    rw [← hnil]
    exact hbal
  · intro d hd
    exact (h.fence_le d hd).trans (Nat.succ_le_succ (le_ite_succ _ _))
  · intro hd st hst x hx
    rcases List.mem_append.mp hst with hst | hst
    · exact h.fenced hd st hst x hx
    · rw [List.mem_singleton] at hst
      subst hst
      have hin := h.mem_retainedBlocks hx
      rw [hnil] at hin
      cases hin

/-- The retained sources of a step wait for its fence. -/
theorem submitFenced_inv (h : s.Inv cfg) (hd : cfg.deferBlockFree = true)
    (hne : s.scheduler.retainedBlocks ≠ []) (hs : s.submit cfg = some s') : s'.Inv cfg := by
  have hbal := h.balanced
  rw [Balanced] at hbal
  obtain ⟨lastSchedSeq, hs'⟩ := submit_later h hd hs
  subst hs'
  have hm : s.scheduler.manager.Inv cfg.toManagerConfig s.scheduler.requests
      (heldIn (s.deferredFrees ++
        [⟨s.schedStepSeq + 1, s.scheduler.retainedBlocks.reverse, true⟩])) := by
    refine h.manager_held.perm ?_
    rw [heldIn_append, heldIn, heldIn, List.flatMap_singleton]
    exact List.Perm.append_left _ (List.reverse_perm _).symm
  simp only [if_neg hne]
  refine { shadow := afterCall_shadow h hm, idle := fun _ => ⟨rfl, rfl⟩, sources_eq := rfl,
           current := nofun, balanced := ?_, notDeferred := ?_, due := ?_, fence_le := ?_,
           ordered := ?_, numbered := Or.inl (h.numbered_submit hd), fenced := ?_,
           inFlight := h.unmoved_submitted }
  · change s.taken.Perm (s.released ++ ([] ++ retainedIn (_ ++ [_])))
    rw [List.perm_iff_count]
    intro b
    have hcount := hbal.count_eq b
    have hlast : (retainedIn [⟨s.schedStepSeq + 1, s.scheduler.retainedBlocks.reverse,
        true⟩]).count b = s.scheduler.retainedBlocks.count b := by
      change ((s.scheduler.retainedBlocks.reverse ++ []).count b) = _
      rw [List.append_nil, List.count_reverse]
    simp only [retainedIn_append, List.count_append, List.count_nil, hlast] at hcount ⊢
    omega
  · intro hd'
    rw [hd] at hd'
    cases hd'
  · intro d hin hr
    rcases List.mem_append.mp hin with hin | hin
    · exact h.due d hin hr
    · rw [List.mem_singleton] at hin
      subst hin
      have hle := (h.numbered.resolve_right (by rw [hd]; nofun)).le
      change s.processedStepSeq < s.schedStepSeq + 1
      omega
  · intro d hin
    refine Nat.le_trans ?_ (Nat.succ_le_succ (le_ite_succ _ _))
    rcases List.mem_append.mp hin with hin | hin
    · exact h.fence_le d hin
    · rw [List.mem_singleton] at hin
      subst hin
      exact Nat.le_refl _
  · rw [List.pairwise_append]
    refine ⟨h.ordered, List.pairwise_singleton _ _, ?_⟩
    intro d hd d' hd' _
    rw [List.mem_singleton] at hd'
    subst hd'
    exact h.fence_le d hd
  · intro hd st hst x hx
    rcases List.mem_append.mp hst with hst | hst
    · obtain ⟨d, hd, hr, hf, hb⟩ := h.fenced hd st hst x hx
      exact ⟨d, List.mem_append_left _ hd, hr, hf, hb⟩
    · rw [List.mem_singleton] at hst
      subst hst
      exact ⟨_, List.mem_append_right _ (List.mem_singleton_self _), rfl, rfl,
        List.mem_reverse.mpr (h.mem_retainedBlocks hx)⟩

theorem submit_inv (h : s.Inv cfg) (hs : s.submit cfg = some s') : s'.Inv cfg := by
  cases hd : cfg.deferBlockFree with
  | false => exact submitNow_inv h hd hs
  | true =>
      by_cases hnil : s.scheduler.retainedBlocks = []
      · exact submitUnfenced_inv h hd hnil hs
      · exact submitFenced_inv h hd hnil hs

/-! ### The worker and the outputs -/

theorem runWorker_inv (h : s.Inv cfg) (hs : s.runWorker = some s') : s'.Inv cfg := by
  rw [runWorker] at hs
  split at hs
  · cases hs
  · next step rest hsub =>
      cases hs
      have hsubset : ∀ st ∈ rest, st ∈ s.submitted := by
        intro st hst
        rw [hsub]
        exact List.mem_cons_of_mem _ hst
      refine { h with numbered := ?_, fenced := fun hd st hst => h.fenced hd st (hsubset st hst),
                      inFlight := fun hcfg st hst => h.inFlight hcfg st (hsubset st hst) }
      rcases h.numbered with hn | hd
      · rw [hsub] at hn
        refine Or.inl ?_
        change Numbered _ (s.executed ++ [step] ++ rest) _
        rwa [List.append_assoc, List.singleton_append]
      · exact Or.inr hd

/-- What taking a step's output does. -/
theorem update_cases (hs : s.update cfg = some s') :
    ∃ step rest, s.scheduler.phase = .idle ∧ s.executed = step :: rest ∧
      ((¬ (cfg.deferBlockFree = true ∧ 0 < step.totalNumScheduledTokens) ∧
          s' = { s with executed := rest }) ∨
        (cfg.deferBlockFree = true ∧ 0 < step.totalNumScheduledTokens ∧
          ∃ due left pool, drainDeferredFrees (s.processedStepSeq + 1) s.deferredFrees
              s.scheduler.manager.pool = (left, pool) ∧
            s.deferredFrees = due ++ left ∧
            s' = { s with
              scheduler := { s.scheduler with
                manager := { s.scheduler.manager with pool := pool } }
              processedStepSeq := s.processedStepSeq + 1
              deferredFrees := left
              executed := rest
              released := s.released ++ retainedIn due })) := by
  rw [update] at hs
  split at hs
  · next step rest hphase hexec =>
      refine ⟨step, rest, hphase, hexec, ?_⟩
      split at hs
      · next hd =>
          refine Or.inr ⟨hd.1, hd.2, ?_⟩
          obtain ⟨due, hdue, -⟩ := drainDeferredFrees_spec (s.processedStepSeq + 1)
            s.deferredFrees s.scheduler.manager.pool
          refine ⟨due, _, _, rfl, hdue, ?_⟩
          have htake : s.deferredFrees.take (s.deferredFrees.length
              - (drainDeferredFrees (s.processedStepSeq + 1) s.deferredFrees
                s.scheduler.manager.pool).1.length) = due := by
            generalize (drainDeferredFrees (s.processedStepSeq + 1) s.deferredFrees
              s.scheduler.manager.pool).1 = left at hdue
            rw [hdue, List.length_append, Nat.add_sub_cancel, List.take_left]
          rw [← Option.some.inj hs, ← htake]
      · next hd => exact Or.inl ⟨hd, (Option.some.inj hs).symm⟩
  · cases hs

theorem update_inv (h : s.Inv cfg) (hs : s.update cfg = some s') : s'.Inv cfg := by
  obtain ⟨step, rest, hphase, hexec, ⟨hnot, rfl⟩ | ⟨hd, hpos, due, left, pool, hdrain, hsplit,
    rfl⟩⟩ := update_cases hs
  · refine { h with numbered := ?_ }
    rcases h.numbered with hn | hd
    · rw [hexec] at hn
      have hrest := hn.2
      by_cases hd : cfg.deferBlockFree = true
      · rw [if_neg fun hpos => hnot ⟨hd, hpos⟩] at hrest
        exact Or.inl hrest
      · exact Or.inr (by simpa using hd)
    · exact Or.inr hd
  · have hnum : Numbered s.processedStepSeq (s.executed ++ s.submitted) s.schedStepSeq :=
      h.numbered.resolve_right (by rw [hd]; nofun)
    rw [hexec] at hnum
    have hrest := hnum.2
    rw [if_pos hpos] at hrest
    obtain ⟨due', hsplit', hdue, hhead, hhash⟩ := drainDeferredFrees_spec (s.processedStepSeq + 1)
      s.deferredFrees s.scheduler.manager.pool
    rw [hdrain] at hsplit' hhead hhash
    have hdue' : due' = due := List.append_cancel_right (hsplit'.symm.trans hsplit)
    subst hdue'
    have hleft : ∀ d ∈ left, d ∈ s.deferredFrees := by
      intro d hd
      rw [hsplit]
      exact List.mem_append_right _ hd
    have hmove : ∀ x, Unmoved s x →
        x.blockHash ≠ none ∧ (pool.blocks x.blockId).blockHash = x.blockHash := by
      rintro x ⟨hne, heq⟩
      exact ⟨hne, (hhash _).trans heq⟩
    refine { shadow := ?_, idle := h.idle, sources_eq := h.sources_eq,
             current := fun x hx => hmove x (h.current x hx), balanced := ?_, notDeferred := ?_,
             due := ?_, fence_le := fun d hd => h.fence_le d (hleft d hd), ordered := ?_,
             numbered := Or.inl hrest, fenced := ?_,
             inFlight := fun hcfg st hst x hx => hmove x (h.inFlight hcfg st hst x hx) }
    · have hm : s.scheduler.manager.Inv cfg.toManagerConfig s.scheduler.requests
        (heldIn s.deferredFrees ++ s.scheduler.retainedBlocks) := h.shadow.manager
      have hm' := drainDeferredFrees_inv (s.processedStepSeq + 1) s.deferredFrees hm
      rw [hdrain] at hm'
      exact { h.shadow with
        manager := hm'
        idle := fun hp => absurd hp (by
          change (if s.scheduler.phase = .idle then Phase.stopped else _) ≠ _
          rw [if_pos hphase]
          nofun)
        lookedUp := fun id hits n hp => absurd hp (inCall_not_lookedUp hphase id hits n) }
    · have hbal := h.balanced
      rw [Balanced, hsplit, retainedIn_append] at hbal
      change s.taken.Perm (s.released ++ retainedIn due' ++ (_ ++ retainedIn left))
      rw [List.perm_iff_count]
      intro b
      have hcount := hbal.count_eq b
      simp only [List.count_append] at hcount ⊢
      omega
    · intro hd'
      rw [hd] at hd'
      cases hd'
    · -- the head of what is left is not due, and the fences of retained sources do not decrease
      intro d hin hr
      have hord := h.ordered
      rw [hsplit, List.pairwise_append] at hord
      cases left with
      | nil => cases hin
      | cons d₀ left =>
          have h0 := hhead d₀ rfl
          rcases List.mem_cons.mp hin with rfl | hin
          · exact h0
          · exact h0.trans_le ((List.pairwise_cons.mp hord.2.1).1 d hin hr)
    · have hord := h.ordered
      rw [hsplit, List.pairwise_append] at hord
      exact hord.2.1
    · intro _ st hst x hx
      obtain ⟨d, hin, hr, hf, hb⟩ := h.fenced hd st hst x hx
      refine ⟨d, ?_, hr, hf, hb⟩
      -- the step comes after the one that was processed
      have hlt := hrest.lt_of_mem st (List.mem_append_right _ hst)
      rw [hsplit] at hin
      rcases List.mem_append.mp hin with hin | hin
      · have := hdue d hin
        omega
      · exact hin

/-! ### Every run -/

theorem scheduleStep_inv (h : s.Inv cfg) {a : Action} (hwaits : s.waits cfg = false)
    (hs : s.scheduleStep cfg a = some s') : s'.Inv cfg := by
  cases a with
  | addRequest r => exact h.quiet (addRequest_quiet h hs) hwaits
  | appendOutput id t => exact h.quiet (appendOutput_quiet h hs) hwaits
  | finish id => exact h.quiet (finish_quiet h hs) hwaits
  | resetPrefixCache => exact h.quiet (resetPrefixCache_quiet h hs) hwaits
  | beginSchedule => exact h.quiet (beginSchedule_quiet h hs) hwaits
  | preempt id => exact h.quiet (preempt_quiet h hs) hwaits
  | admitWaiting id a => exact admitWaiting_inv h hs hwaits
  | execute flags => exact submit_inv h hs
  | scheduleRunning id n => exact h.quiet (callStep_quiet h (by rfl) (by nofun) hs) hwaits
  | beginWaiting => exact h.quiet (callStep_quiet h (by rfl) (by nofun) hs) hwaits
  | lookup id => exact h.quiet (callStep_quiet h (by rfl) (by nofun) hs) hwaits
  | skip => exact h.quiet (callStep_quiet h (by rfl) (by nofun) hs) hwaits
  | promoteRemote id => exact h.quiet (callStep_quiet h (by rfl) (by nofun) hs) hwaits

theorem inFlightStep_inv (h : s.Inv cfg) {a : InFlightAction}
    (hs : inFlightStep cfg s a = some s') : s'.Inv cfg := by
  cases a with
  | schedule a =>
      rw [inFlightStep] at hs
      split at hs
      · cases hs
      · next hwaits => exact scheduleStep_inv h (by simpa using hwaits) hs
  | runWorker => exact runWorker_inv h hs
  | update => exact update_inv h hs

theorem inv_of_reachable (h : Reachable (inFlightStep cfg) (init cfg) s) : s.Inv cfg :=
  h.invariant (fun s => s.Inv cfg) (init_inv cfg) (fun _ _ _ hinv _ hs => inFlightStep_inv hinv hs) s

/-- The block can be neither evicted nor taken for other tokens: it has the hash it was retained
under, is referenced and is not in the free queue. -/
def Pinned (s : InFlightState) (x : RetainedSource) : Prop :=
  Unmoved s x ∧ 0 < (s.scheduler.manager.pool.blocks x.blockId).refCnt ∧
    x.blockId ∉ s.scheduler.manager.pool.freeBlockQueue

theorem Inv.pinned (h : s.Inv cfg) {x : RetainedSource} (hx : x.blockId ∈ s.shadow.retainedBlocks)
    (hu : Unmoved s x) : Pinned s x := by
  have hpos := h.shadow.manager.refCnt_pos_of_pin hx
  refine ⟨hu, hpos, ?_⟩
  intro hq
  have := ((h.shadow.manager.pool_wf.mem_queue x.blockId).mp hq).2.2
  omega

end InFlightState

open InFlightState

/-- **Pins are balanced.**  In every run each reference that retaining sources took is released, or
belongs to the current call, or waits behind the fence of a step that is not processed yet; the
counter of a block counts its tables and these references.  The sources of the current call are
pinned.  While the engine waits for its steps, or frees behind fences, those of a step that is not
run yet keep their contents: they are pinned or nothing but the worker can move. -/
theorem retained_balance {cfg : InFlightConfig} {s : InFlightState}
    (h : Reachable (inFlightStep cfg) (InFlightState.init cfg) s) :
    Balanced s ∧
    (s.scheduler.phase = .idle → s.scheduler.retainedBlocks = []) ∧
    (cfg.deferBlockFree = false → s.deferredFrees = []) ∧
    (∀ d ∈ s.deferredFrees, d.retained = true →
      s.processedStepSeq < d.fenceSeq ∧ d.fenceSeq ≤ s.schedStepSeq + 1) ∧
    (∃ ids, RefCount.Supported ids s.scheduler.manager.reqToBlocks ∧ ∀ b, b ≠ 0 →
      (s.scheduler.manager.pool.blocks b).refCnt
        = (RefCount.refs ids s.scheduler.manager.reqToBlocks b : Nat)
          + ((heldIn s.deferredFrees ++ s.scheduler.retainedBlocks).count b : Nat)) ∧
    s.sources.map RetainedSource.blockId = s.scheduler.retainedBlocks ∧
    (∀ x ∈ s.sources, Pinned s x) ∧
    (cfg.synchronous = true ∨ cfg.deferBlockFree = true → ∀ st ∈ s.submitted, ∀ x ∈ st.sources,
      Unmoved s x ∧ (s.waits cfg = true ∨ Pinned s x)) := by
  have hinv := InFlightState.inv_of_reachable h
  refine ⟨hinv.balanced, fun hp => (hinv.idle hp).2, hinv.notDeferred,
    fun d hd hr => ⟨hinv.due d hd hr, hinv.fence_le d hd⟩, hinv.shadow.manager.counts,
    hinv.sources_eq, fun x hx => hinv.pinned (hinv.pinned_current hx) (hinv.current x hx), ?_⟩
  intro hcfg st hst x hx
  have hu := hinv.inFlight hcfg st hst x hx
  refine ⟨hu, ?_⟩
  rcases hcfg with hsync | hd
  · refine Or.inl ?_
    rw [waits, hsync, Bool.true_and, Bool.not_eq_true', List.isEmpty_eq_false_iff]
    exact List.ne_nil_of_mem hst
  · exact Or.inr (hinv.pinned (hinv.pinned_inFlight hd hst hx) hu)

/-! ### Two overlapping steps -/

/-- Four blocks, and a batch queue of two. -/
def overlappingConfig (isKvConsumer : Bool) : InFlightConfig :=
  { smallEngine 4 with maxConcurrentBatches := 2, isKvConsumer := isKvConsumer }

/-- Each step is run and processed before the next action. -/
def inTurn (as : List Action) : List InFlightAction :=
  as.flatMap fun a =>
    match a with
    | .execute flags => [.schedule (.execute flags), .runWorker, .update]
    | a => [.schedule a]

/-- The source `[1, 2, 3]` is served; then a request whose second block is `[1, 2]` is scheduled with
the source retained, and the next actions come before the worker has run this step. -/
def overlappingRun (next : List Action) : List InFlightAction :=
  inTurn (serve { requestId := "source", promptTokenIds := some [1, 2, 3] }) ++
    (Action.addRequest {
      requestId := "target"
      promptTokenIds := some [5, 6, 1, 2, 7]
      cacheselectSourceRequestId := some "source" } ::
      admission "target" { numNewTokens := 5 } ++ .execute selectiveFlags :: next).map
        InFlightAction.schedule

/-- The other request takes the last free block. -/
def otherRequest : List Action :=
  .addRequest { requestId := "other", promptTokenIds := some [8, 9] } ::
    admission "other" { numNewTokens := 2 }

/-- Behind a fence the source stays pinned while the step is with the worker. -/
theorem fenced_source_balance :
    ∃ s : InFlightState,
      Reachable (inFlightStep (overlappingConfig true))
        (InFlightState.init (overlappingConfig true)) s ∧
      s.submitted ≠ [] ∧ s.taken ≠ [] ∧ Balanced s ∧
      ∀ st ∈ s.submitted, ∀ x ∈ st.sources, Pinned s x := by
  obtain ⟨s, hs, hP⟩ := exists_reachableWhen (inFlightStep (overlappingConfig true))
    (fun _ _ => True) (InFlightState.init (overlappingConfig true)) (overlappingRun [])
    (fun s => !s.submitted.isEmpty && !s.taken.isEmpty) (by decide +kernel)
  simp only [Bool.and_eq_true, Bool.not_eq_true', List.isEmpty_eq_false_iff] at hP
  obtain ⟨hbal, -, -, -, -, -, -, hpinned⟩ := retained_balance hs
  refine ⟨s, hs, hP.1, hP.2, hbal, ?_⟩
  intro st hst x hx
  exact (hpinned (Or.inr rfl) st hst x hx).2.resolve_left (by rw [waits]; nofun)

/-- **A source can be taken before its copy.**  Without a fence the end of the call releases it, and
the next call hands its block to another request while the step is still with the worker. -/
theorem released_before_copy :
    ¬ ∀ (cfg : InFlightConfig) (s : InFlightState),
      Reachable (inFlightStep cfg) (InFlightState.init cfg) s →
      ∀ st ∈ s.submitted, ∀ x ∈ st.sources, Unmoved s x := by
  intro hclaim
  obtain ⟨s, hs, hP⟩ := exists_reachableWhen (inFlightStep (overlappingConfig false))
    (fun _ _ => True) (InFlightState.init (overlappingConfig false)) (overlappingRun otherRequest)
    (fun s => s.submitted.any fun st => st.sources.any fun x =>
      (s.scheduler.manager.pool.blocks x.blockId).blockHash != x.blockHash) (by decide +kernel)
  rw [List.any_eq_true] at hP
  obtain ⟨st, hst, hP⟩ := hP
  rw [List.any_eq_true] at hP
  obtain ⟨x, hx, hP⟩ := hP
  exact absurd (hclaim _ s hs st hst x hx).2 (by simpa using hP)

end CacheSelect.Engine

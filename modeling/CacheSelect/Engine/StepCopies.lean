import CacheSelect.Engine.Pending
import CacheSelect.Engine.TokenIdentity

/-! # The copies of all new requests of a step

The worker joins the copies of all new requests of a step: it repacks once and then copies the aligned
blocks once.  A block may stand in the tables of several requests, but at most one of them may copy to it
(`DistinctTargets`), so that in every reachable state the target blocks of a step are distinct.

The sources are another matter: a target block of one request can be a source block of another.
`step_copies` says what this does.  Every request of the step gets the rows that its copies alone would
bring, except where an aligned copy reads a block that another request repacks: it gets the repacked rows
(`copy_from_repacked_block`).  `step_copies_own` says which admissions rule this out.
-/

namespace CacheSelect.Engine

open CacheSelect.Core CacheSelect.Worker Transition

/-! ### Target blocks -/

/-- A request has a plan that it is not looked up for again: it is scheduled with the plan, or the
tokens that it was looked up for are loaded. -/
def HoldsPlan (s : SchedulerState) (id : String) (plan : PartialReusePlan) : Prop :=
  (∃ e ∈ s.scheduled, e.reqId = id ∧ e.partialReusePlan = some plan) ∨
    ∃ r, s.requests id = some r ∧ SchedulerState.awaitsLoad r = true ∧ r.partialReusePlan = some plan

/-- A block that a request copies to, or may copy to later.  One of a single token may copy to any block
of its table, since it is looked up again when its token has been loaded. -/
def IsTarget (s : SchedulerState) (id : String) (b : Nat) : Prop :=
  (∃ plan, HoldsPlan s id plan ∧ ∃ c ∈ plan.candidates,
    (s.manager.reqToBlocks id)[c.targetBlockIndex]? = some b) ∨
  ∃ r, s.requests id = some r ∧ r.status ≠ .running ∧ r.numTokens ≤ 1 ∧
    b ∈ s.manager.reqToBlocks id

/-- No block is a target of two requests. -/
def DistinctTargets (s : SchedulerState) : Prop :=
  ∀ id id' b, IsTarget s id b → IsTarget s id' b → id = id'

theorem IsTarget.mem_table {s : SchedulerState} {id : String} {b : Nat} (h : IsTarget s id b) :
    b ∈ s.manager.reqToBlocks id := by
  rcases h with ⟨plan, -, c, -, hb⟩ | ⟨r, -, -, -, hb⟩
  · exact List.mem_of_getElem? hb
  · exact hb

theorem ne_running_of_awaitsLoad {r : Request} (h : SchedulerState.awaitsLoad r = true) :
    r.status ≠ .running :=
  fun hrun => SchedulerState.not_awaitsLoad_of_running hrun h

section

variable {cfg : EngineConfig} {s s' t : SchedulerState} {id₀ : String}

/-- The targets of a request whose table, plans and waiting are those of another state. -/
theorem IsTarget.of_same {id : String} {b : Nat} (ht : IsTarget t id b)
    (htable : t.manager.reqToBlocks id = s.manager.reqToBlocks id)
    (hsched : ∀ e ∈ t.scheduled, e.reqId = id → e ∈ s.scheduled ∨ e.partialReusePlan = none)
    (hreq : ∀ q, t.requests id = some q → q.status ≠ .running → ∃ r, s.requests id = some r ∧
      r.status ≠ .running ∧ r.numTokens = q.numTokens ∧
      (SchedulerState.awaitsLoad q = true →
        SchedulerState.awaitsLoad r = true ∧ r.partialReusePlan = q.partialReusePlan)) :
    IsTarget s id b := by
  rcases ht with
    ⟨plan, ⟨e, he, hid, hplan⟩ | ⟨q, hq, haw, hplan⟩, c, hc, hb⟩ | ⟨q, hq, hne, hone, hb⟩
  · rw [htable] at hb
    rcases hsched e he hid with hin | hno
    · exact Or.inl ⟨plan, Or.inl ⟨e, hin, hid, hplan⟩, c, hc, hb⟩
    · rw [hno] at hplan
      cases hplan
  · rw [htable] at hb
    obtain ⟨r, hr, -, -, hkeep⟩ := hreq q hq (ne_running_of_awaitsLoad haw)
    obtain ⟨haw', hplan'⟩ := hkeep haw
    exact Or.inl ⟨plan, Or.inr ⟨r, hr, haw', hplan'.trans hplan⟩, c, hc, hb⟩
  · rw [htable] at hb
    obtain ⟨r, hr, hne', hnum, -⟩ := hreq q hq hne
    exact Or.inr ⟨r, hr, hne', by rw [hnum]; exact hone, hb⟩

/-- What a step about one request leaves to the others. -/
structure SameButOne (s t : SchedulerState) (id : String) : Prop where
  table : ∀ id', id' ≠ id → t.manager.reqToBlocks id' = s.manager.reqToBlocks id'
  requests : ∀ id', id' ≠ id → t.requests id' = s.requests id'
  scheduled : ∀ e ∈ t.scheduled, e.reqId ≠ id → e ∈ s.scheduled

theorem IsTarget.of_ne {id : String} {b : Nat} (ht : IsTarget t id b) (hid : id ≠ id₀)
    (hst : SameButOne s t id₀) : IsTarget s id b := by
  refine ht.of_same (hst.table id hid) (fun e he heq => ?_) fun q hq hne => ?_
  · exact Or.inl (hst.scheduled e he (heq ▸ hid))
  · rw [hst.requests id hid] at hq
    exact ⟨q, hq, hne, rfl, fun haw => ⟨haw, rfl⟩⟩

/-- A step that leaves its request running without a plan, or without blocks, brings no target. -/
theorem IsTarget.of_inactive {id : String} {b : Nat} (ht : IsTarget t id b) (id₀ : String)
    (hst : SameButOne s t id₀) (hplan : ∀ e ∈ t.scheduled, e.reqId = id₀ → e.partialReusePlan = none)
    (hself : ∀ q, t.requests id₀ = some q → q.status = .running ∨ t.manager.reqToBlocks id₀ = []) :
    IsTarget s id b := by
  by_cases hid : id = id₀
  · subst hid
    have hmem := ht.mem_table
    have hrun : ∀ q, t.requests id = some q → q.status = .running := fun q hq =>
      (hself q hq).resolve_right fun hnil => by rw [hnil] at hmem; cases hmem
    rcases ht with ⟨plan, ⟨e, he, hid, hp⟩ | ⟨q, hq, haw, -⟩, -⟩ | ⟨q, hq, hne, -⟩
    · rw [hplan e he hid] at hp
      cases hp
    · exact absurd (hrun q hq) (ne_running_of_awaitsLoad haw)
    · exact absurd (hrun q hq) hne
  · exact ht.of_ne hid hst

/-- The request of an admission copies to blocks that it could copy to before, or that nobody had. -/
theorem isTarget_admission (h : s.Inv cfg) (hbehind : LookupBehind cfg s) {r : Request}
    (hr : s.requests r.requestId = some r) (hw : SchedulerState.isWaiting r = true)
    {a : SchedulerState.Admission} {hits : List Nat} {n : Nat}
    (hc : s.computedBefore r = some (hits, n)) (ha : SchedulerState.admissible r a n)
    {new : List Nat} {m : KVCacheManager}
    (hm : SchedulerState.admissionResult cfg s r a hits n = .ok (some new, m)) {b : Nat}
    (ht : IsTarget (s.afterAdmission r a hits n (s.pinned cfg r) m) r.requestId b) :
    IsTarget s r.requestId b ∨ ∀ id, b ∉ s.manager.reqToBlocks id := by
  have hok := h.request _ r hr
  have hne := SchedulerState.isWaiting_ne_running hw
  have hnot := SchedulerState.not_scheduled_of_status h hr hne
  have hnobody : ((s.retainedManager cfg r).pool.blocks b).refCnt = 0 →
      ∀ id, b ∉ s.manager.reqToBlocks id :=
    fun h0 id => (SchedulerState.retainedManager_inv h r).not_mem_of_refCnt h0 id
  obtain ⟨-, hn, hcase⟩ := SchedulerState.computedBefore_spec h hr hc
  -- the table of a single token may be loaded already, and then there are no hits
  have hone : r.numTokens ≤ 1 → hits = [] := by
    intro hone
    rcases hcase with ⟨-, hle, -⟩ | ⟨-, hnil, -⟩
    · have : hits.length * cfg.blockSize = 0 := by omega
      rcases Nat.mul_eq_zero.mp this with h0 | h0
      · exact List.length_eq_zero_iff.mp h0
      · exact absurd h0 (Nat.ne_of_gt cfg.blockSize_pos)
    · exact hnil
  have hplan : ∀ p, r.partialReusePlan = some p → ∀ c ∈ p.candidates,
      (m.reqToBlocks r.requestId)[c.targetBlockIndex]? = some b →
      IsTarget s r.requestId b ∨ ∀ id, b ∉ s.manager.reqToBlocks id := by
    intro p hp c hcand hb
    have hle : hits.length ≤ c.targetBlockIndex := by
      rcases hcase with ⟨-, -, hphase⟩ | ⟨-, hnil, -⟩
      · have := hbehind _ hits n r p hphase hr hp c hcand
        rw [hn] at this
        exact Nat.le_of_mul_le_mul_right this cfg.blockSize_pos
      · rw [hnil]
        exact Nat.zero_le _
    rcases admitted_block h hr hw hc ha hm hb hle with hold | h0
    · left
      rcases hcase with ⟨h0, -, -⟩ | ⟨h0, -, -⟩
      · rcases hok.waiting hw h0 with ⟨hnil, -⟩ | ⟨-, hone'⟩
        · rw [hnil] at hold
          cases hold
        · exact Or.inr ⟨r, hr, hne, hone', List.mem_of_getElem? hold⟩
      · refine Or.inl ⟨p, Or.inr ⟨r, hr, ?_, hp⟩, c, hcand, hold⟩
        rw [SchedulerState.awaitsLoad, hw, bne_iff_ne.mpr h0]
        simp
    · exact Or.inr (hnobody h0)
  rcases ht with ⟨plan, ⟨e, he, hid, hp⟩ | ⟨q, hq, -, hp⟩, c, hcand, hb⟩ | ⟨q, hq, -, hone', hb⟩
  · rcases SchedulerState.mem_scheduled_afterAdmission.mp he with he | ⟨-, rfl⟩
    · exact absurd hid (hnot e he)
    · obtain ⟨p, hp', hred⟩ := Option.bind_eq_some_iff.mp hp
      obtain ⟨-, hsub, -⟩ := forRetainedSourceIds_some hred
      exact hplan p hp' c (hsub.subset hcand) hb
  · have hq' := (SchedulerState.setRequest_self _ (SchedulerState.admittedRequest r a n)).symm.trans hq
    cases hq'
    exact hplan plan hp c hcand hb
  · have hq' := (SchedulerState.setRequest_self _ (SchedulerState.admittedRequest r a n)).symm.trans hq
    cases hq'
    have hnil := hone hone'
    obtain ⟨k, hk⟩ := List.mem_iff_getElem?.mp hb
    rcases admitted_block h hr hw hc ha hm hk (by rw [hnil]; exact Nat.zero_le _) with hold | h0
    · exact Or.inl (Or.inr ⟨r, hr, hne, hone', List.mem_of_getElem? hold⟩)
    · exact Or.inr (hnobody h0)

theorem isTarget_addRequest (h : s.Inv cfg) {r : Request} (hs : s.addRequest cfg r = some s')
    {id : String} {b : Nat} (ht : IsTarget s' id b) : IsTarget s id b := by
  obtain ⟨hphase, hnone, -, -, -, -, -, -, -, -, rfl⟩ := SchedulerState.addRequest_some hs
  refine ht.of_inactive r.requestId ⟨fun _ _ => rfl,
    fun _ hne => SchedulerState.setRequest_of_ne s r hne, fun e he _ => he⟩ (fun e he => ?_)
    fun _ _ => Or.inr (h.manager.live _ hnone).1
  change e ∈ s.scheduled at he
  rw [(h.idle hphase).1] at he
  cases he

theorem isTarget_appendOutput (h : s.Inv cfg) {i : String} {tokenId : Nat}
    (hs : s.appendOutput cfg i tokenId = some s') {id : String} {b : Nat} (ht : IsTarget s' id b) :
    IsTarget s id b := by
  obtain ⟨r, hr, hphase, hrun, -, -, rfl⟩ := SchedulerState.appendOutput_some hs
  let r' := { r with outputTokenIds := r.outputTokenIds ++ [tokenId] }
  refine ht.of_inactive r.requestId ⟨fun _ _ => rfl,
    fun _ hne => SchedulerState.setRequest_of_ne s r' hne, fun e he _ => he⟩ (fun e he => ?_)
    fun q hq => Or.inl ?_
  · change e ∈ s.scheduled at he
    rw [(h.idle hphase).1] at he
    cases he
  · have hq' := (SchedulerState.setRequest_self s r').symm.trans hq
    cases hq'
    exact hrun

theorem isTarget_finish (h : s.Inv cfg) {i : String} (hs : s.finish cfg i = some s') {id : String}
    {b : Nat} (ht : IsTarget s' id b) : IsTarget s id b := by
  obtain ⟨r, hr, hphase, -, rfl⟩ := SchedulerState.finish_some hs
  have hid := (h.request i r hr).id_eq
  subst hid
  refine ht.of_inactive r.requestId ⟨fun id' hne => ?_,
    fun id' hne => Function.update_of_ne hne _ _, fun e he _ => he⟩ (fun e he => ?_)
    fun q hq => Or.inr ?_
  · change (KVCacheManager.free _ _ _ _).reqToBlocks id' = _
    rw [KVCacheManager.free_reqToBlocks, Function.update_of_ne hne]
  · change e ∈ s.scheduled at he
    rw [(h.idle hphase).1] at he
    cases he
  · change (KVCacheManager.free _ _ _ _).reqToBlocks r.requestId = _
    rw [KVCacheManager.free_reqToBlocks, Function.update_self]

theorem isTarget_scheduleRunning (h : s.Inv cfg) {i : String} {n : Nat}
    (hs : s.scheduleRunning cfg i n = some s') {id : String} {b : Nat} (ht : IsTarget s' id b) :
    IsTarget s id b := by
  obtain ⟨p, r, new, m, -, hr, hrun, hnot, -, -, hm, rfl⟩ := SchedulerState.scheduleRunning_some hs
  have hid := (h.request i r hr).id_eq
  subst hid
  have hall := KVCacheManager.allocateSlots_some h.manager hr (SchedulerState.runningReady h hr n) hm
  have hentry : ∀ e ∈ s.scheduled ++ [SchedulerState.runningEntry r n],
      e ∈ s.scheduled ∧ e.reqId ≠ r.requestId ∨ e = SchedulerState.runningEntry r n := by
    intro e he
    refine (List.mem_append.mp he).imp (fun he => ⟨he, ?_⟩) List.mem_singleton.mp
    exact SchedulerState.not_scheduled_of_isScheduled hnot e he
  refine ht.of_inactive r.requestId ⟨hall.grown.table_of_ne, fun _ _ => rfl,
    fun e he hne => ?_⟩ (fun e he hid => ?_) fun q hq => Or.inl ?_
  · rcases hentry e he with ⟨hin, -⟩ | rfl
    · exact hin
    · exact absurd rfl hne
  · rcases hentry e he with ⟨-, hne⟩ | rfl
    · exact absurd hid hne
    · rfl
  · have hq' : some r = some q := hr.symm.trans hq
    cases hq'
    exact hrun

theorem isTarget_preempt {i : String} (hs : s.preempt cfg i = some s') {id : String} {b : Nat}
    (ht : IsTarget s' id b) : IsTarget s id b := by
  obtain ⟨p, r, -, -, -, rfl⟩ := SchedulerState.preempt_some hs
  refine ht.of_inactive r.requestId ⟨fun id' hne => ?_,
    fun _ hne => SchedulerState.setRequest_of_ne _ _ hne, fun e he _ => (List.mem_filter.mp he).1⟩
    (fun e he hid => ?_) fun q hq => Or.inr ?_
  · change (KVCacheManager.free _ _ _ _).reqToBlocks id' = _
    rw [KVCacheManager.free_reqToBlocks, Function.update_of_ne hne]
  · exact absurd hid (by simpa using (List.mem_filter.mp he).2)
  · change (KVCacheManager.free _ _ _ _).reqToBlocks r.requestId = _
    rw [KVCacheManager.free_reqToBlocks, Function.update_self]

/-- A lookup plans anew, for a request that has no blocks or a single token. -/
theorem isTarget_lookup (h : s.Inv cfg) {i : String} (hs : s.lookup cfg i = some s') {id : String}
    {b : Nat} (ht : IsTarget s' id b) : IsTarget s id b := by
  obtain ⟨r, r', hit, -, hr, hw, h0, hg, rfl⟩ := SchedulerState.lookup_some hs
  obtain ⟨-, -, -, hlook, -⟩ :=
    KVCacheManager.getComputedBlocks_ok h.manager.pool_wf.toCacheWF h.locator hg
  have hid : r'.requestId = i := by rw [hlook]; exact (h.request i r hr).id_eq
  subst hid
  have hw' : SchedulerState.isWaiting r' = true := by rw [hlook]; exact hw
  have h0' : r'.numComputedTokens = 0 := by rw [hlook]; exact h0
  by_cases hid : id = r'.requestId
  · subst hid
    refine ht.of_same rfl (fun e he _ => Or.inl he) fun q hq _ =>
      ⟨r, hr, SchedulerState.isWaiting_ne_running hw, ?_⟩
    have hq' := (SchedulerState.setRequest_self s r').symm.trans hq
    cases hq'
    refine ⟨by rw [hlook]; rfl, fun haw => absurd haw (SchedulerState.not_awaitsLoad_of_zero ?_ h0')⟩
    intro hrem
    rw [SchedulerState.isWaiting, hrem] at hw'
    cases hw'
  · exact ht.of_ne hid ⟨fun _ _ => rfl,
      fun _ hne => SchedulerState.setRequest_of_ne s r' hne, fun e he _ => he⟩

theorem isTarget_admitWaiting (h : s.Inv cfg) (hbehind : LookupBehind cfg s) {i : String}
    {a : SchedulerState.Admission} (hs : s.admitWaiting cfg i a = some s') {id : String} {b : Nat}
    (ht : IsTarget s' id b) :
    IsTarget s id b ∨ id = i ∧ ∀ id', b ∉ s.manager.reqToBlocks id' := by
  obtain ⟨r, hits, n, hr, hc, hw, ha, ⟨m, -, rfl⟩ | ⟨new, m, hm, rfl⟩⟩ :=
    SchedulerState.admitWaiting_some hs
  · exact Or.inl (ht.of_same (by rw [SchedulerState.afterRefusal_manager])
      (fun e he _ => Or.inl he) fun q hq hne => ⟨q, hq, hne, rfl, fun haw => ⟨haw, rfl⟩⟩)
  · have hid := (h.request i r hr).id_eq
    subst hid
    have hall := SchedulerState.admission_allocated h hr hc hw ha hm
    rw [SchedulerState.retain_eq] at ht
    by_cases hid : id = r.requestId
    · subst hid
      exact (isTarget_admission h hbehind hr hw hc ha hm ht).imp_right fun hno => ⟨rfl, hno⟩
    · refine Or.inl (ht.of_ne hid ⟨hall.grown.table_of_ne, fun _ hne =>
        SchedulerState.setRequest_of_ne _ (SchedulerState.admittedRequest r a n) hne,
        fun e he hne => ?_⟩)
      rcases SchedulerState.mem_scheduled_afterAdmission.mp he with he | ⟨-, rfl⟩
      · exact he
      · exact absurd rfl hne

theorem isTarget_promoteRemote (h : s.Inv cfg) {i : String} (hs : s.promoteRemote cfg i = some s')
    {id : String} {b : Nat} (ht : IsTarget s' id b) : IsTarget s id b := by
  obtain ⟨r, m, -, hr, hrem, hm, rfl⟩ := SchedulerState.promoteRemote_some hs
  have hid := (h.request i r hr).id_eq
  subst hid
  obtain ⟨-, -, htab, -, -⟩ := SchedulerState.promotion_cached h hr hm
  by_cases hid : id = r.requestId
  · subst hid
    refine ht.of_same (congrFun htab _) (fun e he _ => Or.inl he) fun q hq _ =>
      ⟨r, hr, by rw [hrem]; decide, ?_⟩
    have hq' := (SchedulerState.setRequest_self _ (SchedulerState.promotedRequest r)).symm.trans hq
    cases hq'
    refine ⟨rfl, fun _ => ⟨?_, rfl⟩⟩
    rw [SchedulerState.awaitsLoad, hrem]
    rfl
  · exact ht.of_ne hid ⟨fun id' _ => congrFun htab id', fun _ hne =>
      SchedulerState.setRequest_of_ne _ (SchedulerState.promotedRequest r) hne, fun e he _ => he⟩

/-- The end of a call leaves the targets of the requests that wait. -/
theorem isTarget_finishSchedule (h : s.Inv cfg) {id : String} {b : Nat}
    (ht : IsTarget s.finishSchedule id b) : IsTarget s id b := by
  refine ht.of_same rfl (fun e he => by cases he) fun q hq hne => ?_
  obtain ⟨r, hr, rfl⟩ := Option.map_eq_some_iff.mp hq
  rcases SchedulerState.advance_cases h hr with ⟨e, -, -, heok, heq⟩ | ⟨-, heq⟩
  · rw [heq] at hne
    exact absurd heok.running hne
  · rw [heq] at hne ⊢
    exact ⟨r, hr, hne, rfl, fun haw => ⟨haw, rfl⟩⟩

/-- **Where a target comes from**: it was one, or its request is being admitted and nobody had the
block. -/
theorem isTarget_step (h : s.Inv cfg) (hbehind : LookupBehind cfg s) {a : Action}
    (hs : schedulerStep cfg s a = some s') {id : String} {b : Nat} (ht : IsTarget s' id b) :
    IsTarget s id b ∨
      (∃ adm, a = .admitWaiting id adm) ∧ ∀ id', b ∉ s.manager.reqToBlocks id' := by
  cases a with
  | addRequest r => exact Or.inl (isTarget_addRequest h hs ht)
  | appendOutput i t => exact Or.inl (isTarget_appendOutput h hs ht)
  | finish i => exact Or.inl (isTarget_finish h hs ht)
  | resetPrefixCache =>
      obtain ⟨-, m, hm, rfl⟩ := SchedulerState.resetPrefixCache_some hs
      rw [KVCacheManager.resetPrefixCache, Option.map_eq_some_iff] at hm
      obtain ⟨pool, -, rfl⟩ := hm
      exact Or.inl ht
  | beginSchedule =>
      obtain ⟨-, rfl⟩ := SchedulerState.beginSchedule_some hs
      exact Or.inl ht
  | scheduleRunning i n => exact Or.inl (isTarget_scheduleRunning h hs ht)
  | preempt i => exact Or.inl (isTarget_preempt hs ht)
  | beginWaiting =>
      obtain ⟨-, rfl⟩ := SchedulerState.beginWaiting_some hs
      exact Or.inl ht
  | lookup i => exact Or.inl (isTarget_lookup h hs ht)
  | skip =>
      obtain ⟨-, rfl⟩ := SchedulerState.skip_some hs
      exact Or.inl ht
  | admitWaiting i adm =>
      refine (isTarget_admitWaiting h hbehind hs ht).imp_right ?_
      rintro ⟨rfl, hno⟩
      exact ⟨⟨adm, rfl⟩, hno⟩
  | promoteRemote i => exact Or.inl (isTarget_promoteRemote h hs ht)
  | execute flags =>
      rw [schedulerStep, Option.ite_none_right_eq_some] at hs
      rw [← Option.some.inj hs.2] at ht
      exact Or.inl (isTarget_finishSchedule h ht)

/-- **Every step keeps the targets distinct.** -/
theorem distinctTargets_step (h : s.Inv cfg) (hbehind : LookupBehind cfg s) (hd : DistinctTargets s)
    {a : Action} (hs : schedulerStep cfg s a = some s') : DistinctTargets s' := by
  intro id id' b ht ht'
  rcases isTarget_step h hbehind hs ht with hold | ⟨⟨adm, ha⟩, hno⟩
  · rcases isTarget_step h hbehind hs ht' with hold' | ⟨-, hno'⟩
    · exact hd id id' b hold hold'
    · exact absurd hold.mem_table (hno' id)
  · rcases isTarget_step h hbehind hs ht' with hold' | ⟨⟨adm', ha'⟩, -⟩
    · exact absurd hold'.mem_table (hno id')
    · rw [ha, Action.admitWaiting.injEq] at ha'
      exact ha'.1

theorem distinctTargets_init (cfg : EngineConfig) : DistinctTargets (SchedulerState.init cfg) :=
  fun _ _ _ ht => by cases ht.mem_table

end

theorem distinctTargets_of_reachable {K : Type} {cfg : EngineConfig} {compute : List K → Nat → K}
    {kv : KVMemory K} {s : State K} (hs : Reachable (step cfg compute) (State.init cfg kv) s) :
    DistinctTargets s.scheduler := by
  refine (hs.invariant (fun s => (s.scheduler.Inv cfg ∧ Plans cfg s.scheduler) ∧
    LookupBehind cfg s.scheduler ∧ DistinctTargets s.scheduler)
    ⟨⟨SchedulerState.init_inv cfg, plans_init cfg⟩, (fun _ _ _ _ _ hp => by cases hp),
      distinctTargets_init cfg⟩ ?_ s).2.2
  rintro s a s' ⟨⟨hinv, hp⟩, hbehind, hd⟩ - hst
  have hsched := schedulerStep_of_step hst
  exact ⟨⟨schedulerStep_inv hinv hsched, plans_step hinv hp hsched⟩,
    lookupBehind_step hinv hp hsched, distinctTargets_step hinv hbehind hd hsched⟩

/-! ### The copies of a step -/

section

variable {K : Type} {cfg : EngineConfig} {s : SchedulerState} {w added : WorkerRequests}

/-- The copies of a step are those of its scheduled requests, in order. -/
theorem stepInstructions_eq (h : s.Inv cfg) (added : WorkerRequests) :
    stepInstructions cfg.toWorkerConfig added (s.newRequests.map NewRequestData.reqId)
      = s.scheduled.flatMap (executedCopies cfg added) := by
  have hids : s.newRequests.map NewRequestData.reqId
      = (s.scheduled.filter ScheduledRequest.isNew).map ScheduledRequest.reqId := by
    rw [← map_scheduledRequests h, List.filter_map, List.map_map, SchedulerState.newRequests,
      List.map_map]
    rfl
  rw [hids, stepInstructions]
  generalize s.scheduled = entries
  split
  · next hoff =>
      refine (List.flatMap_eq_nil_iff.mpr fun e _ => ?_).symm
      rw [executedCopies, stepInstructions, if_pos hoff, ite_self]
  · next hon =>
      induction entries with
      | nil => rfl
      | cons e entries ih =>
          rw [List.flatMap_cons, ← ih, executedCopies, stepInstructions, if_neg hon,
            List.filter_cons]
          split
          · next hnew => rw [List.map_cons, List.flatMap_cons, List.flatMap_singleton]
          · next hold => rw [List.nil_append]

theorem isTarget_of_copy (h : s.Inv cfg) (hp : Plans cfg s)
    (ha : addedRequests cfg s w = .ok added) {e : ScheduledRequest} (he : e ∈ s.scheduled)
    {i : PartialReuseCopyInstruction} (hi : i ∈ executedCopies cfg added e) :
    IsTarget s e.reqId i.targetBlockId := by
  obtain ⟨hnew, hi⟩ := mem_executedCopies hi
  obtain ⟨r, hr, -⟩ := h.entry e he
  obtain ⟨plan, hplan, c, hc, b, hb, rfl⟩ := copy_of_entry h hp ha he hr hnew hi
  exact Or.inl ⟨plan, Or.inl ⟨e, he, rfl, hplan⟩, c, hc, hb⟩

/-- The copies of one request go to distinct blocks. -/
theorem nodup_executedCopies (h : s.Inv cfg) (hp : Plans cfg s)
    (ha : addedRequests cfg s w = .ok added) {e : ScheduledRequest} (he : e ∈ s.scheduled) :
    ((executedCopies cfg added e).map PartialReuseCopyInstruction.targetBlockId).Nodup := by
  rw [executedCopies]
  split
  · next hnew =>
      rw [stepInstructions]
      split
      · exact List.nodup_nil
      · rw [List.flatMap_singleton, copyInstructionsOf]
        split
        · exact List.nodup_nil
        · next work hw =>
            obtain ⟨r, hr, -⟩ := h.entry e he
            obtain ⟨plan, hplan, hok⟩ := reuseOf_added h hp ha he hr hnew hw
            obtain ⟨-, -, ⟨r', -, hplanOk⟩, -⟩ := hp.entry e he plan hplan
            exact nodup_targets hok (h.manager.nodup e.reqId) hplanOk.ordered
  · exact List.nodup_nil

/-- **The target blocks of a step are distinct.** -/
theorem nodup_stepTargets (h : s.Inv cfg) (hp : Plans cfg s) (hd : DistinctTargets s)
    (ha : addedRequests cfg s w = .ok added) :
    ((s.scheduled.flatMap (executedCopies cfg added)).map
      PartialReuseCopyInstruction.targetBlockId).Nodup := by
  rw [List.map_flatMap, List.nodup_flatMap]
  refine ⟨fun e he => nodup_executedCopies h hp ha he, ?_⟩
  refine (List.pairwise_map.mp h.nodup).imp_of_mem ?_
  intro e e' he he' hne b hb hb'
  obtain ⟨i, hi, rfl⟩ := List.mem_map.mp hb
  obtain ⟨i', hi', heq⟩ := List.mem_map.mp hb'
  have ht' := isTarget_of_copy h hp ha he' hi'
  rw [heq] at ht'
  exact hne (hd _ _ _ (isTarget_of_copy h hp ha he hi) ht')

end

/-- A step's copies without those that are switched off. -/
theorem copyBlocks_of_applied {K : Type} {cfg : WorkerConfig} {added w : WorkerRequests}
    {kv kv' : KVMemory K} {ids : List String} (h : applyBlockCopies cfg added kv ids = .ok (w, kv')) :
    copyBlocks cfg kv (stepInstructions cfg added ids) = .ok kv' := by
  rw [applyBlockCopies] at h
  split at h
  · next hoff =>
      cases h
      rw [stepInstructions, if_pos hoff]
      rfl
  · obtain ⟨kv₁, h₁, h⟩ := Except.bind_eq_ok.mp h
    obtain ⟨w₁, -, h⟩ := Except.bind_eq_ok.mp h
    cases h
    exact h₁

/-- **The copies of a step, all new requests together.**  The target blocks are distinct and all other
blocks stay.  Every request gets the rows that its copies alone would bring, except where an aligned copy
reads a block that another request of the step repacks: it gets that block as it is repacked. -/
theorem step_copies {K : Type} {cfg : EngineConfig} {compute : List K → Nat → K}
    {kv₀ : KVMemory K} {s : State K} (hs : Reachable (step cfg compute) (State.init cfg kv₀) s)
    {added w : WorkerRequests} (ha : addedRequests cfg s.scheduler s.worker = .ok added)
    {kv' : KVMemory K} (hcopy : applyBlockCopies cfg.toWorkerConfig added s.kv
      (s.scheduler.newRequests.map NewRequestData.reqId) = .ok (w, kv')) :
    ((s.scheduler.scheduled.flatMap (executedCopies cfg added)).map
      PartialReuseCopyInstruction.targetBlockId).Nodup ∧
    (∀ e ∈ s.scheduler.scheduled, ∃ own,
      copyBlocks cfg.toWorkerConfig s.kv (executedCopies cfg added e) = .ok own ∧
      ∀ i ∈ executedCopies cfg added e, ∀ j < cfg.blockSize,
        kv' i.targetBlockId j = own i.targetBlockId j ∨
        ∃ e' ∈ s.scheduler.scheduled, e' ≠ e ∧ ∃ i' ∈ executedCopies cfg added e',
          i.requiresRepacking = false ∧ i'.requiresRepacking = true ∧
          i'.targetBlockId = i.sourceBlockId ∧
          kv' i.targetBlockId j = kv' i'.targetBlockId j) ∧
    ∀ b, (∀ e ∈ s.scheduler.scheduled, ∀ i ∈ executedCopies cfg added e, i.targetBlockId ≠ b) →
      kv' b = s.kv b := by
  have hinv := inv_of_reachable hs
  have hnd := nodup_stepTargets hinv (plans_of_reachable hs) (distinctTargets_of_reachable hs) ha
  have hall := copyBlocks_of_applied hcopy
  rw [stepInstructions_eq hinv added] at hall
  obtain ⟨-, -, hover, hkeep⟩ := copyBlocks_rows hall hnd
  refine ⟨hnd, fun e he => ?_, fun b hb => hkeep b fun i hi => ?_⟩
  · have hsub : (executedCopies cfg added e).Sublist
        (s.scheduler.scheduled.flatMap (executedCopies cfg added)) := by
      rw [List.flatMap_def]
      exact List.sublist_flatten_of_mem (List.mem_map_of_mem he)
    obtain ⟨own, hown⟩ := copyBlocks_sublist hall hsub
    refine ⟨own, hown, fun i hi j hj => ?_⟩
    by_cases hex : i.requiresRepacking = false ∧ ∃ e' ∈ s.scheduler.scheduled, e' ≠ e ∧
        ∃ i' ∈ executedCopies cfg added e', i'.requiresRepacking = true ∧
          i'.targetBlockId = i.sourceBlockId
    · obtain ⟨hal, e', he', hne, i', hi', hrep, heq⟩ := hex
      refine Or.inr ⟨e', he', hne, i', hi', hal, hrep, heq, ?_⟩
      exact hover i (hsub.subset hi) hal i' (List.mem_flatMap.mpr ⟨e', he', hi'⟩) hrep heq j
    · refine Or.inl (copyBlocks_own hall hnd hsub hown hi (fun hal i' hin hrep heq => ?_) j hj)
      obtain ⟨e', he', hi'⟩ := List.mem_flatMap.mp hin
      by_cases hee : e' = e
      · exact hee ▸ hi'
      · exact absurd ⟨hal, e', he', hee, i', hi', hrep, heq⟩ hex
  · obtain ⟨e, he, hi⟩ := List.mem_flatMap.mp hi
    exact hb e he i hi

/-- Five usable blocks, and a worker that repacks windows across two blocks. -/
def repackedSourceConfig : EngineConfig :=
  { smallEngine 5 with allowRepacking := true, repairSelector := .editProximity 0 }

/-- `again` evicts the block of `source`, registers it under the same hash and is to fill it from an
unaligned window of `wide`; in the same call `target` finds the block of `source` resident. -/
def repackedSourceRun : List Action :=
  serve { requestId := "source", promptTokenIds := some [1, 2] } ++
    serve { requestId := "wide", promptTokenIds := some [9, 1, 2, 7] } ++
    serve { requestId := "filler", promptTokenIds := some [8, 8, 9, 9] } ++
    [.addRequest {
      requestId := "again"
      promptTokenIds := some [1, 2]
      cacheselectSourceRequestId := some "wide"
      cacheselectCounterfactualReuseBlockIndex := some 0 },
    .addRequest {
      requestId := "target"
      promptTokenIds := some [5, 6, 1, 2]
      cacheselectSourceRequestId := some "source" },
    .beginSchedule, .beginWaiting, .lookup "again", .admitWaiting "again" { numNewTokens := 2 },
    .lookup "target", .admitWaiting "target" { numNewTokens := 4 }]

/-- Whether a step repacks the source block of an aligned copy of another request. -/
def repacksSource (cfg : EngineConfig) {K : Type} (s : State K) : Bool :=
  match addedRequests cfg s.scheduler s.worker with
  | .error _ => false
  | .ok added => s.scheduler.scheduled.any fun e => s.scheduler.scheduled.any fun e' =>
      e' != e && (executedCopies cfg added e).any fun i => (executedCopies cfg added e').any fun i' =>
        !i.requiresRepacking && i'.requiresRepacking && i'.targetBlockId == i.sourceBlockId

/-- **An aligned copy can read a block that another request repacks.** -/
theorem copy_from_repacked_block :
    ∃ s : State Unit,
      Reachable (step repackedSourceConfig fun _ _ => ())
        (State.init repackedSourceConfig fun _ _ => ()) s ∧
      ∃ added, addedRequests repackedSourceConfig s.scheduler s.worker = .ok added ∧
        ∃ e ∈ s.scheduler.scheduled, ∃ e' ∈ s.scheduler.scheduled, e' ≠ e ∧
          ∃ i ∈ executedCopies repackedSourceConfig added e,
          ∃ i' ∈ executedCopies repackedSourceConfig added e', i.requiresRepacking = false ∧
            i'.requiresRepacking = true ∧ i'.targetBlockId = i.sourceBlockId := by
  obtain ⟨s, hs, hP⟩ := exists_reachableWhen (step repackedSourceConfig fun _ _ => ())
    (fun _ _ => True) (State.init repackedSourceConfig fun _ _ => ()) repackedSourceRun
    (repacksSource repackedSourceConfig) (by decide +kernel)
  rw [repacksSource] at hP
  split at hP
  · cases hP
  · next added ha =>
      obtain ⟨e, he, hP⟩ := List.any_eq_true.mp hP
      obtain ⟨e', he', hP⟩ := List.any_eq_true.mp hP
      rw [Bool.and_eq_true, bne_iff_ne] at hP
      obtain ⟨hne, hP⟩ := hP
      obtain ⟨i, hi, hP⟩ := List.any_eq_true.mp hP
      obtain ⟨i', hi', hP⟩ := List.any_eq_true.mp hP
      rw [Bool.and_eq_true, Bool.and_eq_true, beq_iff_eq, Bool.not_eq_true'] at hP
      obtain ⟨⟨hal, hrep⟩, heq⟩ := hP
      exact ⟨s, hs, added, ha, e, he, e', he', hne, i, hi, i', hi', hal, hrep, heq⟩

/-! ### Steps in which no request copies from another -/

/-- No admission forwards a plan that copies to a block that is registered already. -/
def copiesUnregistered (cfg : EngineConfig) (s : SchedulerState) : Action → Bool
  | .admitWaiting id a =>
      match s.requests id with
      | none => true
      | some r =>
          match s.computedBefore r with
          | none => true
          | some (hits, n) =>
              match (SchedulerState.admittedEntry r a n (s.pinned cfg r)).partialReusePlan with
              | none => true
              | some plan => plan.candidates.all fun c =>
                  s.manager.numRegistered id + hits.length ≤ c.targetBlockIndex
  | _ => true

/-- No target block of a scheduled plan holds finished KV. -/
def TargetsUnwritten (s : SchedulerState) : Prop :=
  ∀ e ∈ s.scheduled, ∀ plan, e.partialReusePlan = some plan → ∀ c ∈ plan.candidates, ∀ b,
    (s.manager.reqToBlocks e.reqId)[c.targetBlockIndex]? = some b → s.forwarded b = false

section

variable {cfg : EngineConfig} {s s' : SchedulerState}

theorem forwarded_markPending (s : SchedulerState) (id : String) (n : Nat) {b : Nat}
    (hf : s.forwarded b = false) : (s.markPending id n).forwarded b = false := by
  change (if _ then false else s.forwarded b) = false
  rw [hf, ite_self]

/-- The blocks that were loaded and are not registered belong to no other request. -/
theorem unwritten_promoteRemote (h : s.Inv cfg) {id : String}
    (hs : s.promoteRemote cfg id = some s') {e : ScheduledRequest} (he : e ∈ s.scheduled) {i b : Nat}
    (hb : (s'.manager.reqToBlocks e.reqId)[i]? = some b) :
    (s.manager.reqToBlocks e.reqId)[i]? = some b ∧
      (s.forwarded b = false → s'.forwarded b = false) := by
  obtain ⟨r, m, -, hr, hrem, hm, rfl⟩ := SchedulerState.promoteRemote_some hs
  have hid := (h.request id r hr).id_eq
  subst hid
  obtain ⟨-, -, htab, -, -⟩ := SchedulerState.promotion_cached h hr hm
  change (m.reqToBlocks e.reqId)[_]? = _ at hb
  rw [htab] at hb
  refine ⟨hb, fun hf => ?_⟩
  have hne := SchedulerState.not_scheduled_of_status h hr (by rw [hrem]; decide) e he
  have hnot : b ∉ (s.manager.reqToBlocks r.requestId).drop
      (s.manager.numRegistered r.requestId) := by
    intro hin
    obtain ⟨k, hk⟩ := List.mem_iff_getElem?.mp hin
    rw [List.getElem?_drop] at hk
    exact h.manager.registered_of_shared _ _ b (List.mem_of_getElem? hb)
      (List.mem_of_getElem? hk) hne (h.manager.blockHash_eq_none hk (Nat.le_add_right _ _))
  change (if b ∈ _ then true else s.forwarded b) = false
  rw [if_neg hnot, hf]

/-- A step keeps the table of a request that is scheduled before and after it, and brings finished KV to
none of its blocks. -/
theorem unwritten_step (h : s.Inv cfg) {a : Action} (hs : schedulerStep cfg s a = some s')
    {e : ScheduledRequest} (he : e ∈ s.scheduled) (he' : e ∈ s'.scheduled) {i b : Nat}
    (hb : (s'.manager.reqToBlocks e.reqId)[i]? = some b) :
    (s.manager.reqToBlocks e.reqId)[i]? = some b ∧
      (s.forwarded b = false → s'.forwarded b = false) := by
  cases a with
  | addRequest r =>
      obtain ⟨-, -, -, -, -, -, -, -, -, -, rfl⟩ := SchedulerState.addRequest_some hs
      exact ⟨hb, id⟩
  | appendOutput i t =>
      obtain ⟨r, -, -, -, -, -, rfl⟩ := SchedulerState.appendOutput_some hs
      exact ⟨hb, id⟩
  | finish i =>
      obtain ⟨r, -, hphase, -, rfl⟩ := SchedulerState.finish_some hs
      rw [(h.idle hphase).1] at he
      cases he
  | resetPrefixCache =>
      obtain ⟨hphase, m, -, rfl⟩ := SchedulerState.resetPrefixCache_some hs
      rw [(h.idle hphase).1] at he
      cases he
  | beginSchedule =>
      obtain ⟨-, rfl⟩ := SchedulerState.beginSchedule_some hs
      exact ⟨hb, id⟩
  | scheduleRunning i n =>
      obtain ⟨p, r, new, m, -, hr, -, hnot, -, -, hm, rfl⟩ := SchedulerState.scheduleRunning_some hs
      have hid := (h.request i r hr).id_eq
      subst hid
      have hall := KVCacheManager.allocateSlots_some h.manager hr
        (SchedulerState.runningReady h hr n) hm
      rw [← hall.grown.table_of_ne _ (SchedulerState.not_scheduled_of_isScheduled hnot e he)]
      exact ⟨hb, forwarded_markPending (s.enterRunning r n m) _ _⟩
  | preempt i =>
      obtain ⟨p, r, -, -, -, rfl⟩ := SchedulerState.preempt_some hs
      have hne : e.reqId ≠ r.requestId := by simpa using (List.mem_filter.mp he').2
      change ((KVCacheManager.free _ _ _ _).reqToBlocks e.reqId)[_]? = _ at hb
      rw [KVCacheManager.free_reqToBlocks, Function.update_of_ne hne] at hb
      exact ⟨hb, id⟩
  | beginWaiting =>
      obtain ⟨-, rfl⟩ := SchedulerState.beginWaiting_some hs
      exact ⟨hb, id⟩
  | lookup i =>
      obtain ⟨r, r', hit, -, -, -, -, -, rfl⟩ := SchedulerState.lookup_some hs
      exact ⟨hb, id⟩
  | skip =>
      obtain ⟨-, rfl⟩ := SchedulerState.skip_some hs
      exact ⟨hb, id⟩
  | admitWaiting i a =>
      obtain ⟨r, hits, n, hr, hc, hw, ha, ⟨m, -, rfl⟩ | ⟨new, m, hm, rfl⟩⟩ :=
        SchedulerState.admitWaiting_some hs
      · rw [SchedulerState.afterRefusal_manager] at hb
        exact ⟨hb, id⟩
      · have hid := (h.request i r hr).id_eq
        subst hid
        have hall := SchedulerState.admission_allocated h hr hc hw ha hm
        have hne := SchedulerState.not_scheduled_of_status h hr
          (SchedulerState.isWaiting_ne_running hw) e he
        have htable : m.reqToBlocks e.reqId = s.manager.reqToBlocks e.reqId :=
          hall.grown.table_of_ne _ hne
        rw [← htable]
        exact ⟨hb, forwarded_markPending (s.enterStep r a n _ m) _ _⟩
  | promoteRemote i => exact unwritten_promoteRemote h hs he hb
  | execute flags =>
      rw [schedulerStep, Option.ite_none_right_eq_some] at hs
      rw [← Option.some.inj hs.2] at he'
      cases he'

theorem targetsUnwritten_step (h : s.Inv cfg) (hu : TargetsUnwritten s) {a : Action}
    (hok : copiesUnregistered cfg s a = true) (hs : schedulerStep cfg s a = some s') :
    TargetsUnwritten s' := by
  intro e he plan hplan c hc b hb
  rcases SchedulerState.entry_step h hs he with
    ⟨hin, -⟩ | ⟨r, n, -, rfl⟩ | ⟨r, adm, hits, n, rfl, hr, hcb, hasync, heq, -⟩
  · obtain ⟨hb', hkeep⟩ := unwritten_step h hs hin he hb
    exact hkeep (hu e hin plan hplan c hc b hb')
  · cases hplan
  · have hid := (h.request _ r hr).id_eq
    rw [copiesUnregistered, hr] at hok
    dsimp only at hok
    rw [hcb] at hok
    dsimp only at hok
    rw [← heq, hplan] at hok
    have hle : s.manager.numRegistered e.reqId + hits.length ≤ c.targetBlockIndex :=
      of_decide_eq_true (List.all_eq_true.mp hok c hc)
    obtain ⟨r', hits', n', hr', hc', hw, ha, ⟨m, -, rfl⟩ | ⟨new, m, hm, rfl⟩⟩ :=
      SchedulerState.admitWaiting_some hs
    · exact absurd he (fun hin => SchedulerState.not_scheduled_of_status h hr'
        (SchedulerState.isWaiting_ne_running hw) e hin rfl)
    · rw [hr, Option.some.injEq] at hr'
      subst hr'
      have hx := hcb.symm.trans hc'
      cases hx
      -- the target stands behind the registered blocks, and is marked
      have hin : b ∈ (m.reqToBlocks r.requestId).drop
          (s.manager.numRegistered r.requestId + hits.length) := by
        rw [← hid] at hb hle
        refine List.mem_iff_getElem?.mpr ⟨c.targetBlockIndex - (s.manager.numRegistered r.requestId
          + hits.length), ?_⟩
        rw [List.getElem?_drop, Nat.add_sub_cancel' hle]
        exact hb
      exact if_pos hin

end

theorem targetsUnwritten_of_reachable {K : Type} {cfg : EngineConfig} {compute : List K → Nat → K}
    {kv : KVMemory K} {s : State K}
    (hs : ReachableWhen (step cfg compute) (fun s a => copiesUnregistered cfg s.scheduler a = true)
      (State.init cfg kv) s) : TargetsUnwritten s.scheduler :=
  (hs.invariant (fun s => s.scheduler.Inv cfg ∧ TargetsUnwritten s.scheduler)
    ⟨SchedulerState.init_inv cfg, fun _ he => by cases he⟩
    (fun _ _ _ hp hok hst => ⟨schedulerStep_inv hp.1 (schedulerStep_of_step hst),
      targetsUnwritten_step hp.1 hp.2 hok (schedulerStep_of_step hst)⟩) s).2

/-- **No request copies from another** in a run that pins no pending block, leaves none behind by a
preemption and copies to no registered block: no target block of a step is a source block, so that every
request gets the rows of its copies alone. -/
theorem step_copies_own {K : Type} {cfg : EngineConfig} {compute : List K → Nat → K}
    {kv₀ : KVMemory K} {s : State K}
    (hs : ReachableWhen (step cfg compute)
      (fun s a => (preemptsFinished cfg s.scheduler a = true ∧ pinsFinished cfg s.scheduler a = true) ∧
        copiesUnregistered cfg s.scheduler a = true)
      (State.init cfg kv₀) s) {added w : WorkerRequests}
    (ha : addedRequests cfg s.scheduler s.worker = .ok added) {kv' : KVMemory K}
    (hcopy : applyBlockCopies cfg.toWorkerConfig added s.kv
      (s.scheduler.newRequests.map NewRequestData.reqId) = .ok (w, kv')) :
    (∀ e ∈ s.scheduler.scheduled, ∀ i ∈ executedCopies cfg added e, ∀ e' ∈ s.scheduler.scheduled,
      ∀ i' ∈ executedCopies cfg added e', i'.targetBlockId ∉ i.physicalSourceBlockIds) ∧
    ∀ e ∈ s.scheduler.scheduled, ∃ own,
      copyBlocks cfg.toWorkerConfig s.kv (executedCopies cfg added e) = .ok own ∧
      ∀ i ∈ executedCopies cfg added e, ∀ j < cfg.blockSize,
        kv' i.targetBlockId j = own i.targetBlockId j := by
  have hinv := inv_of_reachable hs
  have hp := plans_of_reachable hs
  have hunwritten := targetsUnwritten_of_reachable (hs.mono fun _ _ hok => hok.2)
  have hsep : ∀ e ∈ s.scheduler.scheduled, ∀ i ∈ executedCopies cfg added e,
      ∀ e' ∈ s.scheduler.scheduled, ∀ i' ∈ executedCopies cfg added e',
        i'.targetBlockId ∉ i.physicalSourceBlockIds := by
    intro e he i hi e' he' i' hi' hmem
    obtain ⟨-, -, hfwd⟩ :=
      copy_sources_forwarded (hs.mono fun _ _ hok => hok.1) ha e he i hi _ hmem
    obtain ⟨hnew, hi'⟩ := mem_executedCopies hi'
    obtain ⟨r, hr, -⟩ := hinv.entry e' he'
    obtain ⟨plan, hplan, c, hc, b, hb, rfl⟩ := copy_of_entry hinv hp ha he' hr hnew hi'
    have hnot := hunwritten e' he' plan hplan c hc b hb
    exact absurd (hnot.symm.trans hfwd) Bool.false_ne_true
  refine ⟨hsep, fun e he => ?_⟩
  obtain ⟨-, hrows, -⟩ := step_copies hs.reachable ha hcopy
  obtain ⟨own, hown, hall⟩ := hrows e he
  refine ⟨own, hown, fun i hi j hj => (hall i hi j hj).resolve_right ?_⟩
  rintro ⟨e', he', -, i', hi', -, -, heq, -⟩
  refine hsep e he i hi e' he' i' hi' ?_
  rw [heq]
  obtain ⟨hnew, hi⟩ := mem_executedCopies hi
  obtain ⟨r, hr, -⟩ := hinv.entry e he
  obtain ⟨plan, hplan, c, hc, b, -, rfl⟩ := copy_of_entry hinv hp ha he hr hnew hi
  obtain ⟨-, -, ⟨r', -, hok⟩, -⟩ := hp.entry e he plan hplan
  exact sourceBlockId_mem (hok.head_ids c hc)

end CacheSelect.Engine

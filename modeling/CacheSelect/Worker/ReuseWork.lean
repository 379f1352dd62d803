import CacheSelect.Worker.ModelRunner

/-! # What the worker keeps of a plan

`buildReuseWork` makes the copies, the repairs and the reused positions of one forwarded plan.  Here is
what they consist of (`ReuseWorkOk`), for a plan whose candidates are full blocks of the prompt in the
order of their target blocks (`PlanFits`), and exactly when it raises (`buildReuseWork_ok_iff`).
`addRequests_spec` carries both over to a step's new requests.
-/

namespace CacheSelect.Worker

open CacheSelect.Core

/-! ### Targets -/

/-- The candidates whose target block is in the table, with that block. -/
def allocatedCandidates (targetGroup : List Nat) (cs : List PartialReuseCandidate) :
    List ResolvedPartialReuseCandidate :=
  cs.filterMap fun c => (targetGroup[c.targetBlockIndex]?).map (resolveCandidate c)

/-- Resolving raises only when a block is missing that must be there. -/
theorem resolveCandidates_eq (group : List Nat) (allow : Bool) : ∀ cs : List PartialReuseCandidate,
    (allow = true ∨ ∀ c ∈ cs, c.targetBlockIndex < group.length) →
    resolveCandidates group allow cs = .ok (allocatedCandidates group cs) := by
  intro cs
  induction cs with
  | nil => intro _; rfl
  | cons c cs ih =>
      intro h
      have ih' := ih (h.imp_right fun hall x hx => hall x (List.mem_cons_of_mem _ hx))
      rw [resolveCandidates, allocatedCandidates, List.filterMap_cons]
      cases hg : group[c.targetBlockIndex]? with
      | some b =>
          dsimp only
          rw [ih']
          rfl
      | none =>
          have hallow : allow = true := by
            rcases h with h | h
            · exact h
            · have hlt := h c (by simp)
              rw [List.getElem?_eq_getElem hlt] at hg
              cases hg
          simp only [hallow] at ih' ⊢
          exact ih'

theorem mem_allocatedCandidates {group : List Nat} {cs : List PartialReuseCandidate}
    {x : ResolvedPartialReuseCandidate} :
    x ∈ allocatedCandidates group cs ↔
      ∃ c ∈ cs, ∃ b, group[c.targetBlockIndex]? = some b ∧ resolveCandidate c b = x := by
  rw [allocatedCandidates, List.mem_filterMap]
  constructor
  · rintro ⟨c, hc, hx⟩
    obtain ⟨b, hb, rfl⟩ := Option.map_eq_some_iff.mp hx
    exact ⟨c, hc, b, hb, rfl⟩
  · rintro ⟨c, hc, b, hb, rfl⟩
    exact ⟨c, hc, by rw [hb]; rfl⟩

theorem pairwise_allocatedCandidates (group : List Nat) {cs : List PartialReuseCandidate}
    (h : cs.Pairwise fun c c' => c.targetBlockIndex < c'.targetBlockIndex) :
    (allocatedCandidates group cs).Pairwise fun x x' => x.targetBlockIndex < x'.targetBlockIndex := by
  rw [allocatedCandidates]
  refine List.Pairwise.filterMap _ ?_ h
  intro c c' hlt x hx x' hx'
  obtain ⟨b, -, rfl⟩ := Option.map_eq_some_iff.mp hx
  obtain ⟨b', -, rfl⟩ := Option.map_eq_some_iff.mp hx'
  exact hlt

/-! ### Repairs -/

/-- The repair of one block. -/
def fullBlockRepair (blockSize : Nat) (c : ResolvedPartialReuseCandidate) :
    PartialReuseRepairInstruction where
  sourceBlockId := c.sourceBlockId
  targetBlockId := c.targetBlockId
  targetBlockIndex := c.targetBlockIndex
  targetTokenIndices := List.range' (c.targetBlockIndex * blockSize) blockSize

/-- A repair plan repairs whole blocks of some candidates that want repair. -/
def IsRepairPlan (blockSize : Nat) (candidates : List ResolvedPartialReuseCandidate)
    (repairs : List PartialReuseRepairInstruction) : Prop :=
  ∃ selected : List ResolvedPartialReuseCandidate,
    selected.Sublist (candidates.filter ResolvedPartialReuseCandidate.requiresRepair) ∧
    repairs = selected.map (fullBlockRepair blockSize)

theorem buildFullBlockRepairInstructions_ok {candidates selected : List ResolvedPartialReuseCandidate}
    {blockSize : Nat} (hbs : 0 < blockSize) (hsel : selected.Sublist candidates) :
    ∃ repairs, buildFullBlockRepairInstructions selected blockSize = .ok repairs ∧
      IsRepairPlan blockSize candidates repairs := by
  rw [buildFullBlockRepairInstructions, if_neg (by omega)]
  exact ⟨_, rfl, _, hsel.filter _, rfl⟩

/-- Whether the repair model raises an exception that the selector does not turn into a repair. -/
def RepairSelector.Raises (s : RepairSelector) (candidates : List ResolvedPartialReuseCandidate) :
    Prop :=
  match s with
  | .mlp shouldRepair => ∃ c ∈ candidates, c.requiresRepair = true ∧
      ∃ e, shouldRepair c.selectorFeatures = .error e ∧ PyError.isCaughtByMlp e = false
  | _ => False

theorem mlpRepairs_ok_iff (shouldRepair : List (String × Rat) → Except PyError Bool)
    (c : ResolvedPartialReuseCandidate) :
    (∃ repair, mlpRepairs shouldRepair c = .ok repair) ↔
      ¬ ∃ e, shouldRepair c.selectorFeatures = .error e ∧ PyError.isCaughtByMlp e = false := by
  rw [mlpRepairs]
  cases hs : shouldRepair c.selectorFeatures with
  | ok repair => exact ⟨fun _ => nofun, fun _ => ⟨repair, rfl⟩⟩
  | error e =>
      dsimp only
      by_cases he : PyError.isCaughtByMlp e = true
      · rw [if_pos he]
        refine ⟨?_, fun _ => ⟨true, rfl⟩⟩
        rintro - ⟨e', he', hf⟩
        cases he'
        rw [he] at hf
        cases hf
      · rw [if_neg he]
        refine ⟨nofun, fun h => absurd ⟨e, rfl, by simpa using he⟩ h⟩

theorem mlpSelected_sublist (shouldRepair : List (String × Rat) → Except PyError Bool) :
    ∀ {candidates selected : List ResolvedPartialReuseCandidate},
      mlpSelected shouldRepair candidates = .ok selected → selected.Sublist candidates := by
  intro candidates
  induction candidates with
  | nil =>
      intro selected h
      cases h
      exact .slnil
  | cons c cs ih =>
      intro selected h
      rw [mlpSelected] at h
      split at h
      · exact (ih h).cons c
      · obtain ⟨repair, -, h⟩ := Except.bind_eq_ok.mp h
        obtain ⟨sel, hsel, h⟩ := Except.bind_eq_ok.mp h
        cases h
        cases repair with
        | true => exact (ih hsel).cons_cons c
        | false => exact (ih hsel).cons c

theorem mlpSelected_ok_iff (shouldRepair : List (String × Rat) → Except PyError Bool) :
    ∀ candidates : List ResolvedPartialReuseCandidate,
      (∃ selected, mlpSelected shouldRepair candidates = .ok selected) ↔
        ¬ (RepairSelector.mlp shouldRepair).Raises candidates := by
  intro candidates
  induction candidates with
  | nil =>
      refine ⟨fun _ => ?_, fun _ => ⟨[], rfl⟩⟩
      rintro ⟨c, hc, -⟩
      cases hc
  | cons c cs ih =>
      have hcons : (RepairSelector.mlp shouldRepair).Raises (c :: cs) ↔
          (c.requiresRepair = true ∧ ∃ e, shouldRepair c.selectorFeatures = .error e ∧
            PyError.isCaughtByMlp e = false) ∨ (RepairSelector.mlp shouldRepair).Raises cs := by
        rw [RepairSelector.Raises, List.exists_mem_cons_iff]
        rfl
      rw [hcons, mlpSelected]
      by_cases hr : c.requiresRepair = false
      · rw [if_pos hr, ih]
        rw [hr]
        simp
      · rw [if_neg hr]
        have hr' : c.requiresRepair = true := by simpa using hr
        have hm := mlpRepairs_ok_iff shouldRepair c
        constructor
        · rintro ⟨selected, h⟩ hor
          obtain ⟨repair, h1, h⟩ := Except.bind_eq_ok.mp h
          obtain ⟨sel, h2, -⟩ := Except.bind_eq_ok.mp h
          rcases hor with ⟨-, he⟩ | he
          · exact hm.mp ⟨repair, h1⟩ he
          · exact ih.mp ⟨sel, h2⟩ he
        · intro h
          obtain ⟨repair, h1⟩ := hm.mpr fun he => h (Or.inl ⟨hr', he⟩)
          obtain ⟨sel, h2⟩ := ih.mpr fun hc => h (Or.inr hc)
          exact ⟨_, by rw [h1, h2]; rfl⟩

/-- **When the repair selection raises.** -/
theorem select_ok_iff (s : RepairSelector) (candidates : List ResolvedPartialReuseCandidate)
    {blockSize : Nat} (hbs : 0 < blockSize) :
    (∃ repairs, s.select candidates blockSize = .ok repairs) ↔ ¬ s.Raises candidates := by
  cases s with
  | fullBlock =>
      obtain ⟨repairs, h, -⟩ := buildFullBlockRepairInstructions_ok hbs (List.Sublist.refl candidates)
      exact ⟨fun _ => not_false, fun _ => ⟨repairs, h⟩⟩
  | editProximity d =>
      have hsub : (editProximitySelected d candidates).Sublist candidates := List.filter_sublist
      obtain ⟨repairs, h, -⟩ := buildFullBlockRepairInstructions_ok hbs hsub
      exact ⟨fun _ => not_false, fun _ => ⟨repairs, h⟩⟩
  | mlp shouldRepair =>
      rw [← mlpSelected_ok_iff]
      constructor
      · rintro ⟨repairs, h⟩
        obtain ⟨sel, hsel, -⟩ := Except.bind_eq_ok.mp h
        exact ⟨sel, hsel⟩
      · rintro ⟨sel, hsel⟩
        obtain ⟨repairs, hr, -⟩ := buildFullBlockRepairInstructions_ok hbs
          (mlpSelected_sublist shouldRepair hsel)
        refine ⟨repairs, ?_⟩
        rw [RepairSelector.select, hsel]
        exact hr

theorem select_isRepairPlan {s : RepairSelector} {candidates : List ResolvedPartialReuseCandidate}
    {blockSize : Nat} (hbs : 0 < blockSize) {repairs : List PartialReuseRepairInstruction}
    (h : s.select candidates blockSize = .ok repairs) : IsRepairPlan blockSize candidates repairs := by
  have hfull : ∀ {sel : List ResolvedPartialReuseCandidate}, sel.Sublist candidates →
      buildFullBlockRepairInstructions sel blockSize = .ok repairs →
      IsRepairPlan blockSize candidates repairs := by
    intro sel hsub hsel
    obtain ⟨repairs', h', hplan⟩ := buildFullBlockRepairInstructions_ok hbs hsub
    rw [hsel, Except.ok.injEq] at h'
    exact h' ▸ hplan
  cases s with
  | fullBlock => exact hfull (.refl _) h
  | editProximity d => exact hfull List.filter_sublist h
  | mlp shouldRepair =>
      obtain ⟨sel, hsel, hr⟩ := Except.bind_eq_ok.mp h
      exact hfull (mlpSelected_sublist shouldRepair hsel) hr

/-- The repair selection of a plan raises when its counterfactual block is not one resolved
candidate, or, without one, when the selector does. -/
def SelectionRaises (cfg : WorkerConfig) (plan : PartialReusePlan)
    (candidates : List ResolvedPartialReuseCandidate) : Prop :=
  match plan.counterfactualReuseBlockIndex with
  | none => cfg.repairSelector.Raises candidates
  | some i => (candidates.filter fun c => c.targetBlockIndex == i).length ≠ 1

theorem selectRepairs_ok_iff (cfg : WorkerConfig) {plan : PartialReusePlan}
    (candidates : List ResolvedPartialReuseCandidate) (hbs : 0 < plan.blockSize) :
    (∃ x, selectRepairs cfg plan candidates = .ok x) ↔ ¬ SelectionRaises cfg plan candidates := by
  rw [selectRepairs, SelectionRaises]
  cases plan.counterfactualReuseBlockIndex with
  | none =>
      rw [← select_ok_iff cfg.repairSelector candidates hbs]
      constructor
      · rintro ⟨x, h⟩
        obtain ⟨repairs, hr, -⟩ := Except.bind_eq_ok.mp h
        exact ⟨repairs, hr⟩
      · rintro ⟨repairs, hr⟩
        exact ⟨_, by dsimp only; rw [hr]; rfl⟩
  | some i =>
      dsimp only
      rw [buildCounterfactualRepairInstructions, not_not]
      constructor
      · rintro ⟨x, h⟩
        by_contra hne
        rw [if_pos hne] at h
        cases h
      · intro h1
        rw [if_neg (not_not.mpr h1)]
        obtain ⟨repairs, hr, -⟩ := buildFullBlockRepairInstructions_ok hbs
          (List.filter_sublist (l := candidates) (p := fun c => c.targetBlockIndex != i))
        exact ⟨_, by rw [hr]; rfl⟩

theorem selectRepairs_isRepairPlan {cfg : WorkerConfig} {plan : PartialReusePlan}
    {candidates : List ResolvedPartialReuseCandidate} (hbs : 0 < plan.blockSize) {name : String}
    {repairs : List PartialReuseRepairInstruction}
    (h : selectRepairs cfg plan candidates = .ok (name, repairs)) :
    IsRepairPlan plan.blockSize candidates repairs := by
  rw [selectRepairs] at h
  split at h
  · obtain ⟨r, hr, he⟩ := Except.bind_eq_ok.mp h
    cases he
    exact select_isRepairPlan hbs hr
  · next i hi =>
      obtain ⟨r, hr, he⟩ := Except.bind_eq_ok.mp h
      cases he
      rw [buildCounterfactualRepairInstructions] at hr
      split at hr
      · cases hr
      · obtain ⟨r', hr', hplan⟩ := buildFullBlockRepairInstructions_ok hbs
          (List.filter_sublist (l := candidates) (p := fun c => c.targetBlockIndex != i))
        rw [hr, Except.ok.injEq] at hr'
        exact hr' ▸ hplan

/-! ### Reused positions -/

/-- A list of candidates in the order of their target blocks. -/
def Ordered (candidates : List ResolvedPartialReuseCandidate) : Prop :=
  candidates.Pairwise fun c c' => c.targetBlockIndex < c'.targetBlockIndex

theorem mem_candidateTokens {copies : List PartialReuseCopyInstruction} {bs t : Nat}
    (hbs : 0 < bs) :
    t ∈ candidateTokens copies bs ↔ ∃ i ∈ copies, t / bs = i.targetBlockIndex := by
  rw [candidateTokens, List.mem_flatMap]
  refine exists_congr fun i => and_congr_right fun _ => ?_
  rw [List.mem_range'_1, Nat.div_eq_iff hbs]
  omega

/-- The positions of ordered blocks are ordered. -/
theorem pairwise_candidateTokens {copies : List PartialReuseCopyInstruction} (bs : Nat)
    (h : copies.Pairwise fun i i' => i.targetBlockIndex < i'.targetBlockIndex) :
    (candidateTokens copies bs).Pairwise (· < ·) := by
  rw [candidateTokens, List.pairwise_flatMap]
  refine ⟨fun i _ => List.pairwise_lt_range' _, h.imp ?_⟩
  intro i i' hlt t ht t' ht'
  rw [List.mem_range'_1] at ht ht'
  have := Nat.mul_le_mul_right bs (Nat.succ_le_of_lt hlt)
  rw [Nat.succ_mul] at this
  omega

theorem checkRepairs_ok {targets : List Nat} {bs : Nat} :
    ∀ selected : List ResolvedPartialReuseCandidate,
      (∀ c ∈ selected, c.targetBlockIndex ∈ targets) →
      checkRepairs targets bs (selected.map (fullBlockRepair bs)) = .ok () := by
  intro selected
  induction selected with
  | nil => intro _; rfl
  | cons c cs ih =>
      intro h
      rw [List.map_cons, checkRepairs, if_neg (not_not.mpr
        (show (fullBlockRepair bs c).targetBlockIndex ∈ targets from h c (by simp))), if_neg]
      · exact ih fun x hx => h x (List.mem_cons_of_mem _ hx)
      · rw [List.any_eq_true]
        rintro ⟨t, ht, hout⟩
        change t ∈ List.range' (c.targetBlockIndex * bs) bs at ht
        rw [List.mem_range'_1] at ht
        change (decide (t < c.targetBlockIndex * bs)
          || decide ((c.targetBlockIndex + 1) * bs ≤ t)) = true at hout
        rw [Nat.succ_mul, Bool.or_eq_true, decide_eq_true_eq, decide_eq_true_eq] at hout
        omega

/-- **The reused positions** of ordered candidates: the positions of the copies that no repair
covers. -/
theorem buildReusedTokenIndices_ok {candidates : List ResolvedPartialReuseCandidate}
    {repairs : List PartialReuseRepairInstruction} {bs : Nat} (hbs : 0 < bs)
    (ho : Ordered candidates) (hr : IsRepairPlan bs candidates repairs) :
    ∃ reused, buildReusedTokenIndices (buildPartialReuseCopyInstructions candidates) repairs bs
        = .ok reused ∧ reused.Pairwise (· < ·) ∧
      ∀ t ∈ reused, ∃ c ∈ candidates, t / bs = c.targetBlockIndex := by
  obtain ⟨selected, hsel, rfl⟩ := hr
  have hord : (buildPartialReuseCopyInstructions candidates).Pairwise
      fun i i' => i.targetBlockIndex < i'.targetBlockIndex := List.pairwise_map.mpr ho
  let kept := (candidateTokens (buildPartialReuseCopyInstructions candidates) bs).filter fun t =>
    !((selected.map (fullBlockRepair bs)).flatMap
      PartialReuseRepairInstruction.targetTokenIndices).contains t
  have hkept : kept.Pairwise (· < ·) := (pairwise_candidateTokens bs hord).filter _
  have hnd : ((buildPartialReuseCopyInstructions candidates).map
      PartialReuseCopyInstruction.targetBlockIndex).Nodup :=
    List.pairwise_map.mpr (hord.imp Nat.ne_of_lt)
  refine ⟨kept, ?_, hkept, ?_⟩
  · rw [buildReusedTokenIndices, if_neg (by omega), if_neg (not_not.mpr hnd), checkRepairs_ok]
    · change Except.ok (kept.insertionSort _) = _
      rw [List.Pairwise.insertionSort_eq (hkept.imp Nat.le_of_lt)]
    · intro c hc
      rw [buildPartialReuseCopyInstructions, List.map_map, List.mem_map]
      exact ⟨c, List.mem_of_mem_filter (hsel.subset hc), rfl⟩
  · intro t ht
    obtain ⟨i, hi, hti⟩ := (mem_candidateTokens hbs).mp (List.mem_of_mem_filter ht)
    obtain ⟨c, hc, rfl⟩ := List.mem_map.mp hi
    exact ⟨c, hc, hti⟩

theorem retainRuns_sublist (keep : List Nat → Bool) : ∀ rest run : List Nat,
    (retainRuns keep run rest).Sublist (run ++ rest) := by
  intro rest
  induction rest with
  | nil =>
      intro run
      rw [retainRuns, List.append_nil]
      split
      · exact .refl run
      · exact List.nil_sublist run
  | cons x rest ih =>
      intro run
      rw [retainRuns]
      split
      · have := ih (run ++ [x])
        rwa [List.append_assoc, List.singleton_append] at this
      · refine List.Sublist.append ?_ (ih [x])
        split
        · exact .refl run
        · exact List.nil_sublist run

/-- Dropping short runs never raises on sorted positions. -/
theorem filterShortReuseSpans_ok {reused : List Nat} {bs n : Nat} (hbs : 0 < bs)
    (hs : reused.Pairwise (· < ·)) (hn : 0 < n) (repacked : List Nat) {m : Option Nat}
    (hm : ∀ k ∈ m, 0 < k) :
    ∃ kept, filterShortReuseSpans reused bs n repacked m = .ok kept ∧ kept.Sublist reused := by
  have hmin : ¬ (bs < 1 ∨ min n (m.getD n) < 1) := by
    cases m with
    | none => rw [Option.getD_none]; omega
    | some k =>
        have := hm k rfl
        rw [Option.getD_some]
        omega
  unfold filterShortReuseSpans
  dsimp only
  rw [if_neg hmin, if_neg (not_not.mpr hs)]
  cases reused with
  | nil => exact ⟨[], rfl, .slnil⟩
  | cons x rest =>
      dsimp only
      split
      · exact ⟨_, rfl, .refl _⟩
      · exact ⟨_, rfl, retainRuns_sublist _ rest [x]⟩

/-- The metrics of a repair plan never raise. -/
theorem summarizeRepairSelection_ok {candidates : List ResolvedPartialReuseCandidate}
    {repairs : List PartialReuseRepairInstruction} {bs : Nat} (hbs : 0 < bs)
    (hr : IsRepairPlan bs candidates repairs) (name : String) :
    ∃ metrics, summarizeRepairSelection name candidates repairs bs = .ok metrics ∧
      metrics.candidateTokens = candidates.length * bs := by
  obtain ⟨selected, hsel, rfl⟩ := hr
  have hsum : ((selected.map (fullBlockRepair bs)).map
      fun r => r.targetTokenIndices.length).sum = selected.length * bs := by
    rw [List.map_map]
    have : ((fun r : PartialReuseRepairInstruction => r.targetTokenIndices.length)
        ∘ fullBlockRepair bs) = fun _ => bs := by
      funext c
      exact List.length_range'
    rw [this, List.map_const', List.sum_replicate_nat]
  have hle : selected.length ≤ candidates.countP ResolvedPartialReuseCandidate.requiresRepair := by
    rw [List.countP_eq_length_filter]
    exact hsel.length_le
  rw [summarizeRepairSelection, if_neg (by omega), hsum, if_neg (Nat.not_lt.mpr (Nat.mul_le_mul_right bs hle))]
  exact ⟨_, rfl, rfl⟩

/-! ### The work of one plan -/

/-- A plan as the worker expects it: full blocks of the prompt, in order. -/
structure PlanFits (plan : PartialReusePlan) (numPromptTokens : Nat) : Prop where
  blockSize_pos : 0 < plan.blockSize
  ordered : plan.candidates.Pairwise fun c c' => c.targetBlockIndex < c'.targetBlockIndex
  full : ∀ c ∈ plan.candidates, (c.targetBlockIndex + 1) * plan.blockSize ≤ numPromptTokens

/-- What the worker keeps of a plan for a block table. -/
structure ReuseWorkOk (plan : PartialReusePlan) (table : List Nat) (work : ReuseWork) : Prop where
  plan_eq : work.plan = plan
  copies_sublist : work.copyInstructions.Sublist
    (buildPartialReuseCopyInstructions (allocatedCandidates table plan.candidates))
  reused_sorted : work.reusedTokenIndices.Pairwise (· < ·)
  /-- Every reused position lies in a block that is copied, and every copied block has one. -/
  reused_copied : ∀ t ∈ work.reusedTokenIndices,
    ∃ i ∈ work.copyInstructions, t / plan.blockSize = i.targetBlockIndex
  copied_reused : ∀ i ∈ work.copyInstructions,
    ∃ t ∈ work.reusedTokenIndices, t / plan.blockSize = i.targetBlockIndex

/-- The later target blocks of a plan that fits may be unallocated. -/
theorem resolveTargetBlockIds_eq {d : NewRequestData} {plan : PartialReusePlan} {table : List Nat}
    (hfit : PlanFits plan d.promptTokenIds.length) (ht : d.blockIds = [table]) :
    resolveTargetBlockIds plan d.blockIds (allowUnallocated d plan)
      = .ok (allocatedCandidates table plan.candidates) := by
  unfold resolveTargetBlockIds
  simp only [ht]
  refine resolveCandidates_eq table _ plan.candidates ?_
  by_cases hall : ∀ c ∈ plan.candidates, c.targetBlockIndex < table.length
  · exact Or.inr hall
  · left
    push Not at hall
    obtain ⟨c, hc, hle⟩ := hall
    rw [allowUnallocated, ht]
    refine decide_eq_true ?_
    have h1 := hfit.full c hc
    have h2 := Nat.mul_le_mul_right plan.blockSize hle
    have h3 := hfit.blockSize_pos
    rw [Nat.succ_mul] at h1
    omega

/-- Once the repairs are selected, nothing raises any more. -/
theorem buildReuseWork_of_repairs (cfg : WorkerConfig) {d : NewRequestData} {plan : PartialReusePlan}
    {table : List Nat} (hfit : PlanFits plan d.promptTokenIds.length) (ht : d.blockIds = [table])
    {name : String} {repairs : List PartialReuseRepairInstruction}
    (hsel : selectRepairs cfg plan (allocatedCandidates table plan.candidates) = .ok (name, repairs)) :
    ∃ work metrics, buildReuseWork cfg d plan = .ok (work, metrics) ∧ ReuseWorkOk plan table work ∧
      metrics.candidateTokens
        = (allocatedCandidates table plan.candidates).length * plan.blockSize := by
  have hbs := hfit.blockSize_pos
  let resolved := allocatedCandidates table plan.candidates
  have hord : Ordered resolved := pairwise_allocatedCandidates table hfit.ordered
  have hrep := selectRepairs_isRepairPlan hbs hsel
  obtain ⟨reused, hreused, hsorted, hmem⟩ := buildReusedTokenIndices_ok hbs hord hrep
  let copies := buildPartialReuseCopyInstructions resolved
  let repacked := (copies.filter PartialReuseCopyInstruction.requiresRepacking).map
    PartialReuseCopyInstruction.targetBlockIndex
  obtain ⟨kept, hkept, hsub⟩ := filterShortReuseSpans_ok hbs hsorted cfg.minReuseSpanBlocks_pos
    repacked cfg.minRepackedReuseSpanBlocks_pos
  obtain ⟨metrics, hmetrics, htok⟩ := summarizeRepairSelection_ok hbs hrep name
  let used := copies.filter fun i => kept.any fun t => t / plan.blockSize == i.targetBlockIndex
  have hused : filterPartialReuseCopyInstructions copies kept plan.blockSize = .ok used := by
    rw [filterPartialReuseCopyInstructions, if_neg (by omega)]
  refine ⟨⟨plan, resolved, used, repairs, kept⟩, metrics, ?_, ?_, htok⟩
  · rw [buildReuseWork, resolveTargetBlockIds_eq hfit ht]
    change (selectRepairs cfg plan resolved >>= _) = _
    rw [hsel]
    change (buildReusedTokenIndices copies repairs plan.blockSize >>= _) = _
    rw [hreused]
    change (filterShortReuseSpans reused plan.blockSize cfg.minReuseSpanBlocks repacked _ >>= _) = _
    rw [hkept]
    change (filterPartialReuseCopyInstructions copies kept plan.blockSize >>= _) = _
    rw [hused]
    change (summarizeRepairSelection name resolved repairs plan.blockSize >>= _) = _
    rw [hmetrics]
    rfl
  · refine ⟨rfl, List.filter_sublist, hsorted.sublist hsub, ?_, ?_⟩
    · intro t hin
      obtain ⟨c, hc, htc⟩ := hmem t (hsub.subset hin)
      refine ⟨copyInstruction c, List.mem_filter.mpr ⟨List.mem_map_of_mem hc, ?_⟩, htc⟩
      exact List.any_eq_true.mpr ⟨t, hin, beq_iff_eq.mpr htc⟩
    · intro i hi
      obtain ⟨t, hin, hti⟩ := List.any_eq_true.mp (List.mem_filter.mp hi).2
      exact ⟨t, hin, beq_iff_eq.mp hti⟩

/-- **When the work of a plan raises**: exactly when the repair selection does. -/
theorem buildReuseWork_ok_iff (cfg : WorkerConfig) {d : NewRequestData} {plan : PartialReusePlan}
    {table : List Nat} (hfit : PlanFits plan d.promptTokenIds.length) (ht : d.blockIds = [table]) :
    (∃ x, buildReuseWork cfg d plan = .ok x) ↔
      ¬ SelectionRaises cfg plan (allocatedCandidates table plan.candidates) := by
  rw [← selectRepairs_ok_iff cfg _ hfit.blockSize_pos]
  constructor
  · rintro ⟨x, h⟩
    rw [buildReuseWork, resolveTargetBlockIds_eq hfit ht] at h
    obtain ⟨y, hy, -⟩ := (Except.bind_eq_ok (x := selectRepairs cfg plan _)).mp h
    exact ⟨y, hy⟩
  · rintro ⟨⟨name, repairs⟩, h⟩
    obtain ⟨work, metrics, hw, -⟩ := buildReuseWork_of_repairs cfg hfit ht h
    exact ⟨_, hw⟩

/-- **What the worker keeps of a plan.** -/
theorem buildReuseWork_spec {cfg : WorkerConfig} {d : NewRequestData} {plan : PartialReusePlan}
    {table : List Nat} (hfit : PlanFits plan d.promptTokenIds.length) (ht : d.blockIds = [table])
    {work : ReuseWork} {metrics : CacheSelectRepairMetrics}
    (h : buildReuseWork cfg d plan = .ok (work, metrics)) :
    ReuseWorkOk plan table work ∧ metrics.candidateTokens
      = (allocatedCandidates table plan.candidates).length * plan.blockSize := by
  have hok := (buildReuseWork_ok_iff cfg hfit ht).mp ⟨_, h⟩
  rw [← selectRepairs_ok_iff cfg _ hfit.blockSize_pos] at hok
  obtain ⟨⟨name, repairs⟩, hsel⟩ := hok
  obtain ⟨work', metrics', h', hspec⟩ := buildReuseWork_of_repairs cfg hfit ht hsel
  rw [h, Except.ok.injEq, Prod.mk.injEq] at h'
  obtain ⟨rfl, rfl⟩ := h'
  exact hspec

/-- A copy instruction of a plan, with its candidate and its target block. -/
theorem ReuseWorkOk.mem_copies {plan : PartialReusePlan} {table : List Nat} {work : ReuseWork}
    (h : ReuseWorkOk plan table work) {i : PartialReuseCopyInstruction}
    (hi : i ∈ work.copyInstructions) :
    ∃ c ∈ plan.candidates, ∃ b, table[c.targetBlockIndex]? = some b ∧
      i = copyInstruction (resolveCandidate c b) := by
  obtain ⟨x, hx, rfl⟩ := List.mem_map.mp (h.copies_sublist.subset hi)
  obtain ⟨c, hc, b, hb, rfl⟩ := mem_allocatedCandidates.mp hx
  exact ⟨c, hc, b, hb, rfl⟩

theorem ReuseWorkOk.pairwise_copies {plan : PartialReusePlan} {table : List Nat} {work : ReuseWork}
    (h : ReuseWorkOk plan table work)
    (ho : plan.candidates.Pairwise fun c c' => c.targetBlockIndex < c'.targetBlockIndex) :
    work.copyInstructions.Pairwise fun i i' => i.targetBlockIndex < i'.targetBlockIndex := by
  refine List.Pairwise.sublist h.copies_sublist ?_
  exact List.pairwise_map.mpr (pairwise_allocatedCandidates table ho)

/-! ### A step's new requests -/

/-- What the runner keeps of a new request. -/
structure IsAdded (cfg : WorkerConfig) (d : NewRequestData) (q : WorkerRequest) : Prop where
  prefillLen_eq : q.prefillLen = d.prefillTokenIds.length
  without : d.partialReusePlan = none → q.reuse = none ∧ q.pendingMetrics = none
  withPlan : ∀ plan, d.partialReusePlan = some plan → ∃ work metrics,
    buildReuseWork cfg d plan = .ok (work, metrics) ∧ q.reuse = some work ∧
      q.pendingMetrics = some metrics

theorem addRequest_ok {cfg : WorkerConfig} {w w' : WorkerRequests} {d : NewRequestData}
    (h : addRequest cfg w d = .ok w') :
    ∃ q, IsAdded cfg d q ∧ w' = Function.update w d.reqId (some q) := by
  rw [addRequest] at h
  split at h
  · next hp =>
      cases h
      exact ⟨_, ⟨rfl, fun _ => ⟨rfl, rfl⟩, fun plan hs => by rw [hp] at hs; cases hs⟩, rfl⟩
  · next plan hp =>
      obtain ⟨⟨work, metrics⟩, hw, he⟩ := Except.bind_eq_ok.mp h
      cases he
      refine ⟨_, ⟨rfl, fun hn => (by rw [hp] at hn; cases hn), fun plan' hs => ?_⟩, rfl⟩
      rw [hp, Option.some.injEq] at hs
      subst hs
      exact ⟨work, metrics, hw, rfl, rfl⟩

theorem addRequest_ok_iff (cfg : WorkerConfig) (w : WorkerRequests) (d : NewRequestData) :
    (∃ w', addRequest cfg w d = .ok w') ↔
      ∀ plan, d.partialReusePlan = some plan → ∃ x, buildReuseWork cfg d plan = .ok x := by
  rw [addRequest]
  cases hp : d.partialReusePlan with
  | none => exact ⟨fun _ => nofun, fun _ => ⟨_, rfl⟩⟩
  | some plan =>
      constructor
      · rintro ⟨w', h⟩ plan' hs
        cases hs
        obtain ⟨x, hx, -⟩ := (Except.bind_eq_ok (x := buildReuseWork cfg d plan)).mp h
        exact ⟨x, hx⟩
      · intro h
        obtain ⟨⟨work, metrics⟩, hx⟩ := h plan rfl
        exact ⟨_, by dsimp only; rw [hx]; rfl⟩

/-- **Adding a step's requests raises** exactly when the work of one of their plans does. -/
theorem addRequests_ok_iff (cfg : WorkerConfig) : ∀ (ds : List NewRequestData) (w : WorkerRequests),
    (∃ w', addRequests cfg w ds = .ok w') ↔
      ∀ d ∈ ds, ∀ plan, d.partialReusePlan = some plan →
        ∃ x, buildReuseWork cfg d plan = .ok x := by
  intro ds
  induction ds with
  | nil => exact fun w => ⟨fun _ d hd => (nomatch hd), fun _ => ⟨w, rfl⟩⟩
  | cons d ds ih =>
      intro w
      rw [List.forall_mem_cons, ← addRequest_ok_iff cfg w d]
      constructor
      · rintro ⟨w', h⟩
        obtain ⟨w₁, h₁, h₂⟩ := (Except.bind_eq_ok (x := addRequest cfg w d)).mp h
        exact ⟨⟨w₁, h₁⟩, (ih w₁).mp ⟨w', h₂⟩⟩
      · rintro ⟨⟨w₁, h₁⟩, hds⟩
        obtain ⟨w', h₂⟩ := (ih w₁).mpr hds
        exact ⟨w', (Except.bind_eq_ok (x := addRequest cfg w d)).mpr ⟨w₁, h₁, h₂⟩⟩

/-- **What the runner keeps after a step's requests have been added.** -/
theorem addRequests_spec {cfg : WorkerConfig} : ∀ {ds : List NewRequestData} {w w' : WorkerRequests},
    (ds.map NewRequestData.reqId).Nodup → addRequests cfg w ds = .ok w' →
    (∀ d ∈ ds, ∃ q, w' d.reqId = some q ∧ IsAdded cfg d q) ∧
      ∀ id, id ∉ ds.map NewRequestData.reqId → w' id = w id := by
  intro ds
  induction ds with
  | nil =>
      intro w w' _ h
      cases h
      exact ⟨fun d hd => (nomatch hd), fun _ _ => rfl⟩
  | cons d ds ih =>
      intro w w' hnd h
      rw [List.map_cons, List.nodup_cons] at hnd
      obtain ⟨w₁, h₁, h₂⟩ := (Except.bind_eq_ok (x := addRequest cfg w d)).mp h
      obtain ⟨q, hq, rfl⟩ := addRequest_ok h₁
      obtain ⟨hin, hout⟩ := ih hnd.2 h₂
      refine ⟨?_, ?_⟩
      · rw [List.forall_mem_cons]
        refine ⟨⟨q, ?_, hq⟩, hin⟩
        rw [hout _ hnd.1, Function.update_self]
      · intro id hid
        rw [List.map_cons, List.mem_cons, not_or] at hid
        rw [hout id hid.2, Function.update_of_ne hid.1]

end CacheSelect.Worker

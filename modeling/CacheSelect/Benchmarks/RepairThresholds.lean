import CacheSelect.Core.Request
import CacheSelect.Lib.Cut
import CacheSelect.Lib.Except
import Mathlib.Algebra.Order.Floor.Semiring
import Mathlib.Algebra.Ring.Nat
import Mathlib.Data.List.GetD
import Mathlib.Data.Rat.Floor
import Mathlib.Data.Real.Basic

/-! # Repair thresholds

A block is repaired if its repair probability reaches a threshold.  `selectRepairThreshold` takes the greatest of
the observed probabilities that keeps the repair recall at a target, and
`reuseBudgetPoints` puts a threshold just above the block that ends the share to be reused.

Every threshold cuts the probabilities (`Cut`), so the selected threshold is compared with all the real ones.  Without
a block to repair the recall is zero by its definition: then no threshold is eligible and the selection raises.
-/

namespace CacheSelect.Benchmarks

open CacheSelect.Core

/-! ### The metrics of a selection -/

structure SelectorMetrics where
  examples : Nat
  trueRepair : Nat
  missedRepair : Nat
  unnecessaryRepair : Nat
  safeReuse : Nat
  accuracy : Rat
  repairPrecision : Rat
  repairRecall : Rat
  repairF1 : Rat
  selectedReuseRate : Rat
  safeReusePrecision : Rat
deriving DecidableEq, Repr

/-- How many blocks have this label and this decision; the arrays have one length. -/
def countBlocks (labels predictedRepair : List Bool) (label repair : Bool) : Nat :=
  (labels.zip predictedRepair).countP fun p => p.1 == label && p.2 == repair

/-- `np.finfo(float).eps`. -/
def floatEps : Rat :=
  1 / 2 ^ 52

def selectorMetrics (labels predictedRepair : List Bool) : SelectorMetrics :=
  let trueRepair := countBlocks labels predictedRepair true true
  let missedRepair := countBlocks labels predictedRepair true false
  let unnecessaryRepair := countBlocks labels predictedRepair false true
  let safeReuse := countBlocks labels predictedRepair false false
  let repairPrecision := (trueRepair : Rat) / (max (trueRepair + unnecessaryRepair) 1 : Nat)
  let repairRecall := (trueRepair : Rat) / (max (trueRepair + missedRepair) 1 : Nat)
  { examples := labels.length
    trueRepair := trueRepair
    missedRepair := missedRepair
    unnecessaryRepair := unnecessaryRepair
    safeReuse := safeReuse
    accuracy := (trueRepair + safeReuse : Nat) / (labels.length : Rat)
    repairPrecision := repairPrecision
    repairRecall := repairRecall
    repairF1 := 2 * repairPrecision * repairRecall / max (repairPrecision + repairRecall) floatEps
    selectedReuseRate := (safeReuse + missedRepair : Nat) / (labels.length : Rat)
    safeReusePrecision := (safeReuse : Rat) / (max (safeReuse + missedRepair) 1 : Nat) }

/-- `evaluate_selector`: the rates divide by the number of blocks. -/
def evaluateSelector (labels predictedRepair : List Bool) : Except PyError SelectorMetrics :=
  if labels = [] then .error .zeroDivisionError
  else .ok (selectorMetrics labels predictedRepair)

/-! ### The selected threshold -/

/-- `repair_probabilities >= threshold`. -/
def atLeast (repairProbabilities : List Rat) (threshold : Rat) : List Bool :=
  repairProbabilities.map fun p => threshold ≤ p

/-- `select_repair_threshold`. -/
def selectRepairThreshold (labels : List Bool) (repairProbabilities : List Rat)
    (minimumRepairRecall : Rat) : Except PyError Rat :=
  if ¬ (0 < minimumRepairRecall ∧ minimumRepairRecall ≤ 1) then
    .error (.valueError "minimum_repair_recall must be in (0, 1]")
  else do
    let thresholds := (0 :: repairProbabilities).dedup.insertionSort (· ≤ ·)
    let recalls ← thresholds.mapM fun threshold => do
      let metrics ← evaluateSelector labels (atLeast repairProbabilities threshold)
      .ok (threshold, metrics.repairRecall)
    let eligible := (recalls.filter fun r => minimumRepairRecall ≤ r.2).map Prod.fst
    match eligible.max? with
    | some threshold => .ok threshold
    | none => .error (.valueError "max() iterable argument is empty")

/-! ### Reuse budgets -/

/-- `REUSE_BUDGETS` with their texts. -/
def reuseBudgets : List (String × Rat) :=
  [("0.05", 1 / 20), ("0.10", 1 / 10), ("0.25", 1 / 4), ("0.50", 1 / 2), ("0.75", 3 / 4), ("1.00", 1)]

structure BudgetPoint where
  targetReuseRate : Rat
  threshold : Rat
  actualReuseRate : Rat
  unsafeReuseRate : Rat
  metrics : SelectorMetrics
deriving DecidableEq, Repr

/-- `np.argsort(repair_probabilities, kind="stable")`. -/
def stableArgsort (ps : List Rat) : List Nat :=
  (List.range ps.length).insertionSort fun i j => ps.getD i 0 ≤ ps.getD j 0

/-- One round of the loop over the budgets; `nextafter` is the next number above. -/
def reuseBudgetPoint (nextafter : Rat → Rat) (labels : List Bool) (repairProbabilities : List Rat)
    (target : Rat) : Except PyError BudgetPoint :=
  let count := ⌈target * (labels.length : Rat)⌉₊
  match (stableArgsort repairProbabilities)[count - 1]? with
  | none => .error .indexError
  | some last => do
      let boundary := repairProbabilities.getD last 0
      let threshold := nextafter boundary
      let metrics ← evaluateSelector labels (atLeast repairProbabilities threshold)
      let reused := metrics.safeReuse + metrics.missedRepair
      if reused = 0 then .error .zeroDivisionError
      else .ok {
        targetReuseRate := target
        threshold := threshold
        actualReuseRate := (reused : Rat) / (labels.length : Rat)
        unsafeReuseRate := (metrics.missedRepair : Rat) / (reused : Rat)
        metrics := metrics }

/-- `reuse_budget_points`; every probability is a number, so all are finite. -/
def reuseBudgetPoints (nextafter : Rat → Rat) (labels : List Bool) (repairProbabilities : List Rat) :
    Except PyError (List (String × BudgetPoint)) :=
  if labels.length ≠ repairProbabilities.length ∨ labels = [] then
    .error (.valueError "reuse-budget inputs must be aligned finite vectors")
  else reuseBudgets.mapM fun b => do
    let point ← reuseBudgetPoint nextafter labels repairProbabilities b.2
    .ok (b.1, point)

/-! ### Counting decisions -/

/-- The decisions of any threshold. -/
noncomputable def repairFrom (ps : List ℝ) (t : ℝ) : List Bool :=
  ps.map fun p => t ≤ p

def reals (ps : List Rat) : List ℝ :=
  ps.map fun p : Rat => (p : ℝ)

theorem repairFrom_reals (ps : List Rat) (t : Rat) : repairFrom (reals ps) t = atLeast ps t := by
  rw [repairFrom, reals, List.map_map, atLeast]
  refine List.map_congr_left ?_
  intro p _
  exact decide_eq_decide.mpr Rat.cast_le

theorem repairFrom_congr {ps : List ℝ} {s t : ℝ} (h : ∀ p ∈ ps, p < s ↔ p < t) :
    repairFrom ps s = repairFrom ps t := by
  refine List.map_congr_left ?_
  intro p hp
  rw [decide_eq_decide, ← not_lt, ← not_lt, h p hp]

def SelectorMetrics.reused (m : SelectorMetrics) : Nat :=
  m.safeReuse + m.missedRepair

theorem countBlocks_cons (l r : Bool) (labels repairs : List Bool) (label repair : Bool) :
    countBlocks (l :: labels) (r :: repairs) label repair
      = countBlocks labels repairs label repair + if l == label && r == repair then 1 else 0 := by
  rw [countBlocks, List.zip_cons_cons, List.countP_cons, countBlocks]

/-- The blocks not repaired are those below the threshold. -/
theorem reused_eq_below (t : ℝ) : ∀ {labels : List Bool} {ps : List ℝ}, labels.length = ps.length →
    (selectorMetrics labels (repairFrom ps t)).reused = Cut.below ps t := by
  intro labels
  induction labels with
  | nil =>
      intro ps h
      rw [List.length_eq_zero_iff.mp h.symm]
      rfl
  | cons l labels ih =>
      intro ps h
      cases ps with
      | nil => cases h
      | cons p ps =>
          have hrest := ih (Nat.succ.inj h)
          show countBlocks (l :: labels) (decide (t ≤ p) :: repairFrom ps t) false false
            + countBlocks (l :: labels) (decide (t ≤ p) :: repairFrom ps t) true false = _
          rw [countBlocks_cons, countBlocks_cons, Cut.below, List.countP_cons, ← Cut.below, ← hrest]
          show _ = countBlocks labels (repairFrom ps t) false false
            + countBlocks labels (repairFrom ps t) true false + _
          by_cases hp : p < t
          · have hle : ¬ t ≤ p := not_le.mpr hp
            cases l <;> simp [hp, hle] <;> omega
          · have hle : t ≤ p := not_lt.mp hp
            cases l <;> simp [hp, hle]

/-- Every block to be repaired is repaired or missed. -/
theorem repairs_eq_count : ∀ {labels repairs : List Bool}, labels.length = repairs.length →
    countBlocks labels repairs true true + countBlocks labels repairs true false
      = labels.count true := by
  intro labels
  induction labels with
  | nil => intro repairs _; rfl
  | cons l labels ih =>
      intro repairs h
      cases repairs with
      | nil => cases h
      | cons r repairs =>
          have hrest := ih (Nat.succ.inj h)
          rw [countBlocks_cons, countBlocks_cons, List.count_cons, ← hrest]
          cases l <;> cases r <;> simp <;> omega

theorem repairRecall_eq {labels repairs : List Bool} (h : labels.length = repairs.length) :
    (selectorMetrics labels repairs).repairRecall
      = (countBlocks labels repairs true true : Rat) / (max (labels.count true) 1 : Nat) := by
  rw [← repairs_eq_count h]
  rfl

/-- A recall above zero needs a repaired block. -/
theorem exists_repaired {labels : List Bool} {ps : List ℝ} {t : ℝ} {target : Rat} (htarget : 0 < target)
    (h : target ≤ (selectorMetrics labels (repairFrom ps t)).repairRecall) : ∃ p ∈ ps, t ≤ p := by
  have hpos : 0 < countBlocks labels (repairFrom ps t) true true := by
    rw [Nat.pos_iff_ne_zero]
    intro hzero
    have hrecall : (selectorMetrics labels (repairFrom ps t)).repairRecall
        = (countBlocks labels (repairFrom ps t) true true : Rat) / _ := rfl
    rw [hrecall, hzero, Nat.cast_zero, zero_div] at h
    exact absurd h (not_le.mpr htarget)
  obtain ⟨pair, hpair, hboth⟩ := List.countP_pos_iff.mp hpos
  have hmem := (List.of_mem_zip (a := pair.1) (b := pair.2) hpair).2
  obtain ⟨p, hp, hdecide⟩ := List.mem_map.mp hmem
  simp only [Bool.and_eq_true, beq_iff_eq] at hboth
  rw [hboth.2] at hdecide
  exact ⟨p, hp, of_decide_eq_true hdecide⟩

/-- The threshold zero repairs every block. -/
theorem repairRecall_zero {labels : List Bool} {ps : List Rat} (hlength : labels.length = ps.length)
    (hps : ∀ p ∈ ps, 0 ≤ p) (hlabel : true ∈ labels) :
    (selectorMetrics labels (atLeast ps 0)).repairRecall = 1 := by
  have hall : atLeast ps 0 = List.replicate ps.length true := by
    rw [atLeast, List.eq_replicate_iff]
    refine ⟨List.length_map _, ?_⟩
    intro b hb
    obtain ⟨p, hp, rfl⟩ := List.mem_map.mp hb
    exact decide_eq_true (hps p hp)
  have hmissed : countBlocks labels (List.replicate ps.length true) true false = 0 := by
    rw [countBlocks, List.countP_eq_zero]
    intro pair hpair hboth
    have hmem := (List.of_mem_zip (a := pair.1) (b := pair.2) hpair).2
    simp only [Bool.and_eq_true, beq_iff_eq] at hboth
    rw [List.eq_of_mem_replicate hmem] at hboth
    exact absurd hboth.2 (by decide)
  have hlen : labels.length = (List.replicate ps.length true).length := by
    rw [List.length_replicate, hlength]
  have hcount := repairs_eq_count hlen
  have hpos : 0 < labels.count true := List.count_pos_iff.mpr hlabel
  rw [hmissed, Nat.add_zero] at hcount
  rw [hall, repairRecall_eq hlen, hcount, max_eq_left hpos]
  exact div_self (by exact_mod_cast hpos.ne')

/-- Without a block to repair the recall is zero. -/
theorem repairRecall_of_none {labels : List Bool} (repairs : List Bool) (h : true ∉ labels) :
    (selectorMetrics labels repairs).repairRecall = 0 := by
  have hzero : countBlocks labels repairs true true = 0 := by
    rw [countBlocks, List.countP_eq_zero]
    intro pair hpair hboth
    have hmem := (List.of_mem_zip (a := pair.1) (b := pair.2) hpair).1
    simp only [Bool.and_eq_true, beq_iff_eq] at hboth
    rw [hboth.1] at hmem
    exact h hmem
  have hrecall : (selectorMetrics labels repairs).repairRecall
      = (countBlocks labels repairs true true : Rat) / _ := rfl
  rw [hrecall, hzero, Nat.cast_zero, zero_div]

/-! ### The greatest eligible threshold -/

/-- The thresholds that keep the recall at the target. -/
def eligibleThresholds (labels : List Bool) (ps : List Rat) (target : Rat) : List Rat :=
  ((0 :: ps).dedup.insertionSort (· ≤ ·)).filter fun t =>
    target ≤ (selectorMetrics labels (atLeast ps t)).repairRecall

theorem mem_eligibleThresholds {labels : List Bool} {ps : List Rat} {target t : Rat} :
    t ∈ eligibleThresholds labels ps target ↔
      (t = 0 ∨ t ∈ ps) ∧ target ≤ (selectorMetrics labels (atLeast ps t)).repairRecall := by
  rw [eligibleThresholds, List.mem_filter, List.mem_insertionSort, List.mem_dedup, List.mem_cons,
    decide_eq_true_eq]

theorem selectRepairThreshold_eq {labels : List Bool} (hlabels : labels ≠ []) (ps : List Rat)
    {target : Rat} (htarget : 0 < target ∧ target ≤ 1) :
    selectRepairThreshold labels ps target
      = match (eligibleThresholds labels ps target).max? with
        | some threshold => .ok threshold
        | none => .error (.valueError "max() iterable argument is empty") := by
  have hrecalls : ((0 :: ps).dedup.insertionSort (· ≤ ·)).mapM (fun threshold => do
      let metrics ← evaluateSelector labels (atLeast ps threshold)
      Except.ok (threshold, metrics.repairRecall))
      = .ok (((0 :: ps).dedup.insertionSort (· ≤ ·)).map fun t =>
        (t, (selectorMetrics labels (atLeast ps t)).repairRecall)) := by
    refine Except.mapM_eq_ok_map ?_
    intro t _
    rw [evaluateSelector, if_neg hlabels]
    rfl
  rw [selectRepairThreshold, if_neg (not_not.mpr htarget)]
  show (((0 :: ps).dedup.insertionSort (· ≤ ·)).mapM _ >>= _) = _
  rw [hrecalls]
  show (match (((((0 :: ps).dedup.insertionSort (· ≤ ·)).map fun t =>
    (t, (selectorMetrics labels (atLeast ps t)).repairRecall)).filter _).map Prod.fst).max? with
    | some threshold => Except.ok threshold
    | none => _) = _
  rw [List.filter_map, List.map_map]
  show (match ((eligibleThresholds labels ps target).map id).max? with
    | some threshold => Except.ok threshold
    | none => _) = _
  rw [List.map_id]

/-- The selected threshold is met, and no real threshold that is met reuses more blocks. -/
def SafeAndOptimal (labels : List Bool) (ps : List Rat) (target : Rat) : Prop :=
  ∃ threshold metrics, selectRepairThreshold labels ps target = .ok threshold ∧
    evaluateSelector labels (atLeast ps threshold) = .ok metrics ∧
    target ≤ metrics.repairRecall ∧
    ∀ (t : ℝ) (m : SelectorMetrics), evaluateSelector labels (repairFrom (reals ps) t) = .ok m →
      target ≤ m.repairRecall → m.reused ≤ metrics.reused

theorem safeAndOptimal_of_mem {labels : List Bool} {ps : List Rat} {target : Rat}
    (hlength : labels.length = ps.length) (hps : ∀ p ∈ ps, 0 ≤ p) (htarget : 0 < target ∧ target ≤ 1)
    (hlabel : true ∈ labels) : SafeAndOptimal labels ps target := by
  have hlabels : labels ≠ [] := List.ne_nil_of_mem hlabel
  have hzero : (0 : Rat) ∈ eligibleThresholds labels ps target := by
    rw [mem_eligibleThresholds, repairRecall_zero hlength hps hlabel]
    exact ⟨Or.inl rfl, htarget.2⟩
  have hsome : ∃ best, (eligibleThresholds labels ps target).max? = some best := by
    rw [← Option.isSome_iff_exists, List.isSome_max?_iff]
    exact List.ne_nil_of_mem hzero
  obtain ⟨best, hbest⟩ := hsome
  obtain ⟨hmem, hgreatest⟩ := List.max?_eq_some_iff.mp hbest
  have hmet := (mem_eligibleThresholds.mp hmem).2
  have hlen : labels.length = (reals ps).length := by rw [reals, List.length_map, hlength]
  refine ⟨best, selectorMetrics labels (atLeast ps best), ?_, if_neg hlabels, hmet, ?_⟩
  · rw [selectRepairThreshold_eq hlabels ps htarget, hbest]
  · intro t m hm hrecall
    rw [evaluateSelector, if_neg hlabels, Except.ok.injEq] at hm
    subst hm
    rw [← repairFrom_reals, reused_eq_below t hlen, reused_eq_below _ hlen]
    refine Cut.below_le_of_greatest
      (A := fun t => target ≤ (selectorMetrics labels (repairFrom (reals ps) t)).repairRecall)
      ?_ ?_ ?_ hrecall
    · intro s t hsame hs
      rwa [repairFrom_congr hsame] at hs
    · intro t ht
      exact exists_repaired htarget.1 ht
    · intro q hq hadm
      obtain ⟨p, hp, rfl⟩ := List.mem_map.mp hq
      rw [repairFrom_reals] at hadm
      exact Rat.cast_le.mpr (hgreatest p (mem_eligibleThresholds.mpr ⟨Or.inr hp, hadm⟩))

theorem not_safeAndOptimal {labels : List Bool} {ps : List Rat} {target : Rat} (htarget : 0 < target)
    (hlabel : true ∉ labels) : ¬ SafeAndOptimal labels ps target := by
  rintro ⟨threshold, metrics, -, hm, hrecall, -⟩
  rw [evaluateSelector] at hm
  split at hm
  · cases hm
  · rw [Except.ok.injEq] at hm
    subst hm
    rw [repairRecall_of_none _ hlabel] at hrecall
    exact absurd hrecall (not_le.mpr htarget)

/-! ### The thresholds of the budgets -/

/-- `nextafter` is just above: no probability lies between a probability and what follows it. -/
def JustAbove (nextafter : Rat → Rat) (ps : List Rat) : Prop :=
  ∀ b ∈ ps, b < nextafter b ∧ ∀ p ∈ ps, b < p → nextafter b ≤ p

theorem JustAbove.lt_iff {nextafter : Rat → Rat} {ps : List Rat} (h : JustAbove nextafter ps) {b p : Rat}
    (hb : b ∈ ps) (hp : p ∈ ps) : p < nextafter b ↔ p ≤ b := by
  obtain ⟨habove, hnext⟩ := h b hb
  constructor
  · intro hlt
    by_contra hle
    exact absurd hlt (not_lt.mpr (hnext p hp (not_le.mp hle)))
  · intro hle
    exact lt_of_le_of_lt hle habove

/-- The probabilities in the order of the ranking. -/
def ranked (ps : List Rat) : List Rat :=
  ps.insertionSort (· ≤ ·)

theorem map_stableArgsort (ps : List Rat) :
    (stableArgsort ps).map (fun i => ps.getD i 0) = ranked ps := by
  have hrange : (List.range ps.length).map (fun i => ps.getD i 0) = ps := by
    refine List.ext_getElem (by simp) ?_
    intro k h₁ h₂
    simp [h₂]
  rw [stableArgsort, ranked]
  conv_rhs => rw [← hrange]
  exact List.map_insertionSort _ _ _ _ fun i _ j _ => Iff.rfl

theorem getElem_stableArgsort {ps : List Rat} {k : Nat} (hk : k < (ranked ps).length) :
    ∃ last, (stableArgsort ps)[k]? = some last ∧ ps.getD last 0 = (ranked ps)[k] := by
  have hmap := map_stableArgsort ps
  have hk' : k < (stableArgsort ps).length := by
    have := congrArg List.length hmap
    rw [List.length_map] at this
    omega
  refine ⟨(stableArgsort ps)[k], List.getElem?_eq_getElem hk', ?_⟩
  have hget := List.getElem_of_eq hmap (by rwa [List.length_map])
  rw [List.getElem_map] at hget
  exact hget

theorem length_ranked (ps : List Rat) : (ranked ps).length = ps.length :=
  List.length_insertionSort _ ps

theorem ranked_perm (ps : List Rat) : (ranked ps).Perm ps :=
  List.perm_insertionSort _ ps

theorem pairwise_ranked (ps : List Rat) : (ranked ps).Pairwise (· ≤ ·) :=
  List.pairwise_insertionSort (· ≤ ·) ps

theorem ranked_mono {ps : List Rat} {j k : Nat} (hjk : j ≤ k) (hj : j < (ranked ps).length)
    (hk : k < (ranked ps).length) : (ranked ps)[j] ≤ (ranked ps)[k] := by
  rcases Nat.eq_or_lt_of_le hjk with rfl | hlt
  · exact le_refl _
  · exact List.pairwise_iff_getElem.mp (pairwise_ranked ps) j k hj hk hlt

theorem below_reals (ps : List Rat) (t : Rat) : Cut.below (reals ps) t = Cut.below ps t := by
  rw [Cut.below, reals, List.countP_map, Cut.below]
  refine List.countP_congr ?_
  intro p _
  show decide ((p : ℝ) < (t : ℝ)) = true ↔ _
  rw [decide_eq_true_eq, decide_eq_true_eq, Rat.cast_lt]

/-- What a threshold just above the value of a rank reuses. -/
theorem lt_below_justAbove {nextafter : Rat → Rat} {ps : List Rat} (h : JustAbove nextafter ps) {k : Nat}
    (hk : k < (ranked ps).length) : k < Cut.below ps (nextafter (ranked ps)[k]) := by
  have hmem : (ranked ps)[k] ∈ ps := (ranked_perm ps).subset (List.getElem_mem hk)
  have hcount := Cut.lt_countP_getElem (pairwise_ranked ps) hk
  have hsame : ps.countP (fun p => p < nextafter (ranked ps)[k])
      = ps.countP fun p => p ≤ (ranked ps)[k] := by
    refine List.countP_congr ?_
    intro p hp
    rw [decide_eq_true_eq, decide_eq_true_eq]
    exact h.lt_iff hmem hp
  rw [(ranked_perm ps).countP_eq] at hcount
  rwa [Cut.below, hsame]

/-- Any threshold that reuses fewer blocks reuses at most as many as the rank says. -/
theorem below_le_of_fewer {nextafter : Rat → Rat} {ps : List Rat} (h : JustAbove nextafter ps) {k : Nat}
    (hk : k < (ranked ps).length) {t : ℝ}
    (hfewer : Cut.below (reals ps) t < Cut.below ps (nextafter (ranked ps)[k])) :
    Cut.below (reals ps) t ≤ k := by
  have hmem : (ranked ps)[k] ∈ ps := (ranked_perm ps).subset (List.getElem_mem hk)
  have hle : t ≤ ((ranked ps)[k] : ℝ) := by
    by_contra hgt
    rw [← below_reals] at hfewer
    refine absurd hfewer (not_lt.mpr (List.countP_mono_left ?_))
    intro q hq hlt
    obtain ⟨p, hp, rfl⟩ := List.mem_map.mp hq
    rw [decide_eq_true_eq] at hlt ⊢
    have hp' := (h.lt_iff hmem hp).mp (Rat.cast_lt.mp hlt)
    exact lt_of_le_of_lt (Rat.cast_le.mpr hp') (not_le.mp hgt)
  calc Cut.below (reals ps) t ≤ Cut.below (reals ps) ((ranked ps)[k] : ℝ) := Cut.below_mono _ hle
    _ = Cut.below (ranked ps) (ranked ps)[k] := by
        rw [below_reals, Cut.below_perm (ranked_perm ps)]
    _ ≤ k := Cut.below_getElem_le (pairwise_ranked ps) hk

/-- The rank of the last block of a budget. -/
def budgetRank (target : Rat) (n : Nat) : Nat :=
  ⌈target * (n : Rat)⌉₊ - 1

theorem budgetRank_spec {target : Rat} {n : Nat} (htarget : 0 < target ∧ target ≤ 1) (hn : 0 < n) :
    budgetRank target n < n ∧ (budgetRank target n : Rat) < target * n ∧
      target * n ≤ (budgetRank target n + 1 : Nat) := by
  have hn' : (0 : Rat) < n := Nat.cast_pos.mpr hn
  have hpos : 0 < ⌈target * (n : Rat)⌉₊ := Nat.ceil_pos.mpr (mul_pos htarget.1 hn')
  have hle : ⌈target * (n : Rat)⌉₊ ≤ n := by
    rw [Nat.ceil_le]
    exact mul_le_of_le_one_left hn'.le htarget.2
  have hrank : budgetRank target n < ⌈target * (n : Rat)⌉₊ := Nat.sub_lt hpos Nat.one_pos
  refine ⟨lt_of_lt_of_le hrank hle, Nat.lt_ceil.mp hrank, ?_⟩
  have hsucc : budgetRank target n + 1 = ⌈target * (n : Rat)⌉₊ := Nat.sub_add_cancel hpos
  rw [hsucc]
  exact Nat.le_ceil _

theorem budgetRank_mono {target target' : Rat} (n : Nat) (h : target ≤ target') :
    budgetRank target n ≤ budgetRank target' n := by
  have hceil : ⌈target * (n : Rat)⌉₊ ≤ ⌈target' * (n : Rat)⌉₊ :=
    Nat.ceil_mono (mul_le_mul_of_nonneg_right h (Nat.cast_nonneg n))
  unfold budgetRank
  omega

/-- The point of a budget. -/
def budgetPoint (nextafter : Rat → Rat) (labels : List Bool) (ps : List Rat) (target : Rat) : BudgetPoint :=
  let threshold := nextafter ((ranked ps).getD (budgetRank target labels.length) 0)
  let metrics := selectorMetrics labels (atLeast ps threshold)
  { targetReuseRate := target
    threshold := threshold
    actualReuseRate := (metrics.reused : Rat) / (labels.length : Rat)
    unsafeReuseRate := (metrics.missedRepair : Rat) / (metrics.reused : Rat)
    metrics := metrics }

section

variable {nextafter : Rat → Rat} {labels : List Bool} {ps : List Rat}

theorem threshold_budgetPoint {target : Rat} {k : Nat} (hk : k < (ranked ps).length)
    (hrank : budgetRank target labels.length = k) :
    (budgetPoint nextafter labels ps target).threshold = nextafter (ranked ps)[k] := by
  rw [budgetPoint, hrank, List.getD_eq_getElem _ _ hk]

theorem reused_budgetPoint (hlength : labels.length = ps.length) {target : Rat} {k : Nat}
    (hk : k < (ranked ps).length) (hrank : budgetRank target labels.length = k) :
    (budgetPoint nextafter labels ps target).metrics.reused
      = Cut.below ps (nextafter (ranked ps)[k]) := by
  have hlen : labels.length = (reals ps).length := by rw [reals, List.length_map, hlength]
  have hmetrics : (budgetPoint nextafter labels ps target).metrics
      = selectorMetrics labels (atLeast ps (budgetPoint nextafter labels ps target).threshold) := rfl
  rw [hmetrics, threshold_budgetPoint hk hrank, ← repairFrom_reals, reused_eq_below _ hlen, below_reals]

theorem reuseBudgetPoint_eq (hlength : labels.length = ps.length) (hlabels : labels ≠ [])
    (habove : JustAbove nextafter ps) {target : Rat} (htarget : 0 < target ∧ target ≤ 1) :
    reuseBudgetPoint nextafter labels ps target = .ok (budgetPoint nextafter labels ps target) := by
  have hn : 0 < labels.length := List.length_pos_iff.mpr hlabels
  have hk : budgetRank target labels.length < (ranked ps).length := by
    rw [length_ranked, ← hlength]
    exact (budgetRank_spec htarget hn).1
  obtain ⟨last, hlast, hvalue⟩ := getElem_stableArgsort hk
  have hreused : (budgetPoint nextafter labels ps target).metrics.reused ≠ 0 := by
    rw [reused_budgetPoint hlength hk rfl]
    exact (Nat.zero_lt_of_lt (lt_below_justAbove habove hk)).ne'
  have hboundary : ps.getD last 0 = (ranked ps).getD (budgetRank target labels.length) 0 := by
    rw [hvalue, List.getD_eq_getElem _ _ hk]
  unfold reuseBudgetPoint
  show (match (stableArgsort ps)[budgetRank target labels.length]? with
    | none => _
    | some last => _) = _
  rw [hlast]
  show (evaluateSelector labels (atLeast ps (nextafter (ps.getD last 0))) >>= _) = _
  rw [hboundary, evaluateSelector, if_neg hlabels]
  show (if (budgetPoint nextafter labels ps target).metrics.reused = 0 then _ else _) = _
  rw [if_neg hreused]
  rfl

/-- Every budget gets its share, no threshold that reuses fewer blocks gets it, and a larger budget reuses every
block of a smaller one. -/
def BudgetsMet (nextafter : Rat → Rat) (labels : List Bool) (ps : List Rat) : Prop :=
  ∃ points, reuseBudgetPoints nextafter labels ps = .ok points ∧
    points.map (fun q => (q.1, q.2.targetReuseRate)) = reuseBudgets ∧
    (∀ q ∈ points, evaluateSelector labels (atLeast ps q.2.threshold) = .ok q.2.metrics ∧
      q.2.targetReuseRate * labels.length ≤ q.2.metrics.reused ∧
      ∀ (t : ℝ) (m : SelectorMetrics), evaluateSelector labels (repairFrom (reals ps) t) = .ok m →
        m.reused < q.2.metrics.reused → (m.reused : Rat) < q.2.targetReuseRate * labels.length) ∧
    ∀ q ∈ points, ∀ q' ∈ points, q.2.targetReuseRate ≤ q'.2.targetReuseRate →
      ∀ p ∈ ps, p < q.2.threshold → p < q'.2.threshold

theorem reuseBudgets_range : ∀ b ∈ reuseBudgets, 0 < b.2 ∧ b.2 ≤ 1 := by
  decide +kernel

theorem budgetsMet (hlength : labels.length = ps.length) (hlabels : labels ≠ [])
    (habove : JustAbove nextafter ps) : BudgetsMet nextafter labels ps := by
  have hn : 0 < labels.length := List.length_pos_iff.mpr hlabels
  have hlen : labels.length = (reals ps).length := by rw [reals, List.length_map, hlength]
  have hrank : ∀ b ∈ reuseBudgets, budgetRank b.2 labels.length < (ranked ps).length := by
    intro b hb
    rw [length_ranked, ← hlength]
    exact (budgetRank_spec (reuseBudgets_range b hb) hn).1
  have hpoints : reuseBudgetPoints nextafter labels ps
      = .ok (reuseBudgets.map fun b => (b.1, budgetPoint nextafter labels ps b.2)) := by
    have hcheck : ¬ (labels.length ≠ ps.length ∨ labels = []) :=
      not_or.mpr ⟨not_not.mpr hlength, hlabels⟩
    rw [reuseBudgetPoints, if_neg hcheck]
    refine Except.mapM_eq_ok_map ?_
    intro b hb
    rw [reuseBudgetPoint_eq hlength hlabels habove (reuseBudgets_range b hb)]
    rfl
  refine ⟨_, hpoints, rfl, ?_, ?_⟩
  · intro q hq
    obtain ⟨b, hb, rfl⟩ := List.mem_map.mp hq
    obtain ⟨-, hlow, hhigh⟩ := budgetRank_spec (reuseBudgets_range b hb) hn
    have hreused : (budgetPoint nextafter labels ps b.2).metrics.reused = _ :=
      reused_budgetPoint hlength (hrank b hb) rfl
    refine ⟨if_neg hlabels, ?_, ?_⟩
    · rw [hreused]
      exact le_trans hhigh (Nat.cast_le.mpr (lt_below_justAbove habove (hrank b hb)))
    · intro t m hm hfewer
      rw [evaluateSelector, if_neg hlabels, Except.ok.injEq] at hm
      subst hm
      rw [reused_eq_below t hlen, hreused] at hfewer
      rw [reused_eq_below t hlen]
      exact lt_of_le_of_lt (Nat.cast_le.mpr (below_le_of_fewer habove (hrank b hb) hfewer)) hlow
  · intro q hq q' hq' htarget p hp hlt
    obtain ⟨b, hb, rfl⟩ := List.mem_map.mp hq
    obtain ⟨b', hb', rfl⟩ := List.mem_map.mp hq'
    have hmem : ∀ {k : Nat} (hk : k < (ranked ps).length), (ranked ps)[k] ∈ ps :=
      fun hk => (ranked_perm ps).subset (List.getElem_mem hk)
    have hsorted := ranked_mono (budgetRank_mono labels.length htarget) (hrank b hb) (hrank b' hb')
    rw [threshold_budgetPoint (hrank b hb) rfl, habove.lt_iff (hmem (hrank b hb)) hp] at hlt
    rw [threshold_budgetPoint (hrank b' hb') rfl, habove.lt_iff (hmem (hrank b' hb')) hp]
    exact le_trans hlt hsorted

end

/-- **The thresholds are safe and optimal exactly if some block is to be repaired.** -/
theorem repairThresholds_iff (nextafter : Rat → Rat) (labels : List Bool) (ps : List Rat) (target : Rat)
    (hlength : labels.length = ps.length) (hlabels : labels ≠ []) (hps : ∀ p ∈ ps, 0 ≤ p ∧ p ≤ 1)
    (htarget : 0 < target ∧ target ≤ 1) (habove : JustAbove nextafter ps) :
    SafeAndOptimal labels ps target ∧ BudgetsMet nextafter labels ps ↔ true ∈ labels := by
  constructor
  · rintro ⟨hsafe, -⟩
    by_contra hlabel
    exact not_safeAndOptimal htarget.1 hlabel hsafe
  · intro hlabel
    exact ⟨safeAndOptimal_of_mem hlength (fun p hp => (hps p hp).1) htarget hlabel,
      budgetsMet hlength hlabels habove⟩

/-- The next double above a number from one half to one. -/
def nextDouble (p : Rat) : Rat :=
  p + 1 / 2 ^ 53

theorem repairThresholds_iff_twoBlocks :
    SafeAndOptimal [true, false] [3/4, 1/2] (19/20) ∧ BudgetsMet nextDouble [true, false] [3/4, 1/2] ↔
      true ∈ [true, false] := by
  have habove : JustAbove nextDouble [3/4, 1/2] := by
    unfold JustAbove
    decide +kernel
  exact repairThresholds_iff nextDouble [true, false] [3/4, 1/2] (19/20) rfl (List.cons_ne_nil _ _)
    (by decide +kernel) (by decide +kernel) habove

/-- A single block that may be reused: the selection of a threshold raises. -/
theorem reuseOnly_not_safeAndOptimal :
    selectRepairThreshold [false] [1/2] (19/20)
        = .error (.valueError "max() iterable argument is empty") ∧
      ¬ SafeAndOptimal [false] [1/2] (19/20) := by
  refine ⟨by decide +kernel, ?_⟩
  rintro ⟨threshold, metrics, hselect, -⟩
  have hraises : selectRepairThreshold [false] [1/2] (19/20)
      = .error (.valueError "max() iterable argument is empty") := by decide +kernel
  rw [hraises] at hselect
  cases hselect

example : selectRepairThreshold [true, true, false, false] [9/10, 6/10, 55/100, 1/10] (1/2)
    = .ok (9/10) := by decide +kernel

end CacheSelect.Benchmarks

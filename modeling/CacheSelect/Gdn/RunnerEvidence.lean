import CacheSelect.Gdn.RunnerSteps

/-! # The evidence of a step

After the forward pass of a step the runner summarizes what the layers report, for every request of the batch
whose evidence is pending, and hands the evidence out.  The layers name a request by its row, with the
decodes counted first; the runner reads the row in its sorted batch.

`evidence_exact` says that this never raises, that a comparison is recorded for every candidate of the
request in every layer where no layer reused, and that active evidence is complete exactly when the request
was resolved and all layers reused.
-/

namespace CacheSelect.Gdn

open CacheSelect.Core OrderedDict Transition

/-! ### The order of a batch -/

/-- A list in which what satisfies `p` comes first. -/
theorem filter_append_filter_of_pairwise {α : Type} {p : α → Bool} : ∀ {l : List α},
    (l.Pairwise fun a b => p b = true → p a = true) →
      l.filter p ++ l.filter (fun a => !p a) = l := by
  intro l
  induction l with
  | nil => intro _; rfl
  | cons a l ih =>
      intro h
      obtain ⟨hhead, htail⟩ := List.pairwise_cons.mp h
      by_cases ha : p a = true
      · rw [List.filter_cons_of_pos ha, List.filter_cons_of_neg (by rw [ha]; decide), List.cons_append,
          ih htail]
      · have hnone : ∀ b ∈ l, ¬ p b = true := fun b hb hpb => ha (hhead b hb hpb)
        rw [List.filter_cons_of_neg ha, List.filter_eq_nil_iff.mpr hnone, List.nil_append]
        refine List.filter_eq_self.mpr ?_
        rw [List.forall_mem_cons]
        exact ⟨by rw [(Bool.not_eq_true _).mp ha]; rfl,
          fun b hb => by rw [(Bool.not_eq_true _).mp (hnone b hb)]; rfl⟩

theorem sortEntries_pairwise (entries : List StepEntry) : (sortEntries entries).Pairwise fun a b =>
    toLex (a.numScheduledTokens != 1, a.numScheduledTokens)
      ≤ toLex (b.numScheduledTokens != 1, b.numScheduledTokens) := by
  have : Std.Total fun a b : StepEntry => toLex (a.numScheduledTokens != 1, a.numScheduledTokens)
      ≤ toLex (b.numScheduledTokens != 1, b.numScheduledTokens) := ⟨fun _ _ => le_total _ _⟩
  have : IsTrans StepEntry fun a b => toLex (a.numScheduledTokens != 1, a.numScheduledTokens)
      ≤ toLex (b.numScheduledTokens != 1, b.numScheduledTokens) := ⟨fun _ _ _ => le_trans⟩
  exact List.pairwise_insertionSort _ _

/-- **The decodes of a sorted batch come first.** -/
theorem sortEntries_split {R : Type} {HV V K : Nat} {C : Type} (s : GdnRunner R HV V K C)
    {entries : List StepEntry} (hpos : ∀ e ∈ entries, 0 < e.numScheduledTokens) :
    let batch := (sortEntries entries).map s.request
    batch.filter ScheduledRequest.isDecode ++ batch.filter (fun q => !q.isDecode) = batch := by
  intro batch
  refine filter_append_filter_of_pairwise (List.pairwise_map.mpr ?_)
  refine (sortEntries_pairwise entries).imp_of_mem ?_
  intro a b ha hb hle hdec
  have hb' := hpos b ((sortEntries_perm entries).mem_iff.mp hb)
  have ha' := hpos a ((sortEntries_perm entries).mem_iff.mp ha)
  have hone : b.numScheduledTokens = 1 := by
    have hb₁ : b.numScheduledTokens ≤ 1 := of_decide_eq_true hdec
    omega
  have hle₁ : (a.numScheduledTokens != 1) ≤ (b.numScheduledTokens != 1) := by
    rcases (Prod.Lex.toLex_le_toLex ..).mp hle with h | h
    · exact le_of_lt h
    · exact le_of_eq h.1
  rw [hone] at hle₁
  refine decide_eq_true ?_
  have hone' : a.numScheduledTokens = 1 := by
    by_contra hne
    rw [bne_iff_ne.mpr hne] at hle₁
    exact absurd hle₁ (by decide)
  exact Nat.le_of_eq hone'

/-! ### The rows of a comparison -/

theorem count_zipIdx {α : Type} : ∀ (css : List (List α)) (n i : Nat),
    (((css.zipIdx n).flatMap fun x => x.1.map fun c => (x.2, c)).map Prod.fst).count i
      = if n ≤ i then ((css[i - n]?).map List.length).getD 0 else 0 := by
  intro css
  induction css with
  | nil => intro n i; simp
  | cons cs css ih =>
      intro n i
      have hhead : (cs.map fun c => (n, c)).map Prod.fst = List.replicate cs.length n := by
        rw [List.map_map]
        exact List.map_const' ..
      rw [List.zipIdx_cons, List.flatMap_cons, List.map_append, List.count_append, ih, hhead,
        List.count_replicate]
      by_cases hn : n = i
      · subst hn
        rw [if_pos (beq_self_eq_true n), if_neg (by omega), if_pos le_rfl, Nat.sub_self]
        rfl
      · rw [if_neg (by simpa using hn)]
        by_cases hlt : n + 1 ≤ i
        · rw [if_pos hlt, if_pos (by omega), Nat.zero_add, show i - n = i - (n + 1) + 1 by omega]
          rfl
        · rw [if_neg hlt, if_neg (by omega)]

theorem count_indexedCandidates (css : List (List (Int × ContextualHash))) (i : Nat) :
    ((indexedCandidates css).map Prod.fst).count i = ((css[i]?).map List.length).getD 0 :=
  (count_zipIdx css 0 i).trans (if_pos (Nat.zero_le i))

/-- **How often a comparison reports a row**: once for every candidate of a prefill. -/
theorem count_shadowRows {batch : List ScheduledRequest}
    (hsplit : batch.filter ScheduledRequest.isDecode ++ batch.filter (fun q => !q.isDecode) = batch)
    {j : Nat} {q : ScheduledRequest} (hq : batch[j]? = some q) :
    (shadowRows batch).count j = if q.isDecode = true then 0 else q.candidates.length := by
  have hrows : shadowRows batch = ((indexedCandidates ((batch.filter fun q => !q.isDecode).map
      ScheduledRequest.candidates)).map Prod.fst).map
        fun i => i + (batch.filter ScheduledRequest.isDecode).length := by
    rw [List.map_map]
    rfl
  rw [hrows]
  generalize hd : batch.filter ScheduledRequest.isDecode = decodes at hsplit
  generalize hp : (batch.filter fun q => !q.isDecode) = prefills at hsplit
  rw [← hsplit] at hq
  by_cases hj : j < decodes.length
  · rw [List.getElem?_append_left hj] at hq
    have hmem := List.mem_of_getElem? hq
    rw [← hd] at hmem
    rw [if_pos (List.mem_filter.mp hmem).2, List.count_eq_zero]
    intro hin
    obtain ⟨i, -, hi⟩ := List.mem_map.mp hin
    omega
  · rw [List.getElem?_append_right (by omega)] at hq
    have hmem := List.mem_of_getElem? hq
    rw [← hp] at hmem
    have hpre : ¬ q.isDecode = true := by
      rw [Bool.not_eq_true, ← Bool.not_eq_true']
      exact (List.mem_filter.mp hmem).2
    have hcount := List.count_map_of_injective ((indexedCandidates (prefills.map
      ScheduledRequest.candidates)).map Prod.fst) (fun i => i + decodes.length)
      (fun a b hab => Nat.add_right_cancel hab) (j - decodes.length)
    rw [show j - decodes.length + decodes.length = j by omega] at hcount
    rw [hcount, count_indexedCandidates, List.getElem?_map, hq, if_neg hpre]
    rfl

/-! ### Summaries -/

section

variable {R : Type} {HV V K H : Nat} {C : Type} {s : GdnRunner R HV V K C} {reqIds : List String}

/-- The number of results of a request. -/
theorem length_summary (reqId : String) :
    ((get (grouped (fun x => reqIds.getD x.2.sequenceIndex "") id s.shadowResults) reqId).getD
      []).length
      = s.shadowResults.countP fun x => reqIds.getD x.2.sequenceIndex "" = reqId := by
  rw [get_grouped, List.countP_eq_length_filter]
  split
  · rw [Option.getD_some, List.map_id]
  · next hnot =>
    rw [Option.getD_none, List.length_nil, eq_comm, List.length_eq_zero_iff, List.filter_eq_nil_iff]
    intro x hx hkey
    exact hnot (List.mem_map.mpr ⟨x, hx, of_decide_eq_true hkey⟩)

/-- Every layer reports the row of a request as often. -/
theorem countP_shadowResults (hnodup : reqIds.Nodup) {j : Nat} {reqId : String}
    (hj : reqIds[j]? = some reqId) {rows : List Nat} (hlt : ∀ n ∈ rows, n < reqIds.length)
    (hrows : ∀ layer ∈ s.layers,
      layer.2.lastShadowResults.map GdnDeltaBlockShadowResult.sequenceIndex = rows) :
    (s.shadowResults.countP fun x => reqIds.getD x.2.sequenceIndex "" = reqId)
      = s.layers.length * rows.count j := by
  have hlayer : ∀ layer ∈ s.layers, (layer.2.lastShadowResults.map fun result =>
      (layer.1, result)).countP (fun x => reqIds.getD x.2.sequenceIndex "" = reqId)
        = rows.count j := by
    intro layer hl
    rw [List.countP_map, ← hrows layer hl, List.count, List.countP_map]
    refine List.countP_congr ?_
    intro result hresult
    have hn := hlt result.sequenceIndex (by
      rw [← hrows layer hl]
      exact List.mem_map_of_mem hresult)
    dsimp only [Function.comp]
    rw [decide_eq_true_iff, beq_iff_eq, List.getD_eq_getElem?_getD, List.getElem?_eq_getElem hn,
      Option.getD_some]
    obtain ⟨hjlt, hjeq⟩ := List.getElem?_eq_some_iff.mp hj
    rw [← hjeq]
    exact hnodup.getElem_inj_iff
  rw [GdnRunner.shadowResults, List.countP_flatMap]
  refine (congrArg List.sum (List.map_congr_left hlayer)).trans ?_
  rw [List.map_const', List.sum_replicate, smul_eq_mul]

end

/-! ### The evidence -/

section

variable {R : Type} {HV V K H : Nat} {C : Type} {cfg : GdnModelConfig HV V K}
  {s : GdnRunner R HV V K C}

/-- The executed summaries are those of the layers that reused. -/
theorem length_executed (layers : List (String × GdnLayer R HV V K C)) :
    ((layers.filterMap fun layer => layer.2.lastActiveSummary.map fun summary =>
      (layer.1, summary)).filter fun result => result.2.executed).length
      = layers.countP fun layer => layer.2.reused := by
  induction layers with
  | nil => rfl
  | cons layer layers ih =>
      rw [List.countP_cons, ← ih, List.filterMap_cons, GdnLayer.reused]
      cases layer.2.lastActiveSummary with
      | none => rfl
      | some summary =>
          rw [Option.map_some, Option.map_some, Option.getD_some]
          dsimp only
          rw [List.filter_cons]
          by_cases hexec : summary.executed = true
          · rw [if_pos hexec, if_pos hexec, List.length_cons]
          · rw [if_neg hexec, if_neg hexec, Nat.add_zero]

/-- **Active evidence is complete** exactly when all expected layers reused. -/
theorem active_complete_iff (s : GdnRunner R HV V K C) :
    (s.summarizeGdnDeltaActiveResults s.layers.length).complete = true ↔
      s.layers ≠ [] ∧ ∀ layer ∈ s.layers, layer.2.reused = true := by
  rw [GdnRunner.summarizeGdnDeltaActiveResults]
  dsimp only
  rw [length_executed, Bool.and_eq_true, Bool.and_eq_true, decide_eq_true_iff, decide_eq_true_iff,
    decide_eq_true_iff, List.length_pos_iff]
  have hle : (s.layers.countP fun layer => layer.2.reused) ≤ (s.layers.filterMap fun layer =>
      layer.2.lastActiveSummary.map fun summary => (layer.1, summary)).length := by
    rw [← length_executed]
    exact List.length_filter_le _ _
  have hle' : (s.layers.filterMap fun layer => layer.2.lastActiveSummary.map fun summary =>
      (layer.1, summary)).length ≤ s.layers.length := List.length_filterMap_le _ _
  constructor
  · rintro ⟨⟨hne, -⟩, hall⟩
    exact ⟨hne, List.countP_eq_length.mp hall⟩
  · rintro ⟨hne, hall⟩
    have hcount := List.countP_eq_length.mpr hall
    exact ⟨⟨hne, by omega⟩, hcount⟩

/-- No layers are expected of a request that was not resolved. -/
theorem active_incomplete (s : GdnRunner R HV V K C) :
    (s.summarizeGdnDeltaActiveResults 0).complete = false := rfl

theorem PendingOf.length_reuseCandidates {e : String × GdnDeltaReuseMetrics C} (h : PendingOf s e) :
    (s.reuseCandidates e.1).length = if e.2.preflightEligible = true then e.2.candidateBlockCount
      else 0 := by
  obtain ⟨preflight, hpreflight, heligible⟩ := Option.map_eq_some_iff.mp h.preflight
  rw [GdnRunner.reuseCandidates, h.plan, hpreflight]
  dsimp only
  rw [heligible]
  split
  · rw [GdnDeltaReusePlan.reuseCandidates, List.length_map, h.candidates]
  · rfl

/-- The comparisons that a request expects. -/
theorem PendingOf.expectedCount {e : String × GdnDeltaReuseMetrics C} (h : PendingOf s e)
    (results : List (String × GdnDeltaBlockShadowResult C)) :
    (GdnRunner.shadowMetrics e.2 results).expectedCount
      = s.layers.length * (s.reuseCandidates e.1).length := by
  rw [h.length_reuseCandidates, GdnRunner.shadowMetrics]
  dsimp only
  split
  · next helig => rw [h.layers, if_pos helig, Nat.mul_comm]
  · rfl

theorem shadowRows_of_empty {batch : List ScheduledRequest}
    (h : ((batch.filter fun q => !q.isDecode).map ScheduledRequest.candidates).all List.isEmpty
      = true) : shadowRows batch = [] := by
  have huses := shadowUses_of_empty h
  rw [shadowUses, List.map_eq_nil_iff] at huses
  rw [shadowRows, huses, List.map_nil]

/-- The comparisons of a step in every layer, for one request. -/
def GdnRunner.comparisons (s : GdnRunner R HV V K C) (cfg : GdnModelConfig HV V K) (reused : Bool)
    (e : StepEntry) : Nat :=
  if cfg.capacity = 0 ∨ reused = true ∨ e.numScheduledTokens ≤ 1 then 0
  else (s.reuseCandidates e.reqId).length

theorem count_compared {entries : List StepEntry} (hpos : ∀ e ∈ entries, 0 < e.numScheduledTokens)
    {j : Nat} {e : StepEntry} (he : (sortEntries entries)[j]? = some e) (x : Option SidecarIndex) :
    (if stepCompares cfg ((sortEntries entries).map s.request) x = true
      then shadowRows ((sortEntries entries).map s.request) else []).count j
      = s.comparisons cfg (stepReuses cfg ((sortEntries entries).map s.request) x) e := by
  have hq : ((sortEntries entries).map s.request)[j]? = some (s.request e) := by
    rw [List.getElem?_map, he]
    rfl
  have hcount := count_shadowRows (sortEntries_split s hpos) hq
  have hdec : (s.request e).isDecode = true ↔ e.numScheduledTokens ≤ 1 := decide_eq_true_iff
  rw [GdnRunner.comparisons, stepCompares]
  by_cases hcap : cfg.capacity = 0
  · rw [decide_eq_false (not_not_intro hcap), if_pos (Or.inl hcap), Bool.false_and, Bool.false_and]
    rfl
  rw [decide_eq_true hcap, Bool.true_and]
  cases stepReuses cfg ((sortEntries entries).map s.request) x with
  | true =>
      rw [if_pos (Or.inr (Or.inl rfl))]
      rfl
  | false =>
      have hrows : (if (!false && !((((sortEntries entries).map s.request).filter fun q =>
            !q.isDecode).map ScheduledRequest.candidates).all List.isEmpty) = true
          then shadowRows ((sortEntries entries).map s.request) else [])
            = shadowRows ((sortEntries entries).map s.request) := by
        split
        · rfl
        · next hempty =>
          rw [Bool.not_false, Bool.true_and, Bool.not_eq_true', Bool.not_eq_false] at hempty
          exact (shadowRows_of_empty hempty).symm
      rw [hrows, hcount]
      refine if_congr ?_ rfl rfl
      constructor
      · intro h
        exact Or.inr (Or.inr (hdec.mp h))
      · rintro (h | h | h)
        · exact absurd h hcap
        · cases h
        · exact hdec.mpr h

/-! ### A step -/

variable [CommRing R] {exp : R → R} {scale : R} {measure : ShadowMeasure R HV V K C}
  {contents : Nat → GdnAffineOperator R HV V K} {entries : List StepEntry}
  {inputs : StepInputs R HV V K H} {records : List (LayerRecord R HV V K H C)}

/-- What a step hands out for a request whose evidence is pending. -/
structure EvidenceOf (cfg : GdnModelConfig HV V K) (s : GdnRunner R HV V K C)
    (records : List (LayerRecord R HV V K H C)) (e : StepEntry) (metrics : GdnDeltaReuseMetrics C)
    (shadow : GdnShadowMetrics C) (active : GdnActiveMetrics) : Prop where
  expected : shadow.expectedCount = s.layers.length * (s.reuseCandidates e.reqId).length
  results : shadow.resultCount = s.layers.length
    * s.comparisons cfg (records.any fun r => r.after.reused) e
  complete : active.complete = true ↔
    metrics.preflightEligible = true ∧ ∀ r ∈ records, r.after.reused = true

/-- The evidence of one request. -/
theorem evidenceOf {x : Option SidecarIndex} (hinv : RunnerInv cfg s) (hlayers : s.layers ≠ [])
    (hpass : ForwardPass exp scale cfg s entries inputs records)
    (hx : ∀ r ∈ records, r.before.sidecar.map GdnDeltaOperatorSidecar.index = x)
    (hreused : ∀ r ∈ records, r.after.reused
      = stepReuses cfg ((sortEntries entries).map s.request) x)
    (hpos : ∀ e ∈ entries, 0 < e.numScheduledTokens) (hnodup : (entries.map StepEntry.reqId).Nodup)
    {e : StepEntry} (he : e ∈ entries) {metrics : GdnDeltaReuseMetrics C}
    (hmetrics : get s.pendingGdnDeltaReuseMetrics e.reqId = some metrics) :
    EvidenceOf cfg s records e metrics
      (GdnRunner.shadowMetrics metrics ((get (grouped (fun x =>
        ((sortEntries entries).map StepEntry.reqId).getD x.2.sequenceIndex "") id
          (s.afterForward records).shadowResults) e.reqId).getD []))
      ((s.afterForward records).summarizeGdnDeltaActiveResults metrics.resolvedLayerCount) := by
  have hpending := hinv.pending _ (mem_of_get_eq_some hmetrics)
  have hrows := compared_rows_alike hpass hx
  have hlen : (s.afterForward records).layers.length = s.layers.length := by
    rw [← hpass.before, GdnRunner.afterForward, List.length_map, List.length_map]
  refine ⟨hpending.expectedCount _, ?_, ?_⟩
  · have hin := (sortEntries_perm entries).mem_iff.mpr he
    obtain ⟨j, hj⟩ := List.getElem?_of_mem hin
    have hjid : ((sortEntries entries).map StepEntry.reqId)[j]? = some e.reqId := by
      rw [List.getElem?_map, hj]
      rfl
    have hnodup' : ((sortEntries entries).map StepEntry.reqId).Nodup :=
      ((sortEntries_perm entries).map _).nodup_iff.mpr hnodup
    have hlt : ∀ n ∈ (if stepCompares cfg ((sortEntries entries).map s.request) x = true
        then shadowRows ((sortEntries entries).map s.request) else []),
        n < ((sortEntries entries).map StepEntry.reqId).length := by
      intro n hn
      split at hn
      · have := shadowRows_lt _ hn
        rw [List.length_map] at this ⊢
        exact this
      · cases hn
    have hany : (records.any fun r => r.after.reused)
        = stepReuses cfg ((sortEntries entries).map s.request) x := by
      obtain ⟨r, hr⟩ : ∃ r, r ∈ records := by
        refine List.exists_mem_of_ne_nil _ ?_
        intro hnil
        rw [hnil] at hpass
        exact hlayers hpass.before.symm
      rw [← hreused r hr, Bool.eq_iff_iff, List.any_eq_true]
      constructor
      · rintro ⟨r', hr', h⟩
        rw [hreused r hr, ← hreused r' hr']
        exact h
      · intro h
        exact ⟨r, hr, h⟩
    rw [hany, ← count_compared hpos hj x]
    refine (length_summary e.reqId).trans ?_
    rw [countP_shadowResults hnodup' hjid hlt hrows, hlen]
  · rw [hpending.layers]
    by_cases helig : metrics.preflightEligible = true
    · rw [if_pos helig, ← hlen, active_complete_iff, and_iff_right helig]
      constructor
      · rintro ⟨-, hall⟩ r hr
        exact hall _ (List.mem_map_of_mem (f := LayerRecord.layerAfter) hr)
      · intro hall
        refine ⟨?_, ?_⟩
        · intro hnil
          rw [hnil] at hlen
          exact hlayers (List.length_eq_zero_iff.mp hlen.symm)
        · intro layer hlayer
          obtain ⟨r, hr, rfl⟩ := List.mem_map.mp hlayer
          exact hall r hr
    · rw [if_neg helig, active_incomplete]
      exact ⟨fun h => (by cases h), fun h => absurd h.1 helig⟩

omit [CommRing R] in
/-- The evidence that recording leaves of a request. -/
theorem get_recordMetrics {s t : GdnRunner R HV V K C} {reqIds : List String}
    (hrows : ∀ y ∈ s.shadowResults, y.2.sequenceIndex < reqIds.length)
    (hrun : s.recordMetrics reqIds = .ok t) (reqId : String) :
    get t.pendingGdnDeltaReuseMetrics reqId
      = (get s.pendingGdnDeltaReuseMetrics reqId).map fun metrics =>
        if reqId ∈ reqIds then s.withEvidence (grouped (fun x =>
          reqIds.getD x.2.sequenceIndex "") id s.shadowResults) reqId metrics
        else metrics := by
  rw [GdnRunner.recordMetrics, summarize_ok hrows] at hrun
  cases hrun
  exact get_map_snd (fun reqId metrics => if reqId ∈ reqIds then s.withEvidence (grouped (fun x =>
    reqIds.getD x.2.sequenceIndex "") id s.shadowResults) reqId metrics else metrics) _ _

/-- **The evidence of a step is exact.**  In every state that a served runner reaches, a step returns exactly
when its batch fits: recording the evidence never raises.  The evidence of every request of the batch is
handed out once, the others keep theirs.  It expects a comparison for each candidate of the request in each
layer; it has them all when the request is a prefill, no layer reused and there are sidecars, and none
else; and active evidence is complete exactly when the plan was resolved and all layers reused. -/
theorem evidence_exact (exp : R → R) (scale : R) (measure : ShadowMeasure R HV V K C)
    (cfg : GdnModelConfig HV V K) (contents : Nat → GdnAffineOperator R HV V K)
    (sha256 : List UInt8 → ContextualHash)
    (hsha : ∀ bytes, sha256 bytes ≠ []) {s₀ : GdnRunner R HV V K C} (h₀ : Initial s₀)
    (hs : ReachableWhen (runnerStep (H := H) exp scale measure cfg contents) (Served sha256 cfg) s₀ s)
    (hlayers : s.layers ≠ []) (hserved : Served sha256 cfg s (.execute entries inputs)) :
    let execute := s.execute exp scale measure cfg contents entries inputs
    ((∃ x, execute = .ok x) ↔ BatchFits cfg ((sortEntries entries).map s.request)) ∧
    ∀ handed s', execute = .ok (handed, s') → ∃ records,
      s.forward exp scale measure cfg contents entries inputs = .ok records ∧
      s'.layers = records.map LayerRecord.layerAfter ∧
      (∀ e ∈ entries, get s'.pendingGdnDeltaReuseMetrics e.reqId = none ∧
        ∀ metrics, get s.pendingGdnDeltaReuseMetrics e.reqId = some metrics → ∃ shadow active,
          get handed e.reqId = some { metrics with shadow := some shadow, active := some active } ∧
          EvidenceOf cfg s records e metrics shadow active) ∧
      ∀ reqId, reqId ∉ entries.map StepEntry.reqId → get handed reqId = none ∧
        get s'.pendingGdnDeltaReuseMetrics reqId = get s.pendingGdnDeltaReuseMetrics reqId := by
  intro execute
  have h := runnerInv_of_reachable hsha h₀ hs
  obtain ⟨hok, herror⟩ := h.forward exp scale measure contents hserved.2
  have hmem : ∀ reqId, reqId ∈ (sortEntries entries).map StepEntry.reqId ↔
      reqId ∈ entries.map StepEntry.reqId :=
    fun reqId => ((sortEntries_perm entries).map StepEntry.reqId).mem_iff
  refine ⟨⟨?_, ?_⟩, ?_⟩
  · rintro ⟨x, hrun⟩
    obtain ⟨records, hforward, -⟩ := execute_eq_ok hrun
    by_contra hunfit
    obtain ⟨e, he⟩ := herror hlayers hunfit
    cases hforward.symm.trans he
  · intro hfits
    obtain ⟨records, hforward, hpass⟩ := hok hfits
    obtain ⟨x, hx⟩ := h.before hpass.before
    obtain ⟨t, ht⟩ := recordMetrics_ok hpass hx
    exact ⟨_, Except.bind_eq_ok.mpr ⟨records, hforward, Except.bind_eq_ok.mpr ⟨t, ht, rfl⟩⟩⟩
  · intro handed s' hrun
    obtain ⟨records, hforward, t, ht, htake⟩ := execute_eq_ok hrun
    have hpass := h.forwardPass hserved.2 hforward
    obtain ⟨x, hx, hreused⟩ := h.alike_reused hpass
    have hget := get_recordMetrics (shadowResults_lt hpass hx) ht
    have hlayers_t : t.layers = records.map LayerRecord.layerAfter := by
      obtain ⟨summaries, -, ht⟩ := Except.bind_eq_ok.mp ht
      cases ht
      rfl
    rw [GdnRunner.takeMetrics, Prod.mk.injEq] at htake
    obtain ⟨rfl, rfl⟩ := htake
    have hhanded : ∀ reqId, get (t.pendingGdnDeltaReuseMetrics.filter fun e =>
        e.1 ∈ (sortEntries entries).map StepEntry.reqId) reqId
          = if reqId ∈ (sortEntries entries).map StepEntry.reqId
            then get t.pendingGdnDeltaReuseMetrics reqId else none := by
      intro reqId
      rw [get_filter fun id => decide (id ∈ (sortEntries entries).map StepEntry.reqId)]
      exact if_congr decide_eq_true_iff rfl rfl
    have hkept : ∀ reqId, get (t.pendingGdnDeltaReuseMetrics.filter fun e =>
        e.1 ∉ (sortEntries entries).map StepEntry.reqId) reqId
          = if reqId ∉ (sortEntries entries).map StepEntry.reqId
            then get t.pendingGdnDeltaReuseMetrics reqId else none := by
      intro reqId
      rw [get_filter fun id => decide (id ∉ (sortEntries entries).map StepEntry.reqId)]
      exact if_congr decide_eq_true_iff rfl rfl
    refine ⟨records, hforward, hlayers_t, ?_, ?_⟩
    · intro e he
      have hin := (hmem e.reqId).mpr (List.mem_map_of_mem he)
      refine ⟨(hkept e.reqId).trans (if_neg (not_not_intro hin)), ?_⟩
      intro metrics hmetrics
      have hpos : ∀ e ∈ entries, 0 < e.numScheduledTokens := by
        intro e he
        have := (hserved.2 0 (List.length_pos_of_ne_nil hlayers)).ready _ (List.mem_map_of_mem he)
        have hlen : (List.replicate e.numScheduledTokens ()).length = e.numScheduledTokens :=
          List.length_replicate ..
        exact hlen ▸ this.nonempty
      refine ⟨_, _, ?_, evidenceOf h hlayers hpass hx hreused hpos hserved.1 he hmetrics⟩
      rw [hhanded, if_pos hin, hget]
      change (get s.pendingGdnDeltaReuseMetrics e.reqId).map _ = _
      rw [hmetrics, Option.map_some, if_pos hin]
      rfl
    · intro reqId hnot
      have hout := mt (hmem reqId).mp hnot
      refine ⟨(hhanded reqId).trans (if_neg hout), ?_⟩
      refine (hkept reqId).trans ?_
      rw [if_pos hout, hget]
      change (get s.pendingGdnDeltaReuseMetrics reqId).map _ = _
      cases get s.pendingGdnDeltaReuseMetrics reqId with
      | none => rfl
      | some metrics => rw [Option.map_some, if_neg hout]

end

/-! ### The evidence of the target -/

section

/-- What the step of the target hands out: two comparisons are expected, one of each layer; they are made
when the layers do not reuse, and active evidence is complete when they do. -/
def TargetEvidence (executionMode : String) (reused : Bool) : Prop :=
  ∃ s,
    ReachableWhen (runnerStep (H := 1) id 1 twoLayerMeasure (twoLayerConfig executionMode) noOperators)
      (Served sampleDigest (twoLayerConfig executionMode)) twoLayerRunner s ∧
    ∃ handed s', s.execute id 1 twoLayerMeasure (twoLayerConfig executionMode) noOperators targetEntries
        twoLayerInputs = .ok (handed, s') ∧
      ∃ metrics shadow active, get handed "target" = some metrics ∧ metrics.shadow = some shadow ∧
        metrics.active = some active ∧ shadow.expectedCount = 2 ∧
        shadow.resultCount = (if reused = true then 0 else 2) ∧ (active.complete = true ↔ reused = true)

/-- In shadow mode the target's step compares its block in both layers, in active mode both reuse it. -/
theorem twoLayer_evidence : TargetEvidence "shadow" false ∧ TargetEvidence "active" true := by
  have hsha : ∀ bytes, sampleDigest bytes ≠ [] := fun _ => List.cons_ne_nil _ _
  have hevidence : ∀ executionMode reused, stepReuses (twoLayerConfig executionMode)
      [⟨0, 128, sampleHashes servedTarget, [(1, sourceHash)]⟩] (some residentIndex) = reused →
        TargetEvidence executionMode reused := by
    intro executionMode reused hstep
    rw [TargetEvidence]
    obtain ⟨s, hreach, hlayers, halike, hrequest, metrics, hpending, heligible⟩ :=
      target_reached executionMode
    have hbatch : (sortEntries targetEntries).map s.request
        = [⟨0, 128, sampleHashes servedTarget, [(1, sourceHash)]⟩] :=
      congrArg (fun q => [q]) (hrequest 0 128)
    have hne : s.layers ≠ [] := List.ne_nil_of_length_pos (by rw [hlayers]; decide)
    have hcandidates : s.reuseCandidates "target" = [(1, sourceHash)] :=
      congrArg ScheduledRequest.candidates (hrequest 0 128)
    obtain ⟨records, hrun, hlen, hreused, handed, s', hexec, -, -⟩ :=
      (runnerInv_of_reachable hsha initial_twoLayerRunner hreach).execute_fits id 1 twoLayerMeasure
        noOperators halike (served_targetEntries executionMode s).2
        (by rw [hbatch]; exact batchFits_target executionMode _ _)
    rw [hbatch, hstep] at hreused
    obtain ⟨-, hall⟩ := evidence_exact id 1 twoLayerMeasure (twoLayerConfig executionMode) noOperators
      sampleDigest hsha initial_twoLayerRunner hreach hne (served_targetEntries executionMode s)
    obtain ⟨records', hrun', -, hentries, -⟩ := hall handed s' hexec
    cases hrun.symm.trans hrun'
    obtain ⟨-, hmetrics⟩ := hentries ⟨"target", 0, 128⟩ List.mem_cons_self
    obtain ⟨shadow, active, hget, hof⟩ := hmetrics metrics hpending
    have hpos : 0 < records.length := by
      rw [hlen, hlayers]
      decide
    obtain ⟨r, hr⟩ := List.exists_mem_of_length_pos hpos
    have hany : (records.any fun r => r.after.reused) = reused := by
      rw [Bool.eq_iff_iff, List.any_eq_true]
      constructor
      · rintro ⟨r', hr', h⟩
        rwa [hreused r' hr'] at h
      · intro h
        exact ⟨r, hr, (hreused r hr).trans h⟩
    refine ⟨s, hreach, handed, s', hexec, _, shadow, active, hget, rfl, rfl, ?_, ?_, ?_⟩
    · rw [hof.expected, hlayers, hcandidates]
      rfl
    · rw [hof.results, hlayers, hany, GdnRunner.comparisons, hcandidates]
      cases reused
      · rfl
      · rfl
    · rw [hof.complete, and_iff_right heligible]
      exact ⟨fun h => (hreused r hr).symm.trans (h r hr), fun h r hr => (hreused r hr).trans h⟩
  exact ⟨hevidence "shadow" false (by decide +kernel), hevidence "active" true stepReuses_target⟩

end

end CacheSelect.Gdn

import CacheSelect.Gdn.LayerPass

/-! # What a layer's pass does

A pass returns exactly when its batch fits.  It then uses the sidecar as the index of the sidecar says, it
reuses only with all operators resident, and when it does not reuse it leaves the outputs and the slots of the
full recurrence: `gdnLayerForward_ok` and `gdnLayerForward_error`, from one lemma for each part of the pass.
-/

namespace CacheSelect.Gdn

open CacheSelect.Core OrderedDict Segments Writes

/-! ### The attempt -/

section

variable {R : Type} {HV V K H : Nat} {cfg : GdnModelConfig HV V K}

/-- A plan needs operators exactly when it reuses blocks. -/
theorem neededOperators_eq_nil_iff {deltaBlockSize : Nat} (hpos : 0 < deltaBlockSize)
    {q : ScheduledRequest} (hcs : ValidCandidates q.candidates) :
    q.neededOperators deltaBlockSize = [] ↔
      (activePlan deltaBlockSize q.computed q.scheduled q.candidates).reusedBlockIndices = [] := by
  have hspec := sequencePlan_spec hpos hcs.nodup_keys 0 q.computed q.scheduled
  have hsome := (List.reduceOption_length_eq_iff).mpr hspec.hash_isSome
  rw [ScheduledRequest.neededOperators, activePlan, ← List.length_eq_zero_iff, hsome,
    GdnDeltaSequenceExecutionPlan.reuseHashes, hspec.reuse_eq, List.length_map, List.length_map,
    List.length_eq_zero_iff]

theorem admitted_eq_some {batch : List ScheduledRequest} {q : ScheduledRequest} :
    admitted cfg batch = some q ↔ batch = [q] ∧ cfg.executionMode = "active" ∧
      q.isDecode = false ∧ q.candidates ≠ [] := by
  constructor
  · intro h
    cases batch with
    | nil => cases h
    | cons q' rest =>
        cases rest with
        | cons _ _ => cases h
        | nil =>
            rw [admitted] at h
            split at h
            · next hc =>
              cases h
              exact ⟨rfl, hc⟩
            · cases h
  · rintro ⟨rfl, h⟩
    exact if_pos h

theorem prefillsOf_eq_self {rows : List (LayerRow R HV V K H)} (h : decodesOf rows = []) :
    prefillsOf rows = rows := by
  rw [prefillsOf, List.filter_eq_self]
  intro row hrow
  rw [Bool.not_eq_true']
  by_contra hdec
  have hin : row ∈ decodesOf rows :=
    List.mem_filter.mpr ⟨hrow, (Bool.not_eq_false _).mp hdec⟩
  rw [h] at hin
  cases hin

/-- The rows of a batch with an admitted prefill. -/
theorem rows_of_admitted {rows : List (LayerRow R HV V K H)} {q : ScheduledRequest}
    (h : admitted cfg (rows.map LayerRow.request) = some q) :
    ∃ row, rows = [row] ∧ row.request = q ∧ decodesOf rows = [] ∧ prefillsOf rows = [row] := by
  obtain ⟨hbatch, -, hpre, -⟩ := admitted_eq_some.mp h
  obtain ⟨row, hrows, rfl⟩ := List.map_eq_singleton_iff.mp hbatch
  have hdec : decodesOf rows = [] := by
    rw [hrows, decodesOf, List.filter_cons_of_neg (by rw [hpre]; decide), List.filter_nil]
  refine ⟨row, hrows, rfl, hdec, ?_⟩
  rw [prefillsOf_eq_self hdec, hrows]

theorem metadata_eq (rows : List (LayerRow R HV V K H)) :
    (gdnActiveMetadata (rows.map LayerRow.toBatchRow)).numPrefills = (prefillsOf rows).length ∧
      (gdnActiveMetadata (rows.map LayerRow.toBatchRow)).numDecodes = (decodesOf rows).length := by
  rw [gdnActiveMetadata, filter_isDecode_toBatchRow, filter_not_isDecode_toBatchRow]
  exact ⟨List.length_map _, List.length_map _⟩

/-- The admission of a layer's attempt. -/
theorem admitted_of_eligible {rows : List (LayerRow R HV V K H)}
    (h : (assessGdnDeltaActiveAdmission cfg.toGdnDeltaConfig.executionMode
      cfg.toGdnDeltaConfig.mambaCacheMode cfg.toGdnDeltaConfig.prefillBackend
      (gdnActiveMetadata (rows.map LayerRow.toBatchRow)).numPrefills
      (gdnActiveMetadata (rows.map LayerRow.toBatchRow)).numDecodes
      (gdnActiveMetadata (rows.map LayerRow.toBatchRow)).numSpecDecodes
      ((prefillsOf rows).map fun row => row.request.candidates)).eligible = true) :
    ∃ q, admitted cfg (rows.map LayerRow.request) = some q := by
  obtain ⟨hmode, -, -, -, hdecodes, hprefills, cs, hne, hcs⟩ := eligible_iff.mp h
  obtain ⟨hcount, hcount'⟩ := metadata_eq rows
  rw [hcount'] at hdecodes
  have hself := prefillsOf_eq_self (List.length_eq_zero_iff.mp hdecodes)
  rw [hself] at hcs
  obtain ⟨row, rfl, rfl⟩ := List.map_eq_singleton_iff.mp hcs
  have hpre : row ∈ prefillsOf [row] := by
    rw [hself]
    exact List.mem_cons_self
  exact ⟨row.request, admitted_eq_some.mpr ⟨rfl, hmode, (mem_prefillsOf.mp hpre).2, hne⟩⟩

theorem admittedPrefill {row : LayerRow R HV V K H}
    (h : admitted cfg [row.request] = some row.request) :
    AdmittedPrefill cfg.toGdnDeltaConfig cfg.mambaBlockSize row.toBatchRow
      row.request.candidates where
  mode := (admitted_eq_some.mp h).2.1
  cacheMode := rfl
  backend := rfl
  page := rfl
  candidates := (admitted_eq_some.mp h).2.2.2

theorem metadata_single {row : LayerRow R HV V K H}
    (h : admitted cfg [row.request] = some row.request) :
    gdnActiveMetadata [row.toBatchRow] = singleMetadata row.toBatchRow := by
  have hpre : row.toBatchRow.isDecode = false := by
    rw [row.isDecode_toBatchRow]
    exact (admitted_eq_some.mp h).2.2.1
  refine gdnActiveMetadata_single ?_ ?_
  · rw [List.filter_cons_of_neg (by rw [hpre]; decide), List.filter_nil]
  · rw [List.filter_cons_of_pos (by rw [hpre]; decide), List.filter_nil]

theorem passReuses_of_admitted {batch : List ScheduledRequest} {q : ScheduledRequest}
    (h : admitted cfg batch = some q) (x : SidecarIndex) :
    passReuses cfg batch x = (!(q.neededOperators cfg.deltaBlockSize).isEmpty
      && x.containsMany (q.neededOperators cfg.deltaBlockSize)) := by
  rw [passReuses, attemptHashes, h]
  rfl

theorem passReuses_of_not_admitted {batch : List ScheduledRequest} (h : admitted cfg batch = none)
    (x : SidecarIndex) : passReuses cfg batch x = false := by
  rw [passReuses, attemptHashes, h]
  rfl

variable [CommRing R] (exp : R → R) (scale : R)

/-- **The attempt of a layer** returns when an admitted prefill fits, and reuses as its index says. -/
theorem activeAttempt_ok (hmode : cfg.executionMode = "active") {rows : List (LayerRow R HV V K H)}
    (hrows : RowsReady cfg.mambaBlockSize rows)
    (hfits : ∀ q, admitted cfg (rows.map LayerRow.request) = some q →
      cfg.deltaBlockSize ∣ cfg.mambaBlockSize ∧ cfg.deltaBlockSize ∣ q.computed)
    {s : GdnDeltaOperatorSidecar R HV V K} (hs : HoldsBlocks cfg.deltaBlockSize s)
    (stateCache : Nat → RecurrentState R HV V K) {initial : List (RecurrentState R HV V K)}
    (hinitial : initial.length = (prefillsOf rows).length) :
    ∃ result reason m, activeAttempt exp scale cfg (gdnActiveMetadata (rows.map LayerRow.toBatchRow))
        (some s) stateCache ((prefillsOf rows).map LayerRow.toBatchRow) initial
        ((prefillsOf rows).map fun row => row.request.candidates)
        = .ok ((result, reason),
            some (s.run [.lookupMany (attemptHashes cfg (rows.map LayerRow.request))]), m) ∧
      result.isSome = passReuses cfg (rows.map LayerRow.request) s.index ∧
      (result = none → m = stateCache) := by
  cases hadm : admitted cfg (rows.map LayerRow.request) with
  | none =>
      have hnot := mt (@admitted_of_eligible R HV V K H cfg rows) (by rw [hadm]; simp)
      obtain ⟨reason, hskip⟩ := executeActiveGdnPrefill_ineligible exp scale
        ((Bool.not_eq_true _).mp hnot) s stateCache
        (((prefillsOf rows).map LayerRow.toBatchRow).map BatchRow.table) initial
        (((prefillsOf rows).map LayerRow.toBatchRow).flatMap BatchRow.tokens)
      refine ⟨none, reason, stateCache, ?_, ?_, fun _ => rfl⟩
      · rw [activeAttempt, hskip, attemptHashes, hadm]
        rfl
      · rw [passReuses_of_not_admitted hadm]
        rfl
  | some q =>
      obtain ⟨row, rfl, rfl, -, hpre⟩ := rows_of_admitted hadm
      rw [hpre] at hinitial ⊢
      obtain ⟨incoming, rfl⟩ := List.length_eq_one_iff.mp hinitial
      obtain ⟨hpage, hcomputed⟩ := hfits _ hadm
      have hsize := hs.ready.blockSize_eq
      have hready : row.toBatchRow.Ready cfg.mambaBlockSize :=
        hrows.slots.ready _ List.mem_cons_self
      have hcs := hrows.candidates row List.mem_cons_self
      have hplan : activePlan cfg.deltaBlockSize row.request.computed row.request.scheduled
          row.request.candidates = activePlan s.blockSize row.toBatchRow.computed
            row.toBatchRow.tokens.length row.request.candidates := by
        rw [hsize, row.length_tokens]
        rfl
      obtain ⟨hskip, hmiss, hrun⟩ := executeActiveGdnPrefill_returns exp scale (admittedPrefill hadm)
        cfg.mambaBlockSize_pos hready hcs (by rw [hsize]; exact cfg.deltaBlockSize_pos)
        (by rw [hsize]; exact cfg.chunk_dvd (cfg.capacity_pos hmode)) (by rw [hsize]; exact hpage)
        (by rw [hsize]; exact hcomputed) (by rw [hsize]; exact hs.ofBlock) hplan stateCache incoming
      have hnil := neededOperators_eq_nil_iff cfg.deltaBlockSize_pos hcs
      have hcall : ∀ (attempt : Option (GdnDeltaSequenceExecutionResult R HV V K) × String)
          (s' : GdnDeltaOperatorSidecar R HV V K) (m : Nat → RecurrentState R HV V K),
          executeActiveGdnPrefill exp scale cfg.toGdnDeltaConfig (singleMetadata row.toBatchRow) s
            stateCache [row.toBatchRow.table] [incoming] row.toBatchRow.tokens
            [row.request.candidates] = .ok (attempt, s', m) →
          activeAttempt exp scale cfg (gdnActiveMetadata ([row].map LayerRow.toBatchRow)) (some s)
            stateCache ([row].map LayerRow.toBatchRow) [incoming]
            ([row].map fun row => row.request.candidates) = .ok (attempt, some s', m) := by
        intro attempt s' m h
        rw [activeAttempt, List.map_singleton, List.map_singleton, List.map_singleton,
          metadata_single hadm, List.flatMap_singleton, h]
        rfl
      have huses : s.run [.lookupMany (attemptHashes cfg ([row].map LayerRow.request))]
          = (s.lookupMany (row.request.neededOperators cfg.deltaBlockSize)).2 := by
        rw [attemptHashes, hadm]
        rfl
      rw [huses, passReuses_of_admitted hadm]
      by_cases hnone : (activePlan cfg.deltaBlockSize row.request.computed row.request.scheduled
          row.request.candidates).reusedBlockIndices = []
      · refine ⟨none, "no_fully_scheduled_candidates", stateCache, ?_, ?_, fun _ => rfl⟩
        · rw [hcall _ _ _ (hskip hnone), hnil.mpr hnone]
          rfl
        · rw [hnil.mpr hnone]
          rfl
      · have hne : (row.request.neededOperators cfg.deltaBlockSize).isEmpty = false := by
          rw [List.isEmpty_eq_false_iff]
          exact fun h => hnone (hnil.mp h)
        rw [hne]
        by_cases hres : s.containsMany (row.request.neededOperators cfg.deltaBlockSize) = true
        · obtain ⟨result, m, hresult, -⟩ := hrun hnone hres
          refine ⟨some result, "executed", m, hcall _ _ _ hresult, ?_, fun h => (by cases h)⟩
          rw [GdnDeltaOperatorSidecar.index_containsMany, hres]
          rfl
        · rw [Bool.not_eq_true] at hres
          refine ⟨none, "operator_not_resident", stateCache, ?_, ?_, fun _ => rfl⟩
          · have hkeep : (s.lookupMany (row.request.neededOperators cfg.deltaBlockSize)).2 = s := by
              rw [GdnDeltaOperatorSidecar.containsMany, List.all_eq_false] at hres
              obtain ⟨h, hin, hnone⟩ := hres
              rw [GdnDeltaOperatorSidecar.lookupMany_of_missing hin (by simpa using hnone)]
            rw [hkeep]
            exact hcall _ _ _ (hmiss hnone hres)
          · rw [GdnDeltaOperatorSidecar.index_containsMany, hres]
            rfl

/-- **The attempt of a layer raises** when an admitted prefill does not fit. -/
theorem activeAttempt_error {rows : List (LayerRow R HV V K H)} {q : ScheduledRequest}
    (hadm : admitted cfg (rows.map LayerRow.request) = some q)
    (hunfit : ¬ (cfg.deltaBlockSize ∣ cfg.mambaBlockSize ∧ cfg.deltaBlockSize ∣ q.computed))
    {s : GdnDeltaOperatorSidecar R HV V K} (hs : HoldsBlocks cfg.deltaBlockSize s)
    (stateCache : Nat → RecurrentState R HV V K) {initial : List (RecurrentState R HV V K)}
    (hinitial : initial.length = (prefillsOf rows).length) :
    ∃ e, activeAttempt exp scale cfg (gdnActiveMetadata (rows.map LayerRow.toBatchRow))
      (some s) stateCache ((prefillsOf rows).map LayerRow.toBatchRow) initial
      ((prefillsOf rows).map fun row => row.request.candidates) = .error e := by
  obtain ⟨row, rfl, rfl, -, hpre⟩ := rows_of_admitted hadm
  rw [hpre] at hinitial ⊢
  obtain ⟨incoming, rfl⟩ := List.length_eq_one_iff.mp hinitial
  rw [← hs.ready.blockSize_eq] at hunfit
  obtain ⟨e, he⟩ := executeActiveGdnPrefill_unaligned exp scale (admittedPrefill hadm) hunfit stateCache
    incoming
  refine ⟨e, ?_⟩
  rw [activeAttempt, List.map_singleton, List.map_singleton, List.map_singleton,
    metadata_single hadm, List.flatMap_singleton]
  exact congrArg (· >>= _) he

end

/-! ### The comparison -/

section

variable {R : Type} {HV V K H : Nat} {C : Type} [CommRing R]
  (measure : ShadowMeasure R HV V K C) (inputs : ShadowInputs R HV V K) {blockSize : Nat}

theorem compareGdnAffineShadow_returns (incoming reference : RecurrentState R HV V K)
    {entry : GdnDeltaCacheEntry R HV V K} (hentry : entry.toGdnAffineOperator.OfBlock blockSize)
    {outputs : List (TokenOutput R HV V)} (hlen : outputs.length = blockSize) :
    ∃ c, compareGdnAffineShadow measure incoming entry outputs reference = .ok c := by
  obtain ⟨outgoing, approximate, happly, hcount⟩ := applyGdnAffineOperator_ofBlock hentry incoming
  rw [compareGdnAffineShadow, happly]
  exact ⟨_, if_neg (not_not_intro (hcount.trans hlen.symm))⟩

/-- One comparison with an operator of a whole block returns. -/
theorem compareResident_returns (hends : ∀ i, inputs.queryStarts.getD i 0 ≤ inputs.fullOutputs.length)
    (candidate : IndexedCandidate) {entry : GdnDeltaCacheEntry R HV V K}
    (hentry : entry.toGdnAffineOperator.OfBlock blockSize) :
    ∃ result, compareResident measure inputs blockSize candidate entry = .ok result := by
  obtain ⟨i, target, hash⟩ := candidate
  rw [compareResident]
  dsimp only
  split
  · exact ⟨_, rfl⟩
  next hrange =>
  split
  · exact ⟨_, rfl⟩
  next hscheduled =>
  split
  · exact ⟨_, rfl⟩
  have hend := hends (i + 1)
  rw [not_or, not_lt, not_lt] at hscheduled
  have hlen : (slice inputs.fullOutputs
      ((inputs.queryStarts.getD i 0 : Int)
        + (target * blockSize - (inputs.computedCounts.getD i 0 : Nat))).toNat
      ((inputs.queryStarts.getD i 0 : Int)
        + (target * blockSize - (inputs.computedCounts.getD i 0 : Nat)) + blockSize).toNat).length
      = blockSize := by
    rw [length_slice _ (by omega)]
    omega
  obtain ⟨c, hc⟩ := compareGdnAffineShadow_returns measure
    (inputs.stateCache ((inputs.checkpointStateIndices.getD i []).getD (target - 1).toNat NULL_BLOCK_ID))
    (inputs.stateCache ((inputs.checkpointStateIndices.getD i []).getD target.toNat NULL_BLOCK_ID))
    hentry hlen
  rw [hc]
  exact ⟨_, rfl⟩

/-- **The comparisons** return and look every candidate up. -/
theorem compareCandidates_returns
    (hends : ∀ i, inputs.queryStarts.getD i 0 ≤ inputs.fullOutputs.length) :
    ∀ (candidates : List IndexedCandidate) {s : GdnDeltaOperatorSidecar R HV V K},
      HoldsBlocks blockSize s → ∃ results,
        compareCandidates measure inputs candidates s
          = .ok (results, s.run (candidates.map fun c => .lookup c.2.2)) := by
  intro candidates
  induction candidates with
  | nil => intro s _; exact ⟨[], rfl⟩
  | cons candidate candidates ih =>
      intro s hs
      have haccepted : ∀ call ∈ ([.lookup candidate.2.2] :
          List (GdnDeltaOperatorSidecar.Call R HV V K)), call.Accepted blockSize := by
        intro call hcall
        rw [List.mem_singleton.mp hcall]
        trivial
      have hnext : HoldsBlocks blockSize (s.after (.lookup candidate.2.2)) := hs.run haccepted
      obtain ⟨results, hrest⟩ := ih hnext
      cases hlookup : s.lookup candidate.2.2 with
      | mk entry s' =>
          have hafter : s.after (.lookup candidate.2.2) = s' := by
            rw [GdnDeltaOperatorSidecar.after, hlookup]
          have hrun : s.run ((candidate :: candidates).map fun c => .lookup c.2.2)
              = s'.run (candidates.map fun c => .lookup c.2.2) := by
            rw [← hafter]
            rfl
          rw [hafter] at hrest hnext
          rw [hrun, compareCandidates, hlookup]
          cases entry with
          | none =>
              dsimp only
              rw [hrest]
              exact ⟨_, rfl⟩
          | some entry =>
              -- a resident operator is one of the contents
              have hentry : entry.toGdnAffineOperator.OfBlock blockSize := by
                rw [GdnDeltaOperatorSidecar.lookup] at hlookup
                split at hlookup
                · cases hlookup
                · next slot hslot =>
                  cases hlookup
                  exact hs.ofBlock _ (GdnDeltaOperatorSidecar.mem_contents_of_get hslot)
              obtain ⟨result, hresult⟩ := compareResident_returns measure inputs hends candidate
                hentry
              dsimp only
              rw [hnext.ready.blockSize_eq, hresult]
              change ∃ results, (compareCandidates measure inputs candidates s' >>= _) = _
              rw [hrest]
              exact ⟨_, rfl⟩

theorem map_eq_of_forall₂ {α β γ : Type} {f : α → γ} {g : β → γ} {l : List α} {l' : List β}
    (h : List.Forall₂ (fun a b => f a = g b) l l') : l.map f = l'.map g := by
  induction h with
  | nil => rfl
  | cons hab _ ih => rw [List.map_cons, List.map_cons, hab, ih]

/-- The starts of the rows in the flattened outputs. -/
theorem scanl_getD_le_sum (lens : List Nat) (i : Nat) :
    ((lens.scanl (· + ·) 0).getD i 0) ≤ lens.sum := by
  by_cases hi : i ≤ lens.length
  · rw [scanl_add_getD hi]
    conv_rhs => rw [← List.take_append_drop i lens, List.sum_append]
    exact Nat.le_add_right _ _
  · rw [List.getD_eq_default _ _ (by rw [List.length_scanl]; omega)]
    exact Nat.zero_le _

theorem shadowComparison_ok (measure : ShadowMeasure R HV V K C) (cfg : GdnModelConfig HV V K)
    (numDecodes : Nat) {prefills : List (LayerRow R HV V K H)}
    (stateCache : Nat → RecurrentState R HV V K) {outputs : List (List (TokenOutput R HV V))}
    (houtputs : outputs.map List.length
      = (prefills.map LayerRow.toBatchRow).map fun row => row.tokens.length)
    {s : GdnDeltaOperatorSidecar R HV V K} (hs : HoldsBlocks blockSize s) :
    ∃ results calls, shadowComparison measure cfg numDecodes (prefills.map LayerRow.toBatchRow)
        stateCache outputs s (prefills.map fun row => row.request.candidates)
        = .ok (results, s.run calls) ∧ (∀ call ∈ calls, call.Accepted blockSize) ∧
      calls.map GdnDeltaOperatorSidecar.Call.use = shadowUses (prefills.map LayerRow.request) ∧
      results.map GdnDeltaBlockShadowResult.sequenceIndex
        = (indexedCandidates (prefills.map fun row => row.request.candidates)).map
            fun c => c.1 + numDecodes := by
  have hlen : outputs.flatten.length
      = ((prefills.map LayerRow.toBatchRow).map fun row => row.tokens.length).sum := by
    rw [List.length_flatten, houtputs]
  have hcandidates : prefills.map (fun row => row.request.candidates)
      = (prefills.map LayerRow.request).map ScheduledRequest.candidates := by
    rw [List.map_map]
    rfl
  obtain ⟨results, hrun⟩ := compareCandidates_returns measure
    { numSlots := cfg.numSlots
      stateCache := stateCache
      fullOutputs := outputs.flatten
      checkpointStateIndices := (prefills.map LayerRow.toBatchRow).map BatchRow.table
      queryStarts := ((prefills.map LayerRow.toBatchRow).map
        fun row => row.tokens.length).scanl (· + ·) 0
      computedCounts := (prefills.map LayerRow.toBatchRow).map BatchRow.computed
      sequenceIndexOffset := numDecodes }
    (fun i => by
      dsimp only
      rw [hlen]
      exact scanl_getD_le_sum _ i)
    (indexedCandidates (prefills.map fun row => row.request.candidates)) hs
  refine ⟨results, (indexedCandidates (prefills.map fun row => row.request.candidates)).map
    fun c => .lookup c.2.2, ?_, ?_, ?_, ?_⟩
  · rw [shadowComparison, compareCompletedGdnBlocksShadow]
    dsimp only
    rw [if_neg (by simp), if_neg (by simp), if_neg (by simp), if_neg]
    · exact hrun
    · rw [List.head?_scanl, List.getLast?_scanl, hlen, List.sum_eq_foldl_nat]
      simp
  · intro call hcall
    obtain ⟨c, -, rfl⟩ := List.mem_map.mp hcall
    trivial
  · rw [List.map_map, shadowUses, hcandidates]
    rfl
  · have hresults := forall₂_compareCandidates rfl (fun _ => rfl) hrun
    exact (map_eq_of_forall₂ (hresults.imp fun c result h => h.index.symm)).symm

/-! ### The stores -/

theorem hashes_of_places {batch : List (ScheduledRows R HV V K H)} (exp : R → R) (scale : R)
    {xs : List (StoredBlock R HV V K)}
    (hxs : ∀ x ∈ xs, ∃ q, batch[x.request]? = some q ∧ x.OfRequest exp scale blockSize q) :
    xs.map StoredBlock.blockHash = (xs.map StoredBlock.place).map fun place =>
      ((batch[place.1]?.map ScheduledRows.hashes).getD []).getD place.2 [] := by
  rw [List.map_map]
  refine List.map_congr_left ?_
  intro x hx
  obtain ⟨q, hq, hof⟩ := hxs x hx
  dsimp only [Function.comp, StoredBlock.place]
  rw [hq, Option.map_some, Option.getD_some, List.getD_eq_getElem?_getD, hof.hash, Option.getD_some]

omit [CommRing R] in
/-- The hashes at the places of a pass are those that the requests complete. -/
theorem hashes_placesOf (blockSize : Nat) (prefills : List (LayerRow R HV V K H)) :
    (placesOf blockSize (prefills.map LayerRow.toScheduledRows)
        (List.range (prefills.map LayerRow.toScheduledRows).length)).map (fun place =>
          (((prefills.map LayerRow.toScheduledRows)[place.1]?.map ScheduledRows.hashes).getD []).getD
            place.2 [])
      = (prefills.map LayerRow.request).flatMap (ScheduledRequest.completedHashes blockSize) := by
  have hrow : ∀ i : Nat, ((prefills.map LayerRow.toScheduledRows)[i]?.toList.flatMap fun q =>
        ((blocksOf blockSize q).filter fun b => Covers blockSize q b).map fun b => q.hashes.getD b [])
      = (prefills.map LayerRow.request)[i]?.toList.flatMap
          (ScheduledRequest.completedHashes blockSize) := by
    intro i
    rw [List.getElem?_map, List.getElem?_map]
    cases prefills[i]? with
    | none => rfl
    | some row =>
        rw [Option.map_some, Option.map_some, Option.toList_some, Option.toList_some,
          List.flatMap_singleton, List.flatMap_singleton, ScheduledRequest.completedHashes, blocksOf]
        have hscheduled : row.toScheduledRows.scheduled = row.request.scheduled := row.length_inputs
        rw [hscheduled]
        refine congrArg (List.map _) (List.filter_congr ?_)
        intro b _
        refine decide_eq_decide.mpr ⟨fun h => ⟨h.hashed, h.start, ?_⟩, fun h => ⟨h.1, h.2.1, ?_⟩⟩
        · rw [← hscheduled]
          exact h.stop
        · rw [hscheduled]
          exact h.2.2
  rw [placesOf, List.map_flatMap, List.length_map]
  have hrange : ∀ (l : List ScheduledRequest) (f : ScheduledRequest → List ContextualHash),
      l.flatMap f = (List.range l.length).flatMap fun i => l[i]?.toList.flatMap f := by
    intro l f
    induction l with
    | nil => rfl
    | cons q l ih =>
        rw [List.flatMap_cons, List.length_cons, List.range_succ_eq_map, List.flatMap_cons,
          List.flatMap_map, ih]
        simp
  rw [hrange, List.length_map]
  refine List.flatMap_congr ?_
  intro i _
  rw [← hrow i]
  cases hq : (prefills.map LayerRow.toScheduledRows)[i]? with
  | none => rfl
  | some q =>
      rw [Option.toList_some, List.flatMap_singleton, List.map_map]
      refine List.map_congr_left ?_
      intro b _
      dsimp only [Function.comp]
      rw [hq, Option.map_some, Option.getD_some]

end

/-! ### The end of a pass -/

section

variable {R : Type} {HV V K H : Nat} {C : Type} [CommRing R] (exp : R → R) (scale : R)

/-- An operator that a pass stores: it is built from the inputs of a block that a prefill completes. -/
def StoredBy (blockSize : Nat) (rows : List (LayerRow R HV V K H))
    (e : ContextualHash × GdnAffineOperator R HV V K) : Prop :=
  ∃ row ∈ prefillsOf rows, ∃ x : StoredBlock R HV V K,
    x.OfRequest exp scale blockSize row.toScheduledRows ∧ (x.blockHash, x.operator) = e

theorem shadowUses_of_empty {prefills : List ScheduledRequest}
    (h : (prefills.map ScheduledRequest.candidates).all List.isEmpty = true) :
    shadowUses prefills = [] := by
  rw [shadowUses, List.map_eq_nil_iff, List.eq_nil_iff_forall_not_mem]
  intro c hc
  obtain ⟨cs, hcs, hin⟩ := mem_indexedCandidates.mp hc
  have hempty := List.all_eq_true.mp h cs (List.mem_of_getElem? hcs)
  rw [List.isEmpty_iff.mp hempty] at hin
  cases hin

variable {rows : List (LayerRow R HV V K H)} {cfg : GdnModelConfig HV V K}

/-- What a pass does with the sidecar after the prefills. -/
theorem finishSidecar_ok (measure : ShadowMeasure R HV V K C) (numDecodes : Nat)
    (hrows : RowsReady cfg.mambaBlockSize rows) {executed : Bool}
    (stateCache : Nat → RecurrentState R HV V K) {outputs : List (List (TokenOutput R HV V))}
    (houtputs : executed = false → outputs.map List.length
      = ((prefillsOf rows).map LayerRow.toBatchRow).map fun row => row.tokens.length)
    {s : GdnDeltaOperatorSidecar R HV V K} (hs : HoldsBlocks cfg.deltaBlockSize s) :
    ∃ results calls, finishSidecar exp scale measure cfg numDecodes (prefillsOf rows) executed
        stateCache outputs s = .ok (results, s.run calls) ∧
      (∀ call ∈ calls, call.Accepted cfg.deltaBlockSize) ∧
      calls.map GdnDeltaOperatorSidecar.Call.use
        = (if executed = true then [] else shadowUses ((prefillsOf rows).map LayerRow.request))
          ++ storeUses cfg.deltaBlockSize ((prefillsOf rows).map LayerRow.request) ∧
      (∀ h operator, .store h operator ∈ calls →
        StoredBy exp scale cfg.deltaBlockSize rows (h, operator)) ∧
      results.map GdnDeltaBlockShadowResult.sequenceIndex
        = if executed = true ∨ ((prefillsOf rows).map fun row => row.request.candidates).all
            List.isEmpty = true
          then []
          else (indexedCandidates ((prefillsOf rows).map fun row => row.request.candidates)).map
            fun c => c.1 + numDecodes := by
  have hcandidates : (prefillsOf rows).map (fun row => row.request.candidates)
      = ((prefillsOf rows).map LayerRow.request).map ScheduledRequest.candidates := by
    rw [List.map_map]
    rfl
  -- the comparison
  obtain ⟨results, compared, hcompare, haccepted, huses, hstores, hindices⟩ :
      ∃ (results : List (GdnDeltaBlockShadowResult C))
        (calls : List (GdnDeltaOperatorSidecar.Call R HV V K)),
        (if executed = true ∨ ((prefillsOf rows).map fun row => row.request.candidates).all
            List.isEmpty = true then .ok ([], s)
          else shadowComparison measure cfg numDecodes ((prefillsOf rows).map LayerRow.toBatchRow)
            stateCache outputs s ((prefillsOf rows).map fun row => row.request.candidates))
          = .ok (results, s.run calls) ∧ (∀ call ∈ calls, call.Accepted cfg.deltaBlockSize) ∧
        calls.map GdnDeltaOperatorSidecar.Call.use = (if executed = true then []
          else shadowUses ((prefillsOf rows).map LayerRow.request)) ∧
        (∀ h operator, .store h operator ∉ calls) ∧
        results.map GdnDeltaBlockShadowResult.sequenceIndex
          = if executed = true ∨ ((prefillsOf rows).map fun row => row.request.candidates).all
              List.isEmpty = true
            then []
            else (indexedCandidates ((prefillsOf rows).map fun row => row.request.candidates)).map
              fun c => c.1 + numDecodes := by
    by_cases hskip : executed = true ∨
        ((prefillsOf rows).map fun row => row.request.candidates).all List.isEmpty = true
    · refine ⟨[], [], if_pos hskip, fun _ h => (by cases h), ?_,
        fun _ _ h => (by cases h), (if_pos hskip).symm⟩
      rcases hskip with hexec | hempty
      · rw [if_pos hexec]
        rfl
      · rw [hcandidates] at hempty
        rw [shadowUses_of_empty hempty, ite_self]
        rfl
    · have hexec : executed = false := (Bool.not_eq_true _).mp fun h => hskip (Or.inl h)
      obtain ⟨results, calls, hrun, haccepted, huses, hindices⟩ := shadowComparison_ok measure cfg
        numDecodes stateCache (houtputs hexec) hs
      refine ⟨results, calls, (if_neg hskip).trans hrun, haccepted, ?_, ?_,
        hindices.trans (if_neg hskip).symm⟩
      · rw [if_neg (by rw [hexec]; decide)]
        exact huses
      · intro h operator hin
        have huse := List.mem_map_of_mem (f := GdnDeltaOperatorSidecar.Call.use) hin
        rw [huses, shadowUses] at huse
        obtain ⟨c, -, hc⟩ := List.mem_map.mp huse
        cases hc
  -- the stores
  obtain ⟨xs, hstore, hplaces, hxs⟩ := storeBatch_run exp scale (wellFormed_toScheduledRows hrows)
    (hs.run haccepted).ready
  refine ⟨results, compared ++ xs.map StoredBlock.call, ?_, ?_, ?_, ?_, hindices⟩
  · rw [finishSidecar]
    dsimp only
    rw [hcompare]
    change (storeBatch exp scale (s.run compared) _ >>= _) = _
    rw [hstore, GdnDeltaOperatorSidecar.run, GdnDeltaOperatorSidecar.run, GdnDeltaOperatorSidecar.run,
      List.foldl_append]
    rfl
  · intro call hcall
    rcases List.mem_append.mp hcall with hcall | hcall
    · exact haccepted call hcall
    · obtain ⟨x, hx, rfl⟩ := List.mem_map.mp hcall
      obtain ⟨q, -, hof⟩ := hxs x hx
      exact hof.accepted
  · have hhashes := hashes_of_places exp scale hxs
    rw [hplaces, hashes_placesOf] at hhashes
    rw [List.map_append, huses, storeUses, ← hhashes, List.map_map, List.map_map]
    rfl
  · intro h operator hin
    rcases List.mem_append.mp hin with hin | hin
    · exact absurd hin (hstores h operator)
    · obtain ⟨x, hx, hcall⟩ := List.mem_map.mp hin
      obtain ⟨q, hq, hof⟩ := hxs x hx
      obtain ⟨row, hrow, rfl⟩ := List.mem_map.mp (List.mem_of_getElem? hq)
      cases hcall
      exact ⟨row, hrow, x, hof, rfl⟩

/-- What the last part of a pass leaves of a sidecar that some calls have used. -/
structure PassKeeps (cfg : GdnModelConfig HV V K) (rows : List (LayerRow R HV V K H))
    (before : Option (GdnDeltaOperatorSidecar R HV V K))
    (after : Option (GdnDeltaOperatorSidecar R HV V K)) : Prop where
  holds : ∀ s, after = some s → HoldsBlocks cfg.deltaBlockSize s
  index : after.map GdnDeltaOperatorSidecar.index
    = passIndex cfg (rows.map LayerRow.request) (before.map GdnDeltaOperatorSidecar.index)
  contents : ∀ s, after = some s → ∀ e ∈ s.contents,
    (∃ s₀, before = some s₀ ∧ e ∈ s₀.contents) ∨ StoredBy exp scale cfg.deltaBlockSize rows e

/-- A sidecar that a layer starts a pass with: the one it has, or a new one. -/
structure StartsWith (cfg : GdnModelConfig HV V K)
    (before : Option (GdnDeltaOperatorSidecar R HV V K)) (s : GdnDeltaOperatorSidecar R HV V K) :
    Prop where
  holds : HoldsBlocks cfg.deltaBlockSize s
  index : s.index = (before.map GdnDeltaOperatorSidecar.index).getD
    (.init cfg.capacity cfg.deltaBlockSize)
  contents : ∀ e ∈ s.contents, ∃ s₀, before = some s₀ ∧ e ∈ s₀.contents

/-- The last part of a pass, after the lookup of the attempt. -/
theorem finishLayer_ok (measure : ShadowMeasure R HV V K C) (numDecodes : Nat)
    (hrows : RowsReady cfg.mambaBlockSize rows) (hpre : (prefillsOf rows).isEmpty = false)
    (hcap : cfg.capacity ≠ 0) {before : Option (GdnDeltaOperatorSidecar R HV V K)}
    {s : GdnDeltaOperatorSidecar R HV V K} (hs : StartsWith cfg before s) {executed : Bool}
    (hexecuted : executed = passReuses cfg (rows.map LayerRow.request) s.index)
    (stateCache : Nat → RecurrentState R HV V K) {outputs : List (List (TokenOutput R HV V))}
    (houtputs : executed = false → outputs.map List.length
      = ((prefillsOf rows).map LayerRow.toBatchRow).map fun row => row.tokens.length) :
    ∃ results s', finishLayer exp scale measure cfg numDecodes (prefillsOf rows) executed stateCache
        outputs
        (some (s.run [.lookupMany (attemptHashes cfg (rows.map LayerRow.request))]))
        = .ok (results, some s') ∧ PassKeeps exp scale cfg rows before (some s') ∧
      results.map GdnDeltaBlockShadowResult.sequenceIndex
        = if executed = true ∨ ((prefillsOf rows).map fun row => row.request.candidates).all
            List.isEmpty = true
          then []
          else (indexedCandidates ((prefillsOf rows).map fun row => row.request.candidates)).map
            fun c => c.1 + numDecodes := by
  have hlookup : ∀ call ∈ ([.lookupMany (attemptHashes cfg (rows.map LayerRow.request))] :
      List (GdnDeltaOperatorSidecar.Call R HV V K)),
      call.Accepted cfg.deltaBlockSize := by
    intro call hcall
    rw [List.mem_singleton.mp hcall]
    trivial
  obtain ⟨results, calls, hrun, haccepted, huses, hstores, hindices⟩ := finishSidecar_ok exp scale measure
    numDecodes hrows stateCache houtputs (hs.holds.run hlookup)
  have hall : ∀ call ∈ .lookupMany (attemptHashes cfg (rows.map LayerRow.request)) :: calls,
      call.Accepted cfg.deltaBlockSize := by
    intro call hcall
    rcases List.mem_cons.mp hcall with rfl | hcall
    · trivial
    · exact haccepted call hcall
  refine ⟨results, s.run (.lookupMany (attemptHashes cfg (rows.map LayerRow.request)) :: calls),
    ?_, ⟨?_, ?_, ?_⟩, hindices⟩
  · rw [finishLayer, hrun]
    rfl
  · intro s' hs'
    cases hs'
    exact hs.holds.run hall
  · have hempty : ((rows.map LayerRow.request).filter fun q => !q.isDecode).isEmpty = false := by
      rw [← map_request_prefillsOf, List.isEmpty_map]
      exact hpre
    rw [passIndex, if_neg (by rw [hempty]; decide), if_neg hcap]
    dsimp only
    rw [← hs.index, Option.map_some, hs.holds.ready.index_run _ hall, List.map_cons, huses, hexecuted,
      passUses, map_request_prefillsOf]
    rfl
  · intro s' hs' e he
    cases hs'
    rcases hs.holds.ready.mem_contents_run _ hall he with he | hin
    · exact Or.inl (hs.contents e he)
    · rcases List.mem_cons.mp hin with hin | hin
      · cases hin
      · exact Or.inr (hstores _ _ hin)

/-! ### A whole pass -/

/-- Whether a layer reports that its last pass reused. -/
def GdnLayer.reused (layer : GdnLayer R HV V K C) : Bool :=
  (layer.lastActiveSummary.map GdnDeltaActiveLayerSummary.executed).getD false

omit [CommRing R] in
/-- The batches that fit have aligned prefills. -/
theorem BatchFits.aligned (h : BatchFits cfg (rows.map LayerRow.request)) :
    ∀ row ∈ (prefillsOf rows).map LayerRow.toBatchRow,
      BoundariesAligned cfg.mambaBlockSize FLA_CHUNK_SIZE row.computed row.seqLen := by
  intro r hr
  obtain ⟨row, hrow, rfl⟩ := List.mem_map.mp hr
  rw [row.seqLen_toBatchRow]
  obtain ⟨hrow, hpre⟩ := mem_prefillsOf.mp hrow
  cases hadm : admitted cfg (rows.map LayerRow.request) with
  | none => exact h.2 hadm row.request (List.mem_map_of_mem hrow) hpre
  | some q =>
      obtain ⟨row', rfl, rfl, -, -⟩ := rows_of_admitted hadm
      obtain rfl := List.mem_singleton.mp hrow
      obtain ⟨hpage, hcomputed⟩ := h.1 _ hadm
      have hchunk := cfg.chunk_dvd (cfg.capacity_pos (admitted_eq_some.mp hadm).2.1)
      exact ⟨hchunk.trans hpage, Or.inr (hchunk.trans hcomputed)⟩

/-- The full recurrence on the prefills of a batch that fits. -/
theorem prefillForward_fits (hrows : RowsReady cfg.mambaBlockSize rows)
    (hfits : BatchFits cfg (rows.map LayerRow.request))
    (stateCache : Nat → RecurrentState R HV V K) :
    ∃ outputs m, prefillForward (gatedDeltaStep exp scale) 0 cfg.mambaBlockSize stateCache
        ((prefillsOf rows).map LayerRow.toBatchRow) = .ok (outputs, m) ∧
      outputs.map List.length
        = ((prefillsOf rows).map LayerRow.toBatchRow).map fun row => row.tokens.length := by
  refine ⟨_, _, prefillForward_ok cfg.mambaBlockSize_pos hrows.prefills.ready
    isDecode_of_mem_prefillsOf hfits.aligned stateCache, ?_⟩
  rw [List.map_map]
  refine List.map_congr_left ?_
  intro row _
  exact Scan.length_run _ _ _

theorem passReuses_of_shadow (hmode : cfg.executionMode ≠ "active") (batch : List ScheduledRequest)
    (x : SidecarIndex) : passReuses cfg batch x = false ∧ attemptHashes cfg batch = [] := by
  have hadm : admitted cfg batch = none := by
    cases h : admitted cfg batch with
    | none => rfl
    | some q => exact absurd (admitted_eq_some.mp h).2.1 hmode
  refine ⟨passReuses_of_not_admitted hadm x, ?_⟩
  rw [attemptHashes, hadm]
  rfl

omit [CommRing R] in
/-- The rows that a comparison reports, from the requests of the batch. -/
theorem compared_rows (layer : GdnLayer R HV V K C) (hcap : cfg.capacity ≠ 0) {executed : Bool}
    (hexecuted : executed = stepReuses cfg (rows.map LayerRow.request)
      (layer.sidecar.map GdnDeltaOperatorSidecar.index)) :
    (if executed = true ∨ ((prefillsOf rows).map fun row => row.request.candidates).all
        List.isEmpty = true
      then []
      else (indexedCandidates ((prefillsOf rows).map fun row => row.request.candidates)).map
        fun c => c.1 + (gdnActiveMetadata (rows.map LayerRow.toBatchRow)).numDecodes)
      = if stepCompares cfg (rows.map LayerRow.request)
          (layer.sidecar.map GdnDeltaOperatorSidecar.index) = true
        then shadowRows (rows.map LayerRow.request)
        else [] := by
  have hcandidates : (prefillsOf rows).map (fun row => row.request.candidates)
      = ((rows.map LayerRow.request).filter fun q => !q.isDecode).map
          ScheduledRequest.candidates := by
    rw [← map_request_prefillsOf, List.map_map]
    rfl
  have hdecodes : (gdnActiveMetadata (rows.map LayerRow.toBatchRow)).numDecodes
      = ((rows.map LayerRow.request).filter ScheduledRequest.isDecode).length := by
    rw [(metadata_eq rows).2, List.filter_map, List.length_map]
    rfl
  rw [hcandidates, hdecodes, stepCompares, decide_eq_true hcap, ← hexecuted, Bool.true_and, shadowRows]
  cases executed with
  | true => rw [if_pos (Or.inl rfl), if_neg (by simp)]
  | false =>
      by_cases hempty : (((rows.map LayerRow.request).filter fun q => !q.isDecode).map
          ScheduledRequest.candidates).all List.isEmpty = true
      · rw [if_pos (Or.inr hempty), if_neg (by rw [hempty]; simp)]
      · rw [if_neg (by rw [not_or]; exact ⟨by decide, hempty⟩),
          if_pos (by rw [(Bool.not_eq_true _).mp hempty]; rfl)]

/-- What a pass over prefills does. -/
structure PrefillPass (cfg : GdnModelConfig HV V K) (rows : List (LayerRow R HV V K H))
    (layer layer' : GdnLayer R HV V K C) (outputs : List (List (TokenOutput R HV V))) : Prop where
  keeps : PassKeeps exp scale cfg rows layer.sidecar layer'.sidecar
  reused : layer'.reused = stepReuses cfg (rows.map LayerRow.request)
    (layer.sidecar.map GdnDeltaOperatorSidecar.index)
  compared : layer'.lastShadowResults.map GdnDeltaBlockShadowResult.sequenceIndex
    = if stepCompares cfg (rows.map LayerRow.request)
        (layer.sidecar.map GdnDeltaOperatorSidecar.index) = true
      then shadowRows (rows.map LayerRow.request)
      else []
  full : layer'.reused = false →
    prefillForward (gatedDeltaStep exp scale) 0 cfg.mambaBlockSize layer.stateCache
      ((prefillsOf rows).map LayerRow.toBatchRow) = .ok (outputs, layer'.stateCache)

/-- **The prefills of a pass** in active mode. -/
theorem layerPrefills_active (measure : ShadowMeasure R HV V K C)
    (contents : Nat → GdnAffineOperator R HV V K) (hmode : cfg.executionMode = "active")
    (hrows : RowsReady cfg.mambaBlockSize rows) (hpre : (prefillsOf rows).isEmpty = false)
    (hfits : BatchFits cfg (rows.map LayerRow.request)) {layer : GdnLayer R HV V K C}
    (hlayer : ∀ s, layer.sidecar = some s → HoldsBlocks cfg.deltaBlockSize s) :
    ∃ outputs layer', layerPrefills exp scale measure cfg contents
        (gdnActiveMetadata (rows.map LayerRow.toBatchRow)) (prefillsOf rows) layer
        = .ok (outputs, layer') ∧ PrefillPass exp scale cfg rows layer layer' outputs := by
  have hcap := Nat.ne_of_gt (cfg.capacity_pos hmode)
  obtain ⟨s, hsidecar, hholds, hindex, hcontents⟩ := operatorSidecar_ok cfg hcap contents hlayer
  have hs : StartsWith cfg layer.sidecar s := ⟨hholds, hindex, hcontents⟩
  have hinitial := @initialStates_ok _ _ 0 _ cfg.mambaBlockSize_pos _ hrows.prefills.ready
    isDecode_of_mem_prefillsOf layer.stateCache
  have hcount : (((prefillsOf rows).map LayerRow.toBatchRow).map
      (BatchRow.initialState 0 cfg.mambaBlockSize layer.stateCache)).length
        = (prefillsOf rows).length := by
    rw [List.length_map, List.length_map]
  obtain ⟨result, reason, m, hattempt, hreuse, hkeep⟩ := activeAttempt_ok exp scale hmode hrows hfits.1
    hholds layer.stateCache hcount
  obtain ⟨full, mfull, hfull, hlens⟩ := prefillForward_fits exp scale hrows hfits layer.stateCache
  -- the outputs and the slots after the prefills
  obtain ⟨outputs, m', houtputs, hnone⟩ : ∃ outputs m', prefillOutputs exp scale cfg.mambaBlockSize
      ((prefillsOf rows).map LayerRow.toBatchRow) m result = .ok (outputs, m') ∧
      (result.isSome = false → outputs = full ∧ m' = mfull) := by
    cases result with
    | some result => exact ⟨_, _, rfl, fun h => (by cases h)⟩
    | none =>
        refine ⟨full, mfull, ?_, fun _ => ⟨rfl, rfl⟩⟩
        rw [hkeep rfl]
        exact hfull
  have houtputs_length : result.isSome = false → outputs.map List.length
      = ((prefillsOf rows).map LayerRow.toBatchRow).map fun row => row.tokens.length := by
    intro h
    rw [(hnone h).1]
    exact hlens
  obtain ⟨results, s', hfinish, hkeeps, hindices⟩ := finishLayer_ok exp scale measure
    (gdnActiveMetadata (rows.map LayerRow.toBatchRow)).numDecodes hrows hpre hcap hs hreuse m'
    houtputs_length
  have hstep : result.isSome = stepReuses cfg (rows.map LayerRow.request)
      (layer.sidecar.map GdnDeltaOperatorSidecar.index) := by
    rw [hreuse, hs.index]
    rfl
  refine ⟨outputs, ⟨some s', m', some (activeSummary result reason), results⟩, ?_, hkeeps, ?_, ?_, ?_⟩
  · rw [layerPrefills]
    dsimp only
    rw [hinitial, hsidecar]
    change (if cfg.executionMode = "active" then _ else _) = _
    rw [if_pos hmode, hattempt]
    change (prefillOutputs exp scale cfg.mambaBlockSize _ m result >>= _) = _
    rw [houtputs]
    change (finishLayer exp scale measure cfg _ _ _ m' outputs _ >>= _) = _
    rw [hfinish]
    rfl
  · exact hstep
  · exact hindices.trans (compared_rows layer hcap hstep)
  · intro h
    obtain ⟨rfl, rfl⟩ := hnone h
    exact hfull

/-- The prefills of a pass in shadow mode. -/
theorem layerPrefills_shadow (measure : ShadowMeasure R HV V K C)
    (contents : Nat → GdnAffineOperator R HV V K) (hmode : cfg.executionMode ≠ "active")
    (hrows : RowsReady cfg.mambaBlockSize rows) (hpre : (prefillsOf rows).isEmpty = false)
    (hfits : BatchFits cfg (rows.map LayerRow.request)) {layer : GdnLayer R HV V K C}
    (hlayer : ∀ s, layer.sidecar = some s → HoldsBlocks cfg.deltaBlockSize s) :
    ∃ outputs layer', layerPrefills exp scale measure cfg contents
        (gdnActiveMetadata (rows.map LayerRow.toBatchRow)) (prefillsOf rows) layer
        = .ok (outputs, layer') ∧ PrefillPass exp scale cfg rows layer layer' outputs := by
  have hinitial := @initialStates_ok _ _ 0 _ cfg.mambaBlockSize_pos _ hrows.prefills.ready
    isDecode_of_mem_prefillsOf layer.stateCache
  obtain ⟨full, mfull, hfull, hlens⟩ := prefillForward_fits exp scale hrows hfits layer.stateCache
  have hreuse := passReuses_of_shadow hmode (rows.map LayerRow.request)
  -- the sidecar after the pass
  obtain ⟨sidecar, results, sidecar', hsidecar, hfinish, hkeeps, hindices⟩ :
      ∃ sidecar results sidecar', operatorSidecar cfg contents layer.sidecar = .ok sidecar ∧
        finishLayer exp scale measure cfg
          (gdnActiveMetadata (rows.map LayerRow.toBatchRow)).numDecodes (prefillsOf rows) false mfull
          full sidecar = .ok (results, sidecar') ∧
        PassKeeps exp scale cfg rows layer.sidecar sidecar' ∧
        results.map GdnDeltaBlockShadowResult.sequenceIndex
          = if stepCompares cfg (rows.map LayerRow.request)
              (layer.sidecar.map GdnDeltaOperatorSidecar.index) = true
            then shadowRows (rows.map LayerRow.request)
            else [] := by
    by_cases hcap : cfg.capacity = 0
    · refine ⟨none, [], none, if_pos hcap, rfl, ⟨fun _ h => (by cases h), ?_,
        fun _ h => (by cases h)⟩, ?_⟩
      rotate_left
      · rw [stepCompares, decide_eq_false (not_not_intro hcap)]
        rfl
      have hempty : ((rows.map LayerRow.request).filter fun q => !q.isDecode).isEmpty = false := by
        rw [← map_request_prefillsOf, List.isEmpty_map]
        exact hpre
      rw [passIndex, if_neg (by rw [hempty]; decide), if_pos hcap]
      rfl
    · obtain ⟨s, hsidecar, hholds, hindex, hcontents⟩ := operatorSidecar_ok cfg hcap contents hlayer
      obtain ⟨results, s', hfinish, hkeeps, hindices⟩ := finishLayer_ok exp scale measure
        (gdnActiveMetadata (rows.map LayerRow.toBatchRow)).numDecodes hrows hpre hcap
        ⟨hholds, hindex, hcontents⟩ (hreuse s.index).1.symm mfull (fun _ => hlens)
      rw [(hreuse s.index).2] at hfinish
      exact ⟨some s, results, some s', hsidecar, hfinish, hkeeps,
        hindices.trans (compared_rows layer hcap (hreuse _).1.symm)⟩
  refine ⟨full, ⟨sidecar', mfull, none, results⟩, ?_, hkeeps, ?_, hindices,
    fun _ => hfull⟩
  · rw [layerPrefills]
    dsimp only
    rw [hinitial, hsidecar]
    change (if cfg.executionMode = "active" then _ else _) = _
    rw [if_neg hmode, hfull]
    change (finishLayer exp scale measure cfg _ _ _ mfull full _ >>= _) = _
    rw [hfinish]
    rfl
  · exact (hreuse _).1.symm

/-- What a pass does: it uses the sidecar as its index says, it reuses with all operators resident, and when
it does not reuse it leaves the outputs and the slots of the full recurrence. -/
structure LayerStep (cfg : GdnModelConfig HV V K) (rows : List (LayerRow R HV V K H))
    (layer layer' : GdnLayer R HV V K C) (outputs : List (List (TokenOutput R HV V))) : Prop where
  keeps : PassKeeps exp scale cfg rows layer.sidecar layer'.sidecar
  reused : layer'.reused = stepReuses cfg (rows.map LayerRow.request)
    (layer.sidecar.map GdnDeltaOperatorSidecar.index)
  compared : layer'.lastShadowResults.map GdnDeltaBlockShadowResult.sequenceIndex
    = if stepCompares cfg (rows.map LayerRow.request)
        (layer.sidecar.map GdnDeltaOperatorSidecar.index) = true
      then shadowRows (rows.map LayerRow.request)
      else []
  full : layer'.reused = false →
    fullLayerForward exp scale cfg.mambaBlockSize rows layer.stateCache
      = .ok (outputs, layer'.stateCache)

theorem decodeOutputs_ok {blockSize : Nat} (hbs : 0 < blockSize)
    {rows : List (BatchRow (GdnToken R HV V K))} (h : BatchReady blockSize rows)
    (hdec : ∀ row ∈ rows, row.isDecode = true) (stateCache : Nat → RecurrentState R HV V K) :
    ∃ outputs, decodeOutputs exp scale blockSize stateCache rows = .ok outputs := by
  have hforward := @decodeForward_ok _ _ _ (gatedDeltaStep exp scale) 0 _ hbs _ h hdec stateCache
  rw [decodeForward] at hforward
  obtain ⟨⟨slots, m⟩, hprepare, -⟩ := Except.bind_eq_ok.mp hforward
  rw [decodeOutputs, hprepare]
  exact ⟨_, rfl⟩

/-- The decodes of a pass. -/
theorem decodes_ok (hrows : RowsReady cfg.mambaBlockSize rows)
    (stateCache : Nat → RecurrentState R HV V K) :
    ∃ decoded m, decodeOutputs exp scale cfg.mambaBlockSize stateCache
        ((decodesOf rows).map LayerRow.toBatchRow) = .ok decoded ∧
      forwardDecodes (gatedDeltaStep exp scale) cfg.mambaBlockSize stateCache
        ((decodesOf rows).map LayerRow.toBatchRow) = .ok m := by
  obtain ⟨decoded, hdecoded⟩ := decodeOutputs_ok exp scale cfg.mambaBlockSize_pos hrows.decodes
    isDecode_of_mem_decodesOf stateCache
  have hforward := @forwardDecodes_ok _ _ _ (gatedDeltaStep exp scale) _ cfg.mambaBlockSize_pos
    _ hrows.slots 0 stateCache
  rw [filter_isDecode_toBatchRow] at hforward
  exact ⟨decoded, _, hdecoded, hforward⟩

omit [CommRing R] in
theorem stepReuses_of_no_prefills (h : (prefillsOf rows).isEmpty = true) (x : Option SidecarIndex) :
    stepReuses cfg (rows.map LayerRow.request) x = false := by
  refine passReuses_of_not_admitted ?_ _
  cases hadm : admitted cfg (rows.map LayerRow.request) with
  | none => rfl
  | some q =>
      obtain ⟨row, -, -, -, hpre⟩ := rows_of_admitted hadm
      rw [hpre] at h
      cases h

/-- **A layer's pass** returns when the batch fits. -/
theorem gdnLayerForward_ok (measure : ShadowMeasure R HV V K C)
    (contents : Nat → GdnAffineOperator R HV V K) (hrows : RowsReady cfg.mambaBlockSize rows)
    (hfits : BatchFits cfg (rows.map LayerRow.request)) {layer : GdnLayer R HV V K C}
    (hlayer : ∀ s, layer.sidecar = some s → HoldsBlocks cfg.deltaBlockSize s) :
    ∃ outputs layer', gdnLayerForward exp scale measure cfg contents rows layer
        = .ok (outputs, layer') ∧ LayerStep exp scale cfg rows layer layer' outputs := by
  obtain ⟨decoded, m, hdecoded, hm⟩ := decodes_ok exp scale hrows layer.stateCache
  by_cases hpre : (prefillsOf rows).isEmpty = true
  · have hforward : gdnLayerForward exp scale measure cfg contents rows layer
        = .ok (decoded, ⟨layer.sidecar, m, none, []⟩) := by
      rw [gdnLayerForward]
      dsimp only
      rw [hdecoded, hm]
      exact if_pos hpre
    have hempty : ((rows.map LayerRow.request).filter fun q => !q.isDecode).isEmpty = true := by
      rw [← map_request_prefillsOf, List.isEmpty_map]
      exact hpre
    refine ⟨decoded, ⟨layer.sidecar, m, none, []⟩, hforward, ⟨hlayer, ?_, ?_⟩, ?_, ?_, ?_⟩
    · rw [passIndex, if_pos hempty]
    · intro s hs e he
      exact Or.inl ⟨s, hs, he⟩
    · exact (stepReuses_of_no_prefills hpre _).symm
    · rw [stepCompares, List.isEmpty_iff.mp hempty, if_neg (by simp)]
      rfl
    · intro _
      rw [fullLayerForward]
      dsimp only
      rw [hdecoded, hm]
      exact if_pos (by rw [List.isEmpty_map]; exact hpre)
  · have hnonempty := (Bool.not_eq_true _).mp hpre
    obtain ⟨outputs, layer', hprefills, hpass⟩ :
        ∃ outputs layer', layerPrefills exp scale measure cfg contents
          (gdnActiveMetadata (rows.map LayerRow.toBatchRow)) (prefillsOf rows)
          { layer with stateCache := m } = .ok (outputs, layer') ∧
          PrefillPass exp scale cfg rows { layer with stateCache := m } layer' outputs := by
      by_cases hmode : cfg.executionMode = "active"
      · exact layerPrefills_active exp scale measure contents hmode hrows hnonempty hfits hlayer
      · exact layerPrefills_shadow exp scale measure contents hmode hrows hnonempty hfits hlayer
    refine ⟨decoded ++ outputs, layer', ?_, hpass.keeps, hpass.reused, hpass.compared, ?_⟩
    · rw [gdnLayerForward]
      dsimp only
      rw [hdecoded, hm]
      refine (if_neg hpre).trans ?_
      rw [hprefills]
      rfl
    · intro h
      have hfull := hpass.full h
      dsimp only at hfull
      rw [fullLayerForward]
      dsimp only
      rw [hdecoded, hm]
      refine (if_neg (by rw [List.isEmpty_map]; exact hpre)).trans ?_
      rw [hfull]
      rfl

/-- The prefills of a batch that does not fit raise. -/
theorem layerPrefills_error (measure : ShadowMeasure R HV V K C)
    (contents : Nat → GdnAffineOperator R HV V K) (hrows : RowsReady cfg.mambaBlockSize rows)
    (hunfit : ¬ BatchFits cfg (rows.map LayerRow.request)) (layer : GdnLayer R HV V K C)
    (hlayer : ∀ s, layer.sidecar = some s → HoldsBlocks cfg.deltaBlockSize s) :
    (prefillsOf rows).isEmpty = false ∧ ∃ e, layerPrefills exp scale measure cfg contents
      (gdnActiveMetadata (rows.map LayerRow.toBatchRow)) (prefillsOf rows) layer = .error e := by
  have hinitial := @initialStates_ok _ _ 0 _ cfg.mambaBlockSize_pos _ hrows.prefills.ready
    isDecode_of_mem_prefillsOf layer.stateCache
  have hcount : (((prefillsOf rows).map LayerRow.toBatchRow).map
      (BatchRow.initialState 0 cfg.mambaBlockSize layer.stateCache)).length
        = (prefillsOf rows).length := by
    rw [List.length_map, List.length_map]
  cases hadm : admitted cfg (rows.map LayerRow.request) with
  | some q =>
      -- the attempt raises
      have hmode := (admitted_eq_some.mp hadm).2.1
      have hq : ¬ (cfg.deltaBlockSize ∣ cfg.mambaBlockSize ∧ cfg.deltaBlockSize ∣ q.computed) := by
        intro h
        refine hunfit ⟨?_, fun hnone => ?_⟩
        · intro q' hq'
          cases hadm.symm.trans hq'
          exact h
        · cases hadm.symm.trans hnone
      obtain ⟨row, -, -, -, hpre⟩ := rows_of_admitted hadm
      obtain ⟨s, hsidecar, hholds, -, -⟩ := operatorSidecar_ok cfg
        (Nat.ne_of_gt (cfg.capacity_pos hmode)) contents hlayer
      obtain ⟨e, he⟩ := activeAttempt_error exp scale hadm hq hholds layer.stateCache hcount
      refine ⟨by rw [hpre]; rfl, e, ?_⟩
      rw [layerPrefills]
      dsimp only
      rw [hinitial, hsidecar]
      change (if cfg.executionMode = "active" then _ else _) = _
      rw [if_pos hmode, he]
      rfl
  | none =>
      -- the full recurrence raises
      obtain ⟨row, hrow, hunaligned⟩ : ∃ row ∈ prefillsOf rows, ¬ BoundariesAligned
          cfg.mambaBlockSize FLA_CHUNK_SIZE row.toBatchRow.computed row.toBatchRow.seqLen := by
        by_contra hall
        push Not at hall
        refine hunfit ⟨fun q hq => (by cases hadm.symm.trans hq), ?_⟩
        intro _ q hq hpre
        obtain ⟨row, hrow, rfl⟩ := List.mem_map.mp hq
        have := hall row (mem_prefillsOf.mpr ⟨hrow, hpre⟩)
        rw [row.seqLen_toBatchRow] at this
        exact this
      obtain ⟨e, he⟩ := prefillForward_error (gatedDeltaStep exp scale) 0 cfg.mambaBlockSize_pos
        hrows.prefills.ready isDecode_of_mem_prefillsOf (List.mem_map_of_mem hrow) hunaligned
        layer.stateCache
      refine ⟨?_, ?_⟩
      · rw [List.isEmpty_eq_false_iff]
        exact List.ne_nil_of_mem hrow
      by_cases hmode : cfg.executionMode = "active"
      · obtain ⟨s, hsidecar, hholds, -, -⟩ := operatorSidecar_ok cfg
          (Nat.ne_of_gt (cfg.capacity_pos hmode)) contents hlayer
        obtain ⟨result, reason, m, hattempt, hreuse, hkeep⟩ := activeAttempt_ok exp scale hmode hrows
          (fun q hq => by cases hadm.symm.trans hq) hholds layer.stateCache hcount
        rw [passReuses_of_not_admitted hadm, Option.isSome_eq_false_iff, Option.isNone_iff_eq_none]
          at hreuse
        subst hreuse
        rw [hkeep rfl] at hattempt
        refine ⟨e, ?_⟩
        rw [layerPrefills]
        dsimp only
        rw [hinitial, hsidecar]
        change (if cfg.executionMode = "active" then _ else _) = _
        rw [if_pos hmode, hattempt]
        change (prefillForward _ 0 cfg.mambaBlockSize layer.stateCache _ >>= _) = _
        rw [he]
        rfl
      · obtain ⟨sidecar, hsidecar⟩ : ∃ sidecar, operatorSidecar cfg contents layer.sidecar
            = .ok sidecar := by
          by_cases hcap : cfg.capacity = 0
          · exact ⟨none, if_pos hcap⟩
          · obtain ⟨s, hsidecar, -⟩ := operatorSidecar_ok cfg hcap contents hlayer
            exact ⟨some s, hsidecar⟩
        refine ⟨e, ?_⟩
        rw [layerPrefills]
        dsimp only
        rw [hinitial, hsidecar]
        change (if cfg.executionMode = "active" then _ else _) = _
        rw [if_neg hmode, he]
        rfl

/-- **A layer's pass raises** when the batch does not fit. -/
theorem gdnLayerForward_error (measure : ShadowMeasure R HV V K C)
    (contents : Nat → GdnAffineOperator R HV V K) (hrows : RowsReady cfg.mambaBlockSize rows)
    (hunfit : ¬ BatchFits cfg (rows.map LayerRow.request)) {layer : GdnLayer R HV V K C}
    (hlayer : ∀ s, layer.sidecar = some s → HoldsBlocks cfg.deltaBlockSize s) :
    ∃ e, gdnLayerForward exp scale measure cfg contents rows layer = .error e := by
  obtain ⟨decoded, m, hdecoded, hm⟩ := decodes_ok exp scale hrows layer.stateCache
  obtain ⟨hpre, e, he⟩ := layerPrefills_error exp scale measure contents hrows hunfit
    { layer with stateCache := m } hlayer
  refine ⟨e, ?_⟩
  rw [gdnLayerForward]
  dsimp only
  rw [hdecoded, hm]
  refine (if_neg (by rw [hpre]; decide)).trans ?_
  rw [he]
  rfl

end

end CacheSelect.Gdn
